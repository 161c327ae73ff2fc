import Ns3.Lte.Asn1Header.Bitset

/-!
Sequences of ASN.1 types, written by one header and read by another.
-/

namespace Ns3.Lte

open Library

namespace Asn1Header

variable {self : Asn1Header} {bits rest : List Bool} {input : List UInt8}

theorem requiredBits_mem (range : Int) (several : 1 < range) (bound : range ≤ 2 ^ 20) :
    requiredBits range ∈ List.range' 1 20 := by
  have positive : 0 < requiredBits range := Nat.clog_pos Nat.one_lt_two (by omega)
  have few : requiredBits range ≤ 20 := Nat.clog_le_of_le_pow (by omega)
  rw [List.mem_range'_1]
  omega

theorem Packs.serializeBoolean (packs : Packs self bits) (value : Bool) :
    Packs (self.serializeBoolean value) (bits ++ [value]) := by
  have packed := packs.serializeBitset (BitVec.ofBool value) (by decide)
  cases value <;> exact packed

theorem Offers.deserializeBoolean {value : Bool} (offers : Offers self input (value :: rest)) :
    ∃ after left, self.deserializeBoolean input = some (value, after, left) ∧
      Offers after left rest := by
  have packed : Offers self input (bitsOf 1 (BitVec.ofBool value).toNat ++ rest) := by
    cases value <;> exact offers
  obtain ⟨after, left, read, offered⟩ := packed.deserializeBitset 0
  refine ⟨after, left, ?_, offered⟩
  rw [Asn1Header.deserializeBoolean, read]
  cases value <;> rfl

/-- The bits of a marker. -/
def markerBits (isExtensionMarkerPresent : Bool) : List Bool :=
  if isExtensionMarkerPresent then [false] else []

theorem Packs.serializeMarker (packs : Packs self bits) (isExtensionMarkerPresent : Bool) :
    Packs (if isExtensionMarkerPresent then self.serializeBoolean false else self)
      (bits ++ markerBits isExtensionMarkerPresent) := by
  cases isExtensionMarkerPresent with
  | false => exact (List.append_nil bits).symm ▸ packs
  | true => exact packs.serializeBoolean false

theorem Offers.skipMarker {isExtensionMarkerPresent : Bool}
    (offers : Offers self input (markerBits isExtensionMarkerPresent ++ rest)) :
    ∃ after left, self.skipMarker isExtensionMarkerPresent input = some (after, left) ∧
      Offers after left rest := by
  cases isExtensionMarkerPresent with
  | false => exact ⟨self, input, rfl, offers⟩
  | true =>
      obtain ⟨after, left, read, offered⟩ := offers.deserializeBoolean
      refine ⟨after, left, ?_, offered⟩
      rw [Asn1Header.skipMarker, if_pos rfl, read]
      rfl

/-- An integer of the range has the bits that the range needs. -/
theorem toNat_ofInt_requiredBits {n nmin nmax : Int} (lower : nmin ≤ n) (upper : n ≤ nmax) :
    (BitVec.ofInt (requiredBits (nmax - nmin + 1)) (n - nmin)).toNat = (n - nmin).toNat := by
  have room : (nmax - nmin + 1).toNat ≤ 2 ^ requiredBits (nmax - nmin + 1) :=
    Nat.le_pow_clog Nat.one_lt_two _
  rw [BitVec.toNat_ofInt, Int.emod_eq_of_lt (by omega)]
  omega

/-- The bits of an integer. -/
def integerBits (n nmin nmax : Int) : List Bool :=
  if nmin = nmax then [] else bitsOf (requiredBits (nmax - nmin + 1)) (n - nmin).toNat

theorem Packs.serializeInteger (packs : Packs self bits) {n nmin nmax : Int} (lower : nmin ≤ n)
    (upper : n ≤ nmax) (bound : nmax - nmin + 1 ≤ 2 ^ 20) :
    ∃ after, self.serializeInteger n nmin nmax = some after ∧
      Packs after (bits ++ integerBits n nmin nmax) := by
  rw [Asn1Header.serializeInteger, if_pos ⟨lower, upper⟩, integerBits]
  by_cases single : nmin = nmax
  · rw [if_pos (by omega), if_pos single, List.append_nil]
    exact ⟨self, rfl, packs⟩
  · have bits := requiredBits_mem (nmax - nmin + 1) (by omega) bound
    have few := List.mem_range'_1.mp bits
    rw [if_neg (by omega), if_pos bits, if_neg single, ← toNat_ofInt_requiredBits lower upper]
    exact ⟨_, rfl, packs.serializeBitset _ (by omega)⟩

theorem Offers.deserializeInteger {n nmin nmax : Int} (lower : nmin ≤ n)
    (upper : n ≤ nmax) (bound : nmax - nmin + 1 ≤ 2 ^ 20)
    (offers : Offers self input (integerBits n nmin nmax ++ rest)) (destination : Int) :
    ∃ after left, self.deserializeInteger destination nmin nmax input =
        some (if nmin = nmax then destination else n, after, left) ∧
      Offers after left rest := by
  have ordered : ¬ nmin > nmax := by omega
  rw [Asn1Header.deserializeInteger, if_neg ordered]
  rw [integerBits] at offers
  by_cases single : nmin = nmax
  · rw [if_pos single, List.nil_append] at offers
    rw [if_pos single]
    exact ⟨self, input, if_pos (by omega), offers⟩
  · have bits := requiredBits_mem (nmax - nmin + 1) (by omega) bound
    rw [if_neg single, ← toNat_ofInt_requiredBits lower upper] at offers
    obtain ⟨after, left, read, offered⟩ := offers.deserializeBitset 0
    refine ⟨after, left, ?_, offered⟩
    dsimp only
    rw [if_neg (by omega), if_pos bits, read, if_neg single]
    have value : ((n - nmin).toNat : Int) + nmin = n := by omega
    rw [← toNat_ofInt_requiredBits lower upper] at value
    exact congrArg (fun value => some (value, after, left)) value

end Asn1Header

/-- The type of a value, with what a pair of `Serialize*` and `Deserialize*` is told of it. -/
inductive Asn1Type
  | boolean
  | bitstring (size : Nat)
  | sequence (size : Nat) (isExtensionMarkerPresent : Bool)
  | enum (numElems : Int)
  | choice (numOptions : Int) (isExtensionMarkerPresent : Bool)
  | integer (nmin nmax : Int)
  deriving DecidableEq, Repr

namespace Asn1Type

/-- The values of a type. -/
abbrev Value : Asn1Type → Type
  | boolean => Bool
  | bitstring size => BitVec size
  | sequence size _ => BitVec size
  | enum _ => Int
  | choice _ _ => Int
  | integer _ _ => Int

/-- A `Serialize*`. -/
def serialize : (type : Asn1Type) → type.Value → Asn1Header → Option Asn1Header
  | boolean, value, self => some (self.serializeBoolean value)
  | bitstring _, data, self => some (self.serializeBitstring data)
  | sequence _ marker, mask, self => some (self.serializeSequence mask marker)
  | enum numElems, selectedElem, self => self.serializeEnum numElems selectedElem
  | choice numOptions marker, selectedOption, self =>
      self.serializeChoice numOptions selectedOption marker
  | integer nmin nmax, n, self => self.serializeInteger n nmin nmax

/-- A `Deserialize*` into a variable. -/
def deserialize : (type : Asn1Type) → type.Value → Asn1Header → List UInt8 →
    Option (type.Value × Asn1Header × List UInt8)
  | boolean, _, self, input => self.deserializeBoolean input
  | bitstring _, data, self, input => self.deserializeBitstring data input
  | sequence _ marker, mask, self, input => self.deserializeSequence mask marker input
  | enum numElems, selectedElem, self, input => self.deserializeEnum numElems selectedElem input
  | choice numOptions marker, selectedOption, self, input =>
      self.deserializeChoice numOptions marker selectedOption input
  | integer nmin nmax, n, self, input => self.deserializeInteger n nmin nmax input

/-- The values that the header has functions for, with ranges of at most `2 ^ 20`. -/
def Fits : (type : Asn1Type) → type.Value → Prop
  | boolean, _ => True
  | bitstring size, _ => size ∈ [1, 2, 8, 10, 16, 27, 28, 32]
  | sequence size _, _ => size ∈ [0, 1, 2, 3, 4, 5, 6, 7, 9, 10, 11]
  | enum numElems, selectedElem => (0 : Int) ≤ selectedElem ∧ selectedElem < numElems ∧
      numElems ≤ 2 ^ 20
  | choice numOptions _, selectedOption => (0 : Int) ≤ selectedOption ∧
      selectedOption < numOptions ∧ numOptions ≤ 2 ^ 20
  | integer nmin nmax, n => nmin ≤ n ∧ n ≤ nmax ∧ nmax - nmin + 1 ≤ 2 ^ 20

/-- There is only one value. -/
def Single : Asn1Type → Prop
  | enum numElems => numElems = 1
  | choice numOptions _ => numOptions = 1
  | integer nmin nmax => nmin = nmax
  | _ => False

instance (type : Asn1Type) : Decidable type.Single := by
  cases type <;> unfold Single <;> infer_instance

open Asn1Header

/-- The bits of a value. -/
def bits : (type : Asn1Type) → type.Value → List Bool
  | boolean, value => [value]
  | bitstring size, data => bitsOf size data.toNat
  | sequence size marker, mask => markerBits marker ++ bitsOf size mask.toNat
  | enum numElems, selectedElem => integerBits selectedElem 0 (numElems - 1)
  | choice numOptions marker, selectedOption =>
      markerBits marker ++ integerBits selectedOption 0 (numOptions - 1)
  | integer nmin nmax, n => integerBits n nmin nmax

/-- What is in the variable afterwards. -/
def read (type : Asn1Type) (value destination : type.Value) : type.Value :=
  if type.Single then destination else value

variable {self : Asn1Header} {written rest : List Bool} {input : List UInt8}

theorem packs_serialize {type : Asn1Type} {value : type.Value} (fits : type.Fits value)
    (packs : Packs self written) :
    ∃ after, type.serialize value self = some after ∧
      Packs after (written ++ type.bits value) := by
  cases type with
  | boolean => exact ⟨_, rfl, packs.serializeBoolean value⟩
  | bitstring size =>
      have small : ∀ size ∈ [1, 2, 8, 10, 16, 27, 28, 32], size < 2 ^ 8 := by decide
      exact ⟨_, rfl, packs.serializeBitset value (small size fits)⟩
  | sequence size marker =>
      have small : ∀ size ∈ [0, 1, 2, 3, 4, 5, 6, 7, 9, 10, 11], size < 2 ^ 8 := by decide
      have packed := (packs.serializeMarker marker).serializeBitset value (small size fits)
      rw [List.append_assoc] at packed
      exact ⟨_, rfl, packed⟩
  | enum numElems =>
      obtain ⟨lower, upper, bound⟩ := fits
      exact packs.serializeInteger lower (Int.le_sub_one_of_lt upper) (by omega)
  | choice numOptions marker =>
      obtain ⟨lower, upper, bound⟩ := fits
      have upper := Int.le_sub_one_of_lt upper
      have marked := packs.serializeMarker marker
      rw [serialize, serializeChoice]
      generalize (if marker then self.serializeBoolean false else self) = self at marked ⊢
      obtain ⟨after, written, packed⟩ := marked.serializeInteger lower upper (by omega)
      rw [List.append_assoc] at packed
      refine ⟨after, ?_, packed⟩
      by_cases several : numOptions < 2
      · rw [if_pos several, ← written, serializeInteger, if_pos ⟨lower, upper⟩,
          if_pos (by omega)]
      · rw [if_neg several, written]
  | integer nmin nmax =>
      obtain ⟨lower, upper, bound⟩ := fits
      exact packs.serializeInteger lower upper bound

theorem read_range {type : Asn1Type} {nmin nmax : Int} (single : type.Single ↔ nmin = nmax)
    (value destination : type.Value) :
    type.read value destination = if nmin = nmax then destination else value := by
  rw [read]
  exact if_congr single rfl rfl

theorem offers_deserialize {type : Asn1Type} {value : type.Value} (fits : type.Fits value)
    (destination : type.Value) (offers : Offers self input (type.bits value ++ rest)) :
    ∃ after left, type.deserialize destination self input =
        some (type.read value destination, after, left) ∧ Offers after left rest := by
  cases type with
  | boolean => exact offers.deserializeBoolean
  | bitstring size => exact offers.deserializeBitset destination
  | sequence size marker =>
      rw [bits, List.append_assoc] at offers
      obtain ⟨marked, input, skipped, offers⟩ := offers.skipMarker
      obtain ⟨after, left, restored, offered⟩ := offers.deserializeBitset destination
      refine ⟨after, left, ?_, offered⟩
      rw [deserialize, deserializeSequence, skipped]
      exact restored
  | enum numElems =>
      obtain ⟨lower, upper, bound⟩ := fits
      have single : (enum numElems).Single ↔ 0 = numElems - 1 := by
        rw [Single]
        omega
      rw [read_range single]
      exact offers.deserializeInteger lower (Int.le_sub_one_of_lt upper) (by omega) destination
  | choice numOptions marker =>
      obtain ⟨lower, upper, bound⟩ := fits
      have single : (choice numOptions marker).Single ↔ 0 = numOptions - 1 := by
        rw [Single]
        omega
      rw [bits, List.append_assoc] at offers
      obtain ⟨marked, input, skipped, offers⟩ := offers.skipMarker
      rw [read_range single, deserialize, deserializeChoice, skipped]
      exact offers.deserializeInteger lower (Int.le_sub_one_of_lt upper) (by omega) destination
  | integer nmin nmax =>
      obtain ⟨lower, upper, bound⟩ := fits
      exact offers.deserializeInteger lower upper bound destination

end Asn1Type

/-- A value, and the variable that it is read into. -/
structure Asn1Item where
  type : Asn1Type
  value : type.Value
  destination : type.Value

namespace Asn1Item

/-- The item, with the value in its variable. -/
def received (item : Asn1Item) : Asn1Item := { item with destination := item.value }

/-- All the values, one after the other. -/
def serializeAll : List Asn1Item → Asn1Header → Option Asn1Header
  | [], self => some self
  | item :: items, self => do
      let self ← item.type.serialize item.value self
      serializeAll items self

/-- The octets of the values. -/
def octets (items : List Asn1Item) : Option (List UInt8) :=
  (serializeAll items {}).map fun self => self.finalizeSerialization.serializationResult

/-- All the variables, one after the other. -/
def deserializeAll : List Asn1Item → Asn1Header → List UInt8 →
    Option (List Asn1Item × List UInt8)
  | [], _, input => some ([], input)
  | item :: items, self, input => do
      let (value, self, input) ← item.type.deserialize item.destination self input
      let (items, input) ← deserializeAll items self input
      return ({ item with destination := value } :: items, input)

/-- The values are in the variables, and exactly their octets are read. -/
structure Restores (items : List Asn1Item) : Prop where
  restores : ∃ written, octets items = some written ∧ ∀ data,
    deserializeAll items {} (written ++ data) = some (items.map received, data)

open Asn1Header

/-- What `deserializeAll` leaves of an item. -/
def readItem (item : Asn1Item) : Asn1Item :=
  { item with destination := item.type.read item.value item.destination }

variable {items : List Asn1Item} {self : Asn1Header} {written rest : List Bool}
variable {input : List UInt8}

/-- The bits of the values. -/
def bits (items : List Asn1Item) : List Bool := items.flatMap fun item => item.type.bits item.value

theorem packs_serializeAll (fits : ∀ item ∈ items, item.type.Fits item.value)
    (packs : Packs self written) :
    ∃ after, serializeAll items self = some after ∧ Packs after (written ++ bits items) := by
  induction items generalizing self written with
  | nil => exact ⟨self, rfl, (List.append_nil written).symm ▸ packs⟩
  | cons item items inductionHypothesis =>
      obtain ⟨fitsItem, fitsItems⟩ := List.forall_mem_cons.mp fits
      obtain ⟨next, first, packed⟩ := Asn1Type.packs_serialize fitsItem packs
      obtain ⟨after, others, packed⟩ := inductionHypothesis fitsItems packed
      rw [List.append_assoc] at packed
      refine ⟨after, ?_, packed⟩
      rw [serializeAll, first]
      exact others

theorem offers_deserializeAll (fits : ∀ item ∈ items, item.type.Fits item.value)
    (offers : Offers self input (bits items ++ rest)) :
    ∃ after left, deserializeAll items self input = some (items.map readItem, left) ∧
      Offers after left rest := by
  induction items generalizing self input with
  | nil => exact ⟨self, input, rfl, offers⟩
  | cons item items inductionHypothesis =>
      obtain ⟨fitsItem, fitsItems⟩ := List.forall_mem_cons.mp fits
      rw [bits, List.flatMap_cons, ← bits, List.append_assoc] at offers
      obtain ⟨next, input, first, offers⟩ :=
        Asn1Type.offers_deserialize fitsItem item.destination offers
      obtain ⟨after, left, others, offered⟩ := inductionHypothesis fitsItems offers
      refine ⟨after, left, ?_, offered⟩
      rw [deserializeAll, first]
      change (deserializeAll items next input).bind _ = _
      rw [others]
      rfl

theorem deserializeAll_octets (fits : ∀ item ∈ items, item.type.Fits item.value) :
    ∃ written, octets items = some written ∧ ∀ data,
      deserializeAll items {} (written ++ data) = some (items.map readItem, data) := by
  obtain ⟨after, serialized, packed⟩ := packs_serializeAll fits packs_nil
  obtain ⟨padding, few, padded⟩ := packed.finalizeSerialization
  refine ⟨after.finalizeSerialization.serializationResult, by rw [octets, serialized]; rfl, ?_⟩
  intro data
  have offers := offers_octets (after.finalizeSerialization.serializationResult ++ data)
  rw [octetBits_append, padded, List.nil_append, List.append_assoc] at offers
  obtain ⟨last, left, deserialized, offered⟩ := offers_deserializeAll fits offers
  rw [deserialized, offered.input_eq few]

theorem readItem_eq_iff (item : Asn1Item) :
    item.readItem = item.received ↔ (item.type.Single → item.destination = item.value) := by
  obtain ⟨type, value, destination⟩ := item
  rw [readItem, received, Asn1Item.mk.injEq]
  unfold Asn1Type.read
  by_cases single : type.Single <;> simp [single]

/-- The values are restored if and only if the variables of the single values hold them
already. -/
theorem restores_iff (fits : ∀ item ∈ items, item.type.Fits item.value) :
    Restores items ↔
      ∀ item ∈ items, item.type.Single → item.destination = item.value := by
  obtain ⟨written, serialized, deserialized⟩ := deserializeAll_octets fits
  rw [← forall₂_congr fun item _ => item.readItem_eq_iff]
  constructor
  · rintro ⟨other, same, restored⟩
    have both := (deserialized []).symm.trans
      (Option.some.inj (serialized.symm.trans same) ▸ restored [])
    exact List.map_inj_left.mp (Prod.mk.inj (Option.some.inj both)).1
  · intro same
    refine ⟨written, serialized, fun data => ?_⟩
    rw [deserialized, List.map_inj_left.mpr same]

/-- A variable of every kind. -/
def everyKind : List Asn1Item :=
  [⟨.boolean, true, false⟩, ⟨.integer (-60) 50, (7 : Int), (0 : Int)⟩,
    ⟨.sequence 9 true, 0x155#9, 0#9⟩, ⟨.bitstring 27, 0x7abcdef#27, 0#27⟩,
    ⟨.choice 16 false, (9 : Int), (0 : Int)⟩, ⟨.enum 1, (0 : Int), (0 : Int)⟩]

theorem fits_everyKind : ∀ item ∈ everyKind, item.type.Fits item.value := by
  simp [everyKind, Asn1Type.Fits]

theorem restores_iff_everyKind :
    (∀ item ∈ everyKind, item.type.Fits item.value) ∧ Restores everyKind :=
  ⟨fits_everyKind, (restores_iff fits_everyKind).mpr (by
    simp [everyKind, Asn1Type.Single])⟩

/-- An integer of a range with one value. -/
def fixedInteger : Asn1Item := ⟨.integer 5 5, (5 : Int), (0 : Int)⟩

/-- The integer is not read. -/
theorem not_restores :
    fixedInteger.type.Fits fixedInteger.value ∧ ¬ Restores [fixedInteger] := by
  refine ⟨⟨le_rfl, le_rfl, by decide⟩, ?_⟩
  rintro ⟨written, same, restored⟩
  obtain rfl : [] = written := Option.some.inj same
  have both : [fixedInteger] = [fixedInteger.received] :=
    (Prod.mk.inj (Option.some.inj (restored []))).1
  have zero := eq_of_heq (Asn1Item.mk.inj (List.cons.inj both).1).2.2
  exact absurd zero (by decide : ¬ (0 : Int) = 5)

end Asn1Item

end Ns3.Lte
