import Ns3.Library.Word

/-!
TLV blocks of packetbb: `ns3::PbbTlv` and `ns3::PbbAddressTlvBlock`.

A buffer is the list of the bytes from the iterator on. A flag `m_hasX` and its `m_x` are one
optional field.
-/

namespace Ns3.Network.PacketBb

open Library

/-- `ReadU8`. -/
def readU8 : List UInt8 → Option (UInt8 × List UInt8)
  | [] => none
  | byte :: rest => some (byte, rest)

/-- `ReadNtohU16`. -/
def readNtohU16 : List UInt8 → Option (Nat × List UInt8)
  | high :: low :: rest => some (ofBytes [low, high], rest)
  | _ => none

/-- `WriteHtonU16`. -/
def writeHtonU16 (data : Nat) : List UInt8 := (toBytes 2 data).reverse

theorem readNtohU16_writeHtonU16 {data : Nat} (fits : data < 2 ^ 16) (rest : List UInt8) :
    readNtohU16 (writeHtonU16 data ++ rest) = some (data, rest) := by
  have back := @ofBytes_toBytes 2 data fits
  change some (ofBytes (toBytes 2 data), rest) = _
  rw [back]

/-- `ns3::PbbTlv`, with the methods that `ns3::PbbAddressTlv` makes public. -/
structure PbbTlv where
  type : UInt8
  typeExt : Option UInt8 := none
  indexStart : Option UInt8 := none
  indexStop : Option UInt8 := none
  isMultivalue : Bool := false
  value : Option (List UInt8) := none
  deriving DecidableEq, Repr

namespace PbbTlv

def thasTypeExt : UInt8 := 0x80
def thasSingleIndex : UInt8 := 0x40
def thasMultiIndex : UInt8 := 0x20
def thasValue : UInt8 := 0x10
def thasExtLen : UInt8 := 0x08
def tisMultivalue : UInt8 := 0x04

variable (self : PbbTlv)

/-- `GetSerializedSize`. -/
def getSerializedSize : Nat :=
  2 + (if self.typeExt.isSome then 1 else 0) + (if self.indexStart.isSome then 1 else 0) +
    (if self.indexStop.isSome then 1 else 0) +
    match self.value with
    | some value => (if value.length > 255 then 2 else 1) + value.length
    | none => 0

/-- The flag and the bytes that `Serialize` writes for the type extension. -/
def serializeTypeExt : UInt8 × List UInt8 :=
  match self.typeExt with
  | some typeExt => (thasTypeExt, [typeExt])
  | none => (0, [])

/-- The flag and the bytes that `Serialize` writes for the indices. -/
def serializeIndex : UInt8 × List UInt8 :=
  match self.indexStart, self.indexStop with
  | some indexStart, some indexStop => (thasMultiIndex, [indexStart, indexStop])
  | some indexStart, none => (thasSingleIndex, [indexStart])
  | none, _ => (0, [])

/-- The flags and the bytes that `Serialize` writes for the value. -/
def serializeValue : UInt8 × List UInt8 :=
  match self.value with
  | some value =>
      let multivalue := if self.isMultivalue then tisMultivalue else 0
      if value.length > 255 then
        (thasValue ||| thasExtLen ||| multivalue, writeHtonU16 value.length ++ value)
      else (thasValue ||| multivalue, UInt8.ofNat value.length :: value)
  | none => (0, [])

/-- `Serialize`. -/
def serialize : List UInt8 :=
  self.type :: (self.serializeTypeExt.1 ||| self.serializeIndex.1 ||| self.serializeValue.1) ::
    (self.serializeTypeExt.2 ++ (self.serializeIndex.2 ++ self.serializeValue.2))

/-- What `Deserialize` reads for the type extension. -/
def deserializeTypeExt (flags : UInt8) (bytes : List UInt8) :
    Option (Option UInt8 × List UInt8) :=
  if flags &&& thasTypeExt ≠ 0 then (readU8 bytes).map fun read => (some read.1, read.2)
  else some (none, bytes)

/-- What `Deserialize` reads for the indices. -/
def deserializeIndex (flags : UInt8) (bytes : List UInt8) :
    Option (Option UInt8 × Option UInt8 × List UInt8) :=
  if flags &&& thasMultiIndex ≠ 0 then do
    let (indexStart, bytes) ← readU8 bytes
    let (indexStop, bytes) ← readU8 bytes
    some (some indexStart, some indexStop, bytes)
  else if flags &&& thasSingleIndex ≠ 0 then
    (readU8 bytes).map fun read => (some read.1, none, read.2)
  else some (none, none, bytes)

/-- What `Deserialize` reads for the length of the value. -/
def deserializeLength (flags : UInt8) (bytes : List UInt8) : Option (Nat × List UInt8) :=
  if flags &&& thasExtLen ≠ 0 then readNtohU16 bytes
  else (readU8 bytes).map fun read => (read.1.toNat, read.2)

/-- What `Deserialize` reads for the value. -/
def deserializeValue (flags : UInt8) (bytes : List UInt8) :
    Option (Option (List UInt8) × List UInt8) :=
  if flags &&& thasValue ≠ 0 then do
    let (len, bytes) ← deserializeLength flags bytes
    if len ≤ bytes.length then some (some (bytes.take len), bytes.drop len) else none
  else some (none, bytes)

/-- `Deserialize`, of a new TLV. -/
def deserialize (bytes : List UInt8) : Option (PbbTlv × List UInt8) := do
  let (type, bytes) ← readU8 bytes
  let (flags, bytes) ← readU8 bytes
  let (typeExt, bytes) ← deserializeTypeExt flags bytes
  let (indexStart, indexStop, bytes) ← deserializeIndex flags bytes
  let (value, bytes) ← deserializeValue flags bytes
  some ({ type, typeExt, indexStart, indexStop, value }, bytes)

/-- There is no stop index without a start index, and the value fits its length. -/
structure WellFormed (tlv : PbbTlv) : Prop where
  index : tlv.indexStop.isSome → tlv.indexStart.isSome
  value : ∀ value ∈ tlv.value, value.length < 2 ^ 16

variable {self}

theorem deserializeTypeExt_append {flags : UInt8}
    (told : flags &&& thasTypeExt ≠ 0 ↔ self.typeExt.isSome = true) (rest : List UInt8) :
    deserializeTypeExt flags (self.serializeTypeExt.2 ++ rest) = some (self.typeExt, rest) := by
  unfold deserializeTypeExt serializeTypeExt
  cases isExt : self.typeExt with
  | some typeExt => rw [if_pos (told.mpr (by rw [isExt]; rfl))]; rfl
  | none =>
      rw [if_neg fun has => by simpa [isExt] using told.mp has]
      rfl

theorem deserializeIndex_append (wellFormed : self.WellFormed) {flags : UInt8}
    (multi : flags &&& thasMultiIndex ≠ 0 ↔ self.indexStop.isSome = true)
    (single : flags &&& thasMultiIndex = 0 →
      (flags &&& thasSingleIndex ≠ 0 ↔ self.indexStart.isSome = true)) (rest : List UInt8) :
    deserializeIndex flags (self.serializeIndex.2 ++ rest) =
      some (self.indexStart, self.indexStop, rest) := by
  have index := wellFormed.index
  unfold deserializeIndex serializeIndex
  cases isStop : self.indexStop with
  | some indexStop =>
      rw [isStop] at multi index
      rw [if_pos (multi.mpr rfl)]
      cases isStart : self.indexStart with
      | some indexStart => rfl
      | none =>
          rw [isStart] at index
          cases index rfl
  | none =>
      rw [isStop] at multi
      have notMulti : ¬ flags &&& thasMultiIndex ≠ 0 := fun has => by simpa using multi.mp has
      rw [if_neg notMulti]
      have told := single (not_not.mp notMulti)
      cases isStart : self.indexStart with
      | some indexStart =>
          rw [isStart] at told
          rw [if_pos (told.mpr rfl)]
          rfl
      | none =>
          rw [isStart] at told
          rw [if_neg fun has => by simpa using told.mp has]
          rfl

theorem deserializeValue_append (wellFormed : self.WellFormed) {flags : UInt8}
    (has : flags &&& thasValue ≠ 0 ↔ self.value.isSome = true)
    (long : ∀ value ∈ self.value, flags &&& thasExtLen ≠ 0 ↔ value.length > 255)
    (rest : List UInt8) :
    deserializeValue flags (self.serializeValue.2 ++ rest) = some (self.value, rest) := by
  have fits := wellFormed.value
  unfold deserializeValue deserializeLength serializeValue
  cases isValue : self.value with
  | none =>
      rw [isValue] at has
      rw [if_neg fun told => by simpa using has.mp told]
      rfl
  | some value =>
      rw [isValue] at has
      have told := long value isValue
      rw [if_pos (has.mpr rfl)]
      dsimp only
      by_cases extended : value.length > 255
      · rw [if_pos extended, if_pos (told.mpr extended), List.append_assoc,
          readNtohU16_writeHtonU16 (fits value isValue)]
        simp
      · have length : (UInt8.ofNat value.length).toNat = value.length :=
          UInt8.toNat_ofNat_of_lt' (Nat.lt_succ_of_le (Nat.le_of_not_lt extended))
        rw [if_neg extended, if_neg fun isLong => extended (told.mp isLong)]
        simp [readU8, length]

/-- The flags of `Serialize`, from what is there. -/
def flagsOf (ext start stop value long multi : Bool) : UInt8 :=
  (if ext then thasTypeExt else 0) |||
    (if start then if stop then thasMultiIndex else thasSingleIndex else 0) |||
    if value then
      (if long then thasValue ||| thasExtLen else thasValue) ||| if multi then tisMultivalue else 0
    else 0

theorem flagsOf_spec : ∀ ext start stop value long multi : Bool,
    (flagsOf ext start stop value long multi &&& thasTypeExt ≠ 0 ↔ ext = true) ∧
      (flagsOf ext start stop value long multi &&& thasMultiIndex ≠ 0 ↔
        start = true ∧ stop = true) ∧
      (flagsOf ext start stop value long multi &&& thasMultiIndex = 0 →
        (flagsOf ext start stop value long multi &&& thasSingleIndex ≠ 0 ↔ start = true)) ∧
      (flagsOf ext start stop value long multi &&& thasValue ≠ 0 ↔ value = true) ∧
      (value = true →
        (flagsOf ext start stop value long multi &&& thasExtLen ≠ 0 ↔ long = true)) := by
  decide

theorem flags_eq (self : PbbTlv) :
    self.serializeTypeExt.1 ||| self.serializeIndex.1 ||| self.serializeValue.1 =
      flagsOf self.typeExt.isSome self.indexStart.isSome self.indexStop.isSome
        self.value.isSome (decide ((self.value.getD []).length > 255)) self.isMultivalue := by
  unfold serializeTypeExt serializeIndex serializeValue flagsOf
  congr 1
  · congr 1
    · cases self.typeExt <;> rfl
    · cases self.indexStart <;> cases self.indexStop <;> rfl
  · cases self.value with
    | none => rfl
    | some value =>
        simp only [Option.isSome_some, if_true, Option.getD_some, decide_eq_true_eq]
        split <;> rfl

/-- All fields come back, and the flag for several values does not. -/
theorem deserialize_serialize (wellFormed : self.WellFormed) (rest : List UInt8) :
    deserialize (self.serialize ++ rest) = some ({ self with isMultivalue := false }, rest) := by
  obtain ⟨ext, multi, single, has, long⟩ := flagsOf_spec self.typeExt.isSome
    self.indexStart.isSome self.indexStop.isSome self.value.isSome
    (decide ((self.value.getD []).length > 255)) self.isMultivalue
  rw [← flags_eq] at ext multi single has long
  have isMulti := multi.trans (and_iff_right_of_imp wellFormed.index)
  have isLong : ∀ value ∈ self.value, (self.serializeTypeExt.1 ||| self.serializeIndex.1 |||
      self.serializeValue.1) &&& thasExtLen ≠ 0 ↔ value.length > 255 := by
    intro value isValue
    have told := long (by rw [isValue]; rfl)
    rw [isValue, decide_eq_true_eq] at told
    exact told
  unfold deserialize serialize
  simp only [List.cons_append, readU8, Option.bind_eq_bind, Option.bind_some, List.append_assoc,
    deserializeTypeExt_append ext, deserializeIndex_append wellFormed isMulti single,
    deserializeValue_append wellFormed has isLong]

theorem length_serializeTypeExt :
    self.serializeTypeExt.2.length = if self.typeExt.isSome then 1 else 0 := by
  unfold serializeTypeExt
  cases self.typeExt <;> rfl

theorem length_serializeIndex (wellFormed : self.WellFormed) :
    self.serializeIndex.2.length =
      (if self.indexStart.isSome then 1 else 0) + if self.indexStop.isSome then 1 else 0 := by
  have index := wellFormed.index
  unfold serializeIndex
  cases isStart : self.indexStart with
  | some indexStart => cases self.indexStop <;> rfl
  | none =>
      rw [isStart] at index
      cases isStop : self.indexStop with
      | none => rfl
      | some indexStop =>
          rw [isStop] at index
          cases index rfl

theorem length_serializeValue :
    self.serializeValue.2.length = match self.value with
      | some value => (if value.length > 255 then 2 else 1) + value.length
      | none => 0 := by
  unfold serializeValue
  cases self.value with
  | none => rfl
  | some value =>
      dsimp only
      split
      · rw [List.length_append, writeHtonU16, List.length_reverse, length_toBytes]
      · exact Nat.add_comm _ _

theorem length_serialize (wellFormed : self.WellFormed) :
    self.serialize.length = self.getSerializedSize := by
  unfold serialize getSerializedSize
  rw [List.length_cons, List.length_cons, List.length_append, List.length_append,
    length_serializeTypeExt, length_serializeIndex wellFormed, length_serializeValue]
  omega

theorem deserializeTypeExt_le {flags : UInt8} {bytes rest : List UInt8} {typeExt : Option UInt8}
    (given : deserializeTypeExt flags bytes = some (typeExt, rest)) :
    rest.length ≤ bytes.length := by
  unfold deserializeTypeExt at given
  split at given
  · cases bytes with
    | nil => cases given
    | cons byte bytes =>
        cases given
        exact Nat.le_succ _
  · cases given
    exact Nat.le_refl _

theorem deserializeIndex_le {flags : UInt8} {bytes rest : List UInt8}
    {indexStart indexStop : Option UInt8}
    (given : deserializeIndex flags bytes = some (indexStart, indexStop, rest)) :
    rest.length ≤ bytes.length := by
  unfold deserializeIndex at given
  split at given
  · rcases bytes with _ | ⟨first, _ | ⟨second, more⟩⟩
    · cases given
    · cases given
    · cases given
      simp only [List.length_cons]
      omega
  · split at given
    · cases bytes with
      | nil => cases given
      | cons byte bytes =>
          cases given
          exact Nat.le_succ _
    · cases given
      exact Nat.le_refl _

theorem deserializeLength_le {flags : UInt8} {bytes rest : List UInt8} {len : Nat}
    (given : deserializeLength flags bytes = some (len, rest)) : rest.length ≤ bytes.length := by
  unfold deserializeLength at given
  split at given
  · rcases bytes with _ | ⟨first, _ | ⟨second, more⟩⟩
    · cases given
    · cases given
    · cases given
      simp only [List.length_cons]
      omega
  · cases bytes with
    | nil => cases given
    | cons byte bytes =>
        cases given
        exact Nat.le_succ _

theorem deserializeValue_le {flags : UInt8} {bytes rest : List UInt8}
    {value : Option (List UInt8)} (given : deserializeValue flags bytes = some (value, rest)) :
    rest.length ≤ bytes.length := by
  unfold deserializeValue at given
  split at given
  · obtain ⟨⟨len, more⟩, read, taken⟩ := Option.bind_eq_some_iff.mp given
    have shorter := deserializeLength_le read
    dsimp only at taken
    split at taken
    · cases taken
      rw [List.length_drop]
      omega
    · cases taken
  · cases given
    exact Nat.le_refl _

/-- `Deserialize` goes on. -/
theorem deserialize_lt {bytes rest : List UInt8} {tlv : PbbTlv}
    (given : deserialize bytes = some (tlv, rest)) : rest.length < bytes.length := by
  unfold deserialize at given
  rcases bytes with _ | ⟨type, _ | ⟨flags, bytes⟩⟩
  · cases given
  · cases given
  · simp only [readU8, Option.bind_eq_bind, Option.bind_some] at given
    obtain ⟨⟨typeExt, second⟩, isExt, given⟩ := Option.bind_eq_some_iff.mp given
    obtain ⟨⟨indexStart, indexStop, third⟩, isIndex, given⟩ := Option.bind_eq_some_iff.mp given
    obtain ⟨⟨value, fourth⟩, isValue, given⟩ := Option.bind_eq_some_iff.mp given
    cases given
    have first := deserializeTypeExt_le isExt
    have next := deserializeIndex_le isIndex
    have last := deserializeValue_le isValue
    dsimp only at first next last
    simp only [List.length_cons]
    omega

end PbbTlv

namespace PbbAddressTlvBlock

/-- The bytes of the TLVs, without the length in front of them. -/
def body (tlvs : List PbbTlv) : List UInt8 := tlvs.flatMap PbbTlv.serialize

/-- The sizes that `GetSerializedSize` adds up. -/
def totalSize (tlvs : List PbbTlv) : Nat := (tlvs.map PbbTlv.getSerializedSize).sum

/-- `GetSerializedSize`. -/
def getSerializedSize (tlvs : List PbbTlv) : Nat := wrap 32 (2 + totalSize tlvs)

/-- `Serialize`. -/
def serialize (tlvs : List PbbTlv) : List UInt8 :=
  if tlvs.isEmpty then writeHtonU16 0
  else writeHtonU16 (wrap 16 (body tlvs).length) ++ body tlvs

/-- The loop of `Deserialize`, for so many bytes that are left of the block. -/
def deserializeTlvs (left : Nat) (bytes : List UInt8) : Option (List PbbTlv × List UInt8) :=
  if left > 0 then
    match _read : PbbTlv.deserialize bytes with
    | none => none
    | some (newtlv, rest) =>
        (deserializeTlvs (left - (bytes.length - rest.length)) rest).map fun (tlvs, rest) =>
          (newtlv :: tlvs, rest)
  else some ([], bytes)
termination_by bytes.length
decreasing_by exact PbbTlv.deserialize_lt _read

/-- `Deserialize`. -/
def deserialize (bytes : List UInt8) : Option (List PbbTlv × List UInt8) :=
  (readNtohU16 bytes).bind fun (size, bytes) => deserializeTlvs size bytes

/-- The list end is found from the length, and the flags for several values are lost. -/
theorem deserializeTlvs_body {tlvs : List PbbTlv} (wellFormed : ∀ tlv ∈ tlvs, tlv.WellFormed)
    (rest : List UInt8) :
    deserializeTlvs (body tlvs).length (body tlvs ++ rest) =
      some (tlvs.map fun tlv => { tlv with isMultivalue := false }, rest) := by
  induction tlvs with
  | nil =>
      unfold deserializeTlvs
      rfl
  | cons tlv tlvs inductionHypothesis =>
      have others := inductionHypothesis fun other mem => wellFormed other (List.mem_cons_of_mem _ mem)
      have read := PbbTlv.deserialize_serialize (wellFormed tlv List.mem_cons_self)
        (body tlvs ++ rest)
      have isBody : body (tlv :: tlvs) = tlv.serialize ++ body tlvs := rfl
      have positive : (body (tlv :: tlvs)).length > 0 := by
        rw [isBody, List.length_append, PbbTlv.serialize, List.length_cons]
        omega
      have left : (body (tlv :: tlvs)).length -
          ((tlv.serialize ++ (body tlvs ++ rest)).length - (body tlvs ++ rest).length) =
            (body tlvs).length := by
        rw [isBody]
        simp only [List.length_append]
        omega
      rw [isBody, List.append_assoc] at *
      unfold deserializeTlvs
      rw [if_pos positive]
      split
      · next none =>
          rw [read] at none
          cases none
      · next newtlv more isRead =>
          rw [read] at isRead
          cases isRead
          rw [left, others]
          rfl

theorem length_body {tlvs : List PbbTlv} (wellFormed : ∀ tlv ∈ tlvs, tlv.WellFormed) :
    (body tlvs).length = totalSize tlvs := by
  rw [body, totalSize, List.length_flatMap]
  exact congrArg List.sum
    (List.map_congr_left fun tlv mem => PbbTlv.length_serialize (wellFormed tlv mem))

/-- The size is right, and the TLVs come back, whatever is behind them. -/
structure RoundTrips (tlvs : List PbbTlv) : Prop where
  written : (serialize tlvs).length = getSerializedSize tlvs
  read : ∀ rest, deserialize (serialize tlvs ++ rest) = some (tlvs, rest)

theorem serialize_eq (tlvs : List PbbTlv) :
    serialize tlvs = writeHtonU16 (wrap 16 (body tlvs).length) ++ body tlvs := by
  cases tlvs with
  | nil => rfl
  | cons tlv tlvs => rfl

theorem deserialize_serialize {tlvs : List PbbTlv} (wellFormed : ∀ tlv ∈ tlvs, tlv.WellFormed)
    (fits : totalSize tlvs < 2 ^ 16) (rest : List UInt8) :
    deserialize (serialize tlvs ++ rest) =
      some (tlvs.map fun tlv => { tlv with isMultivalue := false }, rest) := by
  have length := length_body wellFormed
  have small : wrap 16 (body tlvs).length < 2 ^ 16 := wrap_lt 16 _
  rw [serialize_eq, List.append_assoc, deserialize, readNtohU16_writeHtonU16 small,
    Option.bind_some, wrap_of_lt (by omega)]
  exact deserializeTlvs_body wellFormed rest

/-- The TLVs come back where none of them has several values. -/
theorem tlvBlock_roundTrips_iff {tlvs : List PbbTlv} (wellFormed : ∀ tlv ∈ tlvs, tlv.WellFormed)
    (fits : totalSize tlvs < 2 ^ 16) :
    RoundTrips tlvs ↔ ∀ tlv ∈ tlvs, tlv.isMultivalue = false := by
  have length := length_body wellFormed
  have isRead := deserialize_serialize wellFormed fits
  have back : (tlvs.map fun tlv => { tlv with isMultivalue := false }) = tlvs ↔
      ∀ tlv ∈ tlvs, tlv.isMultivalue = false := by
    conv_lhs => rw [← List.map_id tlvs, List.map_map, List.map_inj_left]
    refine forall_congr' fun tlv => imp_congr_right fun _ => ⟨fun same => ?_, fun single => ?_⟩
    · exact (congrArg PbbTlv.isMultivalue same).symm
    · rw [← single]
      rfl
  constructor
  · intro roundTrips
    have same := roundTrips.read []
    rw [isRead, Option.some_inj, Prod.mk.injEq] at same
    exact back.mp same.1
  · intro single
    refine ⟨?_, fun rest => ?_⟩
    · rw [serialize_eq, List.length_append, length, getSerializedSize, @wrap_of_lt 32 _ (by omega)]
      rfl
    · rw [isRead, back.mpr single]

/-- A TLV with all its fields, and one with none. -/
theorem tlvBlock_roundTrips_iff_two :
    RoundTrips [⟨1, some 2, some 0, some 3, false, some [7, 8]⟩, ⟨9, none, none, none, false, none⟩] :=
  (tlvBlock_roundTrips_iff (by
    simp only [List.forall_mem_cons]
    exact ⟨⟨fun _ => rfl, by simp⟩, ⟨by simp, by simp⟩, by simp⟩) (by decide)).mpr (by decide)

/-- One TLV with a value for each of two addresses. -/
theorem not_tlvBlock_roundTrips :
    ¬ RoundTrips [⟨1, none, some 0, some 1, true, some [7, 8]⟩] := by
  intro roundTrips
  have wellFormed : PbbTlv.WellFormed ⟨1, none, some 0, some 1, true, some [7, 8]⟩ :=
    ⟨fun _ => rfl, by simp⟩
  have read := deserializeTlvs_body (List.forall_mem_singleton.mpr wellFormed) []
  have same := (roundTrips.read []).symm.trans read
  cases same

end PbbAddressTlvBlock

end Ns3.Network.PacketBb
