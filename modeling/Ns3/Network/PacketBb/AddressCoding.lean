import Ns3.Network.PacketBb.AddressBlock

/-!
Address blocks of packetbb on the wire.

The addresses come back where they all end with the tail that `GetHeadTail` finds. It need not be
one: the loop over the addresses lets the tail grow by a byte at each of them.
-/

namespace Ns3.Network.PacketBb

open Library

namespace PbbAddressBlock

variable {family : AddressFamily} {self : PbbAddressBlock family}

theorem toNat_ofNat_of_lt {n : Nat} (small : n < 256) : (UInt8.ofNat n).toNat = n :=
  UInt8.toNat_ofNat_of_lt' small

theorem readBytes_append (bytes rest : List UInt8) :
    readBytes bytes.length (bytes ++ rest) = some (bytes, rest) := by
  rw [readBytes, if_pos (by rw [List.length_append]; exact Nat.le_add_right _ _), List.take_left,
    List.drop_left]

theorem deserializeHead_append {flags : UInt8} {head : List UInt8} (small : head.length < 256)
    (told : flags &&& ahasHead ≠ 0 ↔ decide (head.length > 0) = true) (rest : List UInt8) :
    deserializeHead flags ((serializeHead head).2 ++ rest) = some (head, rest) := by
  rw [decide_eq_true_eq] at told
  unfold deserializeHead serializeHead
  by_cases has : head.length > 0
  · rw [if_pos (told.mpr has), if_pos has]
    simp only [List.cons_append, readU8, Option.bind_eq_bind, Option.bind_some,
      toNat_ofNat_of_lt small, readBytes_append]
  · have none : head = [] := List.length_eq_zero_iff.mp (by omega)
    rw [if_neg fun given => has (told.mp given), if_neg has, none]
    rfl

theorem eq_replicate_of_hasZeroTail {tail : List UInt8} (zero : hasZeroTail tail = true) :
    List.replicate tail.length 0 = tail := by
  refine (List.eq_replicate_of_mem fun byte mem => ?_).symm
  simpa using List.all_eq_true.mp zero byte mem

theorem deserializeTail_append {flags : UInt8} {tail : List UInt8} (small : tail.length < 256)
    (told : (flags &&& ahasFullTail) ^^^ (flags &&& ahasZeroTail) ≠ 0 ↔
      decide (tail.length > 0) = true)
    (full : flags &&& ahasFullTail ≠ 0 ↔
      decide (tail.length > 0) = true ∧ hasZeroTail tail = false) (rest : List UInt8) :
    deserializeTail flags ((serializeTail tail).2 ++ rest) = some (tail, rest) := by
  rw [decide_eq_true_eq] at told full
  unfold deserializeTail serializeTail
  by_cases has : tail.length > 0
  · rw [if_pos (told.mpr has), if_pos has]
    cases zero : hasZeroTail tail with
    | true =>
        have notFull : ¬ flags &&& ahasFullTail ≠ 0 := fun given => by
          simpa [zero] using (full.mp given).2
        simp only [if_true, List.cons_append, List.nil_append, readU8, Option.bind_eq_bind,
          Option.bind_some, if_neg notFull, toNat_ofNat_of_lt small,
          eq_replicate_of_hasZeroTail zero]
    | false =>
        have isFull := full.mpr ⟨has, zero⟩
        simp only [Bool.false_eq_true, if_false, List.cons_append, readU8, Option.bind_eq_bind,
          Option.bind_some, if_pos isFull, toNat_ofNat_of_lt small, readBytes_append]
  · have none : tail = [] := List.length_eq_zero_iff.mp (by omega)
    rw [if_neg fun given => has (told.mp given), if_neg has, none]
    rfl

theorem deserializeAddresses_append (head tail : List UInt8) {size : Nat}
    {mid : List UInt8 → List UInt8} (addresses : List (List UInt8))
    (sizes : ∀ address ∈ addresses, (mid address).length = size) (rest : List UInt8) :
    deserializeAddresses head tail size addresses.length (addresses.flatMap mid ++ rest) =
      some (addresses.map fun address => head ++ mid address ++ tail, rest) := by
  induction addresses with
  | nil => rfl
  | cons address addresses inductionHypothesis =>
      have others := inductionHypothesis fun other mem => sizes other (List.mem_cons_of_mem _ mem)
      have here := readBytes_append (mid address) (addresses.flatMap mid ++ rest)
      rw [sizes address List.mem_cons_self] at here
      rw [List.flatMap_cons, List.append_assoc, List.length_cons, deserializeAddresses, here]
      simp only [Option.bind_eq_bind, Option.bind_some, others]
      rfl

theorem deserializePrefixes_append {flags : UInt8} {numaddr : Nat} {prefixes : List UInt8}
    (shape : prefixes.length = 0 ∨ prefixes.length = 1 ∨ prefixes.length = numaddr)
    (single : flags &&& ahasSinglePreLen ≠ 0 ↔ decide (prefixes.length = 1) = true)
    (multi : flags &&& ahasMultiPreLen ≠ 0 ↔
      decide (prefixes.length = 1) = false ∧ decide (prefixes.length > 1) = true)
    (rest : List UInt8) :
    deserializePrefixes flags numaddr (prefixes ++ rest) = some (prefixes, rest) := by
  simp only [decide_eq_true_eq, decide_eq_false_iff_not] at single multi
  have read := readBytes_append prefixes rest
  unfold deserializePrefixes
  by_cases one : prefixes.length = 1
  · rw [if_pos (single.mpr one)]
    rwa [one] at read
  · rw [if_neg fun given => one (single.mp given)]
    by_cases several : prefixes.length > 1
    · have all : prefixes.length = numaddr := by omega
      rw [if_pos (multi.mpr ⟨one, several⟩)]
      rwa [all] at read
    · have none : prefixes = [] := List.length_eq_zero_iff.mp (by omega)
      rw [if_neg fun given => several (multi.mp given).2, none]
      rfl

theorem flags_eq (head tail : List UInt8) :
    (serializeHead head).1 ||| (serializeTail tail).1 ||| self.getPrefixFlags =
      flagsOf (decide (head.length > 0)) (decide (tail.length > 0)) (hasZeroTail tail)
        (decide (self.prefixes.length = 1)) (decide (self.prefixes.length > 1)) := by
  unfold serializeHead serializeTail flagsOf getPrefixFlags
  congr 1
  · congr 1
    · simp only [decide_eq_true_eq]
      split <;> rfl
    · simp only [decide_eq_true_eq]
      split
      · split <;> rfl
      · rfl
  · simp only [decide_eq_true_eq]
    split
    · next none => simp [none]
    · next one => simp [one]
    · next notNone notOne =>
        have several := Nat.lt_of_le_of_ne (Nat.pos_of_ne_zero notNone) (Ne.symm notOne)
        rw [if_neg notOne, if_pos several]

/-- What comes back of several addresses, for any head and tail. -/
theorem deserializeParts_serializeSeveral {head tail : List UInt8} (headSmall : head.length < 256)
    (tailSmall : tail.length < 256)
    (shape : self.prefixes.length = 0 ∨ self.prefixes.length = 1 ∨
      self.prefixes.length = self.addresses.length)
    {flags : UInt8} {bytes : List UInt8}
    (written : self.serializeSeveral head tail = flags :: bytes) (rest : List UInt8) :
    deserializeParts family.addressLength self.addresses.length flags (bytes ++ rest) =
      if head.length + tail.length ≤ family.addressLength then
        some (self.addresses.map fun address =>
          head ++ middle family.addressLength head tail address ++ tail, self.prefixes, rest)
      else none := by
  obtain ⟨isFlags, isBytes⟩ := List.cons_eq_cons.mp written
  rw [flags_eq] at isFlags
  obtain ⟨hasHead, hasTail, full, single, multi⟩ := flagsOf_spec (decide (head.length > 0))
    (decide (tail.length > 0)) (hasZeroTail tail) (decide (self.prefixes.length = 1))
    (decide (self.prefixes.length > 1))
  rw [isFlags] at hasHead hasTail full single multi
  rw [← isBytes]
  unfold deserializeParts
  simp only [List.append_assoc, deserializeHead_append headSmall hasHead,
    deserializeTail_append tailSmall hasTail full, Option.bind_eq_bind, Option.bind_some]
  by_cases inside : head.length + tail.length ≤ family.addressLength
  · have sizes : ∀ address ∈ self.addresses,
        (middle family.addressLength head tail address).length =
          family.addressLength - head.length - tail.length := by
      intro address mem
      have length := self.length_address address mem
      rw [middle, List.length_take, List.length_drop]
      omega
    have middles : (if head.length + tail.length < family.addressLength then
        self.addresses.flatMap (middle family.addressLength head tail) else []) =
          self.addresses.flatMap (middle family.addressLength head tail) := by
      split
      · rfl
      · next whole =>
          refine (List.flatMap_eq_nil_iff.mpr fun address mem => ?_).symm
          exact List.length_eq_zero_iff.mp ((sizes address mem).trans (by omega))
    rw [if_pos inside, if_pos inside, middles, deserializeAddresses_append head tail _ sizes]
    simp only [Option.bind_some, deserializePrefixes_append shape single multi, List.append_assoc]
  · rw [if_neg inside, if_neg inside]

/-- What `GetHeadTail` finds for several addresses. -/
structure Found (addressLength : Nat) (addresses : List (List UInt8)) (head tail : List UInt8) :
    Prop where
  head_le : head.length ≤ addressLength
  tail_le : tail.length ≤ addressLength
  isHead : ∀ address ∈ addresses, address.take head.length = head
  whole : head.length = addressLength → tail.length = addressLength
  least : head.length < addressLength → head.length + tail.length < addressLength ∧
    TailBound addressLength addresses tail.length ∧
      ∀ bound, TailBound addressLength addresses bound → tail.length ≤ bound
  none : head.length = addressLength → ∀ bound, ¬ TailBound addressLength addresses bound
  isTail : ∃ address ∈ addresses, address.drop (addressLength - tail.length) = tail

theorem found_headTail {addressLength : Nat} {addresses : List (List UInt8)}
    (sameLength : ∀ address ∈ addresses, address.length = addressLength)
    (several : 1 < addresses.length) :
    Found addressLength addresses (head addressLength addresses) (tail addressLength addresses) := by
  have nonempty : addresses ≠ [] := by
    rintro rfl
    exact absurd several (by decide)
  obtain ⟨-, cur, isHead, full, least⟩ := scanned_headTail sameLength nonempty
  have curLength := sameLength _ cur
  have headLe := commonHead_le sameLength
  rw [← isHead] at headLe
  have bounded : (headTail addressLength addresses).headlen < addressLength →
      (headTail addressLength addresses).headlen +
        (headTail addressLength addresses).taillen < addressLength := by
    intro shorter
    -- The last two addresses bound the tail by what is behind the head.
    obtain ⟨before, first, second, rfl⟩ : ∃ before first second,
        addresses = before ++ [first, second] := by
      rcases List.eq_nil_or_concat' addresses with rfl | ⟨start, second, rfl⟩
      · exact absurd rfl nonempty
      · rcases List.eq_nil_or_concat' start with rfl | ⟨before, first, rfl⟩
        · exact absurd several (by simp)
        · exact ⟨before, first, second, by simp⟩
    have last := (least shorter).2 _ ⟨before, first, second, [], rfl, isHead ▸ shorter, rfl⟩
    rw [List.length_nil, ← isHead] at last
    omega
  have tailLe : (headTail addressLength addresses).taillen ≤ addressLength := by
    rcases Nat.lt_or_eq_of_le headLe with shorter | whole
    · have := bounded shorter
      omega
    · exact Nat.le_of_eq (full whole).1
  have headLength : (head addressLength addresses).length =
      (headTail addressLength addresses).headlen := by
    rw [head, List.length_take]
    omega
  have tailLength : (tail addressLength addresses).length =
      (headTail addressLength addresses).taillen := by
    rw [tail, List.length_drop]
    omega
  refine ⟨by omega, by omega, ?_, ?_, ?_, ?_, ⟨_, cur, by rw [tailLength]; rfl⟩⟩
  · intro address mem
    have agree := (agreeOn_iff sameLength headLe nonempty).mpr (Nat.le_of_eq isHead)
    rw [headLength]
    exact agree address mem _ cur
  · intro whole
    exact tailLength.trans (full (headLength.symm.trans whole)).1
  · intro shorter
    rw [headLength] at shorter
    rw [headLength, tailLength]
    exact ⟨bounded shorter, least shorter⟩
  · intro whole
    exact (full (headLength.symm.trans whole)).2

/-- Some bound for the tail is a tail of all addresses. -/
def TailAgrees (addressLength : Nat) (addresses : List (List UInt8)) : Prop :=
  ∃ bound, TailBound addressLength addresses bound ∧ AgreeOn (addresses.map List.reverse) bound

theorem agreeOn_reverse_iff {addressLength : Nat} {addresses : List (List UInt8)}
    (sameLength : ∀ address ∈ addresses, address.length = addressLength) {count : Nat} :
    AgreeOn (addresses.map List.reverse) count ↔
      ∀ first ∈ addresses, ∀ second ∈ addresses,
        first.drop (addressLength - count) = second.drop (addressLength - count) := by
  simp only [AgreeOn, List.forall_mem_map]
  refine forall₂_congr fun first isFirst => forall₂_congr fun second isSecond => ?_
  rw [List.take_reverse, List.take_reverse, List.reverse_inj, sameLength first isFirst,
    sameLength second isSecond]

theorem middle_eq {addressLength : Nat} {head tail address : List UInt8}
    (isHead : address.take head.length = head)
    (isTail : address.drop (addressLength - tail.length) = tail)
    (inside : head.length + tail.length ≤ addressLength) :
    head ++ middle addressLength head tail address ++ tail = address := by
  have behind : addressLength - tail.length =
      head.length + (addressLength - head.length - tail.length) := by omega
  calc head ++ middle addressLength head tail address ++ tail
      = address.take head.length ++ (middle addressLength head tail address ++
          (address.drop head.length).drop (addressLength - head.length - tail.length)) := by
        rw [isHead, List.drop_drop, ← behind, isTail, List.append_assoc]
    _ = address := by
        rw [middle, List.take_append_drop, List.take_append_drop]

/-- The head and the tail divide every address where the tail agrees. -/
theorem Found.divides_iff {addressLength : Nat} (positive : 0 < addressLength)
    {addresses : List (List UInt8)} {head tail : List UInt8}
    (found : Found addressLength addresses head tail)
    (sameLength : ∀ address ∈ addresses, address.length = addressLength) :
    TailAgrees addressLength addresses ↔
      head.length + tail.length ≤ addressLength ∧
        ∀ address ∈ addresses, head ++ middle addressLength head tail address ++ tail = address := by
  constructor
  · rintro ⟨bound, isBound, agree⟩
    have shorter : head.length < addressLength :=
      Nat.lt_of_le_of_ne found.head_le fun whole => found.none whole bound isBound
    obtain ⟨inside, -, least⟩ := found.least shorter
    have fewer : AgreeOn (addresses.map List.reverse) tail.length := by
      intro first isFirst second isSecond
      have same := congrArg (List.take tail.length) (agree first isFirst second isSecond)
      rwa [List.take_take, List.take_take, Nat.min_eq_left (least bound isBound)] at same
    obtain ⟨origin, isOrigin, isTail⟩ := found.isTail
    refine ⟨Nat.le_of_lt inside, fun address mem => ?_⟩
    refine middle_eq (found.isHead address mem) ?_ (Nat.le_of_lt inside)
    exact ((agreeOn_reverse_iff sameLength).mp fewer address mem origin isOrigin).trans isTail
  · rintro ⟨inside, divides⟩
    have shorter : head.length < addressLength := by
      refine Nat.lt_of_le_of_ne found.head_le fun whole => ?_
      have := found.whole whole
      omega
    refine ⟨tail.length, (found.least shorter).2.1, (agreeOn_reverse_iff sameLength).mpr ?_⟩
    have isTail (address : List UInt8) (mem : address ∈ addresses) :
        address.drop (addressLength - tail.length) = tail := by
      have parts := divides address mem
      have length := congrArg List.length parts
      rw [sameLength address mem, List.length_append] at length
      have before : (head ++ middle addressLength head tail address).length =
          addressLength - tail.length := by omega
      rw [← parts, List.drop_left' before]
    intro first isFirst second isSecond
    rw [isTail first isFirst, isTail second isSecond]

/-- The size is right, the addresses and the prefixes come back, whatever is behind them, and the
head and the tail that are written are those of every address. -/
structure RoundTrips (block : PbbAddressBlock family) : Prop where
  written : block.serialize.length = block.getSerializedSize
  read : ∀ rest, deserialize family (block.serialize ++ rest) =
    some ((block.addresses, block.prefixes, block.tlvs), rest)
  common : 1 < block.addresses.length →
    (∀ address ∈ block.addresses, head family.addressLength block.addresses <+: address ∧
      tail family.addressLength block.addresses <:+ address) ∧
    (head family.addressLength block.addresses).length +
      (tail family.addressLength block.addresses).length ≤ family.addressLength

theorem serialize_several (several : 1 < self.addresses.length) :
    self.serialize = UInt8.ofNat self.addresses.length ::
      (self.serializeSeveral (head family.addressLength self.addresses)
        (tail family.addressLength self.addresses) ++ PbbAddressTlvBlock.serialize self.tlvs) := by
  unfold serialize
  dsimp only
  split
  · next none => simp [none] at several
  · next one => simp [one] at several
  · rfl

theorem getSerializedSize_several (several : 1 < self.addresses.length) :
    self.getSerializedSize = wrapInt 32 (2 +
      self.severalSize (head family.addressLength self.addresses)
        (tail family.addressLength self.addresses) +
          PbbAddressTlvBlock.getSerializedSize self.tlvs) := by
  unfold getSerializedSize
  dsimp only
  split
  · next none => simp [none] at several
  · next one => simp [one] at several
  · rfl

/-- What comes back of several addresses without TLVs. -/
theorem deserialize_several (several : 1 < self.addresses.length)
    (few : self.addresses.length < 256)
    (shape : self.prefixes.length = 0 ∨ self.prefixes.length = 1 ∨
      self.prefixes.length = self.addresses.length) (noTlvs : self.tlvs = [])
    {head tail : List UInt8} (headSmall : head.length < 256) (tailSmall : tail.length < 256)
    (rest : List UInt8) :
    deserialize family ((UInt8.ofNat self.addresses.length ::
        (self.serializeSeveral head tail ++ PbbAddressTlvBlock.serialize self.tlvs)) ++ rest) =
      if head.length + tail.length ≤ family.addressLength then
        some ((self.addresses.map fun address =>
          head ++ middle family.addressLength head tail address ++ tail, self.prefixes, self.tlvs),
            rest)
      else none := by
  have number := toNat_ofNat_of_lt few
  have positive : UInt8.ofNat self.addresses.length > 0 := by
    rw [gt_iff_lt, UInt8.lt_iff_toNat_lt, number]
    exact Nat.lt_of_lt_of_le (by decide) (Nat.le_of_lt several)
  obtain ⟨flags, bytes, written⟩ : ∃ flags bytes,
      self.serializeSeveral head tail = flags :: bytes := ⟨_, _, rfl⟩
  have parts := deserializeParts_serializeSeveral headSmall tailSmall shape written
    (PbbAddressTlvBlock.serialize self.tlvs ++ rest)
  have tlvs := PbbAddressTlvBlock.deserialize_serialize (List.forall_mem_nil PbbTlv.WellFormed)
    (by decide) rest
  rw [written, noTlvs] at *
  unfold deserialize
  simp only [List.cons_append, List.append_assoc, readU8, Option.bind_eq_bind, Option.bind_some,
    if_pos positive, number, parts]
  split
  · simp only [Option.bind_some, tlvs, List.map_nil]
  · rfl

theorem length_serializeSeveral {head tail : List UInt8}
    (inside : head.length + tail.length < family.addressLength) :
    ((self.serializeSeveral head tail).length : Int) = 1 + self.severalSize head tail := by
  have headLength : (serializeHead head).2.length =
      if head.length > 0 then 1 + head.length else 0 := by
    unfold serializeHead
    split
    · exact Nat.add_comm _ _
    · rfl
  have tailLength : (serializeTail tail).2.length =
      if tail.length > 0 then 1 + if hasZeroTail tail then 0 else tail.length else 0 := by
    unfold serializeTail
    split
    · split
      · rfl
      · exact Nat.add_comm _ _
    · rfl
  have middles : (self.addresses.flatMap (middle family.addressLength head tail)).length =
      (family.addressLength - head.length - tail.length) * self.addresses.length := by
    have sizes : self.addresses.map (fun address =>
        (middle family.addressLength head tail address).length) =
          self.addresses.map fun _ => family.addressLength - head.length - tail.length := by
      refine List.map_congr_left fun address mem => ?_
      have length := self.length_address address mem
      rw [middle, List.length_take, List.length_drop]
      omega
    rw [List.length_flatMap, sizes, List.map_const', List.sum_replicate_nat, Nat.mul_comm]
  have product : (family.addressLength - head.length - tail.length : Int) * self.addresses.length =
      ((family.addressLength - head.length - tail.length) * self.addresses.length : Nat) := by
    rw [Int.natCast_mul]
    congr 1
    omega
  unfold serializeSeveral severalSize
  rw [if_pos inside, product]
  simp only [List.length_cons, List.length_append, headLength, tailLength, middles]
  split <;> split <;> try split
  all_goals push_cast <;> omega

theorem severalSize_le {head tail : List UInt8}
    (inside : head.length + tail.length < family.addressLength)
    (few : self.addresses.length < 256) (prefixes : self.prefixes.length < 256) :
    self.severalSize head tail < 10000 := by
  obtain ⟨-, lengthLe⟩ := family.addressLength_bounds
  have product : (family.addressLength - head.length - tail.length : Int) * self.addresses.length ≤
      16 * 255 := Int.mul_le_mul (by omega) (by omega) (by omega) (by decide)
  unfold severalSize
  generalize (family.addressLength - head.length - tail.length : Int) * self.addresses.length =
    middles at product ⊢
  split <;> split <;> try split
  all_goals omega

/-- `GetSerializedSize` is the number of bytes that are written, if the tail is behind the head. -/
theorem length_serialize_several (several : 1 < self.addresses.length)
    (few : self.addresses.length < 256)
    (shape : self.prefixes.length = 0 ∨ self.prefixes.length = 1 ∨
      self.prefixes.length = self.addresses.length) (noTlvs : self.tlvs = [])
    (inside : (head family.addressLength self.addresses).length +
      (tail family.addressLength self.addresses).length < family.addressLength) :
    self.serialize.length = self.getSerializedSize := by
  have written := @length_serializeSeveral family self _ _ inside
  have noBlock : PbbAddressTlvBlock.getSerializedSize [] = 2 := rfl
  have size : (2 + self.severalSize (head family.addressLength self.addresses)
      (tail family.addressLength self.addresses) + PbbAddressTlvBlock.getSerializedSize [] : Int) =
        ((self.serializeSeveral (head family.addressLength self.addresses)
          (tail family.addressLength self.addresses)).length + 3 : Nat) := by
    rw [noBlock]
    push_cast
    omega
  have small := @severalSize_le family self _ _ inside few (by omega)
  rw [serialize_several several, getSerializedSize_several several, noTlvs, size,
    wrapInt_natCast, wrap_of_lt (by omega), List.length_cons, List.length_append]
  rfl

/-- One address has neither head nor tail. -/
theorem deserializeParts_single {address : List UInt8} {flags : UInt8}
    (noHead : flags &&& ahasHead = 0)
    (noTail : (flags &&& ahasFullTail) ^^^ (flags &&& ahasZeroTail) = 0) {bytes rest : List UInt8}
    {prefixes : List UInt8} (isPrefixes : deserializePrefixes flags 1 bytes = some (prefixes, rest)) :
    deserializeParts address.length 1 flags (address ++ bytes) = some ([address], prefixes, rest) := by
  have isAddress := @deserializeAddresses_append [] [] address.length id [address]
    (List.forall_mem_singleton.mpr rfl) bytes
  have single : [address].flatMap id ++ bytes = address ++ bytes := by simp
  rw [single] at isAddress
  rw [List.length_singleton] at isAddress
  have isHead : deserializeHead flags (address ++ bytes) = some ([], address ++ bytes) :=
    if_neg (not_not.mpr noHead)
  have isTail : deserializeTail flags (address ++ bytes) = some ([], address ++ bytes) :=
    if_neg (not_not.mpr noTail)
  unfold deserializeParts
  simp only [isHead, isTail, isAddress, isPrefixes, Option.bind_eq_bind, Option.bind_some,
    List.length_nil, Nat.add_zero, Nat.zero_le, if_true, Nat.sub_zero]
  simp

theorem roundTrips_single (self : PbbAddressBlock family) {address : List UInt8}
    (single : self.addresses = [address]) (shape : self.prefixes.length ≤ 1)
    (noTlvs : self.tlvs = []) : self.RoundTrips := by
  obtain ⟨addresses, prefixes, tlvs, length_address⟩ := self
  dsimp only at single shape noTlvs
  subst single noTlvs
  have length := length_address address List.mem_cons_self
  have tlvBlock (rest : List UInt8) :=
    PbbAddressTlvBlock.deserialize_serialize (List.forall_mem_nil PbbTlv.WellFormed) (by decide) rest
  obtain ⟨-, lengthLe⟩ := family.addressLength_bounds
  have size (count : Nat) (one : count ≤ 1) :
      wrapInt 32 (2 + (family.addressLength + count : Int) + 2) = 4 + family.addressLength + count := by
    have sum : (2 + (family.addressLength + count : Int) + 2) =
        (4 + family.addressLength + count : Nat) := by omega
    rw [sum, wrapInt_natCast, wrap_of_lt (by omega)]
  have read (flags : UInt8) (prefixes rest : List UInt8) (noHead : flags &&& ahasHead = 0)
      (noTail : (flags &&& ahasFullTail) ^^^ (flags &&& ahasZeroTail) = 0)
      (isPrefixes : ∀ more, deserializePrefixes flags 1 (prefixes ++ more) = some (prefixes, more)) :
      deserialize family (1 :: flags ::
        (address ++ (prefixes ++ (PbbAddressTlvBlock.serialize [] ++ rest)))) =
          some (([address], prefixes, []), rest) := by
    have parts := @deserializeParts_single address flags noHead noTail _ _ _
      (isPrefixes (PbbAddressTlvBlock.serialize [] ++ rest))
    have one : (1 : UInt8).toNat = 1 := rfl
    rw [length] at parts
    unfold deserialize
    simp only [readU8, Option.bind_eq_bind, Option.bind_some, if_pos (by decide : (1 : UInt8) > 0),
      one, parts, tlvBlock, List.map_nil]
  rcases prefixes with _ | ⟨preLen, _ | ⟨_, _⟩⟩
  · refine ⟨?_, fun rest => ?_, fun several => absurd several (by simp)⟩
    · refine Eq.trans ?_ (size 0 (by decide)).symm
      simp only [serialize, List.length_cons, List.length_append, length]
      change family.addressLength + 1 + 2 + 1 = _
      omega
    · have whole := read 0 [] rest rfl rfl fun _ => rfl
      rw [List.nil_append, ← List.append_assoc] at whole
      exact whole
  · refine ⟨?_, fun rest => ?_, fun several => absurd several (by simp)⟩
    · refine Eq.trans ?_ (size 1 (by decide)).symm
      simp only [serialize, List.length_cons, List.length_append, length, List.length_nil]
      change family.addressLength + 1 + 1 + 2 + 1 = _
      omega
    · have whole := read ahasSinglePreLen [preLen] rest rfl rfl fun _ => rfl
      rw [← List.append_assoc, ← List.append_assoc] at whole
      exact whole
  · exact absurd shape (by simp)

/-- The round trip works for one address, and for several where the tail is one of all of them. -/
theorem addressBlock_roundTrips_iff (self : PbbAddressBlock family) (nonempty : self.addresses ≠ [])
    (few : self.addresses.length < 256)
    (shape : self.prefixes.length = 0 ∨ self.prefixes.length = 1 ∨
      self.prefixes.length = self.addresses.length) (noTlvs : self.tlvs = []) :
    self.RoundTrips ↔
      self.addresses.length = 1 ∨ TailAgrees family.addressLength self.addresses := by
  obtain ⟨lengthPos, lengthLe⟩ := family.addressLength_bounds
  have positive := List.length_pos_iff.mpr nonempty
  rcases Nat.lt_or_eq_of_le positive with several | one
  · have found := found_headTail self.length_address several
    have headLe := found.head_le
    have tailLe := found.tail_le
    have isRead := fun rest => deserialize_several several few shape noTlvs
      (Nat.lt_of_le_of_lt headLe (by omega)) (Nat.lt_of_le_of_lt tailLe (by omega)) rest
    rw [or_iff_right (by omega), found.divides_iff lengthPos self.length_address]
    constructor
    · intro roundTrips
      have read := roundTrips.read []
      rw [serialize_several several, isRead] at read
      split at read
      · next inside =>
          have same := (Prod.mk.inj (Prod.mk.inj (Option.some.inj read)).1).1
          exact ⟨inside, List.map_inj_left.mp (same.trans (List.map_id _).symm)⟩
      · cases read
    · rintro ⟨inside, isAddress⟩
      have behind : (head family.addressLength self.addresses).length +
          (tail family.addressLength self.addresses).length < family.addressLength := by
        rcases Nat.lt_or_eq_of_le headLe with shorter | whole
        · exact (found.least shorter).1
        · have := found.whole whole
          omega
      refine ⟨length_serialize_several several few shape noTlvs behind, fun rest => ?_, fun _ => ?_⟩
      · have same := List.map_congr_left (g := id) isAddress
        rw [List.map_id] at same
        rw [serialize_several several, isRead, if_pos inside, same]
      · refine ⟨fun address mem => ⟨?_, ⟨_, isAddress address mem⟩⟩, inside⟩
        have parts := isAddress address mem
        rw [List.append_assoc] at parts
        exact ⟨_, parts⟩
  · obtain ⟨address, single⟩ := List.length_eq_one_iff.mp one.symm
    exact iff_of_true (roundTrips_single self single (by omega) noTlvs) (.inl one.symm)

/-- Two neighbours with one prefix length. -/
theorem addressBlock_roundTrips_iff_two :
    @RoundTrips .ipv4
      { addresses := [[10, 0, 0, 1], [10, 0, 0, 2]], prefixes := [24], length_address := by decide } :=
  (addressBlock_roundTrips_iff _ (by decide) (by decide) (by decide) rfl).mpr (.inr
    ⟨0, ⟨[], [10, 0, 0, 1], [10, 0, 0, 2], [], rfl, by decide, by decide⟩, fun _ _ _ _ => rfl⟩)

/-- The second and the third address have two bytes in common at the end, and the first one has
only one of them. -/
theorem not_addressBlock_roundTrips :
    ¬ @RoundTrips .ipv4
      { addresses := [[1, 5, 6, 7], [2, 5, 8, 7], [3, 5, 8, 7]], length_address := by decide } := by
  intro roundTrips
  have suffix := ((roundTrips.common (by decide)).1 [1, 5, 6, 7] (by decide)).2
  exact absurd suffix (by decide)

end PbbAddressBlock

end Ns3.Network.PacketBb
