import Mathlib.Data.List.GetD
import Ns3.SixLowPan.Stateless

/-!
Compression with contexts.

The receiver writes the prefix of the context over an address of which it knows at most the
second half. So the first half has to be the one of the prefix, and so do the bits of the
second half that the prefix covers. The bits behind the prefix have to survive `CleanPrefix`,
whose mask keeps as many low bits of a byte as it should clear high ones.
-/

namespace Ns3.SixLowPan

namespace SixLowPanNetDevice

/-- A byte of sixteen. -/
def byteAt (bytes : List UInt8) (index : Nat) : UInt8 := bytes.getD index 0

/-- Lists of sixteen bytes are equal if their bytes are. -/
theorem eq_iff_byteAt {a b : List UInt8} (lengthA : a.length = 16) (lengthB : b.length = 16) :
    a = b ↔ ∀ index < 16, byteAt a index = byteAt b index := by
  constructor
  · intro same index _
    rw [same]
  · intro bytes
    apply List.ext_getElem (lengthA.trans lengthB.symm)
    intro index insideA insideB
    have same := bytes index (by omega)
    unfold byteAt at same
    rwa [List.getD_eq_getElem _ _ insideA, List.getD_eq_getElem _ _ insideB] at same

theorem byteAt_mapIdx {bytes : List UInt8} {index : Nat} (inside : index < bytes.length)
    (change : Nat → UInt8 → UInt8) :
    byteAt (bytes.mapIdx change) index = change index (byteAt bytes index) := by
  unfold byteAt
  rw [List.getD_eq_getElem _ _ (by simpa using inside), List.getElem_mapIdx,
    List.getD_eq_getElem _ _ inside]

theorem byteAt_append_left {front back : List UInt8} {index : Nat}
    (inside : index < front.length) : byteAt (front ++ back) index = byteAt front index := by
  unfold byteAt
  rw [List.getD_append _ _ _ _ inside]

theorem byteAt_append_right {front back : List UInt8} {index : Nat}
    (beyond : front.length ≤ index) :
    byteAt (front ++ back) index = byteAt back (index - front.length) := by
  unfold byteAt
  rw [List.getD_append_right _ _ _ _ beyond]

theorem byteAt_take {bytes : List UInt8} {count index : Nat} (inside : index < count) :
    byteAt (bytes.take count) index = byteAt bytes index := by
  unfold byteAt
  rw [List.getD_eq_getElem?_getD, List.getElem?_take_of_lt inside, ← List.getD_eq_getElem?_getD]

theorem byteAt_drop (bytes : List UInt8) (count index : Nat) :
    byteAt (bytes.drop count) index = byteAt bytes (count + index) := by
  unfold byteAt
  rw [List.getD_eq_getElem?_getD, List.getElem?_drop, ← List.getD_eq_getElem?_getD]

/-- Bytes are equal if their bits are. -/
theorem byte_ext {a b : UInt8} (bits : ∀ i, a.toBitVec.getLsbD i = b.toBitVec.getLsbD i) :
    a = b := by
  apply UInt8.toBitVec_inj.mp
  apply BitVec.eq_of_getLsbD_eq
  intro i _
  exact bits i

theorem bits_and (a b : UInt8) (i : Nat) :
    (a &&& b).toBitVec.getLsbD i = (a.toBitVec.getLsbD i && b.toBitVec.getLsbD i) := by
  rw [UInt8.toBitVec_and, BitVec.getLsbD_and]

theorem bits_or (a b : UInt8) (i : Nat) :
    (a ||| b).toBitVec.getLsbD i = (a.toBitVec.getLsbD i || b.toBitVec.getLsbD i) := by
  rw [UInt8.toBitVec_or, BitVec.getLsbD_or]

theorem bits_not (a : UInt8) (i : Nat) :
    (~~~ a).toBitVec.getLsbD i = (decide (i < 8) && !a.toBitVec.getLsbD i) := by
  rw [UInt8.toBitVec_not, BitVec.getLsbD_not]

theorem or_and_right (a b c : UInt8) : (a ||| b) &&& c = (a &&& c) ||| (b &&& c) := by
  apply byte_ext
  intro i
  simp only [bits_and, bits_or, Bool.and_or_distrib_right]

theorem and_not_of_clear {byte mask : UInt8} (clear : byte &&& mask = 0) :
    byte &&& ~~~ mask = byte := by
  apply byte_ext
  intro i
  have bit : (byte.toBitVec.getLsbD i && mask.toBitVec.getLsbD i) = false := by
    rw [← bits_and, clear]
    exact BitVec.getLsbD_zero
  have range : 8 ≤ i → byte.toBitVec.getLsbD i = false := BitVec.getLsbD_of_ge byte.toBitVec i
  simp only [bits_and, bits_not]
  by_cases small : i < 8
  · revert bit
    simp only [small, decide_true, Bool.true_and]
    cases byte.toBitVec.getLsbD i <;> cases mask.toBitVec.getLsbD i <;> simp
  · simp [small, range (by omega)]

/-- A byte behind a prefix: the bits of the prefix, and the others from what was sent. -/
theorem override_eq_iff {covered sent byte mask : UInt8} (clear : covered &&& mask = 0) :
    (covered &&& ~~~ mask) ||| (sent &&& mask) = byte ↔
      byte &&& ~~~ mask = covered ∧ sent &&& mask = byte &&& mask := by
  constructor
  · rintro rfl
    constructor
    · have behind : (sent &&& mask) &&& ~~~ mask = 0 := by
        apply byte_ext
        intro i
        simp only [bits_and, bits_not]
        cases mask.toBitVec.getLsbD i <;> simp
      rw [and_not_of_clear clear, or_and_right, and_not_of_clear clear, behind,
        UInt8.or_zero]
    · rw [and_not_of_clear clear, or_and_right, clear, UInt8.zero_or,
        UInt8.and_assoc, UInt8.and_self]
  · rintro ⟨covers, keeps⟩
    rw [and_not_of_clear clear, ← covers, keeps]
    apply byte_ext
    intro i
    have range : 8 ≤ i → byte.toBitVec.getLsbD i = false :=
      BitVec.getLsbD_of_ge byte.toBitVec i
    simp only [bits_and, bits_or, bits_not]
    by_cases small : i < 8
    · simp only [small, decide_true, Bool.true_and]
      cases mask.toBitVec.getLsbD i <;> simp
    · simp [small, range (by omega)]

/-- The bits of a byte that `CleanPrefix` takes away behind a prefix. -/
def lostBits (prefixLength : Nat) : UInt8 :=
  UInt8.ofNat (2 ^ (8 - prefixLength % 8) - 2 ^ (prefixLength % 8))

/-- A mask takes nothing from a byte when the byte is clear where the mask is. -/
theorem and_and_eq_iff {byte kept mask lost : UInt8} (split : mask = (kept &&& mask) ||| lost)
    (apart : kept &&& lost = 0) :
    (byte &&& kept) &&& mask = byte &&& mask ↔ byte &&& lost = 0 := by
  have rest : byte &&& mask = (byte &&& kept) &&& mask ||| byte &&& lost := by
    rw [UInt8.and_assoc, UInt8.and_comm byte (kept &&& mask), UInt8.and_comm byte lost,
      ← or_and_right, ← split, UInt8.and_comm]
  constructor
  · intro same
    have behind : kept &&& mask &&& lost = 0 := by
      rw [UInt8.and_assoc, UInt8.and_comm mask, ← UInt8.and_assoc, apart, UInt8.zero_and]
    have inside : mask &&& lost = lost := by
      rw [split, or_and_right, behind, UInt8.zero_or, UInt8.and_self]
    calc byte &&& lost = (byte &&& mask) &&& lost := by rw [UInt8.and_assoc, inside]
      _ = (byte &&& kept) &&& mask &&& lost := by rw [same]
      _ = 0 := by rw [UInt8.and_assoc byte, UInt8.and_assoc, behind, UInt8.and_zero]
  · intro clear
    rw [rest, clear, UInt8.or_zero]

/-- What `CleanPrefix` keeps and takes away of the bits behind a prefix. -/
theorem cleanMask_split : ∀ rest : Fin 8, (rest : Nat) ≠ 0 →
    UInt8.ofNat (2 ^ (8 - (rest : Nat)) - 1) =
        (UInt8.ofNat (2 ^ (rest : Nat) - 1) &&& UInt8.ofNat (2 ^ (8 - (rest : Nat)) - 1)) |||
          UInt8.ofNat (2 ^ (8 - (rest : Nat)) - 2 ^ (rest : Nat)) ∧
      UInt8.ofNat (2 ^ (rest : Nat) - 1) &&&
        UInt8.ofNat (2 ^ (8 - (rest : Nat)) - 2 ^ (rest : Nat)) = 0 := by
  decide

/-- When `CleanPrefix` keeps the bits of a byte that are behind the prefix. -/
theorem cleanByte_and_iff (prefixLength index : Nat) (byte : UInt8) :
    cleanByte prefixLength index byte &&& addressBitMask prefixLength index =
        byte &&& addressBitMask prefixLength index ↔
      (index = prefixLength / 8 → prefixLength % 8 ≠ 0 →
        byte &&& lostBits prefixLength = 0) := by
  unfold cleanByte addressBitMask
  by_cases before : index < prefixLength / 8
  · have other : index ≠ prefixLength / 8 := Nat.ne_of_lt before
    simp [before, other]
  · by_cases here : index = prefixLength / 8
    · by_cases whole : prefixLength % 8 = 0
      · simp [here, whole]
      · have small : prefixLength % 8 < 8 := Nat.mod_lt _ (by decide)
        have masks := cleanMask_split ⟨prefixLength % 8, small⟩ whole
        simp only [here, Nat.lt_irrefl, if_false, if_true, whole, ne_eq, not_false_iff, and_self,
          forall_const]
        exact and_and_eq_iff masks.1 masks.2
    · simp [before, here]

/-- The first half of an address and the bits that a context covers are those of its prefix. -/
def Covers (contextPrefix : Ipv6Prefix) (address : Ipv6Address) : Prop :=
  ∀ index < 16,
    byteAt address.bytes index &&& ~~~ addressBitMask (max 64 contextPrefix.prefixLength) index =
      byteAt contextPrefix.bytes index

/-- In the second half, `CleanPrefix` takes nothing away behind the prefix. -/
def Kept (contextPrefix : Ipv6Prefix) (address : Ipv6Address) : Prop :=
  64 < contextPrefix.prefixLength → contextPrefix.prefixLength % 8 ≠ 0 →
    byteAt address.bytes (contextPrefix.prefixLength / 8) &&&
      lostBits contextPrefix.prefixLength = 0

/-- The address is what the link-layer address makes of the prefix. -/
def Configured (contextPrefix : Ipv6Prefix) (link : LinkAddress) (address : Ipv6Address) : Prop :=
  address.bytes = contextPrefix.bytes.take 8 ++ link.interfaceId

/-- An address that comes back from the compression with a context. -/
def Restorable (contextPrefix : Ipv6Prefix) (link : LinkAddress) (address : Ipv6Address) : Prop :=
  contextPrefix.bytes.take 8 ++ link.interfaceId ≠ List.replicate 16 0 ∧
    Covers contextPrefix address ∧
    (Configured contextPrefix link address → 9 ≤ contextPrefix.prefixLength) ∧
    (¬ Configured contextPrefix link address → Kept contextPrefix address)

theorem addressBitMask_max_of_le {prefixLength index : Nat} (second : 8 ≤ index) :
    addressBitMask (max 64 prefixLength) index = addressBitMask prefixLength index := by
  by_cases long : 64 ≤ prefixLength
  · rw [Nat.max_eq_right long]
  · rw [Nat.max_eq_left (by omega)]
    unfold addressBitMask
    have notBefore : ¬ index < prefixLength / 8 := by omega
    have notHere : index ≠ prefixLength / 8 := by omega
    have notFirst : ¬ index < 64 / 8 := by omega
    rw [if_neg notBefore, if_neg notHere, if_neg notFirst]
    split <;> rfl

theorem addressBitMask_max_of_lt {prefixLength index : Nat} (first : index < 8) :
    addressBitMask (max 64 prefixLength) index = 0 := by
  unfold addressBitMask
  rw [if_pos (by omega)]

theorem byteAt_clear (contextPrefix : Ipv6Prefix) {index : Nat} (inside : index < 16) :
    byteAt contextPrefix.bytes index &&& addressBitMask contextPrefix.prefixLength index = 0 :=
  contextPrefix.clear index inside

/-- What has to hold of every byte that the receiver rebuilds. -/
theorem overridePrefix_eq_iff (contextPrefix : Ipv6Prefix) (address : Ipv6Address)
    {bytes : List UInt8} (whole : bytes.length = 16) :
    overridePrefix contextPrefix bytes = address.bytes ↔
      ∀ index < 16,
        byteAt address.bytes index &&& ~~~ addressBitMask contextPrefix.prefixLength index =
            byteAt contextPrefix.bytes index ∧
          byteAt bytes index &&& addressBitMask contextPrefix.prefixLength index =
            byteAt address.bytes index &&& addressBitMask contextPrefix.prefixLength index := by
  have length : (overridePrefix contextPrefix bytes).length = 16 := by
    unfold overridePrefix
    rw [List.length_mapIdx, whole]
  rw [eq_iff_byteAt length address.length_bytes]
  apply forall_congr'
  intro index
  apply forall_congr'
  intro inside
  have byte : byteAt (overridePrefix contextPrefix bytes) index =
      overrideByte contextPrefix index (byteAt bytes index) := by
    unfold overridePrefix
    rw [byteAt_mapIdx (by omega)]
  rw [byte]
  exact override_eq_iff (byteAt_clear contextPrefix inside)

/-- A byte that agrees with the prefix in front of a mask and is clear behind it. -/
theorem covered_iff {covered byte mask : UInt8} (clear : covered &&& mask = 0) :
    (byte &&& ~~~ mask = covered ∧ 0 &&& mask = byte &&& mask) ↔ byte = covered := by
  rw [← override_eq_iff clear, and_not_of_clear clear, UInt8.zero_and, UInt8.or_zero]
  exact eq_comm

/-- An address of which the second half was sent. -/
theorem cleanPrefix_rebuilds_iff (contextPrefix : Ipv6Prefix) (address : Ipv6Address) :
    overridePrefix contextPrefix
        (List.replicate 8 0 ++ (cleanPrefix address contextPrefix).drop 8) = address.bytes ↔
      Covers contextPrefix address ∧ Kept contextPrefix address := by
  have whole : (List.replicate 8 0 ++ (cleanPrefix address contextPrefix).drop 8).length = 16 := by
    simp [length_cleanPrefix]
  have first (index : Nat) (small : index < 8) :
      byteAt (List.replicate 8 0 ++ (cleanPrefix address contextPrefix).drop 8) index = 0 := by
    have inside : index < (List.replicate 8 (0 : UInt8)).length := by simpa using small
    rw [byteAt_append_left inside, byteAt, List.getD_eq_getElem _ _ inside,
      List.getElem_replicate]
  have second (index : Nat) (large : 8 ≤ index) (inside : index < 16) :
      byteAt (List.replicate 8 0 ++ (cleanPrefix address contextPrefix).drop 8) index =
        cleanByte contextPrefix.prefixLength index (byteAt address.bytes index) := by
    rw [byteAt_append_right (by simpa using large), byteAt_drop, List.length_replicate,
      Nat.add_sub_cancel' large]
    unfold cleanPrefix
    rw [byteAt_mapIdx (by rw [address.length_bytes]; exact inside)]
  rw [overridePrefix_eq_iff contextPrefix address whole]
  constructor
  · intro bytes
    constructor
    · intro index inside
      have byte := bytes index inside
      by_cases small : index < 8
      · rw [first index small, covered_iff (byteAt_clear contextPrefix inside)] at byte
        rw [addressBitMask_max_of_lt small, byte]
        exact and_not_of_clear UInt8.and_zero
      · rw [addressBitMask_max_of_le (by omega)]
        exact byte.1
    · intro long partly
      have inside : contextPrefix.prefixLength / 8 < 16 := by
        have := contextPrefix.prefixLength_le
        omega
      have byte := (bytes _ inside).2
      rw [second _ (by omega) inside, cleanByte_and_iff] at byte
      exact byte rfl partly
  · rintro ⟨covers, kept⟩ index inside
    have byte := covers index inside
    by_cases small : index < 8
    · rw [first index small, covered_iff (byteAt_clear contextPrefix inside)]
      rwa [addressBitMask_max_of_lt small, and_not_of_clear UInt8.and_zero] at byte
    · rw [addressBitMask_max_of_le (by omega)] at byte
      refine ⟨byte, ?_⟩
      rw [second index (by omega) inside, cleanByte_and_iff]
      intro here partly
      rw [here]
      exact kept (by omega) partly

/-- Where the first half of `fe80::` is covered by a prefix. -/
theorem linkLocalHalf_covered (contextPrefix : Ipv6Prefix) :
    (∀ index < 8, byteAt Ipv6Address.linkLocalHalf index &&&
      addressBitMask contextPrefix.prefixLength index = 0) ↔ 9 ≤ contextPrefix.prefixLength := by
  rcases Nat.lt_or_ge contextPrefix.prefixLength 16 with short | long
  · have all : ∀ length : Fin 16, (∀ index < 8, byteAt Ipv6Address.linkLocalHalf index &&&
        addressBitMask length index = 0) ↔ 9 ≤ (length : Nat) := by
      decide
    exact all ⟨contextPrefix.prefixLength, short⟩
  · refine iff_of_true ?_ (le_trans (by decide) long)
    have zeroes : ∀ index < 8, 2 ≤ index → byteAt Ipv6Address.linkLocalHalf index = 0 := by
      decide
    intro index small
    rcases Nat.lt_or_ge index 2 with first | second
    · rw [addressBitMask, if_pos (by omega), UInt8.and_zero]
    · rw [zeroes index small second, UInt8.zero_and]

/-- An address that was left out. -/
theorem configured_rebuilds_iff {contextPrefix : Ipv6Prefix} {link : LinkAddress}
    {address : Ipv6Address} (configured : Configured contextPrefix link address) :
    overridePrefix contextPrefix (Ipv6Address.linkLocalHalf ++ link.interfaceId) =
        address.bytes ↔
      Covers contextPrefix address ∧ 9 ≤ contextPrefix.prefixLength := by
  have half : (contextPrefix.bytes.take 8).length = 8 := by
    simp [contextPrefix.length_bytes]
  have whole : (Ipv6Address.linkLocalHalf ++ link.interfaceId).length = 16 := by
    simp [Ipv6Address.linkLocalHalf]
  have first (index : Nat) (small : index < 8) :
      byteAt (Ipv6Address.linkLocalHalf ++ link.interfaceId) index =
          byteAt Ipv6Address.linkLocalHalf index ∧
        byteAt address.bytes index = byteAt contextPrefix.bytes index := by
    rw [configured, @byteAt_append_left Ipv6Address.linkLocalHalf _ _ small,
      byteAt_append_left (by rw [half]; exact small), byteAt_take small]
    exact ⟨rfl, rfl⟩
  have second (index : Nat) (large : 8 ≤ index) :
      byteAt (Ipv6Address.linkLocalHalf ++ link.interfaceId) index =
        byteAt address.bytes index := by
    rw [configured, @byteAt_append_right Ipv6Address.linkLocalHalf _ _ large,
      byteAt_append_right (by rw [half]; exact large), half]
    rfl
  rw [overridePrefix_eq_iff contextPrefix address whole, ← linkLocalHalf_covered]
  constructor
  · intro bytes
    constructor
    · intro index inside
      by_cases small : index < 8
      · rw [addressBitMask_max_of_lt small, (first index small).2]
        exact and_not_of_clear UInt8.and_zero
      · rw [addressBitMask_max_of_le (by omega)]
        exact (bytes index inside).1
    · intro index small
      have byte := (bytes index (by omega)).2
      rwa [(first index small).1, (first index small).2,
        byteAt_clear contextPrefix (by omega)] at byte
  · rintro ⟨covers, covered⟩ index inside
    by_cases small : index < 8
    · have clear := byteAt_clear contextPrefix inside
      rw [(first index small).1, (first index small).2, covered index small, clear]
      exact ⟨and_not_of_clear clear, rfl⟩
    · have byte := covers index inside
      rw [addressBitMask_max_of_le (by omega)] at byte
      rw [second index (by omega)]
      exact ⟨byte, rfl⟩

theorem toAddress_eq_iff {bytes : List UInt8} (whole : bytes.length = 16)
    (address : Ipv6Address) : toAddress bytes = .ok address ↔ bytes = address.bytes := by
  unfold toAddress
  rw [dif_pos whole, Except.ok.injEq]
  constructor
  · rintro rfl
    rfl
  · intro same
    exact Ipv6Address.ext same

theorem length_overridePrefix (contextPrefix : Ipv6Prefix) {bytes : List UInt8}
    (whole : bytes.length = 16) : (overridePrefix contextPrefix bytes).length = 16 := by
  unfold overridePrefix
  rw [List.length_mapIdx, whole]

/-- `MakeAutoconfiguredAddress`, with the bytes of the prefix. -/
theorem makeAutoconfiguredAddress_eq (link : LinkAddress) (contextPrefix : Ipv6Prefix) :
    (contextPrefix.bytes.take 8 ++ link.interfaceId = List.replicate 16 0 ∧
        Ipv6Address.makeAutoconfiguredAddress link contextPrefix = none) ∨
      (contextPrefix.bytes.take 8 ++ link.interfaceId ≠ List.replicate 16 0 ∧
        ∃ configured, Ipv6Address.makeAutoconfiguredAddress link contextPrefix =
          some configured ∧ configured.bytes = contextPrefix.bytes.take 8 ++ link.interfaceId) := by
  have bytes : (Ipv6Address.autoconfigured link
      (Ipv6Address.ones.combinePrefix contextPrefix)).bytes =
        contextPrefix.bytes.take 8 ++ link.interfaceId := by
    change (Ipv6Address.ones.combinePrefix contextPrefix).bytes.take 8 ++ link.interfaceId = _
    rw [Ipv6Address.ones_combinePrefix]
  unfold Ipv6Address.makeAutoconfiguredAddress
  dsimp only
  by_cases any : Ipv6Address.autoconfigured link
      (Ipv6Address.ones.combinePrefix contextPrefix) = Ipv6Address.any
  · left
    rw [if_pos any, ← bytes, any]
    exact ⟨rfl, rfl⟩
  · right
    rw [if_neg any, ← bytes]
    exact ⟨fun zero => any (Ipv6Address.ext zero), _, rfl, rfl⟩

/-- What is rebuilt of an address that was not left out. -/
theorem decompressStateful_cleanPrefix (address : Ipv6Address) (link : LinkAddress)
    (contextPrefix : Ipv6Prefix) (tail : List UInt8) {compressed : CompressedAddress}
    (isCompressed : (if ((cleanPrefix address contextPrefix).drop 8).take 6 = shortChecker then
        (⟨.hcCompr16, (cleanPrefix address contextPrefix).drop 14⟩ : CompressedAddress)
      else ⟨.hcCompr64, (cleanPrefix address contextPrefix).drop 8⟩) = compressed) :
    decompressStateful compressed.mode (compressed.inlinePart ++ tail) link contextPrefix =
      toAddress (overridePrefix contextPrefix
        (List.replicate 8 0 ++ (cleanPrefix address contextPrefix).drop 8)) := by
  have length := length_cleanPrefix address contextPrefix
  split at isCompressed
  · next short =>
    subst isCompressed
    have part : ((cleanPrefix address contextPrefix).drop 14 ++ tail).take 2 =
        (cleanPrefix address contextPrefix).drop 14 :=
      List.take_left' (by rw [List.length_drop, length])
    have half : shortChecker ++ (cleanPrefix address contextPrefix).drop 14 =
        (cleanPrefix address contextPrefix).drop 8 := by
      rw [← short]
      have behind : (cleanPrefix address contextPrefix).drop 14 =
          ((cleanPrefix address contextPrefix).drop 8).drop 6 := by
        rw [List.drop_drop]
      rw [behind, List.take_append_drop]
    unfold decompressStateful
    dsimp only
    rw [part, List.append_assoc, half]
  · subst isCompressed
    have part : ((cleanPrefix address contextPrefix).drop 8 ++ tail).take 8 =
        (cleanPrefix address contextPrefix).drop 8 :=
      List.take_left' (by rw [List.length_drop, length])
    unfold decompressStateful
    dsimp only
    rw [part]

/-- When the compression of a unicast address with a context keeps it. -/
theorem decompressStateful_eq_iff {address : Ipv6Address} {link : LinkAddress}
    {contextPrefix : Ipv6Prefix} {compressed : CompressedAddress}
    (told : compressStateful address link contextPrefix = .ok compressed) (tail : List UInt8) :
    decompressStateful compressed.mode (compressed.inlinePart ++ tail) link contextPrefix =
        .ok address ↔
      Restorable contextPrefix link address := by
  unfold compressStateful at told
  obtain ⟨_, aborts⟩ | ⟨nonzero, configured, made, bytes⟩ :=
    makeAutoconfiguredAddress_eq link contextPrefix
  · rw [aborts] at told
    cases told
  · rw [made] at told
    dsimp only at told
    unfold Restorable
    by_cases same : configured = address
    · rw [if_pos same] at told
      cases told
      have isConfigured : Configured contextPrefix link address := same ▸ bytes
      unfold decompressStateful
      dsimp only
      rw [toAddress_eq_iff (length_overridePrefix _ (Ipv6Address.length_bytes _))]
      have rebuilds := configured_rebuilds_iff isConfigured
      simp only [ne_eq, nonzero, not_false_iff, true_and, isConfigured, true_implies, not_true,
        false_implies, and_true]
      exact rebuilds
    · rw [if_neg same, ← apply_ite Except.ok] at told
      have notConfigured : ¬ Configured contextPrefix link address := by
        intro isConfigured
        exact same (Ipv6Address.ext (bytes.trans isConfigured.symm))
      rw [decompressStateful_cleanPrefix address link contextPrefix tail (Except.ok.inj told),
        toAddress_eq_iff (length_overridePrefix _ (by simp [length_cleanPrefix])),
        cleanPrefix_rebuilds_iff]
      simp only [ne_eq, nonzero, not_false_iff, true_and, notConfigured, false_implies,
        true_implies]

theorem compressStateful_aborts {address : Ipv6Address} {link : LinkAddress}
    {contextPrefix : Ipv6Prefix} {failure : Failure}
    (told : compressStateful address link contextPrefix = .error failure) :
    ¬ Restorable contextPrefix link address := by
  rintro ⟨nonzero, _⟩
  unfold compressStateful at told
  obtain ⟨zero, _⟩ | ⟨_, configured, made, _⟩ := makeAutoconfiguredAddress_eq link contextPrefix
  · exact nonzero zero
  · rw [made] at told
    dsimp only at told
    split at told
    · cases told
    · split at told <;> cases told

/-- The context that a test has found. -/
theorem findContext_found {self : SixLowPanNetDevice} {accepts : Ipv6Prefix → Bool}
    {contextId : Fin 16} (found : self.findContext accepts = some contextId) :
    ∃ context, self.contextTable contextId = some context ∧ self.now < context.validLifetime ∧
      accepts context.contextPrefix = true := by
  have accepted := List.find?_some found
  split at accepted
  · cases accepted
  · next context isContext =>
    simp only [Bool.and_eq_true, decide_eq_true_eq] at accepted
    exact ⟨context, isContext, accepted.1.2, accepted.2⟩

/-- The receiver has the context that the sender names. -/
theorem namedContext_of_valid {self : SixLowPanNetDevice} {contextId : Fin 16}
    {context : ContextEntry} (isContext : self.contextTable contextId = some context)
    (valid : self.now < context.validLifetime) :
    self.namedContext (UInt8.ofNat contextId) = .ok context.contextPrefix := by
  have number : (UInt8.ofNat contextId).toNat = contextId := by
    have all : ∀ contextId : Fin 16, (UInt8.ofNat contextId).toNat = contextId := by decide
    exact all contextId
  unfold namedContext
  simp only [number, contextId.isLt, dif_pos, isContext]
  rw [if_neg (by omega)]

/-- A unicast address that comes back. -/
def UnicastRestorable (self : SixLowPanNetDevice) (address : Ipv6Address) (link : LinkAddress) :
    Prop :=
  match self.findUnicastCompressionContext address with
  | none => True
  | some contextId => ∀ context, self.contextTable contextId = some context →
      Restorable context.contextPrefix link address

/-- A source address that comes back; `::` has a code of its own. -/
def SourceRestorable (self : SixLowPanNetDevice) (address : Ipv6Address) (link : LinkAddress) :
    Prop :=
  address ≠ Ipv6Address.any → self.UnicastRestorable address link

/-- A destination address that comes back. With a multicast address and a context, the header
overwrites ten bytes of what is behind it. -/
def DestinationRestorable (self : SixLowPanNetDevice) (address : Ipv6Address)
    (link : LinkAddress) (behind : Nat) : Prop :=
  if address.isMulticast then
    self.findMulticastCompressionContext address ≠ none → 10 ≤ behind
  else self.UnicastRestorable address link

/-- The addresses that `DecompressLowPanIphc` sets. -/
def rebuiltAddresses (self : SixLowPanNetDevice) (packet : List UInt8) (src dst : LinkAddress) :
    Except Failure (Ipv6Address × Ipv6Address) := do
  let (encoding, _) ← orAborted (SixLowPanIphc.removeHeader packet)
  self.decompressAddresses encoding src dst

theorem unicastCode_found {self : SixLowPanNetDevice} {address : Ipv6Address}
    {contextId : Fin 16} {context : ContextEntry}
    (found : self.findUnicastCompressionContext address = some contextId)
    (isContext : self.contextTable contextId = some context) (link : LinkAddress) :
    self.unicastCode address link =
      (compressStateful address link context.contextPrefix).map (⟨true, contextId, ·⟩) := by
  unfold unicastCode contextPrefix?
  rw [found]
  dsimp only
  rw [isContext]
  rfl

theorem unicastRestorable_found {self : SixLowPanNetDevice} {address : Ipv6Address}
    {contextId : Fin 16} {context : ContextEntry}
    (found : self.findUnicastCompressionContext address = some contextId)
    (isContext : self.contextTable contextId = some context) (link : LinkAddress) :
    self.UnicastRestorable address link ↔ Restorable context.contextPrefix link address := by
  unfold UnicastRestorable
  rw [found]
  dsimp only
  rw [isContext]
  simp

/-- An address that is not compressed does not come back. -/
theorem unicastCode_aborts {self : SixLowPanNetDevice} {address : Ipv6Address}
    {link : LinkAddress} {failure : Failure}
    (told : self.unicastCode address link = .error failure) :
    ¬ self.UnicastRestorable address link := by
  cases found : self.findUnicastCompressionContext address with
  | none =>
      unfold unicastCode at told
      rw [found] at told
      cases told
  | some contextId =>
      obtain ⟨context, isContext, _, _⟩ := findContext_found found
      rw [unicastCode_found found isContext] at told
      rw [unicastRestorable_found found isContext]
      cases compressed : compressStateful address link context.contextPrefix with
      | error reason => exact compressStateful_aborts compressed
      | ok result =>
          rw [compressed] at told
          cases told

theorem sourceCode_aborts {self : SixLowPanNetDevice} {address : Ipv6Address}
    {link : LinkAddress} {failure : Failure}
    (told : self.sourceCode address link = .error failure) :
    ¬ self.SourceRestorable address link := by
  unfold sourceCode at told
  split at told
  · cases told
  · next notAny =>
    intro restorable
    exact unicastCode_aborts told (restorable notAny)

theorem destinationCode_aborts {self : SixLowPanNetDevice} {address : Ipv6Address}
    {link : LinkAddress} {failure : Failure}
    (told : self.destinationCode address link = .error failure) (behind : Nat) :
    ¬ self.DestinationRestorable address link behind := by
  unfold destinationCode at told
  unfold DestinationRestorable
  split at told
  · cases told
  · next unicast =>
    rw [if_neg unicast]
    exact unicastCode_aborts told

theorem error_bind {α β : Type} (failure : Failure) (next : α → Except Failure β) :
    (Except.error failure >>= next) = .error failure :=
  rfl

section Identical

variable {sender receiver : SixLowPanNetDevice}
  (identical : receiver.contextTable = sender.contextTable)
include identical

section Usable

variable (usable : ∀ contextId context, sender.contextTable contextId = some context →
    sender.now < context.validLifetime → receiver.now < context.validLifetime)
include usable

theorem decodeUnicast_eq_iff {address : Ipv6Address} {link : LinkAddress} {code : AddressCode}
    (told : sender.unicastCode address link = .ok code) (tail : List UInt8) :
    receiver.decodeUnicast code tail link = .ok address ↔
      sender.UnicastRestorable address link := by
  cases found : sender.findUnicastCompressionContext address with
  | none =>
      unfold unicastCode at told
      unfold UnicastRestorable
      rw [found] at told ⊢
      cases told
      simp only [iff_true]
      exact decompressStateless_compressStateless address link tail
  | some contextId =>
      obtain ⟨context, isContext, lifetime, _⟩ := findContext_found found
      have named : receiver.namedContext (UInt8.ofNat contextId) = .ok context.contextPrefix :=
        namedContext_of_valid (identical ▸ isContext) (usable contextId context isContext lifetime)
      rw [unicastCode_found found isContext] at told
      rw [unicastRestorable_found found isContext]
      cases compressed : compressStateful address link context.contextPrefix with
      | error failure =>
          rw [compressed] at told
          cases told
      | ok result =>
          rw [compressed] at told
          cases told
          unfold decodeUnicast AddressCode.number
          rw [if_pos rfl, named, ok_bind, decompressStateful_eq_iff compressed]

theorem decodeSource_eq_iff {address : Ipv6Address} {link : LinkAddress} {code : AddressCode}
    (told : sender.sourceCode address link = .ok code) (tail : List UInt8) :
    receiver.decodeSource code tail link = .ok address ↔ sender.SourceRestorable address link := by
  unfold sourceCode at told
  unfold SourceRestorable
  by_cases any : address = Ipv6Address.any
  · rw [if_pos any] at told
    cases told
    simp [decodeSource, any]
  · rw [if_neg any] at told
    have mode : ¬ (code.stateful ∧ code.compressed.mode = .hcInline) := by
      rintro ⟨stateful, inline⟩
      exact mode_unicastCode told stateful inline
    unfold decodeSource
    rw [if_neg mode, decodeUnicast_eq_iff identical usable told]
    simp [any]

/-- A multicast address comes back if its code does. -/
theorem decodeMulticast_eq {address : Ipv6Address} (multicast : address.isMulticast = true)
    (tail : List UInt8) :
    receiver.decodeMulticast (sender.multicastCode address) tail = .ok address := by
  unfold multicastCode
  cases found : sender.findMulticastCompressionContext address with
  | none => exact decompressMulticast_compressMulticast multicast tail
  | some contextId =>
      obtain ⟨context, isContext, lifetime, matching⟩ := findContext_found found
      have named : receiver.namedContext (UInt8.ofNat contextId) = .ok context.contextPrefix :=
        namedContext_of_valid (identical ▸ isContext) (usable contextId context isContext lifetime)
      unfold matchesMulticast at matching
      simp only [Bool.and_eq_true, decide_eq_true_eq] at matching
      unfold decodeMulticast AddressCode.number
      dsimp only
      rw [if_pos rfl, named, ok_bind, ← matching.2]
      obtain ⟨bytes, whole⟩ := address
      match bytes, whole with
      | [a, b, c, d, e, f, g, h, i, j, k, l, m, n, o, p], _ =>
        have first : a = 0xff := by simpa [Ipv6Address.isMulticast] using multicast
        simp [toAddress, first]

theorem decodeDestination_eq_iff {address : Ipv6Address} {link : LinkAddress}
    {code : AddressCode} (told : sender.destinationCode address link = .ok code)
    (tail : List UInt8) (behind : Nat) :
    (Told.excess address.isMulticast code ≤ behind ∧
        receiver.decodeDestination address.isMulticast code tail link = .ok address) ↔
      sender.DestinationRestorable address link behind := by
  unfold destinationCode at told
  unfold DestinationRestorable decodeDestination Told.excess
  cases multicast : address.isMulticast with
  | true =>
      rw [multicast, if_pos rfl] at told
      cases told
      have back := decodeMulticast_eq identical usable multicast tail
      simp only [if_true, Bool.true_and, back, and_true]
      unfold multicastCode
      cases sender.findMulticastCompressionContext address <;> simp
  | false =>
      rw [multicast] at told
      have back := decodeUnicast_eq_iff identical usable told tail
      simpa using back

end Usable

/-- The addresses come back if and only if each of them does. -/
theorem rebuiltAddresses_eq_iff
    (valid : ∀ contextId context, sender.contextTable contextId = some context →
      receiver.now < context.validLifetime) (ipHeader : Ipv6Header) (payload : List UInt8)
    (src dst : LinkAddress) :
    (do let packet ← sender.compressLowPanIphc (ipHeader.serialize ++ payload) src dst
        receiver.rebuiltAddresses packet src dst) =
        .ok (ipHeader.sourceAddress, ipHeader.destinationAddress) ↔
      sender.SourceRestorable ipHeader.sourceAddress src ∧
        sender.DestinationRestorable ipHeader.destinationAddress dst
          (sender.remaining { ipHeader with flowLabel := 0 } payload src dst).length := by
  rw [compressLowPanIphc_serialize]
  cases isSource : sender.sourceCode ipHeader.sourceAddress src with
  | error failure =>
      have never := sourceCode_aborts isSource
      simp only [error_bind, reduceCtorEq, never, false_and]
  | ok source =>
      cases isDestination : sender.destinationCode ipHeader.destinationAddress dst with
      | error failure =>
          have never := destinationCode_aborts isDestination
          simp only [ok_bind, error_bind, reduceCtorEq, never, and_false]
      | ok destination =>
          have told := @told_prepared sender { ipHeader with flowLabel := 0 } src dst source
            destination payload isSource isDestination
          obtain ⟨sourceTail, sourceFound⟩ := told.decompressSource_received receiver src
          obtain ⟨destinationTail, destinationFound⟩ :=
            told.decompressDestination_received receiver dst
          have added := told.addHeader_encoded
            (sender.remaining { ipHeader with flowLabel := 0 } payload src dst)
          have removed := told.removeHeader_encoded
          have usable : ∀ contextId context, sender.contextTable contextId = some context →
              sender.now < context.validLifetime → receiver.now < context.validLifetime :=
            fun contextId context isContext _ => valid contextId context isContext
          rw [← decodeSource_eq_iff identical usable isSource sourceTail,
            ← decodeDestination_eq_iff identical usable isDestination destinationTail]
          dsimp only at added removed sourceFound destinationFound
          simp only [ok_bind, added]
          generalize (sender.remaining { ipHeader with flowLabel := 0 } payload src dst) = rest
          by_cases fits :
              Told.excess ipHeader.destinationAddress.isMulticast destination ≤ rest.length
          · simp only [fits, if_true, true_and]
            unfold rebuiltAddresses decompressAddresses
            simp only [orAborted, ok_bind, removed, sourceFound, destinationFound]
            cases receiver.decodeSource source sourceTail src with
            | error failure => simp [error_bind]
            | ok sourceAddress =>
                cases receiver.decodeDestination ipHeader.destinationAddress.isMulticast
                    destination destinationTail dst with
                | error failure => simp [ok_bind]
                | ok destinationAddress => simp [ok_bind, pure, Except.pure]
          · simp [orAborted, error_bind, fits]

end Identical

/-- The prefix `2001:db8::/32`. -/
def documentationPrefix : Ipv6Prefix :=
  { bytes := [0x20, 0x01, 0x0d, 0xb8] ++ List.replicate 12 0
    prefixLength := 32
    length_bytes := rfl
    prefixLength_le := by decide
    clear := by decide }

/-- A device with one context. -/
def contextDevice : SixLowPanNetDevice :=
  { plainDevice with
    contextTable := fun contextId =>
      if contextId = 0 then some ⟨documentationPrefix, true, 1⟩ else none }

/-- The address `2001:db8:0:x::y`. -/
def subnetAddress (subnet host : UInt8) : Ipv6Address :=
  ⟨[0x20, 0x01, 0x0d, 0xb8, 0, 0, 0, subnet, 0, 0, 0, 0, 0, 0, 0, host], rfl⟩

/-- A header between two addresses of the context. -/
def subnetHeader (subnet : UInt8) : Ipv6Header :=
  { plainHeader 0 with
    sourceAddress := subnetAddress subnet 5
    destinationAddress := subnetAddress 0 7 }

theorem valid_contextDevice : ∀ contextId context,
    contextDevice.contextTable contextId = some context →
      contextDevice.now < context.validLifetime := by
  intro contextId context isContext
  simp only [contextDevice] at isContext
  split at isContext
  · cases isContext
    decide
  · cases isContext

/-- An address of the first subnet comes back. -/
theorem rebuiltAddresses_eq_iff_subnet :
    (do let packet ← contextDevice.compressLowPanIphc ((subnetHeader 0).serialize ++ [])
          (.mac16 0 1) (.mac16 0 2)
        contextDevice.rebuiltAddresses packet (.mac16 0 1) (.mac16 0 2)) =
        .ok ((subnetHeader 0).sourceAddress, (subnetHeader 0).destinationAddress) ∧
      contextDevice.SourceRestorable (subnetHeader 0).sourceAddress (.mac16 0 1) :=
  have rebuilt : (do
      let packet ← contextDevice.compressLowPanIphc ((subnetHeader 0).serialize ++ [])
        (.mac16 0 1) (.mac16 0 2)
      contextDevice.rebuiltAddresses packet (.mac16 0 1) (.mac16 0 2)) =
      .ok ((subnetHeader 0).sourceAddress, (subnetHeader 0).destinationAddress) := by
    decide
  ⟨rebuilt, ((rebuiltAddresses_eq_iff rfl valid_contextDevice (subnetHeader 0) [] (.mac16 0 1)
    (.mac16 0 2)).mp rebuilt).1⟩

/-- The subnet of an address of the context is lost. -/
theorem not_rebuiltAddresses_subnet :
    (subnetAddress 1 5).hasPrefix documentationPrefix = true ∧
      (subnetAddress 0 7).hasPrefix documentationPrefix = true ∧
      (do let packet ← contextDevice.compressLowPanIphc ((subnetHeader 1).serialize ++ [])
            (.mac16 0 1) (.mac16 0 2)
          contextDevice.rebuiltAddresses packet (.mac16 0 1) (.mac16 0 2)) =
        .ok (subnetAddress 0 5, subnetAddress 0 7) ∧
      subnetAddress 0 5 ≠ (subnetHeader 1).sourceAddress := by
  decide

end SixLowPanNetDevice

end Ns3.SixLowPan
