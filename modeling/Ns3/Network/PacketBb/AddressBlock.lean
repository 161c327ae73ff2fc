import Ns3.Library.Agreement
import Ns3.Network.PacketBb.Tlv

/-!
Address blocks of packetbb: `ns3::PbbAddressBlock` for IPv4 and for IPv6.

An address is the list of its bytes. The bytes that all addresses begin and end with are written
once.
-/

namespace Ns3.Network.PacketBb

open Library

/-- The derived classes of `ns3::PbbAddressBlock`. -/
inductive AddressFamily
  | ipv4
  | ipv6
  deriving DecidableEq, Repr

/-- `GetAddressLength`. -/
def AddressFamily.addressLength : AddressFamily → Nat
  | ipv4 => 4
  | ipv6 => 16

theorem AddressFamily.addressLength_bounds (family : AddressFamily) :
    0 < family.addressLength ∧ family.addressLength ≤ 16 := by
  cases family <;> decide

/-- `ns3::PbbAddressBlock`. -/
structure PbbAddressBlock (family : AddressFamily) where
  addresses : List (List UInt8)
  prefixes : List UInt8 := []
  tlvs : List PbbTlv := []
  length_address : ∀ address ∈ addresses, address.length = family.addressLength
  deriving DecidableEq, Repr

namespace PbbAddressBlock

def ahasHead : UInt8 := 0x80
def ahasFullTail : UInt8 := 0x40
def ahasZeroTail : UInt8 := 0x20
def ahasSinglePreLen : UInt8 := 0x10
def ahasMultiPreLen : UInt8 := 0x08

/-- A loop of `GetHeadTail`: how many of so many bytes are the same. -/
def scan : Nat → List UInt8 → List UInt8 → Nat
  | left + 1, last :: lasts, cur :: curs => if last ≠ cur then 0 else scan left lasts curs + 1
  | _, _, _ => 0

/-- The variables of `GetHeadTail`. -/
structure HeadTail where
  buflast : List UInt8
  bufcur : List UInt8 := []
  headlen : Nat
  taillen : Nat
  deriving DecidableEq, Repr

/-- One turn of the loop of `GetHeadTail`, with its buffers swapped. The loop for the tail runs
from the end, as long as it has passed at most `taillen` bytes and is behind the head. -/
def HeadTail.next (addressLength : Nat) (self : HeadTail) (address : List UInt8) : HeadTail :=
  let headlen := scan self.headlen self.buflast address
  { buflast := address
    bufcur := self.buflast
    headlen := headlen
    taillen :=
      if addressLength - headlen > 0 then
        scan (min (self.taillen + 1) (addressLength - 1 - headlen)) self.buflast.reverse
          address.reverse
      else self.taillen }

/-- The loop of `GetHeadTail`. It begins with the first address, as `AddressBegin ()++` is that. -/
def headTail (addressLength : Nat) (addresses : List (List UInt8)) : HeadTail :=
  addresses.foldl (HeadTail.next addressLength)
    { buflast := addresses.headD [], headlen := addressLength, taillen := addressLength }

/-- The head that `GetHeadTail` gives. -/
def head (addressLength : Nat) (addresses : List (List UInt8)) : List UInt8 :=
  let found := headTail addressLength addresses
  found.bufcur.take found.headlen

/-- The tail that `GetHeadTail` gives. -/
def tail (addressLength : Nat) (addresses : List (List UInt8)) : List UInt8 :=
  let found := headTail addressLength addresses
  found.bufcur.drop (addressLength - found.taillen)

/-- `HasZeroTail`. -/
def hasZeroTail (tail : List UInt8) : Bool := tail.all (· = 0)

variable {family : AddressFamily} (self : PbbAddressBlock family)

/-- `GetPrefixFlags`. -/
def getPrefixFlags : UInt8 :=
  match self.prefixes.length with
  | 0 => 0
  | 1 => ahasSinglePreLen
  | _ => ahasMultiPreLen

/-- The part of `GetSerializedSize` for several addresses. -/
def severalSize (head tail : List UInt8) : Int :=
  (if head.length > 0 then 1 + head.length else 0) +
    (if tail.length > 0 then 1 + if hasZeroTail tail then 0 else tail.length else 0) +
    (family.addressLength - head.length - tail.length : Int) * self.addresses.length +
    self.prefixes.length

/-- `GetSerializedSize`. -/
def getSerializedSize : Nat :=
  let length := family.addressLength
  let size : Int :=
    match self.addresses with
    | [] => 0
    | [_] => length + self.prefixes.length
    | addresses => self.severalSize (head length addresses) (tail length addresses)
  wrapInt 32 (2 + size + PbbAddressTlvBlock.getSerializedSize self.tlvs)

/-- The flag and the bytes that `Serialize` writes for the head. -/
def serializeHead (head : List UInt8) : UInt8 × List UInt8 :=
  if head.length > 0 then (ahasHead, UInt8.ofNat head.length :: head) else (0, [])

/-- The flag and the bytes that `Serialize` writes for the tail. -/
def serializeTail (tail : List UInt8) : UInt8 × List UInt8 :=
  if tail.length > 0 then
    if hasZeroTail tail then (ahasZeroTail, [UInt8.ofNat tail.length])
    else (ahasFullTail, UInt8.ofNat tail.length :: tail)
  else (0, [])

/-- What is between the head and the tail of an address. -/
def middle (addressLength : Nat) (head tail address : List UInt8) : List UInt8 :=
  (address.drop head.length).take (addressLength - head.length - tail.length)

/-- What `Serialize` writes for several addresses, the flags first. -/
def serializeSeveral (head tail : List UInt8) : List UInt8 :=
  ((serializeHead head).1 ||| (serializeTail tail).1 ||| self.getPrefixFlags) ::
    ((serializeHead head).2 ++ ((serializeTail tail).2 ++
      ((if head.length + tail.length < family.addressLength then
          self.addresses.flatMap (middle family.addressLength head tail)
        else []) ++ self.prefixes)))

/-- `Serialize`. -/
def serialize : List UInt8 :=
  let length := family.addressLength
  let addresses :=
    match self.addresses with
    | [] => [0]
    | [address] =>
        match self.prefixes with
        | [preLen] => ahasSinglePreLen :: (address ++ [preLen])
        | _ => 0 :: address
    | addresses => self.serializeSeveral (head length addresses) (tail length addresses)
  UInt8.ofNat self.addresses.length :: (addresses ++ PbbAddressTlvBlock.serialize self.tlvs)

/-- `Read`. -/
def readBytes (size : Nat) (bytes : List UInt8) : Option (List UInt8 × List UInt8) :=
  if size ≤ bytes.length then some (bytes.take size, bytes.drop size) else none

/-- What `Deserialize` reads for the head. -/
def deserializeHead (flags : UInt8) (bytes : List UInt8) : Option (List UInt8 × List UInt8) :=
  if flags &&& ahasHead ≠ 0 then do
    let (headlen, bytes) ← readU8 bytes
    readBytes headlen.toNat bytes
  else some ([], bytes)

/-- What `Deserialize` reads for the tail. The bytes of `addrtmp` are zero before. -/
def deserializeTail (flags : UInt8) (bytes : List UInt8) : Option (List UInt8 × List UInt8) :=
  if (flags &&& ahasFullTail) ^^^ (flags &&& ahasZeroTail) ≠ 0 then do
    let (taillen, bytes) ← readU8 bytes
    if flags &&& ahasFullTail ≠ 0 then readBytes taillen.toNat bytes
    else some (List.replicate taillen.toNat 0, bytes)
  else some ([], bytes)

/-- The loop of `Deserialize` over the addresses. -/
def deserializeAddresses (head tail : List UInt8) (middle : Nat) :
    Nat → List UInt8 → Option (List (List UInt8) × List UInt8)
  | 0, bytes => some ([], bytes)
  | left + 1, bytes => do
      let (mid, bytes) ← readBytes middle bytes
      let (addresses, bytes) ← deserializeAddresses head tail middle left bytes
      some ((head ++ mid ++ tail) :: addresses, bytes)

/-- What `Deserialize` reads for the prefixes. -/
def deserializePrefixes (flags : UInt8) (numaddr : Nat) (bytes : List UInt8) :
    Option (List UInt8 × List UInt8) :=
  if flags &&& ahasSinglePreLen ≠ 0 then readBytes 1 bytes
  else if flags &&& ahasMultiPreLen ≠ 0 then readBytes numaddr bytes
  else some ([], bytes)

/-- What `Deserialize` reads for the addresses and the prefixes, if there are addresses. A head and
a tail that do not fit an address are written outside of `addrtmp`. -/
def deserializeParts (addressLength numaddr : Nat) (flags : UInt8) (bytes : List UInt8) :
    Option (List (List UInt8) × List UInt8 × List UInt8) := do
  let (head, bytes) ← deserializeHead flags bytes
  let (tail, bytes) ← deserializeTail flags bytes
  if head.length + tail.length ≤ addressLength then do
    let (addresses, bytes) ← deserializeAddresses head tail
      (addressLength - head.length - tail.length) numaddr bytes
    let (prefixes, bytes) ← deserializePrefixes flags numaddr bytes
    some (addresses, prefixes, bytes)
  else none

/-- The addresses, the prefixes and the TLVs that `Deserialize` finds. -/
def deserialize (family : AddressFamily) (bytes : List UInt8) :
    Option ((List (List UInt8) × List UInt8 × List PbbTlv) × List UInt8) := do
  let (numaddr, bytes) ← readU8 bytes
  let (flags, bytes) ← readU8 bytes
  let (addresses, prefixes, bytes) ←
    if numaddr > 0 then deserializeParts family.addressLength numaddr.toNat flags bytes
    else some ([], [], bytes)
  let (tlvs, bytes) ← PbbAddressTlvBlock.deserialize bytes
  some ((addresses, prefixes, tlvs), bytes)

/-- The flags of `Serialize`, from what there is. -/
def flagsOf (hasHead hasTail zero single multi : Bool) : UInt8 :=
  (if hasHead then ahasHead else 0) |||
    (if hasTail then if zero then ahasZeroTail else ahasFullTail else 0) |||
    if single then ahasSinglePreLen else if multi then ahasMultiPreLen else 0

theorem flagsOf_spec : ∀ hasHead hasTail zero single multi : Bool,
    (flagsOf hasHead hasTail zero single multi &&& ahasHead ≠ 0 ↔ hasHead = true) ∧
      ((flagsOf hasHead hasTail zero single multi &&& ahasFullTail) ^^^
          (flagsOf hasHead hasTail zero single multi &&& ahasZeroTail) ≠ 0 ↔ hasTail = true) ∧
      (flagsOf hasHead hasTail zero single multi &&& ahasFullTail ≠ 0 ↔
        hasTail = true ∧ zero = false) ∧
      (flagsOf hasHead hasTail zero single multi &&& ahasSinglePreLen ≠ 0 ↔ single = true) ∧
      (flagsOf hasHead hasTail zero single multi &&& ahasMultiPreLen ≠ 0 ↔
        single = false ∧ multi = true) := by
  decide

theorem scan_eq (left : Nat) (lasts curs : List UInt8) :
    scan left lasts curs = min left (agreement lasts curs) := by
  induction left generalizing lasts curs with
  | zero => simp [scan]
  | succ left inductionHypothesis =>
      cases lasts with
      | nil => rfl
      | cons last lasts =>
          cases curs with
          | nil => rfl
          | cons cur curs =>
              rw [scan, agreement_cons, inductionHypothesis]
              by_cases same : last = cur
              · rw [if_neg (not_not.mpr same), if_pos same]
                omega
              · rw [if_pos same, if_neg same, Nat.min_zero]

/-- How long the tail may get that `GetHeadTail` finds at two neighbours: what they have in common
behind the head, and one byte more for each address after them. -/
def TailBound (addressLength : Nat) (addresses : List (List UInt8)) (bound : Nat) : Prop :=
  ∃ before first second after, addresses = before ++ first :: second :: after ∧
    commonHead (before ++ [first, second]) < addressLength ∧
    bound = min (agreement first.reverse second.reverse)
      (addressLength - 1 - commonHead (before ++ [first, second])) + after.length

theorem tailBound_append {addressLength bound : Nat} {seen : List (List UInt8)}
    {last address : List UInt8} :
    TailBound addressLength (seen ++ [last, address]) bound ↔
      (commonHead (seen ++ [last, address]) < addressLength ∧
          bound = min (agreement last.reverse address.reverse)
            (addressLength - 1 - commonHead (seen ++ [last, address]))) ∨
        ∃ smaller, TailBound addressLength (seen ++ [last]) smaller ∧ bound = smaller + 1 := by
  constructor
  · rintro ⟨before, first, second, after, same, shorter, rfl⟩
    rcases List.eq_nil_or_concat after with rfl | ⟨others, final, rfl⟩
    · have split : seen ++ [last, address] = before ++ [first, second] := same
      obtain ⟨rfl, ends⟩ := List.append_inj' split rfl
      cases ends
      exact .inl ⟨shorter, rfl⟩
    · refine .inr ⟨_, ⟨before, first, second, others, ?_, shorter, rfl⟩, ?_⟩
      · have split : (seen ++ [last]) ++ [address] =
            (before ++ first :: second :: others) ++ [final] := by simpa using same
        exact (List.append_inj' split rfl).1
      · rw [List.length_concat, Nat.add_assoc]
  · rintro (⟨shorter, rfl⟩ | ⟨_, ⟨before, first, second, after, same, shorter, rfl⟩, rfl⟩)
    · exact ⟨seen, last, address, [], rfl, shorter, rfl⟩
    · refine ⟨before, first, second, after ++ [address], ?_, shorter, ?_⟩
      · have longer := congrArg (· ++ [address]) same
        simpa using longer
      · rw [List.length_append, List.length_singleton, Nat.add_assoc]

/-- What the loop of `GetHeadTail` has found: the common head, and the least bound for the tail. -/
structure Scanned (addressLength : Nat) (addresses : List (List UInt8)) (found : HeadTail) :
    Prop where
  last : ∃ seen, addresses = seen ++ [found.buflast]
  cur : found.bufcur ∈ addresses
  head : found.headlen = commonHead addresses
  full : found.headlen = addressLength →
    found.taillen = addressLength ∧ ∀ bound, ¬ TailBound addressLength addresses bound
  least : found.headlen < addressLength → TailBound addressLength addresses found.taillen ∧
    ∀ bound, TailBound addressLength addresses bound → found.taillen ≤ bound

theorem Scanned.next {addressLength : Nat} {addresses : List (List UInt8)} {found : HeadTail}
    (scanned : Scanned addressLength addresses found)
    (sameLength : ∀ address ∈ addresses, address.length = addressLength) {address : List UInt8}
    (length : address.length = addressLength) :
    Scanned addressLength (addresses ++ [address]) (found.next addressLength address) := by
  obtain ⟨⟨seen, rfl⟩, cur, head, full, least⟩ := scanned
  have lastLength := sameLength found.buflast (by simp)
  have split : seen ++ [found.buflast] ++ [address] = seen ++ [found.buflast, address] := by simp
  have isHead : (found.next addressLength address).headlen =
      commonHead (seen ++ [found.buflast, address]) := by
    rw [commonHead_append _ _ _ (by rw [length, ← lastLength]; exact agreement_le _ _), ← head]
    exact scan_eq _ _ _
  have before := commonHead_le sameLength
  rw [← head] at before
  have shrinks : (found.next addressLength address).headlen ≤ found.headlen := by
    rw [isHead, commonHead_append _ _ _ (by rw [length, ← lastLength]; exact agreement_le _ _),
      ← head]
    exact Nat.min_le_left _ _
  refine ⟨⟨seen ++ [found.buflast], rfl⟩, by simp [HeadTail.next], split ▸ isHead, ?_, ?_⟩
  · intro whole
    obtain ⟨isFull, none⟩ := full (by omega)
    constructor
    · have outside : ¬ addressLength - (found.next addressLength address).headlen > 0 := by omega
      unfold HeadTail.next at outside ⊢
      dsimp only at outside ⊢
      rw [if_neg outside, isFull]
    · intro bound isBound
      rw [split, tailBound_append] at isBound
      rcases isBound with ⟨shorter, -⟩ | ⟨smaller, isSmaller, -⟩
      · omega
      · exact none smaller isSmaller
  · intro shorter
    have isTail : (found.next addressLength address).taillen =
        min (min (agreement found.buflast.reverse address.reverse)
          (addressLength - 1 - (found.next addressLength address).headlen))
            (found.taillen + 1) := by
      have inside : addressLength - (found.next addressLength address).headlen > 0 := by omega
      unfold HeadTail.next at inside ⊢
      dsimp only at inside ⊢
      rw [if_pos inside, scan_eq]
      omega
    rw [isHead] at isTail shorter
    rw [split, isTail]
    rcases Nat.lt_or_eq_of_le before with was | whole
    · obtain ⟨isBound, smallest⟩ := least was
      constructor
      · rw [tailBound_append]
        rcases Nat.le_total (min (agreement found.buflast.reverse address.reverse)
          (addressLength - 1 - commonHead (seen ++ [found.buflast, address])))
            (found.taillen + 1) with here | earlier
        · exact .inl ⟨shorter, Nat.min_eq_left here⟩
        · exact .inr ⟨_, isBound, Nat.min_eq_right earlier⟩
      · intro bound given
        rw [tailBound_append] at given
        rcases given with ⟨-, rfl⟩ | ⟨smaller, isSmaller, rfl⟩
        · exact Nat.min_le_left _ _
        · exact Nat.le_trans (Nat.min_le_right _ _) (Nat.succ_le_succ (smallest smaller isSmaller))
    · obtain ⟨isFull, none⟩ := full whole
      have here : min (agreement found.buflast.reverse address.reverse)
          (addressLength - 1 - commonHead (seen ++ [found.buflast, address])) ≤
            found.taillen + 1 := by omega
      rw [Nat.min_eq_left here]
      constructor
      · exact tailBound_append.mpr (.inl ⟨shorter, rfl⟩)
      · intro bound given
        rw [tailBound_append] at given
        rcases given with ⟨-, rfl⟩ | ⟨smaller, isSmaller, rfl⟩
        · exact Nat.le_refl _
        · exact absurd isSmaller (none smaller)

/-- The loop of `GetHeadTail` over all addresses. -/
theorem scanned_headTail {addressLength : Nat} {addresses : List (List UInt8)}
    (sameLength : ∀ address ∈ addresses, address.length = addressLength)
    (nonempty : addresses ≠ []) :
    Scanned addressLength addresses (headTail addressLength addresses) := by
  have loop (rest : List (List UInt8)) : ∀ done found,
      (∀ address ∈ done ++ rest, address.length = addressLength) →
        Scanned addressLength done found →
          Scanned addressLength (done ++ rest) (rest.foldl (HeadTail.next addressLength) found) := by
    induction rest with
    | nil =>
        intro done found _ scanned
        rw [List.append_nil]
        exact scanned
    | cons address rest inductionHypothesis =>
        intro done found lengths scanned
        have next := scanned.next (fun other mem => lengths other (List.mem_append_left _ mem))
          (lengths address (by simp))
        have all := inductionHypothesis (done ++ [address]) _ (by simpa using lengths) next
        rwa [List.append_assoc] at all
  cases addresses with
  | nil => exact absurd rfl nonempty
  | cons first rest =>
      have length := sameLength first List.mem_cons_self
      refine loop rest [first] _ sameLength ?_
      have whole : scan addressLength first first = addressLength := by
        rw [scan_eq, agreement_self, length, Nat.min_self]
      have none (bound : Nat) : ¬ TailBound addressLength [first] bound := by
        rintro ⟨before, one, other, after, same, -, -⟩
        have lengths := congrArg List.length same
        simp only [List.length_append, List.length_cons, List.length_nil] at lengths
        omega
      refine ⟨⟨[], rfl⟩, List.mem_singleton.mpr rfl, ?_, ?_, ?_⟩
      · exact whole.trans length.symm
      · intro _
        refine ⟨?_, none⟩
        simp [HeadTail.next, whole]
      · intro shorter
        exact absurd (whole : _ = addressLength) (Nat.ne_of_lt shorter)

end PbbAddressBlock

end Ns3.Network.PacketBb
