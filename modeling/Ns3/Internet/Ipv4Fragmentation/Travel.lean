import Ns3.Internet.Ipv4Fragmentation.Kernel
import Mathlib.Data.Nat.Bitwise

/-!
The fragments of a datagram on their way.

A datagram passes nodes that may each fragment what they receive. Whatever the MTUs
on the way, each fragment that arrives is a part of the datagram, and it is marked as
the last one exactly if it ends with the last byte.
-/

namespace Ns3.Internet

open Library

/-- A datagram that a host sends. -/
structure Ipv4Datagram where
  source : Nat
  destination : Nat
  identification : Nat
  protocol : Nat
  payload : List UInt8
  deriving DecidableEq

/-- The datagram as it is handed to the first interface. -/
def Ipv4Datagram.whole (datagram : Ipv4Datagram) : Ipv4Fragment where
  packet := datagram.payload
  header :=
    { source := datagram.source
      destination := datagram.destination
      identification := datagram.identification
      protocol := datagram.protocol
      fragmentOffset := 0
      moreFragments := false
      payloadSize := datagram.payload.length }

/-- A node on the way: the MTU of its outgoing interface, and which of the packets that it
sends is followed. -/
structure Hop where
  mtu : Nat
  index : Nat
  deriving DecidableEq

/-- An MTU that every link has to support. -/
def Hop.Valid (hop : Hop) : Prop := 68 ≤ hop.mtu ∧ hop.mtu < 2 ^ 32

instance (hop : Hop) : Decidable hop.Valid := inferInstanceAs (Decidable (_ ∧ _))

namespace Ipv4Fragment

/-- The fragment that arrives at the next node. -/
def forward (fragment : Ipv4Fragment) (hop : Hop) : Option Ipv4Fragment := do
  let sent ← Ipv4L3Protocol.sendRealOut fragment hop.mtu
  let next ← sent[hop.index]?
  pure { next with header := next.header.transmitted }

/-- The fragment that arrives at the end of the way. -/
def travel (fragment : Ipv4Fragment) : List Hop → Option Ipv4Fragment
  | [] => some fragment
  | hop :: hops => (fragment.forward hop).bind fun next => next.travel hops

/-- The bytes and their position in the datagram. -/
def chunk (fragment : Ipv4Fragment) : Chunk UInt8 :=
  (fragment.header.fragmentOffset, fragment.packet)

/-- The bytes, their position and whether more fragments follow. -/
def piece (fragment : Ipv4Fragment) : Piece UInt8 :=
  ⟨fragment.header.fragmentOffset, fragment.packet, fragment.header.moreFragments⟩

/-- The position behind the last byte. -/
def stop (fragment : Ipv4Fragment) : Nat :=
  fragment.header.fragmentOffset + fragment.packet.length

/-- The fragment is a part of the datagram. -/
structure PartOf (datagram : Ipv4Datagram) (fragment : Ipv4Fragment) : Prop where
  slice : fragment.chunk.SliceOf datagram.payload
  within : fragment.stop ≤ datagram.payload.length
  filled : fragment.packet ≠ [] ∨ datagram.payload = []
  last : fragment.header.moreFragments = false ↔ fragment.stop = datagram.payload.length
  aligned : fragment.header.fragmentOffset % 8 = 0
  key : Ipv4L3Protocol.fragmentKey fragment.header =
    Ipv4L3Protocol.fragmentKey datagram.whole.header

theorem partOf_whole (datagram : Ipv4Datagram) : PartOf datagram datagram.whole where
  slice := by simp [Chunk.SliceOf, chunk, Ipv4Datagram.whole]
  within := by simp [stop, Ipv4Datagram.whole]
  filled := (eq_or_ne datagram.payload []).symm
  last := by simp [stop, Ipv4Datagram.whole]
  aligned := rfl
  key := rfl

end Ipv4Fragment

/-- The flag for more fragments is the bit above the five bits of the offset. -/
theorem flagsFrag_bits : ∀ high < 32, high &&& 31 = high ∧ high &&& 1 <<< 5 = 0 ∧
    (high ||| 1 <<< 5) &&& 31 = high ∧ (high ||| 1 <<< 5) &&& 1 <<< 5 ≠ 0 := by decide

theorem shiftLeft_or (high : Nat) {low : Nat} (fits : low < 256) :
    high <<< 8 ||| low = 256 * high + low := by
  have sum : high <<< 8 + low = high <<< 8 ||| low :=
    Nat.shiftLeft_add_eq_or_of_lt (show low < 2 ^ 8 from fits) high
  rw [← sum, Nat.shiftLeft_eq, Nat.mul_comm]

/-- The wire has thirteen bits for an offset in units of eight bytes, so that it keeps every
offset that is a multiple of eight. -/
theorem Ipv4Header.transmitted_eq {header : Ipv4Header}
    (aligned : header.fragmentOffset % 8 = 0) (fits : header.fragmentOffset < 2 ^ 16) :
    header.transmitted = header := by
  have high : (header.fragmentOffset / 8) >>> 8 = header.fragmentOffset / 8 / 256 := by
    simpa using Nat.shiftRight_eq_div_pow (header.fragmentOffset / 8) 8
  have low : header.fragmentOffset / 8 &&& 255 = header.fragmentOffset / 8 % 256 := by
    simpa using Nat.and_two_pow_sub_one_eq_mod (header.fragmentOffset / 8) 8
  have eighth : 256 * (header.fragmentOffset / 8 / 256) + header.fragmentOffset / 8 % 256 =
      header.fragmentOffset / 8 := Nat.div_add_mod _ _
  have joined : wrap 16 (((header.fragmentOffset / 8 / 256) <<< 8 |||
      header.fragmentOffset / 8 % 256) <<< 3) = header.fragmentOffset := by
    rw [shiftLeft_or _ (Nat.mod_lt _ (by decide)), Nat.shiftLeft_eq, eighth,
      wrap_of_lt (by omega)]
    omega
  obtain ⟨plain, noFlag, masked, flag⟩ :=
    flagsFrag_bits (header.fragmentOffset / 8 / 256) (by omega)
  have written : header.serializeFragment = (if header.moreFragments then
      header.fragmentOffset / 8 / 256 ||| 1 <<< 5 else header.fragmentOffset / 8 / 256,
      header.fragmentOffset / 8 % 256) := by
    unfold serializeFragment
    dsimp only
    rw [high, low, plain]
  have flags : decide (header.serializeFragment.1 &&& 1 <<< 5 ≠ 0) = header.moreFragments := by
    rw [written]
    cases header.moreFragments with
    | false => exact decide_eq_false fun differs => differs noFlag
    | true => exact decide_eq_true flag
  have offset : wrap 16 (((header.serializeFragment.1 &&& 31) <<< 8 |||
      header.serializeFragment.2) <<< 3) = header.fragmentOffset := by
    have read : header.serializeFragment.1 &&& 31 = header.fragmentOffset / 8 / 256 := by
      rw [written]
      cases header.moreFragments with
      | false => exact plain
      | true => exact masked
    rw [read, written]
    exact joined
  unfold transmitted deserializeFragment
  simp only [flags, offset]

/-- A piece of a part of the datagram. -/
theorem Ipv4Fragment.PartOf.piece {datagram : Ipv4Datagram} {fragment : Ipv4Fragment}
    (part : fragment.PartOf datagram) {offset size : Nat}
    (inside : offset + size ≤ fragment.packet.length) (some : 0 < size ∨ fragment.packet = [])
    (aligned : offset % 8 = 0) {header : Ipv4Header}
    (more : header.moreFragments =
      (decide (offset + size < fragment.packet.length) || ! fragment.header.isLastFragment))
    (place : header.fragmentOffset = fragment.header.fragmentOffset + offset)
    (key : Ipv4L3Protocol.fragmentKey header = Ipv4L3Protocol.fragmentKey fragment.header) :
    PartOf datagram { packet := (fragment.packet.drop offset).take size, header := header } := by
  have within := part.within
  have last := part.last
  have startAligned := part.aligned
  have length : ((fragment.packet.drop offset).take size).length = size := by
    rw [List.length_take, List.length_drop]
    omega
  unfold stop at within last
  refine ⟨?_, ?_, ?_, ?_, ?_, key.trans part.key⟩
  · have sliced := (part.slice.drop offset).take size
    unfold chunk
    rw [place]
    exact sliced
  · unfold stop
    dsimp only
    rw [length, place]
    omega
  · rcases part.filled with filled | none
    · refine .inl (List.length_pos_iff.mp ?_)
      dsimp only
      rw [length]
      exact some.resolve_right filled
    · exact .inr none
  · unfold stop
    dsimp only
    rw [more, length, place, Bool.or_eq_false_iff, decide_eq_false_iff_not,
      Ipv4Header.isLastFragment, Bool.not_not, last]
    omega
  · dsimp only
    rw [place]
    omega

namespace Ipv4L3Protocol

theorem setFragmentOffset_aligned (header : Ipv4Header) {offset : Nat} (aligned : offset % 8 = 0) :
    header.setFragmentOffset offset = some { header with fragmentOffset := offset } := by
  have low : offset &&& 7 = offset % 8 := by simpa using Nat.and_two_pow_sub_one_eq_mod offset 3
  unfold Ipv4Header.setFragmentOffset
  rw [low, if_neg fun differs => differs aligned]

/-- The fragments of a part of a datagram are parts of it, and none of the bytes is lost. -/
theorem fragmentLoop_partOf {datagram : Ipv4Datagram} {fragment : Ipv4Fragment}
    (part : fragment.PartOf datagram) (short : datagram.payload.length ≤ 65515)
    {fragmentSize : Nat} (some : 0 < fragmentSize) (units : fragmentSize % 8 = 0)
    (small : fragmentSize < 2 ^ 32) {turns offset : Nat} (aligned : offset % 8 = 0)
    (started : offset = 0 ∨ fragmentSize ≤ offset ∧ offset < fragment.packet.length)
    (enough : fragment.packet.length < offset + turns) :
    ∃ list, fragmentLoop fragment.packet fragment.header fragmentSize turns offset = .some list ∧
      (∀ piece ∈ list, piece.PartOf datagram) ∧
      (list.map Ipv4Fragment.packet).flatten = fragment.packet.drop offset := by
  have within := part.within
  have startAligned := part.aligned
  unfold Ipv4Fragment.stop at within
  induction turns generalizing offset with
  | zero => omega
  | succ turns inductionHypothesis =>
      have nextFits : wrap 32 (offset + fragmentSize) = offset + fragmentSize :=
        wrap_of_lt (by omega)
      have placed : wrap 16 (offset + fragment.header.fragmentOffset) =
          fragment.header.fragmentOffset + offset := by
        rw [wrap_of_lt (by omega), Nat.add_comm]
      have placedAligned : (fragment.header.fragmentOffset + offset) % 8 = 0 := by omega
      rw [fragmentLoop, nextFits]
      dsimp only
      rw [placed, setFragmentOffset_aligned _ placedAligned]
      by_cases more : fragment.packet.length > offset + fragmentSize
      · obtain ⟨later, found, parts, whole⟩ := @inductionHypothesis (offset + fragmentSize)
          (by omega) (by omega) (by omega)
        have next : wrap 16 (offset + fragmentSize) = offset + fragmentSize :=
          wrap_of_lt (by omega)
        simp only [more, decide_true, if_true, next, found, Option.bind_eq_bind,
          Option.bind_some, Option.pure_def, Option.some.injEq, exists_eq_left']
        refine ⟨fun piece member => ?_, ?_⟩
        · rcases List.mem_cons.mp member with rfl | old
          · refine part.piece (by omega) (.inl some) aligned ?_ rfl rfl
            simp [more]
          · exact parts piece old
        · rw [List.map_cons, List.flatten_cons, whole, ← List.drop_drop]
          exact List.take_append_drop fragmentSize _
      · have rest : wrapSub 32 fragment.packet.length offset = fragment.packet.length - offset :=
          wrapSub_of_le (by omega) (by omega)
        simp only [more, decide_false, Bool.false_eq_true, if_false, rest, Option.bind_eq_bind,
          Option.bind_some, Option.pure_def, Option.some.injEq, exists_eq_left']
        refine ⟨fun piece member => ?_, ?_⟩
        · obtain rfl := List.mem_singleton.mp member
          refine part.piece (by omega) ?_ aligned ?_ rfl rfl
          · by_cases none : fragment.packet = []
            · exact .inr none
            · have positive := List.length_pos_iff.mpr none
              exact .inl (by omega)
          · have ends : ¬ offset + (fragment.packet.length - offset) < fragment.packet.length := by
              omega
            simp [ends]
        · simp

/-- `DoFragmentation` does not abort, and its fragments are the parts of the packet. -/
theorem doFragmentation_partOf {datagram : Ipv4Datagram} {fragment : Ipv4Fragment}
    (part : fragment.PartOf datagram) (short : datagram.payload.length ≤ 65515) {mtu : Nat}
    (enough : 68 ≤ mtu) (fits : mtu < 2 ^ 32) :
    ∃ list, doFragmentation fragment.packet fragment.header mtu = some list ∧
      (∀ piece ∈ list, piece.PartOf datagram) ∧
      (list.map Ipv4Fragment.packet).flatten = fragment.packet := by
  have size : wrapSub 32 mtu Ipv4Header.serializedSize = mtu - 20 :=
    wrapSub_of_le (Nat.le_trans (by decide) enough) fits
  unfold doFragmentation
  rw [size]
  exact fragmentLoop_partOf part short (by omega) (Nat.mul_mod_left _ 8) (by omega)
    (Nat.zero_mod 8) (.inl rfl) (by omega)

end Ipv4L3Protocol

namespace Ipv4Fragment

variable {datagram : Ipv4Datagram} {fragment arrived : Ipv4Fragment}

theorem PartOf.forward (part : fragment.PartOf datagram)
    (short : datagram.payload.length ≤ 65515) {hop : Hop} (valid : hop.Valid)
    (forwarded : fragment.forward hop = some arrived) : arrived.PartOf datagram := by
  obtain ⟨sent, all, rest⟩ := Option.bind_eq_some_iff.mp forwarded
  obtain ⟨next, chosen, wire⟩ := Option.bind_eq_some_iff.mp rest
  have nextPart : next.PartOf datagram := by
    have member := List.mem_of_getElem? chosen
    unfold Ipv4L3Protocol.sendRealOut at all
    split at all
    · obtain ⟨list, pieces, parts, -⟩ :=
        Ipv4L3Protocol.doFragmentation_partOf part short valid.1 valid.2
      rw [pieces] at all
      cases all
      exact parts next member
    · cases all
      obtain rfl := List.mem_singleton.mp member
      exact part
  have within := nextPart.within
  unfold stop at within
  rw [Ipv4Header.transmitted_eq nextPart.aligned (by omega)] at wire
  cases wire
  exact nextPart

/-- Whatever arrives is a part of the datagram. -/
theorem PartOf.travel (part : fragment.PartOf datagram)
    (short : datagram.payload.length ≤ 65515) {hops : List Hop}
    (valid : ∀ hop ∈ hops, hop.Valid) (travelled : fragment.travel hops = some arrived) :
    arrived.PartOf datagram := by
  induction hops generalizing fragment with
  | nil =>
      cases travelled
      exact part
  | cons hop hops inductionHypothesis =>
      obtain ⟨next, forwarded, rest⟩ := Option.bind_eq_some_iff.mp travelled
      exact inductionHypothesis (part.forward short (valid hop List.mem_cons_self) forwarded)
        (fun other member => valid other (List.mem_cons_of_mem hop member)) rest

end Ipv4Fragment

end Ns3.Internet
