import Ns3.Library.Cutting
import Ns3.Internet.Ipv4Fragmentation.Travel

/-!
The fragments of packets of every size.

The running offset of `DoFragmentation` has sixteen bits and the size of a packet 32. The
fragments are those of the packet if the position of the last one, counted from the start of the
original datagram, fits into the offset.
-/

namespace Ns3.Internet

open Library

namespace Ipv4L3Protocol

/-- The bytes of a fragment that is not the last one. -/
def fragmentSize (mtu : Nat) : Nat := (mtu - Ipv4Header.serializedSize) / 8 * 8

/-- `DoFragmentation` ends, and its fragments are disjoint parts of the packet that cover it; they
fit into the MTU, and all but the last one have multiples of eight bytes. -/
def DividesPacket (packet : List UInt8) (ipv4Header : Ipv4Header) (mtu : Nat) : Prop :=
  ∃ turns fragments,
    fragmentLoop packet ipv4Header (wrapSub 32 mtu Ipv4Header.serializedSize / 8 * 8) turns 0 =
      some fragments ∧
    Partitions 8 packet ipv4Header.fragmentOffset (fragments.map Ipv4Fragment.chunk) ∧
    ∀ fragment ∈ fragments, Ipv4Header.serializedSize + fragment.packet.length ≤ mtu

/-- A packet that is handed to `DoFragmentation`, and an MTU that every link has to support. -/
structure Divisible (packet : List UInt8) (ipv4Header : Ipv4Header) (mtu : Nat) : Prop where
  sizeFits : packet.length < 2 ^ 32
  aligned : ipv4Header.fragmentOffset % 8 = 0
  offsetFits : ipv4Header.fragmentOffset < 2 ^ 16
  enough : 68 ≤ mtu
  mtuFits : mtu < 2 ^ 32

/-- The last fragment of the packet has a position that fits into sixteen bits. -/
def LastFits (packet : List UInt8) (ipv4Header : Ipv4Header) (mtu : Nat) : Prop :=
  ipv4Header.fragmentOffset +
    cuts packet.length (fragmentSize mtu) (fragmentSize mtu) * fragmentSize mtu < 2 ^ 16

/-- The fragment that the loop makes of a piece. -/
def fragmentOf (p : List UInt8) (ipv4Header : Ipv4Header) (fragmentSize : Nat)
    (piece : Nat × Nat) : Ipv4Fragment where
  packet := (p.drop piece.1).take piece.2
  header :=
    { ipv4Header with
      moreFragments := decide (p.length > wrap 32 (piece.1 + fragmentSize)) ||
        ! ipv4Header.isLastFragment
      fragmentOffset := wrap 16 (piece.1 + ipv4Header.fragmentOffset)
      payloadSize := wrap 16 piece.2 }

variable {packet : List UInt8} {ipv4Header : Ipv4Header} {mtu : Nat}

/-- The loop cuts the packet and aborts nowhere. -/
theorem fragmentLoop_eq (aligned : ipv4Header.fragmentOffset % 8 = 0) {size : Nat}
    (units : size % 8 = 0) (turns : Nat) {offset : Nat} (offsetAligned : offset % 8 = 0) :
    fragmentLoop packet ipv4Header size turns offset =
      (cut packet.length size size turns offset).map
        (List.map (fragmentOf packet ipv4Header size)) := by
  induction turns generalizing offset with
  | zero => rfl
  | succ turns inductionHypothesis =>
      have placed : wrap 16 (offset + ipv4Header.fragmentOffset) % 8 = 0 := by
        rw [wrap]
        omega
      have next : wrap 16 (offset + size) % 8 = 0 := by
        rw [wrap]
        omega
      rw [fragmentLoop, cut]
      dsimp only
      rw [setFragmentOffset_aligned _ placed]
      by_cases more : packet.length > wrap 32 (offset + size)
      · simp only [more, decide_true, if_true, inductionHypothesis next, Option.bind_eq_bind,
          Option.bind_some]
        cases cut packet.length size size turns (wrap 16 (offset + size)) with
        | none => rfl
        | some later => simp [fragmentOf, more]
      · simp [fragmentOf, more]

theorem chunk_fragmentOf (size : Nat) (piece : Nat × Nat) :
    (fragmentOf packet ipv4Header size piece).chunk =
      chunkAt packet ipv4Header.fragmentOffset piece := rfl

/-- The division is right if and only if the last position fits. -/
theorem dividesPacket_iff (divisible : Divisible packet ipv4Header mtu) :
    DividesPacket packet ipv4Header mtu ↔ LastFits packet ipv4Header mtu := by
  have enough := divisible.enough
  have mtuFits := divisible.mtuFits
  have size : wrapSub 32 mtu Ipv4Header.serializedSize / 8 * 8 = fragmentSize mtu := by
    rw [wrapSub_of_le (Nat.le_trans (by decide) enough) mtuFits, fragmentSize]
  have units : fragmentSize mtu % 8 = 0 := Nat.mul_mod_left _ 8
  have least : 48 ≤ fragmentSize mtu := by
    unfold fragmentSize Ipv4Header.serializedSize
    omega
  have most : Ipv4Header.serializedSize + fragmentSize mtu ≤ mtu := by
    unfold fragmentSize Ipv4Header.serializedSize
    omega
  have sizes : (fragmentSize mtu) < 2 ^ 32 := by omega
  have partitions := @cut_partitions_iff UInt8 8 ipv4Header.fragmentOffset (fragmentSize mtu)
    (fragmentSize mtu) packet divisible.sizeFits sizes (Nat.le_refl _) (by omega) (by decide) units
    divisible.offsetFits
  unfold DividesPacket LastFits
  simp only [size, fragmentLoop_eq divisible.aligned units _ (Nat.zero_mod 8)]
  refine Iff.trans ?_ (partitions.trans (and_iff_right (.inr (by omega))))
  constructor
  · rintro ⟨turns, fragments, ends, parts, -⟩
    obtain ⟨pieces, found, rfl⟩ := Option.map_eq_some_iff.mp ends
    rw [List.map_map] at parts
    exact ⟨turns, pieces, found, parts⟩
  · rintro ⟨turns, pieces, found, parts⟩
    refine ⟨turns, _, Option.map_eq_some_iff.mpr ⟨pieces, found, rfl⟩, ?_, ?_⟩
    · rw [List.map_map]
      exact parts
    · intro fragment member
      obtain ⟨piece, isPiece, rfl⟩ := List.mem_map.mp member
      have short := length_le_of_cut found (Nat.le_refl _) rfl piece isPiece
      exact Nat.le_trans (Nat.add_le_add_left short _) most

end Ipv4L3Protocol

end Ns3.Internet
