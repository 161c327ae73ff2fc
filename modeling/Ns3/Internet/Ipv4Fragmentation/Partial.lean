import Ns3.Internet.Ipv4Fragmentation.Timeout
import Ns3.Internet.Ipv4Fragmentation.Travel

/-!
The part of an incomplete datagram that goes into the error message.

`GetPartialPacket` trims a fragment that overlaps what it already has, but unlike `GetPacket` it
does not ask whether anything is left of it. The size of such a fragment underflows, and
`CreateFragment` then gives an empty packet, so that the bytes are right all the same.
-/

namespace Ns3.Internet

open Library

namespace Ipv4L3Protocol

namespace Fragments

/-- The differences that the loop of `GetPartialPacket` computes for `newSize`. -/
def trims : List (Chunk UInt8) → Nat → List UInt8 → List (Nat × Nat)
  | [], _, _ => []
  | stored :: rest, lastEndOffset, p =>
      let joined := assemblePartial [stored] lastEndOffset p
      let later := trims rest (wrap 16 joined.length) joined
      if lastEndOffset > stored.1 then (stored.2.length, lastEndOffset - stored.1) :: later
      else later

/-- The differences that `GetPartialPacket` computes. -/
def partialTrims (self : Fragments) : List (Nat × Nat) :=
  match self.chunks with
  | [] => []
  | first :: rest => if first.1 > 0 then [] else trims (first :: rest) 0 []

/-- The fragments, added as they have arrived. -/
def gather (received : List Ipv4Fragment) : Fragments :=
  received.foldl (fun self arriving => self.addFragment arriving.packet
    arriving.header.fragmentOffset (! arriving.header.isLastFragment)) create

theorem stores_gather (received : List Ipv4Fragment) :
    (gather received).Stores (received.map Ipv4Fragment.piece) := by
  induction received using List.reverseRecOn with
  | nil => exact FlaggedChunks.stores_empty
  | append_singleton before arriving inductionHypothesis =>
      have added := inductionHypothesis.add arriving.piece
      rw [List.map_append, List.map_singleton]
      rw [gather, List.foldl_append, List.foldl_cons, List.foldl_nil, Ipv4Header.isLastFragment,
        Bool.not_not]
      exact added

end Fragments

/-- A chunk of a payload. -/
structure Inside (payload : List UInt8) (chunk : Chunk UInt8) : Prop where
  slice : chunk.SliceOf payload
  within : chunk.1 + chunk.2.length ≤ payload.length

instance (payload : List UInt8) (chunk : Chunk UInt8) : Decidable (Inside payload chunk) :=
  decidable_of_iff (chunk.SliceOf payload ∧ chunk.1 + chunk.2.length ≤ payload.length)
    ⟨fun ⟨slice, within⟩ => ⟨slice, within⟩, fun ⟨slice, within⟩ => ⟨slice, within⟩⟩

/-- `GetPartialPacket` returns the longest prefix of the payload without a hole, and no size
underflows on the way. -/
structure ReturnsPrefix (payload : List UInt8) (stored : Fragments) : Prop where
  packet : ∃ stop ≤ payload.length, stored.getPartialPacket = payload.take stop ∧
    (∀ position < stop, Covers stored.chunks position) ∧ ¬ Covers stored.chunks stop
  sizes : ∀ trim ∈ stored.partialTrims, trim.2 ≤ trim.1

/-- Of the fragments that follow the first bytes without a hole, none ends before one that stands
in front of it. -/
def Advances (chunks : List (Chunk UInt8)) : Prop :=
  chunks.Pairwise fun earlier later => (∀ position < earlier.1, Covers chunks position) →
    earlier.1 + earlier.2.length ≤ later.1 + later.2.length

section Loop

variable {payload : List UInt8} {chunk : Chunk UInt8} {chunks : List (Chunk UInt8)} {reached : Nat}

/-- One turn of the loop. -/
theorem assemblePartial_single (short : payload.length ≤ 65515) (inside : Inside payload chunk)
    (start : reached ≤ payload.length) :
    Fragments.assemblePartial [chunk] reached (payload.take reached) =
      payload.take (Library.frontier [chunk] reached) := by
  have within := inside.within
  -- The bytes of the fragment from `reached` on.
  have more := inside.slice.drop (reached - chunk.1)
  unfold Chunk.SliceOf at more
  dsimp only at more
  rw [Fragments.assemblePartial, Fragments.assemblePartial, Library.frontier]
  dsimp only
  split
  next overlap =>
    rw [Nat.add_sub_cancel' (Nat.le_of_lt overlap)] at more
    rw [if_pos (Nat.le_of_lt overlap), Library.frontier]
    by_cases longer : reached - chunk.1 ≤ chunk.2.length
    · rw [wrapSub_of_le longer (by omega), more, List.take_take, ← List.take_add]
      congr 1
      rw [List.length_drop]
      omega
    · -- The size has underflowed, and there is nothing to take.
      rw [List.drop_eq_nil_of_le (by omega), List.take_nil, List.append_nil,
        Nat.max_eq_left (by omega)]
  next =>
    split
    next same =>
      rw [← same, Nat.sub_self, Nat.add_zero, List.drop_zero] at more
      rw [if_pos (Nat.le_of_eq same.symm), Library.frontier, more, ← List.take_add]
      congr 1
      rw [List.length_take, List.length_drop]
      omega
    next => rw [if_neg (by omega), Library.frontier]

theorem frontier_single_le (inside : Inside payload chunk) (start : reached ≤ payload.length) :
    Library.frontier [chunk] reached ≤ payload.length :=
  frontier_le start fun _ member => List.mem_singleton.mp member ▸ inside.within

theorem wrap_length_take (short : payload.length ≤ 65515) {stop : Nat}
    (within : stop ≤ payload.length) : wrap 16 (payload.take stop).length = stop := by
  rw [List.length_take, Nat.min_eq_left within, wrap_of_lt (by omega)]

theorem frontier_cons (chunk : Chunk UInt8) (chunks : List (Chunk UInt8)) (reached : Nat) :
    Library.frontier (chunk :: chunks) reached =
      Library.frontier chunks (Library.frontier [chunk] reached) := by
  rw [Library.frontier, Library.frontier, Library.frontier, Library.frontier]
  split <;> rfl

/-- The loop puts together what continues the first bytes. -/
theorem assemblePartial_eq (short : payload.length ≤ 65515)
    (inside : ∀ chunk ∈ chunks, Inside payload chunk) (start : reached ≤ payload.length) :
    Fragments.assemblePartial chunks reached (payload.take reached) =
      payload.take (Library.frontier chunks reached) := by
  induction chunks generalizing reached with
  | nil => rfl
  | cons chunk rest inductionHypothesis =>
      have first := inside chunk List.mem_cons_self
      have next := frontier_single_le first start
      have turn := assemblePartial_single short first start
      calc Fragments.assemblePartial (chunk :: rest) reached (payload.take reached)
          = Fragments.assemblePartial rest
              (wrap 16 (Fragments.assemblePartial [chunk] reached (payload.take reached)).length)
              (Fragments.assemblePartial [chunk] reached (payload.take reached)) := rfl
        _ = Fragments.assemblePartial rest (Library.frontier [chunk] reached)
              (payload.take (Library.frontier [chunk] reached)) := by
            rw [turn, wrap_length_take short next]
        _ = payload.take (Library.frontier (chunk :: rest) reached) := by
            rw [frontier_cons chunk rest]
            exact inductionHypothesis
              (fun other member => inside other (List.mem_cons_of_mem chunk member)) next

/-- No size underflows if no fragment ends before what is already there. -/
theorem trims_iff (short : payload.length ≤ 65515)
    (inside : ∀ chunk ∈ chunks, Inside payload chunk)
    (sorted : chunks.Pairwise fun a b => a.1 ≤ b.1) (start : reached ≤ payload.length) :
    (∀ trim ∈ Fragments.trims chunks reached (payload.take reached), trim.2 ≤ trim.1) ↔
      (∀ chunk ∈ chunks, chunk.1 < reached → reached ≤ chunk.1 + chunk.2.length) ∧
      chunks.Pairwise fun earlier later => earlier.1 ≤ Library.frontier chunks reached →
        earlier.1 + earlier.2.length ≤ later.1 + later.2.length := by
  induction chunks generalizing reached with
  | nil => simp [Fragments.trims]
  | cons chunk rest inductionHypothesis =>
      obtain ⟨least, sortedRest⟩ := List.pairwise_cons.mp sorted
      have first := inside chunk List.mem_cons_self
      have next := frontier_single_le first start
      have later := inductionHypothesis
        (fun other member => inside other (List.mem_cons_of_mem chunk member)) sortedRest next
      have head : (∀ trim ∈ Fragments.trims (chunk :: rest) reached (payload.take reached),
          trim.2 ≤ trim.1) ↔ (chunk.1 < reached → reached ≤ chunk.1 + chunk.2.length) ∧
          ∀ trim ∈ Fragments.trims rest (Library.frontier [chunk] reached)
            (payload.take (Library.frontier [chunk] reached)), trim.2 ≤ trim.1 := by
        rw [Fragments.trims, assemblePartial_single short first start,
          wrap_length_take short next]
        split
        next overlap =>
          rw [List.forall_mem_cons]
          refine and_congr_left fun _ => ⟨fun enough _ => by omega, fun enough => ?_⟩
          have := enough overlap
          omega
        next behind => exact ⟨fun all => ⟨fun overlap => absurd overlap behind, all⟩, And.right⟩
      rw [head, later, List.forall_mem_cons, List.pairwise_cons, frontier_cons chunk rest]
      by_cases joins : chunk.1 ≤ reached
      · have isNext : Library.frontier [chunk] reached =
            max reached (chunk.1 + chunk.2.length) := by
          rw [Library.frontier, if_pos joins, Library.frontier]
        have before : chunk.1 ≤ Library.frontier rest (Library.frontier [chunk] reached) := by
          have further := le_frontier rest (Library.frontier [chunk] reached)
          omega
        have same : (chunk.1 < reached → reached ≤ chunk.1 + chunk.2.length) →
            ((∀ other ∈ rest, other.1 < Library.frontier [chunk] reached →
              Library.frontier [chunk] reached ≤ other.1 + other.2.length) ↔
            (∀ other ∈ rest, other.1 < reached → reached ≤ other.1 + other.2.length) ∧
            ∀ other ∈ rest, chunk.1 ≤ Library.frontier rest (Library.frontier [chunk] reached) →
              chunk.1 + chunk.2.length ≤ other.1 + other.2.length) := by
          intro long
          constructor
          · intro ends
            refine ⟨fun other member low => ?_, fun other member _ => ?_⟩ <;>
            · have := ends other member
              omega
          · rintro ⟨-, ends⟩ other member -
            have := ends other member before
            omega
        constructor
        · rintro ⟨long, ends, ordered⟩
          obtain ⟨early, first⟩ := (same long).mp ends
          exact ⟨⟨long, early⟩, first, ordered⟩
        · rintro ⟨⟨long, early⟩, first, ordered⟩
          exact ⟨long, (same long).mpr ⟨early, first⟩, ordered⟩
      · have gap : ∀ other ∈ rest, reached < other.1 := fun other member =>
          Nat.lt_of_lt_of_le (Nat.lt_of_not_le joins) (least other member)
        have isNext : Library.frontier [chunk] reached = reached := by
          rw [Library.frontier, if_neg joins, Library.frontier]
        rw [isNext, frontier_gap gap]
        rw [and_assoc]
        refine and_congr_right fun _ => and_congr_right fun _ => (and_iff_right ?_).symm
        exact fun _ _ near => absurd near joins

end Loop

section

variable {payload : List UInt8} {self : Fragments}

/-- Without a fragment at the front nothing is joined. -/
theorem getPartialPacket_eq (short : payload.length ≤ 65515)
    (inside : ∀ chunk ∈ self.chunks, Inside payload chunk)
    (sorted : self.chunks.Pairwise fun a b => a.1 ≤ b.1) :
    self.getPartialPacket = payload.take (Library.frontier self.chunks 0) := by
  rw [Fragments.getPartialPacket]
  split
  next none => rw [none, Library.frontier, List.take_zero]
  next first rest chunks =>
    rw [chunks] at inside sorted ⊢
    split
    next gap =>
      have least := (List.pairwise_cons.mp sorted).1
      rw [frontier_gap fun chunk member => ?_, List.take_zero]
      rcases List.mem_cons.mp member with rfl | behind
      · exact gap
      · exact Nat.lt_of_lt_of_le gap (least chunk behind)
    next =>
      have joined := @assemblePartial_eq payload (first :: rest) 0 short inside (Nat.zero_le _)
      rwa [List.take_zero] at joined

theorem partialTrims_iff (short : payload.length ≤ 65515)
    (inside : ∀ chunk ∈ self.chunks, Inside payload chunk)
    (sorted : self.chunks.Pairwise fun a b => a.1 ≤ b.1) :
    (∀ trim ∈ self.partialTrims, trim.2 ≤ trim.1) ↔ Advances self.chunks := by
  have connected : ∀ position, (∀ before < position, Covers self.chunks before) ↔
      position ≤ Library.frontier self.chunks 0 := by
    intro position
    constructor
    · intro covered
      by_contra beyond
      exact not_covers_frontier sorted (covered _ (Nat.lt_of_not_le beyond))
    · intro near before inside
      exact covers_frontier (Nat.zero_le _) (Nat.lt_of_lt_of_le inside near)
  simp only [Advances, connected]
  rw [Fragments.partialTrims]
  split
  next none => simp [none]
  next first rest chunks =>
    rw [chunks] at inside sorted ⊢
    split
    next gap =>
      obtain ⟨least, sortedRest⟩ := List.pairwise_cons.mp sorted
      have away : ∀ chunk ∈ first :: rest, 0 < chunk.1 := by
        intro chunk member
        rcases List.mem_cons.mp member with rfl | behind
        · exact gap
        · exact Nat.lt_of_lt_of_le gap (least chunk behind)
      rw [frontier_gap away]
      refine iff_of_true (fun _ member => nomatch member) ?_
      exact List.pairwise_of_forall_mem_list fun earlier member _ _ near =>
        absurd (away earlier member) (Nat.not_lt_of_le near)
    next =>
      rw [← List.take_zero (l := payload)]
      rw [trims_iff short inside sorted (Nat.zero_le _)]
      exact and_iff_right fun _ _ low => absurd low (Nat.not_lt_zero _)

/-- Whatever has arrived of a payload, in any order and with any overlaps, its longest prefix is
returned; the sizes are right as long as no fragment is nested in what stands in front of it. -/
theorem returnsPrefix_iff (payload : List UInt8) (short : payload.length ≤ 65515)
    (received : List Ipv4Fragment)
    (inside : ∀ arriving ∈ received, Inside payload arriving.chunk) :
    ReturnsPrefix payload (Fragments.gather received) ↔
      Advances (Fragments.gather received).chunks := by
  have stores := Fragments.stores_gather received
  have parts : ∀ chunk ∈ (Fragments.gather received).chunks, Inside payload chunk := by
    intro chunk member
    obtain ⟨piece, isPiece, rfl⟩ := List.mem_map.mp (stores.perm.mem_iff.mp member)
    obtain ⟨arriving, inReceived, rfl⟩ := List.mem_map.mp isPiece
    exact inside arriving inReceived
  have trims := partialTrims_iff short parts stores.sorted
  refine ⟨fun returns => trims.mp returns.sizes, fun advances => ⟨?_, trims.mpr advances⟩⟩
  refine ⟨Library.frontier (Fragments.gather received).chunks 0,
    frontier_le (Nat.zero_le _) fun chunk member => (parts chunk member).within,
    getPartialPacket_eq short parts stores.sorted,
    fun position below => covers_frontier (Nat.zero_le _) below,
    not_covers_frontier stores.sorted⟩

end

/-- A fragment with some bytes of the payload. -/
def sentFragment (payload : List UInt8) (fragmentOffset size : Nat) : Ipv4Fragment where
  packet := (payload.drop fragmentOffset).take size
  header := { (Ipv4Datagram.mk 1 2 3 17 payload).whole.header with
    fragmentOffset
    moreFragments := true
    payloadSize := size }

/-- A payload of four units. -/
def fourUnits : List UInt8 := (List.range 32).map UInt8.ofNat

theorem returnsPrefix_iff_overlap :
    ReturnsPrefix fourUnits
        (Fragments.gather [sentFragment fourUnits 8 16, sentFragment fourUnits 0 16]) ↔
      Advances (Fragments.gather [sentFragment fourUnits 8 16, sentFragment fourUnits 0 16]).chunks :=
  returnsPrefix_iff fourUnits (by decide) _ (by decide)

/-- A fragment arrives inside another one: eight bytes, of which sixteen are trimmed. -/
theorem not_returnsPrefix :
    ¬ ∀ payload received, payload.length ≤ 65515 →
      (∀ arriving ∈ received, Inside payload (Ipv4Fragment.chunk arriving)) →
      ReturnsPrefix payload (Fragments.gather received) := by
  intro always
  have sizes := (always fourUnits [sentFragment fourUnits 0 24, sentFragment fourUnits 8 8]
    (by decide) (by decide)).sizes
  exact absurd (sizes (8, 16) (by decide)) (by decide)

end Ipv4L3Protocol

end Ns3.Internet
