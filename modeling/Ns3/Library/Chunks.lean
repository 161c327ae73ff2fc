import Mathlib.Algebra.Order.Ring.Int
import Mathlib.Data.List.Basic
import Mathlib.Algebra.BigOperators.Group.List.Basic

/-!
Chunks of a stream: lists of elements, each with the position of its first one.

A list of chunks covers the positions that one of its chunks holds. Chunks that
are separated hold different positions, and come in the order of the stream.
-/

namespace Ns3.Library

universe u

/-- A chunk: the position of the first element, and the elements. -/
abbrev Chunk (Element : Type u) : Type u := Nat × List Element

namespace Chunk

variable {Element : Type u}

/-- The position is one of the chunk. -/
def Holds (chunk : Chunk Element) (position : Nat) : Prop :=
  chunk.1 ≤ position ∧ position < chunk.1 + chunk.2.length

instance (chunk : Chunk Element) (position : Nat) : Decidable (chunk.Holds position) :=
  inferInstanceAs (Decidable (_ ∧ _))

/-- The chunk holds the elements that the stream has at its positions. -/
def SliceOf (stream : List Element) (chunk : Chunk Element) : Prop :=
  chunk.2 = (stream.drop chunk.1).take chunk.2.length

instance [DecidableEq Element] (stream : List Element) (chunk : Chunk Element) :
    Decidable (chunk.SliceOf stream) := inferInstanceAs (Decidable (_ = _))

variable {stream : List Element} {chunk : Chunk Element}

theorem sliceOf_take_drop (stream : List Element) (start length : Nat) :
    SliceOf stream (start, (stream.drop start).take length) := by
  simp [SliceOf, List.length_take, List.take_eq_take_iff]

/-- A chunk that is not empty lies within its stream. -/
theorem SliceOf.stop_le (slice : chunk.SliceOf stream) (nonEmpty : chunk.2 ≠ []) :
    chunk.1 + chunk.2.length ≤ stream.length := by
  have lengths := congrArg List.length slice
  have positive := List.length_pos_iff.mpr nonEmpty
  rw [List.length_take, List.length_drop] at lengths
  omega

theorem SliceOf.drop (slice : chunk.SliceOf stream) (count : Nat) :
    SliceOf stream (chunk.1 + count, chunk.2.drop count) := by
  change chunk.2.drop count = (stream.drop (chunk.1 + count)).take (chunk.2.drop count).length
  calc chunk.2.drop count
      = ((stream.drop chunk.1).take chunk.2.length).drop count := by rw [← slice]
    _ = ((stream.drop chunk.1).drop count).take (chunk.2.length - count) := List.drop_take ..
    _ = _ := by rw [List.drop_drop, List.length_drop]

theorem SliceOf.take (slice : chunk.SliceOf stream) (count : Nat) :
    SliceOf stream (chunk.1, chunk.2.take count) := by
  change chunk.2.take count = (stream.drop chunk.1).take (chunk.2.take count).length
  calc chunk.2.take count
      = ((stream.drop chunk.1).take chunk.2.length).take count := by rw [← slice]
    _ = (stream.drop chunk.1).take (min count chunk.2.length) := List.take_take ..
    _ = _ := by rw [List.length_take]

end Chunk

variable {Element : Type u}

/-- One of the chunks holds the position. -/
def Covers (chunks : List (Chunk Element)) (position : Nat) : Prop :=
  ∃ chunk ∈ chunks, chunk.Holds position

instance (chunks : List (Chunk Element)) (position : Nat) : Decidable (Covers chunks position) :=
  inferInstanceAs (Decidable (∃ chunk ∈ chunks, chunk.Holds position))

/-- Each chunk ends before the next one starts. -/
def Separated (chunks : List (Chunk Element)) : Prop :=
  chunks.Pairwise fun a b => a.1 + a.2.length ≤ b.1

/-- The number of elements in the chunks. -/
def totalLength (chunks : List (Chunk Element)) : Nat :=
  (chunks.map fun chunk => chunk.2.length).sum

variable {chunks others : List (Chunk Element)} {chunk : Chunk Element} {position : Nat}

@[simp]
theorem covers_cons :
    Covers (chunk :: chunks) position ↔ chunk.Holds position ∨ Covers chunks position := by
  simp [Covers]

theorem not_covers_nil : ¬ Covers ([] : List (Chunk Element)) position := by simp [Covers]

theorem Covers.mono (covers : Covers chunks position) (subset : chunks ⊆ others) :
    Covers others position := by
  obtain ⟨chunk, member, holds⟩ := covers
  exact ⟨chunk, subset member, holds⟩

theorem covers_perm (perm : chunks.Perm others) : Covers chunks position ↔ Covers others position :=
  ⟨fun covers => covers.mono perm.subset, fun covers => covers.mono perm.symm.subset⟩

@[simp]
theorem totalLength_nil : totalLength ([] : List (Chunk Element)) = 0 := rfl

@[simp]
theorem totalLength_cons : totalLength (chunk :: chunks) = chunk.2.length + totalLength chunks := by
  simp [totalLength]

theorem totalLength_perm (perm : chunks.Perm others) : totalLength chunks = totalLength others :=
  (perm.map _).sum_eq

theorem Separated.head (separated : Separated (chunk :: chunks)) :
    ∀ other ∈ chunks, chunk.1 + chunk.2.length ≤ other.1 := (List.pairwise_cons.mp separated).1

theorem Separated.tail (separated : Separated (chunk :: chunks)) : Separated chunks :=
  (List.pairwise_cons.mp separated).2

theorem Separated.cons (first : ∀ other ∈ chunks, chunk.1 + chunk.2.length ≤ other.1)
    (separated : Separated chunks) : Separated (chunk :: chunks) :=
  List.pairwise_cons.mpr ⟨first, separated⟩

/-- Separated chunks have as many elements as there is room for. -/
theorem Separated.totalLength_le (separated : Separated chunks) {lowest highest : Nat}
    (ordered : lowest ≤ highest)
    (within : ∀ chunk ∈ chunks, lowest ≤ chunk.1 ∧ chunk.1 + chunk.2.length ≤ highest) :
    totalLength chunks ≤ highest - lowest := by
  induction chunks generalizing lowest with
  | nil => exact Nat.zero_le _
  | cons chunk chunks inductionHypothesis =>
      obtain ⟨low, high⟩ := within chunk List.mem_cons_self
      have rest := inductionHypothesis separated.tail high fun other member =>
        ⟨separated.head other member, (within other (List.mem_cons_of_mem chunk member)).2⟩
      rw [totalLength_cons]
      omega

/-- How far the chunks, in order, continue what is there up to a position. -/
def frontier : List (Chunk Element) → Nat → Nat
  | [], reached => reached
  | chunk :: rest, reached =>
      if chunk.1 ≤ reached then frontier rest (max reached (chunk.1 + chunk.2.length))
      else frontier rest reached

theorem frontier_cons (chunk : Chunk Element) (rest : List (Chunk Element)) (reached : Nat) :
    frontier (chunk :: rest) reached =
      if chunk.1 ≤ reached then frontier rest (max reached (chunk.1 + chunk.2.length))
      else frontier rest reached := rfl

variable {reached : Nat}

theorem le_frontier (chunks : List (Chunk Element)) (reached : Nat) :
    reached ≤ frontier chunks reached := by
  induction chunks generalizing reached with
  | nil => exact Nat.le_refl _
  | cons chunk rest inductionHypothesis =>
      rw [frontier_cons]
      split
      · exact Nat.le_trans (Nat.le_max_left _ _) (inductionHypothesis _)
      · exact inductionHypothesis _

theorem frontier_le {bound : Nat} (start : reached ≤ bound)
    (within : ∀ chunk ∈ chunks, chunk.1 + chunk.2.length ≤ bound) :
    frontier chunks reached ≤ bound := by
  induction chunks generalizing reached with
  | nil => exact start
  | cons chunk rest inductionHypothesis =>
      have later := fun other member => within other (List.mem_cons_of_mem chunk member)
      rw [frontier_cons]
      split
      · exact inductionHypothesis (Nat.max_le.mpr ⟨start, within chunk List.mem_cons_self⟩) later
      · exact inductionHypothesis start later

/-- Nothing is continued over a gap. -/
theorem frontier_gap (gap : ∀ chunk ∈ chunks, reached < chunk.1) :
    frontier chunks reached = reached := by
  induction chunks with
  | nil => rfl
  | cons chunk rest inductionHypothesis =>
      rw [frontier_cons, if_neg (Nat.not_le_of_lt (gap chunk List.mem_cons_self))]
      exact inductionHypothesis fun other member => gap other (List.mem_cons_of_mem chunk member)

/-- Up to the frontier all is covered. -/
theorem covers_frontier (low : reached ≤ position) (high : position < frontier chunks reached) :
    Covers chunks position := by
  induction chunks generalizing reached with
  | nil => exact absurd high (Nat.not_lt_of_le low)
  | cons chunk rest inductionHypothesis =>
      rw [frontier_cons] at high
      split at high
      next starts =>
        by_cases inside : position < chunk.1 + chunk.2.length
        · exact covers_cons.mpr (.inl ⟨Nat.le_trans starts low, inside⟩)
        · exact covers_cons.mpr (.inr (inductionHypothesis (by omega) high))
      next => exact covers_cons.mpr (.inr (inductionHypothesis low high))

/-- The position at the frontier is not covered. -/
theorem not_covers_frontier (sorted : chunks.Pairwise fun a b => a.1 ≤ b.1) :
    ¬ Covers chunks (frontier chunks reached) := by
  induction chunks generalizing reached with
  | nil => exact not_covers_nil
  | cons chunk rest inductionHypothesis =>
      obtain ⟨least, sortedRest⟩ := List.pairwise_cons.mp sorted
      rw [covers_cons, not_or]
      rw [frontier_cons]
      split
      next =>
        have further := le_frontier rest (max reached (chunk.1 + chunk.2.length))
        exact ⟨fun holds => by have := holds.2; omega, inductionHypothesis sortedRest⟩
      next gap =>
        have stays : frontier rest reached = reached := frontier_gap fun other member =>
          Nat.lt_of_lt_of_le (Nat.lt_of_not_le gap) (least other member)
        exact ⟨fun holds => gap (stays ▸ holds.1), inductionHypothesis sortedRest⟩

end Ns3.Library
