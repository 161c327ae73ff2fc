import Ns3.Library.Chunks
import Mathlib.Data.List.TakeWhile
import Mathlib.Data.List.Induction

/-!
Chunks of a stream that arrive in any order, each with a flag that says whether more
of the stream follows it.

The chunks are kept in the order of their positions, those with equal ones in the order
in which they came, together with the flag of the one at the end. `tailmost` is that
one, in terms of the arrivals.
-/

namespace Ns3.Library

universe u

/-- A chunk with the flag. -/
structure Piece (Element : Type u) : Type u where
  start : Nat
  elements : List Element
  more : Bool
  deriving DecidableEq, Repr

/-- The chunks in order, and the flag of the one at the end. -/
structure FlaggedChunks (Element : Type u) : Type u where
  more : Bool
  chunks : List (Chunk Element)
  deriving DecidableEq, Repr

namespace Piece

variable {Element : Type u}

/-- The chunk without its flag. -/
def chunk (piece : Piece Element) : Chunk Element := (piece.start, piece.elements)

/-- The one of two pieces that comes later in the order. -/
def further (best : Option (Piece Element)) (piece : Piece Element) : Option (Piece Element) :=
  match best with
  | none => some piece
  | some best => if best.start ≤ piece.start then some piece else some best

/-- The piece with the greatest position, the latest one of several. -/
def tailmost (arrived : List (Piece Element)) : Option (Piece Element) :=
  arrived.foldl further none

variable {arrived : List (Piece Element)} {piece best : Piece Element}

theorem tailmost_append (arrived : List (Piece Element)) (piece : Piece Element) :
    tailmost (arrived ++ [piece]) = further (tailmost arrived) piece := by
  simp [tailmost]

theorem tailmost_eq_none (none : tailmost arrived = none) : arrived = [] := by
  cases arrived using List.reverseRecOn with
  | nil => rfl
  | append_singleton before piece =>
      rw [tailmost_append] at none
      unfold further at none
      split at none
      · exact nomatch none
      · split at none <;> exact nomatch none

theorem mem_of_tailmost (isBest : tailmost arrived = some best) : best ∈ arrived := by
  induction arrived using List.reverseRecOn with
  | nil => exact nomatch isBest
  | append_singleton before piece inductionHypothesis =>
      rw [tailmost_append] at isBest
      unfold further at isBest
      split at isBest
      · cases isBest
        simp
      next old isOld =>
        split at isBest
        · cases isBest
          simp
        · cases isBest
          exact List.mem_append_left _ (inductionHypothesis isOld)

end Piece

namespace FlaggedChunks

variable {Element : Type u}

/-- Nothing has arrived. -/
def empty : FlaggedChunks Element := ⟨false, []⟩

/-- Put a piece in front of the first chunk with a greater position. -/
def add (self : FlaggedChunks Element) (piece : Piece Element) : FlaggedChunks Element :=
  let before := self.chunks.takeWhile fun stored => decide (stored.1 ≤ piece.start)
  let after := self.chunks.dropWhile fun stored => decide (stored.1 ≤ piece.start)
  { more := if after.isEmpty then piece.more else self.more
    chunks := before ++ piece.chunk :: after }

/-- In a sorted list the chunks that are left start behind the position. -/
theorem lt_of_mem_dropWhile {list : List (Chunk Element)} {position : Nat}
    (sorted : list.Pairwise fun a b => a.1 ≤ b.1) {chunk : Chunk Element}
    (member : chunk ∈ list.dropWhile fun stored => decide (stored.1 ≤ position)) :
    position < chunk.1 := by
  induction list with
  | nil => exact nomatch member
  | cons first rest inductionHypothesis =>
      obtain ⟨least, sortedRest⟩ := List.pairwise_cons.mp sorted
      rw [List.dropWhile_cons] at member
      split at member
      · exact inductionHypothesis sortedRest member
      next behind =>
        have firstBehind : position < first.1 := by simpa using behind
        rcases List.mem_cons.mp member with rfl | later
        · exact firstBehind
        · exact Nat.lt_of_lt_of_le firstBehind (least chunk later)

theorem le_of_mem_takeWhile {list : List (Chunk Element)} {position : Nat}
    {chunk : Chunk Element}
    (member : chunk ∈ list.takeWhile fun stored => decide (stored.1 ≤ position)) :
    chunk.1 ≤ position := by
  have passes := List.mem_takeWhile_imp member
  exact of_decide_eq_true passes

/-- The chunks are those that have arrived, in order, and the flag is that of the tailmost
one. -/
structure Stores (stored : FlaggedChunks Element) (arrived : List (Piece Element)) : Prop where
  perm : stored.chunks.Perm (arrived.map Piece.chunk)
  sorted : stored.chunks.Pairwise fun a b => a.1 ≤ b.1
  tail : ∀ best ∈ Piece.tailmost arrived,
    stored.chunks.getLast? = some best.chunk ∧ stored.more = best.more

theorem stores_empty : Stores (empty : FlaggedChunks Element) [] :=
  ⟨.nil, .nil, fun _ member => nomatch member⟩

variable {stored : FlaggedChunks Element} {arrived : List (Piece Element)}

theorem Stores.add (stores : stored.Stores arrived) (piece : Piece Element) :
    (stored.add piece).Stores (arrived ++ [piece]) := by
  obtain ⟨perm, sorted, tail⟩ := stores
  have parts := List.takeWhile_append_dropWhile
    (p := fun stored : Chunk Element => decide (stored.1 ≤ piece.start)) (l := stored.chunks)
  unfold FlaggedChunks.add
  dsimp only
  generalize beforeIs : (stored.chunks.takeWhile fun stored : Chunk Element =>
    decide (stored.1 ≤ piece.start)) = before at parts ⊢
  generalize afterIs : (stored.chunks.dropWhile fun stored : Chunk Element =>
    decide (stored.1 ≤ piece.start)) = after at parts ⊢
  have beforeLe : ∀ chunk ∈ before, chunk.1 ≤ piece.start := by
    rw [← beforeIs]
    exact fun chunk member => le_of_mem_takeWhile member
  have afterLt : ∀ chunk ∈ after, piece.start < chunk.1 := by
    rw [← afterIs]
    exact fun chunk member => lt_of_mem_dropWhile sorted member
  refine ⟨?_, ?_, fun best isBest => ?_⟩
  · dsimp only
    rw [List.map_append, List.map_cons, List.map_nil]
    refine List.perm_middle.trans ?_
    rw [parts]
    exact (perm.cons _).trans (List.perm_append_singleton _ _).symm
  · rw [← parts] at sorted
    obtain ⟨sortedBefore, sortedAfter, -⟩ := List.pairwise_append.mp sorted
    refine List.pairwise_append.mpr ⟨sortedBefore, List.pairwise_cons.mpr
      ⟨fun chunk member => Nat.le_of_lt (afterLt chunk member), sortedAfter⟩, ?_⟩
    intro a inBefore b inRest
    rcases List.mem_cons.mp inRest with rfl | inAfter
    · exact beforeLe a inBefore
    · exact Nat.le_trans (beforeLe a inBefore) (Nat.le_of_lt (afterLt b inAfter))
  · rw [Piece.tailmost_append] at isBest
    dsimp only
    cases after with
    -- The piece comes behind all the others.
    | nil =>
        rw [List.isEmpty_nil, if_pos rfl, List.getLast?_concat]
        have same : best = piece := by
          unfold Piece.further at isBest
          split at isBest
          · exact (Option.some.inj isBest).symm
          next old isOld =>
            have inList : old.chunk ∈ stored.chunks := List.mem_of_getLast? (tail old isOld).1
            rw [← parts, List.append_nil] at inList
            have notBehind : old.start ≤ piece.start := beforeLe _ inList
            rw [if_pos notBehind] at isBest
            exact (Option.some.inj isBest).symm
        rw [same]
        exact ⟨rfl, rfl⟩
    | cons next others =>
        rw [List.isEmpty_cons, if_neg Bool.false_ne_true]
        have filled : next :: others ≠ [] := List.cons_ne_nil _ _
        have some : arrived ≠ [] := by
          rintro rfl
          have none := perm.eq_nil
          rw [none] at parts
          exact filled (List.append_eq_nil_iff.mp parts).2
        unfold Piece.further at isBest
        split at isBest
        next none => exact absurd (Piece.tailmost_eq_none none) some
        next old isOld =>
          obtain ⟨last, sameFlag⟩ := tail old isOld
          have lastAfter : (next :: others).getLast? = Option.some old.chunk := by
            rw [← parts, List.getLast?_append_of_ne_nil _ filled] at last
            exact last
          have behind : piece.start < old.start := afterLt _ (List.mem_of_getLast? lastAfter)
          rw [if_neg (Nat.not_le_of_lt behind)] at isBest
          cases isBest
          refine ⟨?_, sameFlag⟩
          rw [List.getLast?_append_of_ne_nil _ (List.cons_ne_nil _ _), List.getLast?_cons,
            lastAfter]
          rfl

end FlaggedChunks

end Ns3.Library
