import Mathlib.Data.List.Basic
import Mathlib.Tactic.Common

/-!
Sets of natural numbers as sorted lists of intervals.

The intervals are closed and disjoint, but two of them may touch. Inserting a number extends an
interval that it touches, or makes one of its own. A set of numbers without gaps either meets the
bounds of an interval, or it lies inside an interval, or it meets none.
-/

namespace Ns3.Library

/-- The numbers between two bounds, which belong to it. -/
structure Interval where
  low : Nat
  high : Nat
  ordered : low ≤ high
  deriving DecidableEq, Repr

namespace Interval

def Has (interval : Interval) (x : Nat) : Prop := interval.low ≤ x ∧ x ≤ interval.high

instance (interval : Interval) (x : Nat) : Decidable (interval.Has x) :=
  inferInstanceAs (Decidable (_ ∧ _))

def single (x : Nat) : Interval := ⟨x, x, Nat.le_refl x⟩

end Interval

/-- The intervals are disjoint and in order. -/
def SortedIntervals (intervals : List Interval) : Prop :=
  intervals.Pairwise fun a b => a.high < b.low

/-- The number is in an interval of the list. -/
def HasPoint (intervals : List Interval) (x : Nat) : Prop :=
  ∃ interval ∈ intervals, interval.Has x

instance (intervals : List Interval) (x : Nat) : Decidable (HasPoint intervals x) :=
  inferInstanceAs (Decidable (∃ interval ∈ intervals, interval.Has x))

/-- Add a number that is not there. -/
def insertPoint (x : Nat) : List Interval → Option (List Interval)
  | [] => some [.single x]
  | first :: rest =>
      if first.Has x then none
      else if x + 1 < first.low then some (.single x :: first :: rest)
      else if touches : x = first.high + 1 then
        if (rest.head?.map Interval.low) = some x then none
        else some (⟨first.low, x, by have := first.ordered; omega⟩ :: rest)
      else if touches : x + 1 = first.low then
        some (⟨x, first.high, by have := first.ordered; omega⟩ :: rest)
      else (insertPoint x rest).map (first :: ·)

section Points

variable {first : Interval} {intervals rest inserted : List Interval} {x y bound : Nat}

theorem not_hasPoint_nil : ¬ HasPoint [] x := by
  rintro ⟨interval, member, _⟩
  exact List.not_mem_nil member

theorem hasPoint_cons : HasPoint (first :: rest) x ↔ first.Has x ∨ HasPoint rest x := by
  simp [HasPoint]

theorem has_single : (Interval.single x).Has y ↔ y = x := by
  unfold Interval.Has Interval.single
  dsimp only
  omega

theorem SortedIntervals.tail (sorted : SortedIntervals (first :: rest)) : SortedIntervals rest :=
  (List.pairwise_cons.mp sorted).2

theorem SortedIntervals.lt (sorted : SortedIntervals (first :: rest)) :
    ∀ interval ∈ rest, first.high < interval.low := (List.pairwise_cons.mp sorted).1

/-- What lies behind an interval. -/
theorem SortedIntervals.high_lt (sorted : SortedIntervals (first :: rest))
    (hasPoint : HasPoint rest x) : first.high < x := by
  obtain ⟨interval, member, has⟩ := hasPoint
  exact Nat.lt_of_lt_of_le (sorted.lt interval member) has.1

theorem SortedIntervals.not_hasPoint (sorted : SortedIntervals (first :: rest))
    (small : x ≤ first.high) : ¬ HasPoint rest x := fun hasPoint =>
  absurd (sorted.high_lt hasPoint) (Nat.not_lt.mpr small)

/-- Only the next interval can begin right behind the first one. -/
theorem SortedIntervals.hasPoint_succ (sorted : SortedIntervals (first :: rest))
    (succ : x = first.high + 1) :
    HasPoint rest x ↔ rest.head?.map Interval.low = some x := by
  cases rest with
  | nil => simp [not_hasPoint_nil]
  | cons next rest =>
      have behind := sorted.lt next List.mem_cons_self
      have later := sorted.tail.lt
      constructor
      · rintro ⟨interval, member, has⟩
        have between := sorted.lt interval member
        rcases List.mem_cons.mp member with rfl | member
        · exact congrArg some (by have := has.1; omega)
        · have := later interval member
          have := next.ordered
          have := has.1
          omega
      · intro begins
        have low : next.low = x := Option.some.inj begins
        exact ⟨next, List.mem_cons_self, Nat.le_of_eq low, low ▸ next.ordered⟩

/-- Intervals of the list that share a number are the same. -/
theorem SortedIntervals.unique (sorted : SortedIntervals intervals) {one other : Interval}
    (hasOne : one ∈ intervals) (hasOther : other ∈ intervals) (inOne : one.Has x)
    (inOther : other.Has x) : one = other := by
  induction intervals with
  | nil => exact nomatch hasOne
  | cons first rest inductionHypothesis =>
      have apart : ∀ interval ∈ rest, first.Has x → ¬ interval.Has x := fun interval member has =>
        fun also => sorted.not_hasPoint has.2 ⟨interval, member, also⟩
      rcases List.mem_cons.mp hasOne with rfl | oneLater
      · rcases List.mem_cons.mp hasOther with rfl | otherLater
        · rfl
        · exact absurd inOther (apart other otherLater inOne)
      · rcases List.mem_cons.mp hasOther with rfl | otherLater
        · exact absurd inOne (apart one oneLater inOther)
        · exact inductionHypothesis sorted.tail oneLater otherLater

theorem SortedIntervals.cons (sorted : SortedIntervals rest)
    (before : ∀ interval ∈ rest, first.high < interval.low) : SortedIntervals (first :: rest) :=
  List.pairwise_cons.mpr ⟨before, sorted⟩

/-- How a number is added. -/
inductive Inserts (x : Nat) : List Interval → List Interval → Prop
  | last : Inserts x [] [.single x]
  | before (first : Interval) (rest : List Interval) : x + 1 < first.low →
      Inserts x (first :: rest) (.single x :: first :: rest)
  | up (first : Interval) (rest : List Interval) (touches : x = first.high + 1)
      (ordered : first.low ≤ x) : rest.head?.map Interval.low ≠ some x →
      Inserts x (first :: rest) (⟨first.low, x, ordered⟩ :: rest)
  | down (first : Interval) (rest : List Interval) (touches : x + 1 = first.low)
      (ordered : x ≤ first.high) : Inserts x (first :: rest) (⟨x, first.high, ordered⟩ :: rest)
  | behind (first : Interval) (rest inserted : List Interval) : first.high + 1 < x →
      Inserts x rest inserted → Inserts x (first :: rest) (first :: inserted)

theorem insertPoint_inserts (found : insertPoint x intervals = some inserted) :
    Inserts x intervals inserted := by
  induction intervals generalizing inserted with
  | nil =>
      obtain rfl := Option.some.inj found
      exact .last
  | cons first rest inductionHypothesis =>
      have ordered := first.ordered
      rw [insertPoint] at found
      split_ifs at found with has below touches taken also
      · obtain rfl := Option.some.inj found
        exact .before _ _ below
      · obtain rfl := Option.some.inj found
        exact .up _ _ touches _ taken
      · obtain rfl := Option.some.inj found
        exact .down _ _ also _
      · obtain ⟨later, within, rfl⟩ := Option.map_eq_some_iff.mp found
        refine .behind _ _ _ ?_ (inductionHypothesis within)
        unfold Interval.Has at has
        omega

/-- Only a number that is there is refused. -/
theorem insertPoint_eq_none (sorted : SortedIntervals intervals) :
    insertPoint x intervals = none ↔ HasPoint intervals x := by
  induction intervals with
  | nil => exact iff_of_false (Option.some_ne_none _) not_hasPoint_nil
  | cons first rest inductionHypothesis =>
      have ordered := first.ordered
      rw [insertPoint, hasPoint_cons]
      split_ifs with has below touches taken also
      · exact iff_of_true rfl (.inl has)
      · refine iff_of_false not_false ?_
        exact not_or.mpr ⟨has, sorted.not_hasPoint (by omega)⟩
      · exact iff_of_true rfl (.inr ((sorted.hasPoint_succ touches).mpr taken))
      · refine iff_of_false not_false ?_
        exact not_or.mpr ⟨has, fun later => taken ((sorted.hasPoint_succ touches).mp later)⟩
      · refine iff_of_false not_false ?_
        exact not_or.mpr ⟨has, sorted.not_hasPoint (by omega)⟩
      · rw [Option.map_eq_none_iff, inductionHypothesis sorted.tail, or_iff_right has]

theorem Inserts.hasPoint (inserts : Inserts x intervals inserted) :
    HasPoint inserted y ↔ y = x ∨ HasPoint intervals y := by
  induction inserts with
  | last => rw [hasPoint_cons, has_single]
  | before _ _ _ => rw [hasPoint_cons, has_single]
  | up _ _ touches ordered _ =>
      rw [hasPoint_cons, hasPoint_cons, ← or_assoc]
      refine or_congr_left ?_
      unfold Interval.Has
      dsimp only
      omega
  | down _ _ touches ordered =>
      rw [hasPoint_cons, hasPoint_cons, ← or_assoc]
      refine or_congr_left ?_
      unfold Interval.Has
      dsimp only
      omega
  | behind _ _ _ _ _ inductionHypothesis =>
      rw [hasPoint_cons, hasPoint_cons, inductionHypothesis, or_left_comm]

/-- A bound below the number and below all intervals stays one. -/
theorem Inserts.bound_lt (inserts : Inserts x intervals inserted) (small : bound < x)
    (below : ∀ interval ∈ intervals, bound < interval.low) :
    ∀ interval ∈ inserted, bound < interval.low := by
  induction inserts with
  | last => exact List.forall_mem_singleton.mpr small
  | before _ _ _ => exact List.forall_mem_cons.mpr ⟨small, below⟩
  | up _ _ _ _ _ =>
      obtain ⟨first, later⟩ := List.forall_mem_cons.mp below
      exact List.forall_mem_cons.mpr ⟨first, later⟩
  | down _ _ _ _ => exact List.forall_mem_cons.mpr ⟨small, (List.forall_mem_cons.mp below).2⟩
  | behind _ _ _ _ _ inductionHypothesis =>
      obtain ⟨first, later⟩ := List.forall_mem_cons.mp below
      exact List.forall_mem_cons.mpr ⟨first, inductionHypothesis later⟩

theorem Inserts.sorted (inserts : Inserts x intervals inserted)
    (sorted : SortedIntervals intervals) : SortedIntervals inserted := by
  induction inserts with
  | last => exact List.pairwise_singleton _ _
  | before first rest below =>
      refine sorted.cons fun interval member => ?_
      have ordered := first.ordered
      rcases List.mem_cons.mp member with rfl | later
      · exact Nat.lt_of_succ_lt below
      · have behind := sorted.lt interval later
        show x < interval.low
        omega
  | up first rest touches _ free =>
      refine sorted.tail.cons fun interval member => ?_
      have behind := sorted.lt interval member
      have different : interval.low ≠ x := fun same =>
        free ((sorted.hasPoint_succ touches).mp
          ⟨interval, member, Nat.le_of_eq same, same ▸ interval.ordered⟩)
      show x < interval.low
      omega
  | down _ _ _ _ => exact sorted.tail.cons sorted.lt
  | behind _ _ _ large inserts inductionHypothesis =>
      exact (inductionHypothesis sorted.tail).cons
        (inserts.bound_lt (Nat.lt_of_succ_lt large) sorted.lt)

/-- Numbers without a gap, of which some is in an interval: a bound of an interval is among them,
or they lie inside an interval. -/
theorem HasPoint.meets {start stop : Nat} (hasPoint : HasPoint intervals x) (from_start : start ≤ x)
    (to_stop : x ≤ stop) :
    (∃ interval ∈ intervals, start ≤ interval.low ∧ interval.low ≤ stop ∨
        start ≤ interval.high ∧ interval.high ≤ stop) ∨
      ∃ interval ∈ intervals, interval.low < start ∧ stop < interval.high := by
  obtain ⟨interval, member, low, high⟩ := hasPoint
  by_cases inside : interval.low < start ∧ stop < interval.high
  · exact .inr ⟨interval, member, inside⟩
  · exact .inl ⟨interval, member, by omega⟩

end Points

end Ns3.Library
