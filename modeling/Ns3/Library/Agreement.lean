import Mathlib.Algebra.Order.Ring.Int
import Mathlib.Data.List.Basic

/-!
How far lists agree.
-/

namespace Ns3.Library

universe u
variable {α : Type u} [DecidableEq α]

/-- The number of elements that two lists have in common in front. -/
def agreement : List α → List α → Nat
  | x :: xs, y :: ys => if x = y then agreement xs ys + 1 else 0
  | _, _ => 0

/-- The number of elements that all lists have in common in front. -/
def commonHead : List (List α) → Nat
  | [] => 0
  | [list] => list.length
  | first :: second :: rest => min (agreement first second) (commonHead (second :: rest))

omit [DecidableEq α] in
/-- All lists have the same first elements. -/
def AgreeOn (lists : List (List α)) (count : Nat) : Prop :=
  ∀ first ∈ lists, ∀ second ∈ lists, first.take count = second.take count

theorem agreement_cons (x y : α) (xs ys : List α) :
    agreement (x :: xs) (y :: ys) = if x = y then agreement xs ys + 1 else 0 := rfl

theorem commonHead_singleton (list : List α) : commonHead [list] = list.length := rfl

theorem commonHead_cons (first second : List α) (rest : List (List α)) :
    commonHead (first :: second :: rest) =
      min (agreement first second) (commonHead (second :: rest)) := rfl

theorem agreement_le (xs ys : List α) : agreement xs ys ≤ xs.length := by
  induction xs generalizing ys with
  | nil => exact Nat.zero_le _
  | cons x xs inductionHypothesis =>
      cases ys with
      | nil => exact Nat.zero_le _
      | cons y ys =>
          rw [agreement_cons]
          split
          next => exact Nat.succ_le_succ (inductionHypothesis ys)
          next => exact Nat.zero_le _

theorem agreement_self (xs : List α) : agreement xs xs = xs.length := by
  induction xs with
  | nil => rfl
  | cons x xs inductionHypothesis =>
      rw [agreement_cons, if_pos rfl, inductionHypothesis, List.length_cons]

theorem take_eq_take_iff {xs ys : List α} {count : Nat} (left : count ≤ xs.length)
    (right : count ≤ ys.length) : xs.take count = ys.take count ↔ count ≤ agreement xs ys := by
  induction count generalizing xs ys with
  | zero => simp
  | succ count inductionHypothesis =>
      cases xs with
      | nil => exact absurd left (Nat.not_succ_le_zero _)
      | cons x xs =>
          cases ys with
          | nil => exact absurd right (Nat.not_succ_le_zero _)
          | cons y ys =>
              have rest := inductionHypothesis (Nat.le_of_succ_le_succ left)
                (Nat.le_of_succ_le_succ right)
              rw [List.take_succ_cons, List.take_succ_cons, List.cons_eq_cons, rest, agreement_cons]
              by_cases same : x = y
              · simp [same]
              · simp [same]

theorem commonHead_append (lists : List (List α)) (last list : List α)
    (shorter : agreement last list ≤ list.length) :
    commonHead (lists ++ [last, list]) =
      min (commonHead (lists ++ [last])) (agreement last list) := by
  induction lists with
  | nil =>
      have := agreement_le last list
      simp only [List.nil_append, commonHead_cons, commonHead_singleton]
      omega
  | cons first lists inductionHypothesis =>
      cases lists with
      | nil =>
          have := agreement_le last list
          simp only [List.nil_append, List.cons_append, commonHead_cons, commonHead_singleton]
          omega
      | cons second lists =>
          simp only [List.cons_append, commonHead_cons] at inductionHypothesis ⊢
          rw [inductionHypothesis, Nat.min_assoc]

theorem commonHead_le {lists : List (List α)} {length : Nat}
    (sameLength : ∀ list ∈ lists, list.length = length) : commonHead lists ≤ length := by
  rcases lists with _ | ⟨first, _ | ⟨second, rest⟩⟩
  · exact Nat.zero_le _
  · exact Nat.le_of_eq (sameLength first List.mem_cons_self)
  · have firstLength := sameLength first List.mem_cons_self
    have := agreement_le first second
    rw [commonHead_cons]
    omega

/-- Lists of one length agree as far as the neighbours do. -/
theorem agreeOn_iff {lists : List (List α)} {length count : Nat}
    (sameLength : ∀ list ∈ lists, list.length = length) (inside : count ≤ length)
    (nonempty : lists ≠ []) : AgreeOn lists count ↔ count ≤ commonHead lists := by
  induction lists with
  | nil => exact absurd rfl nonempty
  | cons first lists inductionHypothesis =>
      have firstLength := sameLength first List.mem_cons_self
      cases lists with
      | nil =>
          refine iff_of_true (fun one isOne other isOther => ?_) (by rw [commonHead_singleton]; omega)
          rw [List.mem_singleton.mp isOne, List.mem_singleton.mp isOther]
      | cons second lists =>
          have secondLength := sameLength second (by simp)
          have rest := inductionHypothesis
            (fun list mem => sameLength list (List.mem_cons_of_mem _ mem)) (List.cons_ne_nil _ _)
          have neighbours := take_eq_take_iff (firstLength.symm ▸ inside) (secondLength.symm ▸ inside)
          rw [commonHead_cons, Nat.le_min, ← rest, ← neighbours]
          constructor
          · intro agree
            refine ⟨agree first (by simp) second (by simp), fun one isOne other isOther => ?_⟩
            exact agree one (List.mem_cons_of_mem _ isOne) other (List.mem_cons_of_mem _ isOther)
          · rintro ⟨same, agree⟩
            have withFirst (other : List α) (mem : other ∈ first :: second :: lists) :
                second.take count = other.take count := by
              rcases List.mem_cons.mp mem with rfl | behind
              · exact same.symm
              · exact agree second List.mem_cons_self other behind
            exact fun one isOne other isOther =>
              (withFirst one isOne).symm.trans (withFirst other isOther)

end Ns3.Library
