import Ns3.Network.SequenceNumber

/-!
The order of `ns3::SequenceNumber32`.

The operators `>` and `-` look at the distance of two sequence numbers on the circle. They agree
unless the two are on opposite sides of it: one of these is greater than the other although no
difference of the two is positive as an `int32_t`.
-/

namespace Ns3.Network.SequenceNumber32

open Library

variable {a b : SequenceNumber32}

/-- Exactly one of `a < b`, `a == b` and `a > b` holds. -/
inductive Compares (a b : SequenceNumber32) : Prop
  | less : SequenceSpace.lt a b = true → a ≠ b → gt a b = false → Compares a b
  | equal : SequenceSpace.lt a b = false → a = b → gt a b = false → Compares a b
  | greater : SequenceSpace.lt a b = false → a ≠ b → gt a b = true → Compares a b

/-- The two are on opposite sides of the circle. -/
def Antipodal (a b : SequenceNumber32) : Prop :=
  a.value = b.value + 2 ^ 31 ∨ b.value = a.value + 2 ^ 31

instance (a b : SequenceNumber32) : Decidable (Antipodal a b) :=
  inferInstanceAs (Decidable (_ ∨ _))

/-- What is ahead by less than half of the circle is greater, by just that distance. -/
structure Advances (a : SequenceNumber32) (d : Nat) : Prop where
  greater : gt (add a d) a = true
  difference : minus (add a d) a = d

theorem not_gt_self (a : SequenceNumber32) : gt a a = false := by
  apply decide_eq_false
  omega

theorem compares (a b : SequenceNumber32) : Compares a b := by
  by_cases same : a = b
  · subst same
    refine .equal ?_ rfl (not_gt_self a)
    simp [SequenceSpace.lt]
  · cases above : gt a b with
    | true =>
        refine .greater ?_ same above
        change (! gt a b && _) = false
        rw [above]
        rfl
    | false =>
        refine .less ?_ same above
        change (! gt a b && _) = true
        rw [above]
        exact decide_eq_true same

theorem gt_iff_minus_pos (apart : ¬ Antipodal a b) : gt a b = true ↔ 0 < minus a b := by
  have aFits := a.fits
  have bFits := b.fits
  unfold Antipodal at apart
  unfold minus gt signed wrap
  rw [decide_eq_true_iff, Int.bmod_def, Int.bmod_def]
  split
  next above => split <;> omega
  next below => split <;> omega

/-- A range that wraps ends below its start, by the rest of the circle. -/
theorem advanced_value (a : SequenceNumber32) {d : Nat} (small : d < 2 ^ 31) :
    (add a d).value = a.value + d ∨ (add a d).value + 2 ^ 32 = a.value + d := by
  have fits := a.fits
  have advanced : (add a d).value = (a.value + d) % 2 ^ 32 := value_add a d
  omega

section

variable {d : Nat} (ends : b.value = a.value + d ∨ b.value + 2 ^ 32 = a.value + d)

include ends

theorem gt_of_ahead (positive : 0 < d) (small : d < 2 ^ 31) : gt b a = true := by
  have aFits := a.fits
  have bFits := b.fits
  apply decide_eq_true
  rcases ends with within | wrapped
  · exact .inl ⟨by omega, by omega⟩
  · exact .inr ⟨by omega, by omega⟩

theorem minus_of_ahead (positive : 0 < d) (small : d < 2 ^ 31) : minus b a = d := by
  have aFits := a.fits
  have bFits := b.fits
  unfold minus signed wrap
  rw [Int.bmod_def, Int.bmod_def]
  rcases ends with within | wrapped
  · rw [if_pos (by omega)]
    split <;> omega
  · rw [if_neg (by omega)]
    split <;> omega

end

theorem advances (a : SequenceNumber32) {d : Nat} (positive : 0 < d) (small : d < 2 ^ 31) :
    Advances a d :=
  ⟨gt_of_ahead (advanced_value a small) positive small,
    minus_of_ahead (advanced_value a small) positive small⟩

end Ns3.Network.SequenceNumber32
