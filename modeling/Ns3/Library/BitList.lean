import Mathlib.Algebra.Order.Ring.Int
import Mathlib.Data.List.Basic
import Mathlib.Tactic.Ring

/-!
Numbers as lists of their bits, the highest first.
-/

namespace Ns3.Library

/-- The lowest bits of a number. -/
def bitsOf : Nat → Nat → List Bool
  | 0, _ => []
  | width + 1, n => n.testBit width :: bitsOf width n

/-- The number with the bits. -/
def ofBits (bits : List Bool) : Nat := bits.foldl (fun n bit => 2 * n + bit.toNat) 0

@[simp]
theorem length_bitsOf (width n : Nat) : (bitsOf width n).length = width := by
  induction width with
  | zero => rfl
  | succ width inductionHypothesis => rw [bitsOf, List.length_cons, inductionHypothesis]

theorem foldl_bits (bits : List Bool) (n : Nat) :
    bits.foldl (fun n bit => 2 * n + bit.toNat) n = n * 2 ^ bits.length + ofBits bits := by
  unfold ofBits
  induction bits generalizing n with
  | nil => simp
  | cons bit bits inductionHypothesis =>
      rw [List.foldl_cons, List.foldl_cons, inductionHypothesis, inductionHypothesis (2 * 0 + _),
        List.length_cons, Nat.pow_succ]
      ring

theorem ofBits_cons (bit : Bool) (bits : List Bool) :
    ofBits (bit :: bits) = bit.toNat * 2 ^ bits.length + ofBits bits := by
  rw [ofBits, List.foldl_cons, foldl_bits, Nat.mul_zero, Nat.zero_add]

theorem ofBits_lt (bits : List Bool) : ofBits bits < 2 ^ bits.length := by
  induction bits with
  | nil => decide
  | cons bit bits inductionHypothesis =>
      have small : bit.toNat ≤ 1 := Bool.toNat_le bit
      have scaled : bit.toNat * 2 ^ bits.length ≤ 1 * 2 ^ bits.length :=
        Nat.mul_le_mul_right _ small
      rw [ofBits_cons, List.length_cons, Nat.pow_succ]
      omega

theorem ofBits_bitsOf (width n : Nat) : ofBits (bitsOf width n) = n % 2 ^ width := by
  induction width with
  | zero => exact (Nat.mod_one n).symm
  | succ width inductionHypothesis =>
      rw [bitsOf, ofBits_cons, inductionHypothesis, length_bitsOf, Nat.mod_pow_succ,
        Nat.toNat_testBit, Nat.add_comm, Nat.mul_comm]

/-- Only the lowest bits count. -/
theorem bitsOf_add (width n more : Nat) : bitsOf width (more * 2 ^ width + n) = bitsOf width n := by
  induction width generalizing more with
  | zero => rfl
  | succ width inductionHypothesis =>
      have shift : more * 2 ^ (width + 1) = (2 * more) * 2 ^ width := by ring
      rw [bitsOf, bitsOf, shift, inductionHypothesis]
      congr 1
      rw [Nat.testBit_eq_decide_div_mod_eq, Nat.testBit_eq_decide_div_mod_eq,
        Nat.add_comm, Nat.add_mul_div_right _ _ (Nat.two_pow_pos width), Nat.add_mul_mod_self_left]

theorem bitsOf_ofBits (bits : List Bool) : bitsOf bits.length (ofBits bits) = bits := by
  induction bits with
  | nil => rfl
  | cons bit bits inductionHypothesis =>
      have small := ofBits_lt bits
      rw [List.length_cons, bitsOf, ofBits_cons, bitsOf_add, inductionHypothesis,
        Nat.testBit_eq_decide_div_mod_eq, Nat.add_comm,
        Nat.add_mul_div_right _ _ (Nat.two_pow_pos _), Nat.div_eq_of_lt small, Nat.zero_add]
      cases bit <;> rfl

theorem bitsOf_mod (width n : Nat) : bitsOf width (n % 2 ^ width) = bitsOf width n := by
  have same := bitsOf_ofBits (bitsOf width n)
  rwa [length_bitsOf, ofBits_bitsOf] at same

theorem ofBits_append (front back : List Bool) :
    ofBits (front ++ back) = ofBits front * 2 ^ back.length + ofBits back := by
  rw [ofBits, List.foldl_append, foldl_bits, ← ofBits]

theorem ofBits_replicate_false (count : Nat) : ofBits (List.replicate count false) = 0 := by
  induction count with
  | zero => rfl
  | succ count inductionHypothesis =>
      rw [List.replicate_succ, ofBits_cons, inductionHypothesis, Bool.toNat_false, Nat.zero_mul]

/-- The highest bits come first. -/
theorem bitsOf_append (front width n : Nat) :
    bitsOf (front + width) n = bitsOf front (n >>> width) ++ bitsOf width n := by
  induction front with
  | zero => rw [Nat.zero_add]; rfl
  | succ front inductionHypothesis =>
      rw [Nat.succ_add, bitsOf, bitsOf, inductionHypothesis, Nat.testBit_shiftRight,
        Nat.add_comm width, List.cons_append]

theorem ofBits_replicate_append (front : List Bool) (count : Nat) :
    ofBits (front ++ List.replicate count false) = ofBits front * 2 ^ count := by
  rw [ofBits_append, ofBits_replicate_false, List.length_replicate, Nat.add_zero]

end Ns3.Library
