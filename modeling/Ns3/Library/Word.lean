import Mathlib.Algebra.Order.Ring.Int
import Mathlib.Tactic.Common

/-!
Unsigned machine words as natural numbers.

A word is a natural number below `2 ^ bits`; arithmetic that may overflow is
written with an explicit `wrap`, `wrapSub` is the difference of two words, and
`wrapInt` converts a signed number. A signed word is an integer, and `signed` is
the conversion to it. A word is stored as its bytes, the lowest first.
-/

namespace Ns3.Library

/-- Keep the low `bits` bits. -/
def wrap (bits n : Nat) : Nat := n % 2 ^ bits

/-- The difference of two words of `bits` bits. -/
def wrapSub (bits a b : Nat) : Nat := (a + (2 ^ bits - b)) % 2 ^ bits

/-- The word of `bits` bits that an integer is converted to. -/
def wrapInt (bits : Nat) (n : Int) : Nat := (n % 2 ^ bits).toNat

/-- The signed word of `bits` bits that an integer is converted to. -/
def signed (bits : Nat) (n : Int) : Int := n.bmod (2 ^ bits)

/-- The integer is a signed word of `bits` bits. -/
def IsSigned (bits : Nat) (n : Int) : Prop := -2 ^ (bits - 1) ≤ n ∧ n < 2 ^ (bits - 1)

/-- The words of four bits have a zero. -/
instance neZero_sixteen : NeZero 16 := ⟨by decide⟩

instance (bits : Nat) (n : Int) : Decidable (IsSigned bits n) :=
  inferInstanceAs (Decidable (_ ∧ _))

def toBytes : Nat → Nat → List UInt8
  | 0, _ => []
  | count + 1, n => UInt8.ofNat n :: toBytes count (n / 256)

def ofBytes : List UInt8 → Nat
  | [] => 0
  | byte :: bytes => byte.toNat + 256 * ofBytes bytes

theorem wrap_lt (bits n : Nat) : wrap bits n < 2 ^ bits :=
  Nat.mod_lt n (Nat.two_pow_pos bits)

theorem wrap_le (bits n : Nat) : wrap bits n ≤ n := Nat.mod_le n _

theorem wrap_of_lt {bits n : Nat} (fits : n < 2 ^ bits) : wrap bits n = n :=
  Nat.mod_eq_of_lt fits

theorem wrapSub_of_le {bits a b : Nat} (ordered : b ≤ a) (fits : a < 2 ^ bits) :
    wrapSub bits a b = a - b := by
  have shift : a + (2 ^ bits - b) = a - b + 2 ^ bits := by omega
  rw [wrapSub, shift, Nat.add_mod_right, Nat.mod_eq_of_lt (by omega)]

/-- The difference fits although the minuend may not. -/
theorem wrapSub_of_fits {bits a b : Nat} (ordered : b ≤ a) (small : b < 2 ^ bits)
    (fits : a - b < 2 ^ bits) : wrapSub bits a b = a - b := by
  have shift : a + (2 ^ bits - b) = a - b + 2 ^ bits := by omega
  rw [wrapSub, shift, Nat.add_mod_right, Nat.mod_eq_of_lt fits]

theorem wrapInt_natCast (bits n : Nat) : wrapInt bits n = wrap bits n := by
  rw [wrapInt, wrap, ← Int.toNat_natCast (n % 2 ^ bits), Int.natCast_emod, Int.natCast_pow,
    Int.cast_ofNat_Int]

theorem wrapInt_lt (bits : Nat) (n : Int) : wrapInt bits n < 2 ^ bits := by
  have positive : (0 : Int) < 2 ^ bits := Int.pow_pos (by decide)
  have nonneg := Int.emod_nonneg n (Int.ne_of_gt positive)
  rw [wrapInt, Int.toNat_lt nonneg, Int.natCast_pow]
  exact Int.emod_lt_of_pos n positive

theorem two_pow_cast {bits : Nat} (positive : 0 < bits) :
    ((2 ^ bits : Nat) : Int) = 2 * 2 ^ (bits - 1) := by
  obtain ⟨bits, rfl⟩ := Nat.exists_eq_succ_of_ne_zero (Nat.ne_of_gt positive)
  rw [Nat.succ_sub_one, Nat.cast_pow, Nat.cast_ofNat, Int.pow_succ, Int.mul_comm]

theorem isSigned_signed {bits : Nat} (positive : 0 < bits) (n : Int) :
    IsSigned bits (signed bits n) := by
  have size := two_pow_cast positive
  have low := @Int.le_bmod n (2 ^ bits) (Nat.two_pow_pos bits)
  have high := @Int.bmod_lt n (2 ^ bits) (Nat.two_pow_pos bits)
  rw [size] at low high
  exact ⟨by unfold signed; omega, by unfold signed; omega⟩

theorem signed_of_isSigned {bits : Nat} {n : Int} (positive : 0 < bits)
    (fits : IsSigned bits n) : signed bits n = n := by
  have size := two_pow_cast positive
  obtain ⟨low, high⟩ := fits
  exact Int.bmod_eq_of_le (by omega) (by omega)

theorem signed_congr {bits : Nat} {a b : Int}
    (same : a % (2 ^ bits : Nat) = b % (2 ^ bits : Nat)) : signed bits a = signed bits b := by
  rw [signed, signed, ← Int.emod_bmod a, same, Int.emod_bmod]

@[simp]
theorem length_toBytes (count n : Nat) : (toBytes count n).length = count := by
  induction count generalizing n with
  | zero => rfl
  | succ count inductionHypothesis =>
      rw [toBytes, List.length_cons, inductionHypothesis]

theorem ofBytes_toBytes {count n : Nat} (fits : n < 256 ^ count) :
    ofBytes (toBytes count n) = n := by
  induction count generalizing n with
  | zero =>
      have : n = 0 := by simpa using fits
      exact this.symm
  | succ count inductionHypothesis =>
      have smaller : n / 256 < 256 ^ count := by
        rw [Nat.pow_succ] at fits
        exact Nat.div_lt_of_lt_mul (by rwa [Nat.mul_comm] at fits)
      rw [toBytes, ofBytes, inductionHypothesis smaller, UInt8.toNat_ofNat']
      exact Nat.mod_add_div n 256

end Ns3.Library
