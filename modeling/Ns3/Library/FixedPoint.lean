import Mathlib.Tactic.Common
import Mathlib.Tactic.Ring

/-!
Arithmetic of fixed-point numbers.

A number is split at a radix into a high and a low part. The middle digits of a product come from
the four products of the parts, and a division can be done by a product with a reciprocal that is
rounded up. A division to some binary digits scales the remainder up and the divisor down before
each of its rounds.
-/

namespace Ns3.Library

theorem mul_div_radix (radix a b : Nat) (positive : 0 < radix) :
    a * b / radix = a / radix * (b / radix) * radix +
      (a % radix * (b / radix) + a / radix * (b % radix)) + a % radix * (b % radix) / radix := by
  have product : a * b = a % radix * (b % radix) + radix * (a / radix * (b / radix) * radix +
      (a % radix * (b / radix) + a / radix * (b % radix))) := by
    calc a * b = (radix * (a / radix) + a % radix) * (radix * (b / radix) + b % radix) := by
          rw [Nat.div_add_mod, Nat.div_add_mod]
      _ = _ := by ring
  rw [product, Nat.add_mul_div_left _ _ positive, Nat.add_comm]

section Reciprocal

variable {scale divisor reciprocal numerator : Nat}

/-- A product with a reciprocal that is rounded up is an exact quotient, as long as the error of
the reciprocal does not add up to a whole. -/
theorem mul_reciprocal_div (positive : 0 < divisor) (covers : scale ≤ divisor * reciprocal)
    (close : numerator * (divisor * reciprocal - scale) < scale) :
    numerator * reciprocal / scale = numerator / divisor := by
  have below : numerator / divisor * divisor ≤ numerator := Nat.div_mul_le_self numerator divisor
  have above : numerator + 1 ≤ (numerator / divisor + 1) * divisor := by
    have := Nat.lt_mul_div_succ numerator positive
    rwa [Nat.mul_comm] at this
  apply Nat.div_eq_of_lt_le
  · calc numerator / divisor * scale ≤ numerator / divisor * (divisor * reciprocal) :=
          Nat.mul_le_mul_left _ covers
      _ = numerator / divisor * divisor * reciprocal := (Nat.mul_assoc _ _ _).symm
      _ ≤ numerator * reciprocal := Nat.mul_le_mul_right _ below
  · apply Nat.lt_of_mul_lt_mul_left (a := divisor)
    calc divisor * (numerator * reciprocal)
        = numerator * scale + numerator * (divisor * reciprocal - scale) := by
          rw [← Nat.mul_add, Nat.add_sub_cancel' covers]
          ring
      _ < numerator * scale + scale := Nat.add_lt_add_left close _
      _ = (numerator + 1) * scale := (Nat.succ_mul _ _).symm
      _ ≤ (numerator / divisor + 1) * divisor * scale := Nat.mul_le_mul_right _ above
      _ = divisor * ((numerator / divisor).succ * scale) := by
          rw [Nat.succ_eq_add_one]
          ring

end Reciprocal

section Scaling

/-- A division of `a` by `b` in progress. Its quotient has some digits after the point, and since
the last of them the remainder was doubled or the divisor was halved as often as the shift tells.
The divisor was halved to `den`, which divides `b` with the weight as quotient. -/
structure Scaled (a b quotient digits shift rem den weight : Nat) : Prop where
  divisor : den * weight = b
  value : a * 2 ^ (digits + shift) = quotient * b * 2 ^ shift + rem * weight
  small : rem * weight < b * 2 ^ shift

namespace Scaled

variable {a b quotient digits shift rem den weight : Nat}

theorem start (a : Nat) (positive : 0 < b) : Scaled a b (a / b) 0 0 (a % b) b 1 where
  divisor := Nat.mul_one b
  value := by
    have split := Nat.div_add_mod' a b
    simpa using split.symm
  small := by simpa using Nat.mod_lt a positive

theorem double (scaled : Scaled a b quotient digits shift rem den weight) :
    Scaled a b quotient digits (shift + 1) (2 * rem) den weight where
  divisor := scaled.divisor
  value := by
    calc a * 2 ^ (digits + (shift + 1)) = 2 * (a * 2 ^ (digits + shift)) := by ring
      _ = 2 * (quotient * b * 2 ^ shift + rem * weight) := by rw [scaled.value]
      _ = quotient * b * 2 ^ (shift + 1) + 2 * rem * weight := by ring
  small := by
    calc 2 * rem * weight = 2 * (rem * weight) := Nat.mul_assoc 2 rem weight
      _ < 2 * (b * 2 ^ shift) := Nat.mul_lt_mul_of_pos_left scaled.small Nat.zero_lt_two
      _ = b * 2 ^ (shift + 1) := by ring

theorem halve (scaled : Scaled a b quotient digits shift rem (2 * den) weight) :
    Scaled a b quotient digits (shift + 1) rem den (2 * weight) where
  divisor := by rw [← scaled.divisor, ← Nat.mul_assoc, Nat.mul_comm den 2]
  value := by
    calc a * 2 ^ (digits + (shift + 1)) = 2 * (a * 2 ^ (digits + shift)) := by ring
      _ = 2 * (quotient * b * 2 ^ shift + rem * weight) := by rw [scaled.value]
      _ = quotient * b * 2 ^ (shift + 1) + rem * (2 * weight) := by ring
  small := by
    calc rem * (2 * weight) = 2 * (rem * weight) := Nat.mul_left_comm rem 2 weight
      _ < 2 * (b * 2 ^ shift) := Nat.mul_lt_mul_of_pos_left scaled.small Nat.zero_lt_two
      _ = b * 2 ^ (shift + 1) := by ring

/-- A round divides the scaled remainder by the scaled divisor. -/
theorem divide (scaled : Scaled a b quotient digits shift rem den weight) (positive : 0 < b) :
    Scaled a b (quotient * 2 ^ shift + rem / den) (digits + shift) 0 (rem % den) den weight where
  divisor := scaled.divisor
  value := by
    have split := Nat.div_add_mod rem den
    calc a * 2 ^ (digits + shift + 0) = quotient * b * 2 ^ shift + rem * weight := scaled.value
      _ = quotient * b * 2 ^ shift + (den * (rem / den) + rem % den) * weight := by rw [split]
      _ = quotient * b * 2 ^ shift + rem / den * (den * weight) + rem % den * weight := by ring
      _ = (quotient * 2 ^ shift + rem / den) * b * 2 ^ 0 + rem % den * weight := by
          rw [scaled.divisor]
          ring
  small := by
    have nonzero : 0 < den * weight := scaled.divisor.symm ▸ positive
    calc rem % den * weight < den * weight :=
          Nat.mul_lt_mul_of_pos_right (Nat.mod_lt rem (Nat.pos_of_mul_pos_right nonzero))
            (Nat.pos_of_mul_pos_left nonzero)
      _ = b * 2 ^ 0 := by rw [scaled.divisor, Nat.pow_zero, Nat.mul_one]

/-- Between two rounds the quotient has all the digits so far. -/
theorem quotient_eq (scaled : Scaled a b quotient digits 0 rem den weight) :
    quotient = a * 2 ^ digits / b := by
  have value : a * 2 ^ digits = quotient * b + rem * weight := by simpa using scaled.value
  have small : rem * weight < b := by simpa using scaled.small
  symm
  apply Nat.div_eq_of_lt_le
  · exact value ▸ Nat.le_add_right _ _
  · calc a * 2 ^ digits = quotient * b + rem * weight := value
      _ < quotient * b + b := Nat.add_lt_add_left small _
      _ = quotient.succ * b := (Nat.succ_mul quotient b).symm

/-- Without a remainder the digits that are left are zeros. -/
theorem quotient_of_exact (scaled : Scaled a b quotient digits shift 0 den weight)
    (positive : 0 < b) (rest : Nat) : quotient * 2 ^ rest = a * 2 ^ (digits + rest) / b := by
  have value : a * 2 ^ digits * 2 ^ shift = quotient * b * 2 ^ shift := by
    have value := scaled.value
    rwa [Nat.zero_mul, Nat.add_zero, Nat.pow_add, ← Nat.mul_assoc] at value
  have exact : a * 2 ^ digits = quotient * b :=
    Nat.eq_of_mul_eq_mul_right (Nat.two_pow_pos shift) value
  have product : a * 2 ^ (digits + rest) = quotient * 2 ^ rest * b := by
    rw [Nat.pow_add, ← Nat.mul_assoc, exact, Nat.mul_right_comm]
  rw [product, Nat.mul_div_cancel _ positive]

end Scaled

end Scaling

end Ns3.Library
