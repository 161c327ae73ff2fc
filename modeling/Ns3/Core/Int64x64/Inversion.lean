import Ns3.Core.Int64x64.Division
import Ns3.Core.Int64x64.Multiplication

/-!
Division by the product with an inverse.

The inverse of an integer is a fraction of 128 bits, which an `Int64x64` holds without a point. It
is rounded up, so that the product with an integer is exact as long as its error does not add up
to a whole.
-/

namespace Ns3.Core.Int64x64

open Library

/-- An integer as a number. -/
def ofInteger (v : Int) : Int64x64 := ofWord (v <<< (64 : Nat))

/-- The bits of a number as an unsigned word. -/
def word (n : Int64x64) : Nat := wrapInt 128 n.v

/-- Multiply a magnitude by an inverse. The product of the low parts is left out. -/
def umulByInvert (a b : Nat) : Nat :=
  let ah := a >>> 64
  let bh := b >>> 64
  let al := a &&& hpMaskLo
  let bl := b &&& hpMaskLo
  let hi := wrap 128 (ah * bh)
  let mid := wrap 128 (wrap 128 (ah * bl) + wrap 128 (al * bh))
  wrap 128 (hi + mid >>> 64)

def mulByInvert (self o : Int64x64) : Int64x64 :=
  withSign (decide (self.v < 0)) (umulByInvert self.magnitude o.word)

/-- The inverse of an integer. It is corrected if the trial product is not one. -/
def invert (v : Nat) : Option Int64x64 :=
  -- The assertion.
  if 1 < v then
    match udiv (1 <<< 64) v with
    | .returned quotient =>
        let result := ofWord quotient
        let tmp := (ofParts (signed 64 v) 0).mulByInvert result
        some (if tmp.getHigh ≠ 1 then ofWord (result.v + 1) else result)
    | _ => none
  else none

variable {m v reciprocal : Nat}

/-- For an integer nothing is left out of the product. -/
theorem umulByInvert_eq (mSmall : m ≤ 2 ^ 63) (small : reciprocal ≤ 2 ^ 127) :
    umulByInvert (m * 2 ^ 64) reciprocal = m * reciprocal / 2 ^ 64 := by
  have high : m * (reciprocal / 2 ^ 64) ≤ 2 ^ 63 * 2 ^ 63 := Nat.mul_le_mul mSmall (by omega)
  have low : m * (reciprocal % 2 ^ 64) ≤ 2 ^ 63 * 2 ^ 64 := Nat.mul_le_mul mSmall (by omega)
  have split : m * reciprocal / 2 ^ 64 =
      m * (reciprocal / 2 ^ 64) + m * (reciprocal % 2 ^ 64) / 2 ^ 64 := by
    calc m * reciprocal / 2 ^ 64
        = m * (2 ^ 64 * (reciprocal / 2 ^ 64) + reciprocal % 2 ^ 64) / 2 ^ 64 := by
          rw [Nat.div_add_mod]
      _ = (2 ^ 64 * (m * (reciprocal / 2 ^ 64)) + m * (reciprocal % 2 ^ 64)) / 2 ^ 64 := by
          rw [Nat.mul_add, Nat.mul_left_comm]
      _ = _ := Nat.mul_add_div (by decide) _ _
  have ah : m * 2 ^ 64 / 2 ^ 64 = m := Nat.mul_div_cancel m (by decide)
  have al : m * 2 ^ 64 % 2 ^ 64 = 0 := Nat.mul_mod_left m _
  unfold umulByInvert
  simp only [and_hpMaskLo, Nat.shiftRight_eq_div_pow]
  rw [ah, al, split, Nat.zero_mul]
  generalize m * (reciprocal / 2 ^ 64) = hi at *
  generalize m * (reciprocal % 2 ^ 64) = mid at *
  unfold wrap
  omega

theorem wrapInt_signed (bits : Nat) (n : Int) : wrapInt bits (signed bits n) = wrapInt bits n := by
  have size : ((2 ^ bits : Nat) : Int) = 2 ^ bits := Int.natCast_pow 2 bits
  rw [wrapInt, wrapInt, signed, ← size, Int.bmod_emod]

theorem signed_wrapInt (bits : Nat) (n : Int) : signed bits (wrapInt bits n) = signed bits n := by
  have size : ((2 ^ bits : Nat) : Int) = 2 ^ bits := Int.natCast_pow 2 bits
  have nonneg : 0 ≤ n % 2 ^ bits := Int.emod_nonneg n (Int.pow_pos (by decide)).ne'
  apply signed_congr
  rw [wrapInt, Int.toNat_of_nonneg nonneg, size, Int.emod_emod]

theorem word_ofWord {n : Nat} (fits : n < 2 ^ 128) : (ofWord n).word = n := by
  rw [word, ofWord, wrapInt_signed, wrapInt_natCast, wrap_of_lt fits]

theorem ofWord_v_of_isSigned {n : Int} (fits : IsSigned 128 n) : (ofWord n).v = n :=
  signed_of_isSigned (by decide) fits

theorem ofInteger_v {n : Int} (fits : IsSigned 64 n) : (ofInteger n).v = n * 2 ^ 64 := by
  obtain ⟨low, high⟩ := fits
  rw [ofInteger, Int.shiftLeft_eq]
  apply ofWord_v_of_isSigned
  unfold IsSigned
  omega

theorem magnitude_ofInteger {n : Int} (fits : IsSigned 64 n) :
    (ofInteger n).magnitude = n.natAbs * 2 ^ 64 := by
  rw [magnitude_eq, ofInteger_v fits, Int.natAbs_mul]
  rfl

/-- The product of an integer with an inverse. -/
theorem mulByInvert_ofInteger {n : Int} (fits : IsSigned 64 n) {inverse : Int64x64}
    (small : inverse.word ≤ 2 ^ 127) :
    ((ofInteger n).mulByInvert inverse).v = n.sign * (n.natAbs * inverse.word / 2 ^ 64 : Nat) := by
  have magnitude : n.natAbs ≤ 2 ^ 63 := by
    obtain ⟨low, high⟩ := fits
    omega
  have below : n.natAbs * inverse.word / 2 ^ 64 ≤ 2 ^ 126 :=
    Nat.div_le_of_le_mul ((Nat.mul_le_mul magnitude small).trans (by decide))
  have sign : decide ((ofInteger n).v < 0) = decide (n < 0) := by
    rw [ofInteger_v fits]
    apply decide_eq_decide.mpr
    omega
  rw [mulByInvert, magnitude_ofInteger fits, umulByInvert_eq magnitude small, sign]
  have none : n = 0 → n.natAbs * inverse.word / 2 ^ 64 = 0 := by
    rintro rfl
    simp
  generalize n.natAbs * inverse.word / 2 ^ 64 = product at *
  have signs := withSign_wrap (decide (n < 0)) product
  rw [wrap_of_lt (lt_of_le_of_lt below (by decide))] at signs
  rw [signs]
  rcases lt_trichotomy n 0 with negative | rfl | positive
  · rw [decide_eq_true negative, if_pos rfl, Int.sign_eq_neg_one_of_neg negative,
      ofWord_v_of_isSigned ⟨by omega, by omega⟩]
    omega
  · rw [none rfl]
    rfl
  · rw [decide_eq_false (by omega), if_neg Bool.false_ne_true, Int.sign_eq_one_of_pos positive,
      ofWord_v_of_isSigned ⟨by omega, by omega⟩]
    omega

theorem ofWord_wrapInt (n : Int) : ofWord (wrapInt 128 n) = ofWord n := by
  simp only [ofWord, signed_wrapInt]

theorem ofParts_zero (hi : Int) : ofParts hi 0 = ofInteger hi := by
  rw [ofParts, Nat.or_zero, wrapInt_signed, ofWord_wrapInt, ofInteger]

/-- The integer part of the trial product. -/
theorem getHigh_trial (large : 1 < v) (small : v < 2 ^ 63) (half : reciprocal ≤ 2 ^ 127)
    (below : v * reciprocal ≤ 2 ^ 128) :
    ((ofParts (signed 64 v) 0).mulByInvert (ofWord reciprocal)).getHigh = 1 ↔
      v * reciprocal = 2 ^ 128 := by
  have fits : IsSigned 64 (v : Int) := ⟨by omega, by omega⟩
  have word := word_ofWord (lt_of_le_of_lt half (by decide))
  have product := mulByInvert_ofInteger fits (word.trans_le half)
  rw [word, Int.natAbs_natCast] at product
  rw [signed_of_isSigned (by decide) fits, ofParts_zero, getHigh, product,
    Int.shiftRight_eq_div_pow]
  have positive : (v : Int).sign = 1 := Int.sign_eq_one_of_pos (by omega)
  rw [positive, Int.one_mul]
  generalize v * reciprocal = trial at *
  rw [signed_of_isSigned (by decide) ⟨by omega, by omega⟩]
  omega

/-- The inverse is rounded up: a power of two has an exact one, for which the trial product is
one, and for any other integer the quotient is corrected. -/
theorem invert_spec (large : 1 < v) (small : v < 2 ^ 63) :
    ∃ inverse, invert v = some inverse ∧ inverse.word ≤ 2 ^ 127 ∧ 2 ^ 128 ≤ v * inverse.word ∧
      v * inverse.word < 2 ^ 128 + v := by
  have fits : IsSigned 64 (v : Int) := ⟨by omega, by omega⟩
  have quotient := @udiv_eq (1 <<< 64) v (by decide) (by omega) (by omega)
  have half : 2 ^ 128 / v ≤ 2 ^ 127 := Nat.div_le_of_le_mul (by omega)
  have below : v * (2 ^ 128 / v) ≤ 2 ^ 128 := Nat.mul_div_le _ v
  have above : 2 ^ 128 < v * (2 ^ 128 / v + 1) := Nat.lt_mul_div_succ _ (by omega)
  have product : 1 <<< 64 * 2 ^ 64 = 2 ^ 128 := by decide
  rw [product] at quotient
  generalize 2 ^ 128 / v = reciprocal at *
  have whole : reciprocal < 2 ^ 128 := lt_of_le_of_lt half (by decide)
  rw [wrap_of_lt whole] at quotient
  have inverse : invert v = some (if ((ofParts (signed 64 v) 0).mulByInvert
      (ofWord reciprocal)).getHigh ≠ 1 then ofWord ((ofWord reciprocal).v + 1)
        else ofWord reciprocal) := by
    rw [invert, if_pos large, quotient]
  have trial := getHigh_trial large small half below
  by_cases exact : v * reciprocal = 2 ^ 128
  · rw [if_neg (not_not.mpr (trial.mpr exact))] at inverse
    refine ⟨_, inverse, ?_, ?_, ?_⟩ <;> rw [word_ofWord whole] <;> omega
  · have next : reciprocal + 1 < 2 ^ 128 := by omega
    have corrected : ofWord ((ofWord reciprocal).v + 1) = ofWord (reciprocal + 1 : Nat) := by
      simp only [ofWord, signed, Int.bmod_add_bmod, Nat.cast_add, Nat.cast_one]
    rw [if_pos fun one => exact (trial.mp one), corrected] at inverse
    have twice : 2 * reciprocal ≤ v * reciprocal := Nat.mul_le_mul_right _ large
    have step : v * (reciprocal + 1) = v * reciprocal + v := Nat.mul_succ v reciprocal
    refine ⟨_, inverse, ?_, ?_, ?_⟩ <;> rw [word_ofWord next] <;> omega

theorem sign_mul_tdiv (n : Int) (size d : Nat) :
    (n.sign * size).tdiv d = n.sign * (size / d : Nat) := by
  rcases lt_trichotomy n 0 with negative | rfl | positive
  · rw [Int.sign_eq_neg_one_of_neg negative, Int.neg_one_mul, Int.neg_one_mul, Int.neg_tdiv]
    rfl
  · simp
  · rw [Int.sign_eq_one_of_pos positive, Int.one_mul, Int.one_mul]
    rfl

theorem tdiv_natCast (n : Int) (d : Nat) : n.tdiv d = n.sign * (n.natAbs / d : Nat) := by
  rw [← sign_mul_tdiv, Int.sign_mul_natAbs]

/-- The integer part is cut off towards zero. -/
theorem getInt_eq (n : Int64x64) : n.getInt = n.v.tdiv (2 ^ 64 : Nat) := by
  have small := n.natAbs_le
  rw [tdiv_natCast]
  unfold getInt
  rw [magnitude_eq, Nat.shiftRight_eq_div_pow]
  rcases lt_trichotomy n.v 0 with negative | zero | positive
  · rw [if_pos negative, Int.sign_eq_neg_one_of_neg negative, Int.neg_one_mul]
    unfold signed
    rw [Int.bmod_def, Int.bmod_def]
    omega
  · rw [zero]
    rfl
  · rw [if_neg (by omega), Int.sign_eq_one_of_pos positive, Int.one_mul]
    obtain ⟨low, high⟩ := n.fits
    exact signed_of_isSigned (by decide) ⟨by omega, by omega⟩

/-- The integer part of the product with an inverse is the quotient of the integers. -/
theorem getInt_mulByInvert {inverse : Int64x64} {n : Int} (fits : IsSigned 64 n) (large : 1 < v)
    (small : v < 2 ^ 63) (inverts : invert v = some inverse) :
    ((ofInteger n).mulByInvert inverse).getInt = n.tdiv v := by
  obtain ⟨other, same, half, covers, close⟩ := invert_spec large small
  obtain rfl := Option.some.inj (inverts.symm.trans same)
  have magnitude : n.natAbs ≤ 2 ^ 63 := by
    obtain ⟨low, high⟩ := fits
    omega
  have error : n.natAbs * (v * inverse.word - 2 ^ 128) < 2 ^ 128 := by
    have below : v * inverse.word - 2 ^ 128 ≤ 2 ^ 63 := by omega
    exact lt_of_le_of_lt (Nat.mul_le_mul magnitude below) (by decide)
  have quotient := mul_reciprocal_div (by omega) covers error
  have product := mulByInvert_ofInteger fits half
  have integer : n.natAbs * inverse.word / 2 ^ 64 / 2 ^ 64 = n.natAbs / v := by
    rw [Nat.div_div_eq_div_mul, ← quotient]
    rfl
  rw [getInt_eq, product, sign_mul_tdiv, integer, tdiv_natCast]

end Ns3.Core.Int64x64
