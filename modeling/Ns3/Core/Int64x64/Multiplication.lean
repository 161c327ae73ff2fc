import Ns3.Core.Int64x64.Kernel
import Ns3.Core.Int64x64.Wideint
import Ns3.Library.FixedPoint

/-!
The product of two numbers.

The magnitudes are multiplied in four parts. A product that does not fit should stop the program,
but the mask of that test is zero. The cairo implementation does the same with wide integers, and
its test works.
-/

namespace Ns3.Core

open Library

namespace Int64x64

/-- Multiply two magnitudes, or stop the program. -/
def umul (a b : Nat) : Option Nat :=
  let aL := a &&& hpMaskLo
  let bL := b &&& hpMaskLo
  let aH := a >>> 64 &&& hpMaskLo
  let bH := b >>> 64 &&& hpMaskLo
  let loPart := wrap 128 (aL * bL)
  let midPart := wrap 128 (wrap 128 (aL * bH) + wrap 128 (aH * bL))
  let hiPart := wrap 128 (aH * bH)
  if hiPart &&& hpMaskHi ≠ 0 then none else
    let result := wrap 128 ((loPart >>> 64) + (midPart &&& hpMaskLo))
    let res1 := wrap 128 ((midPart >>> 64) + (hiPart &&& hpMaskLo))
    some (wrap 128 (result + wrap 128 (res1 <<< 64)))

/-- `operator *=`. -/
def mul (self o : Int64x64) : Option Int64x64 :=
  let (negative, a, b) := outputSign self o
  (umul a b).map (withSign negative)

/-- The wide integer that holds a number. -/
def toCairo (n : Int64x64) : Uint128 := .ofValue (wrapInt 128 n.v)

end Int64x64

namespace Wideint

/-- `output_sign` of the cairo implementation. -/
def outputSign (wide : Wideint) (sa sb : Uint128) : Bool × Uint128 × Uint128 :=
  let negA := wide.negative sa
  let negB := wide.negative sb
  ((negA && !negB) || (!negA && negB),
    if negA then wide.negate sa else sa, if negB then wide.negate sb else sb)

/-- `Umul` of the cairo implementation. -/
def umul (wide : Wideint) (a b : Uint128) : Option Uint128 :=
  let loPart := wide.mul64 a.lo b.lo
  let midPart := wide.add (wide.mul64 a.lo b.hi) (wide.mul64 a.hi b.lo)
  let hiPart := wide.mul64 a.hi b.hi
  if hiPart.hi ≠ 0 then none else
    let result := wide.add (wide.ofUint64 loPart.hi) (wide.ofUint64 midPart.lo)
    let res1 := wide.add (wide.ofUint64 midPart.hi) (wide.ofUint64 hiPart.lo)
    some (wide.add result (wide.lsl res1 64))

/-- `Mul` of the cairo implementation. -/
def mul (wide : Wideint) (self o : Uint128) : Option Uint128 :=
  let (sign, a, b) := wide.outputSign self o
  (wide.umul a b).map fun result => if sign then wide.negate result else result

end Wideint

namespace Int64x64

/-- The middle part of the product fits, since one operand is at most half of a word. -/
theorem midPart_lt {aL aH bL bH : Nat} (aLow : aL < 2 ^ 64) (bLow : bL < 2 ^ 64)
    (aHigh : aH ≤ 2 ^ 63) (bHigh : bH ≤ 2 ^ 63) : aL * bH + aH * bL < 2 ^ 128 := by
  have left : aL * bH ≤ (2 ^ 64 - 1) * 2 ^ 63 := Nat.mul_le_mul (by omega) bHigh
  have right : aH * bL ≤ 2 ^ 63 * (2 ^ 64 - 1) := Nat.mul_le_mul aHigh (by omega)
  omega

/-- Adding the parts with their carries. -/
theorem addParts (lo mid hi : Nat) :
    wrap 128 (wrap 128 (lo / 2 ^ 64 + mid % 2 ^ 64) +
      wrap 128 (wrap 128 (mid / 2 ^ 64 + hi % 2 ^ 64) * 2 ^ 64)) =
        wrap 128 (hi * 2 ^ 64 + mid + lo / 2 ^ 64) := by
  unfold wrap
  omega

theorem umul_eq {a b : Nat} (aSmall : a ≤ 2 ^ 127) (bSmall : b ≤ 2 ^ 127) :
    umul a b = some (wrap 128 (a * b / 2 ^ 64)) := by
  have aHigh : a / 2 ^ 64 ≤ 2 ^ 63 := by omega
  have bHigh : b / 2 ^ 64 ≤ 2 ^ 63 := by omega
  have aLow : a % 2 ^ 64 < 2 ^ 64 := Nat.mod_lt _ (by decide)
  have bLow : b % 2 ^ 64 < 2 ^ 64 := Nat.mod_lt _ (by decide)
  have lo : a % 2 ^ 64 * (b % 2 ^ 64) < 2 ^ 128 :=
    lt_of_lt_of_le (Nat.mul_lt_mul'' aLow bLow) (by decide)
  have mid := midPart_lt aLow bLow aHigh bHigh
  have hi : a / 2 ^ 64 * (b / 2 ^ 64) < 2 ^ 128 :=
    lt_of_le_of_lt (Nat.mul_le_mul aHigh bHigh) (by decide)
  have aShift : a / 2 ^ 64 % 2 ^ 64 = a / 2 ^ 64 := Nat.mod_eq_of_lt (by omega)
  have bShift : b / 2 ^ 64 % 2 ^ 64 = b / 2 ^ 64 := Nat.mod_eq_of_lt (by omega)
  simp only [umul, and_hpMaskLo, and_hpMaskHi, Nat.shiftRight_eq_div_pow, Nat.shiftLeft_eq,
    aShift, bShift, ne_eq, not_true_eq_false, if_false]
  rw [mul_div_radix (2 ^ 64) a b (by decide)]
  generalize a % 2 ^ 64 * (b % 2 ^ 64) = low at *
  generalize a / 2 ^ 64 * (b / 2 ^ 64) = high at *
  rw [wrap_of_lt lo, wrap_of_lt hi, wrap_of_lt (lt_of_le_of_lt (Nat.le_add_right _ _) mid),
    wrap_of_lt (lt_of_le_of_lt (Nat.le_add_left _ _) mid), wrap_of_lt mid, addParts]

/-- The exact product, with its fraction cut off towards zero. -/
def exactProduct (a b : Int64x64) : Int :=
  (a.v * b.v).sign * (a.v.natAbs * b.v.natAbs / 2 ^ 64 : Nat)

theorem exactProduct_eq (a b : Int64x64) :
    exactProduct a b = if (outputSign a b).1 then
      -((a.v.natAbs * b.v.natAbs / 2 ^ 64 : Nat) : Int)
    else (a.v.natAbs * b.v.natAbs / 2 ^ 64 : Nat) := by
  have none : a.v = 0 ∨ b.v = 0 → a.v.natAbs * b.v.natAbs / 2 ^ 64 = 0 := by
    rintro (zero | zero) <;> simp [zero]
  unfold exactProduct outputSign
  rw [Int.sign_mul]
  generalize a.v.natAbs * b.v.natAbs / 2 ^ 64 = product at *
  rcases lt_trichotomy a.v 0 with aSign | aSign | aSign
  · rcases lt_trichotomy b.v 0 with bSign | bSign | bSign
    · simp [aSign, bSign, Int.sign_eq_neg_one_of_neg]
    · simp [none (.inr bSign)]
    · simp [aSign, bSign.le, Int.sign_eq_neg_one_of_neg, Int.sign_eq_one_of_pos, bSign]
  · simp [none (.inl aSign)]
  · rcases lt_trichotomy b.v 0 with bSign | bSign | bSign
    · simp [aSign, aSign.le, bSign, Int.sign_eq_neg_one_of_neg, Int.sign_eq_one_of_pos]
    · simp [none (.inr bSign)]
    · simp [aSign, aSign.le, bSign.le, Int.sign_eq_one_of_pos, bSign]

theorem withSign_wrap (negative : Bool) (result : Nat) :
    withSign negative (wrap 128 result) =
      ofWord (if negative then -(result : Int) else result) := by
  apply ext
  apply signed_congr
  unfold wrapSub wrap
  cases negative with
  | false =>
      simp only [Bool.false_eq_true, if_false]
      omega
  | true =>
      simp only [if_true]
      omega

theorem mul_eq (a b : Int64x64) : a.mul b = some (ofWord (exactProduct a b)) := by
  have product := umul_eq a.magnitude_le b.magnitude_le
  rw [a.magnitude_eq, b.magnitude_eq] at product
  rw [exactProduct_eq, ← withSign_wrap, mul, outputSign]
  dsimp only
  rw [a.magnitude_eq, b.magnitude_eq, product]
  rfl

/-- The product is a number of 128 bits: there is one more negative number than positive ones. -/
def ProductFits (a b : Int64x64) : Prop :=
  a.v.natAbs * b.v.natAbs < 2 ^ 191 ∨
    ¬ (a.v < 0 ↔ b.v < 0) ∧ a.v.natAbs * b.v.natAbs < 2 ^ 191 + 2 ^ 64

theorem productFits_iff (a b : Int64x64) : ProductFits a b ↔ IsSigned 128 (exactProduct a b) := by
  have sign : (outputSign a b).1 = true ↔ ¬ (a.v < 0 ↔ b.v < 0) := by
    unfold outputSign
    by_cases aSign : a.v < 0 <;> by_cases bSign : b.v < 0 <;> simp [aSign, bSign]
  rw [exactProduct_eq, ProductFits, ← sign]
  generalize a.v.natAbs * b.v.natAbs = product
  unfold IsSigned
  cases (outputSign a b).1 with
  | false =>
      simp only [Bool.false_eq_true, if_false, false_and, or_false]
      omega
  | true =>
      simp only [if_true, true_and]
      omega

end Int64x64

namespace Wideint

variable {wide : Wideint} {a b : Int64x64}

theorem Exact.negative_toCairo (exact : wide.Exact) (a : Int64x64) :
    wide.negative a.toCairo = decide (a.v < 0) := by
  have window := a.fits
  have value : a.toCairo.value = wrapInt 128 a.v := by
    rw [Int64x64.toCairo, Uint128.value_ofValue, wrap_of_lt (wrapInt_lt 128 a.v)]
  apply Bool.eq_iff_iff.mpr
  rw [exact.negative, value, decide_eq_true_eq, wrapInt]
  obtain ⟨low, high⟩ := window
  omega

theorem Exact.magnitude_toCairo (exact : wide.Exact) (a : Int64x64) :
    (if wide.negative a.toCairo then wide.negate a.toCairo else a.toCairo).value =
      a.v.natAbs := by
  obtain ⟨low, high⟩ := a.fits
  have value : a.toCairo.value = wrapInt 128 a.v := by
    rw [Int64x64.toCairo, Uint128.value_ofValue, wrap_of_lt (wrapInt_lt 128 a.v)]
  rw [exact.negative_toCairo]
  by_cases negative : a.v < 0
  · rw [if_pos (decide_eq_true negative), exact.negate, value, wrapSub, wrapInt]
    omega
  · rw [if_neg (by simpa using negative), value, wrapInt]
    omega

/-- The high words of the operands multiply to more than a word, or the parts are added. -/
theorem Exact.umul_eq (exact : wide.Exact) {a b : Uint128} (aSmall : a.value ≤ 2 ^ 127)
    (bSmall : b.value ≤ 2 ^ 127) :
    wide.umul a b = if a.hi * b.hi < 2 ^ 64 then some (.ofValue (a.value * b.value / 2 ^ 64))
      else none := by
  have aHigh : a.hi ≤ 2 ^ 63 := by rw [a.hi_eq]; omega
  have bHigh : b.hi ≤ 2 ^ 63 := by rw [b.hi_eq]; omega
  have mid := Int64x64.midPart_lt a.loFits b.loFits aHigh bHigh
  have loValue := exact.mul64 a.lo b.lo a.loFits b.loFits
  have leftValue := exact.mul64 a.lo b.hi a.loFits b.hiFits
  have rightValue := exact.mul64 a.hi b.lo a.hiFits b.loFits
  have hiValue := exact.mul64 a.hi b.hi a.hiFits b.hiFits
  have midValue := exact.add (wide.mul64 a.lo b.hi) (wide.mul64 a.hi b.lo)
  rw [leftValue, rightValue, wrap_of_lt mid] at midValue
  have product := mul_div_radix (2 ^ 64) a.value b.value (by decide)
  rw [← a.hi_eq, ← b.hi_eq, ← a.lo_eq, ← b.lo_eq, ← loValue, ← hiValue, ← midValue] at product
  unfold umul
  generalize wide.mul64 a.lo b.lo = loPart at *
  generalize wide.mul64 a.hi b.hi = hiPart at *
  generalize wide.add (wide.mul64 a.lo b.hi) (wide.mul64 a.hi b.lo) = midPart at *
  rw [← hiValue]
  by_cases small : hiPart.value < 2 ^ 64
  · have none : hiPart.hi = 0 := by rw [hiPart.hi_eq]; omega
    rw [if_neg (not_not.mpr none), if_pos small]
    apply congrArg some
    apply Uint128.value_injective
    rw [exact.add, exact.add, exact.lsl _ 64 (by decide), exact.add,
      exact.ofUint64 _ loPart.hiFits, exact.ofUint64 _ midPart.loFits,
      exact.ofUint64 _ midPart.hiFits, exact.ofUint64 _ hiPart.loFits, Uint128.value_ofValue,
      product, loPart.hi_eq, midPart.hi_eq, midPart.lo_eq, hiPart.lo_eq, Nat.shiftLeft_eq]
    exact Int64x64.addParts _ _ _
  · have some : hiPart.hi ≠ 0 := by rw [hiPart.hi_eq]; omega
    rw [if_pos some, if_neg small]

theorem Exact.withSign_toCairo (exact : wide.Exact) (sign : Bool) (result : Nat) :
    (if sign then wide.negate (.ofValue result) else .ofValue result) =
      (Int64x64.ofWord (if sign then -(result : Int) else result)).toCairo := by
  apply Uint128.value_injective
  have value : ∀ n : Int, (Int64x64.ofWord n).toCairo.value = wrapInt 128 n := by
    intro n
    rw [Int64x64.toCairo, Uint128.value_ofValue, wrap_of_lt (wrapInt_lt 128 _), wrapInt, wrapInt]
    exact congrArg Int.toNat Int.bmod_emod
  rw [value]
  cases sign with
  | false =>
      rw [if_neg Bool.false_ne_true, if_neg Bool.false_ne_true, Uint128.value_ofValue,
        wrapInt_natCast]
  | true =>
      rw [if_pos rfl, if_pos rfl, exact.negate, Uint128.value_ofValue, wrapSub, wrapInt, wrap]
      omega

theorem Exact.mul_eq (exact : wide.Exact) (a b : Int64x64) :
    wide.mul a.toCairo b.toCairo =
      if a.v.natAbs / 2 ^ 64 * (b.v.natAbs / 2 ^ 64) < 2 ^ 64 then
        some (Int64x64.ofWord (Int64x64.exactProduct a b)).toCairo
      else none := by
  have aValue := exact.magnitude_toCairo a
  have bValue := exact.magnitude_toCairo b
  have product := exact.umul_eq (aValue.trans_le a.natAbs_le) (bValue.trans_le b.natAbs_le)
  rw [Uint128.hi_eq, Uint128.hi_eq, aValue, bValue] at product
  have sign : (wide.outputSign a.toCairo b.toCairo).1 = (Int64x64.outputSign a b).1 := by
    unfold outputSign Int64x64.outputSign
    rw [exact.negative_toCairo, exact.negative_toCairo]
  unfold mul
  change (wide.umul (if wide.negative a.toCairo then wide.negate a.toCairo else a.toCairo)
    (if wide.negative b.toCairo then wide.negate b.toCairo else b.toCairo)).map (fun result =>
      if (wide.outputSign a.toCairo b.toCairo).1 then wide.negate result else result) = _
  rw [product, sign, Int64x64.exactProduct_eq, ← exact.withSign_toCairo,
    apply_ite (Option.map _)]
  rfl

end Wideint

namespace Int64x64

/-- The product is exact or stops the program, and both implementations agree on it. -/
structure Multiplies (wide : Wideint) (a b : Int64x64) : Prop where
  exact : ∀ result, a.mul b = some result → result.v = exactProduct a b
  agrees : ∀ result, a.mul b = some result →
    wide.mul a.toCairo b.toCairo = some result.toCairo
  aborts : a.mul b = none ↔ wide.mul a.toCairo b.toCairo = none

theorem ProductFits.high_lt {a b : Int64x64} (fits : ProductFits a b) :
    a.v.natAbs / 2 ^ 64 * (b.v.natAbs / 2 ^ 64) < 2 ^ 64 := by
  have small : a.v.natAbs * b.v.natAbs < 2 ^ 192 := by
    rcases fits with small | ⟨_, small⟩
    · exact small.trans (by decide)
    · exact small.trans (by decide)
  have split := mul_div_radix (2 ^ 64) a.v.natAbs b.v.natAbs (by decide)
  generalize a.v.natAbs / 2 ^ 64 * (b.v.natAbs / 2 ^ 64) = high at *
  omega

theorem multiplies_iff {wide : Wideint} (exact : wide.Exact) (a b : Int64x64) :
    Multiplies wide a b ↔ ProductFits a b := by
  constructor
  · intro multiplies
    have same := multiplies.exact _ (mul_eq a b)
    rw [productFits_iff, ← same]
    exact (ofWord (exactProduct a b)).fits
  · intro fits
    have signedFits := (productFits_iff a b).mp fits
    have returned := exact.mul_eq a b
    rw [if_pos fits.high_lt] at returned
    refine ⟨fun result multiplied => ?_, fun result multiplied => ?_, ?_⟩
    · rw [mul_eq] at multiplied
      obtain rfl := Option.some.inj multiplied
      exact signed_of_isSigned (by decide) signedFits
    · rw [mul_eq] at multiplied
      obtain rfl := Option.some.inj multiplied
      exact returned
    · rw [mul_eq, returned]
      constructor
      · rintro ⟨⟩
      · rintro ⟨⟩

/-- The number `2 ^ 32` times itself should be `2 ^ 64`, which does not fit: the cairo
implementation stops, but the product is zero. -/
theorem not_multiplies : ¬ Multiplies wordWideint (ofWord (2 ^ 96)) (ofWord (2 ^ 96)) := by
  intro multiplies
  have zero := multiplies.exact (ofWord 0) (by decide)
  revert zero
  decide

/-- A half times minus three. -/
theorem multiplies_half :
    ProductFits (ofWord (2 ^ 63)) (ofWord (-3 * 2 ^ 64)) ∧
      Multiplies wordWideint (ofWord (2 ^ 63)) (ofWord (-3 * 2 ^ 64)) := by
  have fits : ProductFits (ofWord (2 ^ 63)) (ofWord (-3 * 2 ^ 64)) := .inl (by decide)
  exact ⟨fits, (multiplies_iff wordWideint_exact _ _).mpr fits⟩

end Int64x64

end Ns3.Core
