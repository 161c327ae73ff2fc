import Ns3.Core.Time

/-!
The resolution of `Time`.

Setting the resolution computes the record of every unit. The ratio of two units is a power of ten
times the quotient of their coefficients. It is computed with floating-point numbers, which are
exact for these values, and cast to a signed word of 64 bits, which is undefined for a ratio that
does not fit.
-/

namespace Ns3.Core.Time

open Library

inductive Unit
  | y | d | h | min | s | ms | us | ns | ps | fs
  deriving DecidableEq, Repr

/-- Scaling exponent, relative to the smallest unit. -/
def unitPower : Unit → Nat
  | .y => 17
  | .d => 17
  | .h => 17
  | .min => 16
  | .s => 15
  | .ms => 12
  | .us => 9
  | .ns => 6
  | .ps => 3
  | .fs => 0

/-- Scaling coefficient, relative to the smallest unit. -/
def unitCoeff : Unit → Nat
  | .y => 315360
  | .d => 864
  | .h => 36
  | .min => 6
  | .s => 1
  | .ms => 1
  | .us => 1
  | .ns => 1
  | .ps => 1
  | .fs => 1

/-- The value of a unit in terms of the smallest unit. -/
def unitValue (u : Unit) : Nat := unitCoeff u * 10 ^ unitPower u

/-- The cast of a natural number to a signed word of 64 bits. -/
def castInt64 (undefined : Int) (n : Nat) : Int := if n < 2 ^ 63 then n else undefined

def shift (unit i : Unit) : Int := unitPower i - unitPower unit

def quotient (unit i : Unit) : Nat :=
  if unitCoeff unit < unitCoeff i then unitCoeff i / unitCoeff unit
  else if unitCoeff i < unitCoeff unit then unitCoeff unit / unitCoeff i
  else 1

/-- The assertion about the quotient. -/
def IsExact (unit i : Unit) : Prop :=
  if unitCoeff unit < unitCoeff i then quotient unit i * unitCoeff unit = unitCoeff i
  else if unitCoeff i < unitCoeff unit then quotient unit i * unitCoeff i = unitCoeff unit
  else True

instance (unit i : Unit) : Decidable (IsExact unit i) := by
  unfold IsExact
  infer_instance

/-- `pow (10, fabs (shift)) * quotient` -/
def ratio (unit i : Unit) : Nat := 10 ^ (shift unit i).natAbs * quotient unit i

/-- The real factor as a fraction. -/
def realFactor (unit i : Unit) : Nat × Nat :=
  (10 ^ (shift unit i).toNat * unitCoeff i, 10 ^ (-shift unit i).toNat * unitCoeff unit)

/-- The record of a unit for a resolution, if no assertion fails. -/
def setInformation (undefined : Int) (unit i : Unit) : Option Information :=
  if IsExact unit i then
    let factor := castInt64 undefined (ratio unit i)
    if shift unit i = 0 ∧ quotient unit i = 1 then
      some ⟨true, true, factor, .ofInteger 1, .ofInteger 1⟩
    else if (realFactor unit i).2 < (realFactor unit i).1 then
      (Int64x64.invert (wrapInt 64 factor)).map fun inverse =>
        ⟨false, true, factor, inverse, .ofInteger factor⟩
    else if (realFactor unit i).1 < (realFactor unit i).2 then
      (Int64x64.invert (wrapInt 64 factor)).map fun inverse =>
        ⟨true, false, factor, .ofInteger factor, inverse⟩
    else none
  else none

variable {unit i : Unit}

theorem isExact_all (unit i : Unit) : IsExact unit i := by
  cases unit <;> cases i <;> decide

theorem same_iff (unit i : Unit) : shift unit i = 0 ∧ quotient unit i = 1 ↔ unit = i := by
  cases unit <;> cases i <;> decide

theorem realFactor_lt_iff (unit i : Unit) :
    (realFactor unit i).1 < (realFactor unit i).2 ↔ unitValue i < unitValue unit := by
  cases unit <;> cases i <;> decide

theorem lt_realFactor_iff (unit i : Unit) :
    (realFactor unit i).2 < (realFactor unit i).1 ↔ unitValue unit < unitValue i := by
  cases unit <;> cases i <;> decide

theorem unitValue_pos (u : Unit) : 0 < unitValue u := by
  cases u <;> decide

theorem ratio_self (u : Unit) : ratio u u = 1 := by
  cases u <;> decide

theorem unitValue_of_coarser (coarser : unitValue unit < unitValue i) :
    unitValue i = ratio unit i * unitValue unit := by
  revert coarser
  cases unit <;> cases i <;> decide

theorem unitValue_of_finer (finer : unitValue i < unitValue unit) :
    unitValue unit = ratio unit i * unitValue i := by
  revert finer
  cases unit <;> cases i <;> decide

theorem unitValue_injective (same : unitValue unit = unitValue i) : unit = i := by
  revert same
  cases unit <;> cases i <;> decide

/-- The ratio of the units fits in a signed word of 64 bits. -/
def RatioFits (unit i : Unit) : Prop :=
  unitValue i < 2 ^ 63 * unitValue unit ∧ unitValue unit < 2 ^ 63 * unitValue i

instance (unit i : Unit) : Decidable (RatioFits unit i) := inferInstanceAs (Decidable (_ ∧ _))

/-- The value of a time of one unit in another one, cut off towards zero. -/
def inUnit (unit i : Unit) (data : Int) : Int := (data * unitValue unit).tdiv (unitValue i)

/-- The record converts exactly, wherever the result is a signed word of 64 bits. A negative value
is taken for a large positive one when its unit is finer than the resolution. -/
structure Information.Converts (info : Information) (unit i : Unit) : Prop where
  toInteger : ∀ data, IsSigned 64 (inUnit unit i data) →
    Time.toInteger info data = some (inUnit unit i data)
  fromInteger : ∀ value : Int, value < 2 ^ 64 → 0 ≤ value ∨ unitValue unit ≤ unitValue i →
    IsSigned 64 (inUnit i unit value) →
      Time.fromInteger info (wrapInt 64 value) = some (inUnit i unit value)
  returns : ∀ value, unitValue unit ≤ unitValue i → IsSigned 64 (inUnit i unit value) →
    (Time.fromInteger info (wrapInt 64 value)).bind (Time.toInteger info) = some value

theorem inUnit_self (u : Unit) (data : Int) : inUnit u u data = data := by
  have nonzero : (unitValue u : Int) ≠ 0 := by
    have := unitValue_pos u
    omega
  exact Int.mul_tdiv_cancel data nonzero

/-- From a finer unit. -/
theorem inUnit_of_coarser (coarser : unitValue unit < unitValue i) (data : Int) :
    inUnit unit i data = data.tdiv (ratio unit i) := by
  have positive : (0 : Int) < unitValue unit := by
    have := unitValue_pos unit
    omega
  rw [inUnit, unitValue_of_coarser coarser, Nat.cast_mul]
  exact Int.mul_tdiv_mul_of_pos_left data _ positive

/-- To a finer unit. -/
theorem inUnit_of_finer (finer : unitValue i < unitValue unit) (data : Int) :
    inUnit unit i data = data * ratio unit i := by
  have nonzero : (unitValue i : Int) ≠ 0 := by
    have := unitValue_pos i
    omega
  rw [inUnit, unitValue_of_finer finer, Nat.cast_mul, ← Int.mul_assoc]
  exact Int.mul_tdiv_cancel _ nonzero

theorem RatioFits.lt (fits : RatioFits unit i) : ratio unit i < 2 ^ 63 := by
  obtain ⟨coarse, fine⟩ := fits
  rcases lt_trichotomy (unitValue unit) (unitValue i) with coarser | same | finer
  · rw [unitValue_of_coarser coarser] at coarse
    exact Nat.lt_of_mul_lt_mul_right coarse
  · rw [unitValue_injective same, ratio_self]
    decide
  · rw [unitValue_of_finer finer] at fine
    exact Nat.lt_of_mul_lt_mul_right fine

theorem one_lt_ratio (other : unitValue unit ≠ unitValue i) : 1 < ratio unit i := by
  revert other
  cases unit <;> cases i <;> decide

theorem cast_wrapInt (bits : Nat) (n : Int) : (wrapInt bits n : Int) = n % 2 ^ bits := by
  rw [wrapInt, Int.toNat_of_nonneg]
  exact Int.emod_nonneg n (Int.pow_pos (by decide)).ne'

/-- The product of unsigned words is the one of signed words. -/
theorem signed_wrap_mul (bits : Nat) (a b : Int) :
    signed bits (wrap bits (wrapInt bits a * wrapInt bits b)) = signed bits (a * b) := by
  have size : ((2 ^ bits : Nat) : Int) = 2 ^ bits := Int.natCast_pow 2 bits
  rw [← wrapInt_natCast, Int64x64.signed_wrapInt]
  apply signed_congr
  rw [size, Nat.cast_mul, cast_wrapInt, cast_wrapInt, ← Int.mul_emod]

/-- The record of the resolution itself. -/
theorem converts_self (factor : Int64x64 × Int64x64) (u : Unit) :
    Information.Converts ⟨true, true, 1, factor.1, factor.2⟩ u u where
  toInteger := by
    intro data fits
    rw [inUnit_self] at fits ⊢
    rw [Time.toInteger, if_pos rfl, Int.mul_one, signed_of_isSigned (by decide) fits]
  fromInteger := by
    intro value small nonneg fits
    rw [inUnit_self] at fits ⊢
    rw [Time.fromInteger, if_pos rfl, signed_wrap_mul, Int.mul_one,
      signed_of_isSigned (by decide) fits]
  returns := by
    intro value _ fits
    rw [inUnit_self] at fits
    rw [Time.fromInteger, if_pos rfl, signed_wrap_mul, Int.mul_one,
      signed_of_isSigned (by decide) fits, Option.bind_some, Time.toInteger, if_pos rfl,
      Int.mul_one, signed_of_isSigned (by decide) fits]

theorem isSigned_of_mul {n : Int} {scale : Nat} (positive : 0 < scale)
    (fits : IsSigned 64 (n * scale)) : IsSigned 64 n := by
  have quotient := isSigned_tdiv fits scale
  rwa [Int.mul_tdiv_cancel n (by omega)] at quotient

/-- The record of a coarser unit. -/
theorem converts_coarser (coarser : unitValue unit < unitValue i)
    (inverse multiplier : Int64x64) :
    Information.Converts ⟨false, true, ratio unit i, inverse, multiplier⟩ unit i := by
  have large : 1 < ratio unit i := one_lt_ratio coarser.ne
  have nonzero : (ratio unit i : Int) ≠ 0 := by omega
  have symm : ratio i unit = ratio unit i := by
    apply Nat.eq_of_mul_eq_mul_right (unitValue_pos unit)
    rw [← unitValue_of_coarser coarser, ← unitValue_of_finer coarser]
  have toInteger : ∀ data, IsSigned 64 (inUnit unit i data) →
      Time.toInteger ⟨false, true, ratio unit i, inverse, multiplier⟩ data =
        some (inUnit unit i data) := by
    intro data result
    rw [inUnit_of_coarser coarser] at result ⊢
    rw [Time.toInteger, if_neg Bool.false_ne_true, if_neg nonzero,
      signed_of_isSigned (by decide) result]
  have fromInteger : ∀ value, IsSigned 64 (inUnit i unit value) →
      Time.fromInteger ⟨false, true, ratio unit i, inverse, multiplier⟩ (wrapInt 64 value) =
        some (inUnit i unit value) := by
    intro value result
    rw [inUnit_of_finer coarser, symm] at result ⊢
    rw [Time.fromInteger, if_pos rfl, signed_wrap_mul, signed_of_isSigned (by decide) result]
  refine ⟨toInteger, fun value _ _ => fromInteger value, fun value _ result => ?_⟩
  have back : inUnit unit i (inUnit i unit value) = value := by
    rw [inUnit_of_coarser coarser, inUnit_of_finer coarser, symm]
    exact Int.mul_tdiv_cancel value nonzero
  rw [fromInteger value result, Option.bind_some, toInteger, back]
  rw [back]
  rw [inUnit_of_finer coarser, symm] at result
  exact isSigned_of_mul (by omega) result

/-- The record of a finer unit. -/
theorem converts_finer (finer : unitValue i < unitValue unit) (fits : RatioFits unit i)
    (inverse multiplier : Int64x64) :
    Information.Converts ⟨true, false, ratio unit i, multiplier, inverse⟩ unit i := by
  have large : 1 < ratio unit i := one_lt_ratio finer.ne'
  have word : wrapInt 64 (ratio unit i : Int) = ratio unit i := by
    rw [wrapInt_natCast, wrap_of_lt (fits.lt.trans (by decide))]
  have symm : ratio i unit = ratio unit i := by
    apply Nat.eq_of_mul_eq_mul_right (unitValue_pos i)
    rw [← unitValue_of_finer finer, ← unitValue_of_coarser finer]
  refine ⟨fun data result => ?_, fun value small passes result => ?_, fun value coarser _ => ?_⟩
  · rw [inUnit_of_finer finer] at result ⊢
    rw [Time.toInteger, if_pos rfl, signed_of_isSigned (by decide) result]
  · have nonneg : 0 ≤ value := passes.resolve_right (Nat.not_le.mpr finer)
    obtain ⟨size, rfl⟩ := Int.eq_ofNat_of_zero_le nonneg
    rw [inUnit_of_coarser finer, symm] at result ⊢
    rw [Time.fromInteger, if_neg Bool.false_ne_true, word, if_neg (by omega), wrapInt_natCast,
      wrap_of_lt (by omega)]
    exact congrArg some (signed_of_isSigned (by decide) result)
  · exact absurd coarser (Nat.not_le.mpr finer)

/-- Every record that the resolution sets converts exactly, if the ratio of the units fits. -/
theorem setInformation_converts (undefined : Int) (fits : RatioFits unit i) :
    ∃ info, setInformation undefined unit i = some info ∧ info.Converts unit i := by
  have cast : castInt64 undefined (ratio unit i) = ratio unit i := if_pos fits.lt
  have word : wrapInt 64 (ratio unit i : Int) = ratio unit i := by
    rw [wrapInt_natCast, wrap_of_lt (fits.lt.trans (by decide))]
  rw [setInformation, if_pos (isExact_all unit i), cast]
  dsimp only
  rw [word]
  rcases lt_trichotomy (unitValue unit) (unitValue i) with coarser | same | finer
  · obtain ⟨inverse, inverts, _⟩ := Int64x64.invert_spec (one_lt_ratio coarser.ne) fits.lt
    rw [if_neg fun same => coarser.ne (congrArg unitValue ((same_iff unit i).mp same)),
      if_pos ((lt_realFactor_iff unit i).mpr coarser), inverts]
    exact ⟨_, rfl, converts_coarser coarser _ _⟩
  · obtain rfl := unitValue_injective same
    rw [if_pos ((same_iff unit unit).mpr rfl), ratio_self]
    exact ⟨_, rfl, converts_self ⟨_, _⟩ unit⟩
  · obtain ⟨inverse, inverts, _⟩ := Int64x64.invert_spec (one_lt_ratio finer.ne') fits.lt
    rw [if_neg fun same => finer.ne' (congrArg unitValue ((same_iff unit i).mp same)),
      if_neg fun coarser => finer.asymm ((lt_realFactor_iff unit i).mp coarser),
      if_pos ((realFactor_lt_iff unit i).mpr finer), inverts]
    exact ⟨_, rfl, converts_finer finer fits _ _⟩

/-- Nanoseconds are the default resolution, and years fit. -/
theorem setInformation_converts_years : RatioFits .ns .y ∧
    ∃ info, setInformation 0 .ns .y = some info ∧ info.Converts .ns .y :=
  ⟨by decide, setInformation_converts 0 (by decide)⟩

end Ns3.Core.Time
