import Ns3.Core.Int64x64.Inversion

/-!
The integers of `Time`.

A time is a signed word of 64 bits, in the unit that is the current resolution. For every unit there
is a record of how to convert to it and from it: by the product with a factor, or by the division
by it. `Time::To` divides by the product with the inverse of the factor.
-/

namespace Ns3.Core

open Library

namespace Time

/-- How to convert between other units and the current unit. -/
structure Information where
  /-- Multiply when converting to the unit, otherwise divide. -/
  toMul : Bool
  /-- Multiply when converting from the unit, otherwise divide. -/
  fromMul : Bool
  /-- Ratio of this unit and the current unit. -/
  factor : Int
  /-- Multiplier to convert to this unit. -/
  timeTo : Int64x64
  /-- Multiplier to convert from this unit. -/
  timeFrom : Int64x64
  deriving DecidableEq

/-- The time of a value in a unit, if there is a factor to divide by. -/
def fromInteger (info : Information) (value : Nat) : Option Int :=
  if info.fromMul then some (signed 64 (wrap 64 (value * wrapInt 64 info.factor)))
  else if wrapInt 64 info.factor = 0 then none
  else some (signed 64 (value / wrapInt 64 info.factor : Nat))

/-- The value of a time in a unit, if there is a factor to divide by. -/
def toInteger (info : Information) (data : Int) : Option Int :=
  if info.toMul then some (signed 64 (data * info.factor))
  else if info.factor = 0 then none
  else some (signed 64 (data.tdiv info.factor))

/-- The value of a time in a unit, with a fraction. -/
def toUnit (info : Information) (data : Int) : Option Int64x64 :=
  let retval := Int64x64.ofInteger data
  if info.toMul then retval.mul info.timeTo else some (retval.mulByInvert info.timeTo)

theorem isSigned_tdiv {n : Int} (fits : IsSigned 64 n) (d : Nat) : IsSigned 64 (n.tdiv d) := by
  obtain ⟨low, high⟩ := fits
  have small : n.natAbs / d ≤ n.natAbs := Nat.div_le_self _ d
  rw [Int64x64.tdiv_natCast]
  generalize n.natAbs / d = quotient at *
  rcases lt_trichotomy n 0 with negative | rfl | positive
  · rw [Int.sign_eq_neg_one_of_neg negative]
    exact ⟨by omega, by omega⟩
  · exact ⟨by simp, by simp⟩
  · rw [Int.sign_eq_one_of_pos positive]
    exact ⟨by omega, by omega⟩

/-- The product with the inverse of an integer has the quotient as its integer part, and so both
conversions to a coarser unit agree. -/
structure Divides (v : Nat) (m : Int) : Prop where
  exact : ∃ inverse, Int64x64.invert v = some inverse ∧
    ((Int64x64.ofInteger m).mulByInvert inverse).getInt = m.tdiv v
  agrees : ∀ info : Information, info.toMul = false → info.factor = v →
    Int64x64.invert v = some info.timeTo →
      toInteger info m = (toUnit info m).map Int64x64.getInt

theorem divides_of_fits {v : Nat} {m : Int} (large : 1 < v) (small : v < 2 ^ 63)
    (fits : IsSigned 64 m) : Divides v m where
  exact := by
    obtain ⟨inverse, inverts, _⟩ := Int64x64.invert_spec large small
    exact ⟨inverse, inverts, Int64x64.getInt_mulByInvert fits large small inverts⟩
  agrees := by
    intro info divides factor inverts
    have quotient := Int64x64.getInt_mulByInvert fits large small inverts
    have nonzero : (v : Int) ≠ 0 := by omega
    rw [toInteger, toUnit, divides, factor]
    simp only [Bool.false_eq_true, if_false, if_neg nonzero, Option.map_some, quotient,
      signed_of_isSigned (by decide : 0 < 64) (isSigned_tdiv fits v)]

/-- A third of the smallest time. -/
theorem divides_of_fits_third : 1 < 3 ∧ 3 < 2 ^ 63 ∧ IsSigned 64 (-2 ^ 63) ∧ Divides 3 (-2 ^ 63) :=
  ⟨by decide, by decide, by decide, divides_of_fits (by decide) (by decide) (by decide)⟩

end Time

end Ns3.Core
