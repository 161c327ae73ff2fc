import Ns3.Library.Word

/-!
The 128-bit implementation of `int64x64_t`.

A number is a signed word of 128 bits of which the low 64 are the fraction. Operators work on the
magnitudes of their operands, unsigned words of 128 bits, and give the result its sign afterwards.
-/

namespace Ns3.Core

open Library

/-- `int64x64_t`, the number `v / 2 ^ 64`. -/
structure Int64x64 where
  v : Int
  fits : IsSigned 128 v
  deriving DecidableEq

namespace Int64x64

/-- The mask for the fraction part. -/
def hpMaskLo : Nat := 0xffffffffffffffff

/-- The mask for the sign and the integer part: `~HP_MASK_LO` as a word of 64 bits. -/
def hpMaskHi : Nat := 2 ^ 64 - 1 - hpMaskLo

/-- The high bit of an unsigned word. -/
def hp128MaskHiBit : Nat := 1 <<< 127

/-- The conversion of a value to the signed word that holds it. -/
def ofWord (n : Int) : Int64x64 := ⟨signed 128 n, isSigned_signed (by decide) n⟩

/-- `negative ? -_v : _v`, as an unsigned word. -/
def magnitude (n : Int64x64) : Nat :=
  wrapInt 128 (if n.v < 0 then signed 128 (-n.v) else n.v)

/-- The sign of a product or a quotient, and the magnitudes of its operands. -/
def outputSign (sa sb : Int64x64) : Bool × Nat × Nat :=
  let negA := decide (sa.v < 0)
  let negB := decide (sb.v < 0)
  ((negA && !negB) || (!negA && negB), sa.magnitude, sb.magnitude)

/-- `_v = negative ? -result : result`. -/
def withSign (negative : Bool) (result : Nat) : Int64x64 :=
  ofWord (if negative then wrapSub 128 0 result else result)

/-- The integer portion. -/
def getHigh (n : Int64x64) : Int := signed 64 (n.v >>> (64 : Nat))

/-- The fractional portion. -/
def getLow (n : Int64x64) : Nat := wrapInt 128 n.v &&& hpMaskLo

/-- Truncate to an integer. -/
def getInt (n : Int64x64) : Int :=
  let retval := signed 64 ((n.magnitude >>> 64 : Nat) : Int)
  if n.v < 0 then signed 64 (-retval) else retval

/-- A number from its integer and its fractional portion. -/
def ofParts (hi : Int) (lo : Nat) : Int64x64 :=
  ofWord (((wrapInt 128 (signed 128 (hi <<< (64 : Nat)))) ||| lo : Nat) : Int)

variable (n : Int64x64)

@[ext]
theorem ext {a b : Int64x64} (same : a.v = b.v) : a = b := by
  cases a
  cases b
  congr

theorem and_hpMaskLo (word : Nat) : word &&& hpMaskLo = word % 2 ^ 64 :=
  Nat.and_two_pow_sub_one_eq_mod word 64

theorem and_hpMaskHi (word : Nat) : word &&& hpMaskHi = 0 := Nat.and_zero word

theorem ofWord_v : ofWord n.v = n := by
  apply ext
  exact signed_of_isSigned (by decide) n.fits

theorem natAbs_le : n.v.natAbs ≤ 2 ^ 127 := by
  obtain ⟨low, high⟩ := n.fits
  omega

theorem magnitude_eq : n.magnitude = n.v.natAbs := by
  have small := n.natAbs_le
  have low : ∀ value : Int, (value = n.v.natAbs ∨ value = n.v.natAbs - 2 ^ 128) →
      wrapInt 128 value = n.v.natAbs := by
    rintro value (rfl | rfl)
    · rw [wrapInt_natCast, wrap_of_lt (by omega)]
    · rw [wrapInt]
      omega
  apply low
  split
  · rename_i negative
    rw [signed, Int.bmod_def]
    omega
  · omega

theorem magnitude_le : n.magnitude ≤ 2 ^ 127 := n.magnitude_eq ▸ n.natAbs_le

end Int64x64

end Ns3.Core
