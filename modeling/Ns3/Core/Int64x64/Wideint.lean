import Mathlib.Tactic.Ring
import Ns3.Library.Word

/-!
The wide integers of `cairo-wideint.c`.

A word of 128 bits is two words of 64. The cairo implementation of `int64x64_t` is written in terms
of a few operations on them, of which the file has one version in terms of words of 64 bits.
-/

namespace Ns3.Core

open Library

/-- `cairo_uint128_t`. -/
@[ext]
structure Uint128 where
  lo : Nat
  hi : Nat
  loFits : lo < 2 ^ 64
  hiFits : hi < 2 ^ 64
  deriving DecidableEq

namespace Uint128

def value (a : Uint128) : Nat := a.hi * 2 ^ 64 + a.lo

/-- Two words of any size, cut down to 64 bits. -/
def ofWords (lo hi : Nat) : Uint128 := ⟨wrap 64 lo, wrap 64 hi, wrap_lt 64 lo, wrap_lt 64 hi⟩

def ofValue (n : Nat) : Uint128 := ofWords n (n / 2 ^ 64)

theorem value_lt (a : Uint128) : a.value < 2 ^ 128 := by
  have := a.loFits
  have := a.hiFits
  unfold value
  omega

theorem value_ofWords (lo hi : Nat) :
    (ofWords lo hi).value = hi % 2 ^ 64 * 2 ^ 64 + lo % 2 ^ 64 := rfl

theorem value_ofValue (n : Nat) : (ofValue n).value = wrap 128 n := by
  rw [ofValue, value_ofWords, wrap]
  omega

theorem hi_eq (a : Uint128) : a.hi = a.value / 2 ^ 64 := by
  have := a.loFits
  unfold value
  omega

theorem lo_eq (a : Uint128) : a.lo = a.value % 2 ^ 64 := by
  have := a.loFits
  unfold value
  omega

theorem value_injective {a b : Uint128} (same : a.value = b.value) : a = b := by
  apply Uint128.ext
  · rw [lo_eq, lo_eq, same]
  · rw [hi_eq, hi_eq, same]

end Uint128

open Uint128

/-- The operations of the wide integers. -/
structure Wideint where
  /-- `_cairo_int128_negative` -/
  negative : Uint128 → Bool
  /-- `_cairo_uint128_negate` -/
  negate : Uint128 → Uint128
  /-- `_cairo_uint64_to_uint128` -/
  ofUint64 : Nat → Uint128
  /-- `_cairo_uint64x64_128_mul` -/
  mul64 : Nat → Nat → Uint128
  /-- `_cairo_uint128_add` -/
  add : Uint128 → Uint128 → Uint128
  /-- `_cairo_uint128_lsl` -/
  lsl : Uint128 → Nat → Uint128

/-- The operations are exact arithmetic on words of 128 bits. -/
structure Wideint.Exact (wide : Wideint) : Prop where
  negative : ∀ a, wide.negative a = true ↔ 2 ^ 127 ≤ a.value
  negate : ∀ a, (wide.negate a).value = wrapSub 128 0 a.value
  ofUint64 : ∀ i, i < 2 ^ 64 → (wide.ofUint64 i).value = i
  mul64 : ∀ a b, a < 2 ^ 64 → b < 2 ^ 64 → (wide.mul64 a b).value = a * b
  add : ∀ a b, (wide.add a b).value = wrap 128 (a.value + b.value)
  lsl : ∀ a shift, shift < 128 → (wide.lsl a shift).value = wrap 128 (a.value <<< shift)

namespace Uint128

/-- `_cairo_uint128_add` -/
def add (a b : Uint128) : Uint128 :=
  let hi := wrap 64 (a.hi + b.hi)
  let lo := wrap 64 (a.lo + b.lo)
  ofWords lo (if lo < a.lo then wrap 64 (hi + 1) else hi)

/-- `_cairo_uint64x64_128_mul` -/
def mul64 (a b : Nat) : Uint128 :=
  let al := a &&& 0xffffffff
  let ah := a >>> 32
  let bl := b &&& 0xffffffff
  let bh := b >>> 32
  let r0 := wrap 64 (al * bl)
  let r1 := wrap 64 (al * bh)
  let r2 := wrap 64 (ah * bl)
  let r3 := wrap 64 (ah * bh)
  let r1 := wrap 64 (r1 + r0 >>> 32)
  let r1 := wrap 64 (r1 + r2)
  let r3 := if r1 < r2 then wrap 64 (r3 + 1 <<< 32) else r3
  ofWords (wrap 64 (r1 <<< 32) + (r0 &&& 0xffffffff)) (r3 + r1 >>> 32)

/-- `_cairo_uint128_lsl` -/
def lsl (a : Uint128) (shift : Nat) : Uint128 :=
  let (lo, hi, shift) := if 64 ≤ shift then (0, a.lo, shift - 64) else (a.lo, a.hi, shift)
  if shift ≠ 0 then
    ofWords (lo <<< shift) (wrap 64 (hi <<< shift) + lo >>> (64 - shift))
  else ofWords lo hi

/-- `_cairo_uint128_negate` -/
def negate (a : Uint128) : Uint128 :=
  add (ofWords (2 ^ 64 - 1 - a.lo) (2 ^ 64 - 1 - a.hi)) (ofWords 1 0)

end Uint128

/-- The version in terms of words of 64 bits. -/
def wordWideint : Wideint where
  negative a := decide (2 ^ 63 ≤ a.hi)
  negate := negate
  ofUint64 i := ofWords i 0
  mul64 := mul64
  add := add
  lsl := lsl

namespace Uint128

theorem add_value (a b : Uint128) : (add a b).value = wrap 128 (a.value + b.value) := by
  have aLow := a.loFits
  have bLow := b.loFits
  rw [add, value_ofWords]
  unfold value wrap
  split <;> omega

theorem negate_value (a : Uint128) : (negate a).value = wrapSub 128 0 a.value := by
  have low := a.loFits
  have high := a.hiFits
  rw [negate, add_value, value_ofWords, value_ofWords, wrap, wrapSub, value]
  omega

/-- The carries of the four products. -/
theorem carry_value {p0 p1 p2 p3 : Nat} (small0 : p0 ≤ (2 ^ 32 - 1) * (2 ^ 32 - 1))
    (small1 : p1 ≤ (2 ^ 32 - 1) * (2 ^ 32 - 1)) (small2 : p2 ≤ (2 ^ 32 - 1) * (2 ^ 32 - 1)) :
    ((if wrap 64 (p1 + p0 / 2 ^ 32 + p2) < p2 then p3 + 2 ^ 32 else p3) +
      wrap 64 (p1 + p0 / 2 ^ 32 + p2) / 2 ^ 32) * 2 ^ 64 +
        (wrap 64 (wrap 64 (p1 + p0 / 2 ^ 32 + p2) * 2 ^ 32) + p0 % 2 ^ 32) =
      p3 * 2 ^ 64 + (p1 + p2) * 2 ^ 32 + p0 := by
  unfold wrap
  split <;> omega

theorem carry_low_lt (middle p0 : Nat) :
    wrap 64 (middle * 2 ^ 32) + p0 % 2 ^ 32 < 2 ^ 64 := by
  unfold wrap
  omega

theorem value_ofWords_of_lt {lo hi n : Nat} (low : lo < 2 ^ 64) (small : n < 2 ^ 64 * 2 ^ 64)
    (split : hi * 2 ^ 64 + lo = n) : (ofWords lo hi).value = n := by
  have high : hi < 2 ^ 64 := by omega
  rw [value_ofWords, Nat.mod_eq_of_lt low, Nat.mod_eq_of_lt high, split]

theorem half_products (a b : Nat) :
    a / 2 ^ 32 * (b / 2 ^ 32) * 2 ^ 64 +
      (a % 2 ^ 32 * (b / 2 ^ 32) + a / 2 ^ 32 * (b % 2 ^ 32)) * 2 ^ 32 +
        a % 2 ^ 32 * (b % 2 ^ 32) = a * b := by
  have left := Nat.div_add_mod a (2 ^ 32)
  have right := Nat.div_add_mod b (2 ^ 32)
  calc _ = (2 ^ 32 * (a / 2 ^ 32) + a % 2 ^ 32) * (2 ^ 32 * (b / 2 ^ 32) + b % 2 ^ 32) := by ring
    _ = a * b := by rw [left, right]

theorem mul64_value {a b : Nat} (aFits : a < 2 ^ 64) (bFits : b < 2 ^ 64) :
    (mul64 a b).value = a * b := by
  have al : a % 2 ^ 32 ≤ 2 ^ 32 - 1 := by omega
  have bl : b % 2 ^ 32 ≤ 2 ^ 32 - 1 := by omega
  have ah : a / 2 ^ 32 ≤ 2 ^ 32 - 1 := by omega
  have bh : b / 2 ^ 32 ≤ 2 ^ 32 - 1 := by omega
  have small0 := Nat.mul_le_mul al bl
  have small1 := Nat.mul_le_mul al bh
  have small2 := Nat.mul_le_mul ah bl
  have small3 := Nat.mul_le_mul ah bh
  have total : a * b < 2 ^ 64 * 2 ^ 64 := Nat.mul_lt_mul'' aFits bFits
  have product := half_products a b
  have low : ∀ n : Nat, n &&& 0xffffffff = n % 2 ^ 32 := fun n =>
    Nat.and_two_pow_sub_one_eq_mod n 32
  simp only [mul64, low, Nat.shiftRight_eq_div_pow, Nat.shiftLeft_eq, Nat.one_mul]
  generalize a % 2 ^ 32 * (b % 2 ^ 32) = p0 at *
  generalize a % 2 ^ 32 * (b / 2 ^ 32) = p1 at *
  generalize a / 2 ^ 32 * (b % 2 ^ 32) = p2 at *
  generalize a / 2 ^ 32 * (b / 2 ^ 32) = p3 at *
  have carried := @carry_value p0 p1 p2 p3 small0 small1 small2
  have fits : ∀ n, n ≤ (2 ^ 32 - 1) * (2 ^ 32 - 1) + 2 ^ 32 → wrap 64 n = n := fun n small =>
    wrap_of_lt (lt_of_le_of_lt small (by decide))
  have middle : p1 + p0 / 2 ^ 32 ≤ (2 ^ 32 - 1) * (2 ^ 32 - 1) + 2 ^ 32 := by omega
  rw [fits p0 (by omega), fits p1 (by omega), fits p2 (by omega), fits p3 (by omega),
    fits _ middle, fits (p3 + 2 ^ 32) (by omega)]
  exact value_ofWords_of_lt (carry_low_lt _ p0) total (carried.trans product)

/-- What a shift moves out of the low word moves into the high word. -/
theorem shifted_words (lo hi : Nat) {shift : Nat} (short : shift ≤ 64) :
    (ofWords (lo <<< shift) (wrap 64 (hi <<< shift) + lo >>> (64 - shift))).value =
      wrap 128 ((hi * 2 ^ 64 + lo) <<< shift) := by
  have moved : lo >>> (64 - shift) = lo * 2 ^ shift / 2 ^ 64 := by
    have split : 2 ^ 64 = 2 ^ (64 - shift) * 2 ^ shift := by
      rw [← Nat.pow_add, Nat.sub_add_cancel short]
    rw [Nat.shiftRight_eq_div_pow, split, Nat.mul_div_mul_right _ _ (Nat.two_pow_pos shift)]
  rw [value_ofWords, moved, Nat.shiftLeft_eq, Nat.shiftLeft_eq, Nat.shiftLeft_eq, Nat.add_mul,
    Nat.mul_right_comm]
  unfold wrap
  omega

theorem shiftWords_value {lo : Nat} (low : lo < 2 ^ 64) (hi : Nat) {shift : Nat}
    (short : shift ≤ 64) :
    (if shift ≠ 0 then
      ofWords (lo <<< shift) (wrap 64 (hi <<< shift) + lo >>> (64 - shift))
    else ofWords lo hi).value = wrap 128 ((hi * 2 ^ 64 + lo) <<< shift) := by
  split
  · exact shifted_words lo hi short
  · rename_i none
    rw [not_not.mp none, value_ofWords, Nat.shiftLeft_zero, wrap]
    omega

theorem lsl_value (a : Uint128) {shift : Nat} (short : shift < 128) :
    (lsl a shift).value = wrap 128 (a.value <<< shift) := by
  rcases Nat.lt_or_ge shift 64 with within | long
  · rw [lsl, if_neg (Nat.not_le.mpr within)]
    exact shiftWords_value a.loFits a.hi (Nat.le_of_lt within)
  · have dropped : a.value <<< shift =
        (a.lo * 2 ^ 64 + 0) <<< (shift - 64) + 2 ^ 128 * (a.hi * 2 ^ (shift - 64)) := by
      obtain ⟨rest, rfl⟩ := Nat.exists_eq_add_of_le long
      rw [Nat.add_sub_cancel_left, Nat.shiftLeft_eq, Nat.shiftLeft_eq, value]
      ring
    have moved := @shiftWords_value 0 (by decide) a.lo (shift - 64) (by omega)
    rw [lsl, if_pos long, dropped, wrap, Nat.add_mul_mod_self_left]
    exact moved

end Uint128

theorem wordWideint_exact : wordWideint.Exact where
  negative a := by
    have := a.loFits
    have := a.hiFits
    simp only [wordWideint, decide_eq_true_eq, value]
    omega
  negate := negate_value
  ofUint64 i fits := by
    exact value_ofWords_of_lt fits (fits.trans (by decide)) (Nat.zero_add i)
  mul64 _ _ := mul64_value
  add := add_value
  lsl a _ := lsl_value a

end Ns3.Core
