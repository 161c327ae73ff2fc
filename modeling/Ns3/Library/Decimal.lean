import Mathlib.Data.Nat.Digits.Defs
import Mathlib.Tactic.Linarith
import Mathlib.Tactic.Ring

/-!
Decimal digits of fractions.

A fraction is a number of parts of some scale. It is printed digit by digit, rounded in its last
digit, and read from the last digit on, with a rounded division for each digit. If there are enough
digits, the errors of both do not add up to a part, and the fraction comes back.
-/

namespace Ns3.Library

/-- The number that the digits write. -/
def decimal (digits : List Nat) : Nat := Nat.ofDigits 10 digits.reverse

section Decimal

variable {digits : List Nat} {digit : Nat}

@[simp]
theorem decimal_nil : decimal [] = 0 := rfl

theorem decimal_concat (digits : List Nat) (digit : Nat) :
    decimal (digits ++ [digit]) = 10 * decimal digits + digit := by
  rw [decimal, List.reverse_append, List.reverse_singleton, List.singleton_append,
    Nat.ofDigits_cons, Nat.add_comm]
  rfl

theorem decimal_cons (digit : Nat) (digits : List Nat) :
    decimal (digit :: digits) = digit * 10 ^ digits.length + decimal digits := by
  rw [decimal, List.reverse_cons, Nat.ofDigits_append, List.length_reverse, Nat.ofDigits_singleton,
    Nat.add_comm, Nat.mul_comm]
  rfl

/-- Add one to the last digit, with carries. -/
def increment : List Nat → List Nat × Bool
  | [] => ([], true)
  | digit :: digits =>
      match increment digits with
      | (digits, true) => if digit < 9 then ((digit + 1) :: digits, false) else (0 :: digits, true)
      | (digits, false) => (digit :: digits, false)

theorem length_increment (digits : List Nat) :
    (increment digits).1.length = digits.length := by
  induction digits with
  | nil => rfl
  | cons digit digits inductionHypothesis =>
      rw [increment]
      split
      · rename_i rest carried
        rw [carried] at inductionHypothesis
        split <;> exact congrArg Nat.succ inductionHypothesis
      · rename_i rest carried
        rw [carried] at inductionHypothesis
        exact congrArg Nat.succ inductionHypothesis

theorem increment_le (small : ∀ digit ∈ digits, digit ≤ 9) :
    ∀ digit ∈ (increment digits).1, digit ≤ 9 := by
  induction digits with
  | nil => exact small
  | cons digit digits inductionHypothesis =>
      obtain ⟨first, later⟩ := List.forall_mem_cons.mp small
      have rest := inductionHypothesis later
      rw [increment]
      split
      · rename_i others carried
        rw [carried] at rest
        split
        · exact List.forall_mem_cons.mpr ⟨by omega, rest⟩
        · exact List.forall_mem_cons.mpr ⟨by omega, rest⟩
      · rename_i others carried
        rw [carried] at rest
        exact List.forall_mem_cons.mpr ⟨first, rest⟩

/-- The carry that is left stands for a digit in front. -/
theorem decimal_increment (small : ∀ digit ∈ digits, digit ≤ 9) :
    (if (increment digits).2 then 10 ^ digits.length else 0) + decimal (increment digits).1 =
      decimal digits + 1 := by
  induction digits with
  | nil => rfl
  | cons digit digits inductionHypothesis =>
      obtain ⟨first, later⟩ := List.forall_mem_cons.mp small
      have rest := inductionHypothesis later
      have size := length_increment digits
      rw [increment]
      split
      · rename_i others carried
        rw [carried] at rest size
        dsimp only at rest size
        rw [if_pos rfl] at rest
        split
        · rename_i below
          rw [if_neg Bool.false_ne_true, decimal_cons, decimal_cons, size, Nat.succ_mul]
          omega
        · have nine : digit = 9 := by omega
          rw [if_pos rfl, decimal_cons, decimal_cons, size, nine, List.length_cons, Nat.pow_succ]
          omega
      · rename_i others carried
        rw [carried] at rest size
        dsimp only at rest size
        rw [if_neg Bool.false_ne_true] at rest
        rw [if_neg Bool.false_ne_true, decimal_cons, decimal_cons, size]
        omega

/-- A number that is not the largest one increments without a carry in the end. -/
theorem increment_eq_false (small : ∀ digit ∈ digits, digit ≤ 9)
    (below : decimal digits + 1 < 10 ^ digits.length) : (increment digits).2 = false := by
  have sum := decimal_increment small
  cases carried : (increment digits).2 with
  | false => rfl
  | true =>
      rw [carried, if_pos rfl] at sum
      omega

end Decimal

section Fraction

variable {scale fraction rest low : Nat} {digits : List Nat}

/-- The first digits of a fraction, and the rest of it in parts of the last digit. -/
structure Printed (scale fraction : Nat) (digits : List Nat) (rest : Nat) : Prop where
  small : ∀ digit ∈ digits, digit ≤ 9
  value : fraction * 10 ^ digits.length = decimal digits * scale + rest
  below : rest < scale

theorem Printed.nil (below : fraction < scale) : Printed scale fraction [] fraction where
  small _ member := nomatch member
  value := by simp
  below := below

theorem Printed.digit_le (printed : Printed scale fraction digits rest) :
    10 * rest / scale ≤ 9 := by
  have below := printed.below
  have positive : 0 < scale := by omega
  apply Nat.le_of_lt_succ
  rw [Nat.div_lt_iff_lt_mul positive]
  omega

/-- The next digit. -/
theorem Printed.next (printed : Printed scale fraction digits rest) :
    Printed scale fraction (digits ++ [10 * rest / scale]) (10 * rest % scale) where
  small := by
    intro digit member
    rcases List.mem_append.mp member with earlier | last
    · exact printed.small digit earlier
    · rw [List.mem_singleton.mp last]
      exact printed.digit_le
  value := by
    have split := Nat.div_add_mod (10 * rest) scale
    rw [List.length_append, List.length_singleton, decimal_concat]
    calc fraction * 10 ^ (digits.length + 1) = 10 * (fraction * 10 ^ digits.length) := by ring
      _ = 10 * (decimal digits * scale) + 10 * rest := by rw [printed.value, Nat.mul_add]
      _ = 10 * (decimal digits * scale) +
          (scale * (10 * rest / scale) + 10 * rest % scale) := by rw [split]
      _ = _ := by ring
  below := Nat.mod_lt _ (Nat.lt_of_le_of_lt (Nat.zero_le rest) printed.below)

/-- The digits are as good as the fraction: they miss it by half of a digit, and a tenth more. -/
structure Close (scale fraction : Nat) (digits : List Nat) : Prop where
  above : 10 * (decimal digits * scale) ≤ 10 * (fraction * 10 ^ digits.length) + 5 * scale
  below : 10 * (fraction * 10 ^ digits.length) ≤ 10 * (decimal digits * scale) + 6 * scale

theorem Printed.close_of_small (printed : Printed scale fraction digits rest)
    (small : 10 * rest / scale ≤ 5) : Close scale fraction digits := by
  have positive : 0 < scale := Nat.lt_of_le_of_lt (Nat.zero_le rest) printed.below
  have bound : 10 * rest < 6 * scale := (Nat.div_lt_iff_lt_mul positive).mp (by omega)
  have value := printed.value
  exact ⟨by omega, by omega⟩

/-- Rounding up has no carry in the end if there are digits enough. -/
theorem Printed.not_carried (printed : Printed scale fraction digits rest)
    (proper : fraction < scale) (large : 5 ≤ 10 * rest / scale)
    (enough : scale < 10 ^ digits.length) : (increment digits).2 = false := by
  have positive : 0 < scale := Nat.lt_of_le_of_lt (Nat.zero_le rest) printed.below
  have half : 5 * scale ≤ 10 * rest := (Nat.le_div_iff_mul_le positive).mp large
  have value := printed.value
  apply increment_eq_false printed.small
  apply Nat.lt_of_not_le
  intro last
  have missing : (fraction + 1) * 10 ^ digits.length ≤ scale * 10 ^ digits.length :=
    Nat.mul_le_mul_right _ proper
  have full : 10 ^ digits.length * scale ≤ (decimal digits + 1) * scale :=
    Nat.mul_le_mul_right _ last
  rw [Nat.succ_mul, Nat.mul_comm scale] at missing
  rw [Nat.succ_mul] at full
  omega

theorem Printed.close_of_large (printed : Printed scale fraction digits rest)
    (proper : fraction < scale) (large : 5 ≤ 10 * rest / scale)
    (enough : scale < 10 ^ digits.length) : Close scale fraction (increment digits).1 := by
  have positive : 0 < scale := Nat.lt_of_le_of_lt (Nat.zero_le rest) printed.below
  have half : 5 * scale ≤ 10 * rest := (Nat.le_div_iff_mul_le positive).mp large
  have value := printed.value
  have below := printed.below
  have sum := decimal_increment printed.small
  rw [printed.not_carried proper large enough, if_neg Bool.false_ne_true, Nat.zero_add] at sum
  have scaled : decimal (increment digits).1 * scale = decimal digits * scale + scale := by
    rw [sum, Nat.succ_mul]
  exact ⟨by rw [length_increment]; omega, by rw [length_increment]; omega⟩

/-- Read the digits from the last one on. -/
def readDigits (scale : Nat) : List Nat → Nat
  | [] => 0
  | digit :: digits => (readDigits scale digits + digit * scale + 5) / 10

/-- The error of reading, which a digit divides by ten before it adds its own. -/
theorem readDigits_close (scale : Nat) (digits : List Nat) :
    9 * (10 ^ digits.length * readDigits scale digits) ≤
        9 * (decimal digits * scale) + 5 * 10 ^ digits.length ∧
      9 * (decimal digits * scale) ≤
        9 * (10 ^ digits.length * readDigits scale digits) + 4 * 10 ^ digits.length := by
  induction digits with
  | nil => simp [readDigits]
  | cons digit digits inductionHypothesis =>
      obtain ⟨above, below⟩ := inductionHypothesis
      have split := Nat.div_add_mod (readDigits scale digits + digit * scale + 5) 10
      have small := Nat.mod_lt (readDigits scale digits + digit * scale + 5) (by decide : 0 < 10)
      rw [readDigits, decimal_cons, List.length_cons, Nat.pow_succ]
      generalize (readDigits scale digits + digit * scale + 5) / 10 = next at *
      generalize (readDigits scale digits + digit * scale + 5) % 10 = cut at *
      have product : 10 ^ digits.length * 10 * next + 10 ^ digits.length * cut =
          10 ^ digits.length * readDigits scale digits +
            digit * 10 ^ digits.length * scale + 5 * 10 ^ digits.length := by
        calc 10 ^ digits.length * 10 * next + 10 ^ digits.length * cut
            = 10 ^ digits.length * (10 * next + cut) := by ring
          _ = _ := by rw [split]; ring
      have most : 10 ^ digits.length * cut ≤ 10 ^ digits.length * 9 :=
        Nat.mul_le_mul_left _ (by omega)
      rw [Nat.add_mul]
      constructor <;> omega

/-- What is close to the fraction reads as the fraction. -/
theorem Close.readDigits_eq (close : Close scale fraction digits)
    (enough : 27 * scale < 20 * 10 ^ digits.length) : readDigits scale digits = fraction := by
  obtain ⟨above, below⟩ := readDigits_close scale digits
  have printedAbove := close.above
  have printedBelow := close.below
  apply Nat.le_antisymm
  · apply Nat.le_of_lt_succ
    apply Nat.lt_of_mul_lt_mul_left (a := 10 ^ digits.length)
    rw [Nat.mul_succ, Nat.mul_comm _ fraction]
    omega
  · apply Nat.le_of_lt_succ
    apply Nat.lt_of_mul_lt_mul_left (a := 10 ^ digits.length)
    rw [Nat.mul_succ, Nat.mul_comm _ fraction]
    omega

/-- What is exact reads as the fraction with any number of digits. -/
theorem Printed.readDigits_eq (printed : Printed scale fraction digits 0) :
    readDigits scale digits = fraction := by
  obtain ⟨above, below⟩ := readDigits_close scale digits
  have value := printed.value
  have positive : 0 < 10 ^ digits.length := Nat.pow_pos (by decide)
  apply Nat.le_antisymm
  · apply Nat.le_of_lt_succ
    apply Nat.lt_of_mul_lt_mul_left (a := 10 ^ digits.length)
    rw [Nat.mul_succ, Nat.mul_comm _ fraction]
    omega
  · apply Nat.le_of_lt_succ
    apply Nat.lt_of_mul_lt_mul_left (a := 10 ^ digits.length)
    rw [Nat.mul_succ, Nat.mul_comm _ fraction]
    omega

end Fraction

end Ns3.Library
