import Ns3.Core.Int64x64.Inversion
import Ns3.Library.Decimal
import Ns3.Library.PackedFields

/-!
The text of a number.

The writer prints digits of the fraction until nothing is left of it or there are enough, and rounds
the text of the number in its last digit. The reader divides from the last digit on. A number comes
back from the default format, and from a fixed format with as many digits.
-/

namespace Ns3.Core.Int64x64

open Library

/-- `operator +=`. -/
def add (self o : Int64x64) : Int64x64 := ofWord (self.v + o.v)

/-- `operator -=`. -/
def sub (self o : Int64x64) : Int64x64 := ofWord (self.v - o.v)

/-- Unary `operator -`. -/
def neg (self : Int64x64) : Int64x64 := ofWord (-self.v)

/-- An integer on a stream. -/
def printInteger (n : Int) : List Char :=
  if n < 0 then '-' :: Nat.toDigits 10 n.natAbs else Nat.toDigits 10 n.natAbs

/-- The next digit of a fraction, and what is left. -/
def printDigit (low : Int64x64) : Option (Int × Int64x64) := do
  let low ← low.mul (ofInteger 10)
  let digit := low.getHigh
  -- The assertion.
  if 0 ≤ digit ∧ digit ≤ 9 then some (digit, low.sub (ofInteger digit)) else none

/-- The loop over the places, of which some may be left after the next one. -/
def printDigits (floatfield : Bool) : Nat → List Char → Int64x64 →
    Option (List Char × Int × Int64x64)
  | 0, oss, low => do
      let (digit, low) ← printDigit low
      some (oss ++ printInteger digit, digit, low)
  | left + 1, oss, low => do
      let (digit, low) ← printDigit low
      if floatfield ∨ low.getLow ≠ 0 then
        printDigits floatfield left (oss ++ printInteger digit) low
      else some (oss ++ printInteger digit, digit, low)

/-- Walk backwards with the carry, and tell whether it is left. -/
def carryBack : List Char → List Char × Bool
  | [] => ([], true)
  | c :: rest =>
      if c = '.' then
        let (rest, carry) := carryBack rest
        (c :: rest, carry)
      else
        let next := Char.ofNat (c.toNat + 1)
        if next.toNat ≤ '9'.toNat then (next :: rest, false)
        else
          let (rest, carry) := carryBack rest
          ('0' :: rest, carry)

/-- Round the text up. -/
def roundUp (digits : List Char) : List Char :=
  let (reversed, carry) := carryBack digits.reverse
  if carry then '1' :: reversed.reverse else reversed.reverse

/-- The text of a number without its sign, in a fixed format with a precision or in the default
format. -/
def writeMagnitude (fixed : Option Nat) (absVal : Int64x64) : Option (List Char) := do
  let hi := absVal.getHigh
  let (oss, digit, low) ← printDigits fixed.isSome (fixed.getD 20 - 1) (printInteger hi ++ ['.'])
    (ofParts 0 absVal.getLow)
  let low ← low.mul (ofInteger 10)
  let nextDigit := low.getHigh
  some (if 5 < nextDigit ∨ nextDigit = 5 ∧ digit.tmod 2 = 1 then roundUp oss else oss)

/-- `operator <<`. -/
def write (fixed : Option Nat) (value : Int64x64) : Option (List Char) := do
  let negative := decide (value.v < 0)
  let absVal := if negative then value.neg else value
  let digits ← writeMagnitude fixed absVal
  some ((if negative then '-' else '+') :: digits)

/-- Read the integer portion. -/
def readHiDigits (str : List Char) : Nat :=
  str.foldl (fun retval c => wrapInt 64 (wrap 64 (retval * 10) + (c.toNat - '0'.toNat : Int))) 0

/-- Read the fractional portion, from the last digit on. -/
def readLoDigits : List Char → Option Int64x64
  | [] => some (ofWord 0)
  | c :: rest => do
      let low ← readLoDigits rest
      let digit : Int := c.toNat - '0'.toNat
      -- The assertion.
      if 0 ≤ digit ∧ digit ≤ 9 then
        ((low.add (ofInteger digit)).add (ofParts 0 5)).div (ofInteger 10)
      else none

/-- Remove the text up to the sign, and the sign. -/
def skipSign (sign : Char) (str : List Char) : List Char :=
  (str.dropWhile fun c => c != sign).drop 1

/-- The two portions of a number without its sign. -/
def readMagnitude (str : List Char) : Option Int64x64 := do
  let hi := signed 64 (readHiDigits (str.takeWhile fun c => c != '.'))
  let lo ← if str.contains '.' then
      (readLoDigits ((str.dropWhile fun c => c != '.').drop 1)).map getLow
    else some 0
  some (ofParts hi lo)

/-- `operator >>`, after a word was read from the stream. -/
def read (str : List Char) : Option Int64x64 := do
  let str := str.dropWhile fun c => c == ' '
  let negative := str.contains '-'
  let str :=
    if negative then skipSign '-' str else if str.contains '+' then skipSign '+' str else str
  let value ← readMagnitude str
  some (if negative then value.neg else value)

section Fraction

variable {fraction rest : Nat} {digits : List Nat}

theorem ofWord_natCast_v {n : Nat} (small : n < 2 ^ 127) : (ofWord n).v = n :=
  ofWord_v_of_isSigned ⟨by omega, by omega⟩

theorem ofInteger_natCast (n : Nat) : ofInteger n = ofWord (n * 2 ^ 64 : Nat) := by
  rw [ofInteger, Int.shiftLeft_eq]
  rfl

/-- The product of numbers that are not negative. -/
theorem mul_ofWord {a b : Nat} (aSmall : a < 2 ^ 127) (bSmall : b < 2 ^ 127) :
    (ofWord a).mul (ofWord b) = some (ofWord (a * b / 2 ^ 64 : Nat)) := by
  have aValue := ofWord_natCast_v aSmall
  have bValue := ofWord_natCast_v bSmall
  have sign : (outputSign (ofWord a) (ofWord b)).1 = false := by
    unfold outputSign
    rw [aValue, bValue]
    simp
  rw [mul_eq, exactProduct_eq, sign, if_neg Bool.false_ne_true, aValue, bValue]
  rfl

theorem ofParts_natCast {hi lo : Nat} (hiSmall : hi < 2 ^ 63) (loSmall : lo < 2 ^ 64) :
    ofParts hi lo = ofWord (hi * 2 ^ 64 + lo : Nat) := by
  have fits : IsSigned 128 ((hi * 2 ^ 64 : Nat) : Int) := ⟨by omega, by omega⟩
  rw [ofParts, Int.shiftLeft_eq]
  show ofWord ((wrapInt 128 (signed 128 ((hi * 2 ^ 64 : Nat) : Int)) ||| lo : Nat) : Int) = _
  rw [signed_of_isSigned (by decide) fits, wrapInt_natCast, wrap_of_lt (by omega),
    or_shiftLeft_of_lt loSmall]

theorem getHigh_ofWord {n : Nat} (small : n < 2 ^ 127) :
    (ofWord n).getHigh = (n / 2 ^ 64 : Nat) := by
  rw [getHigh, ofWord_natCast_v small, Int.shiftRight_eq_div_pow]
  exact signed_of_isSigned (by decide) ⟨by omega, by omega⟩

theorem getLow_ofWord {n : Nat} (small : n < 2 ^ 127) : (ofWord n).getLow = n % 2 ^ 64 := by
  rw [getLow, ofWord_natCast_v small, wrapInt_natCast, and_hpMaskLo,
    wrap_of_lt (small.trans (by decide))]

theorem sub_ofInteger {a digit : Nat} (small : a < 2 ^ 127) (below : digit * 2 ^ 64 ≤ a) :
    (ofWord a).sub (ofInteger digit) = ofWord (a - digit * 2 ^ 64 : Nat) := by
  rw [sub, ofInteger_natCast, ofWord_natCast_v small, ofWord_natCast_v (by omega),
    Nat.cast_sub below]

theorem mul_ten (below : rest < 2 ^ 64) :
    (ofWord rest).mul (ofInteger 10) = some (ofWord (10 * rest : Nat)) := by
  have product : rest * (10 * 2 ^ 64) / 2 ^ 64 = 10 * rest := by omega
  have ten : ofInteger 10 = ofWord (10 * 2 ^ 64 : Nat) := ofInteger_natCast 10
  rw [ten, mul_ofWord (by omega) (by omega), product]

/-- A turn of the loop over the places is a step of the division by the scale. -/
theorem printDigit_eq (printed : Printed (2 ^ 64) fraction digits rest) :
    printDigit (ofWord rest) =
      some (((10 * rest / 2 ^ 64 : Nat) : Int), ofWord (10 * rest % 2 ^ 64 : Nat)) := by
  have below := printed.below
  have digit := printed.digit_le
  have left : 10 * rest - 10 * rest / 2 ^ 64 * 2 ^ 64 = 10 * rest % 2 ^ 64 := by omega
  have inside : (0 : Int) ≤ (10 * rest / 2 ^ 64 : Nat) ∧
      ((10 * rest / 2 ^ 64 : Nat) : Int) ≤ 9 := by
    omega
  rw [printDigit, mul_ten below, Option.bind_eq_bind, Option.bind_some]
  dsimp only
  rw [getHigh_ofWord (by omega), if_pos inside, sub_ofInteger (by omega) (by omega), left]

theorem printInteger_digit {digit : Nat} (small : digit ≤ 9) :
    printInteger digit = [Nat.digitChar digit] := by
  rw [printInteger, if_neg (by omega), Int.natAbs_natCast, Nat.toDigits_of_lt_base (by omega)]

/-- What the loop over the places comes to: more digits of the fraction, either all of them or as
many as the format has. -/
structure Prints (floatfield : Bool) (left fraction : Nat) (digits : List Nat) (oss : List Char)
    (result : List Char × Int × Int64x64) (added : List Nat) (rest : Nat) : Prop where
  printed : Printed (2 ^ 64) fraction (digits ++ added) rest
  text : result.1 = oss ++ added.map Nat.digitChar
  low : result.2.2 = ofWord rest
  enough : floatfield = false ∧ rest = 0 ∨ added.length = left + 1

section Turns

variable {floatfield : Bool} {left : Nat} {oss : List Char} {digit : Int} {low next : Int64x64}

theorem printDigits_last (turn : printDigit low = some (digit, next)) :
    printDigits floatfield 0 oss low = some (oss ++ printInteger digit, digit, next) := by
  rw [printDigits, turn]
  rfl

theorem printDigits_more (turn : printDigit low = some (digit, next))
    (more : floatfield = true ∨ next.getLow ≠ 0) :
    printDigits floatfield (left + 1) oss low =
      printDigits floatfield left (oss ++ printInteger digit) next := by
  rw [printDigits, turn]
  exact if_pos more

theorem printDigits_done (turn : printDigit low = some (digit, next))
    (done : ¬ (floatfield = true ∨ next.getLow ≠ 0)) :
    printDigits floatfield (left + 1) oss low = some (oss ++ printInteger digit, digit, next) := by
  rw [printDigits, turn]
  exact if_neg done

end Turns

theorem Prints.of_done {floatfield : Bool} {left : Nat} {oss : List Char}
    (printed : Printed (2 ^ 64) fraction digits rest)
    (enough : floatfield = false ∧ 10 * rest % 2 ^ 64 = 0 ∨ 1 = left + 1) (digit : Int) :
    Prints floatfield left fraction digits oss
      (oss ++ printInteger (10 * rest / 2 ^ 64 : Nat), digit, ofWord (10 * rest % 2 ^ 64 : Nat))
      [10 * rest / 2 ^ 64] (10 * rest % 2 ^ 64) where
  printed := printed.next
  text := by rw [printInteger_digit printed.digit_le, List.map_singleton]
  low := rfl
  enough := enough

theorem printDigits_eq (printed : Printed (2 ^ 64) fraction digits rest) (floatfield : Bool)
    (left : Nat) (oss : List Char) :
    ∃ result added last, printDigits floatfield left oss (ofWord rest) = some result ∧
      Prints floatfield left fraction digits oss result added last := by
  have turn := printDigit_eq printed
  induction left generalizing digits rest oss with
  | zero => exact ⟨_, _, _, printDigits_last turn, .of_done printed (.inr rfl) _⟩
  | succ left inductionHypothesis =>
      by_cases more : floatfield = true ∨ (ofWord (10 * rest % 2 ^ 64 : Nat)).getLow ≠ 0
      · obtain ⟨result, added, last, found, prints⟩ := inductionHypothesis printed.next
          (oss ++ printInteger (10 * rest / 2 ^ 64 : Nat)) (printDigit_eq printed.next)
        refine ⟨result, (10 * rest / 2 ^ 64) :: added, last,
          (printDigits_more turn more).trans found, ?_, ?_, prints.low, ?_⟩
        · rw [List.append_cons]
          exact prints.printed
        · rw [prints.text, printInteger_digit printed.digit_le, List.append_assoc, List.map_cons,
            List.singleton_append]
        · exact prints.enough.imp id (congrArg Nat.succ)
      · obtain ⟨default, zero⟩ := not_or.mp more
        have none : 10 * rest % 2 ^ 64 = 0 := by
          have below := printed.below
          rw [getLow_ofWord (by omega), Nat.mod_mod] at zero
          exact not_not.mp zero
        exact ⟨_, _, _, printDigits_done turn more,
          .of_done printed (.inl ⟨Bool.eq_false_of_not_eq_true default, none⟩) _⟩

end Fraction

section Rounding

variable {digits : List Nat} {front : List Char}

/-- The character of a digit and the one after it. -/
theorem digitChar_succ : ∀ digit < 10, Nat.digitChar digit ≠ '.' ∧
    Char.ofNat ((Nat.digitChar digit).toNat + 1) =
      (if digit = 9 then ':' else Nat.digitChar (digit + 1)) := by decide

theorem digitChar_toNat : ∀ digit < 10, (Nat.digitChar digit).toNat = digit + '0'.toNat := by decide

theorem carryBack_nine (front : List Char) :
    carryBack (Nat.digitChar 9 :: front) = ('0' :: (carryBack front).1, (carryBack front).2) := rfl

theorem carryBack_digit {digit : Nat} (small : digit < 9) (front : List Char) :
    carryBack (Nat.digitChar digit :: front) = (Nat.digitChar (digit + 1) :: front, false) := by
  obtain ⟨noPoint, next⟩ := digitChar_succ digit (by omega)
  have code := digitChar_toNat (digit + 1) (by omega)
  have top : '9'.toNat = 9 + '0'.toNat := by decide
  rw [if_neg (by omega)] at next
  rw [carryBack, if_neg noPoint, next]
  exact if_pos (by omega)

/-- The carry walks through the digits before it comes to what is in front of them. -/
theorem carryBack_digits (small : ∀ digit ∈ digits, digit ≤ 9) (front : List Char) :
    carryBack ((digits.map Nat.digitChar).reverse ++ front) =
      if (increment digits).2 then
        (((increment digits).1.map Nat.digitChar).reverse ++ (carryBack front).1,
          (carryBack front).2)
      else (((increment digits).1.map Nat.digitChar).reverse ++ front, false) := by
  induction digits generalizing front with
  | nil => rfl
  | cons digit digits inductionHypothesis =>
      obtain ⟨first, later⟩ := List.forall_mem_cons.mp small
      rw [List.map_cons, List.reverse_cons, List.append_assoc, List.singleton_append,
        inductionHypothesis later, increment]
      cases carried : increment digits with
      | mk others carry =>
          cases carry with
          | false => simp
          | true =>
              by_cases below : digit < 9
              · simp [carryBack_digit below, below]
              · have nine : digit = 9 := by omega
                simp [nine, carryBack_nine]

theorem roundUp_digits (small : ∀ digit ∈ digits, digit ≤ 9)
    (noCarry : (increment digits).2 = false) (front : List Char) :
    roundUp (front ++ digits.map Nat.digitChar) =
      front ++ (increment digits).1.map Nat.digitChar := by
  rw [roundUp, List.reverse_append, carryBack_digits small, noCarry]
  simp

end Rounding

section Reading

variable {digits : List Nat}

/-- The quotient of numbers that are not negative. -/
theorem div_ofInteger {a : Nat} (small : a < 2 ^ 127) :
    (ofWord a).div (ofInteger 10) = some (ofWord (a / 10 : Nat)) := by
  have ten : (ofInteger 10).v = 10 * 2 ^ 64 := ofInteger_v (by decide)
  have value := ofWord_natCast_v small
  have sign : (outputSign (ofWord a) (ofInteger 10)).1 = false := by
    unfold outputSign
    rw [value, ten]
    simp
  have quotient : a * 2 ^ 64 / (10 * 2 ^ 64) = a / 10 := Nat.mul_div_mul_right a 10 (by decide)
  have nonzero : (ofInteger 10).v ≠ 0 := by
    rw [ten]
    decide
  rw [div_eq nonzero, sign, value, ten]
  show some (withSign false (wrap 128 (a * 2 ^ 64 / (10 * 2 ^ 64)))) = _
  rw [quotient, withSign_wrap, if_neg Bool.false_ne_true]

theorem add_ofWord {a b : Nat} (aSmall : a < 2 ^ 127) (bSmall : b < 2 ^ 127) :
    (ofWord a).add (ofWord b) = ofWord (a + b : Nat) := by
  rw [add, ofWord_natCast_v aSmall, ofWord_natCast_v bSmall, Nat.cast_add]

theorem readDigits_le (small : ∀ digit ∈ digits, digit ≤ 9) :
    readDigits (2 ^ 64) digits ≤ 2 ^ 64 := by
  induction digits with
  | nil => exact Nat.zero_le _
  | cons digit digits inductionHypothesis =>
      obtain ⟨first, later⟩ := List.forall_mem_cons.mp small
      have rest := inductionHypothesis later
      rw [readDigits]
      omega

theorem readLoDigits_eq (small : ∀ digit ∈ digits, digit ≤ 9) :
    readLoDigits (digits.map Nat.digitChar) = some (ofWord (readDigits (2 ^ 64) digits)) := by
  induction digits with
  | nil => rfl
  | cons digit digits inductionHypothesis =>
      obtain ⟨first, later⟩ := List.forall_mem_cons.mp small
      have rest := readDigits_le later
      have code := digitChar_toNat digit (by omega)
      have value : ((Nat.digitChar digit).toNat : Int) - '0'.toNat = digit := by omega
      have round : ofParts 0 5 = ofWord (5 : Nat) := ofParts_natCast (by decide) (by decide)
      rw [List.map_cons, readLoDigits, inductionHypothesis later, Option.bind_eq_bind,
        Option.bind_some]
      dsimp only
      rw [value, if_pos ⟨by omega, by omega⟩, ofInteger_natCast, add_ofWord (by omega) (by omega),
        round, add_ofWord (by omega) (by decide), div_ofInteger (by omega), readDigits]

theorem readHiDigits_concat (str : List Char) (c : Char) :
    readHiDigits (str ++ [c]) =
      wrapInt 64 (wrap 64 (readHiDigits str * 10) + (c.toNat - '0'.toNat : Int)) := by
  rw [readHiDigits, List.foldl_append]
  rfl

theorem readHiDigits_toDigits {n : Nat} (small : n < 2 ^ 63) :
    readHiDigits (Nat.toDigits 10 n) = n := by
  induction n using Nat.strongRecOn with
  | ind n inductionHypothesis =>
      have code := digitChar_toNat (n % 10) (Nat.mod_lt n (by decide))
      have value : ((Nat.digitChar (n % 10)).toNat : Int) - '0'.toNat = (n % 10 : Nat) := by omega
      have split := Nat.div_add_mod n 10
      by_cases single : n < 10
      · have self : n % 10 = n := Nat.mod_eq_of_lt single
        rw [self] at value
        rw [Nat.toDigits_of_lt_base single]
        show wrapInt 64 (wrap 64 (0 * 10) + _) = n
        rw [value, Nat.zero_mul, wrap_of_lt (by decide), Nat.cast_zero, zero_add, wrapInt_natCast,
          wrap_of_lt (by omega)]
      · rw [Nat.toDigits_of_base_le (by decide) (by omega), readHiDigits_concat,
          inductionHypothesis (n / 10) (by omega) (by omega), value, wrap_of_lt (by omega),
          ← Nat.cast_add, wrapInt_natCast, wrap_of_lt (by omega)]
        omega

end Reading

section Writing

variable {fixed : Option Nat} {m rest : Nat} {digits : List Nat}

/-- The text of a magnitude: its integer portion, a point and digits that read as its fraction. -/
structure Written (fixed : Option Nat) (m : Nat) (digits : List Nat) : Prop where
  text : writeMagnitude fixed (ofWord m) =
    some (Nat.toDigits 10 (m / 2 ^ 64) ++ '.' :: digits.map Nat.digitChar)
  small : ∀ digit ∈ digits, digit ≤ 9
  fraction : readDigits (2 ^ 64) digits = m % 2 ^ 64

theorem printInteger_natCast (n : Nat) : printInteger n = Nat.toDigits 10 n := by
  rw [printInteger, if_neg (by omega), Int.natAbs_natCast]

/-- The text of a magnitude after the loop over the places. -/
theorem writeMagnitude_eq (small : m < 2 ^ 127) {oss : List Char} {digit : Int}
    (found : printDigits fixed.isSome (fixed.getD 20 - 1) (Nat.toDigits 10 (m / 2 ^ 64) ++ ['.'])
      (ofWord (m % 2 ^ 64 : Nat)) = some (oss, digit, ofWord rest)) (below : rest < 2 ^ 64) :
    writeMagnitude fixed (ofWord m) = some (if 5 < ((10 * rest / 2 ^ 64 : Nat) : Int) ∨
      ((10 * rest / 2 ^ 64 : Nat) : Int) = 5 ∧ digit.tmod 2 = 1 then roundUp oss else oss) := by
  have fraction : ofParts 0 (m % 2 ^ 64) = ofWord (m % 2 ^ 64 : Nat) := by
    have parts : ofParts (0 : Nat) (m % 2 ^ 64) = ofWord (0 * 2 ^ 64 + m % 2 ^ 64 : Nat) :=
      ofParts_natCast (by decide) (Nat.mod_lt m (by decide))
    rw [Nat.zero_mul, Nat.zero_add] at parts
    exact parts
  rw [writeMagnitude, getHigh_ofWord small, getLow_ofWord small, printInteger_natCast, fraction,
    found, Option.bind_eq_bind, Option.bind_some]
  dsimp only
  rw [mul_ten below, Option.bind_eq_bind, Option.bind_some, getHigh_ofWord (by omega)]

/-- A rest that would still print asks for all digits of the format. -/
theorem Prints.enough_digits {floatfield : Bool} {left fraction last : Nat} {oss : List Char}
    {result : List Char × Int × Int64x64} {added : List Nat}
    (prints : Prints floatfield left fraction digits oss result added last) (more : last ≠ 0)
    (enough : 20 ≤ left + 1) : 10 ^ 20 ≤ 10 ^ added.length := by
  apply Nat.pow_le_pow_right (by decide)
  rcases prints.enough with ⟨_, nothing⟩ | all
  · exact absurd nothing more
  · omega

theorem written (small : m < 2 ^ 127) (enough : ∀ precision ∈ fixed, 20 ≤ precision) :
    ∃ digits, Written fixed m digits := by
  have proper : m % 2 ^ 64 < 2 ^ 64 := Nat.mod_lt m (by decide)
  have places : 20 ≤ fixed.getD 20 - 1 + 1 := by
    cases fixed with
    | none => decide
    | some precision =>
        have large := enough precision rfl
        rw [Option.getD_some]
        omega
  obtain ⟨⟨oss, digit, low⟩, digits, rest, found, prints⟩ :=
    printDigits_eq (.nil proper) fixed.isSome (fixed.getD 20 - 1)
      (Nat.toDigits 10 (m / 2 ^ 64) ++ ['.'])
  have printed : Printed (2 ^ 64) (m % 2 ^ 64) digits rest := prints.printed
  have text : oss = Nat.toDigits 10 (m / 2 ^ 64) ++ '.' :: digits.map Nat.digitChar := by
    rw [← List.singleton_append, ← List.append_assoc]
    exact prints.text
  have rest_eq : low = ofWord rest := prints.low
  rw [rest_eq] at found
  have magnitude := writeMagnitude_eq small found printed.below
  split at magnitude
  case isTrue up =>
    have large : 5 ≤ 10 * rest / 2 ^ 64 := by omega
    have all := prints.enough_digits (by omega) places
    have close := printed.close_of_large proper large (by omega)
    refine ⟨(increment digits).1, ?_, increment_le printed.small, close.readDigits_eq ?_⟩
    · have carried := printed.not_carried proper large (by omega)
      rw [magnitude, text, ← List.singleton_append, ← List.append_assoc,
        roundUp_digits printed.small carried, List.append_assoc, List.singleton_append]
    · rw [length_increment]
      omega
  case isFalse down =>
    refine ⟨digits, by rw [magnitude, text], printed.small, ?_⟩
    by_cases more : rest = 0
    · rw [more] at printed
      exact printed.readDigits_eq
    · have all := prints.enough_digits more places
      exact (printed.close_of_small (by omega)).readDigits_eq (by omega)

end Writing

section RoundTrip

variable {fixed : Option Nat} {m : Nat} {digits : List Nat}

theorem digitChar_isDigit : ∀ digit < 10, (Nat.digitChar digit).isDigit = true := by decide

theorem isDigit_of_mem_digits (small : ∀ digit ∈ digits, digit ≤ 9) :
    ∀ c ∈ digits.map Nat.digitChar, c.isDigit = true := by
  intro c member
  obtain ⟨digit, among, rfl⟩ := List.mem_map.mp member
  exact digitChar_isDigit digit (Nat.lt_succ_of_le (small digit among))

/-- What is read from the text after the sign. -/
theorem readLoDigits_map (written : Written fixed m digits) :
    (readLoDigits (digits.map Nat.digitChar)).map getLow = some (m % 2 ^ 64) := by
  have proper : m % 2 ^ 64 < 2 ^ 64 := Nat.mod_lt m (by decide)
  rw [readLoDigits_eq written.small, written.fraction, Option.map_some,
    getLow_ofWord (by omega), Nat.mod_mod]

/-- A text of digits around a point splits at the point. -/
theorem split_point {front : List Char} (frontDigits : ∀ c ∈ front, c.isDigit = true)
    (back : List Char) :
    (front ++ '.' :: back).takeWhile (fun c => c != '.') = front ∧
      (front ++ '.' :: back).dropWhile (fun c => c != '.') = '.' :: back := by
  have before : ∀ c ∈ front, (c != '.') = true := by
    intro c member
    apply bne_iff_ne.mpr
    rintro rfl
    exact absurd (frontDigits '.' member) (by decide)
  constructor
  · rw [List.takeWhile_append_of_pos before]
    simp
  · rw [List.dropWhile_append_of_pos before]
    simp

theorem readMagnitude_point {front back : List Char} {lo : Nat}
    (frontDigits : ∀ c ∈ front, c.isDigit = true)
    (low : (readLoDigits back).map getLow = some lo) :
    readMagnitude (front ++ '.' :: back) = some (ofParts (signed 64 (readHiDigits front)) lo) := by
  obtain ⟨before, after⟩ := split_point frontDigits back
  have point : (front ++ '.' :: back).contains '.' = true := by simp
  rw [readMagnitude, before, after, point, if_pos rfl, List.drop_succ_cons, List.drop_zero, low]
  rfl

theorem read_negative (str : List Char) :
    read ('-' :: str) = (readMagnitude str).map neg := by
  rw [read]
  show (readMagnitude str).bind _ = _
  cases readMagnitude str <;> rfl

/-- A sign that is not negative counts if there is no other. -/
theorem read_positive {str : List Char} (unsigned : '-' ∉ str) :
    read ('+' :: str) = readMagnitude str := by
  have absent : ('+' :: str).contains '-' = false := by
    rw [List.contains_eq_mem, decide_eq_false_iff_not, List.mem_cons, not_or]
    exact ⟨by decide, unsigned⟩
  have spaces : ('+' :: str).dropWhile (fun c => c == ' ') = '+' :: str := rfl
  rw [read, spaces, absent]
  show (readMagnitude str).bind _ = _
  cases readMagnitude str <;> rfl

theorem not_mem_point {front back : List Char} (frontDigits : ∀ c ∈ front, c.isDigit = true)
    (backDigits : ∀ c ∈ back, c.isDigit = true) : '-' ∉ front ++ '.' :: back := by
  intro member
  rcases List.mem_append.mp member with first | last
  · exact absurd (frontDigits '-' first) (by decide)
  · rcases List.mem_cons.mp last with same | later
    · exact absurd same (by decide)
    · exact absurd (backDigits '-' later) (by decide)

/-- The magnitude comes back from its text, whatever the sign in front of it. -/
theorem readMagnitude_written (small : m < 2 ^ 127) (written : Written fixed m digits) :
    readMagnitude (Nat.toDigits 10 (m / 2 ^ 64) ++ '.' :: digits.map Nat.digitChar) =
      some (ofWord m) := by
  have high : m / 2 ^ 64 < 2 ^ 63 := by omega
  have split := Nat.div_add_mod m (2 ^ 64)
  have portions : m / 2 ^ 64 * 2 ^ 64 + m % 2 ^ 64 = m := by omega
  have frontDigits : ∀ c ∈ Nat.toDigits 10 (m / 2 ^ 64), c.isDigit = true := fun c member =>
    Nat.isDigit_of_mem_toDigits (by decide) (Nat.le_refl 10) member
  rw [readMagnitude_point frontDigits (readLoDigits_map written), readHiDigits_toDigits high,
    signed_of_isSigned (by decide) ⟨by omega, by omega⟩,
    ofParts_natCast high (Nat.mod_lt m (by decide)), portions]

theorem writeMagnitude_read (small : m < 2 ^ 127) (enough : ∀ precision ∈ fixed, 20 ≤ precision) :
    ∃ str, writeMagnitude fixed (ofWord m) = some str ∧ '-' ∉ str ∧
      readMagnitude str = some (ofWord m) := by
  obtain ⟨digits, written⟩ := written small enough
  have frontDigits : ∀ c ∈ Nat.toDigits 10 (m / 2 ^ 64), c.isDigit = true := fun c member =>
    Nat.isDigit_of_mem_toDigits (by decide) (Nat.le_refl 10) member
  exact ⟨_, written.text, not_mem_point frontDigits (isDigit_of_mem_digits written.small),
    readMagnitude_written small written⟩

/-- A number comes back from its text, in the default format and in a fixed one with twenty digits
or more. The most negative number has no magnitude to write. -/
theorem streams {value : Int64x64} (negatable : value.v ≠ -2 ^ 127)
    (enough : ∀ precision ∈ fixed, 20 ≤ precision) :
    (write fixed value).bind read = some value := by
  obtain ⟨least, most⟩ := value.fits
  have small : value.v.natAbs < 2 ^ 127 := by omega
  obtain ⟨str, text, unsigned, back⟩ := writeMagnitude_read small enough
  by_cases negative : value.v < 0
  · have opposite : value.neg = ofWord value.v.natAbs := by
      rw [neg]
      congr 1
      omega
    have again : (ofWord value.v.natAbs).neg = value := by
      rw [neg, ofWord_natCast_v small]
      apply Eq.trans _ value.ofWord_v
      congr 1
      omega
    rw [write, decide_eq_true negative, if_pos rfl, opposite, text]
    show read ('-' :: str) = some value
    rw [read_negative, back, Option.map_some, again]
  · have same : value = ofWord value.v.natAbs := by
      apply Eq.trans value.ofWord_v.symm
      congr 1
      omega
    rw [write, decide_eq_false negative, if_neg Bool.false_ne_true, if_neg Bool.false_ne_true]
    rw [← same] at text back
    rw [text]
    show read ('+' :: str) = some value
    rw [read_positive unsigned, back]

/-- A third, with its sign. -/
theorem streams_third :
    (write (some 30) (ofWord (-(2 ^ 64 / 3)))).bind read = some (ofWord (-(2 ^ 64 / 3))) :=
  have value : (ofWord (-(2 ^ 64 / 3))).v = -(2 ^ 64 / 3) :=
    ofWord_v_of_isSigned ⟨by decide, by decide⟩
  streams (by rw [value]; decide) (by decide)

end RoundTrip

end Ns3.Core.Int64x64
