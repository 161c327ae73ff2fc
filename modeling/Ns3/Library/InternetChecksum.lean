import Ns3.Library.Word

/-!
The ones' complement sum of the 16-bit words of some bytes.

Carries are added back at the low end, so the sum counts modulo `2 ^ 16 - 1`, and it is only zero if
all the words are. The complement of the sum, put in the place of a zero word, makes the sum all
ones.
-/

namespace Ns3.Library

/-- Add the carries back, until there are none. -/
def foldCarries (sum : Nat) : Nat :=
  if sum < 2 ^ 16 then sum else foldCarries (sum % 2 ^ 16 + sum / 2 ^ 16)
termination_by sum
decreasing_by omega

/-- The sum of the words, the low byte of a word first. A last byte is a word of its own. -/
def sumWords : List UInt8 → Nat
  | low :: high :: rest => ofBytes [low, high] + sumWords rest
  | [last] => last.toNat
  | [] => 0

theorem foldCarries_lt (sum : Nat) : foldCarries sum < 2 ^ 16 := by
  induction sum using foldCarries.induct with
  | case1 sum small => rwa [foldCarries, if_pos small]
  | case2 sum large inductionHypothesis => rwa [foldCarries, if_neg large]

theorem foldCarries_mod (sum : Nat) : foldCarries sum % (2 ^ 16 - 1) = sum % (2 ^ 16 - 1) := by
  induction sum using foldCarries.induct with
  | case1 sum small => rw [foldCarries, if_pos small]
  | case2 sum large inductionHypothesis =>
      rw [foldCarries, if_neg large, inductionHypothesis]
      omega

theorem foldCarries_pos {sum : Nat} (positive : 0 < sum) : 0 < foldCarries sum := by
  induction sum using foldCarries.induct with
  | case1 sum small => rwa [foldCarries, if_pos small]
  | case2 sum large inductionHypothesis =>
      rw [foldCarries, if_neg large]
      exact inductionHypothesis (by omega)

/-- A sum and the complement of its words. -/
theorem foldCarries_complement (sum : Nat) :
    foldCarries (sum + (2 ^ 16 - 1 - foldCarries sum)) = 2 ^ 16 - 1 := by
  have folded := foldCarries_mod sum
  have small := foldCarries_lt sum
  have positive : 0 < sum + (2 ^ 16 - 1 - foldCarries sum) := by
    rcases Nat.eq_zero_or_pos sum with zero | positive
    · rw [zero, foldCarries]
      decide
    · omega
  have whole := foldCarries_mod (sum + (2 ^ 16 - 1 - foldCarries sum))
  have below := foldCarries_lt (sum + (2 ^ 16 - 1 - foldCarries sum))
  have above := foldCarries_pos positive
  generalize foldCarries (sum + (2 ^ 16 - 1 - foldCarries sum)) = result at whole below above ⊢
  omega

theorem sumWords_append {front : List UInt8} (even : front.length % 2 = 0) (back : List UInt8) :
    sumWords (front ++ back) = sumWords front + sumWords back := by
  induction front using sumWords.induct with
  | case1 low high rest inductionHypothesis =>
      rw [List.length_cons, List.length_cons] at even
      rw [List.cons_append, List.cons_append, sumWords, sumWords,
        inductionHypothesis (by omega), Nat.add_assoc]
  | case2 last => cases even
  | case3 => rw [List.nil_append, sumWords, Nat.zero_add]

theorem sumWords_le (bytes : List UInt8) :
    sumWords bytes ≤ (bytes.length + 1) / 2 * (2 ^ 16 - 1) := by
  induction bytes using sumWords.induct with
  | case1 low high rest inductionHypothesis =>
      have lowSmall := low.toNat_lt
      have highSmall := high.toNat_lt
      rw [sumWords, List.length_cons, List.length_cons, ofBytes, ofBytes, ofBytes]
      have more : (rest.length + 1 + 1 + 1) / 2 = (rest.length + 1) / 2 + 1 := by omega
      rw [more, Nat.add_mul]
      omega
  | case2 last =>
      have small := last.toNat_lt
      rw [sumWords, List.length_singleton]
      omega
  | case3 => exact Nat.zero_le _

/-- A word in the place of a zero word. -/
theorem sumWords_word {front back : List UInt8} {word : Nat} (even : front.length % 2 = 0)
    (fits : word < 2 ^ 16) :
    sumWords (front ++ toBytes 2 word ++ back) = sumWords (front ++ [0, 0] ++ back) + word := by
  have value := @ofBytes_toBytes 2 word fits
  rw [toBytes, toBytes, toBytes] at value ⊢
  rw [List.append_assoc, List.append_assoc, sumWords_append even, sumWords_append even,
    List.cons_append, List.cons_append, List.cons_append, List.cons_append, List.nil_append,
    sumWords, sumWords, value]
  change _ = _ + (0 + _) + _
  omega

/-- The sum is all ones if the complement of the sum stands where a zero word was. -/
theorem foldCarries_sumWords {front back : List UInt8} (initial : Nat)
    (even : front.length % 2 = 0) :
    foldCarries (initial + sumWords (front ++ toBytes 2 (2 ^ 16 - 1 -
      foldCarries (initial + sumWords (front ++ [0, 0] ++ back))) ++ back)) = 2 ^ 16 - 1 := by
  rw [sumWords_word even (by omega), ← Nat.add_assoc]
  exact foldCarries_complement _

end Ns3.Library
