import Mathlib.Data.Nat.Digits.Lemmas

/-!
Fields of bits packed into words.

The words are the digits of one number, the lowest word first. A field is a range of its bits,
which lies in one word or across two neighbours.
-/

namespace Ns3.Library

/-- A word of a packed number. -/
theorem getElem?_ofDigits {base : Nat} {words : List Nat} (positive : 0 < base)
    (small : ∀ word ∈ words, word < base) {i : Nat} (inside : i < words.length) :
    words[i]? = some (Nat.ofDigits base words / base ^ i % base) := by
  induction words generalizing i with
  | nil => cases inside
  | cons word words inductionHypothesis =>
      have first : word < base := small word List.mem_cons_self
      rw [Nat.ofDigits_cons]
      cases i with
      | zero =>
          rw [Nat.pow_zero, Nat.div_one, Nat.add_mul_mod_self_left, Nat.mod_eq_of_lt first]
          rfl
      | succ i =>
          have rest := inductionHypothesis (fun other member => small other (.tail _ member))
            (Nat.lt_of_succ_lt_succ inside)
          rw [List.getElem?_cons_succ, rest, Nat.pow_succ', ← Nat.div_div_eq_div_mul,
            Nat.add_mul_div_left _ _ positive, Nat.div_eq_of_lt first, Nat.zero_add]

/-- A field at the top of the lowest bits. -/
theorem mod_div_two_pow (n : Nat) {width size : Nat} (within : width ≤ size) :
    n % 2 ^ size / 2 ^ (size - width) = n / 2 ^ (size - width) % 2 ^ width := by
  have split : 2 ^ size = 2 ^ (size - width) * 2 ^ width := by
    rw [← Nat.pow_add, Nat.sub_add_cancel within]
  rw [split, Nat.mod_mul_right_div_self]

/-- A field whose lower part and upper part are in two places. -/
theorem field_across (n lower upper : Nat) :
    n / 2 ^ lower % 2 ^ upper * 2 ^ lower + n % 2 ^ lower = n % 2 ^ (lower + upper) := by
  rw [Nat.pow_add, Nat.mod_mul, Nat.add_comm, Nat.mul_comm]

theorem or_shiftLeft_of_lt {low size : Nat} (fits : low < 2 ^ size) (high : Nat) :
    high * 2 ^ size ||| low = high * 2 ^ size + low := by
  rw [← Nat.shiftLeft_eq, Nat.shiftLeft_add_eq_or_of_lt fits]

end Ns3.Library
