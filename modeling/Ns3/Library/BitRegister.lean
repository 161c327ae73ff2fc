import Ns3.Library.BitList
import Mathlib.Data.Nat.Bitwise
import Mathlib.Data.UInt

/-!
An octet that holds some bits at its top. Bits are added behind the ones that are there, and are
taken from the top.
-/

namespace Ns3.Library

/-- The bits of the octets, the highest bit of an octet first. -/
def octetBits (octets : List UInt8) : List Bool := octets.flatMap fun octet => bitsOf 8 octet.toNat

@[simp]
theorem octetBits_nil : octetBits [] = [] := rfl

theorem octetBits_cons (octet : UInt8) (octets : List UInt8) :
    octetBits (octet :: octets) = bitsOf 8 octet.toNat ++ octetBits octets := rfl

theorem octetBits_append (front back : List UInt8) :
    octetBits (front ++ back) = octetBits front ++ octetBits back := List.flatMap_append

theorem length_octetBits (octets : List UInt8) : (octetBits octets).length = 8 * octets.length := by
  induction octets with
  | nil => rfl
  | cons octet octets inductionHypothesis =>
      rw [octetBits_cons, List.length_append, inductionHypothesis, length_bitsOf, List.length_cons]
      ring

theorem octetBits_injective {front back : List UInt8} (same : octetBits front = octetBits back) :
    front = back := by
  induction front generalizing back with
  | nil =>
      have lengths := congrArg List.length same
      rw [length_octetBits, length_octetBits, List.length_nil] at lengths
      exact (List.length_eq_zero_iff.mp (by omega)).symm
  | cons octet octets inductionHypothesis =>
      cases back with
      | nil => simp [octetBits_cons, bitsOf] at same
      | cons other others =>
          rw [octetBits_cons, octetBits_cons] at same
          obtain ⟨first, rest⟩ := List.append_inj same (by simp)
          have value := congrArg ofBits first
          rw [ofBits_bitsOf, ofBits_bitsOf, Nat.mod_eq_of_lt octet.toNat_lt,
            Nat.mod_eq_of_lt other.toNat_lt] at value
          rw [UInt8.toNat_inj.mp value, inductionHypothesis rest]

/-- The bits are at the top of the octet, and there is nothing below them. -/
structure Holds (octet : UInt8) (bits : List Bool) : Prop where
  fits : bits.length ≤ 8
  value : octet.toNat = ofBits bits * 2 ^ (8 - bits.length)

/-- The mask of the next bit, when there is room for some bits. There is none in a full octet. -/
def nextMask (room : Nat) : UInt8 := UInt8.ofNat (2 ^ room / 2)

theorem nextMask_succ (room : Nat) : nextMask (room + 1) = UInt8.ofNat (2 ^ room) := by
  rw [nextMask, Nat.pow_succ, Nat.mul_div_cancel _ Nat.two_pos]

theorem nextMask_shift {room : Nat} (fits : room < 8) :
    (nextMask (room + 1) >>> 1) &&& ~~~ nextMask (room + 1) = nextMask room := by
  revert room
  decide

theorem nextMask_half {room : Nat} (fits : room < 8) :
    nextMask (room + 1) >>> 1 = nextMask room := by
  revert room
  decide

theorem decide_and_mask (octet : UInt8) {room : Nat} (fits : room < 8) :
    decide (octet &&& nextMask (room + 1) ≠ 0) = octet.toNat.testBit room := by
  have small : 2 ^ room < 2 ^ 8 := Nat.pow_lt_pow_right Nat.one_lt_two fits
  have positive := Nat.two_pow_pos room
  have value : (octet &&& nextMask (room + 1)).toNat =
      (octet.toNat.testBit room).toNat * 2 ^ room := by
    rw [UInt8.toNat_and, nextMask_succ, UInt8.toNat_ofNat', Nat.mod_eq_of_lt small,
      Nat.and_two_pow]
  cases bit : octet.toNat.testBit room with
  | false =>
      rw [bit, Bool.toNat_false, Nat.zero_mul] at value
      exact decide_eq_false (not_not_intro (UInt8.toNat_inj.mp value))
  | true =>
      rw [bit, Bool.toNat_true, Nat.one_mul] at value
      refine decide_eq_true fun zero => ?_
      rw [zero, UInt8.toNat_zero] at value
      exact positive.ne value

theorem holds_nil : Holds 0 [] := ⟨by decide, rfl⟩

namespace Holds

variable {octet : UInt8} {bits : List Bool}

theorem zero (holds : Holds octet []) : octet = 0 := by
  apply UInt8.toNat_inj.mp
  rw [holds.value]
  rfl

/-- One more bit. -/
theorem push (holds : Holds octet bits) {room : Nat} (left : bits.length + room + 1 = 8)
    (bit : Bool) :
    Holds (octet ||| if bit then nextMask (room + 1) else 0) (bits ++ [bit]) := by
  refine ⟨by rw [List.length_append, List.length_singleton]; omega, ?_⟩
  have space : 8 - bits.length = room + 1 := by omega
  have after : 8 - (bits ++ [bit]).length = room := by
    rw [List.length_append, List.length_singleton]
    omega
  rw [after, ofBits_append, List.length_singleton, Nat.pow_one]
  cases bit with
  | false =>
      rw [if_neg Bool.false_ne_true, UInt8.or_zero, holds.value, space, Nat.pow_succ,
        Nat.mul_comm (2 ^ room), ← Nat.mul_assoc]
      rfl
  | true =>
      have small : 2 ^ room < 2 ^ 8 := Nat.pow_lt_pow_right Nat.one_lt_two (by omega)
      have lower : 2 ^ room < 2 ^ (room + 1) := Nat.pow_lt_pow_right Nat.one_lt_two (by omega)
      rw [if_pos rfl, UInt8.toNat_or, nextMask_succ, UInt8.toNat_ofNat',
        Nat.mod_eq_of_lt small, holds.value, space, Nat.mul_comm, ← Nat.two_pow_add_eq_or_of_lt lower, Nat.pow_succ]
      change _ = (ofBits bits * 2 + 1) * 2 ^ room
      ring

/-- The bits of a full octet. -/
theorem full (holds : Holds octet bits) (length : bits.length = 8) :
    bitsOf 8 octet.toNat = bits := by
  rw [holds.value, length, Nat.sub_self, Nat.pow_zero, Nat.mul_one, ← length, bitsOf_ofBits]

/-- There are zeros behind the bits. -/
theorem padded (holds : Holds octet bits) :
    bitsOf 8 octet.toNat = bits ++ List.replicate (8 - bits.length) false := by
  have length : (bits ++ List.replicate (8 - bits.length) false).length = 8 := by
    have fits := holds.fits
    rw [List.length_append, List.length_replicate]
    omega
  have same := bitsOf_ofBits (bits ++ List.replicate (8 - bits.length) false)
  rwa [length, ofBits_replicate_append, ← holds.value] at same

theorem value_cons {bit : Bool} (holds : Holds octet (bit :: bits)) :
    octet.toNat = bit.toNat * 2 ^ 7 + ofBits bits * 2 ^ (7 - bits.length) := by
  have fits := holds.fits
  rw [List.length_cons] at fits
  have split : 2 ^ bits.length * 2 ^ (7 - bits.length) = 2 ^ 7 := by
    rw [← Nat.pow_add, Nat.add_sub_cancel' (by omega)]
  have room : 8 - (bit :: bits).length = 7 - bits.length := by
    rw [List.length_cons]
    omega
  rw [holds.value, room, ofBits_cons, Nat.add_mul, Nat.mul_assoc, split]

theorem rest_lt {bit : Bool} (holds : Holds octet (bit :: bits)) :
    ofBits bits * 2 ^ (7 - bits.length) < 2 ^ 7 := by
  have fits := holds.fits
  rw [List.length_cons] at fits
  calc ofBits bits * 2 ^ (7 - bits.length)
      < 2 ^ bits.length * 2 ^ (7 - bits.length) :=
        Nat.mul_lt_mul_of_pos_right (ofBits_lt bits) (Nat.two_pow_pos _)
    _ = 2 ^ 7 := by rw [← Nat.pow_add, Nat.add_sub_cancel' (by omega)]

/-- The highest bit. -/
theorem head {bit : Bool} (holds : Holds octet (bit :: bits)) :
    decide (octet &&& 0x80 ≠ 0) = bit := by
  have value := holds.value_cons
  have rest := holds.rest_lt
  have top : octet.toNat.testBit 7 = bit := by
    rw [Nat.testBit_eq_decide_div_mod_eq]
    cases bit <;> simp at value ⊢ <;> omega
  rw [← top, ← decide_and_mask octet (by decide)]
  rfl

/-- The other bits. -/
theorem tail {bit : Bool} (holds : Holds octet (bit :: bits)) : Holds (octet <<< 1) bits := by
  have fits := holds.fits
  rw [List.length_cons] at fits
  refine ⟨by omega, ?_⟩
  have value := holds.value_cons
  have rest := holds.rest_lt
  have double : 2 ^ (8 - bits.length) = 2 * 2 ^ (7 - bits.length) := by
    rw [show 8 - bits.length = 7 - bits.length + 1 by omega, Nat.pow_succ, Nat.mul_comm]
  rw [UInt8.toNat_shiftLeft, double, Nat.mul_left_comm, value]
  change (_ <<< 1) % 2 ^ 8 = _
  rw [Nat.shiftLeft_eq]
  cases bit <;> simp <;> omega

end Holds

theorem holds_shiftLeft (octet : UInt8) {taken : Nat} (fits : taken < 8) :
    Holds (octet <<< UInt8.ofNat taken) (bitsOf (8 - taken) octet.toNat) := by
  refine ⟨by rw [length_bitsOf]; omega, ?_⟩
  have count : (UInt8.ofNat taken).toNat % 8 = taken := by
    rw [UInt8.toNat_ofNat']
    omega
  have whole : 2 ^ 8 = 2 ^ (8 - taken) * 2 ^ taken := by
    rw [← Nat.pow_add, Nat.sub_add_cancel fits.le]
  rw [UInt8.toNat_shiftLeft, count, Nat.shiftLeft_eq, whole, Nat.mul_mod_mul_right, length_bitsOf,
    ofBits_bitsOf, Nat.sub_sub_self fits.le]

end Ns3.Library
