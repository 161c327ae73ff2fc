import Mathlib.Algebra.Order.Ring.Int
import Mathlib.Tactic.Common

/-!
Fields of a machine word.

A field is a number of bits from a position on. Setting a field only adds bits to the word,
so a field reads back what it was set to if it was clear before. Fields that do not share a
bit do not disturb each other.
-/

namespace Ns3.Library

/-- Add the bits of a value from the position on. -/
def setField {bits width : Nat} (position : Nat) (word : BitVec bits) (value : BitVec width) :
    BitVec bits :=
  word ||| value.setWidth bits <<< position

/-- The bits from the position on. -/
def getField {bits : Nat} (position width : Nat) (word : BitVec bits) : BitVec width :=
  (word >>> position).setWidth width

variable {bits width other : Nat} {position place : Nat}

theorem getLsbD_setField (word : BitVec bits) (value : BitVec width) (i : Nat) :
    (setField position word value).getLsbD i =
      (word.getLsbD i || (decide (i < bits) && decide (position ≤ i) &&
        value.getLsbD (i - position))) := by
  unfold setField
  rw [BitVec.getLsbD_or, BitVec.getLsbD_shiftLeft, BitVec.getLsbD_setWidth]
  by_cases small : i < bits
  · by_cases before : i < position
    · simp [before, Nat.not_le.mpr before]
    · have inside : i - position < bits := by omega
      simp [small, before, Nat.le_of_not_lt before, inside]
  · simp [small]

theorem getLsbD_getField (word : BitVec bits) (i : Nat) :
    (getField position width word).getLsbD i =
      (decide (i < width) && word.getLsbD (position + i)) := by
  unfold getField
  rw [BitVec.getLsbD_setWidth, BitVec.getLsbD_ushiftRight]

/-- A field that was set. -/
theorem getField_setField (fits : position + width ≤ bits) (word : BitVec bits)
    (value : BitVec width) :
    getField position width (setField position word value) =
      getField position width word ||| value := by
  apply BitVec.eq_of_getLsbD_eq
  intro i small
  rw [BitVec.getLsbD_or, getLsbD_getField, getLsbD_getField, getLsbD_setField]
  have inside : position + i < bits := by omega
  simp [small, inside]

/-- Another field. -/
theorem getField_setField_of_disjoint
    (disjoint : position + width ≤ place ∨ place + other ≤ position) (word : BitVec bits)
    (value : BitVec other) :
    getField position width (setField place word value) = getField position width word := by
  apply BitVec.eq_of_getLsbD_eq
  intro i small
  rw [getLsbD_getField, getLsbD_getField, getLsbD_setField]
  rcases disjoint with below | above
  · have before : ¬ place ≤ position + i := by omega
    simp [before]
  · have beyond : other ≤ position + i - place := by omega
    simp [BitVec.getLsbD_of_ge value _ beyond]

end Ns3.Library
