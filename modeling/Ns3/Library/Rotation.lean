import Mathlib.Algebra.Order.Ring.Int
import Mathlib.Data.List.Rotate
import Mathlib.Data.Nat.ModEq

/-!
Lists that are read from a head that moves round.

A circular store keeps its cells in place and moves its head. What it stands for
is the list of its cells rotated to the head. Writing a cell writes the list at
the distance from the head, and clearing the first cell while moving the head on
drops it from the list and adds the cleared cell at the end.
-/

namespace Ns3.Library

universe u

variable {Cell : Type u} {cells : List Cell} {head distance : Nat}

theorem getD_rotate (cells : List Cell) (head : Nat) (default : Cell)
    (inside : distance < cells.length) :
    cells.getD ((head + distance) % cells.length) default =
      (cells.rotate head).getD distance default := by
  rw [List.getD_eq_getElem?_getD, List.getD_eq_getElem?_getD, List.getElem?_rotate inside,
    Nat.add_comm head distance]

theorem mod_add_injective {size other : Nat} (inside : distance < size) (otherInside : other < size)
    (same : (head + distance) % size = (head + other) % size) : distance = other := by
  have congruent : distance ≡ other [MOD size] := Nat.ModEq.add_left_cancel' head same
  exact Nat.ModEq.eq_of_lt_of_lt congruent inside otherInside

/-- Writing a cell writes the list at its distance from the head. -/
theorem rotate_set (cells : List Cell) (head : Nat) (cell : Cell)
    (inside : distance < cells.length) :
    (cells.set ((head + distance) % cells.length) cell).rotate head =
      (cells.rotate head).set distance cell := by
  refine List.ext_getElem (by simp) fun index inLeft inRight => ?_
  have bounded : index < cells.length := by simpa using inLeft
  rw [List.getElem_rotate, List.getElem_set, List.getElem_set, List.getElem_rotate]
  simp only [List.length_set]
  by_cases same : distance = index
  · rw [if_pos (by rw [same, Nat.add_comm]), if_pos same]
  · rw [if_neg, if_neg same]
    intro position
    rw [Nat.add_comm index head] at position
    exact same (mod_add_injective inside bounded position)

/-- Clearing the first cell and moving the head on. -/
theorem rotate_shift (cells : List Cell) (cell : Cell) (inside : head < cells.length) :
    (cells.set head cell).rotate ((head + 1) % cells.length) =
      (cells.rotate head).tail ++ [cell] := by
  have length : (cells.set head cell).length = cells.length := List.length_set
  have moved : (cells.set head cell).rotate ((head + 1) % cells.length) =
      ((cells.set head cell).rotate head).rotate 1 := by
    rw [← length, List.rotate_mod, List.rotate_rotate]
  have written : (cells.set head cell).rotate head = (cells.rotate head).set 0 cell := by
    have atHead := rotate_set cells head cell (Nat.zero_lt_of_lt inside)
    rwa [Nat.add_zero, Nat.mod_eq_of_lt inside] at atHead
  rw [moved, written]
  cases rotated : cells.rotate head with
  | nil =>
      have empty : cells = [] := List.rotate_eq_nil_iff.mp rotated
      rw [empty] at inside
      exact absurd inside (Nat.not_lt_zero _)
  | cons first rest =>
      rw [List.set_cons_zero, List.rotate_cons_succ, List.rotate_zero, List.tail_cons]

end Ns3.Library
