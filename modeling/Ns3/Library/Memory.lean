import Mathlib.Algebra.Order.Ring.Int
import Mathlib.Data.List.Basic

/-!
Flat memory.

A memory gives every offset a cell. `write` stores a list of cells from an
offset on and `read` takes a range out as a list, so that `memcpy` is a `write`
of a `read`. The lemmas say when a range is untouched by a write and what a
written range reads back as.
-/

namespace Ns3.Library

universe u

/-- The cells of a block, by offset. -/
abbrev Memory (Cell : Type u) := Nat → Cell

namespace Memory

variable {Cell : Type u} (memory : Memory Cell)

/-- Store the cells from the offset on. -/
def write (offset : Nat) (cells : List Cell) : Memory Cell := fun i =>
  if offset ≤ i then cells[i - offset]?.getD (memory i) else memory i

/-- The cells of a range. -/
def read (offset length : Nat) : List Cell :=
  (List.range length).map fun i => memory (offset + i)

@[simp]
theorem length_read (offset length : Nat) : (memory.read offset length).length = length := by
  simp [read]

@[simp]
theorem read_zero (offset : Nat) : memory.read offset 0 = [] := rfl

theorem read_succ (offset length : Nat) :
    memory.read offset (length + 1) = memory offset :: memory.read (offset + 1) length := by
  rw [read, List.range_succ_eq_map, List.map_cons, List.map_map, Nat.add_zero]
  refine congrArg (memory offset :: ·) (List.map_congr_left fun i _ => ?_)
  exact congrArg memory (by omega)

theorem read_add (offset front back : Nat) :
    memory.read offset (front + back) =
      memory.read offset front ++ memory.read (offset + front) back := by
  rw [read, List.range_add, List.map_append, List.map_map]
  refine congrArg (memory.read offset front ++ ·) (List.map_congr_left fun i _ => ?_)
  exact congrArg memory (Nat.add_assoc offset front i).symm

theorem drop_read (offset length count : Nat) :
    (memory.read offset length).drop count = memory.read (offset + count) (length - count) := by
  rcases Nat.le_total count length with within | beyond
  · obtain ⟨back, rfl⟩ := Nat.exists_eq_add_of_le within
    rw [read_add, List.drop_append, List.drop_of_length_le (by simp), List.nil_append,
      length_read, Nat.sub_self, List.drop_zero, Nat.add_sub_cancel_left]
  · rw [List.drop_of_length_le (by simpa using beyond), Nat.sub_eq_zero_of_le beyond, read_zero]

theorem take_read (offset length count : Nat) :
    (memory.read offset length).take count = memory.read offset (min count length) := by
  rcases Nat.le_total count length with within | beyond
  · obtain ⟨back, rfl⟩ := Nat.exists_eq_add_of_le within
    rw [read_add, List.take_append, length_read, Nat.sub_self, List.take_zero, List.append_nil,
      List.take_of_length_le (by simp), Nat.min_eq_left within]
  · rw [List.take_of_length_le (by simpa using beyond), Nat.min_eq_right beyond]

theorem write_of_outside {offset i : Nat} {cells : List Cell}
    (outside : i < offset ∨ offset + cells.length ≤ i) : memory.write offset cells i = memory i := by
  rw [write]
  split
  next after =>
    rw [List.getElem?_eq_none (by omega), Option.getD_none]
  next => rfl

theorem write_of_inside {offset i : Nat} {cells : List Cell} (inside : i < cells.length) :
    memory.write offset cells (offset + i) = cells[i] := by
  rw [write, if_pos (Nat.le_add_right _ _), Nat.add_sub_cancel_left,
    List.getElem?_eq_getElem inside, Option.getD_some]

@[simp]
theorem write_nil (offset : Nat) : memory.write offset [] = memory := by
  funext i
  exact memory.write_of_outside (by simp; omega)

/-- A range that the write does not touch. -/
theorem read_write_of_disjoint {offset length target : Nat} {cells : List Cell}
    (disjoint : offset + length ≤ target ∨ target + cells.length ≤ offset) :
    (memory.write target cells).read offset length = memory.read offset length := by
  refine List.map_congr_left fun i bounded => ?_
  have inRange := List.mem_range.mp bounded
  exact memory.write_of_outside (by omega)

/-- The written range reads back as what was written. -/
theorem read_write {offset length : Nat} {cells : List Cell} (same : length = cells.length) :
    (memory.write offset cells).read offset length = cells := by
  subst same
  refine List.ext_getElem (by simp) fun i _ bounded => ?_
  simp only [read, List.getElem_map, List.getElem_range]
  exact memory.write_of_inside bounded

/-- Part of a range that was copied from another memory. -/
theorem read_copy (source : Memory Cell) {target offset copied skipped length : Nat}
    (within : skipped + length ≤ copied) :
    (memory.write target (source.read offset copied)).read (target + skipped) length =
      source.read (offset + skipped) length := by
  refine List.map_congr_left fun i bounded => ?_
  have inRange := List.mem_range.mp bounded
  have inCopy : skipped + i < (source.read offset copied).length := by
    rw [length_read]
    omega
  rw [Nat.add_assoc, memory.write_of_inside inCopy]
  simp only [read, List.getElem_map, List.getElem_range, Nat.add_assoc]

/-- Two writes in a row are one. -/
theorem write_append (offset : Nat) (front back : List Cell) :
    memory.write offset (front ++ back) =
      (memory.write offset front).write (offset + front.length) back := by
  funext i
  rcases Nat.lt_or_ge i (offset + front.length) with before | after
  · rw [write_of_outside _ (.inl before)]
    rcases Nat.lt_or_ge i offset with outside | inside
    · rw [write_of_outside _ (.inl outside), write_of_outside _ (.inl outside)]
    · obtain ⟨j, rfl⟩ := Nat.exists_eq_add_of_le inside
      have inFront : j < front.length := by omega
      rw [write_of_inside _ inFront, write_of_inside _ (by simp; omega),
        List.getElem_append_left inFront]
  · obtain ⟨j, rfl⟩ := Nat.exists_eq_add_of_le after
    rcases Nat.lt_or_ge j back.length with inside | outside
    · rw [write_of_inside _ inside, Nat.add_assoc, write_of_inside _ (by simpa using inside),
        List.getElem_append_right (by omega)]
      simp
    · have beyond : offset + (front ++ back).length ≤ offset + front.length + j := by
        rw [List.length_append]
        omega
      rw [write_of_outside _ (.inr beyond), write_of_outside _ (.inr (by omega)),
        write_of_outside _ (.inr (by omega))]

end Memory

end Ns3.Library
