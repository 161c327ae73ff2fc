import Mathlib.Algebra.Order.Ring.Int
import Mathlib.Data.List.TakeWhile
import Mathlib.Data.Nat.Basic

/-!
Lists that are sorted by a key.

The lists are those of maps and queues: no two entries have the same key. What a
loop removes from the front while the key is small is exactly what is small.
-/

namespace Ns3.Library

universe u

variable {Entry : Type u} {key : Entry → Nat} {entries : List Entry} {bound : Nat}

/-- The entries are in the order of their keys, which are distinct. -/
def SortedBy (key : Entry → Nat) (entries : List Entry) : Prop :=
  entries.Pairwise fun a b => key a < key b

theorem SortedBy.nil : SortedBy key [] := List.Pairwise.nil

theorem SortedBy.sublist {fewer : List Entry} (sorted : SortedBy key entries)
    (part : List.Sublist fewer entries) : SortedBy key fewer :=
  List.Pairwise.sublist part sorted

theorem SortedBy.tail {first : Entry} (sorted : SortedBy key (first :: entries)) :
    SortedBy key entries := (List.pairwise_cons.mp sorted).2

theorem SortedBy.head_lt {first entry : Entry} (sorted : SortedBy key (first :: entries))
    (later : entry ∈ entries) : key first < key entry :=
  (List.pairwise_cons.mp sorted).1 entry later

/-- The order depends only on the order of the keys. -/
theorem SortedBy.of_map {other : Entry → Nat} (sorted : SortedBy key entries)
    (same : ∀ a ∈ entries, ∀ b ∈ entries, key a < key b → other a < other b) :
    SortedBy other entries :=
  List.Pairwise.imp_of_mem (fun {a b} inA inB smaller => same a inA b inB smaller) sorted

theorem lt_of_mem_takeWhile {entry : Entry}
    (taken : entry ∈ entries.takeWhile fun entry => decide (key entry < bound)) :
    key entry < bound := by
  have passes := List.mem_takeWhile_imp taken
  exact of_decide_eq_true passes

/-- What is left after the small keys are removed from the front is not small. -/
theorem SortedBy.le_of_mem_dropWhile (sorted : SortedBy key entries) {entry : Entry}
    (left : entry ∈ entries.dropWhile fun entry => decide (key entry < bound)) :
    bound ≤ key entry := by
  induction entries with
  | nil => exact absurd left List.not_mem_nil
  | cons first rest inductionHypothesis =>
      rw [List.dropWhile_cons] at left
      split at left
      next => exact inductionHypothesis sorted.tail left
      next large =>
        have firstLarge : bound ≤ key first := by simpa using large
        rcases List.mem_cons.mp left with rfl | later
        · exact firstLarge
        · exact le_of_lt (lt_of_le_of_lt firstLarge (sorted.head_lt later))

end Ns3.Library
