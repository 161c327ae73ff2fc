import Mathlib.Algebra.Order.Ring.Int
import Mathlib.Data.Multiset.Filter

/-!
Pools of values that live in a common store.

A pool is a list of values, and what a value stands for depends on the store. An
operation replaces one value, adds one or takes one away, and leaves what the
others stand for as it is. The lemmas say what the pool as a whole stands for
afterwards, and split the pool into the operand and the others.
-/

namespace Ns3.Library

universe u v

variable {Value : Type u} {Meaning : Type v}

/-- The operand and the others. -/
theorem coe_eq_cons_eraseIdx {values : List Value} {i : Nat} {value : Value}
    (found : values[i]? = some value) :
    (values : Multiset Value) = value ::ₘ (values.eraseIdx i : Multiset Value) := by
  obtain ⟨bounded, rfl⟩ := List.getElem?_eq_some_iff.mp found
  exact Multiset.coe_eq_coe.mpr (List.getElem_cons_eraseIdx_perm bounded).symm

/-- The operand is replaced. -/
theorem coe_set {values : List Value} {i : Nat} (bounded : i < values.length) (value : Value) :
    ((values.set i value : List Value) : Multiset Value) =
      value ::ₘ (values.eraseIdx i : Multiset Value) :=
  Multiset.coe_eq_coe.mpr (List.set_perm_cons_eraseIdx bounded value)

/-- A value is added. -/
theorem coe_append_singleton (values : List Value) (value : Value) :
    ((values ++ [value] : List Value) : Multiset Value) = value ::ₘ (values : Multiset Value) :=
  Multiset.coe_eq_coe.mpr (List.perm_append_singleton value values)

/-- Replacing the operand replaces what it stands for. -/
theorem map_set_of_frame {before after : Value → Meaning} {values : List Value} {i : Nat}
    (frame : ∀ other ∈ (values.eraseIdx i : Multiset Value), after other = before other)
    (value : Value) :
    (values.set i value).map after = (values.map before).set i (after value) := by
  rw [List.map_set]
  refine List.ext_getElem (by simp) fun j inAfter _ => ?_
  rw [List.getElem_set, List.getElem_set]
  split
  next => rfl
  next different =>
    rw [List.getElem_map, List.getElem_map]
    have bounded : j < values.length := by simpa using inAfter
    exact frame _ (List.mem_eraseIdx_iff_getElem.mpr ⟨j, bounded, Ne.symm different, rfl⟩)

/-- Adding a value adds what it stands for. -/
theorem map_append_of_frame {before after : Value → Meaning} {values : List Value}
    (frame : ∀ other ∈ (values : Multiset Value), after other = before other) (value : Value) :
    (values ++ [value]).map after = values.map before ++ [after value] := by
  rw [List.map_append, List.map_singleton, List.map_congr_left frame]

end Ns3.Library
