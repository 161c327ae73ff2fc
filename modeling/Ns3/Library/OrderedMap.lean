import Mathlib.Algebra.Order.Ring.Int
import Mathlib.Data.List.Nodup
import Mathlib.Order.Nat

/-!
Maps with natural keys that are walked in the order of the keys.

The entries are a list without two of the same key. What an operation does is told by `find`,
and the order of the entries only matters to a walk over them.
-/

namespace Ns3.Library

universe u

/-- A map as the list of its entries, in the order of their keys. -/
structure OrderedMap (Value : Type u) where
  entries : List (Nat × Value)
  ascending : entries.Pairwise (·.1 < ·.1)

namespace OrderedMap

variable {Value : Type u}

/-- The map without entries. -/
def empty : OrderedMap Value := ⟨[], .nil⟩

/-- The value of a key. -/
def find (map : OrderedMap Value) (key : Nat) : Option Value :=
  (List.find? (·.1 == key) map.entries).map (·.2)

/-- Put an entry where its key belongs, in place of one with the same key. -/
def place (key : Nat) (value : Value) : List (Nat × Value) → List (Nat × Value)
  | [] => [(key, value)]
  | entry :: rest =>
      if key < entry.1 then (key, value) :: entry :: rest
      else if key = entry.1 then (key, value) :: rest
      else entry :: place key value rest

theorem mem_place {key : Nat} {value : Value} {entries : List (Nat × Value)}
    (ascending : entries.Pairwise (·.1 < ·.1)) {entry : Nat × Value} :
    entry ∈ place key value entries ↔
      entry = (key, value) ∨ entry ∈ entries ∧ entry.1 ≠ key := by
  induction entries with
  | nil => simp [place]
  | cons first rest inductionHypothesis =>
      obtain ⟨less, ascending⟩ := List.pairwise_cons.mp ascending
      rw [place]
      split
      case isTrue before =>
        rw [List.mem_cons, or_congr_right]
        refine (and_iff_left_of_imp fun member => ?_).symm
        rcases List.mem_cons.mp member with rfl | further
        · omega
        · have := less entry further
          omega
      case isFalse notBefore =>
        split
        case isTrue same =>
          rw [List.mem_cons, or_congr_right, List.mem_cons, or_and_right]
          constructor
          · intro further
            have := less entry further
            exact .inr ⟨further, by omega⟩
          · rintro (⟨rfl, different⟩ | ⟨further, _⟩)
            · exact absurd same.symm different
            · exact further
        case isFalse different =>
          rw [List.mem_cons, inductionHypothesis ascending, List.mem_cons]
          constructor
          · rintro (rfl | new | ⟨further, other⟩)
            · exact .inr ⟨.inl rfl, fun same => different same.symm⟩
            · exact .inl new
            · exact .inr ⟨.inr further, other⟩
          · rintro (new | ⟨rfl | further, other⟩)
            · exact .inr (.inl new)
            · exact .inl rfl
            · exact .inr (.inr ⟨further, other⟩)

theorem ascending_place {key : Nat} {value : Value} {entries : List (Nat × Value)}
    (ascending : entries.Pairwise (·.1 < ·.1)) :
    (place key value entries).Pairwise (·.1 < ·.1) := by
  induction entries with
  | nil => simp [place]
  | cons first rest inductionHypothesis =>
      obtain ⟨less, ascending'⟩ := List.pairwise_cons.mp ascending
      rw [place]
      split
      case isTrue before =>
        refine List.pairwise_cons.mpr ⟨fun entry member => ?_, ascending⟩
        rcases List.mem_cons.mp member with rfl | further
        · exact before
        · exact before.trans (less entry further)
      case isFalse notBefore =>
        split
        case isTrue same =>
          exact List.pairwise_cons.mpr ⟨fun entry member => same ▸ less entry member, ascending'⟩
        case isFalse different =>
          refine List.pairwise_cons.mpr ⟨fun entry member => ?_, inductionHypothesis ascending'⟩
          rcases (mem_place ascending').mp member with rfl | ⟨further, _⟩
          · exact lt_of_le_of_ne (Nat.not_lt.mp notBefore) (Ne.symm different)
          · exact less entry further

/-- Give a key a value. -/
def insert (map : OrderedMap Value) (key : Nat) (value : Value) : OrderedMap Value :=
  ⟨place key value map.entries, ascending_place map.ascending⟩

/-- Remove a key. -/
def erase (map : OrderedMap Value) (key : Nat) : OrderedMap Value :=
  ⟨map.entries.filter (·.1 != key), map.ascending.filter _⟩

variable {map : OrderedMap Value} {key other : Nat} {value : Value}

theorem find_eq_some_iff : map.find key = some value ↔ (key, value) ∈ map.entries := by
  rw [find, Option.map_eq_some_iff]
  constructor
  · rintro ⟨⟨found, _⟩, looked, rfl⟩
    obtain rfl : found = key := by simpa using List.find?_some looked
    exact List.mem_of_find?_eq_some looked
  · intro member
    have keys : (map.entries.map (·.1)).Nodup := by
      rw [List.Nodup, List.pairwise_map]
      exact map.ascending.imp fun less => less.ne
    cases looked : map.entries.find? (·.1 == key) with
    | none => exact absurd (List.find?_eq_none.mp looked _ member) (by simp)
    | some entry =>
        have same : entry.1 = key := by simpa using List.find?_some looked
        have equal := List.inj_on_of_nodup_map keys (List.mem_of_find?_eq_some looked) member same
        exact ⟨entry, rfl, by rw [equal]⟩

theorem find_insert : (map.insert key value).find other =
    if other = key then some value else map.find other := by
  refine Option.ext fun found => ?_
  rw [find_eq_some_iff, insert, mem_place map.ascending]
  split
  case isTrue same => simp [same, eq_comm]
  case isFalse different => simp [different, find_eq_some_iff]

theorem find_erase : (map.erase key).find other =
    if other = key then none else map.find other := by
  refine Option.ext fun found => ?_
  rw [find_eq_some_iff, erase, List.mem_filter]
  split
  case isTrue same => simp [same]
  case isFalse different => simp [different, find_eq_some_iff]

@[simp]
theorem find_empty : (empty : OrderedMap Value).find key = none := rfl

end OrderedMap

end Ns3.Library
