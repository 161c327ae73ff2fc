import Mathlib.Algebra.Order.Ring.Int
import Mathlib.Logic.Equiv.Basic
import Mathlib.Order.Basic
import Mathlib.Tactic.Common

/-!
Binary heap order on the slots `1 .. size - 1`.

The heap is seen only through the key of each slot, a function on slot numbers,
and an exchange of two slots is composition with `Equiv.swap`. One slot is
allowed to be out of place: `UpReady` while it percolates towards the root and
`DownReady` while it percolates towards the leaves.
-/

namespace Ns3.Library

universe u

variable {Key : Type u} [LinearOrder Key]

/-- No slot's key is greater than the key of one of its children. -/
def HeapOrdered (key : Nat → Key) (size : Nat) : Prop :=
  ∀ slot, 2 ≤ slot → slot < size → key (slot / 2) ≤ key slot

/-- Heap order, except that the slot may be smaller than its parent. -/
structure UpReady (key : Nat → Key) (size slot : Nat) : Prop where
  elsewhere : ∀ other, 2 ≤ other → other < size → other ≠ slot →
    key (other / 2) ≤ key other
  grandparent : ∀ child, child / 2 = slot → child < size → 2 ≤ slot →
    key (slot / 2) ≤ key child

/-- Heap order, except that the slot may be greater than its children. -/
structure DownReady (key : Nat → Key) (size slot : Nat) : Prop where
  elsewhere : ∀ other, 2 ≤ other → other < size → other / 2 ≠ slot →
    key (other / 2) ≤ key other
  grandparent : ∀ child, child / 2 = slot → child < size → 2 ≤ slot →
    key (slot / 2) ≤ key child

theorem HeapOrdered.root_le {key : Nat → Key} {size : Nat}
    (ordered : HeapOrdered key size) (slot : Nat) (positive : 1 ≤ slot)
    (bounded : slot < size) : key 1 ≤ key slot := by
  induction slot using Nat.strongRecOn with
  | ind slot inductionHypothesis =>
      by_cases root : slot = 1
      · rw [root]
      · have above := inductionHypothesis (slot / 2) (by omega) (by omega) (by omega)
        exact above.trans (ordered slot (by omega) bounded)

theorem UpReady.finish {key : Nat → Key} {size slot : Nat}
    (ready : UpReady key size slot)
    (placed : 2 ≤ slot → key (slot / 2) ≤ key slot) :
    HeapOrdered key size := by
  intro other inner bounded
  by_cases same : other = slot
  · subst other
    exact placed inner
  · exact ready.elsewhere other inner bounded same

theorem DownReady.finish {key : Nat → Key} {size slot : Nat}
    (ready : DownReady key size slot)
    (placed : ∀ child, child / 2 = slot → 2 ≤ child → child < size →
      key slot ≤ key child) :
    HeapOrdered key size := by
  intro other inner bounded
  by_cases below : other / 2 = slot
  · rw [below]
    exact placed other below inner bounded
  · exact ready.elsewhere other inner bounded below

/-- One round of percolating up: the slot changes places with its parent. -/
theorem UpReady.exch {key : Nat → Key} {size slot : Nat}
    (ready : UpReady key size slot) (inner : 2 ≤ slot) (bounded : slot < size)
    (smaller : key slot < key (slot / 2)) :
    UpReady (key ∘ Equiv.swap slot (slot / 2)) size (slot / 2) := by
  have parentNe : slot / 2 ≠ slot := by omega
  have above : 2 ≤ slot / 2 → key (slot / 2 / 2) ≤ key (slot / 2) := fun inside =>
    ready.elsewhere (slot / 2) inside (by omega) parentNe
  constructor
  · intro other otherInner otherBounded otherNe
    simp only [Function.comp_apply]
    by_cases same : other = slot
    · subst other
      simpa using smaller.le
    · rw [Equiv.swap_apply_of_ne_of_ne same otherNe]
      have old := ready.elsewhere other otherInner otherBounded same
      by_cases child : other / 2 = slot
      · rw [child, Equiv.swap_apply_left]
        exact ready.grandparent other child otherBounded inner
      · by_cases sibling : other / 2 = slot / 2
        · rw [sibling, Equiv.swap_apply_right]
          rw [sibling] at old
          exact smaller.le.trans old
        · rw [Equiv.swap_apply_of_ne_of_ne child sibling]
          exact old
  · intro child childOf childBounded parentInner
    simp only [Function.comp_apply]
    rw [Equiv.swap_apply_of_ne_of_ne (by omega) (by omega : slot / 2 / 2 ≠ slot / 2)]
    by_cases same : child = slot
    · subst child
      rw [Equiv.swap_apply_left]
      exact above parentInner
    · rw [Equiv.swap_apply_of_ne_of_ne same (by omega)]
      have old := ready.elsewhere child (by omega) childBounded same
      rw [childOf] at old
      exact (above parentInner).trans old

/-- One round of percolating down: the slot changes places with the smaller of
its children. -/
theorem DownReady.exch {key : Nat → Key} {size slot child : Nat}
    (ready : DownReady key size slot) (positive : 1 ≤ slot)
    (childOf : child / 2 = slot) (bounded : child < size)
    (smallest : ∀ other, other / 2 = slot → other < size → key child ≤ key other)
    (greater : key child ≤ key slot) :
    DownReady (key ∘ Equiv.swap slot child) size child := by
  constructor
  · intro other otherInner otherBounded otherOf
    simp only [Function.comp_apply]
    by_cases below : other / 2 = slot
    · rw [below, Equiv.swap_apply_left]
      by_cases same : other = child
      · subst other
        simpa using greater
      · rw [Equiv.swap_apply_of_ne_of_ne (by omega) same]
        exact smallest other below otherBounded
    · rw [Equiv.swap_apply_of_ne_of_ne below otherOf]
      have old := ready.elsewhere other otherInner otherBounded below
      by_cases same : other = slot
      · subst other
        rw [Equiv.swap_apply_left]
        exact ready.grandparent child childOf bounded otherInner
      · rw [Equiv.swap_apply_of_ne_of_ne same (by omega)]
        exact old
  · intro grandchild grandchildOf grandchildBounded _
    simp only [Function.comp_apply]
    rw [childOf, Equiv.swap_apply_left,
      Equiv.swap_apply_of_ne_of_ne (by omega) (by omega)]
    have old := ready.elsewhere grandchild (by omega) grandchildBounded (by omega)
    rwa [grandchildOf] at old

end Ns3.Library
