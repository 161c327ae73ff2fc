import Ns3.Core.ListScheduler

/-!
`HeapScheduler`, a binary heap on a vector whose slot 0 is wasted.

Both percolations only move events between the other slots, whatever the order
of the heap.
-/

namespace Ns3.Core

open Library

/-- The class `HeapScheduler`. -/
structure HeapScheduler where
  heap : List Event
  deriving DecidableEq, Repr

namespace HeapScheduler

/-- The event wasted at slot 0. -/
def wasted : Event := ⟨0, 0, 0, 0⟩

def empty : HeapScheduler := ⟨[wasted]⟩

/-- `m_heap[id]`. -/
def slot (self : HeapScheduler) (id : Nat) : Event := self.heap.getD id wasted

def size (self : HeapScheduler) : Nat := self.heap.length

def parent (id : Nat) : Nat := id / 2

def leftChild (id : Nat) : Nat := id * 2

def rightChild (id : Nat) : Nat := id * 2 + 1

def root : Nat := 1

def isRoot (id : Nat) : Bool := id = root

def last (self : HeapScheduler) : Nat := self.size - 1

def isBottom (self : HeapScheduler) (id : Nat) : Bool := self.size ≤ id

def exch (self : HeapScheduler) (a b : Nat) : HeapScheduler :=
  ⟨(self.heap.set a (self.slot b)).set b (self.slot a)⟩

def isLessStrictly (self : HeapScheduler) (a b : Nat) : Bool :=
  (self.slot a).key.lt (self.slot b).key

def smallest (self : HeapScheduler) (a b : Nat) : Nat :=
  if self.isLessStrictly a b then a else b

def isEmpty (self : HeapScheduler) : Bool := self.size = 1

def popBack (self : HeapScheduler) : HeapScheduler := ⟨self.heap.dropLast⟩

@[simp]
theorem isLessStrictly_iff (self : HeapScheduler) (a b : Nat) :
    self.isLessStrictly a b = true ↔ (self.slot a).rank < (self.slot b).rank :=
  EventKey.lt_iff_rank _ _

@[simp]
theorem isRoot_eq_false (id : Nat) : isRoot id = false ↔ id ≠ 1 :=
  decide_eq_false_iff_not

@[simp]
theorem isBottom_eq_false (self : HeapScheduler) (id : Nat) :
    self.isBottom id = false ↔ id < self.size := by
  simp [isBottom]

/-- The loop of `BottomUp`. -/
def bottomUpFrom (self : HeapScheduler) (index : Nat) : HeapScheduler :=
  if _climbs : isRoot index = false ∧ self.isLessStrictly index (parent index) = true then
    (self.exch index (parent index)).bottomUpFrom (parent index)
  else
    self
termination_by index
decreasing_by
  have positive : index ≠ 0 := by
    rintro rfl
    exact absurd ((self.isLessStrictly_iff 0 0).mp _climbs.2) (lt_irrefl _)
  exact Nat.div_lt_self (Nat.pos_of_ne_zero positive) (by decide)

def bottomUp (self : HeapScheduler) : HeapScheduler := self.bottomUpFrom self.last

theorem smallest_cases (self : HeapScheduler) (a b : Nat) :
    self.smallest a b = a ∨ self.smallest a b = b := by
  unfold smallest
  split
  · exact Or.inl rfl
  · exact Or.inr rfl

theorem lt_smallest (self : HeapScheduler) {index : Nat} (positive : 0 < index) :
    index < self.smallest (leftChild index) (rightChild index) := by
  rcases self.smallest_cases (leftChild index) (rightChild index) with left | right
  · rw [left, leftChild]; omega
  · rw [right, rightChild]; omega

@[simp]
theorem size_exch (self : HeapScheduler) (a b : Nat) : (self.exch a b).size = self.size := by
  simp [exch, size]

/-- `TopDown`; every caller starts it below the wasted slot. -/
def topDown (self : HeapScheduler) (index : Nat) (positive : 0 < index) : HeapScheduler :=
  if _inside : self.isBottom (rightChild index) = false then
    let child := self.smallest (leftChild index) (rightChild index)
    if self.isLessStrictly index child then
      self
    else
      (self.exch index child).topDown child (positive.trans (self.lt_smallest positive))
  else if self.isBottom index then
    self
  else if self.isBottom (leftChild index) then
    self
  else if self.isLessStrictly index (leftChild index) then
    self
  else
    self.exch index (leftChild index)
termination_by self.size - index
decreasing_by
  have deeper := self.lt_smallest positive
  have bounded := (self.isBottom_eq_false _).mp _inside
  rw [size_exch]
  simp only [rightChild] at bounded
  omega

def insert (self : HeapScheduler) (ev : Event) : HeapScheduler :=
  bottomUp ⟨self.heap ++ [ev]⟩

def peekNext (self : HeapScheduler) : Event := self.slot root

def removeNext (self : HeapScheduler) : Event × HeapScheduler :=
  (self.slot root, ((self.exch root self.last).popBack).topDown root (by decide))

/-- The first slot from 1 on that holds the unique id. -/
def find? (self : HeapScheduler) (uid : Nat) : Option Nat :=
  self.heap.tail.findIdx? (fun ev => ev.key.uid = uid)

/-- `Remove`; the search counts slots from 1 on. -/
def remove (self : HeapScheduler) (ev : Event) : HeapScheduler :=
  match self.find? ev.key.uid with
  | some index =>
      ((self.exch (index + 1) self.last).popBack).topDown (index + 1) index.succ_pos
  | none => self

end HeapScheduler

/-- `HeapScheduler` as a scheduler. -/
def heapScheduler : Scheduler HeapScheduler where
  insert := HeapScheduler.insert
  isEmpty := HeapScheduler.isEmpty
  peekNext := HeapScheduler.peekNext
  removeNext := HeapScheduler.removeNext
  remove := HeapScheduler.remove

namespace HeapScheduler

/-- The same events, moved between the slots from 1 on. -/
structure Shuffles (old new : HeapScheduler) : Prop where
  head : new.heap.head? = old.heap.head?
  tail : new.heap.tail.Perm old.heap.tail

theorem Shuffles.refl (self : HeapScheduler) : Shuffles self self := ⟨rfl, .refl _⟩

theorem Shuffles.trans {old middle new : HeapScheduler}
    (first : Shuffles old middle) (second : Shuffles middle new) : Shuffles old new :=
  ⟨second.head.trans first.head, second.tail.trans first.tail⟩

theorem exch_shuffles (self : HeapScheduler) {a b : Nat}
    (aPositive : 0 < a) (aBounded : a < self.size)
    (bPositive : 0 < b) (bBounded : b < self.size) :
    Shuffles self (self.exch a b) := by
  obtain ⟨heap⟩ := self
  cases heap with
  | nil => exact absurd aBounded (Nat.not_lt_zero a)
  | cons first events =>
      cases a with
      | zero => exact absurd aPositive (lt_irrefl 0)
      | succ a =>
          cases b with
          | zero => exact absurd bPositive (lt_irrefl 0)
          | succ b =>
              have aInside : a < events.length := Nat.lt_of_succ_lt_succ aBounded
              have bInside : b < events.length := Nat.lt_of_succ_lt_succ bBounded
              refine ⟨rfl, ?_⟩
              simpa [exch, slot, List.getD_eq_getElem?_getD, aInside, bInside] using
                List.set_set_perm aInside bInside

theorem bottomUpFrom_shuffles (self : HeapScheduler) (index : Nat)
    (positive : 0 < index) (bounded : index < self.size) :
    Shuffles self (self.bottomUpFrom index) := by
  fun_induction bottomUpFrom self index with
  | case1 self index climbs inductionHypothesis =>
      have inner := (isRoot_eq_false index).mp climbs.1
      have parentPositive : 0 < parent index := by unfold parent; omega
      have parentBounded : parent index < self.size := by unfold parent; omega
      exact (self.exch_shuffles positive bounded parentPositive parentBounded).trans
        (inductionHypothesis parentPositive (by simpa using parentBounded))
  | case2 => exact .refl _

theorem topDown_shuffles (self : HeapScheduler) (index : Nat) (positive : 0 < index) :
    Shuffles self (self.topDown index positive) := by
  fun_induction topDown self index positive with
  | case1 => exact .refl _
  | case2 self index positive inside child notLess inductionHypothesis =>
      have bounded : rightChild index < self.size := (self.isBottom_eq_false _).mp inside
      have deeper : index < child := self.lt_smallest positive
      have childBounded : child < self.size := by
        rcases self.smallest_cases (leftChild index) (rightChild index) with left | right
        · simp only [child, left, leftChild]; simp only [rightChild] at bounded; omega
        · simp only [child, right]; exact bounded
      exact (self.exch_shuffles positive (deeper.trans childBounded)
        (positive.trans deeper) childBounded).trans inductionHypothesis
  | case3 => exact .refl _
  | case4 => exact .refl _
  | case5 => exact .refl _
  | case6 self index positive outside inside leftInside notLess =>
      have indexBounded : index < self.size := by simpa [isBottom] using inside
      have leftBounded : leftChild index < self.size := by simpa [isBottom] using leftInside
      exact self.exch_shuffles positive indexBounded (by unfold leftChild; omega) leftBounded

end HeapScheduler

end Ns3.Core
