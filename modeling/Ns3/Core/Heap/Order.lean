import Ns3.Core.Heap.Kernel
import Ns3.Library.HeapOrder
import Mathlib.Data.List.GetD

/-!
Which operations keep the heap order.

`Insert` and `RemoveNext` always do. `Remove` moves the last event into the hole
and only percolates it down, so it keeps the order exactly when that event is
not smaller than the parent of the hole.
-/

namespace Ns3.Core

open Library

namespace HeapScheduler

/-- The position of the event in each slot. -/
def ranks (self : HeapScheduler) (id : Nat) : ℕ ×ₗ ℕ := (self.slot id).rank

/-- No node's key is greater than a child's key. -/
def Ordered (self : HeapScheduler) : Prop := HeapOrdered self.ranks self.size

theorem slot_exch (self : HeapScheduler) {a b : Nat} (aBounded : a < self.size)
    (bBounded : b < self.size) (id : Nat) :
    (self.exch a b).slot id = self.slot (Equiv.swap a b id) := by
  simp only [slot, exch, size, List.getD_eq_getElem?_getD] at *
  rw [Equiv.swap_apply_def]
  by_cases atB : id = b
  · subst id
    by_cases same : b = a
    · subst same
      simp [bBounded]
    · simp [same, bBounded]
  · by_cases atA : id = a
    · subst id
      simp [Ne.symm atB, aBounded]
    · simp [Ne.symm atB, Ne.symm atA, atA, atB]

theorem ranks_exch (self : HeapScheduler) {a b : Nat} (aBounded : a < self.size)
    (bBounded : b < self.size) :
    (self.exch a b).ranks = self.ranks ∘ Equiv.swap a b := by
  funext id
  exact congrArg Event.rank (self.slot_exch aBounded bBounded id)

theorem bottomUpFrom_ordered (self : HeapScheduler) (index : Nat)
    (positive : 0 < index) (bounded : index < self.size)
    (ready : UpReady self.ranks self.size index) :
    (self.bottomUpFrom index).Ordered := by
  fun_induction bottomUpFrom self index with
  | case1 self index climbs inductionHypothesis =>
      have inner := (isRoot_eq_false index).mp climbs.1
      have parentBounded : parent index < self.size := by unfold parent; omega
      apply inductionHypothesis
      · unfold parent; omega
      · simpa using parentBounded
      · rw [size_exch, self.ranks_exch bounded parentBounded]
        exact ready.exch (by omega) bounded ((self.isLessStrictly_iff _ _).mp climbs.2)
  | case2 self index stops =>
      apply ready.finish
      intro inner
      by_contra less
      apply stops
      refine ⟨(isRoot_eq_false index).mpr (by omega), ?_⟩
      exact (self.isLessStrictly_iff _ _).mpr (not_le.mp less)

theorem child_cases {child index : Nat} (childOf : child / 2 = index) :
    child = leftChild index ∨ child = rightChild index := by
  unfold leftChild rightChild
  omega

theorem smallest_le (self : HeapScheduler) (index child : Nat)
    (childOf : child / 2 = index) :
    self.ranks (self.smallest (leftChild index) (rightChild index)) ≤ self.ranks child := by
  unfold smallest
  split
  next less =>
    have leftLess := (self.isLessStrictly_iff _ _).mp less
    rcases child_cases childOf with rfl | rfl
    · exact le_rfl
    · exact leftLess.le
  next notLess =>
    have rightLe := not_lt.mp (mt (self.isLessStrictly_iff _ _).mpr notLess)
    rcases child_cases childOf with rfl | rfl
    · exact rightLe
    · exact le_rfl

theorem topDown_ordered (self : HeapScheduler) (index : Nat) (positive : 0 < index)
    (ready : DownReady self.ranks self.size index) :
    (self.topDown index positive).Ordered := by
  fun_induction topDown self index positive with
  | case1 self index positive inside child less =>
      apply ready.finish
      intro other otherOf _ _
      exact ((self.isLessStrictly_iff _ _).mp less).le.trans (self.smallest_le index other otherOf)
  | case2 self index positive inside child notLess inductionHypothesis =>
      have bounded : rightChild index < self.size := (self.isBottom_eq_false _).mp inside
      have childOf : child / 2 = index ∧ child < self.size := by
        simp only [rightChild] at bounded
        rcases self.smallest_cases (leftChild index) (rightChild index) with left | right
        · simp only [child, left, leftChild]; omega
        · simp only [child, right, rightChild]; omega
      apply inductionHypothesis
      rw [size_exch, self.ranks_exch (by omega) childOf.2]
      exact ready.exch positive childOf.1 childOf.2
        (fun other otherOf _ => self.smallest_le index other otherOf)
        (not_lt.mp (mt (self.isLessStrictly_iff _ _).mpr notLess))
  | case3 self index positive outside bottom =>
      apply ready.finish
      intro child childOf _ bounded
      have above : self.size ≤ index := by simpa [isBottom] using bottom
      omega
  | case4 self index positive outside inside leftBottom =>
      apply ready.finish
      intro child childOf _ bounded
      have above : self.size ≤ leftChild index := by simpa [isBottom] using leftBottom
      unfold leftChild at above
      omega
  | case5 self index positive outside inside leftInside less =>
      apply ready.finish
      intro child childOf _ bounded
      have above : self.size ≤ rightChild index := by simpa [isBottom] using outside
      rcases child_cases childOf with rfl | rfl
      · exact ((self.isLessStrictly_iff _ _).mp less).le
      · omega
  | case6 self index positive outside inside leftInside notLess =>
      -- The left child is the last slot, so the exchanged event has no children.
      have above : self.size ≤ rightChild index := by simpa [isBottom] using outside
      have bounded : leftChild index < self.size := by simpa [isBottom] using leftInside
      have leftOf : leftChild index / 2 = index := by unfold leftChild; omega
      have exchanged := ready.exch positive leftOf bounded
        (fun other otherOf otherBounded => by
          rcases child_cases otherOf with rfl | rfl
          · exact le_rfl
          · omega)
        (not_lt.mp (mt (self.isLessStrictly_iff _ _).mpr notLess))
      rw [← self.ranks_exch (by unfold leftChild at bounded; omega) bounded] at exchanged
      unfold Ordered
      rw [size_exch]
      apply exchanged.finish
      intro child childOf _ childBounded
      unfold leftChild at *
      unfold rightChild at above
      omega

/-- An event that is smaller than everything below it stays where it is. -/
theorem topDown_eq_self (self : HeapScheduler) (index : Nat) (positive : 0 < index)
    (least : ∀ child, child / 2 = index → child < self.size →
      self.ranks index < self.ranks child) :
    self.topDown index positive = self := by
  rw [topDown]
  split
  next inside =>
    have bounded : rightChild index < self.size := (self.isBottom_eq_false _).mp inside
    have childOf : self.smallest (leftChild index) (rightChild index) / 2 = index ∧
        self.smallest (leftChild index) (rightChild index) < self.size := by
      simp only [rightChild] at bounded
      rcases self.smallest_cases (leftChild index) (rightChild index) with left | right
      · rw [left, leftChild]; omega
      · rw [right, rightChild]; omega
    have less := (self.isLessStrictly_iff _ _).mpr (least _ childOf.1 childOf.2)
    simp [less]
  next outside =>
    split
    · rfl
    · split
      · rfl
      next leftInside =>
        have bounded : leftChild index < self.size := by simpa [isBottom] using leftInside
        have less := (self.isLessStrictly_iff _ _).mpr
          (least (leftChild index) (by unfold leftChild; omega) bounded)
        simp [less]

/-- The events stored, whatever their order. -/
structure Holds (queue : HeapScheduler) (ledger : Ledger) : Prop where
  head : queue.heap.head? = some wasted
  contents : (queue.heap.tail : Multiset Event) = ledger.events
  fresh : ledger.Fresh

theorem Holds.empty : Holds HeapScheduler.empty Ledger.empty :=
  ⟨rfl, rfl, Ledger.empty_fresh⟩

theorem Holds.heap_eq {self : HeapScheduler} {ledger : Ledger} (holds : self.Holds ledger) :
    self.heap = wasted :: self.heap.tail := by
  have head := holds.head
  cases heapEq : self.heap with
  | nil => simp [heapEq] at head
  | cons first events =>
      rw [heapEq] at head
      simpa using head

theorem Holds.slot_zero {self : HeapScheduler} {ledger : Ledger}
    (holds : self.Holds ledger) : self.slot 0 = wasted := by
  rw [slot, holds.heap_eq, List.getD_cons_zero]

theorem Holds.size_eq {self : HeapScheduler} {ledger : Ledger}
    (holds : self.Holds ledger) : self.size = self.heap.tail.length + 1 := by
  rw [size, holds.heap_eq]
  rfl

theorem Holds.slot_succ {self : HeapScheduler} {ledger : Ledger}
    (holds : self.Holds ledger) (id : Nat) :
    self.slot (id + 1) = self.heap.tail.getD id wasted := by
  rw [slot, holds.heap_eq]
  rfl

theorem Holds.one_lt_size {self : HeapScheduler} {ledger : Ledger}
    (holds : self.Holds ledger) (nonempty : ledger.events ≠ 0) : 1 < self.size := by
  rw [← holds.contents] at nonempty
  rw [holds.size_eq]
  cases tailEq : self.heap.tail with
  | nil => exact absurd (by rw [tailEq]; rfl) nonempty
  | cons first events => simp

theorem Holds.mem_iff_slot {self : HeapScheduler} {ledger : Ledger}
    (holds : self.Holds ledger) (ev : Event) :
    ev ∈ ledger.events ↔ ∃ id, 0 < id ∧ id < self.size ∧ self.slot id = ev := by
  rw [← holds.contents, Multiset.mem_coe, List.mem_iff_getElem]
  have sizeEq := holds.size_eq
  constructor
  · rintro ⟨id, bounded, rfl⟩
    refine ⟨id + 1, id.succ_pos, by omega, ?_⟩
    rw [holds.slot_succ, List.getD_eq_getElem _ _ bounded]
  · rintro ⟨id, positive, bounded, rfl⟩
    cases id with
    | zero => exact absurd positive (lt_irrefl 0)
    | succ id =>
        have inside : id < self.heap.tail.length := by omega
        exact ⟨id, inside, by rw [holds.slot_succ, List.getD_eq_getElem _ _ inside]⟩

theorem Holds.shuffle {self other : HeapScheduler} {ledger : Ledger}
    (holds : self.Holds ledger) (shuffles : Shuffles self other) : other.Holds ledger :=
  ⟨shuffles.head.trans holds.head,
    (Multiset.coe_eq_coe.mpr shuffles.tail).trans holds.contents, holds.fresh⟩

theorem Ordered.isNext {self : HeapScheduler} {ledger : Ledger} (ordered : self.Ordered)
    (holds : self.Holds ledger) (nonempty : ledger.events ≠ 0) :
    IsNext ledger.events self.peekNext := by
  constructor
  · exact (holds.mem_iff_slot _).mpr ⟨root, Nat.one_pos, holds.one_lt_size nonempty, rfl⟩
  · intro other present
    obtain ⟨id, positive, bounded, rfl⟩ := (holds.mem_iff_slot other).mp present
    exact ordered.root_le id positive bounded

/-- `Insert` before it percolates. -/
def pushBack (self : HeapScheduler) (ev : Event) : HeapScheduler := ⟨self.heap ++ [ev]⟩

theorem Holds.pushBack {self : HeapScheduler} {ledger : Ledger} (holds : self.Holds ledger)
    {ev : Event} (new : ev.key.uid ∉ ledger.uids) :
    (self.pushBack ev).Holds (ledger.insert ev) := by
  refine ⟨?_, ?_, holds.fresh.insert new⟩
  · rw [HeapScheduler.pushBack, holds.heap_eq]
    rfl
  · rw [HeapScheduler.pushBack, holds.heap_eq, Ledger.insert, ← holds.contents]
    exact Multiset.coe_eq_coe.mpr (List.perm_append_singleton ev _)

theorem slot_pushBack (self : HeapScheduler) (ev : Event) {id : Nat} (bounded : id < self.size) :
    (self.pushBack ev).slot id = self.slot id := by
  simp only [slot, pushBack]
  rw [List.getD_append _ _ _ _ bounded]

@[simp]
theorem size_pushBack (self : HeapScheduler) (ev : Event) :
    (self.pushBack ev).size = self.size + 1 := by
  simp [size, pushBack]

theorem Holds.insert {self : HeapScheduler} {ledger : Ledger} (holds : self.Holds ledger)
    {ev : Event} (new : ev.key.uid ∉ ledger.uids) :
    (self.insert ev).Holds (ledger.insert ev) := by
  have sizeEq := holds.size_eq
  apply (holds.pushBack new).shuffle
  apply bottomUpFrom_shuffles (self.pushBack ev) (self.pushBack ev).last
  · rw [last, size_pushBack]; omega
  · rw [last, size_pushBack]; omega

theorem Ordered.insert {self : HeapScheduler} {ledger : Ledger} (ordered : self.Ordered)
    (holds : self.Holds ledger) (ev : Event) : (self.insert ev).Ordered := by
  have sizeEq := holds.size_eq
  apply bottomUpFrom_ordered (self.pushBack ev) (self.pushBack ev).last
  · rw [last, size_pushBack]; omega
  · rw [last, size_pushBack]; omega
  · rw [last, size_pushBack, Nat.add_sub_cancel]
    constructor
    · intro other inner bounded notLast
      have inside : other < self.size := by omega
      simp only [ranks]
      rw [self.slot_pushBack ev inside, self.slot_pushBack ev (by omega)]
      exact ordered other inner inside
    · intro child childOf bounded inner
      omega

/-- The hole at `index` is filled with the last event, which percolates down. -/
def deleteAt (self : HeapScheduler) (index : Nat) (positive : 0 < index) : HeapScheduler :=
  ((self.exch index self.last).popBack).topDown index positive

theorem remove_eq (self : HeapScheduler) (ev : Event) {index : Nat}
    (found : self.find? ev.key.uid = some index) :
    self.remove ev = self.deleteAt (index + 1) index.succ_pos := by
  rw [remove, found]
  rfl

@[simp]
theorem size_popBack (self : HeapScheduler) : self.popBack.size = self.size - 1 := by
  simp [popBack, size]

theorem slot_popBack (self : HeapScheduler) {id : Nat} (bounded : id < self.size - 1) :
    self.popBack.slot id = self.slot id := by
  have inside : id < self.heap.dropLast.length := by simpa [size] using bounded
  have outside : id < self.heap.length := by
    simp only [size] at bounded
    omega
  rw [slot, slot, popBack, List.getD_eq_getElem _ _ inside, List.getD_eq_getElem _ _ outside,
    List.getElem_dropLast]

theorem Holds.deleteAt {self : HeapScheduler} {ledger : Ledger} (holds : self.Holds ledger)
    {index : Nat} (positive : 0 < index) (bounded : index < self.size) :
    ((self.deleteAt index positive).heap.head? = some wasted) ∧
      ((self.deleteAt index positive).heap.tail : Multiset Event) =
        ledger.events.erase (self.slot index) := by
  have lastPositive : 0 < self.last := by unfold last; omega
  have lastBounded : self.last < self.size := by unfold last; omega
  have exchanged := holds.shuffle
    (self.exch_shuffles positive bounded lastPositive lastBounded)
  have popped := topDown_shuffles (self.exch index self.last).popBack index positive
  generalize exchangedEq : self.exch index self.last = middle at exchanged popped
  have middleSize : middle.size = self.size := by rw [← exchangedEq, size_exch]
  have lastSlot : middle.slot (middle.size - 1) = self.slot index := by
    rw [middleSize, ← exchangedEq]
    exact (self.slot_exch bounded lastBounded self.last).trans (by rw [Equiv.swap_apply_right])
  have nonempty : middle.heap.tail ≠ [] := by
    intro empty
    have sizeOne := exchanged.size_eq
    rw [empty, List.length_nil] at sizeOne
    omega
  have lastEq : middle.heap.tail.getLast nonempty = self.slot index := by
    obtain ⟨heap⟩ := middle
    cases heap with
    | nil => exact absurd rfl nonempty
    | cons first events =>
        rw [← lastSlot, slot, size, List.getLast_eq_getElem, List.getD_eq_getElem _ _ (by simp)]
        cases events with
        | nil => exact absurd rfl nonempty
        | cons second events => simp
  have split : middle.popBack.heap.tail ++ [self.slot index] = middle.heap.tail := by
    rw [popBack, List.tail_dropLast, ← lastEq]
    exact List.dropLast_append_getLast nonempty
  have head : middle.popBack.heap.head? = some wasted := by
    rw [popBack, exchanged.heap_eq]
    cases tailEq : middle.heap.tail with
    | nil => exact absurd tailEq nonempty
    | cons first events => rfl
  constructor
  · rw [HeapScheduler.deleteAt, exchangedEq]
    exact popped.head.trans head
  · rw [HeapScheduler.deleteAt, exchangedEq, Multiset.coe_eq_coe.mpr popped.tail,
      ← exchanged.contents, ← split, ← Multiset.coe_add, Multiset.coe_singleton, Multiset.add_comm,
      Multiset.singleton_add, Multiset.erase_cons_head]

theorem ranks_exch_popBack (self : HeapScheduler) {index id : Nat}
    (bounded : index < self.size) (inside : id < self.size - 1) :
    (self.exch index self.last).popBack.ranks id =
      if id = index then self.ranks self.last else self.ranks id := by
  have lastBounded : self.last < self.size := by unfold last; omega
  have notLast : id ≠ self.last := by unfold last; omega
  simp only [ranks]
  rw [slot_popBack _ (by simpa using inside), self.slot_exch bounded lastBounded,
    Equiv.swap_apply_def]
  simp only [if_neg notLast]
  split <;> rfl

/-- Percolating down is enough when the last event belongs below the parent of
the hole. -/
theorem Ordered.deleteAt {self : HeapScheduler} (ordered : self.Ordered) {index : Nat}
    (positive : 0 < index) (bounded : index < self.size)
    (fits : 2 ≤ index → self.ranks (index / 2) ≤ self.ranks self.last) :
    (self.deleteAt index positive).Ordered := by
  apply topDown_ordered
  rw [size_popBack, size_exch]
  constructor
  · intro other inner otherBounded otherOf
    rw [self.ranks_exch_popBack bounded otherBounded,
      self.ranks_exch_popBack bounded (by omega : other / 2 < self.size - 1), if_neg otherOf]
    split
    next same =>
      subst other
      exact fits inner
    next => exact ordered other inner (by omega)
  · intro child childOf childBounded inner
    rw [self.ranks_exch_popBack bounded childBounded,
      self.ranks_exch_popBack bounded (by omega : index / 2 < self.size - 1),
      if_neg (by omega), if_neg (by omega)]
    have below := ordered child (by omega) (by omega)
    rw [childOf] at below
    exact (ordered index inner bounded).trans below

/-- A last event smaller than the parent of the hole is left below it. -/
theorem not_ordered_deleteAt {self : HeapScheduler} (ordered : self.Ordered) {index : Nat}
    (inner : 2 ≤ index) (bounded : index < self.size)
    (smaller : self.ranks self.last < self.ranks (index / 2)) :
    ¬ (self.deleteAt index (by omega)).Ordered := by
  have parentLe : self.ranks (index / 2) ≤ self.ranks index := ordered index inner bounded
  have notLast : index ≠ self.last := by
    rintro rfl
    exact absurd smaller (not_lt.mpr parentLe)
  have inside : index < self.size - 1 := by unfold last at notLast; omega
  have parentInside : index / 2 < self.size - 1 := by omega
  have unmoved : self.deleteAt index (by omega) = (self.exch index self.last).popBack := by
    apply topDown_eq_self
    intro child childOf childBounded
    rw [size_popBack, size_exch] at childBounded
    rw [self.ranks_exch_popBack bounded inside, self.ranks_exch_popBack bounded childBounded,
      if_pos rfl, if_neg (by omega)]
    have below := ordered child (by omega) (by omega)
    rw [childOf] at below
    exact smaller.trans_le (parentLe.trans below)
  intro after
  rw [unmoved] at after
  have order := after index inner (by rw [size_popBack, size_exch]; exact inside)
  rw [self.ranks_exch_popBack bounded inside, self.ranks_exch_popBack bounded parentInside,
    if_pos rfl, if_neg (by omega)] at order
  exact absurd smaller (not_lt.mpr order)

theorem Holds.find? {self : HeapScheduler} {ledger : Ledger} (holds : self.Holds ledger)
    {ev : Event} (present : ev ∈ ledger.events) :
    ∃ index, self.find? ev.key.uid = some index ∧ index + 1 < self.size ∧
      self.slot (index + 1) = ev := by
  have sizeEq := holds.size_eq
  rw [← holds.contents] at present
  have found : (self.find? ev.key.uid).isSome := by
    rw [HeapScheduler.find?, List.findIdx?_isSome, List.any_eq_true]
    exact ⟨ev, present, decide_eq_true rfl⟩
  obtain ⟨index, indexEq⟩ := Option.isSome_iff_exists.mp found
  obtain ⟨bounded, sameUid, -⟩ := List.findIdx?_eq_some_iff_getElem.mp indexEq
  refine ⟨index, indexEq, by omega, ?_⟩
  rw [holds.slot_succ, List.getD_eq_getElem _ _ bounded]
  have distinct := holds.fresh.distinct
  rw [← holds.contents] at distinct
  exact distinct.eq_of_uid (List.getElem_mem bounded) present (of_decide_eq_true sameUid)

theorem Holds.remove {self : HeapScheduler} {ledger : Ledger} (holds : self.Holds ledger)
    {ev : Event} (present : ev ∈ ledger.events) :
    (self.remove ev).Holds (ledger.remove ev) := by
  obtain ⟨index, found, bounded, slotEq⟩ := holds.find? present
  have deleted := holds.deleteAt index.succ_pos bounded
  rw [slotEq] at deleted
  rw [self.remove_eq ev found]
  exact ⟨deleted.1, deleted.2, holds.fresh.remove ev⟩

theorem Holds.removeNext {self : HeapScheduler} {ledger : Ledger} (holds : self.Holds ledger)
    (nonempty : ledger.events ≠ 0) :
    self.removeNext.2.Holds (ledger.removeNext self.removeNext.1) := by
  have deleted := holds.deleteAt Nat.one_pos (holds.one_lt_size nonempty)
  exact ⟨deleted.1, deleted.2, holds.fresh.removeNext _⟩

theorem Ordered.removeNext {self : HeapScheduler} {ledger : Ledger} (ordered : self.Ordered)
    (holds : self.Holds ledger) (nonempty : ledger.events ≠ 0) :
    self.removeNext.2.Ordered :=
  ordered.deleteAt Nat.one_pos (holds.one_lt_size nonempty)
    (fun inner => absurd inner (by decide))

/-- The last event is not smaller than the parent of the slot that `Remove`
vacates. -/
def LastFits (self : HeapScheduler) (ev : Event) : Prop :=
  ∀ index, self.find? ev.key.uid = some index →
    self.isLessStrictly self.last (parent (index + 1)) = false

/-- `Remove` keeps the heap order exactly when the last event fits. -/
theorem Ordered.remove_iff {self : HeapScheduler} {ledger : Ledger} (ordered : self.Ordered)
    (holds : self.Holds ledger) {ev : Event} (present : ev ∈ ledger.events) :
    (self.remove ev).Ordered ↔ self.LastFits ev := by
  obtain ⟨index, found, bounded, -⟩ := holds.find? present
  rw [self.remove_eq ev found]
  have fitsIff : self.LastFits ev ↔
      self.ranks (parent (index + 1)) ≤ self.ranks self.last := by
    rw [LastFits, found]
    simp only [Option.some.injEq, forall_eq', ← Bool.not_eq_true, isLessStrictly_iff, not_lt]
    rfl
  rw [fitsIff]
  constructor
  · intro after
    by_contra notFits
    by_cases inner : 2 ≤ index + 1
    · exact not_ordered_deleteAt ordered inner bounded (not_le.mp notFits) after
    · -- The parent of the root is the wasted slot, which is below every event.
      have parentEq : parent (index + 1) = 0 := by unfold parent; omega
      apply notFits
      rw [parentEq, ranks, holds.slot_zero]
      exact EventKey.rank_le_rank.mpr (by simp only [wasted]; omega)
  · intro fits
    exact ordered.deleteAt index.succ_pos bounded (fun _ => fits)

end HeapScheduler

end Ns3.Core
