import Ns3.Core.Scheduler
import Mathlib.Data.List.Sort

/-!
`ListScheduler`, a list kept in increasing key order.

Its insertion loop, which puts the new event before the first stored event that
the order function places after it, and its removal loop by unique id are also
those of a calendar bucket, where the order may be reversed. They are stated
here for an arbitrary order function.
-/

namespace Ns3.Core

/-- Insert before the first event that `order` puts after the new one. -/
def insertInOrder (order : EventKey → EventKey → Bool) (ev : Event)
    (events : List Event) : List Event :=
  events.orderedInsert (fun a b => order a.key b.key = true) ev

/-- Erase the first event with the given unique id. -/
def eraseUid (uid : Nat) (events : List Event) : List Event :=
  events.eraseP (fun ev => ev.key.uid = uid)

theorem insertInOrder_perm (order : EventKey → EventKey → Bool) (ev : Event)
    (events : List Event) : (insertInOrder order ev events).Perm (ev :: events) :=
  List.perm_orderedInsert _ ev events

/-- Insertion keeps a list sorted by `Precedes` when the order function only
fails where the stored event precedes the new one. -/
theorem pairwise_insertInOrder {order : EventKey → EventKey → Bool}
    {Precedes : Event → Event → Prop}
    (before : ∀ a b : Event, order a.key b.key = true → Precedes a b)
    (after : ∀ a b : Event, order a.key b.key ≠ true → Precedes b a)
    (trans : ∀ a b c, Precedes a b → Precedes b c → Precedes a c)
    (ev : Event) {events : List Event} (sorted : events.Pairwise Precedes) :
    (insertInOrder order ev events).Pairwise Precedes := by
  induction events with
  | nil => exact List.pairwise_singleton _ _
  | cons head tail inductionHypothesis =>
      rw [List.pairwise_cons] at sorted
      simp only [insertInOrder, List.orderedInsert_cons]
      split
      next first =>
        refine List.pairwise_cons.mpr ⟨?_, List.pairwise_cons.mpr sorted⟩
        intro other membership
        rcases List.mem_cons.mp membership with rfl | inTail
        · exact before ev other first
        · exact trans ev head other (before ev head first) (sorted.1 other inTail)
      next later =>
        refine List.pairwise_cons.mpr ⟨?_, inductionHypothesis sorted.2⟩
        intro other membership
        rcases List.mem_cons.mp ((insertInOrder_perm order ev tail).mem_iff.mp membership) with
          rfl | inTail
        · exact after other head later
        · exact sorted.1 other inTail

/-- With distinct ids the removal loop erases the very event asked for. -/
theorem eraseUid_eq_erase {events : List Event} (distinct : UidsDistinct events)
    {ev : Event} (present : ev ∈ events) :
    eraseUid ev.key.uid events = events.erase ev := by
  rw [eraseUid, List.erase_eq_eraseP]
  have agree : ∀ other ∈ events,
      decide (other.key.uid = ev.key.uid) = (ev == other) := by
    intro other membership
    rw [Bool.eq_iff_iff, decide_eq_true_iff, beq_iff_eq]
    constructor
    · intro sameUid
      exact (distinct.eq_of_uid membership present sameUid).symm
    · intro equality
      rw [equality]
  clear distinct present
  induction events with
  | nil => rfl
  | cons head tail inductionHypothesis =>
      rw [List.eraseP_cons, List.eraseP_cons, agree head List.mem_cons_self,
        inductionHypothesis (fun other membership =>
          agree other (List.mem_cons_of_mem _ membership))]

/-- The class `ListScheduler`. -/
structure ListScheduler where
  events : List Event
  deriving DecidableEq, Repr

namespace ListScheduler

/-- The list starts out empty. -/
def empty : ListScheduler := ⟨[]⟩

def insert (list : ListScheduler) (ev : Event) : ListScheduler :=
  ⟨insertInOrder EventKey.lt ev list.events⟩

def isEmpty (list : ListScheduler) : Bool := list.events.isEmpty

/-- `m_events.front ()`; there is none in an empty list. -/
def peekNext (list : ListScheduler) : Event := list.events.headD ⟨0, 0, 0, 0⟩

def removeNext (list : ListScheduler) : Event × ListScheduler :=
  (list.peekNext, ⟨list.events.tail⟩)

def remove (list : ListScheduler) (ev : Event) : ListScheduler :=
  ⟨eraseUid ev.key.uid list.events⟩

end ListScheduler

/-- `ListScheduler` as a scheduler. -/
def listScheduler : Scheduler ListScheduler where
  insert := ListScheduler.insert
  isEmpty := ListScheduler.isEmpty
  peekNext := ListScheduler.peekNext
  removeNext := ListScheduler.removeNext
  remove := ListScheduler.remove

namespace ListScheduler

/-- The list holds exactly the events of the ledger, in increasing key order. -/
structure Represents (list : ListScheduler) (ledger : Ledger) : Prop where
  sorted : list.events.Pairwise (fun a b => a.rank ≤ b.rank)
  contents : (list.events : Multiset Event) = ledger.events
  fresh : ledger.Fresh

theorem Represents.empty : Represents ListScheduler.empty Ledger.empty :=
  ⟨List.Pairwise.nil, rfl, Ledger.empty_fresh⟩

theorem Represents.peekNext {list : ListScheduler} {ledger : Ledger}
    (represents : list.Represents ledger) (nonempty : ledger.events ≠ 0) :
    IsNext ledger.events list.peekNext := by
  obtain ⟨sorted, contents, fresh⟩ := represents
  obtain ⟨events⟩ := list
  rw [← contents] at nonempty ⊢
  cases events with
  | nil => exact absurd rfl nonempty
  | cons head tail =>
      refine ⟨List.mem_cons_self, fun other membership => ?_⟩
      rcases List.mem_cons.mp membership with rfl | inTail
      · exact le_rfl
      · exact (List.pairwise_cons.mp sorted).1 other inTail

theorem Represents.insert {list : ListScheduler} {ledger : Ledger}
    (represents : list.Represents ledger) {ev : Event} (new : ev.key.uid ∉ ledger.uids) :
    (list.insert ev).Represents (ledger.insert ev) where
  sorted := pairwise_insertInOrder
    (fun a b less => ((EventKey.lt_iff_rank a.key b.key).mp less).le)
    (fun a b notLess => not_lt.mp (mt (EventKey.lt_iff_rank a.key b.key).mpr notLess))
    (fun _ _ _ => le_trans) ev represents.sorted
  contents := by
    rw [Ledger.insert, ← represents.contents, Multiset.cons_coe]
    exact Multiset.coe_eq_coe.mpr (insertInOrder_perm EventKey.lt ev list.events)
  fresh := represents.fresh.insert new

theorem Represents.remove {list : ListScheduler} {ledger : Ledger}
    (represents : list.Represents ledger) {ev : Event} (present : ev ∈ ledger.events) :
    (list.remove ev).Represents (ledger.remove ev) where
  sorted := represents.sorted.sublist List.eraseP_sublist
  contents := by
    have distinct := represents.fresh.distinct
    rw [← represents.contents] at distinct present
    rw [Ledger.remove, ← represents.contents, Multiset.coe_erase]
    exact congrArg _ (eraseUid_eq_erase distinct present)
  fresh := represents.fresh.remove ev

theorem Represents.removeNext {list : ListScheduler} {ledger : Ledger}
    (represents : list.Represents ledger) (nonempty : ledger.events ≠ 0) :
    list.removeNext.2.Represents (ledger.removeNext list.removeNext.1) where
  sorted := represents.sorted.sublist (List.tail_sublist _)
  contents := by
    rw [Ledger.removeNext, ← represents.contents]
    rw [← represents.contents] at nonempty
    obtain ⟨events⟩ := list
    cases events with
    | nil => exact absurd rfl nonempty
    | cons head tail => simp [ListScheduler.removeNext, ListScheduler.peekNext]
  fresh := represents.fresh.removeNext _

/-- `ListScheduler` is a priority queue for any callers that keep ids unique. -/
theorem isPriorityQueue (Admits : Ledger → Event → Prop) :
    listScheduler.IsPriorityQueue Admits Represents where
  isEmpty {list ledger} represents := by
    rw [← represents.contents]
    exact List.isEmpty_iff.trans (Multiset.coe_eq_zero list.events).symm
  peekNext represents nonempty := represents.peekNext nonempty
  removeNext represents nonempty := represents.peekNext nonempty
  afterInsert represents new _ := represents.insert new
  afterRemove represents present := represents.remove present
  afterRemoveNext represents nonempty := represents.removeNext nonempty

end ListScheduler

end Ns3.Core
