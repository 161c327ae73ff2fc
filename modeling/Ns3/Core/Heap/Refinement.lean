import Ns3.Core.Heap.Order

/-!
`HeapScheduler` beside `ListScheduler` on the same calls.

The two are run together with one ledger. The heap agrees with the sorted list
in every state of a run exactly as long as every `Remove` of the run finds a
last event that fits below the hole.
-/

namespace Ns3.Core

open Library

/-- Both schedulers and the ledger of the heap. -/
abbrev HeapBesideList := HeapScheduler × ListScheduler × Ledger

namespace HeapBesideList

def start : HeapBesideList := (HeapScheduler.empty, ListScheduler.empty, Ledger.empty)

/-- The same call made on both; events are inserted once and removed only while
they are present. -/
def machine : Machine HeapBesideList SchedulerCall where
  step
    | (heap, list, ledger), .insert ev => (heap.insert ev, list.insert ev, ledger.insert ev)
    | (heap, list, ledger), .remove ev => (heap.remove ev, list.remove ev, ledger.remove ev)
    | (heap, list, ledger), .removeNext =>
        (heap.removeNext.2, list.removeNext.2, ledger.removeNext heap.removeNext.1)
  Enabled
    | (_, _, ledger), .insert ev => ev.key.uid ∉ ledger.uids
    | (_, _, ledger), .remove ev => ev ∈ ledger.events
    | (_, _, ledger), .removeNext => ledger.events ≠ 0

instance : ∀ state call, Decidable (machine.Enabled state call)
  | (_, _, ledger), .insert ev => inferInstanceAs (Decidable (ev.key.uid ∉ ledger.uids))
  | (_, _, ledger), .remove ev => inferInstanceAs (Decidable (ev ∈ ledger.events))
  | (_, _, ledger), .removeNext => inferInstanceAs (Decidable (ledger.events ≠ 0))

/-- The heap is a priority queue here: it is in heap order, it stores the events
inserted and not removed, and it hands out the least of them, as the list does. -/
structure Refines (state : HeapBesideList) : Prop where
  ordered : state.1.Ordered
  contents : (state.1.heap.tail : Multiset Event) = state.2.2.events
  peekNext : state.2.2.events ≠ 0 → IsNext state.2.2.events state.1.peekNext
  removeNext : state.2.2.events ≠ 0 → IsNext state.2.2.events state.1.removeNext.1
  samePeek : state.2.2.events ≠ 0 → state.1.peekNext = state.2.1.peekNext
  sameNext : state.2.2.events ≠ 0 → state.1.removeNext.1 = state.2.1.removeNext.1

/-- The last event of the heap fits below the hole that a `Remove` leaves. -/
def LastFits : HeapBesideList → SchedulerCall → Prop
  | (heap, _, _), .remove ev => heap.LastFits ev
  | _, _ => True

/-- What holds of the two schedulers while they agree. -/
structure Agrees (state : HeapBesideList) : Prop where
  ordered : state.1.Ordered
  holds : state.1.Holds state.2.2
  list : state.2.1.Represents state.2.2

theorem start_agrees : Agrees start :=
  ⟨fun id inner bounded => absurd bounded (by
      change ¬ id < 1
      omega),
    HeapScheduler.Holds.empty, ListScheduler.Represents.empty⟩

theorem Agrees.refines {state : HeapBesideList} (agrees : Agrees state) : Refines state := by
  obtain ⟨heap, list, ledger⟩ := state
  obtain ⟨ordered, holds, represents⟩ := agrees
  have same : ledger.events ≠ 0 → heap.peekNext = list.peekNext := fun nonempty =>
    (ordered.isNext holds nonempty).unique represents.fresh.distinct
      (represents.peekNext nonempty)
  exact {
    ordered := ordered
    contents := holds.contents
    peekNext := ordered.isNext holds
    removeNext := ordered.isNext holds
    samePeek := same
    sameNext := same }

/-- The heap never loses an event, whether or not it is in order. -/
theorem holds_step (state : HeapBesideList) (call : SchedulerCall)
    (holds : state.1.Holds state.2.2) (enabled : machine.Enabled state call) :
    (machine.step state call).1.Holds (machine.step state call).2.2 := by
  obtain ⟨heap, list, ledger⟩ := state
  cases call with
  | insert ev => exact holds.insert enabled
  | remove ev => exact holds.remove enabled
  | removeNext => exact holds.removeNext enabled

theorem Agrees.step (state : HeapBesideList) (call : SchedulerCall)
    (agrees : Agrees state) (enabled : machine.Enabled state call)
    (fits : LastFits state call) : Agrees (machine.step state call) := by
  have holds := holds_step state call agrees.holds enabled
  have refines := agrees.refines
  obtain ⟨heap, list, ledger⟩ := state
  cases call with
  | insert ev =>
      exact ⟨agrees.ordered.insert agrees.holds ev, holds, agrees.list.insert enabled⟩
  | remove ev =>
      exact ⟨(agrees.ordered.remove_iff agrees.holds enabled).mpr fits, holds,
        agrees.list.remove enabled⟩
  | removeNext =>
      refine ⟨agrees.ordered.removeNext agrees.holds enabled, holds, ?_⟩
      have sameNext := refines.sameNext enabled
      simp only at sameNext
      change list.removeNext.2.Represents (ledger.removeNext heap.removeNext.1)
      rw [sameNext]
      exact agrees.list.removeNext enabled

theorem lastFits_of_refines (state : HeapBesideList) (call : SchedulerCall)
    (holds : state.1.Holds state.2.2) (before : Refines state)
    (enabled : machine.Enabled state call) (after : Refines (machine.step state call)) :
    LastFits state call := by
  obtain ⟨heap, list, ledger⟩ := state
  cases call with
  | insert ev => trivial
  | remove ev => exact (before.ordered.remove_iff holds enabled).mp after.ordered
  | removeNext => trivial

/-- The heap refines a priority queue in every state of a run if and only if
every `Remove` of the run finds a last event that fits below the hole. -/
theorem heapScheduler_refines_iff_lastFits (calls : List SchedulerCall)
    (legal : machine.Legal start calls) :
    machine.Always Refines start calls ↔ machine.Along LastFits start calls := by
  constructor
  · exact legal.along_of_always holds_step lastFits_of_refines start_agrees.holds
  · intro along
    exact (legal.always_of_along Agrees.step start_agrees along).mono
      fun _ agrees => agrees.refines

/-- An event of the witnesses below; its time stamp tells it apart. -/
def sample (ts : Nat) : Event := ⟨ts, ts, ts + 3, 0⟩

/-- Removing the root of a heap of two. -/
theorem heapScheduler_refines_short_run :
    machine.Legal start [.insert (sample 1), .insert (sample 2), .remove (sample 1), .removeNext] ∧
      (machine.Always Refines start
          [.insert (sample 1), .insert (sample 2), .remove (sample 1), .removeNext] ↔
        machine.Along LastFits start
          [.insert (sample 1), .insert (sample 2), .remove (sample 1), .removeNext]) :=
  ⟨by decide, heapScheduler_refines_iff_lastFits _ (by decide)⟩

/-- Seven events whose heap is the order of insertion. The last, at time 3,
takes the place of the one at time 7, below the one at time 4. -/
def removeBelowGreaterParent : List SchedulerCall :=
  [.insert (sample 1), .insert (sample 4), .insert (sample 2), .insert (sample 7),
    .insert (sample 5), .insert (sample 6), .insert (sample 3), .remove (sample 7),
    .removeNext, .removeNext]

/-- After that removal the heap hands out the event at time 4 while the event at
time 3 is still stored. -/
theorem heapScheduler_returns_later_event :
    machine.Legal start removeBelowGreaterParent ∧
      (machine.run start removeBelowGreaterParent).1.peekNext = sample 4 ∧
      (machine.run start removeBelowGreaterParent).2.1.peekNext = sample 3 ∧
      ¬ machine.Always Refines start removeBelowGreaterParent := by
  refine ⟨by decide +kernel, by decide +kernel, by decide, fun always => ?_⟩
  have differ : ¬ (machine.run start removeBelowGreaterParent).1.peekNext =
      (machine.run start removeBelowGreaterParent).2.1.peekNext := by decide +kernel
  exact differ (always.last.samePeek (by decide +kernel))

end HeapBesideList

end Ns3.Core
