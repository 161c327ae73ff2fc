import Ns3.Library.Machine
import Mathlib.Data.Prod.Lex
import Mathlib.Data.Fintype.Card

/-!
The interface `ns3::Scheduler` and what every scheduler is for.

Keys are compared by time stamp and then by unique id. The context of a key
takes no part in the comparison, so keys are ordered through their `rank`. A
`Ledger` is the abstract priority queue: the events inserted and not yet
removed, together with what the discipline of the callers refers to.
-/

namespace Ns3.Core

open Library

/-- `Scheduler::EventKey`. -/
structure EventKey where
  ts : Nat
  uid : Nat
  context : Nat
  deriving DecidableEq, Repr

/-- `Scheduler::Event`; the implementation is a pointer. -/
structure Event where
  impl : Nat
  key : EventKey
  deriving DecidableEq, Repr

/-- `operator <` on keys. -/
def EventKey.lt (a b : EventKey) : Bool :=
  if a.ts < b.ts then true
  else if a.ts = b.ts ∧ a.uid < b.uid then true
  else false

/-- `operator >` on keys. -/
def EventKey.gt (a b : EventKey) : Bool :=
  if b.ts < a.ts then true
  else if a.ts = b.ts ∧ b.uid < a.uid then true
  else false

/-- The lexicographic position of a key. -/
def EventKey.rank (key : EventKey) : ℕ ×ₗ ℕ := toLex (key.ts, key.uid)

/-- The lexicographic position of an event. -/
def Event.rank (ev : Event) : ℕ ×ₗ ℕ := ev.key.rank

theorem EventKey.rank_lt_rank {a b : EventKey} :
    a.rank < b.rank ↔ a.ts < b.ts ∨ a.ts = b.ts ∧ a.uid < b.uid :=
  Prod.Lex.toLex_lt_toLex

theorem EventKey.rank_le_rank {a b : EventKey} :
    a.rank ≤ b.rank ↔ a.ts < b.ts ∨ a.ts = b.ts ∧ a.uid ≤ b.uid :=
  Prod.Lex.toLex_le_toLex

@[simp]
theorem EventKey.lt_iff_rank (a b : EventKey) : a.lt b = true ↔ a.rank < b.rank := by
  rw [rank_lt_rank, lt]
  split
  · simp [*]
  · split <;> simp [*]

@[simp]
theorem EventKey.gt_iff_rank (a b : EventKey) : a.gt b = true ↔ b.rank < a.rank := by
  rw [rank_lt_rank, gt]
  split
  · simp [*]
  · split <;> simp_all [eq_comm]

theorem EventKey.uid_eq_of_rank_eq {a b : EventKey} (equal : a.rank = b.rank) :
    a.uid = b.uid := congrArg (fun pair => (ofLex pair).2) equal

/-- The event that a priority queue holding `events` must hand out next. -/
def IsNext (events : Multiset Event) (ev : Event) : Prop :=
  ev ∈ events ∧ ∀ other ∈ events, ev.rank ≤ other.rank

/-- The stored events have pairwise distinct unique ids. -/
def UidsDistinct (events : Multiset Event) : Prop :=
  (events.map fun ev => ev.key.uid).Nodup

theorem UidsDistinct.eq_of_uid {events : Multiset Event}
    (distinct : UidsDistinct events) {a b : Event}
    (aIn : a ∈ events) (bIn : b ∈ events) (same : a.key.uid = b.key.uid) : a = b :=
  Multiset.inj_on_of_nodup_map distinct a aIn b bIn same

theorem UidsDistinct.erase {events : Multiset Event}
    (distinct : UidsDistinct events) (ev : Event) : UidsDistinct (events.erase ev) :=
  Multiset.nodup_of_le (Multiset.map_le_map (Multiset.erase_le ev events)) distinct

theorem UidsDistinct.nodup {events : Multiset Event}
    (distinct : UidsDistinct events) : events.Nodup :=
  Multiset.Nodup.of_map _ distinct

theorem IsNext.unique {events : Multiset Event} (distinct : UidsDistinct events)
    {a b : Event} (aNext : IsNext events a) (bNext : IsNext events b) : a = b :=
  distinct.eq_of_uid aNext.1 bNext.1 (EventKey.uid_eq_of_rank_eq
    (le_antisymm (aNext.2 b bNext.1) (bNext.2 a aNext.1)))

/-- The calls that change a scheduler. -/
inductive SchedulerCall where
  | insert (ev : Event)
  | remove (ev : Event)
  | removeNext
  deriving DecidableEq, Repr

/-- The virtual methods of `ns3::Scheduler`. -/
structure Scheduler (State : Type) where
  insert : State → Event → State
  isEmpty : State → Bool
  peekNext : State → Event
  removeNext : State → Event × State
  remove : State → Event → State

/-- The abstract priority queue, with the time stamp of the event last handed
out by `RemoveNext` and the unique ids ever inserted. -/
structure Ledger where
  events : Multiset Event
  lastTs : Nat
  uids : List Nat

namespace Ledger

/-- Nothing inserted yet. -/
def empty : Ledger := ⟨0, 0, []⟩

def insert (ledger : Ledger) (ev : Event) : Ledger :=
  ⟨ev ::ₘ ledger.events, ledger.lastTs, ev.key.uid :: ledger.uids⟩

def remove (ledger : Ledger) (ev : Event) : Ledger :=
  { ledger with events := ledger.events.erase ev }

/-- `RemoveNext` handed out `ev`. -/
def removeNext (ledger : Ledger) (ev : Event) : Ledger :=
  { ledger with events := ledger.events.erase ev, lastTs := ev.key.ts }

/-- The ids of the stored events are distinct and have all been inserted. -/
structure Fresh (ledger : Ledger) : Prop where
  distinct : UidsDistinct ledger.events
  known : ∀ ev ∈ ledger.events, ev.key.uid ∈ ledger.uids

theorem empty_fresh : empty.Fresh :=
  ⟨Multiset.nodup_zero, fun _ membership => absurd membership (Multiset.notMem_zero _)⟩

theorem Fresh.insert {ledger : Ledger} (fresh : ledger.Fresh) {ev : Event}
    (new : ev.key.uid ∉ ledger.uids) : (ledger.insert ev).Fresh := by
  constructor
  · simp only [Ledger.insert, UidsDistinct, Multiset.map_cons, Multiset.nodup_cons]
    refine ⟨fun known => new ?_, fresh.distinct⟩
    obtain ⟨other, otherIn, sameUid⟩ := Multiset.mem_map.mp known
    exact sameUid ▸ fresh.known other otherIn
  · intro other otherIn
    rcases Multiset.mem_cons.mp otherIn with rfl | stored
    · exact List.mem_cons_self
    · exact List.mem_cons_of_mem _ (fresh.known other stored)

theorem Fresh.remove {ledger : Ledger} (fresh : ledger.Fresh) (ev : Event) :
    (ledger.remove ev).Fresh :=
  ⟨fresh.distinct.erase ev,
    fun other otherIn => fresh.known other (Multiset.mem_of_mem_erase otherIn)⟩

theorem Fresh.removeNext {ledger : Ledger} (fresh : ledger.Fresh) (ev : Event) :
    (ledger.removeNext ev).Fresh :=
  ⟨fresh.distinct.erase ev,
    fun other otherIn => fresh.known other (Multiset.mem_of_mem_erase otherIn)⟩

end Ledger

namespace Scheduler

variable {State : Type} (scheduler : Scheduler State)

/-- A scheduler beside its ledger; `Admits` is what the callers promise about
an event they insert. -/
def machine (Admits : Ledger → Event → Prop) : Machine (State × Ledger) SchedulerCall where
  step
    | (state, ledger), .insert ev => (scheduler.insert state ev, ledger.insert ev)
    | (state, ledger), .remove ev => (scheduler.remove state ev, ledger.remove ev)
    | (state, ledger), .removeNext =>
        ((scheduler.removeNext state).2,
          ledger.removeNext (scheduler.removeNext state).1)
  Enabled
    | (_, ledger), .insert ev => ev.key.uid ∉ ledger.uids ∧ Admits ledger ev
    | (_, ledger), .remove ev => ev ∈ ledger.events
    | (_, ledger), .removeNext => ledger.events ≠ 0

instance {Admits : Ledger → Event → Prop} [∀ ledger ev, Decidable (Admits ledger ev)] :
    ∀ state call, Decidable ((scheduler.machine Admits).Enabled state call)
  | (_, ledger), .insert ev =>
      inferInstanceAs (Decidable (ev.key.uid ∉ ledger.uids ∧ Admits ledger ev))
  | (_, ledger), .remove ev => inferInstanceAs (Decidable (ev ∈ ledger.events))
  | (_, ledger), .removeNext => inferInstanceAs (Decidable (ledger.events ≠ 0))

/-- What it means for a scheduler to be a priority queue for callers that keep
to `Admits`: `Represents` relates its states to ledgers, and every method keeps
to the ledger. -/
structure IsPriorityQueue (Admits : Ledger → Event → Prop)
    (Represents : State → Ledger → Prop) : Prop where
  isEmpty : ∀ {state ledger}, Represents state ledger →
    (scheduler.isEmpty state = true ↔ ledger.events = 0)
  peekNext : ∀ {state ledger}, Represents state ledger → ledger.events ≠ 0 →
    IsNext ledger.events (scheduler.peekNext state)
  removeNext : ∀ {state ledger}, Represents state ledger → ledger.events ≠ 0 →
    IsNext ledger.events (scheduler.removeNext state).1
  afterInsert : ∀ {state ledger ev}, Represents state ledger →
    ev.key.uid ∉ ledger.uids → Admits ledger ev →
    Represents (scheduler.insert state ev) (ledger.insert ev)
  afterRemove : ∀ {state ledger ev}, Represents state ledger → ev ∈ ledger.events →
    Represents (scheduler.remove state ev) (ledger.remove ev)
  afterRemoveNext : ∀ {state ledger}, Represents state ledger → ledger.events ≠ 0 →
    Represents (scheduler.removeNext state).2
      (ledger.removeNext (scheduler.removeNext state).1)

/-- A priority queue represents its ledger in every state of every legal run. -/
theorem IsPriorityQueue.always {Admits : Ledger → Event → Prop}
    {Represents : State → Ledger → Prop}
    (queue : scheduler.IsPriorityQueue Admits Represents)
    {state : State} {ledger : Ledger} {calls : List SchedulerCall}
    (initial : Represents state ledger)
    (legal : (scheduler.machine Admits).Legal (state, ledger) calls) :
    (scheduler.machine Admits).Always (fun pair => Represents pair.1 pair.2)
      (state, ledger) calls := by
  refine Machine.Legal.always ?_ initial legal
  rintro ⟨state, ledger⟩ (ev | ev | _) represented enabled
  · exact queue.afterInsert represented enabled.1 enabled.2
  · exact queue.afterRemove represented enabled
  · exact queue.afterRemoveNext represented enabled

end Scheduler

end Ns3.Core
