import Ns3.Core.Scheduler
import Ns3.Library.Word

/-!
`ns3::DefaultSimulatorImpl` over any scheduler.

Times are 64-bit steps: a delay is an `Int` in the range of `int64_t` and a time
stamp a word of 64 bits. The event implementations are pointers; `cancelled`
holds those whose `m_cancel` flag is set. `ProcessOneEvent` is in two parts,
before and after the body of the event, because the body calls back into the
simulator.
-/

namespace Ns3.Core

open Library

/-- `ns3::EventId`; a default constructed id has no implementation. -/
structure EventId where
  impl : Option Nat
  ts : Nat
  context : Nat
  uid : Nat
  deriving DecidableEq, Repr

/-- `EventId::EventId ()`. -/
def EventId.null : EventId := ⟨none, 0, 0, 0⟩

/-- The id that is handed out for an event of the event list. -/
def EventId.of (ev : Event) : EventId := ⟨some ev.impl, ev.key.ts, ev.key.context, ev.key.uid⟩

theorem EventId.of_injective {a b : Event} (same : EventId.of a = EventId.of b) : a = b := by
  obtain ⟨impl, ts, uid, context⟩ := a
  obtain ⟨impl', ts', uid', context'⟩ := b
  simp only [EventId.of, EventId.mk.injEq, Option.some.injEq] at same
  obtain ⟨rfl, rfl, rfl, rfl⟩ := same
  rfl

/-- `DefaultSimulatorImpl::EventWithContext`. -/
structure EventWithContext where
  context : Nat
  timestamp : Nat
  event : Nat
  deriving DecidableEq, Repr

/-- `ns3::DefaultSimulatorImpl` with the `m_cancel` flags of the event
implementations. -/
structure DefaultSimulatorImpl (Queue : Type) where
  eventsWithContext : List EventWithContext
  eventsWithContextEmpty : Bool
  destroyEvents : List EventId
  stop : Bool
  events : Queue
  uid : Nat
  currentUid : Nat
  currentTs : Nat
  currentContext : Nat
  eventCount : Nat
  unscheduledEvents : Int
  main : Nat
  cancelled : List Nat
  deriving DecidableEq, Repr

namespace DefaultSimulatorImpl

variable {Queue : Type}

/-- `Simulator::NO_CONTEXT`. -/
def noContext : Nat := 0xffffffff

/-- The constructor, with the scheduler that `SetScheduler` installs. -/
def create (events : Queue) (main : Nat) : DefaultSimulatorImpl Queue where
  eventsWithContext := []
  eventsWithContextEmpty := true
  destroyEvents := []
  stop := false
  events := events
  uid := 4
  currentUid := 0
  currentTs := 0
  currentContext := noContext
  eventCount := 0
  unscheduledEvents := 0
  main := main
  cancelled := []

/-- `EventImpl::IsCancelled`. -/
def isCancelled (self : DefaultSimulatorImpl Queue) (event : Nat) : Bool :=
  decide (event ∈ self.cancelled)

/-- `EventImpl::Cancel`. -/
def cancelImpl (self : DefaultSimulatorImpl Queue) (event : Nat) : DefaultSimulatorImpl Queue :=
  { self with cancelled := event :: self.cancelled }

/-- `m_unscheduledEvents += change`, an `int`. -/
def countUnscheduled (self : DefaultSimulatorImpl Queue) (change : Int) : Int :=
  Int.bmod (self.unscheduledEvents + change) (2 ^ 32)

/-- `(uint64_t) (delay + TimeStep (m_currentTs)).GetTimeStep ()`. -/
def absolute (self : DefaultSimulatorImpl Queue) (delay : Int) : Nat :=
  wrapInt 64 (delay + self.currentTs)

variable (scheduler : Scheduler Queue)

/-- Give an event its unique id, count it, and insert it. -/
def enqueue (self : DefaultSimulatorImpl Queue) (ev : Event) : DefaultSimulatorImpl Queue :=
  { self with
    uid := wrap 32 (self.uid + 1)
    unscheduledEvents := self.countUnscheduled 1
    events := scheduler.insert self.events ev }

/-- The event that `Schedule` inserts. -/
def scheduled (self : DefaultSimulatorImpl Queue) (delay : Int) (event : Nat) : Event :=
  ⟨event, self.absolute delay, self.uid, self.currentContext⟩

/-- `Schedule`. -/
def schedule (self : DefaultSimulatorImpl Queue) (delay : Int) (event : Nat) :
    EventId × DefaultSimulatorImpl Queue :=
  (EventId.of (self.scheduled delay event), self.enqueue scheduler (self.scheduled delay event))

/-- The event that `ScheduleWithContext` inserts when the main thread calls it. -/
def scheduledWithContext (self : DefaultSimulatorImpl Queue) (context : Nat) (delay : Int)
    (event : Nat) : Event :=
  ⟨event, self.absolute delay, self.uid, context⟩

/-- `ScheduleWithContext`, called by `thread`. -/
def scheduleWithContext (self : DefaultSimulatorImpl Queue) (thread context : Nat) (delay : Int)
    (event : Nat) : DefaultSimulatorImpl Queue :=
  if thread = self.main then
    self.enqueue scheduler (self.scheduledWithContext context delay event)
  else
    { self with
      eventsWithContext := self.eventsWithContext ++ [⟨context, wrapInt 64 delay, event⟩]
      eventsWithContextEmpty := false }

/-- The event that `ScheduleNow` inserts. -/
def scheduledNow (self : DefaultSimulatorImpl Queue) (event : Nat) : Event :=
  ⟨event, self.currentTs, self.uid, self.currentContext⟩

/-- `ScheduleNow`. -/
def scheduleNow (self : DefaultSimulatorImpl Queue) (event : Nat) :
    EventId × DefaultSimulatorImpl Queue :=
  (EventId.of (self.scheduledNow event), self.enqueue scheduler (self.scheduledNow event))

/-- `ScheduleDestroy`: its events wait in a list of their own, all with id 2. -/
def scheduleDestroy (self : DefaultSimulatorImpl Queue) (event : Nat) :
    EventId × DefaultSimulatorImpl Queue :=
  let id : EventId := ⟨some event, self.currentTs, 0xffffffff, 2⟩
  (id, { self with
    destroyEvents := self.destroyEvents ++ [id]
    uid := wrap 32 (self.uid + 1) })

/-- `IsExpired`. -/
def isExpired (self : DefaultSimulatorImpl Queue) (id : EventId) : Bool :=
  match id.impl with
  | none => true
  | some event =>
      if id.uid = 2 then
        self.isCancelled event || !decide (id ∈ self.destroyEvents)
      else
        decide (id.ts < self.currentTs) ||
          decide (id.ts = self.currentTs ∧ id.uid ≤ self.currentUid) ||
          self.isCancelled event

/-- `Remove`. An id that has not expired has an implementation. -/
def remove (self : DefaultSimulatorImpl Queue) (id : EventId) : DefaultSimulatorImpl Queue :=
  if id.uid = 2 then
    { self with destroyEvents := self.destroyEvents.erase id }
  else if self.isExpired id then self
  else
    match id.impl with
    | none => self
    | some event =>
        { self.cancelImpl event with
          events := scheduler.remove self.events ⟨event, id.ts, id.uid, id.context⟩
          unscheduledEvents := self.countUnscheduled (-1) }

/-- `Cancel`. -/
def cancel (self : DefaultSimulatorImpl Queue) (id : EventId) : DefaultSimulatorImpl Queue :=
  if self.isExpired id then self
  else
    match id.impl with
    | none => self
    | some event => self.cancelImpl event

/-- `Stop`. -/
def stopRun (self : DefaultSimulatorImpl Queue) : DefaultSimulatorImpl Queue :=
  { self with stop := true }

/-- The event that `ProcessEventsWithContext` makes of an entry of its list. -/
def arriving (self : DefaultSimulatorImpl Queue) (entry : EventWithContext) : Event :=
  ⟨entry.event, wrap 64 (self.currentTs + entry.timestamp), self.uid, entry.context⟩

/-- One round of the loop of `ProcessEventsWithContext`. -/
def arrive (self : DefaultSimulatorImpl Queue) (entry : EventWithContext) :
    DefaultSimulatorImpl Queue :=
  self.enqueue scheduler (self.arriving entry)

/-- `m_eventsWithContext` swapped with an empty list. -/
def swapOut (self : DefaultSimulatorImpl Queue) : DefaultSimulatorImpl Queue :=
  { self with eventsWithContext := [], eventsWithContextEmpty := true }

/-- `ProcessEventsWithContext`. -/
def processEventsWithContext (self : DefaultSimulatorImpl Queue) : DefaultSimulatorImpl Queue :=
  if self.eventsWithContextEmpty then self
  else self.eventsWithContext.foldl (arrive scheduler) self.swapOut

/-- `ProcessOneEvent` up to the call of `Invoke`, with the event it handles. -/
def beginEvent (self : DefaultSimulatorImpl Queue) : Event × DefaultSimulatorImpl Queue :=
  let next := (scheduler.removeNext self.events).1
  (next, { self with
    events := (scheduler.removeNext self.events).2
    unscheduledEvents := self.countUnscheduled (-1)
    eventCount := wrap 64 (self.eventCount + 1)
    currentTs := next.key.ts
    currentContext := next.key.context
    currentUid := next.key.uid })

/-- `ProcessOneEvent` after `Invoke` has returned. -/
def finishEvent (self : DefaultSimulatorImpl Queue) : DefaultSimulatorImpl Queue :=
  self.processEventsWithContext scheduler

/-- `Run` up to its loop. -/
def enterRun (self : DefaultSimulatorImpl Queue) (thread : Nat) : DefaultSimulatorImpl Queue :=
  { ({ self with main := thread }).processEventsWithContext scheduler with stop := false }

/-- The condition of the loop in `Run`. -/
def goesOn (self : DefaultSimulatorImpl Queue) : Bool :=
  !scheduler.isEmpty self.events && !self.stop

end DefaultSimulatorImpl

end Ns3.Core
