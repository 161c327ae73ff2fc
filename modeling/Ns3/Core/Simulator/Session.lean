import Ns3.Core.Simulator.Kernel

/-!
Runs of the simulator.

A session is a simulator beside the history of its run: which events have
entered the event list, which ids the program holds, what was removed or
cancelled, and what was handed to `Invoke`. The actions are the calls that
events and setup code make, the calls that other threads make, and the parts of
`Run` between them, so that a run is any interleaving that the code allows.
-/

namespace Ns3.Core

open Library

/-- One entry in the history of a run. -/
inductive Record where
  /-- The event was inserted in the event list. -/
  | entered (ev : Event)
  /-- `Remove` or `Cancel` was called for the id. -/
  | revoked (id : EventId)
  /-- The event was taken off the list; `notified` tells whether its body ran. -/
  | dispatched (ev : Event) (notified : Bool)
  deriving DecidableEq, Repr

namespace Record

def entry? : Record → Option Event
  | entered ev => some ev
  | _ => none

def dispatch? : Record → Option Event
  | dispatched ev _ => some ev
  | _ => none

def invocation? : Record → Option Event
  | dispatched ev true => some ev
  | _ => none

end Record

/-- The events that entered the event list, the latest first. -/
def entries (records : List Record) : List Event := records.filterMap Record.entry?

/-- The events taken off the event list by `ProcessOneEvent`, the latest first. -/
def dispatches (records : List Record) : List Event := records.filterMap Record.dispatch?

/-- The events whose body ran, the latest first. -/
def invocations (records : List Record) : List Event := records.filterMap Record.invocation?

/-- Where the main thread is. -/
inductive Phase where
  | outside
  | looping
  | running
  | skipping
  deriving DecidableEq, Repr

/-- The main thread runs code that may call the simulator. -/
def Phase.Calls (phase : Phase) : Prop := phase = .outside ∨ phase = .running

instance (phase : Phase) : Decidable phase.Calls := inferInstanceAs (Decidable (_ ∨ _))

/-- What a run has done so far; `calls` counts the scheduling calls and `ids`
holds every id that the program can pass back. -/
structure History where
  ledger : Ledger
  ids : List EventId
  calls : Nat
  records : List Record

namespace History

def start : History := ⟨Ledger.empty, [EventId.null], 0, []⟩

/-- The calls of `ScheduleDestroy`. -/
def destroys (history : History) : Nat := history.ids.countP fun id => decide (id.uid = 2)

def called (history : History) : History := { history with calls := history.calls + 1 }

def issue (history : History) (id : EventId) : History :=
  { history with ids := id :: history.ids }

def enter (history : History) (ev : Event) : History :=
  { history with
    ledger := history.ledger.insert ev
    records := .entered ev :: history.records }

def revoke (history : History) (id : EventId) : History :=
  { history with records := .revoked id :: history.records }

def discard (history : History) (ev : Event) : History :=
  { history with ledger := history.ledger.remove ev }

def dispatch (history : History) (ev : Event) (notified : Bool) : History :=
  { history with
    ledger := history.ledger.removeNext ev
    records := .dispatched ev notified :: history.records }

end History

/-- A simulator in the middle of a run. -/
structure Session (Queue : Type) where
  sim : DefaultSimulatorImpl Queue
  phase : Phase
  history : History

/-- What happens in a run. `ScheduleWithContext` may come from any thread. -/
inductive SimulatorAction where
  | schedule (delay : Int) (event : Nat)
  | scheduleWithContext (thread context : Nat) (delay : Int) (event : Nat)
  | scheduleNow (event : Nat)
  | scheduleDestroy (event : Nat)
  | remove (id : EventId)
  | cancel (id : EventId)
  | stop
  | enterRun (thread : Nat)
  | beginEvent
  | finishEvent
  | leaveRun
  deriving DecidableEq, Repr

namespace DefaultSimulatorImpl

variable {Queue : Type} (scheduler : Scheduler Queue)

/-- The events that the loop of `ProcessEventsWithContext` inserts. -/
def arrivals (self : DefaultSimulatorImpl Queue) : List EventWithContext → List Event
  | [] => []
  | entry :: entries => self.arriving entry :: (self.arrive scheduler entry).arrivals entries

/-- The events that `ProcessEventsWithContext` inserts. -/
def moved (self : DefaultSimulatorImpl Queue) : List Event :=
  if self.eventsWithContextEmpty then []
  else self.swapOut.arrivals scheduler self.eventsWithContext

/-- The event that `Remove` takes off the event list. -/
def discarded? (self : DefaultSimulatorImpl Queue) (id : EventId) : Option Event :=
  if id.uid = 2 ∨ self.isExpired id then none
  else id.impl.map fun event => ⟨event, id.ts, id.uid, id.context⟩

end DefaultSimulatorImpl

namespace Session

variable {Queue : Type} (scheduler : Scheduler Queue)

/-- Before the first call. -/
def start (events : Queue) (main : Nat) : Session Queue :=
  ⟨DefaultSimulatorImpl.create events main, .outside, History.start⟩

/-- The simulator after an action. -/
def stepSim (sim : DefaultSimulatorImpl Queue) : SimulatorAction → DefaultSimulatorImpl Queue
  | .schedule delay event => (sim.schedule scheduler delay event).2
  | .scheduleWithContext thread context delay event =>
      sim.scheduleWithContext scheduler thread context delay event
  | .scheduleNow event => (sim.scheduleNow scheduler event).2
  | .scheduleDestroy event => (sim.scheduleDestroy event).2
  | .remove id => sim.remove scheduler id
  | .cancel id => sim.cancel id
  | .stop => sim.stopRun
  | .enterRun thread => sim.enterRun scheduler thread
  | .beginEvent => (sim.beginEvent scheduler).2
  | .finishEvent => sim.finishEvent scheduler
  | .leaveRun => sim

/-- The place of the main thread after an action. -/
def stepPhase (sim : DefaultSimulatorImpl Queue) (phase : Phase) : SimulatorAction → Phase
  | .enterRun _ => .looping
  | .beginEvent =>
      if sim.isCancelled (sim.beginEvent scheduler).1.impl then .skipping else .running
  | .finishEvent => .looping
  | .leaveRun => .outside
  | _ => phase

/-- The history after an action. -/
def stepHistory (sim : DefaultSimulatorImpl Queue) (history : History) :
    SimulatorAction → History
  | .schedule delay event =>
      (history.called.enter (sim.scheduled delay event)).issue
        (sim.schedule scheduler delay event).1
  | .scheduleWithContext thread context delay event =>
      if thread = sim.main then
        history.called.enter (sim.scheduledWithContext context delay event)
      else history.called
  | .scheduleNow event =>
      (history.called.enter (sim.scheduledNow event)).issue (sim.scheduleNow scheduler event).1
  | .scheduleDestroy event => history.called.issue (sim.scheduleDestroy event).1
  | .remove id => ((sim.discarded? id).elim history history.discard).revoke id
  | .cancel id => history.revoke id
  | .enterRun thread =>
      (({ sim with main := thread }).moved scheduler).foldl History.enter history
  | .beginEvent =>
      history.dispatch (sim.beginEvent scheduler).1
        (!sim.isCancelled (sim.beginEvent scheduler).1.impl)
  | .finishEvent => (sim.moved scheduler).foldl History.enter history
  | _ => history

/-- A run schedules fewer than `2 ^ 32 - 4` events in total. -/
def HasRoom (history : History) : Prop := history.calls + 1 < 2 ^ 32 - 4

/-- The range of `int64_t`. -/
def IsTimeStep (delay : Int) : Prop := -2 ^ 63 ≤ delay ∧ delay < 2 ^ 63

/-- What the code and its callers allow. `Schedule` asserts that its delay is
not negative, and ids come from the simulator. -/
def Enabled (session : Session Queue) : SimulatorAction → Prop
  | .schedule delay _ =>
      session.phase.Calls ∧ HasRoom session.history ∧ 0 ≤ delay ∧ delay < 2 ^ 63
  | .scheduleWithContext thread _ delay _ =>
      (thread = session.sim.main → session.phase.Calls) ∧ HasRoom session.history ∧
        IsTimeStep delay
  | .scheduleNow _ => session.phase.Calls ∧ HasRoom session.history
  | .scheduleDestroy _ => session.phase.Calls ∧ HasRoom session.history
  | .remove id => session.phase.Calls ∧ id ∈ session.history.ids
  | .cancel id => session.phase.Calls ∧ id ∈ session.history.ids
  | .stop => session.phase.Calls
  | .enterRun _ => session.phase = .outside
  | .beginEvent => session.phase = .looping ∧ session.sim.goesOn scheduler = true
  | .finishEvent => session.phase = .running ∨ session.phase = .skipping
  | .leaveRun => session.phase = .looping ∧ session.sim.goesOn scheduler = false

/-- The runs of the simulator. -/
def machine : Machine (Session Queue) SimulatorAction where
  step session action :=
    { sim := stepSim scheduler session.sim action
      phase := stepPhase scheduler session.sim session.phase action
      history := stepHistory scheduler session.sim session.history action }
  Enabled := Enabled scheduler

instance : ∀ (session : Session Queue) action, Decidable (Enabled scheduler session action)
  | _, .schedule _ _ => inferInstanceAs (Decidable (_ ∧ _ + 1 < _ ∧ _ ∧ _))
  | _, .scheduleWithContext _ _ _ _ =>
      inferInstanceAs (Decidable ((_ → _) ∧ _ + 1 < _ ∧ _ ∧ _))
  | _, .scheduleNow _ => inferInstanceAs (Decidable (_ ∧ _ + 1 < _))
  | _, .scheduleDestroy _ => inferInstanceAs (Decidable (_ ∧ _ + 1 < _))
  | _, .remove _ => inferInstanceAs (Decidable (_ ∧ _))
  | _, .cancel _ => inferInstanceAs (Decidable (_ ∧ _))
  | session, .stop => inferInstanceAs (Decidable session.phase.Calls)
  | _, .enterRun _ => inferInstanceAs (Decidable (_ = _))
  | _, .beginEvent => inferInstanceAs (Decidable (_ ∧ _))
  | _, .finishEvent => inferInstanceAs (Decidable (_ ∨ _))
  | _, .leaveRun => inferInstanceAs (Decidable (_ ∧ _))

instance : ∀ (session : Session Queue) action,
    Decidable ((machine scheduler).Enabled session action) :=
  fun session action => inferInstanceAs (Decidable (Enabled scheduler session action))

/-- `GetMaximumSimulationTime` is not passed. -/
def Timely (ts : Nat) (delay : Int) : Prop := 0 ≤ delay ∧ ts + delay < 2 ^ 63

/-- No delay is negative and no event is set past `GetMaximumSimulationTime`.
The time of an event from another thread is fixed when the event is moved to the
event list. -/
def InTime (session : Session Queue) : SimulatorAction → Prop
  | .schedule delay _ => Timely session.sim.currentTs delay
  | .scheduleWithContext thread _ delay _ =>
      if thread = session.sim.main then Timely session.sim.currentTs delay else 0 ≤ delay
  | .enterRun _ =>
      ∀ entry ∈ session.sim.eventsWithContext, session.sim.currentTs + entry.timestamp < 2 ^ 63
  | .finishEvent =>
      ∀ entry ∈ session.sim.eventsWithContext, session.sim.currentTs + entry.timestamp < 2 ^ 63
  | _ => True

instance (ts : Nat) (delay : Int) : Decidable (Timely ts delay) :=
  inferInstanceAs (Decidable (_ ∧ _))

instance : ∀ (session : Session Queue) action, Decidable (InTime session action)
  | session, .schedule delay _ => inferInstanceAs (Decidable (Timely session.sim.currentTs delay))
  | session, .scheduleWithContext thread _ delay _ =>
      inferInstanceAs (Decidable (if thread = session.sim.main
        then Timely session.sim.currentTs delay else 0 ≤ delay))
  | session, .enterRun _ =>
      inferInstanceAs (Decidable (∀ entry ∈ session.sim.eventsWithContext, _ + _ < _))
  | session, .finishEvent =>
      inferInstanceAs (Decidable (∀ entry ∈ session.sim.eventsWithContext, _ + _ < _))
  | _, .scheduleNow _ => .isTrue trivial
  | _, .scheduleDestroy _ => .isTrue trivial
  | _, .remove _ => .isTrue trivial
  | _, .cancel _ => .isTrue trivial
  | _, .stop => .isTrue trivial
  | _, .beginEvent => .isTrue trivial
  | _, .leaveRun => .isTrue trivial

end Session

end Ns3.Core
