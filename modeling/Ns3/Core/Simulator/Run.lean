import Ns3.Core.Simulator.Invariant
import Ns3.Core.ListScheduler

/-!
What every run of the simulator guarantees.

The invariant is carried through every action, for any scheduler that is a
priority queue for callers whose time moves forward. The last part shows by
which runs each condition on the run is needed.
-/

namespace Ns3.Core

open Library DefaultSimulatorImpl
open CalendarScheduler (Admits)

variable {Queue : Type} {Represents : Queue → Ledger → Prop} {scheduler : Scheduler Queue}
variable {sim : DefaultSimulatorImpl Queue} {history : History} {pending : Nat}

/-- The loop of `ProcessEventsWithContext`. -/
theorem Keeps.arrivals (queue : scheduler.IsPriorityQueue Admits Represents)
    {waiting : List EventWithContext}
    (keeps : Keeps Represents sim history (pending + waiting.length))
    (inTime : ∀ entry ∈ waiting, sim.currentTs + entry.timestamp < 2 ^ 63) :
    Keeps Represents (waiting.foldl (arrive scheduler) sim)
      ((sim.arrivals scheduler waiting).foldl History.enter history) pending := by
  induction waiting generalizing sim history with
  | nil => exact keeps
  | cons entry waiting inductionHypothesis =>
      have fits := inTime entry List.mem_cons_self
      have tsEq : (sim.arriving entry).key.ts = sim.currentTs + entry.timestamp :=
        wrap_of_lt (fits.trans (by decide))
      apply inductionHypothesis
      · refine Keeps.enqueue queue keeps rfl ?_ ?_
        · exact tsEq ▸ Nat.le_add_right _ _
        · exact tsEq ▸ fits
      · exact fun other waits => inTime other (List.mem_cons_of_mem _ waits)

/-- The invariant of a session between two actions. -/
structure Session.Invariant (Represents : Queue → Ledger → Prop) (session : Session Queue) :
    Prop where
  keeps : Keeps Represents session.sim session.history session.sim.eventsWithContext.length
  flag : session.sim.eventsWithContextEmpty = true ↔ session.sim.eventsWithContext = []

namespace Session

theorem Invariant.start {events : Queue} (represents : Represents events Ledger.empty)
    (main : Nat) : Invariant Represents (start events main) :=
  ⟨.create represents main, by simp [Session.start, DefaultSimulatorImpl.create]⟩

/-- A delay within the simulation time is added without wrapping. -/
theorem absolute_of_timely {delay : Int} (timely : Timely sim.currentTs delay) :
    sim.currentTs ≤ sim.absolute delay ∧ sim.absolute delay < 2 ^ 63 := by
  obtain ⟨nonnegative, fits⟩ := timely
  obtain ⟨steps, rfl⟩ := Int.eq_ofNat_of_zero_le nonnegative
  have fitsNat : steps + sim.currentTs < 2 ^ 63 := by omega
  have absoluteEq : sim.absolute steps = steps + sim.currentTs := by
    rw [absolute, ← Int.natCast_add, wrapInt_natCast]
    exact wrap_of_lt (fitsNat.trans (by decide))
  rw [absoluteEq]
  exact ⟨Nat.le_add_left _ _, fitsNat⟩

/-- `ProcessEventsWithContext` empties the list of the other threads. -/
theorem eventsWithContext_foldl (scheduler : Scheduler Queue) (sim : DefaultSimulatorImpl Queue)
    (waiting : List EventWithContext) :
    (waiting.foldl (arrive scheduler) sim).eventsWithContext = sim.eventsWithContext ∧
      (waiting.foldl (arrive scheduler) sim).eventsWithContextEmpty =
        sim.eventsWithContextEmpty ∧
      (waiting.foldl (arrive scheduler) sim).currentTs = sim.currentTs := by
  induction waiting generalizing sim with
  | nil => exact ⟨rfl, rfl, rfl⟩
  | cons entry waiting inductionHypothesis => exact inductionHypothesis _

theorem processEventsWithContext_currentTs (sim : DefaultSimulatorImpl Queue) :
    (sim.processEventsWithContext scheduler).currentTs = sim.currentTs := by
  unfold processEventsWithContext
  split
  · rfl
  · exact (eventsWithContext_foldl _ _ _).2.2

theorem Invariant.process (queue : scheduler.IsPriorityQueue Admits Represents)
    {session : Session Queue} (invariant : Invariant Represents session) (phase : Phase)
    (inTime : ∀ entry ∈ session.sim.eventsWithContext,
      session.sim.currentTs + entry.timestamp < 2 ^ 63) :
    Invariant Represents
      ⟨session.sim.processEventsWithContext scheduler, phase,
        (session.sim.moved scheduler).foldl History.enter session.history⟩ := by
  unfold processEventsWithContext moved
  cases isEmpty : session.sim.eventsWithContextEmpty with
  | true => exact ⟨invariant.keeps, invariant.flag⟩
  | false =>
      obtain ⟨listEq, flagEq, _⟩ :=
        eventsWithContext_foldl scheduler session.sim.swapOut session.sim.eventsWithContext
      have swapped : Keeps Represents session.sim.swapOut session.history
          (0 + session.sim.eventsWithContext.length) := by
        rw [Nat.zero_add]
        exact invariant.keeps.of_fields rfl rfl rfl rfl rfl rfl
      refine ⟨?_, ?_⟩
      · rw [if_neg Bool.false_ne_true, if_neg Bool.false_ne_true, listEq]
        exact swapped.arrivals queue inTime
      · rw [if_neg Bool.false_ne_true, listEq, flagEq]
        simp [swapOut]

theorem Invariant.enter (queue : scheduler.IsPriorityQueue Admits Represents)
    {session : Session Queue} (invariant : Invariant Represents session)
    (room : HasRoom session.history) {ev : Event} (next : ev.key.uid = session.sim.uid)
    (later : session.sim.currentTs ≤ ev.key.ts) (fits : ev.key.ts < 2 ^ 63) (phase : Phase) :
    Invariant Represents
      ⟨session.sim.enqueue scheduler ev, phase, session.history.called.enter ev⟩ :=
  ⟨(invariant.keeps.called room).enqueue queue next later fits, invariant.flag⟩

theorem Invariant.issue {session : Session Queue} (invariant : Invariant Represents session)
    {ev : Event} (entered : ev ∈ entries session.history.records) :
    Invariant Represents
      ⟨session.sim, session.phase, session.history.issue (EventId.of ev)⟩ :=
  ⟨invariant.keeps.issue entered, invariant.flag⟩

theorem Invariant.post {session : Session Queue} (invariant : Invariant Represents session)
    (room : HasRoom session.history) (entry : EventWithContext) :
    Invariant Represents
      ⟨{ session.sim with
          eventsWithContext := session.sim.eventsWithContext ++ [entry]
          eventsWithContextEmpty := false }, session.phase, session.history.called⟩ := by
  have called := invariant.keeps.called room
  refine ⟨?_, by simp⟩
  rw [List.length_append]
  exact called.of_fields rfl rfl rfl rfl rfl rfl

theorem Invariant.remove (queue : scheduler.IsPriorityQueue Admits Represents)
    {session : Session Queue} (invariant : Invariant Represents session) {id : EventId}
    (issued : id ∈ session.history.ids) :
    Invariant Represents
      ⟨session.sim.remove scheduler id, session.phase,
        ((session.sim.discarded? id).elim session.history session.history.discard).revoke id⟩ := by
  have keeps := invariant.keeps
  by_cases isDestroy : id.uid = 2
  · have revoked := keeps.revoke issued (.inl isDestroy)
    rw [DefaultSimulatorImpl.remove, if_pos isDestroy, discarded?, if_pos (.inl isDestroy)]
    exact ⟨revoked.of_fields rfl rfl rfl rfl rfl rfl, invariant.flag⟩
  · cases expired : session.sim.isExpired id with
    | true =>
        rw [DefaultSimulatorImpl.remove, if_neg isDestroy, if_pos expired, discarded?,
          if_pos (.inr expired)]
        exact ⟨keeps.revoke issued (.inr expired), invariant.flag⟩
    | false =>
        obtain ⟨ev, stored, rfl, _⟩ := (keeps.isExpired_iff_of_issued issued isDestroy).mp expired
        have discards : session.sim.discarded? (EventId.of ev) = some ev :=
          if_neg (by simp [isDestroy, expired])
        rw [DefaultSimulatorImpl.remove, if_neg isDestroy, discards, expired,
          if_neg Bool.false_ne_true]
        exact ⟨keeps.discard queue issued stored, invariant.flag⟩

theorem Invariant.cancel {session : Session Queue} (invariant : Invariant Represents session)
    {id : EventId} (issued : id ∈ session.history.ids) :
    Invariant Represents
      ⟨session.sim.cancel id, session.phase, session.history.revoke id⟩ := by
  have keeps := invariant.keeps
  unfold DefaultSimulatorImpl.cancel
  cases expired : session.sim.isExpired id with
  | true => exact ⟨keeps.revoke issued (.inr expired), invariant.flag⟩
  | false =>
      obtain ⟨impl, ts, context, uid⟩ := id
      cases impl with
      | none => cases expired
      | some event =>
          exact ⟨keeps.cancelImpl ⟨event, ts, uid, context⟩ issued, invariant.flag⟩

theorem Invariant.nonempty (queue : scheduler.IsPriorityQueue Admits Represents)
    {session : Session Queue} (invariant : Invariant Represents session)
    (goesOn : session.sim.goesOn scheduler = true) : session.history.ledger.events ≠ 0 := by
  rw [Ne, ← queue.isEmpty invariant.keeps.represents]
  intro isEmpty
  rw [DefaultSimulatorImpl.goesOn, isEmpty] at goesOn
  cases goesOn

theorem Invariant.step (queue : scheduler.IsPriorityQueue Admits Represents)
    {session : Session Queue} {action : SimulatorAction}
    (invariant : Invariant Represents session)
    (enabled : (machine scheduler).Enabled session action) (inTime : InTime session action) :
    Invariant Represents ((machine scheduler).step session action) := by
  cases action with
  | schedule delay event =>
      obtain ⟨later, fits⟩ := absolute_of_timely inTime
      exact (invariant.enter queue enabled.2.1 rfl later fits session.phase).issue
        List.mem_cons_self
  | scheduleWithContext thread context delay event =>
      simp only [InTime] at inTime
      simp only [machine, stepSim, stepPhase, stepHistory, scheduleWithContext]
      split
      next isMain =>
        rw [if_pos isMain] at inTime
        obtain ⟨later, fits⟩ := absolute_of_timely inTime
        exact invariant.enter queue enabled.2.1 rfl later fits session.phase
      next notMain => exact invariant.post enabled.2.1 _
  | scheduleNow event =>
      have fits := invariant.keeps.timed.now
      exact (invariant.enter queue enabled.2 rfl le_rfl fits session.phase).issue
        List.mem_cons_self
  | scheduleDestroy event =>
      exact ⟨(invariant.keeps.called enabled.2).scheduleDestroy event, invariant.flag⟩
  | remove id => exact invariant.remove queue enabled.2
  | cancel id => exact invariant.cancel enabled.2
  | stop => exact ⟨invariant.keeps.of_fields rfl rfl rfl rfl rfl rfl, invariant.flag⟩
  | enterRun thread =>
      have onThread : Invariant Represents
          ⟨{ session.sim with main := thread }, session.phase, session.history⟩ :=
        ⟨invariant.keeps.of_fields rfl rfl rfl rfl rfl rfl, invariant.flag⟩
      have processed := onThread.process queue .looping inTime
      exact ⟨processed.keeps.of_fields rfl rfl rfl rfl rfl rfl, processed.flag⟩
  | beginEvent =>
      exact ⟨invariant.keeps.dispatch queue (invariant.nonempty queue enabled.2), invariant.flag⟩
  | finishEvent => exact invariant.process queue _ inTime
  | leaveRun => exact ⟨invariant.keeps, invariant.flag⟩

/-- In a list that is sorted by unique id, latest first, the order of two events
shows in their ids. -/
theorem pair_sublist_of_uid {events : List Event}
    (sorted : events.Pairwise fun newer older => older.key.uid < newer.key.uid)
    {newer older : Event} (newerIn : newer ∈ events) (olderIn : older ∈ events)
    (less : older.key.uid < newer.key.uid) : [newer, older].Sublist events := by
  induction events with
  | nil => cases newerIn
  | cons head tail inductionHypothesis =>
      obtain ⟨headLatest, tailSorted⟩ := List.pairwise_cons.mp sorted
      rcases List.mem_cons.mp newerIn with rfl | newerInTail
      · rcases List.mem_cons.mp olderIn with rfl | olderInTail
        · exact absurd less (Nat.lt_irrefl _)
        · exact (List.singleton_sublist.mpr olderInTail).cons_cons newer
      · rcases List.mem_cons.mp olderIn with rfl | olderInTail
        · exact absurd less (headLatest newer newerInTail).asymm
        · exact (inductionHypothesis tailSorted newerInTail olderInTail).cons head

/-- What a run guarantees in every state it passes through. -/
structure Sound (scheduler : Scheduler Queue) (session : Session Queue) : Prop where
  /-- Events of one time stamp run in the order in which they entered the list. -/
  inOrder : ∀ first second, [second, first].Sublist (invocations session.history.records) →
    first.key.ts = second.key.ts → [second, first].Sublist (entries session.history.records)
  /-- No event runs twice. -/
  once : (invocations session.history.records).Nodup
  /-- A queued event has not run. -/
  queued : ∀ ev ∈ session.history.ledger.events,
    ev ∈ entries session.history.records ∧ ev ∉ invocations session.history.records
  /-- An event that is no longer queued has run or was revoked. -/
  settled : ∀ ev ∈ entries session.history.records, ev ∉ session.history.ledger.events →
    ev ∈ invocations session.history.records ∨
      ∃ id, Record.revoked id ∈ session.history.records ∧ id.impl = some ev.impl
  /-- No event runs after it was removed or cancelled. -/
  never : ∀ later earlier ev, session.history.records = later ++ .dispatched ev true :: earlier →
    Record.revoked (EventId.of ev) ∉ earlier
  /-- Every scheduling call has put its event somewhere. -/
  complete : (entries session.history.records).length + session.history.destroys +
    session.sim.eventsWithContext.length = session.history.calls
  /-- When the loop ends and was not stopped, no event is left. -/
  drained : session.sim.goesOn scheduler = false → session.sim.stop = false →
    session.history.ledger.events = 0
  unscheduled : session.history.ledger.events.card < 2 ^ 31 →
    session.sim.unscheduledEvents = session.history.ledger.events.card
  expired : ∀ id ∈ session.history.ids, id.uid ≠ 2 →
    (session.sim.isExpired id = false ↔
      ∃ ev ∈ session.history.ledger.events,
        id = EventId.of ev ∧ ev.impl ∉ session.sim.cancelled)

theorem Invariant.sound (queue : scheduler.IsPriorityQueue Admits Represents)
    {session : Session Queue} (invariant : Invariant Represents session) :
    Sound scheduler session where
  inOrder first second ran sameTs := by
    have keeps := invariant.keeps
    have inDispatches := ran.trans (invocations_sublist _)
    have less := List.pairwise_iff_forall_sublist.mp keeps.timed.ordered inDispatches
    have members := inDispatches.subset
    apply pair_sublist_of_uid keeps.numbered.increasing
    · exact keeps.traced.dispatched second (members (by simp))
    · exact keeps.traced.dispatched first (members (by simp))
    · rcases EventKey.rank_lt_rank.mp less with earlier | ⟨_, uidLess⟩
      · omega
      · exact uidLess
  once := (invariant.keeps.timed.ordered.sublist (invocations_sublist _)).imp
    fun less same => absurd (same ▸ less) (lt_irrefl _)
  queued ev stored :=
    ⟨invariant.keeps.traced.stored ev stored, fun invoked =>
      invariant.keeps.timed.behind ev (dispatches_of_invocations invoked)
        (invariant.keeps.timed.ahead ev stored)⟩
  settled ev entered gone := by
    rcases invariant.keeps.traced.settled ev entered with stored | invoked | isCancelled
    · exact absurd stored gone
    · exact .inl invoked
    · exact .inr (invariant.keeps.revoked.caused ev.impl isCancelled)
  never later earlier ev split recorded := by
    have final := invariant.keeps.revoked.final
    rw [split, List.pairwise_append, List.pairwise_cons] at final
    exact final.2.1.1 _ recorded ev rfl rfl
  complete := invariant.keeps.numbered.complete
  drained finished notStopped := by
    rw [goesOn, notStopped, Bool.not_false, Bool.and_true, Bool.not_eq_false'] at finished
    exact (queue.isEmpty invariant.keeps.represents).mp finished
  unscheduled few := by
    rw [invariant.keeps.traced.unscheduled]
    exact Int.bmod_eq_of_le (by omega) (by omega)
  expired id issued proper := invariant.keeps.isExpired_iff_of_issued issued proper

/-- The clock of the simulator does not run backwards. -/
def Forward (scheduler : Scheduler Queue) (session : Session Queue) (action : SimulatorAction) :
    Prop :=
  session.sim.currentTs ≤ ((machine scheduler).step session action).sim.currentTs

theorem scheduleWithContext_currentTs (thread context : Nat) (delay : Int) (event : Nat) :
    (sim.scheduleWithContext scheduler thread context delay event).currentTs =
      sim.currentTs := by
  unfold scheduleWithContext
  split <;> rfl

theorem remove_currentTs (id : EventId) :
    (sim.remove scheduler id).currentTs = sim.currentTs := by
  unfold DefaultSimulatorImpl.remove
  repeat' split
  all_goals rfl

theorem cancel_currentTs (id : EventId) : (sim.cancel id).currentTs = sim.currentTs := by
  unfold DefaultSimulatorImpl.cancel
  repeat' split
  all_goals rfl

theorem Invariant.forward (queue : scheduler.IsPriorityQueue Admits Represents)
    {session : Session Queue} (invariant : Invariant Represents session)
    {action : SimulatorAction} (enabled : (machine scheduler).Enabled session action) :
    Forward scheduler session action := by
  cases action with
  | schedule delay event => exact le_rfl
  | scheduleWithContext thread context delay event =>
      exact (scheduleWithContext_currentTs thread context delay event).ge
  | scheduleNow event => exact le_rfl
  | scheduleDestroy event => exact le_rfl
  | remove id => exact (remove_currentTs id).ge
  | cancel id => exact (cancel_currentTs id).ge
  | stop => exact le_rfl
  | enterRun thread =>
      exact (processEventsWithContext_currentTs { session.sim with main := thread }).ge
  | beginEvent =>
      have isNext := queue.removeNext invariant.keeps.represents
        (invariant.nonempty queue enabled.2)
      exact invariant.keeps.timed.currentTs_le isNext.1
  | finishEvent => exact (processEventsWithContext_currentTs session.sim).ge
  | leaveRun => exact le_rfl

/-- Over any scheduler that is a priority queue, in every run that stays within
the simulation time: the clock never runs backwards and every state is sound. -/
theorem defaultSimulatorImpl_sound (queue : scheduler.IsPriorityQueue Admits Represents)
    {events : Queue} (represents : Represents events Ledger.empty) (main : Nat)
    (actions : List SimulatorAction)
    (legal : (machine scheduler).Legal (start events main) actions)
    (inTime : (machine scheduler).Along InTime (start events main) actions) :
    (machine scheduler).Along (Forward scheduler) (start events main) actions ∧
      (machine scheduler).Always (Sound scheduler) (start events main) actions := by
  have always : (machine scheduler).Always (Invariant Represents) (start events main) actions :=
    Machine.Legal.always_of_along
      (fun _ _ invariant enabled timely => invariant.step queue enabled timely)
      (.start represents main) legal inTime
  exact ⟨always.along (fun _ _ invariant enabled => invariant.forward queue enabled) legal,
    always.mono fun _ invariant => invariant.sound queue⟩

/-- An event that schedules, cancels and removes others, while another thread
posts one. -/
theorem defaultSimulatorImpl_sound_short_run :
    (machine listScheduler).Along (Forward listScheduler) (start ListScheduler.empty 0)
        [.schedule 5 1, .schedule 5 2, .schedule 7 3, .cancel ⟨some 2, 5, noContext, 5⟩,
          .enterRun 0, .beginEvent, .scheduleNow 4, .scheduleWithContext 1 8 0 5,
          .remove ⟨some 3, 7, noContext, 6⟩, .finishEvent, .beginEvent, .finishEvent,
          .beginEvent, .finishEvent, .beginEvent, .finishEvent, .leaveRun] ∧
      (machine listScheduler).Always (Sound listScheduler) (start ListScheduler.empty 0)
        [.schedule 5 1, .schedule 5 2, .schedule 7 3, .cancel ⟨some 2, 5, noContext, 5⟩,
          .enterRun 0, .beginEvent, .scheduleNow 4, .scheduleWithContext 1 8 0 5,
          .remove ⟨some 3, 7, noContext, 6⟩, .finishEvent, .beginEvent, .finishEvent,
          .beginEvent, .finishEvent, .beginEvent, .finishEvent, .leaveRun] :=
  defaultSimulatorImpl_sound (ListScheduler.isPriorityQueue Admits) ListScheduler.Represents.empty
    0 _ (by decide) (by decide)

instance (session : Session Queue) (action : SimulatorAction) :
    Decidable (Forward scheduler session action) :=
  inferInstanceAs (Decidable (_ ≤ _))

/-- Scheduling over and over before `Run`. -/
theorem legal_replicate_schedule {session : Session Queue} (outside : session.phase = .outside)
    {times : Nat} (room : session.history.calls + times < 2 ^ 32 - 4) :
    (machine scheduler).Legal session (List.replicate times (.schedule 0 1)) := by
  induction times generalizing session with
  | zero => trivial
  | succ times inductionHypothesis =>
      have shifted : session.history.calls + 1 + times < 2 ^ 32 - 4 := by omega
      have roomNow : HasRoom session.history := by
        unfold HasRoom
        omega
      exact ⟨⟨.inl outside, roomNow, by decide, by decide⟩, inductionHypothesis outside shifted⟩

theorem unscheduled_replicate_schedule (scheduler : Scheduler Queue) (session : Session Queue)
    (counted : session.sim.unscheduledEvents =
      Int.bmod session.history.ledger.events.card (2 ^ 32)) (times : Nat) :
    ((machine scheduler).run session
        (List.replicate times (.schedule 0 1))).history.ledger.events.card =
        session.history.ledger.events.card + times ∧
      ((machine scheduler).run session
        (List.replicate times (.schedule 0 1))).sim.unscheduledEvents =
        Int.bmod (session.history.ledger.events.card + times : Nat) (2 ^ 32) := by
  induction times generalizing session with
  | zero => exact ⟨rfl, counted⟩
  | succ times inductionHypothesis =>
      have countedAfter : session.sim.countUnscheduled 1 =
          Int.bmod (session.sim.scheduled 0 1 ::ₘ session.history.ledger.events).card
            (2 ^ 32) := by
        rw [countUnscheduled, counted]
        exact card_cons_bmod _ _
      have cardAfter : ((machine scheduler).step session
          (.schedule 0 1)).history.ledger.events.card + times =
          session.history.ledger.events.card + (times + 1) := by
        change (session.sim.scheduled 0 1 ::ₘ session.history.ledger.events).card + times = _
        rw [Multiset.card_cons, Nat.add_assoc, Nat.add_comm 1 times]
      have after := inductionHypothesis ((machine scheduler).step session (.schedule 0 1))
        countedAfter
      rw [cardAfter] at after
      exact after

/-- The conditions of `defaultSimulatorImpl_sound` cannot be left out. A negative
delay in `ScheduleWithContext`, which no assertion refuses, sets the clock back.
So does a time past the range of the clock, here reached with the delays of
another thread. An event of another thread gets its place when it is moved to
the event list, after an event that was scheduled later. With `2 ^ 31` events
queued the `int` that counts them is negative. -/
theorem defaultSimulatorImpl_needs_limits :
    ((machine listScheduler).Legal (start ListScheduler.empty 0)
        [.schedule 5 1, .enterRun 0, .beginEvent, .scheduleWithContext 0 8 (-3) 2, .finishEvent,
          .beginEvent] ∧
      ¬ (machine listScheduler).Along (Forward listScheduler) (start ListScheduler.empty 0)
        [.schedule 5 1, .enterRun 0, .beginEvent, .scheduleWithContext 0 8 (-3) 2, .finishEvent,
          .beginEvent]) ∧
    ((machine listScheduler).Legal (start ListScheduler.empty 0)
        [.schedule (2 ^ 63 - 1) 1, .enterRun 0, .beginEvent,
          .scheduleWithContext 1 8 (2 ^ 63 - 1) 2, .finishEvent, .beginEvent,
          .scheduleWithContext 1 8 2 3, .finishEvent, .beginEvent] ∧
      ¬ (machine listScheduler).Along (Forward listScheduler) (start ListScheduler.empty 0)
        [.schedule (2 ^ 63 - 1) 1, .enterRun 0, .beginEvent,
          .scheduleWithContext 1 8 (2 ^ 63 - 1) 2, .finishEvent, .beginEvent,
          .scheduleWithContext 1 8 2 3, .finishEvent, .beginEvent]) ∧
    ((machine listScheduler).Legal (start ListScheduler.empty 0)
        [.scheduleNow 1, .enterRun 0, .beginEvent, .scheduleWithContext 1 8 0 2, .scheduleNow 3,
          .finishEvent, .beginEvent, .finishEvent, .beginEvent] ∧
      (invocations ((machine listScheduler).run (start ListScheduler.empty 0)
        [.scheduleNow 1, .enterRun 0, .beginEvent, .scheduleWithContext 1 8 0 2, .scheduleNow 3,
          .finishEvent, .beginEvent, .finishEvent, .beginEvent]).history.records).map
        (fun ev => (ev.impl, ev.key.ts)) = [(2, 0), (3, 0), (1, 0)]) ∧
    ((machine listScheduler).Legal (start ListScheduler.empty 0)
        (List.replicate (2 ^ 31) (.schedule 0 1)) ∧
      ((machine listScheduler).run (start ListScheduler.empty 0)
        (List.replicate (2 ^ 31) (.schedule 0 1))).sim.unscheduledEvents ≠
      ((machine listScheduler).run (start ListScheduler.empty 0)
        (List.replicate (2 ^ 31) (.schedule 0 1))).history.ledger.events.card) := by
  refine ⟨by decide, by decide, by decide, ?_, ?_⟩
  · exact legal_replicate_schedule rfl (by simp [start, History.start])
  · obtain ⟨cardEq, unscheduledEq⟩ := unscheduled_replicate_schedule listScheduler
      (start ListScheduler.empty 0) (by decide) (2 ^ 31)
    rw [cardEq, unscheduledEq]
    decide

end Session

end Ns3.Core
