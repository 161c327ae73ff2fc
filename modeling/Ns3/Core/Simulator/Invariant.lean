import Ns3.Core.Simulator.Session
import Ns3.Core.Calendar.Refinement

/-!
The global invariant of a run of the simulator.

Every event in the event list lies ahead of the current key, and every event
that left it was either handed to `Invoke` at or before the current key, or
belongs to a cancelled implementation. This is what lets `IsExpired` decide by
comparing keys. Each elementary effect of an action has one lemma here.
-/

namespace Ns3.Core

open Library

namespace DefaultSimulatorImpl

variable {Queue : Type}

/-- The key of the event comes after the key of the current event. -/
def Ahead (self : DefaultSimulatorImpl Queue) (key : EventKey) : Prop :=
  self.currentTs < key.ts ∨ self.currentTs = key.ts ∧ self.currentUid < key.uid

theorem isExpired_of (self : DefaultSimulatorImpl Queue) {ev : Event} (proper : 4 ≤ ev.key.uid) :
    self.isExpired (EventId.of ev) = false ↔
      self.Ahead ev.key ∧ ev.impl ∉ self.cancelled := by
  have notDestroy : ev.key.uid ≠ 2 := by omega
  have unfolded : self.isExpired (EventId.of ev) =
      (decide (ev.key.ts < self.currentTs) ||
        decide (ev.key.ts = self.currentTs ∧ ev.key.uid ≤ self.currentUid) ||
        decide (ev.impl ∈ self.cancelled)) := if_neg notDestroy
  simp only [unfolded, Bool.or_eq_false_iff, decide_eq_false_iff_not, Ahead]
  constructor
  · rintro ⟨⟨notEarlier, notBefore⟩, notCancelled⟩
    exact ⟨by omega, notCancelled⟩
  · rintro ⟨ahead, notCancelled⟩
    exact ⟨⟨by omega, by omega⟩, notCancelled⟩

end DefaultSimulatorImpl

open DefaultSimulatorImpl
open CalendarScheduler (Admits)

theorem dispatches_of_invocations {records : List Record} {ev : Event}
    (invoked : ev ∈ invocations records) : ev ∈ dispatches records := by
  obtain ⟨record, recorded, isInvocation⟩ := List.mem_filterMap.mp invoked
  refine List.mem_filterMap.mpr ⟨record, recorded, ?_⟩
  cases record with
  | dispatched other notified =>
      cases notified with
      | true => exact isInvocation
      | false => cases isInvocation
  | entered other => cases isInvocation
  | revoked id => cases isInvocation

theorem invocations_sublist (records : List Record) :
    (invocations records).Sublist (dispatches records) := by
  induction records with
  | nil => exact .slnil
  | cons record records inductionHypothesis =>
      cases record with
      | entered ev => exact inductionHypothesis
      | revoked id => exact inductionHypothesis
      | dispatched ev notified =>
          cases notified with
          | true => exact inductionHypothesis.cons_cons ev
          | false => exact inductionHypothesis.cons ev

section

variable {Queue : Type} {Represents : Queue → Ledger → Prop}

/-- The unique ids: they are given out in order, and `pending` calls of other
threads still wait for theirs. No call is lost. -/
structure Numbered (sim : DefaultSimulatorImpl Queue) (history : History) (pending : Nat) :
    Prop where
  base : 4 ≤ sim.uid
  counted : sim.uid + pending = 4 + history.calls
  complete : (entries history.records).length + history.destroys + pending = history.calls
  room : history.calls < 2 ^ 32 - 4
  named : ∀ ev ∈ entries history.records, 4 ≤ ev.key.uid ∧ ev.key.uid < sim.uid
  increasing : (entries history.records).Pairwise
    fun newer older => older.key.uid < newer.key.uid
  uids : history.ledger.uids = (entries history.records).map fun ev => ev.key.uid
  fresh : history.ledger.Fresh
  current : sim.currentUid < sim.uid

/-- The times: what is queued lies ahead and what was dispatched does not. -/
structure Timed (sim : DefaultSimulatorImpl Queue) (history : History) : Prop where
  lastTs : history.ledger.lastTs = sim.currentTs
  now : sim.currentTs < 2 ^ 63
  ahead : ∀ ev ∈ history.ledger.events, sim.Ahead ev.key
  fits : ∀ ev ∈ history.ledger.events, ev.key.ts < 2 ^ 63
  behind : ∀ ev ∈ dispatches history.records, ¬ sim.Ahead ev.key
  ordered : (dispatches history.records).Pairwise fun newer older => older.rank < newer.rank

/-- What became of every event that entered the event list. -/
structure Traced (sim : DefaultSimulatorImpl Queue) (history : History) : Prop where
  stored : ∀ ev ∈ history.ledger.events, ev ∈ entries history.records
  dispatched : ∀ ev ∈ dispatches history.records, ev ∈ entries history.records
  settled : ∀ ev ∈ entries history.records,
    ev ∈ history.ledger.events ∨ ev ∈ invocations history.records ∨ ev.impl ∈ sim.cancelled
  unscheduled : sim.unscheduledEvents = Int.bmod history.ledger.events.card (2 ^ 32)

/-- What `Remove` and `Cancel` have done so far. -/
structure Revoked (sim : DefaultSimulatorImpl Queue) (history : History) : Prop where
  ids : ∀ id ∈ history.ids,
    id = EventId.null ∨ id.uid = 2 ∨ ∃ ev ∈ entries history.records, id = EventId.of ev
  known : ∀ id, Record.revoked id ∈ history.records → id ∈ history.ids
  effective : ∀ ev ∈ entries history.records, Record.revoked (EventId.of ev) ∈ history.records →
    ¬ sim.Ahead ev.key ∨ ev.impl ∈ sim.cancelled
  caused : ∀ event ∈ sim.cancelled,
    ∃ id, Record.revoked id ∈ history.records ∧ id.impl = some event
  final : history.records.Pairwise fun newer older =>
    ∀ ev, newer = .dispatched ev true → older ≠ .revoked (EventId.of ev)

/-- The invariant of a run. -/
structure Keeps (Represents : Queue → Ledger → Prop) (sim : DefaultSimulatorImpl Queue)
    (history : History) (pending : Nat) : Prop where
  represents : Represents sim.events history.ledger
  numbered : Numbered sim history pending
  timed : Timed sim history
  traced : Traced sim history
  revoked : Revoked sim history

variable {sim : DefaultSimulatorImpl Queue} {history : History} {pending : Nat}

theorem Keeps.create {events : Queue} (represents : Represents events Ledger.empty)
    (main : Nat) : Keeps Represents (DefaultSimulatorImpl.create events main) History.start 0 where
  represents := represents
  numbered :=
    { base := Nat.le_refl 4
      counted := rfl
      complete := rfl
      room := by simp [History.start]
      named := by simp [History.start, entries]
      increasing := .nil
      uids := rfl
      fresh := Ledger.empty_fresh
      current := Nat.zero_lt_succ 3 }
  timed :=
    { lastTs := rfl
      now := Nat.two_pow_pos 63
      ahead := by simp [History.start, Ledger.empty]
      fits := by simp [History.start, Ledger.empty]
      behind := by simp [History.start, dispatches]
      ordered := .nil }
  traced :=
    { stored := by simp [History.start, Ledger.empty]
      dispatched := by simp [History.start, dispatches]
      settled := by simp [History.start, entries]
      unscheduled := by simp [DefaultSimulatorImpl.create, History.start, Ledger.empty] }
  revoked :=
    { ids := by simp [History.start]
      known := by simp [History.start]
      effective := by simp [History.start]
      caused := by simp [DefaultSimulatorImpl.create]
      final := .nil }

/-- The invariant does not look at the other fields of the simulator. -/
theorem Keeps.of_fields (keeps : Keeps Represents sim history pending)
    {after : DefaultSimulatorImpl Queue} (events : after.events = sim.events)
    (uid : after.uid = sim.uid) (currentUid : after.currentUid = sim.currentUid)
    (currentTs : after.currentTs = sim.currentTs)
    (unscheduledEvents : after.unscheduledEvents = sim.unscheduledEvents)
    (cancelled : after.cancelled = sim.cancelled) : Keeps Represents after history pending := by
  cases after
  dsimp only at events uid currentUid currentTs unscheduledEvents cancelled
  subst events uid currentUid currentTs unscheduledEvents cancelled
  exact { keeps with
    numbered := { keeps.numbered with }
    timed := { keeps.timed with }
    traced := { keeps.traced with }
    revoked := { keeps.revoked with } }

/-- The ids the program holds are older than the next unique id. -/
theorem Keeps.not_issued (keeps : Keeps Represents sim history pending) {ev : Event}
    (next : ev.key.uid = sim.uid) : EventId.of ev ∉ history.ids := by
  intro issued
  rcases keeps.revoked.ids _ issued with isNull | isDestroy | ⟨other, entered, same⟩
  · cases isNull
  · have destroyUid : ev.key.uid = 2 := isDestroy
    have base := keeps.numbered.base
    omega
  · have named := keeps.numbered.named other entered
    rw [← EventId.of_injective same, next] at named
    exact absurd named.2 (Nat.lt_irrefl _)

theorem Numbered.fits (numbered : Numbered sim history pending) (some : 0 < pending) :
    sim.uid + 1 < 2 ^ 32 := by
  have counted := numbered.counted
  have room := numbered.room
  omega

theorem Numbered.enqueue (numbered : Numbered sim history (pending + 1)) {ev : Event}
    (next : ev.key.uid = sim.uid) (scheduler : Scheduler Queue) :
    Numbered (sim.enqueue scheduler ev) (history.enter ev) pending := by
  have fits := numbered.fits pending.succ_pos
  have uidEq : (sim.enqueue scheduler ev).uid = sim.uid + 1 := wrap_of_lt fits
  have older : ∀ other ∈ entries history.records, other.key.uid < ev.key.uid :=
    fun other entered => next ▸ (numbered.named other entered).2
  constructor
  case base => exact uidEq ▸ numbered.base.trans sim.uid.le_succ
  case counted =>
    have counted := numbered.counted
    rw [uidEq]
    change sim.uid + 1 + pending = 4 + history.calls
    omega
  case complete =>
    have complete := numbered.complete
    change (entries history.records).length + 1 + history.destroys + pending = history.calls
    omega
  case room => exact numbered.room
  case named =>
    intro other entered
    rw [uidEq]
    rcases List.mem_cons.mp entered with rfl | before
    · exact ⟨next ▸ numbered.base, next ▸ Nat.lt_succ_self _⟩
    · exact ⟨(numbered.named other before).1, (numbered.named other before).2.trans
        (Nat.lt_succ_self _)⟩
  case increasing => exact .cons older numbered.increasing
  case uids => exact congrArg (ev.key.uid :: ·) numbered.uids
  case fresh =>
    apply numbered.fresh.insert
    rw [numbered.uids]
    intro used
    obtain ⟨other, entered, same⟩ := List.mem_map.mp used
    exact absurd same (older other entered).ne
  case current => exact uidEq ▸ numbered.current.trans (Nat.lt_succ_self _)

theorem Timed.enqueue (timed : Timed sim history) {ev : Event} (ahead : sim.Ahead ev.key)
    (fits : ev.key.ts < 2 ^ 63) (scheduler : Scheduler Queue) :
    Timed (sim.enqueue scheduler ev) (history.enter ev) where
  lastTs := timed.lastTs
  now := timed.now
  ahead other stored := by
    rcases Multiset.mem_cons.mp stored with rfl | before
    · exact ahead
    · exact timed.ahead other before
  fits other stored := by
    rcases Multiset.mem_cons.mp stored with rfl | before
    · exact fits
    · exact timed.fits other before
  behind := timed.behind
  ordered := timed.ordered

theorem card_cons_bmod (events : Multiset Event) (ev : Event) :
    Int.bmod (Int.bmod events.card (2 ^ 32) + 1) (2 ^ 32) =
      Int.bmod (ev ::ₘ events).card (2 ^ 32) := by
  rw [Int.bmod_add_bmod, Multiset.card_cons, Int.natCast_add, Int.natCast_one]

theorem card_erase_bmod {events : Multiset Event} {ev : Event} (stored : ev ∈ events) :
    Int.bmod (Int.bmod events.card (2 ^ 32) + -1) (2 ^ 32) =
      Int.bmod (events.erase ev).card (2 ^ 32) := by
  rw [Int.bmod_add_bmod, ← Multiset.card_erase_add_one stored]
  congr 1
  omega

theorem Traced.enqueue (traced : Traced sim history) (ev : Event)
    (scheduler : Scheduler Queue) :
    Traced (sim.enqueue scheduler ev) (history.enter ev) where
  stored other stored := by
    rcases Multiset.mem_cons.mp stored with rfl | before
    · exact List.mem_cons_self
    · exact List.mem_cons_of_mem _ (traced.stored other before)
  dispatched other dispatched := List.mem_cons_of_mem _ (traced.dispatched other dispatched)
  settled other entered := by
    rcases List.mem_cons.mp entered with rfl | before
    · exact .inl (Multiset.mem_cons_self _ _)
    · exact (traced.settled other before).imp_left (Multiset.mem_cons_of_mem ·)
  unscheduled := by
    change Int.bmod (sim.unscheduledEvents + 1) _ = _
    rw [traced.unscheduled]
    exact card_cons_bmod _ ev

theorem Revoked.enqueue (revoked : Revoked sim history) {ev : Event}
    (new : EventId.of ev ∉ history.ids) (scheduler : Scheduler Queue) :
    Revoked (sim.enqueue scheduler ev) (history.enter ev) where
  ids id issued := by
    rcases revoked.ids id issued with isNull | isDestroy | ⟨other, entered, same⟩
    · exact .inl isNull
    · exact .inr (.inl isDestroy)
    · exact .inr (.inr ⟨other, List.mem_cons_of_mem _ entered, same⟩)
  known id recorded := by
    rcases List.mem_cons.mp recorded with isEntry | before
    · cases isEntry
    · exact revoked.known id before
  effective other entered recorded := by
    rcases List.mem_cons.mp recorded with isEntry | before
    · cases isEntry
    · rcases List.mem_cons.mp entered with rfl | enteredBefore
      · exact absurd (revoked.known _ before) new
      · exact revoked.effective other enteredBefore before
  caused event isCancelled := by
    obtain ⟨id, recorded, same⟩ := revoked.caused event isCancelled
    exact ⟨id, List.mem_cons_of_mem _ recorded, same⟩
  final := .cons (fun _ _ _ isDispatch => by cases isDispatch) revoked.final

theorem Timed.currentTs_le (timed : Timed sim history) {ev : Event}
    (stored : ev ∈ history.ledger.events) : sim.currentTs ≤ ev.key.ts := by
  rcases timed.ahead ev stored with later | ⟨same, _⟩
  · exact later.le
  · exact same.le

/-- `(e)` An event has not expired exactly while it is queued and not cancelled. -/
theorem Keeps.isExpired_iff (keeps : Keeps Represents sim history pending) {ev : Event}
    (entered : ev ∈ entries history.records) :
    sim.isExpired (EventId.of ev) = false ↔
      ev ∈ history.ledger.events ∧ ev.impl ∉ sim.cancelled := by
  rw [isExpired_of sim (keeps.numbered.named ev entered).1]
  constructor
  · rintro ⟨ahead, notCancelled⟩
    refine ⟨?_, notCancelled⟩
    rcases keeps.traced.settled ev entered with stored | invoked | isCancelled
    · exact stored
    · exact absurd ahead (keeps.timed.behind ev (dispatches_of_invocations invoked))
    · exact absurd isCancelled notCancelled
  · rintro ⟨stored, notCancelled⟩
    exact ⟨keeps.timed.ahead ev stored, notCancelled⟩

/-- `(e)` for the ids that the program holds. -/
theorem Keeps.isExpired_iff_of_issued (keeps : Keeps Represents sim history pending) {id : EventId}
    (issued : id ∈ history.ids) (proper : id.uid ≠ 2) :
    sim.isExpired id = false ↔
      ∃ ev ∈ history.ledger.events, id = EventId.of ev ∧ ev.impl ∉ sim.cancelled := by
  rcases keeps.revoked.ids id issued with rfl | isDestroy | ⟨ev, entered, rfl⟩
  · constructor
    · intro notExpired
      cases notExpired
    · rintro ⟨ev, _, isNull, _⟩
      cases isNull
  · exact absurd isDestroy proper
  · rw [keeps.isExpired_iff entered]
    constructor
    · rintro ⟨stored, notCancelled⟩
      exact ⟨ev, stored, rfl, notCancelled⟩
    · rintro ⟨other, stored, same, notCancelled⟩
      rw [EventId.of_injective same]
      exact ⟨stored, notCancelled⟩

theorem Keeps.called (keeps : Keeps Represents sim history pending)
    (room : Session.HasRoom history) : Keeps Represents sim history.called (pending + 1) :=
  { keeps with
    numbered := { keeps.numbered with
      counted := congrArg (· + 1) keeps.numbered.counted
      complete := congrArg (· + 1) keeps.numbered.complete
      room := room }
    timed := { keeps.timed with }
    traced := { keeps.traced with }
    revoked := { keeps.revoked with } }

theorem Revoked.issue (revoked : Revoked sim history) {id : EventId}
    (proper : id.uid = 2 ∨ ∃ ev ∈ entries history.records, id = EventId.of ev) :
    Revoked sim (history.issue id) :=
  { revoked with
    ids := by
      intro other issued
      rcases List.mem_cons.mp issued with rfl | before
      · exact .inr proper
      · exact revoked.ids other before
    known := fun other recorded => List.mem_cons_of_mem _ (revoked.known other recorded) }

theorem Keeps.issue (keeps : Keeps Represents sim history pending) {ev : Event}
    (entered : ev ∈ entries history.records) :
    Keeps Represents sim (history.issue (EventId.of ev)) pending := by
  have proper : (EventId.of ev).uid ≠ 2 := by
    have named := (keeps.numbered.named ev entered).1
    change ev.key.uid ≠ 2
    omega
  exact { keeps with
    numbered := { keeps.numbered with
      complete := by
        rw [History.destroys, History.issue, List.countP_cons_of_neg (by simpa using proper)]
        exact keeps.numbered.complete }
    timed := { keeps.timed with }
    traced := { keeps.traced with }
    revoked := keeps.revoked.issue (.inr ⟨ev, entered, rfl⟩) }

theorem Keeps.scheduleDestroy (keeps : Keeps Represents sim history (pending + 1))
    (event : Nat) :
    Keeps Represents (sim.scheduleDestroy event).2 (history.issue (sim.scheduleDestroy event).1)
      pending := by
  have uidEq : (sim.scheduleDestroy event).2.uid = sim.uid + 1 :=
    wrap_of_lt (keeps.numbered.fits pending.succ_pos)
  have newer : sim.uid < sim.uid + 1 := Nat.lt_succ_self _
  have counted := keeps.numbered.counted
  have complete := keeps.numbered.complete
  exact { keeps with
    numbered := { keeps.numbered with
      base := uidEq ▸ keeps.numbered.base.trans newer.le
      counted := by
        rw [uidEq]
        change sim.uid + 1 + pending = 4 + history.calls
        omega
      complete := by
        rw [History.destroys, History.issue, List.countP_cons_of_pos (by rfl)]
        change (entries history.records).length + (history.destroys + 1) + pending = history.calls
        omega
      named := fun ev entered =>
        uidEq ▸ (keeps.numbered.named ev entered).imp_right (lt_trans · newer)
      current := uidEq ▸ keeps.numbered.current.trans newer }
    timed := { keeps.timed with }
    traced := { keeps.traced with }
    revoked := { keeps.revoked.issue (.inl rfl) with } }

theorem Keeps.enqueue {scheduler : Scheduler Queue}
    (queue : scheduler.IsPriorityQueue Admits Represents)
    (keeps : Keeps Represents sim history (pending + 1)) {ev : Event}
    (next : ev.key.uid = sim.uid) (later : sim.currentTs ≤ ev.key.ts)
    (fits : ev.key.ts < 2 ^ 63) :
    Keeps Represents (sim.enqueue scheduler ev) (history.enter ev) pending := by
  have ahead : sim.Ahead ev.key := by
    rcases later.lt_or_eq with before | same
    · exact .inl before
    · exact .inr ⟨same, next ▸ keeps.numbered.current⟩
  have numbered := keeps.numbered.enqueue next scheduler
  refine ⟨?_, numbered, keeps.timed.enqueue ahead fits scheduler,
    keeps.traced.enqueue ev scheduler, keeps.revoked.enqueue (keeps.not_issued next) scheduler⟩
  apply queue.afterInsert keeps.represents
  · rw [keeps.numbered.uids]
    intro used
    obtain ⟨other, entered, same⟩ := List.mem_map.mp used
    exact absurd (same.trans next) (keeps.numbered.named other entered).2.ne
  · have uidFits := keeps.numbered.fits pending.succ_pos
    have base := keeps.numbered.base
    exact ⟨fits, keeps.timed.lastTs ▸ later, by omega, by omega⟩

/-- A call of `Remove` or `Cancel` that leaves the simulator as `after`. -/
theorem Revoked.revoke {after : DefaultSimulatorImpl Queue} (revoked : Revoked sim history)
    {id : EventId} (issued : id ∈ history.ids)
    (effect : ∀ ev ∈ entries history.records, id = EventId.of ev →
      ¬ after.Ahead ev.key ∨ ev.impl ∈ after.cancelled)
    (sameTime : ∀ key, after.Ahead key → sim.Ahead key)
    (kept : ∀ event ∈ sim.cancelled, event ∈ after.cancelled)
    (added : ∀ event ∈ after.cancelled, event ∈ sim.cancelled ∨ id.impl = some event) :
    Revoked after (history.revoke id) where
  ids := revoked.ids
  known other recorded := by
    rcases List.mem_cons.mp recorded with same | before
    · cases same
      exact issued
    · exact revoked.known other before
  effective ev entered recorded := by
    rcases List.mem_cons.mp recorded with same | before
    · exact effect ev entered (Record.revoked.inj same).symm
    · exact (revoked.effective ev entered before).imp (mt (sameTime ev.key)) (kept ev.impl)
  caused event isCancelled := by
    rcases added event isCancelled with before | same
    · obtain ⟨other, recorded, sameImpl⟩ := revoked.caused event before
      exact ⟨other, List.mem_cons_of_mem _ recorded, sameImpl⟩
    · exact ⟨id, List.mem_cons_self, same⟩
  final := .cons (fun _ _ _ isDispatch => by cases isDispatch) revoked.final

/-- A call of `Remove` or `Cancel` that does nothing. -/
theorem Keeps.revoke (keeps : Keeps Represents sim history pending) {id : EventId}
    (issued : id ∈ history.ids) (expired : id.uid = 2 ∨ sim.isExpired id = true) :
    Keeps Represents sim (history.revoke id) pending := by
  refine { keeps with
    numbered := { keeps.numbered with }
    timed := { keeps.timed with }
    traced := { keeps.traced with }
    revoked := keeps.revoked.revoke issued ?_ (fun _ ahead => ahead)
      (fun _ before => before) (fun _ => .inl) }
  rintro ev entered rfl
  have named := keeps.numbered.named ev entered
  rcases expired with isDestroy | isExpired
  · have destroyUid : ev.key.uid = 2 := isDestroy
    omega
  · have notAlive := mt (isExpired_of sim named.1).mpr (by simp [isExpired])
    by_cases ahead : sim.Ahead ev.key
    · exact .inr (by_contra fun notCancelled => notAlive ⟨ahead, notCancelled⟩)
    · exact .inl ahead

/-- A call of `Cancel` that sets the flag of the implementation. -/
theorem Keeps.cancelImpl (keeps : Keeps Represents sim history pending) (ev : Event)
    (issued : EventId.of ev ∈ history.ids) :
    Keeps Represents (sim.cancelImpl ev.impl) (history.revoke (EventId.of ev)) pending := by
  refine { keeps with
    numbered := { keeps.numbered with }
    timed := { keeps.timed with }
    traced := { keeps.traced with
      settled := fun other entered =>
        (keeps.traced.settled other entered).imp_right
          (Or.imp_right (List.mem_cons_of_mem _ ·)) }
    revoked := keeps.revoked.revoke issued ?_ (fun _ ahead => ahead)
      (fun _ => List.mem_cons_of_mem _) ?_ }
  · intro other _ same
    rw [EventId.of_injective same]
    exact .inr List.mem_cons_self
  · intro event isCancelled
    rcases List.mem_cons.mp isCancelled with rfl | before
    · exact .inr rfl
    · exact .inl before

/-- A call of `Remove` for an event that has not expired. -/
theorem Keeps.discard {scheduler : Scheduler Queue}
    (queue : scheduler.IsPriorityQueue Admits Represents)
    (keeps : Keeps Represents sim history pending) {ev : Event}
    (issued : EventId.of ev ∈ history.ids) (stored : ev ∈ history.ledger.events) :
    Keeps Represents
      { sim.cancelImpl ev.impl with
        events := scheduler.remove sim.events ev
        unscheduledEvents := sim.countUnscheduled (-1) }
      ((history.discard ev).revoke (EventId.of ev)) pending := by
  have cancels := keeps.cancelImpl ev issued
  have kept : ∀ other ∈ history.ledger.events.erase ev, other ∈ history.ledger.events :=
    fun other => Multiset.mem_of_mem_erase
  refine
    { represents := queue.afterRemove keeps.represents stored
      numbered := { keeps.numbered with fresh := keeps.numbered.fresh.remove ev }
      timed := { keeps.timed with
        ahead := fun other storedAfter => keeps.timed.ahead other (kept other storedAfter)
        fits := fun other storedAfter => keeps.timed.fits other (kept other storedAfter) }
      traced :=
        { stored := fun other storedAfter => keeps.traced.stored other (kept other storedAfter)
          dispatched := keeps.traced.dispatched
          settled := ?_
          unscheduled := ?_ }
      revoked := { cancels.revoked with } }
  · intro other entered
    rcases cancels.traced.settled other entered with storedBefore | settled
    · rcases Decidable.eq_or_ne other ev with rfl | different
      · exact .inr (.inr List.mem_cons_self)
      · exact .inl ((Multiset.mem_erase_of_ne different).mpr storedBefore)
    · exact .inr settled
  · change Int.bmod (sim.unscheduledEvents + -1) _ = _
    rw [keeps.traced.unscheduled]
    exact card_erase_bmod stored

theorem Ahead.of_beginEvent {scheduler : Scheduler Queue} {key : EventKey}
    (nextAhead : sim.Ahead (sim.beginEvent scheduler).1.key)
    (ahead : (sim.beginEvent scheduler).2.Ahead key) : sim.Ahead key := by
  unfold Ahead at *
  change (sim.beginEvent scheduler).1.key.ts < key.ts ∨
    (sim.beginEvent scheduler).1.key.ts = key.ts ∧
      (sim.beginEvent scheduler).1.key.uid < key.uid at ahead
  omega

theorem rank_lt_of_ahead {old new : Event} (newAhead : sim.Ahead new.key)
    (oldBehind : ¬ sim.Ahead old.key) : old.rank < new.rank := by
  refine EventKey.rank_lt_rank.mpr ?_
  unfold Ahead at *
  omega

/-- The events that stay behind in the list come after the one handed out. -/
theorem Numbered.rank_lt_of_isNext (numbered : Numbered sim history pending) {ev other : Event}
    (isNext : IsNext history.ledger.events ev)
    (left : other ∈ history.ledger.events.erase ev) : ev.rank < other.rank := by
  have distinct := numbered.fresh.distinct
  obtain ⟨different, stored⟩ := (distinct.nodup.mem_erase_iff).mp left
  refine lt_of_le_of_ne (isNext.2 other stored) fun same => different ?_
  exact distinct.eq_of_uid stored isNext.1 (EventKey.uid_eq_of_rank_eq same).symm

theorem Timed.dispatch {scheduler : Scheduler Queue} (timed : Timed sim history)
    (numbered : Numbered sim history pending)
    (isNext : IsNext history.ledger.events (sim.beginEvent scheduler).1) (notified : Bool) :
    Timed (sim.beginEvent scheduler).2
      (history.dispatch (sim.beginEvent scheduler).1 notified) := by
  have nextAhead := timed.ahead _ isNext.1
  refine ⟨rfl, timed.fits _ isNext.1, ?_, ?_, ?_, ?_⟩
  · intro ev left
    exact EventKey.rank_lt_rank.mp (numbered.rank_lt_of_isNext isNext left)
  · exact fun ev left => timed.fits ev (Multiset.mem_of_mem_erase left)
  · intro ev dispatched
    rcases List.mem_cons.mp dispatched with rfl | before
    · exact fun itself => absurd (EventKey.rank_lt_rank.mpr itself) (lt_irrefl _)
    · exact mt (Ahead.of_beginEvent nextAhead) (timed.behind ev before)
  · exact .cons (fun old before => rank_lt_of_ahead nextAhead (timed.behind old before))
      timed.ordered

theorem Traced.dispatch {scheduler : Scheduler Queue} (traced : Traced sim history)
    (isNext : IsNext history.ledger.events (sim.beginEvent scheduler).1) :
    Traced (sim.beginEvent scheduler).2
      (history.dispatch (sim.beginEvent scheduler).1
        (!sim.isCancelled (sim.beginEvent scheduler).1.impl)) := by
  refine ⟨?_, ?_, ?_, ?_⟩
  · exact fun ev left => traced.stored ev (Multiset.mem_of_mem_erase left)
  · intro ev dispatched
    rcases List.mem_cons.mp dispatched with rfl | before
    · exact traced.stored _ isNext.1
    · exact traced.dispatched ev before
  · intro ev entered
    rcases traced.settled ev entered with stored | invoked | isCancelled
    · rcases Decidable.eq_or_ne ev (sim.beginEvent scheduler).1 with same | different
      · by_cases isCancelled : ev.impl ∈ sim.cancelled
        · exact .inr (.inr isCancelled)
        · refine .inr (.inl (List.mem_filterMap.mpr ⟨_, List.mem_cons_self, ?_⟩))
          rw [← same]
          simp [isCancelled, DefaultSimulatorImpl.isCancelled, Record.invocation?]
      · exact .inl ((Multiset.mem_erase_of_ne different).mpr stored)
    · obtain ⟨record, recorded, isInvocation⟩ := List.mem_filterMap.mp invoked
      exact .inr (.inl (List.mem_filterMap.mpr
        ⟨record, List.mem_cons_of_mem _ recorded, isInvocation⟩))
    · exact .inr (.inr isCancelled)
  · change Int.bmod (sim.unscheduledEvents + -1) _ = _
    rw [traced.unscheduled]
    exact card_erase_bmod isNext.1

theorem Revoked.dispatch {scheduler : Scheduler Queue} (revoked : Revoked sim history)
    (nextAhead : sim.Ahead (sim.beginEvent scheduler).1.key)
    (entered : (sim.beginEvent scheduler).1 ∈ entries history.records) :
    Revoked (sim.beginEvent scheduler).2
      (history.dispatch (sim.beginEvent scheduler).1
        (!sim.isCancelled (sim.beginEvent scheduler).1.impl)) := by
  refine ⟨revoked.ids, ?_, ?_, ?_, ?_⟩
  · intro id recorded
    rcases List.mem_cons.mp recorded with isDispatch | before
    · cases isDispatch
    · exact revoked.known id before
  · intro ev evEntered recorded
    rcases List.mem_cons.mp recorded with isDispatch | before
    · cases isDispatch
    · exact (revoked.effective ev evEntered before).imp_left (mt (Ahead.of_beginEvent nextAhead))
  · intro event isCancelled
    obtain ⟨id, recorded, same⟩ := revoked.caused event isCancelled
    exact ⟨id, List.mem_cons_of_mem _ recorded, same⟩
  · refine .cons ?_ revoked.final
    rintro older recorded ev isDispatch rfl
    obtain ⟨same, notified⟩ := Record.dispatched.inj isDispatch
    rw [← same] at recorded
    rcases revoked.effective _ entered recorded with behind | isCancelled
    · exact behind nextAhead
    · simp [DefaultSimulatorImpl.isCancelled, isCancelled] at notified

/-- `ProcessOneEvent` takes the next event off the list and hands it to `Invoke`. -/
theorem Keeps.dispatch {scheduler : Scheduler Queue}
    (queue : scheduler.IsPriorityQueue Admits Represents)
    (keeps : Keeps Represents sim history pending) (nonempty : history.ledger.events ≠ 0) :
    Keeps Represents (sim.beginEvent scheduler).2
      (history.dispatch (sim.beginEvent scheduler).1
        (!sim.isCancelled (sim.beginEvent scheduler).1.impl)) pending := by
  have isNext : IsNext history.ledger.events (sim.beginEvent scheduler).1 :=
    queue.removeNext keeps.represents nonempty
  have entered := keeps.traced.stored _ isNext.1
  exact
    { represents := queue.afterRemoveNext keeps.represents nonempty
      numbered := { keeps.numbered with
        fresh := keeps.numbered.fresh.removeNext _
        current := (keeps.numbered.named _ entered).2 }
      timed := keeps.timed.dispatch keeps.numbered isNext _
      traced := keeps.traced.dispatch isNext
      revoked := keeps.revoked.dispatch (keeps.timed.ahead _ isNext.1) entered }

end

end Ns3.Core
