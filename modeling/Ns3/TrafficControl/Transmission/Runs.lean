import Ns3.Library.Machine
import Ns3.TrafficControl.Transmission.Conservation

/-!
The transmit path over runs of `Enqueue`, `Peek`, `Run` and changes of the device queues.

Nothing is lost, sent twice or sent out of order, whatever happens. The header is another matter:
`DequeuePacket` adds it to an item that it dequeues, and takes an item of `m_requeued` to have it
already. An item that a peek has put there has none, and is sent without.
-/

namespace Ns3.TrafficControl.Transmission

open Library

namespace QueueDisc

variable {config : Config} {disc after : QueueDisc} {item : Item}

/-- No item of the internal queues has a header. -/
def Fresh (disc : QueueDisc) : Prop := ∀ item ∈ disc.fifos.flatten, item.headers = 0

/-- The derived class has worked, and may have given an item. -/
structure Gives (disc after : QueueDisc) (item : Option Item) : Prop where
  requeued : after.requeued = disc.requeued
  peeked : after.peeked = disc.peeked
  sent : after.sent = disc.sent
  stopped : after.stopped = disc.stopped
  conserves : ∀ leaving, Conserves disc.fifos disc.nextItem disc.dequeued leaving →
    Conserves after.fifos after.nextItem after.dequeued (leaving ++ item.toList)
  fresh : disc.Fresh → after.Fresh ∧ ∀ given ∈ item, given.headers = 0

theorem Gives.refl (disc : QueueDisc) : disc.Gives disc none :=
  ⟨rfl, rfl, rfl, rfl, fun _ conserves => by simpa using conserves, fun fresh => ⟨fresh, by simp⟩⟩

theorem Gives.trans {middle : QueueDisc} {given : Option Item} (first : disc.Gives middle none)
    (second : middle.Gives after given) : disc.Gives after given where
  requeued := second.requeued.trans first.requeued
  peeked := second.peeked.trans first.peeked
  sent := second.sent.trans first.sent
  stopped := second.stopped.trans first.stopped
  conserves leaving conserves := second.conserves leaving (by simpa using first.conserves _ conserves)
  fresh isFresh := second.fresh (first.fresh isFresh).1

theorem removeHead_eq {fifo : Nat} (removed : disc.removeHead fifo = some (item, after)) :
    ∃ rest, disc.fifos[fifo]? = some (item :: rest) ∧
      after = { disc with fifos := disc.fifos.set fifo rest } := by
  unfold removeHead at removed
  split at removed
  · next head rest here =>
      simp only [Option.some.injEq, Prod.mk.injEq] at removed
      obtain ⟨rfl, rfl⟩ := removed
      exact ⟨rest, here, rfl⟩
  · cases removed

theorem Fresh.removeHead (fresh : disc.Fresh) {fifo : Nat} {rest : List Item}
    (head : disc.fifos[fifo]? = some (item :: rest)) :
    ({ disc with fifos := disc.fifos.set fifo rest } : QueueDisc).Fresh ∧ item.headers = 0 := by
  have perm := Conserves.flatten_perm head
  constructor
  · intro entry mem
    exact fresh entry (perm.mem_iff.mpr (List.mem_cons_of_mem _ mem))
  · exact fresh item (perm.mem_iff.mpr List.mem_cons_self)

theorem gives_dropHead (fifo : Nat) : disc.Gives (disc.dropHead fifo) none := by
  unfold dropHead
  split
  · exact .refl disc
  · next item after removed =>
      obtain ⟨rest, head, rfl⟩ := removeHead_eq removed
      refine ⟨rfl, rfl, rfl, rfl, fun leaving conserves => ?_, fun fresh => ?_⟩
      · simpa using conserves.drop head
      · exact ⟨(fresh.removeHead head).1, by simp⟩

theorem gives_drops (drops : List Nat) : disc.Gives (drops.foldl dropHead disc) none := by
  induction drops generalizing disc with
  | nil => exact .refl disc
  | cons fifo drops inductionHypothesis =>
      exact (gives_dropHead fifo).trans inductionHypothesis

theorem packetDequeued_eq (disc : QueueDisc) :
    disc.packetDequeued = { disc with nPackets := disc.packetDequeued.nPackets } := by
  unfold packetDequeued
  split <;> rfl

theorem gives_doDequeue (choice : Choice) :
    disc.Gives (disc.doDequeue choice).1 (disc.doDequeue choice).2 := by
  unfold doDequeue
  dsimp only
  refine (gives_drops choice.drops).trans ?_
  generalize choice.drops.foldl dropHead disc = disc
  split
  · exact .refl disc
  · next item after removed =>
      obtain ⟨fifo, _, taken⟩ := Option.bind_eq_some_iff.mp removed
      obtain ⟨rest, head, rfl⟩ := removeHead_eq taken
      rw [packetDequeued_eq]
      refine ⟨rfl, rfl, rfl, rfl, fun leaving conserves => conserves.take head, fun fresh => ?_⟩
      obtain ⟨still, none⟩ := fresh.removeHead head
      exact ⟨still, by simpa using none⟩

/-- The items that were dequeued are sent, in `m_requeued`, or in the hand of `Restart`. -/
structure Holds (hand : Option Item) (disc : QueueDisc) : Prop where
  conserves : Conserves disc.fifos disc.nextItem disc.dequeued
    (disc.sent ++ (disc.requeued.toList ++ hand.toList))
  peeked : disc.requeued = none → disc.peeked = false

/-- The items have their header once, but for those that a peek has put in `m_requeued`. -/
structure Headed (disc : QueueDisc) : Prop where
  fresh : disc.Fresh
  held : ∀ item, disc.requeued = some item → item.headers = if disc.peeked then 0 else 1
  sent : ∀ item ∈ disc.sent, item.headers = 1

theorem takeRequeued_eq (disc : QueueDisc) :
    disc.takeRequeued =
      { disc with requeued := none, peeked := false, nPackets := disc.takeRequeued.nPackets } := by
  unfold takeRequeued
  split
  · rfl
  · next notPeeked =>
      have none : disc.peeked = false := by simpa using notPeeked
      simp [none]

theorem Holds.takeRequeued (holds : disc.Holds none) (requeued : disc.requeued = some item) :
    disc.takeRequeued.Holds (some item) ∧ disc.takeRequeued.requeued = none := by
  rw [takeRequeued_eq]
  refine ⟨⟨?_, fun _ => rfl⟩, rfl⟩
  simpa [requeued] using holds.conserves

theorem Holds.gives {given : Option Item} (holds : disc.Holds none) (gives : disc.Gives after given)
    (requeued : disc.requeued = none) : after.Holds given := by
  constructor
  · have conserves := gives.conserves _ holds.conserves
    rw [gives.sent, gives.requeued, requeued]
    simpa [requeued] using conserves
  · intro _
    rw [gives.peeked]
    exact holds.peeked requeued

/-- What `DequeuePacket` takes out is in the hand of `Restart`. -/
theorem Holds.dequeuePacket (holds : disc.Holds none) (choice : Choice) :
    (disc.dequeuePacket config choice).1.Holds (disc.dequeuePacket config choice).2 ∧
      ∀ item ∈ (disc.dequeuePacket config choice).2,
        (disc.dequeuePacket config choice).1.requeued = none := by
  unfold QueueDisc.dequeuePacket
  split
  · next held requeued =>
      split
      · obtain ⟨kept, none⟩ := holds.takeRequeued requeued
        exact ⟨kept, fun _ _ => none⟩
      · exact ⟨holds, by simp⟩
  · next requeued =>
      split
      · have same : disc.dequeue choice = disc.doDequeue choice := by
          unfold QueueDisc.dequeue
          rw [requeued]
        have gives := @gives_doDequeue disc choice
        rw [same]
        split
        · next after equal =>
            rw [equal] at gives
            exact ⟨holds.gives gives requeued, by simp⟩
        · next after item equal =>
            rw [equal] at gives
            have kept := holds.gives gives requeued
            have none : after.requeued = none := gives.requeued.trans requeued
            refine ⟨⟨?_, kept.peeked⟩, fun _ _ => none⟩
            have conserves := kept.conserves
            rw [none] at conserves ⊢
            exact conserves.addHeader
      · exact ⟨holds, by simp⟩

theorem Holds.transmit (holds : disc.Holds (some item)) (requeued : disc.requeued = none) :
    (disc.transmit config item).Holds none := by
  have conserves := holds.conserves
  rw [requeued] at conserves
  unfold QueueDisc.transmit
  split
  · refine ⟨?_, by simp⟩
    simpa using conserves
  · refine ⟨?_, holds.peeked⟩
    simpa [requeued] using conserves

theorem Holds.restart (holds : disc.Holds none) (choice : Choice) :
    (disc.restart config choice).Holds none := by
  obtain ⟨taken, requeued⟩ := @Holds.dequeuePacket config disc holds choice
  unfold QueueDisc.restart
  split
  · next after equal =>
      rw [equal] at taken
      exact ⟨taken.conserves, taken.peeked⟩
  · next after item equal =>
      rw [equal] at taken requeued
      exact taken.transmit (requeued item rfl)

theorem Holds.doPeek (holds : disc.Holds none) (choice : Choice) :
    (disc.doPeek choice).Holds none := by
  unfold QueueDisc.doPeek
  split
  · exact holds
  · next requeued =>
      have same : ({ disc with peeked := true } : QueueDisc).dequeue choice =
          ({ disc with peeked := true } : QueueDisc).doDequeue choice := by
        unfold QueueDisc.dequeue
        simp [requeued]
      have gives := @gives_doDequeue { disc with peeked := true } choice
      have conserves := gives.conserves _ holds.conserves
      rw [same]
      split
      · next after equal =>
          rw [equal] at gives conserves
          refine ⟨?_, fun _ => rfl⟩
          have sent : after.sent = disc.sent := gives.sent
          simpa [sent, requeued] using conserves
      · next after item equal =>
          rw [equal] at gives conserves
          refine ⟨?_, by simp⟩
          have sent : after.sent = disc.sent := gives.sent
          simpa [sent, requeued] using conserves

theorem Holds.enqueue (holds : disc.Holds none) (txQueueIndex : Nat) {choice : Choice}
    (bound : ∀ fifo ∈ choice.fifo, fifo < disc.fifos.length) :
    (disc.enqueue txQueueIndex choice).Holds none := by
  unfold QueueDisc.enqueue
  dsimp only
  have drops (entered : QueueDisc) (enteredHolds : entered.Holds none) :
      (choice.drops.foldl dropHead entered).Holds none := by
    have gives := @gives_drops entered choice.drops
    refine ⟨?_, fun none => ?_⟩
    · have conserves := gives.conserves _ enteredHolds.conserves
      rw [gives.sent, gives.requeued]
      simpa using conserves
    · rw [gives.peeked]
      exact enteredHolds.peeked (gives.requeued.symm.trans none)
  apply drops
  split
  · exact ⟨holds.conserves.skip, holds.peeked⟩
  · next fifo chosen => exact ⟨holds.conserves.put (bound fifo chosen) rfl rfl, holds.peeked⟩

/-- An item that `DequeuePacket` takes out has its header, if no peek has put it in
`m_requeued`. -/
theorem Headed.dequeuePacket (headed : disc.Headed) (choice : Choice)
    (spares : ∀ item, disc.requeued = some item → disc.isStopped config item.txQueueIndex = false →
      disc.peeked = false) (peeked : disc.requeued = none → disc.peeked = false) :
    (disc.dequeuePacket config choice).1.Headed ∧
      ∀ item ∈ (disc.dequeuePacket config choice).2,
        item.headers = 1 ∧ (disc.dequeuePacket config choice).1.peeked = false := by
  unfold QueueDisc.dequeuePacket
  split
  · next held requeued =>
      split
      · next awake =>
          have notPeeked := spares held requeued awake
          have once : held.headers = 1 := by simpa [notPeeked] using headed.held held requeued
          rw [takeRequeued_eq]
          refine ⟨⟨headed.fresh, by simp, headed.sent⟩, fun item isHeld => ?_⟩
          cases isHeld
          exact ⟨once, rfl⟩
      · exact ⟨headed, by simp⟩
  · next requeued =>
      split
      · have same : disc.dequeue choice = disc.doDequeue choice := by
          unfold QueueDisc.dequeue
          rw [requeued]
        have gives := @gives_doDequeue disc choice
        have none := gives.requeued.trans requeued
        have headedAfter : (disc.doDequeue choice).1.Headed :=
          ⟨(gives.fresh headed.fresh).1, by simp [none], by rw [gives.sent]; exact headed.sent⟩
        rw [same]
        split
        · next after equal =>
            rw [equal] at headedAfter
            exact ⟨headedAfter, by simp⟩
        · next after item equal =>
            rw [equal] at headedAfter gives
            refine ⟨headedAfter, fun taken isTaken => ?_⟩
            cases isTaken
            have first : item.headers = 0 := (gives.fresh headed.fresh).2 item rfl
            exact ⟨by simp [Item.addHeader, first], gives.peeked.trans (peeked requeued)⟩
      · exact ⟨headed, by simp⟩

theorem Headed.restart (headed : disc.Headed) (choice : Choice)
    (spares : ∀ item, disc.requeued = some item → disc.isStopped config item.txQueueIndex = false →
      disc.peeked = false) (peeked : disc.requeued = none → disc.peeked = false) :
    (disc.restart config choice).Headed := by
  obtain ⟨headedAfter, once⟩ := headed.dequeuePacket choice spares peeked
  unfold QueueDisc.restart
  split
  · next after equal =>
      rw [equal] at headedAfter
      exact ⟨headedAfter.fresh, headedAfter.held, headedAfter.sent⟩
  · next after item equal =>
      rw [equal] at headedAfter once
      obtain ⟨hasHeader, notPeeked⟩ := once item rfl
      unfold QueueDisc.transmit
      split
      · refine ⟨headedAfter.fresh, fun held isHeld => ?_, headedAfter.sent⟩
        cases isHeld
        have isNotPeeked : after.peeked = false := notPeeked
        simp [hasHeader, isNotPeeked]
      · refine ⟨headedAfter.fresh, headedAfter.held, fun sent mem => ?_⟩
        rcases List.mem_append.mp mem with earlier | last
        · exact headedAfter.sent sent earlier
        · rw [List.mem_singleton.mp last]
          exact hasHeader

theorem Headed.doPeek (headed : disc.Headed) (choice : Choice) : (disc.doPeek choice).Headed := by
  unfold QueueDisc.doPeek
  split
  · exact headed
  · next requeued =>
      have same : ({ disc with peeked := true } : QueueDisc).dequeue choice =
          ({ disc with peeked := true } : QueueDisc).doDequeue choice := by
        unfold QueueDisc.dequeue
        simp [requeued]
      have gives := @gives_doDequeue { disc with peeked := true } choice
      obtain ⟨fresh, given⟩ := gives.fresh headed.fresh
      rw [same]
      split
      · next after equal =>
          rw [equal] at gives fresh
          have sent : after.sent = disc.sent := gives.sent
          exact ⟨fresh, by simp, by simpa [sent] using headed.sent⟩
      · next after item equal =>
          rw [equal] at gives fresh given
          have sent : after.sent = disc.sent := gives.sent
          have isPeeked : after.peeked = true := gives.peeked
          refine ⟨fresh, fun held isHeld => ?_, by simpa [sent] using headed.sent⟩
          cases isHeld
          rw [given item rfl]
          simp [isPeeked]

theorem Headed.enqueue (headed : disc.Headed) (txQueueIndex : Nat) {choice : Choice}
    (bound : ∀ fifo ∈ choice.fifo, fifo < disc.fifos.length) :
    (disc.enqueue txQueueIndex choice).Headed := by
  unfold QueueDisc.enqueue
  dsimp only
  have drops (entered : QueueDisc) (enteredHeaded : entered.Headed) :
      (choice.drops.foldl dropHead entered).Headed := by
    have gives := @gives_drops entered choice.drops
    refine ⟨(gives.fresh enteredHeaded.fresh).1, ?_, ?_⟩
    · rw [gives.requeued, gives.peeked]
      exact enteredHeaded.held
    · rw [gives.sent]
      exact enteredHeaded.sent
  apply drops
  split
  · exact ⟨headed.fresh, headed.held, headed.sent⟩
  · next fifo chosen =>
      refine ⟨fun item mem => ?_, headed.held, headed.sent⟩
      have perm := Conserves.flatten_modify_perm (bound fifo chosen)
        ⟨disc.nextItem, fifo, txQueueIndex, 0⟩
      rcases List.mem_cons.mp (perm.mem_iff.mp mem) with rfl | old
      · rfl
      · exact headed.fresh item old

/-- What is expected of the transmit path. -/
structure Delivers (config : Config) (disc : QueueDisc) : Prop where
  headers : ∀ item ∈ disc.sent, item.headers = 1
  once : (disc.sent.map Item.number).Nodup
  kept : ∀ number ∈ disc.dequeued, ∃ item ∈ disc.sent ++ disc.requeued.toList, item.number = number
  released : ∀ item choice, disc.requeued = some item → disc.phase = .restarting →
    if disc.isStopped config item.txQueueIndex then
      (disc.restart config choice).requeued = some item
    else (disc.restart config choice).sent = disc.sent ++ [item]
  inOrder : ∀ fifo, ((disc.sent.filter fun item => item.fifo = fifo).map Item.number).Pairwise (· < ·)

/-- `DequeuePacket` does not take an item that a peek has put in `m_requeued`. -/
def Spares (config : Config) (disc : QueueDisc) : Event → Prop
  | .restart _ => ∀ item ∈ disc.requeued, disc.isStopped config item.txQueueIndex = false →
      disc.peeked = false
  | _ => True

instance (config : Config) (disc : QueueDisc) : (event : Event) →
    Decidable (disc.Spares config event)
  | .restart _ => inferInstanceAs (Decidable (∀ item ∈ disc.requeued, _ → _))
  | .enqueue _ _ | .peek _ | .run | .sendReturns | .stop _ | .wake _ =>
      inferInstanceAs (Decidable True)

instance (disc : QueueDisc) : (event : Event) → Decidable (disc.Enabled event)
  | .enqueue _ choice =>
      inferInstanceAs (Decidable (_ ∧ ∀ fifo ∈ choice.fifo, fifo < disc.fifos.length))
  | .peek _ | .run | .stop _ | .wake _ => inferInstanceAs (Decidable (disc.phase ≠ .restarting))
  | .restart _ => inferInstanceAs (Decidable (disc.phase = .restarting))
  | .sendReturns =>
      match phase : disc.phase with
      | .sending txQueueIndex => .isTrue ⟨txQueueIndex, phase⟩
      | .idle => .isFalse fun ⟨_, equal⟩ => by rw [phase] at equal; cases equal
      | .restarting => .isFalse fun ⟨_, equal⟩ => by rw [phase] at equal; cases equal

/-- An item of `m_requeued` waits for its device queue, and is then the next one that is sent. -/
theorem restart_requeued (choice : Choice) (requeued : disc.requeued = some item) :
    if disc.isStopped config item.txQueueIndex then
      (disc.restart config choice).requeued = some item
    else (disc.restart config choice).sent = disc.sent ++ [item] := by
  unfold QueueDisc.restart QueueDisc.dequeuePacket
  rw [requeued]
  split
  · next isStopped => simp [isStopped, requeued]
  · next awake =>
      have isAwake : disc.takeRequeued.isStopped config item.txQueueIndex = false := by
        rw [takeRequeued_eq]
        simpa [isStopped] using awake
      have sent : disc.takeRequeued.sent = disc.sent := by rw [takeRequeued_eq]
      simp [awake, QueueDisc.transmit, isAwake, sent]

theorem Holds.delivers (holds : disc.Holds none) (headed : disc.Headed) : disc.Delivers config := by
  have conserves := holds.conserves
  simp only [Option.toList_none, List.append_nil] at conserves
  refine ⟨headed.sent, ?_, ?_, fun item choice requeued _ => restart_requeued choice requeued, ?_⟩
  · have distinct := (List.nodup_append.mp conserves.distinct).2.1
    rw [conserves.numbers, List.map_append] at distinct
    exact (List.nodup_append.mp distinct).1
  · intro number mem
    rw [conserves.numbers] at mem
    exact List.mem_map.mp mem
  · intro fifo
    have ordered := (List.pairwise_append.mp (conserves.ordered fifo)).1
    rw [List.filter_append, List.map_append] at ordered
    exact (List.pairwise_append.mp ordered).1

/-- Whatever happens, nothing that was dequeued is lost. -/
theorem Holds.step (holds : disc.Holds none) {event : Event} (enabled : disc.Enabled event) :
    (disc.step config event).Holds none := by
  cases event with
  | enqueue txQueueIndex choice => exact holds.enqueue txQueueIndex enabled.2
  | peek choice => exact holds.doPeek choice
  | run =>
      simp only [QueueDisc.step, QueueDisc.run]
      split
      · exact ⟨holds.conserves, holds.peeked⟩
      · exact holds
      · exact holds
  | restart choice => exact holds.restart choice
  | sendReturns =>
      simp only [QueueDisc.step, QueueDisc.sendReturns]
      repeat' split
      all_goals exact ⟨holds.conserves, holds.peeked⟩
  | stop txQueueIndex => exact ⟨holds.conserves, holds.peeked⟩
  | wake txQueueIndex => exact ⟨holds.conserves, holds.peeked⟩

theorem Headed.step (headed : disc.Headed) (holds : disc.Holds none) {event : Event}
    (enabled : disc.Enabled event) (spares : disc.Spares config event) :
    (disc.step config event).Headed := by
  cases event with
  | enqueue txQueueIndex choice => exact headed.enqueue txQueueIndex enabled.2
  | peek choice => exact headed.doPeek choice
  | run =>
      simp only [QueueDisc.step, QueueDisc.run]
      split
      · exact ⟨headed.fresh, headed.held, headed.sent⟩
      · exact headed
      · exact headed
  | restart choice => exact headed.restart choice spares holds.peeked
  | sendReturns =>
      simp only [QueueDisc.step, QueueDisc.sendReturns]
      repeat' split
      all_goals exact ⟨headed.fresh, headed.held, headed.sent⟩
  | stop txQueueIndex => exact ⟨headed.fresh, headed.held, headed.sent⟩
  | wake txQueueIndex => exact ⟨headed.fresh, headed.held, headed.sent⟩

/-- A queue disc with empty internal queues. -/
def start (count : Nat) : QueueDisc := { fifos := List.replicate count [] }

theorem holds_start (count : Nat) : (start count).Holds none := by
  have empty (fifo : Nat) : (start count).fifos.getD fifo [] = [] := by
    simp only [start, List.getD_eq_getElem?_getD, List.getElem?_replicate]
    split <;> rfl
  have flatten : (start count).fifos.flatten = [] := by simp [start]
  refine ⟨⟨rfl, ?_, ?_, ?_, ?_⟩, fun _ => rfl⟩
  · rw [flatten]
    simp [start]
  · rw [flatten]
    simp [start]
  · intro fifo item mem
    rw [empty] at mem
    cases mem
  · intro fifo
    rw [empty]
    simp [start]

theorem headed_start (count : Nat) : (start count).Headed := by
  refine ⟨?_, by simp [start], by simp [start]⟩
  simp [Fresh, start]

end QueueDisc

/-- The queue discs over such a device. -/
def queueDiscs (config : Config) : Machine QueueDisc Event where
  step := QueueDisc.step config
  Enabled := QueueDisc.Enabled

instance (config : Config) (disc : QueueDisc) (event : Event) :
    Decidable ((queueDiscs config).Enabled disc event) :=
  inferInstanceAs (Decidable (disc.Enabled event))

/-- In every run, what was dequeued is sent or held, and leaves in order. -/
theorem always_holds {config : Config} {count : Nat} {events : List Event}
    (legal : (queueDiscs config).Legal (.start count) events) :
    (queueDiscs config).Always (QueueDisc.Holds none) (.start count) events :=
  Machine.Legal.always (fun _ _ holds enabled => holds.step enabled) (QueueDisc.holds_start count)
    legal

/-- The transmit path does what is expected in the runs in which no item that a peek has put in
`m_requeued` is taken by `DequeuePacket`. -/
theorem always_delivers {config : Config} {count : Nat} {events : List Event}
    (legal : (queueDiscs config).Legal (.start count) events)
    (spares : (queueDiscs config).Along (QueueDisc.Spares config) (.start count) events) :
    (queueDiscs config).Always (QueueDisc.Delivers config) (.start count) events := by
  have always : (queueDiscs config).Always (fun disc => disc.Holds none ∧ disc.Headed)
      (.start count) events := by
    apply Machine.Legal.always_of_along _
      ⟨QueueDisc.holds_start count, QueueDisc.headed_start count⟩ legal spares
    intro disc event invariant enabled spared
    exact ⟨invariant.1.step enabled, invariant.2.step invariant.1 enabled spared⟩
  exact always.mono fun _ invariant => invariant.1.delivers invariant.2

/-- A queue of the device is stopped behind the first of three items, and while an item is sent. -/
theorem always_delivers_stopped :
    (queueDiscs ⟨some 2, 64⟩).Always (QueueDisc.Delivers ⟨some 2, 64⟩) (.start 2)
      [.enqueue 0 { fifo := some 0 }, .enqueue 1 { fifo := some 1 }, .enqueue 0 { fifo := some 0 },
        .stop 1, .run, .restart { fifo := some 0 }, .sendReturns, .restart { fifo := some 1 },
        .peek { fifo := some 0 }, .run, .restart { fifo := some 0 }, .wake 1, .run,
        .restart { fifo := some 0 }, .stop 0, .sendReturns] :=
  always_delivers (by decide) (by decide)

/-- An item that was peeked at is sent without its header. -/
theorem not_always_delivers :
    ¬ ∀ (config : Config) (count : Nat) (events : List Event),
      (queueDiscs config).Legal (.start count) events →
        (queueDiscs config).Always (QueueDisc.Delivers config) (.start count) events := by
  intro always
  have delivers := (always ⟨none, 64⟩ 1
    [.enqueue 0 { fifo := some 0 }, .peek { fifo := some 0 }, .run, .restart { fifo := some 0 }]
    (by decide)).last
  have headers := delivers.headers
  revert headers
  decide

end Ns3.TrafficControl.Transmission
