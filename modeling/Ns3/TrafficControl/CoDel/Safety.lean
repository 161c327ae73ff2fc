import Ns3.TrafficControl.CoDel.Kernel

/-!
Calls of `DoDequeue` of CoDel that find the next item.

The current item is dropped only where `OkToDrop` has found bytes in the queue, so that there is a
next one, provided that there is a least number of bytes at all.
-/

namespace Ns3.TrafficControl.CoDel

open Library

namespace Serving

variable (config : Config) (now : Nat) {serving : Serving}

/-- The packets that were taken from the queue and those that are left in it. -/
def packets (self : Serving) : List Nat :=
  (self.dropped ++ self.item.toList ++ self.disc.queue).map Item.packet

theorem packets_dropCurrent {item : Item} (isCurrent : serving.item = some item) :
    (serving.dropCurrent config now item).1.packets = serving.packets := by
  cases isQueue : serving.disc.queue <;> simp [packets, dropCurrent, isQueue, isCurrent]

theorem packets_dropOne {item : Item} (isCurrent : serving.item = some item) :
    (serving.dropOne config now item).packets = serving.packets := by
  cases isQueue : serving.disc.queue <;>
    simp [packets, dropOne, dropCurrent, isQueue, isCurrent]

end Serving

/-- A mark is not taken for another packet. -/
theorem Item.packet_mark {item marked : Item} (isMarked : item.mark = some marked) :
    marked.packet = item.packet := by
  unfold mark at isMarked
  split at isMarked
  · split at isMarked
    · cases isMarked
      rfl
    · cases isMarked
  · cases isMarked

namespace CoDelQueueDisc

variable {config : Config} {disc : CoDelQueueDisc} {now : Nat}

theorem packet_markEcn {item marked : Item} (isMarked : markEcn config item = some marked) :
    marked.packet = item.packet := by
  unfold markEcn at isMarked
  split at isMarked
  · exact Item.packet_mark isMarked
  · cases isMarked

/-- Where it is all right to drop there are bytes in the queue. -/
theorem queue_ne_nil (least : 0 < config.minBytes) {item : Option Item}
    (okToDrop : (disc.okToDrop config now item).2 = true) : disc.queue ≠ [] := by
  intro isEmpty
  cases item with
  | none => cases okToDrop
  | some item =>
      have few : disc.below config now item = true := by
        simp only [below, getNBytes, isEmpty, List.map_nil, List.sum_nil, Bool.or_eq_true,
          decide_eq_true_eq]
        exact .inr least
      rw [CoDelQueueDisc.okToDrop, if_pos few] at okToDrop
      cases okToDrop

/-- The next item is found, and it is dropped only if there is another one. -/
theorem popNext_ready (disc : CoDelQueueDisc) (now : Nat) (least : 0 < config.minBytes)
    (nonempty : disc.queue ≠ []) :
    (disc.popNext config now).2.isSome ∧
      ((disc.popNext config now).1.2 = true → disc.queue.tail ≠ []) := by
  cases isQueue : disc.queue with
  | nil => exact absurd isQueue nonempty
  | cons next rest =>
      rw [popNext_item, isQueue]
      refine ⟨rfl, fun okToDrop => ?_⟩
      simp only [popNext, isQueue] at okToDrop
      exact queue_ne_nil least okToDrop

end CoDelQueueDisc

namespace Serving

variable {config : Config} {now : Nat} {serving : Serving} {packets : List Nat}

/-- There is a current item, and in the dropping state there is a next one. -/
structure Ready (packets : List Nat) (serving : Serving) : Prop where
  kept : serving.packets = packets
  current : serving.item.isSome
  next : serving.disc.dropping = true → serving.disc.queue ≠ []

theorem Ready.dropOne (least : 0 < config.minBytes) (ready : Ready packets serving)
    (dropping : serving.disc.dropping = true) {item : Item} (isCurrent : serving.item = some item) :
    Ready packets (serving.dropOne config now item) := by
  obtain ⟨current, next⟩ := CoDelQueueDisc.popNext_ready serving.disc.countDrop now least
    (ready.next dropping)
  refine ⟨(packets_dropOne config now isCurrent).trans ready.kept, current, fun stays => ?_⟩
  simpa [Serving.dropOne, dropCurrent] using next (CoDelQueueDisc.okToDrop_of_reschedule config _ stays)

theorem packets_markCurrent {item marked : Item} (isCurrent : serving.item = some item)
    (isMarked : CoDelQueueDisc.markEcn config item = some marked) :
    (serving.markCurrent config now marked).packets = serving.packets := by
  simp [Serving.packets, markCurrent, isCurrent, CoDelQueueDisc.packet_markEcn isMarked,
    CoDelQueueDisc.countDrop]

/-- The drop loop ends with an item. -/
theorem dropLoop_ready (least : 0 < config.minBytes) (ready : Ready packets serving) :
    ∃ served, serving.dropLoop config now = .ok served ∧ served.packets = packets ∧
      served.item.isSome := by
  fun_induction dropLoop config now serving with
  | case1 serving _ isNull =>
      have current := ready.current
      rw [isNull] at current
      cases current
  | case2 serving _ item isCurrent marked isMarked =>
      exact ⟨_, rfl, (packets_markCurrent isCurrent isMarked).trans ready.kept, rfl⟩
  | case3 serving loops item isCurrent _ inductionHypothesis =>
      rw [Bool.and_eq_true] at loops
      exact inductionHypothesis (ready.dropOne least loops.1 isCurrent)
  | case4 serving _ => exact ⟨serving, rfl, ready.kept, ready.current⟩

theorem finish_ready (config : Config) (now : Nat) (kept : serving.packets = packets) (current : serving.item.isSome) :
    ∃ served, serving.finish config now = .ok served ∧ served.packets = packets ∧
      served.item.isSome := by
  obtain ⟨item, isCurrent⟩ := Option.isSome_iff_exists.mp current
  simp only [finish, isCurrent]
  split
  · cases isMarked : item.mark with
    | none => exact ⟨serving, rfl, kept, current⟩
    | some marked =>
        refine ⟨_, rfl, ?_, rfl⟩
        simpa [Serving.packets, isCurrent, Item.packet_mark isMarked] using kept
  · exact ⟨serving, rfl, kept, current⟩

end Serving

namespace CoDelQueueDisc

variable {config : Config} {disc : CoDelQueueDisc} {now : Nat}

theorem enterDropping_ready (least : 0 < config.minBytes) {item : Item}
    (nonempty : disc.queue ≠ []) :
    (disc.enterDropping config now item).packets = (item :: disc.queue).map Item.packet ∧
      (disc.enterDropping config now item).item.isSome := by
  unfold enterDropping
  cases isMarked : markEcn config item with
  | some marked => simp [Serving.packets, startDropping, packet_markEcn isMarked]
  | none =>
      refine ⟨?_, (popNext_ready disc now least nonempty).1⟩
      have isCurrent : Serving.item { disc := disc, item := some item } = some item := rfl
      have kept := Serving.packets_dropCurrent config now isCurrent
      simpa [Serving.packets, startDropping] using kept

theorem serve_ready (disc : CoDelQueueDisc) (now : Nat) (least : 0 < config.minBytes)
    (item : Item) :
    ∃ served, disc.serve config now item = .ok served ∧
      served.packets = (item :: disc.queue).map Item.packet ∧ served.item.isSome := by
  have isQueue := okToDrop_queue config disc now (some item)
  have nonempty : (disc.okToDrop config now (some item)).2 = true →
      (disc.okToDrop config now (some item)).1.queue ≠ [] := fun okToDrop => by
    rw [isQueue]
    exact queue_ne_nil least okToDrop
  rw [← isQueue]
  unfold serve
  dsimp only
  generalize disc.okToDrop config now (some item) = result at nonempty
  obtain ⟨disc, okToDrop⟩ := result
  have kept : Serving.packets { disc := disc, item := some item } =
      (item :: disc.queue).map Item.packet := rfl
  split
  · split
    · exact ⟨_, rfl, rfl, rfl⟩
    · next stays =>
      have more : disc.queue ≠ [] := nonempty (by simpa using stays)
      split
      · exact Serving.dropLoop_ready least ⟨kept, rfl, fun _ => more⟩
      · exact ⟨_, rfl, kept, rfl⟩
  · split
    · next enters => exact ⟨_, rfl, enterDropping_ready least (nonempty enters)⟩
    · exact ⟨_, rfl, kept, rfl⟩

/-- `DoDequeue` ends without a fault. It returns null only from a queue that is empty, and each
packet that it has taken from the queue is dropped or returned. -/
def SafeDequeue (config : Config) (disc : CoDelQueueDisc) (now : Nat) : Prop :=
  ∃ served, disc.doDequeue config now = .ok served ∧
    (served.item = none → served.disc.queue = []) ∧
    served.packets = disc.queue.map Item.packet

theorem safeDequeue (least : 0 < config.minBytes) : SafeDequeue config disc now := by
  unfold SafeDequeue doDequeue
  cases disc.queue with
  | nil => exact ⟨_, rfl, fun _ => rfl, rfl⟩
  | cons item rest =>
      dsimp only
      split
      · unfold serveL4s
        cases isMarked : item.mark with
        | none => exact ⟨_, rfl, by simp, rfl⟩
        | some marked =>
            dsimp only
            split
            · exact ⟨_, rfl, by simp, by simp [Serving.packets, Item.packet_mark isMarked]⟩
            · exact ⟨_, rfl, by simp, rfl⟩
      · obtain ⟨served, isServed, kept, current⟩ :=
          serve_ready { disc with queue := rest } now least item
        obtain ⟨finished, isFinished, kept, current⟩ :=
          Serving.finish_ready config now kept current
        refine ⟨finished, ?_, fun isNull => ?_, kept⟩
        · rw [isServed]
          exact isFinished
        · rw [isNull] at current
          cases current

end CoDelQueueDisc

/-! Without a least number of bytes, the last item can be dropped. -/

namespace CoDelQueueDisc

variable (config : Config)

theorem coDelGetTime_ticks (ticks : Nat) : coDelGetTime (ticks * 1024) = BitVec.ofNat 32 ticks := by
  rw [coDelGetTime, Nat.shiftRight_eq_div_pow, Nat.mul_div_cancel _ (by decide)]

/-- A packet that is not marked. -/
def plainItem (packet timeStamp : Nat) : Item := { packet := packet, size := 1, timeStamp }

/-- The sojourn time with the most ticks is not below any target. -/
theorem below_longest (least : config.minBytes = 0) (disc : CoDelQueueDisc) (packet ticks : Nat) :
    disc.below config ((ticks + (2 ^ 32 - 1)) * 1024) (plainItem packet (ticks * 1024)) = false := by
  have sojourn : time2CoDel (((ticks + (2 ^ 32 - 1)) * 1024 : Nat) - (ticks * 1024 : Nat)) =
      BitVec.allOnes 32 := by
    have span : (((ticks + (2 ^ 32 - 1)) * 1024 : Nat) - (ticks * 1024 : Nat) : Int) =
        (2 ^ 32 - 1) * 1024 := by
      push_cast
      omega
    rw [time2CoDel, span]
    decide
  have longest := (time2CoDel config.target).isLt
  simp only [below, plainItem, sojourn, coDelTimeBefore, least, Bool.or_eq_false_iff,
    decide_eq_false_iff_not, BitVec.toNat_allOnes]
  exact ⟨by omega, by bv_omega⟩

theorem enqueue_plainItem (disc : CoDelQueueDisc) (isEmpty : disc.queue = []) (now packet : Nat) :
    (disc.enqueue config now (plainItem packet 0)).1 =
      { disc with queue := [plainItem packet now] } := by
  have accepted : disc.full config (plainItem packet 0) = false := by
    have positive := config.maxSize_ne
    unfold full
    split
    · next value isSize =>
      rw [isSize] at positive
      have nonzero : value ≠ 0 := fun isZero => positive.1 (isZero ▸ rfl)
      rw [isEmpty, decide_eq_false_iff_not]
      simp only [List.length_nil]
      bv_omega
    · next value isSize =>
      rw [isSize] at positive
      have nonzero : value ≠ 0 := fun isZero => positive.2 (isZero ▸ rfl)
      simp only [getNBytes, isEmpty, plainItem, List.map_nil, List.sum_nil,
        decide_eq_false_iff_not]
      bv_omega
  rw [enqueue, accepted, isEmpty]
  rfl

/-- The tick at which the time to drop is the first tick of the clock. -/
def firstTick : Nat := (1 - time2CoDel config.interval).toNat

theorem finish_plainItem (disc : CoDelQueueDisc) (now packet timeStamp : Nat) :
    Serving.finish config now { disc := disc, item := some (plainItem packet timeStamp) } =
      .ok { disc := disc, item := some (plainItem packet timeStamp) } := by
  unfold Serving.finish
  dsimp only
  split <;> rfl

theorem doDequeue_plainItem (disc : CoDelQueueDisc) (now packet timeStamp : Nat) :
    { disc with queue := [plainItem packet timeStamp] }.doDequeue config now =
      { disc with queue := [] }.serve config now (plainItem packet timeStamp) >>=
        Serving.finish config now := by
  simp only [doDequeue, Item.isL4s, plainItem, Bool.and_false, Bool.false_eq_true, if_false]

/-- A packet that comes after a long time in the queue starts the time to drop. -/
theorem doDequeue_above (least : config.minBytes = 0) (packet : Nat) :
    ∃ served, doDequeue config
        { queue := [plainItem packet ((firstTick config + 1) * 1024)] }
        ((firstTick config + 1 + (2 ^ 32 - 1)) * 1024) = .ok served ∧
      served.disc = { firstAboveTime := 1 } := by
  have above := below_longest config least {} packet (firstTick config + 1)
  have clock : coDelGetTime ((firstTick config + 1 + (2 ^ 32 - 1)) * 1024) =
      1 - time2CoDel config.interval := by
    rw [coDelGetTime_ticks, firstTick]
    bv_omega
  have first : coDelGetTime ((firstTick config + 1 + (2 ^ 32 - 1)) * 1024) +
      time2CoDel config.interval = 1 := by
    rw [clock]
    bv_omega
  have starts : okToDrop config {} ((firstTick config + 1 + (2 ^ 32 - 1)) * 1024)
      (some (plainItem packet ((firstTick config + 1) * 1024))) =
        ({ firstAboveTime := 1 }, false) := by
    simp only [okToDrop, above, first, Bool.false_eq_true, if_false, if_true]
  refine ⟨{ disc := { firstAboveTime := 1 }
            item := some (plainItem packet ((firstTick config + 1) * 1024)) }, ?_, rfl⟩
  rw [doDequeue_plainItem config {}, serve, starts]
  exact finish_plainItem config { firstAboveTime := 1 } _ packet _

/-- The last item is dropped, and there is none to look at. -/
theorem doDequeue_starved (least : config.minBytes = 0) (packet : Nat) :
    doDequeue config
        { queue := [plainItem packet ((2 ^ 33 + 3) * 1024)], firstAboveTime := 1 }
        ((2 ^ 33 + 3 + (2 ^ 32 - 1)) * 1024) = .error .nullItem := by
  have above := below_longest config least { firstAboveTime := 1 } packet (2 ^ 33 + 3)
  have clock : coDelGetTime ((2 ^ 33 + 3 + (2 ^ 32 - 1)) * 1024) = 2 := by
    rw [coDelGetTime_ticks]
    rfl
  have late : okToDrop config { firstAboveTime := 1 } ((2 ^ 33 + 3 + (2 ^ 32 - 1)) * 1024)
      (some (plainItem packet ((2 ^ 33 + 3) * 1024))) = ({ firstAboveTime := 1 }, true) := by
    simp only [okToDrop, above, clock, Bool.false_eq_true, if_false]
    rfl
  have unmarked : markEcn config (plainItem packet ((2 ^ 33 + 3) * 1024)) = none := by
    unfold markEcn
    split <;> rfl
  rw [doDequeue_plainItem config { firstAboveTime := 1 }, serve, late]
  simp only [Bool.false_eq_true, if_false, if_true, enterDropping, unmarked]
  rfl

end CoDelQueueDisc

namespace Session

variable (config : Config)

/-- Two packets, each of which is taken after a long time. -/
def starvingCalls : List Call :=
  [.enqueue ((CoDelQueueDisc.firstTick config + 1) * 1024) (CoDelQueueDisc.plainItem 0 0),
    .dequeue ((CoDelQueueDisc.firstTick config + 1 + (2 ^ 32 - 1)) * 1024),
    .enqueue ((2 ^ 33 + 3) * 1024) (CoDelQueueDisc.plainItem 1 0)]

@[simp]
theorem step_now (session : Session) (call : Call) : (step config session call).now = call.now := by
  cases call with
  | enqueue now item => rfl
  | dequeue now =>
      unfold step
      dsimp only
      split <;> rfl

theorem legal_ordered {first second third : Nat} {item next : Item} (before : first ≤ second)
    (after : second ≤ third) :
    (sessions config).Legal {} [.enqueue first item, .dequeue second, .enqueue third next] := by
  simp only [Machine.Legal, sessions, step_now, Call.now, and_true]
  exact ⟨Nat.zero_le first, before, after⟩

theorem legal_starvingCalls : (sessions config).Legal {} (starvingCalls config) := by
  have tick : CoDelQueueDisc.firstTick config < 2 ^ 32 := BitVec.isLt _
  apply legal_ordered
  · omega
  · omega

theorem run_starvingCalls (least : config.minBytes = 0) :
    ((sessions config).run {} (starvingCalls config)).disc =
        { queue := [CoDelQueueDisc.plainItem 1 ((2 ^ 33 + 3) * 1024)], firstAboveTime := 1 } ∧
      ((sessions config).run {} (starvingCalls config)).now = (2 ^ 33 + 3) * 1024 := by
  obtain ⟨served, isServed, isDisc⟩ := CoDelQueueDisc.doDequeue_above config least 0
  simp only [starvingCalls, Machine.run_cons, Machine.run_nil, sessions, step,
    CoDelQueueDisc.enqueue_plainItem, isServed, isDisc, and_self]

/-- Every call of `DoDequeue` of every run is safe exactly if there is a least number of bytes. -/
theorem safeDequeue_iff :
    (∀ calls, (sessions config).Legal {} calls →
      ∀ now, ((sessions config).run {} calls).now ≤ now →
        CoDelQueueDisc.SafeDequeue config ((sessions config).run {} calls).disc now) ↔
      0 < config.minBytes := by
  refine ⟨fun safe => ?_, fun least calls _ now _ => CoDelQueueDisc.safeDequeue least⟩
  by_contra none
  have least : config.minBytes = 0 := by bv_omega
  obtain ⟨isDisc, isNow⟩ := run_starvingCalls config least
  obtain ⟨served, isServed, -⟩ := safe (starvingCalls config) (legal_starvingCalls config)
    ((2 ^ 33 + 3 + (2 ^ 32 - 1)) * 1024) (by rw [isNow]; decide)
  rw [isDisc, CoDelQueueDisc.doDequeue_starved config least] at isServed
  cases isServed

/-- Without a least number of bytes, and the other attributes as they are by default. -/
def noMinBytes : Config := { Config.default with minBytes := 0 }

theorem not_safeDequeue :
    ¬ ∀ config calls, (sessions config).Legal {} calls →
      ∀ now, ((sessions config).run {} calls).now ≤ now →
        CoDelQueueDisc.SafeDequeue config ((sessions config).run {} calls).disc now := by
  intro safe
  obtain ⟨isDisc, isNow⟩ := run_starvingCalls noMinBytes rfl
  obtain ⟨served, isServed, -⟩ := safe noMinBytes (starvingCalls noMinBytes)
    (legal_starvingCalls noMinBytes) ((2 ^ 33 + 3 + (2 ^ 32 - 1)) * 1024) (by rw [isNow]; decide)
  rw [isDisc, CoDelQueueDisc.doDequeue_starved noMinBytes rfl] at isServed
  cases isServed

end Session

end Ns3.TrafficControl.CoDel
