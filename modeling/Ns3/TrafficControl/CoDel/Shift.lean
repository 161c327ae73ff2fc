import Ns3.TrafficControl.CoDel.Kernel

/-!
Two runs of CoDel, one of which is later by some ticks of the clock.

The sojourn times are the same in both. What can differ is a comparison of the clock with
`m_firstAboveTime` or `m_dropNext`, where one of the two has wrapped and the other has not.
-/

namespace Ns3.TrafficControl.CoDel

open Library

/-- The shift of two words keeps their order. -/
def KeepsOrder (shift a b : BitVec 32) : Prop := a ≤ b ↔ a + shift ≤ b + shift

instance (shift a b : BitVec 32) : Decidable (KeepsOrder shift a b) :=
  inferInstanceAs (Decidable (_ ↔ _))

theorem coDelTimeAfter_shift {shift a b : BitVec 32} (keeps : KeepsOrder shift a b) :
    coDelTimeAfter (a + shift) (b + shift) = coDelTimeAfter a b := by
  unfold KeepsOrder at keeps
  unfold coDelTimeAfter
  rw [decide_eq_decide]
  rw [BitVec.le_def, BitVec.le_def] at keeps
  omega

theorem coDelTimeAfterEq_shift {shift a b : BitVec 32} (keeps : KeepsOrder shift b a) :
    coDelTimeAfterEq (a + shift) (b + shift) = coDelTimeAfterEq a b := by
  unfold KeepsOrder at keeps
  unfold coDelTimeAfterEq
  rw [decide_eq_decide]
  rw [BitVec.le_def, BitVec.le_def] at keeps
  omega

theorem controlLaw_shift (shift t interval : BitVec 32) (recInvSqrt : BitVec 16) :
    controlLaw (t + shift) interval recInvSqrt = controlLaw t interval recInvSqrt + shift := by
  unfold controlLaw
  ac_rfl

variable (ticks : Nat)

/-- A time that is later by some ticks. -/
def later (now : Nat) : Nat := now + ticks * 1024

/-- The ticks as a word of the clock. -/
def clockShift : BitVec 32 := BitVec.ofNat 32 ticks

theorem coDelGetTime_later (now : Nat) :
    coDelGetTime (later ticks now) = coDelGetTime now + clockShift ticks := by
  unfold coDelGetTime later clockShift
  rw [Nat.shiftRight_eq_div_pow, Nat.shiftRight_eq_div_pow, Nat.add_mul_div_right _ _ (by decide),
    BitVec.ofNat_add]

theorem later_sub (now before : Nat) : (later ticks now : Int) - later ticks before =
    now - before := by
  unfold later
  omega

namespace Item

/-- An item of the later run. -/
def shift (item : Item) : Item := { item with timeStamp := later ticks item.timeStamp }

theorem mark_shift (item : Item) : (item.shift ticks).mark = item.mark.map (shift ticks) := by
  unfold mark shift
  dsimp only
  split
  · split <;> rfl
  · rfl

end Item

/-- A call of the later run. -/
def Call.shift : Call → Call
  | enqueue now item => enqueue (later ticks now) item
  | dequeue now => dequeue (later ticks now)

namespace CoDelQueueDisc

/-- The queue discs of the two runs. A time that is not set is the same in both, and so is
`m_dropNext` before the first drop. -/
structure Shifted (disc other : CoDelQueueDisc) : Prop where
  queue : other.queue = disc.queue.map (Item.shift ticks)
  count : other.count = disc.count
  lastCount : other.lastCount = disc.lastCount
  dropping : other.dropping = disc.dropping
  recInvSqrt : other.recInvSqrt = disc.recInvSqrt
  isSet : other.firstAboveTime = 0 ↔ disc.firstAboveTime = 0
  firstAboveTime : disc.firstAboveTime ≠ 0 →
    other.firstAboveTime = disc.firstAboveTime + clockShift ticks
  dropNext : disc.dropping = true ∨ disc.count ≠ disc.lastCount →
    other.dropNext = disc.dropNext + clockShift ticks

variable {ticks} {config : Config} {disc other : CoDelQueueDisc} {now : Nat}

theorem Shifted.getNBytes (shifted : Shifted ticks disc other) :
    other.getNBytes = disc.getNBytes := by
  unfold CoDelQueueDisc.getNBytes
  rw [shifted.queue, List.map_map]
  rfl

theorem Shifted.below (shifted : Shifted ticks disc other) (item : Item) :
    other.below config (later ticks now) (item.shift ticks) = disc.below config now item := by
  unfold CoDelQueueDisc.below
  rw [shifted.getNBytes, Item.shift, later_sub]

/-- Where `OkToDrop` looks at the clock, both runs find the same. -/
def FirstAboveKept (config : Config) (ticks : Nat) (disc : CoDelQueueDisc) (now : Nat) : Prop :=
  if disc.firstAboveTime = 0 then
    (coDelGetTime now + time2CoDel config.interval = 0 ↔
      coDelGetTime now + time2CoDel config.interval + clockShift ticks = 0)
  else KeepsOrder (clockShift ticks) (coDelGetTime now) disc.firstAboveTime

instance : Decidable (FirstAboveKept config ticks disc now) := by
  unfold FirstAboveKept
  infer_instance

theorem Shifted.reset (shifted : Shifted ticks disc other) :
    Shifted ticks { disc with firstAboveTime := 0 } { other with firstAboveTime := 0 } :=
  { shifted with
    isSet := Iff.rfl
    firstAboveTime := fun isSet => absurd rfl isSet }

theorem Shifted.okToDrop (config : Config) (now : Nat) (shifted : Shifted ticks disc other)
    (item : Option Item)
    (kept : ∀ current ∈ item, disc.below config now current = false →
      FirstAboveKept config ticks disc now) :
    Shifted ticks (disc.okToDrop config now item).1
        (other.okToDrop config (later ticks now) (item.map (Item.shift ticks))).1 ∧
      (other.okToDrop config (later ticks now) (item.map (Item.shift ticks))).2 =
        (disc.okToDrop config now item).2 := by
  cases item with
  | none => exact ⟨shifted.reset, rfl⟩
  | some item =>
      simp only [Option.map_some, CoDelQueueDisc.okToDrop, shifted.below]
      by_cases isBelow : disc.below config now item = true
      · simp only [isBelow, if_true]
        exact ⟨shifted.reset, trivial⟩
      · have kept := kept item rfl (Bool.eq_false_iff.mpr isBelow)
        unfold FirstAboveKept at kept
        simp only [isBelow, Bool.false_eq_true, if_false, shifted.isSet]
        by_cases isSet : disc.firstAboveTime = 0
        · simp only [isSet, if_true] at kept ⊢
          have sum : coDelGetTime (later ticks now) + time2CoDel config.interval =
              coDelGetTime now + time2CoDel config.interval + clockShift ticks := by
            rw [coDelGetTime_later]
            ac_rfl
          refine ⟨{ shifted with isSet := ?_, firstAboveTime := fun _ => sum }, trivial⟩
          rw [sum]
          exact kept.symm
        · simp only [isSet, if_false] at kept ⊢
          refine ⟨shifted, ?_⟩
          rw [coDelGetTime_later, shifted.firstAboveTime isSet, coDelTimeAfter_shift kept]

theorem Shifted.countDrop (shifted : Shifted ticks disc other) (dropping : disc.dropping = true) :
    Shifted ticks disc.countDrop other.countDrop := by
  have isCount := shifted.count
  have isRecInvSqrt := shifted.recInvSqrt
  exact {
    shifted with
    count := by simp only [CoDelQueueDisc.countDrop, isCount]
    recInvSqrt := by simp only [CoDelQueueDisc.countDrop, isCount, isRecInvSqrt]
    dropNext := fun _ => shifted.dropNext (.inl dropping) }

theorem markEcn_shift (config : Config) (ticks : Nat) (item : Item) :
    markEcn config (item.shift ticks) = (markEcn config item).map (Item.shift ticks) := by
  unfold markEcn
  split
  · exact item.mark_shift ticks
  · rfl

/-- A drop is due by the clock. -/
def Due (disc : CoDelQueueDisc) (now : Nat) : Prop :=
  disc.firstAboveTime ≠ 0 ∧ coDelTimeAfter (coDelGetTime now) disc.firstAboveTime = true

theorem due_of_okToDrop {item : Option Item} (ok : (disc.okToDrop config now item).2 = true) :
    (disc.okToDrop config now item).1.Due now := by
  cases item with
  | none => cases ok
  | some item =>
      unfold CoDelQueueDisc.okToDrop at ok ⊢
      dsimp only at ok ⊢
      split at ok
      · cases ok
      · next above =>
        rw [if_neg above]
        split at ok
        · cases ok
        · next isSet =>
          rw [if_neg isSet]
          exact ⟨isSet, ok⟩

theorem due_of_popNext (ok : (disc.popNext config now).1.2 = true) :
    (disc.popNext config now).1.1.Due now := by
  unfold popNext at ok ⊢
  split at ok
  · cases ok
  · exact due_of_okToDrop ok

/-- Once a drop is due in both runs it stays so. -/
theorem Shifted.firstAboveKept (config : Config) (shifted : Shifted ticks disc other)
    (due : disc.Due now) (otherDue : other.Due (later ticks now)) :
    FirstAboveKept config ticks disc now := by
  have after := due.2
  have otherAfter := otherDue.2
  rw [coDelGetTime_later, shifted.firstAboveTime due.1] at otherAfter
  unfold FirstAboveKept
  rw [if_neg due.1]
  unfold coDelTimeAfter at after otherAfter
  rw [decide_eq_true_eq] at after otherAfter
  unfold KeepsOrder
  rw [BitVec.le_def, BitVec.le_def]
  omega

theorem Shifted.popNext (shifted : Shifted ticks disc other)
    (kept : FirstAboveKept config ticks disc now) :
    Shifted ticks (disc.popNext config now).1.1 (other.popNext config (later ticks now)).1.1 ∧
      (other.popNext config (later ticks now)).1.2 = (disc.popNext config now).1.2 ∧
      (other.popNext config (later ticks now)).2 =
        (disc.popNext config now).2.map (Item.shift ticks) := by
  unfold CoDelQueueDisc.popNext
  rw [shifted.queue]
  cases isQueue : disc.queue with
  | nil =>
      obtain ⟨after, same⟩ := shifted.okToDrop config now none (by simp)
      exact ⟨after, same, rfl⟩
  | cons next rest =>
      have popped : Shifted ticks { disc with queue := rest }
          { other with queue := rest.map (Item.shift ticks) } := { shifted with queue := rfl }
      obtain ⟨after, same⟩ := popped.okToDrop config now (some next) fun _ _ _ => kept
      exact ⟨after, same, rfl⟩

theorem Shifted.reschedule (shifted : Shifted ticks disc other) (dropping : disc.dropping = true)
    (okToDrop : Bool) :
    Shifted ticks (disc.reschedule config okToDrop) (other.reschedule config okToDrop) := by
  have isDropNext := shifted.dropNext (.inl dropping)
  cases okToDrop with
  | false => exact { shifted with dropping := rfl, dropNext := fun _ => isDropNext }
  | true =>
      refine { shifted with dropNext := fun _ => ?_ }
      have isRecInvSqrt := shifted.recInvSqrt
      simp only [CoDelQueueDisc.reschedule, Bool.not_true, Bool.false_eq_true, if_false, isDropNext,
        isRecInvSqrt, controlLaw_shift]

theorem Shifted.restart (shifted : Shifted ticks disc other) :
    other.restart config (later ticks now) = disc.restart config now := by
  unfold CoDelQueueDisc.restart
  rw [shifted.count, shifted.lastCount, shifted.recInvSqrt, coDelGetTime_later]
  by_cases isFirst : disc.count = disc.lastCount
  · -- Nothing was scheduled yet, and `m_dropNext` is not looked at.
    simp [isFirst]
  · have difference : coDelGetTime now + clockShift ticks - other.dropNext =
        coDelGetTime now - disc.dropNext := by
      rw [shifted.dropNext (.inr isFirst)]
      bv_omega
    rw [difference]

theorem Shifted.startDropping (shifted : Shifted ticks disc other) :
    Shifted ticks (disc.startDropping config now)
      (other.startDropping config (later ticks now)) := by
  unfold CoDelQueueDisc.startDropping
  rw [shifted.restart]
  refine {
    shifted with count := rfl, lastCount := rfl, dropping := rfl, recInvSqrt := rfl
                 dropNext := fun _ => ?_ }
  rw [coDelGetTime_later]
  exact controlLaw_shift _ _ _ _

theorem Shifted.enqueue (shifted : Shifted ticks disc other) (item : Item) :
    Shifted ticks (disc.enqueue config now item).1
      (other.enqueue config (later ticks now) item).1 := by
  have isFull : other.full config item = disc.full config item := by
    unfold full
    rw [shifted.getNBytes, shifted.queue, List.length_map]
  have isQueue := shifted.queue
  unfold CoDelQueueDisc.enqueue
  rw [isFull]
  split
  · exact shifted
  · exact { shifted with queue := by simp [isQueue, Item.shift] }

end CoDelQueueDisc

namespace Serving

variable {config : Config} {now : Nat}

/-- The values of `m_dropNext` that the drop loop compares with the clock. -/
def dropTimes (config : Config) (now : Nat) (self : Serving) : List (BitVec 32) :=
  if self.disc.dropping then
    if coDelTimeAfterEq (coDelGetTime now) self.disc.dropNext then
      match _current : self.item with
      | none => [self.disc.dropNext]
      | some item =>
          match CoDelQueueDisc.markEcn config item with
          | some _ => [self.disc.dropNext]
          | none => self.disc.dropNext :: dropTimes config now (self.dropOne config now item)
    else [self.disc.dropNext]
  else []
termination_by self.left
decreasing_by exact left_dropOne config now _current

/-- What the two runs work with. -/
structure Shifted (ticks : Nat) (serving other : Serving) : Prop where
  disc : serving.disc.Shifted ticks other.disc
  item : other.item = serving.item.map (Item.shift ticks)
  dropped : other.dropped = serving.dropped.map (Item.shift ticks)
  isMarked : other.isMarked = serving.isMarked

variable {ticks : Nat} {serving other : Serving}

theorem Shifted.dropCurrent (shifted : Shifted ticks serving other)
    (kept : CoDelQueueDisc.FirstAboveKept config ticks serving.disc now) (item : Item) :
    Shifted ticks (serving.dropCurrent config now item).1
        (other.dropCurrent config (later ticks now) (item.shift ticks)).1 ∧
      (other.dropCurrent config (later ticks now) (item.shift ticks)).2 =
        (serving.dropCurrent config now item).2 := by
  obtain ⟨after, same, next⟩ := shifted.disc.popNext kept
  refine ⟨⟨after, next, ?_, shifted.isMarked⟩, same⟩
  simp [Serving.dropCurrent, shifted.dropped]

theorem Shifted.dropOne (shifted : Shifted ticks serving other)
    (dropping : serving.disc.dropping = true)
    (kept : CoDelQueueDisc.FirstAboveKept config ticks serving.disc now) (item : Item) :
    Shifted ticks (serving.dropOne config now item)
      (other.dropOne config (later ticks now) (item.shift ticks)) := by
  have counted : Shifted ticks { serving with disc := serving.disc.countDrop }
      { other with disc := other.disc.countDrop } :=
    { shifted with disc := shifted.disc.countDrop dropping }
  obtain ⟨dropped, same⟩ := counted.dropCurrent kept item
  unfold Serving.dropOne
  dsimp only
  rw [same]
  refine { dropped with disc := dropped.disc.reschedule ?_ _ }
  exact (CoDelQueueDisc.popNext_dropping config _ now).trans dropping

theorem dropOne_due {item : Item}
    (stays : (serving.dropOne config now item).disc.dropping = true) :
    (serving.dropOne config now item).disc.Due now := by
  have ok : (serving.disc.countDrop.popNext config now).1.2 = true :=
    CoDelQueueDisc.okToDrop_of_reschedule config _ stays
  have due := CoDelQueueDisc.due_of_popNext ok
  unfold Serving.dropOne Serving.dropCurrent
  dsimp only
  rw [ok]
  exact due

/-- The outcomes of the two runs. -/
def ShiftedResult (ticks : Nat) : Except Fault Serving → Except Fault Serving → Prop
  | .ok serving, .ok other => serving.Shifted ticks other
  | .error fault, .error otherFault => otherFault = fault
  | _, _ => False

theorem Shifted.markCurrent (shifted : Shifted ticks serving other)
    (dropping : serving.disc.dropping = true) (marked : Item) :
    Shifted ticks (serving.markCurrent config now marked)
      (other.markCurrent config (later ticks now) (marked.shift ticks)) := by
  have counted := shifted.disc.countDrop dropping
  refine {
    shifted with item := rfl, isMarked := rfl, disc := { counted with dropNext := fun _ => ?_ } }
  dsimp only [Serving.markCurrent]
  rw [coDelGetTime_later, counted.recInvSqrt]
  exact controlLaw_shift _ _ _ _

theorem dropNext_mem_dropTimes (dropping : serving.disc.dropping = true) :
    serving.disc.dropNext ∈ serving.dropTimes config now := by
  rw [dropTimes, if_pos dropping]
  split
  · split
    · exact List.mem_singleton_self _
    · split
      · exact List.mem_singleton_self _
      · exact List.mem_cons_self
  · exact List.mem_singleton_self _

/-- Both runs go on with the loop, or both leave it. -/
theorem Shifted.loops (shifted : Shifted ticks serving other)
    (kept : ∀ time ∈ serving.dropTimes config now,
      KeepsOrder (clockShift ticks) time (coDelGetTime now)) :
    (other.disc.dropping &&
        coDelTimeAfterEq (coDelGetTime (later ticks now)) other.disc.dropNext) =
      (serving.disc.dropping && coDelTimeAfterEq (coDelGetTime now) serving.disc.dropNext) := by
  rw [shifted.disc.dropping]
  cases dropping : serving.disc.dropping with
  | false => rfl
  | true =>
      rw [coDelGetTime_later, shifted.disc.dropNext (.inl dropping),
        coDelTimeAfterEq_shift (kept _ (dropNext_mem_dropTimes dropping))]

section DropLoop

variable {item : Item}

theorem dropLoop_null
    (loops : (serving.disc.dropping &&
      coDelTimeAfterEq (coDelGetTime now) serving.disc.dropNext) = true)
    (isNull : serving.item = none) : serving.dropLoop config now = .error .nullItem := by
  rw [dropLoop, if_pos loops]
  split
  · rfl
  · next isCurrent =>
    rw [isNull] at isCurrent
    cases isCurrent

theorem dropLoop_marked {marked : Item}
    (loops : (serving.disc.dropping &&
      coDelTimeAfterEq (coDelGetTime now) serving.disc.dropNext) = true)
    (isCurrent : serving.item = some item)
    (isMarked : CoDelQueueDisc.markEcn config item = some marked) :
    serving.dropLoop config now = .ok (serving.markCurrent config now marked) := by
  rw [dropLoop, if_pos loops]
  split
  · next isNull =>
    rw [isNull] at isCurrent
    cases isCurrent
  · next same =>
    cases same.symm.trans isCurrent
    rw [isMarked]

theorem dropLoop_dropOne
    (loops : (serving.disc.dropping &&
      coDelTimeAfterEq (coDelGetTime now) serving.disc.dropNext) = true)
    (isCurrent : serving.item = some item)
    (unmarked : CoDelQueueDisc.markEcn config item = none) :
    serving.dropLoop config now = (serving.dropOne config now item).dropLoop config now := by
  rw [dropLoop, if_pos loops]
  split
  · next isNull =>
    rw [isNull] at isCurrent
    cases isCurrent
  · next same =>
    cases same.symm.trans isCurrent
    rw [unmarked]

theorem dropTimes_dropOne
    (loops : (serving.disc.dropping &&
      coDelTimeAfterEq (coDelGetTime now) serving.disc.dropNext) = true)
    (isCurrent : serving.item = some item)
    (unmarked : CoDelQueueDisc.markEcn config item = none) :
    serving.dropTimes config now =
      serving.disc.dropNext :: (serving.dropOne config now item).dropTimes config now := by
  rw [Bool.and_eq_true] at loops
  rw [dropTimes, if_pos loops.1, if_pos loops.2]
  split
  · next isNull =>
    rw [isNull] at isCurrent
    cases isCurrent
  · next same =>
    cases same.symm.trans isCurrent
    rw [unmarked]

end DropLoop

/-- The induction is on the drops that the first run makes. -/
theorem Shifted.dropLoop (shifted : Shifted ticks serving other)
    (due : serving.disc.dropping = true → serving.disc.Due now ∧ other.disc.Due (later ticks now))
    (kept : ∀ time ∈ serving.dropTimes config now,
      KeepsOrder (clockShift ticks) time (coDelGetTime now)) :
    ShiftedResult ticks (serving.dropLoop config now)
      (other.dropLoop config (later ticks now)) := by
  have otherLoops := shifted.loops kept
  have otherItem := shifted.item
  fun_induction Serving.dropLoop config now serving generalizing other with
  | case1 serving loops isNull =>
      rw [isNull] at otherItem
      rw [dropLoop_null (otherLoops.trans loops) otherItem]
      rfl
  | case2 serving loops item isCurrent marked isMarked =>
      rw [isCurrent] at otherItem
      have otherMarked := CoDelQueueDisc.markEcn_shift config ticks item
      rw [isMarked] at otherMarked
      rw [dropLoop_marked (otherLoops.trans loops) otherItem otherMarked]
      rw [Bool.and_eq_true] at loops
      exact shifted.markCurrent loops.1 marked
  | case3 serving loops item isCurrent unmarked inductionHypothesis =>
      rw [isCurrent] at otherItem
      have otherUnmarked := CoDelQueueDisc.markEcn_shift config ticks item
      rw [unmarked] at otherUnmarked
      rw [dropLoop_dropOne (otherLoops.trans loops) otherItem otherUnmarked]
      rw [dropTimes_dropOne loops isCurrent unmarked] at kept
      rw [Bool.and_eq_true] at loops
      obtain ⟨isDue, otherDue⟩ := due loops.1
      have dropped := shifted.dropOne loops.1
        (shifted.disc.firstAboveKept config isDue otherDue) item
      have keptAfter := fun time inTimes => kept time (List.mem_cons_of_mem _ inTimes)
      refine inductionHypothesis dropped (fun stays => ⟨dropOne_due stays, ?_⟩) keptAfter
        (dropped.loops keptAfter) dropped.item
      refine dropOne_due ?_
      rw [dropped.disc.dropping]
      exact stays
  | case4 serving leaves =>
      rw [Serving.dropLoop, if_neg (by rw [otherLoops]; exact leaves)]
      exact shifted

theorem Shifted.finish (shifted : Shifted ticks serving other) :
    ShiftedResult ticks (serving.finish config now) (other.finish config (later ticks now)) := by
  unfold Serving.finish
  rw [shifted.item]
  cases isCurrent : serving.item with
  | none => rfl
  | some item =>
      simp only [Option.map_some, shifted.isMarked, Item.mark_shift]
      rw [Item.shift, later_sub]
      split
      · cases item.mark with
        | none => exact shifted
        | some marked => exact { shifted with item := rfl, isMarked := rfl }
      · exact shifted

theorem ShiftedResult.bind {result otherResult : Except Fault Serving}
    {next otherNext : Serving → Except Fault Serving}
    (shifted : ShiftedResult ticks result otherResult)
    (both : ∀ serving other, Shifted ticks serving other →
      ShiftedResult ticks (next serving) (otherNext other)) :
    ShiftedResult ticks (result >>= next) (otherResult >>= otherNext) := by
  cases result with
  | error fault =>
      cases otherResult with
      | error otherFault => exact shifted
      | ok other => exact shifted.elim
  | ok serving =>
      cases otherResult with
      | error otherFault => exact shifted.elim
      | ok other => exact both serving other shifted

end Serving

namespace CoDelQueueDisc

variable {ticks : Nat} {config : Config} {disc other : CoDelQueueDisc} {now : Nat}

theorem Shifted.enterDropping (shifted : Shifted ticks disc other)
    (kept : FirstAboveKept config ticks disc now) (item : Item) :
    (disc.enterDropping config now item).Shifted ticks
      (other.enterDropping config (later ticks now) (item.shift ticks)) := by
  unfold CoDelQueueDisc.enterDropping
  rw [markEcn_shift]
  cases markEcn config item with
  | some marked => exact ⟨shifted.startDropping, rfl, rfl, rfl⟩
  | none =>
      have start : Serving.Shifted ticks { disc := disc, item := some item }
          { disc := other, item := some (item.shift ticks) } := ⟨shifted, rfl, rfl, rfl⟩
      have dropped := (start.dropCurrent kept item).1
      exact { dropped with disc := dropped.disc.startDropping }

/-- A call of `DoDequeue` compares the clock only with what keeps its order. -/
def ClockKept (config : Config) (ticks : Nat) (disc : CoDelQueueDisc) (now : Nat) : Prop :=
  match disc.queue with
  | [] => True
  | item :: rest =>
      (config.useL4s && item.isL4s) = false →
        ({ disc with queue := rest }.below config now item = false →
          FirstAboveKept config ticks { disc with queue := rest } now) ∧
        (({ disc with queue := rest }.okToDrop config now (some item)).2 = true →
          disc.dropping = true →
            ∀ time ∈ Serving.dropTimes config now
                { disc := { disc with queue := rest }, item := some item },
              KeepsOrder (clockShift ticks) time (coDelGetTime now))

instance : Decidable (ClockKept config ticks disc now) := by
  unfold ClockKept
  split <;> infer_instance

/-- Where it is all right to drop, `OkToDrop` has changed nothing. -/
theorem eq_of_okToDrop {item : Option Item} (ok : (disc.okToDrop config now item).2 = true) :
    (disc.okToDrop config now item).1 = disc := by
  cases item with
  | none => cases ok
  | some item =>
      unfold CoDelQueueDisc.okToDrop at ok ⊢
      dsimp only at ok ⊢
      split at ok
      · cases ok
      · next above =>
        rw [if_neg above]
        split at ok
        · cases ok
        · next isSet => rw [if_neg isSet]

theorem Shifted.serve (shifted : Shifted ticks disc other) (item : Item)
    (firstAbove : disc.below config now item = false → FirstAboveKept config ticks disc now)
    (kept : (disc.okToDrop config now (some item)).2 = true → disc.dropping = true →
      ∀ time ∈ Serving.dropTimes config now { disc := disc, item := some item },
        KeepsOrder (clockShift ticks) time (coDelGetTime now)) :
    Serving.ShiftedResult ticks (disc.serve config now item)
      (other.serve config (later ticks now) (item.shift ticks)) := by
  obtain ⟨after, same⟩ := shifted.okToDrop config now (some item) fun current isCurrent above => by
    cases isCurrent
    exact firstAbove above
  rw [Option.map_some] at after same
  unfold CoDelQueueDisc.serve
  dsimp only
  rw [same, after.dropping]
  cases ok : (disc.okToDrop config now (some item)).2 with
  | false =>
      simp only [Bool.not_false, if_true, Bool.false_eq_true, if_false]
      split
      · have isDropNext := after.dropNext (.inl ‹_›)
        exact ⟨{ after with dropping := rfl, dropNext := fun _ => isDropNext }, rfl, rfl, rfl⟩
      · exact ⟨after, rfl, rfl, rfl⟩
  | true =>
      rw [ok] at same
      have due := due_of_okToDrop ok
      have otherDue := due_of_okToDrop same
      rw [eq_of_okToDrop ok] at due ⊢
      rw [eq_of_okToDrop same] at otherDue ⊢
      have start : Serving.Shifted ticks { disc := disc, item := some item }
          { disc := other, item := some (item.shift ticks) } := ⟨shifted, rfl, rfl, rfl⟩
      simp only [Bool.not_true, Bool.false_eq_true, if_false, if_true]
      split
      · next dropping =>
        have kept := kept ok dropping
        have times := kept _ (Serving.dropNext_mem_dropTimes dropping)
        rw [coDelGetTime_later, shifted.dropNext (.inl dropping), coDelTimeAfterEq_shift times]
        split
        · exact start.dropLoop (fun _ => ⟨due, otherDue⟩) kept
        · exact start
      · exact shifted.enterDropping (shifted.firstAboveKept config due otherDue) item

theorem Shifted.serveL4s (shifted : Shifted ticks disc other) (item : Item) :
    (disc.serveL4s config now item).Shifted ticks
      (other.serveL4s config (later ticks now) (item.shift ticks)) := by
  unfold CoDelQueueDisc.serveL4s
  rw [Item.mark_shift]
  cases item.mark with
  | none => exact ⟨shifted, rfl, rfl, rfl⟩
  | some marked =>
      dsimp only [Option.map_some]
      rw [Item.shift, later_sub]
      split
      · exact ⟨shifted, rfl, rfl, rfl⟩
      · exact ⟨shifted, rfl, rfl, rfl⟩

theorem Shifted.doDequeue (shifted : Shifted ticks disc other)
    (kept : ClockKept config ticks disc now) :
    Serving.ShiftedResult ticks (disc.doDequeue config now)
      (other.doDequeue config (later ticks now)) := by
  unfold CoDelQueueDisc.doDequeue
  unfold ClockKept at kept
  rw [shifted.queue]
  cases isQueue : disc.queue with
  | nil =>
      have isDropNext := shifted.dropNext
      refine ⟨{ shifted with queue := rfl, dropping := rfl, dropNext := fun scheduled => ?_ }, rfl,
        rfl, rfl⟩
      rcases scheduled with dropping | isFirst
      · cases dropping
      · exact isDropNext (.inr isFirst)
  | cons item rest =>
      rw [isQueue] at kept
      have popped : Shifted ticks { disc with queue := rest }
          { other with queue := rest.map (Item.shift ticks) } := { shifted with queue := rfl }
      simp only [List.map_cons]
      have same : (item.shift ticks).isL4s = item.isL4s := rfl
      by_cases isL4s : (config.useL4s && item.isL4s) = true
      · rw [if_pos isL4s, if_pos (by rw [same]; exact isL4s)]
        exact popped.serveL4s item
      · rw [if_neg isL4s, if_neg (by rw [same]; exact isL4s)]
        obtain ⟨firstAbove, times⟩ := kept (Bool.eq_false_iff.mpr isL4s)
        exact (popped.serve item firstAbove times).bind fun _ _ served => served.finish

end CoDelQueueDisc

namespace Session

variable (config : Config) (ticks : Nat)

/-- The sessions of the two runs. -/
structure Shifted (session other : Session) : Prop where
  disc : session.disc.Shifted ticks other.disc
  outcomes : other.outcomes = session.outcomes

/-- The condition for a call. -/
def ClockKept (session : Session) : Call → Prop
  | .enqueue _ _ => True
  | .dequeue now => session.disc.ClockKept config ticks now

instance : ∀ session call, Decidable (ClockKept config ticks session call)
  | _, .enqueue _ _ => inferInstanceAs (Decidable True)
  | _, .dequeue _ => inferInstanceAs (Decidable (CoDelQueueDisc.ClockKept _ _ _ _))

theorem outcome_shift {serving other : Serving} (shifted : serving.Shifted ticks other) :
    other.outcome = serving.outcome := by
  unfold Serving.outcome
  rw [shifted.dropped, shifted.item, shifted.isMarked, List.map_map, Option.map_map]
  rfl

theorem Shifted.step (session other : Session) (call : Call)
    (shifted : Shifted ticks session other) (kept : ClockKept config ticks session call) :
    Shifted ticks (session.step config call) (other.step config (call.shift ticks)) := by
  cases call with
  | enqueue now item => exact { shifted with disc := shifted.disc.enqueue item }
  | dequeue now =>
      have result := shifted.disc.doDequeue kept
      dsimp only [Session.step, Call.shift]
      cases served : session.disc.doDequeue config now with
      | error fault =>
          cases otherServed : other.disc.doDequeue config (later ticks now) with
          | error otherFault =>
              rw [served, otherServed] at result
              cases result
              exact { shifted with outcomes := by rw [shifted.outcomes] }
          | ok otherServing =>
              rw [served, otherServed] at result
              exact result.elim
      | ok serving =>
          cases otherServed : other.disc.doDequeue config (later ticks now) with
          | error otherFault =>
              rw [served, otherServed] at result
              exact result.elim
          | ok otherServing =>
              rw [served, otherServed] at result
              refine ⟨result.disc, ?_⟩
              dsimp only
              rw [shifted.outcomes, outcome_shift ticks result]

/-- The outcomes of a run do not change with its time if the clock is only compared with what keeps
its order. -/
theorem outcomes_shift {calls : List Call}
    (kept : (sessions config).Along (ClockKept config ticks) {} calls) :
    ((sessions config).run {} (calls.map (Call.shift ticks))).outcomes =
      ((sessions config).run {} calls).outcomes := by
  have initial : CoDelQueueDisc.Shifted ticks {} {} := by
    refine ⟨rfl, rfl, rfl, rfl, rfl, Iff.rfl, fun isSet => absurd rfl isSet, ?_⟩
    rintro (dropping | isFirst)
    · cases dropping
    · exact absurd rfl isFirst
  have shifted : Shifted ticks ((sessions config).run {} calls)
      ((sessions config).run {} (calls.map (Call.shift ticks))) :=
    kept.related (Call.shift ticks) (Shifted.step config ticks) ⟨initial, rfl⟩
  exact shifted.outcomes

/-- All the calls are within half of the range of the clock. -/
def Spanning (calls : List Call) : Prop :=
  ∀ call ∈ calls, ∀ next ∈ calls, next.now < call.now + 2 ^ 31 * 1024

instance (calls : List Call) : Decidable (Spanning calls) :=
  inferInstanceAs (Decidable (∀ call ∈ calls, ∀ next ∈ calls, _))

/-- Four packets, the second of which is taken after an interval above the target. -/
def aboveTarget : List Call :=
  [.enqueue 0 { packet := 0, size := 1500 }, .enqueue 0 { packet := 1, size := 1500 },
    .enqueue 0 { packet := 2, size := 1500 }, .enqueue 0 { packet := 3, size := 1500 },
    .dequeue (5000 * 1024), .dequeue ((5000 + 97656 + 10) * 1024)]

theorem outcomes_shift_one :
    ((sessions .default).run {} (aboveTarget.map (Call.shift 1))).outcomes =
      ((sessions .default).run {} aboveTarget).outcomes :=
  outcomes_shift .default 1 (by decide)

/-- The clock wraps between the time to drop and the call that looks at it. -/
theorem not_outcomes_shift :
    ¬ ∀ config calls ticks, (sessions config).Legal {} calls → Spanning calls →
      ((sessions config).run {} (calls.map (Call.shift ticks))).outcomes =
        ((sessions config).run {} calls).outcomes := by
  intro same
  have outcomes := same .default aboveTarget (2 ^ 32 - (5000 + 97656 + 5)) (by decide) (by decide)
  revert outcomes
  decide

end Session

end Ns3.TrafficControl.CoDel
