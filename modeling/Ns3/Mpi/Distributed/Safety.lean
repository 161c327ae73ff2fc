import Mathlib.Algebra.BigOperators.Fin
import Ns3.Mpi.Distributed.Kernel

/-!
The time window is safe.

The base of a window is the least time of an event when the window was granted, and no message was
on its way then. An event of the window happens after the base, and what it sends takes the delay of
a link, so that it arrives after the end of the window of its receiver. A receiver never goes beyond
the end of its window. The base only moves when all ranks wait and the counts of what was sent and
received agree, and the same test makes the ranks leave the loop together.
-/

namespace Ns3.Mpi

open Ns3.Core Library

section Next

theorem fold_min_le (times : Multiset Nat) (most : Nat) : times.fold min most ≤ most := by
  induction times using Multiset.induction with
  | empty => exact le_refl most
  | cons time times inductionHypothesis =>
      rw [Multiset.fold_cons_left]
      exact (Nat.min_le_right _ _).trans inductionHypothesis

theorem fold_min_le_of_mem {times : Multiset Nat} {time : Nat} (member : time ∈ times)
    (most : Nat) : times.fold min most ≤ time := by
  obtain ⟨others, rfl⟩ := Multiset.exists_cons_of_mem member
  rw [Multiset.fold_cons_left]
  exact Nat.min_le_left _ _

theorem le_fold_min {times : Multiset Nat} {least most : Nat} (below : ∀ time ∈ times, least ≤ time)
    (start : least ≤ most) : least ≤ times.fold min most := by
  induction times using Multiset.induction with
  | empty => exact start
  | cons time times inductionHypothesis =>
      rw [Multiset.fold_cons_left]
      exact Nat.le_min.mpr ⟨below time (Multiset.mem_cons_self time times),
        inductionHypothesis fun other member => below other (Multiset.mem_cons_of_mem member)⟩

variable {self : DistributedSimulatorImpl} {ev : Event}

theorem peekTs_le (stored : ev ∈ self.events) : self.peekTs ≤ ev.key.ts :=
  fold_min_le_of_mem (Multiset.mem_map_of_mem (fun ev : Event => ev.key.ts) stored) _

theorem nextTs_le_maximum : self.nextTs ≤ maximumSimulationTime.toNat := by
  rw [DistributedSimulatorImpl.nextTs]
  split
  · exact le_refl _
  · exact fold_min_le _ _

theorem next_eq : self.next = self.nextTs := by
  have most : self.nextTs ≤ 0x7fffffffffffffff := nextTs_le_maximum
  exact signed_of_isSigned (by decide) ⟨by omega, by omega⟩

theorem next_le_maximum : self.next ≤ maximumSimulationTime := by
  have most : self.nextTs ≤ 0x7fffffffffffffff := nextTs_le_maximum
  rw [next_eq, maximumSimulationTime]
  omega

theorem isLocalFinished_of_mem (stored : ev ∈ self.events) (goesOn : self.stop = false) :
    self.isLocalFinished = false := by
  rw [DistributedSimulatorImpl.isLocalFinished, goesOn, Bool.or_false, decide_eq_false_iff_not]
  intro empty
  rw [empty] at stored
  exact Multiset.notMem_zero ev stored

theorem stop_of_isLocalFinished (unfinished : self.isLocalFinished = false) : self.stop = false :=
  (Bool.or_eq_false_iff.mp unfinished).2

theorem next_le (stored : ev ∈ self.events) (goesOn : self.stop = false) :
    self.next ≤ ev.key.ts := by
  rw [next_eq, DistributedSimulatorImpl.nextTs, isLocalFinished_of_mem stored goesOn,
    if_neg Bool.false_ne_true]
  exact Int.ofNat_le.mpr (peekTs_le stored)

/-- The next event is not before the time that is announced for it, if time can represent it. -/
theorem ts_le_next (isNext : IsNext self.events ev) (fits : ev.key.ts < 2 ^ 63) :
    (ev.key.ts : Int) ≤ self.next := by
  have most : ev.key.ts ≤ maximumSimulationTime.toNat := by
    rw [maximumSimulationTime]
    omega
  rw [next_eq, Int.ofNat_le, DistributedSimulatorImpl.nextTs]
  split
  · exact most
  · apply le_fold_min _ most
    intro time member
    obtain ⟨other, stored, rfl⟩ := Multiset.mem_map.mp member
    rcases EventKey.rank_le_rank.mp (isNext.2 other stored) with earlier | ⟨same, _⟩
    · exact Nat.le_of_lt earlier
    · exact Nat.le_of_eq same

end Next

/-- What holds of a rank wherever it is: it has not gone beyond the end of its window, and no event
of its list is in the past or, unless the rank has been stopped, before the base of the window. -/
structure Steady (lookAhead base : Int) (impl : DistributedSimulatorImpl) : Prop where
  lookAhead_eq : impl.lookAhead = lookAhead
  granted : impl.grantedTime ≤ base + lookAhead
  current : (impl.currentTs : Int) ≤ base + lookAhead
  small : impl.currentTs < 2 ^ 63
  ordered : ∀ ev ∈ impl.events, impl.currentTs ≤ ev.key.ts
  fits : ∀ ev ∈ impl.events, ev.key.ts < 2 ^ 63
  window : impl.stop = false → ∀ ev ∈ impl.events, base ≤ ev.key.ts

/-- What holds of a rank where it is. -/
def AtStage (base : Int) (self : DistributedSimulatorImpl) : Stage → Prop
  | .looping | .receiving | .left => True
  | .gathering nextTime lMsg => nextTime = self.next ∧ ∃ myId, lMsg = self.lbtsMessage myId
  | .gathered nextTime lbts =>
      nextTime = self.next ∧ 0 ≤ smallestTime lbts ∧
        (noTransients lbts = true → smallestTime lbts ≤ base)
  | .deciding nextTime => nextTime = self.next
  | .handling => base ≤ self.currentTs

/-- Both. -/
structure RankSound (lookAhead base : Int) (impl : DistributedSimulatorImpl) : Prop where
  steady : Steady lookAhead base impl
  atStage : AtStage base impl impl.stage

section Rank

variable {lookAhead base : Int} {self : DistributedSimulatorImpl}

/-- A rank only moves on. -/
theorem RankSound.move (sound : RankSound lookAhead base self) {stage : Stage}
    (atStage : AtStage base { self with stage := stage } stage) :
    RankSound lookAhead base { self with stage := stage } where
  steady := ⟨sound.steady.lookAhead_eq, sound.steady.granted, sound.steady.current,
    sound.steady.small, sound.steady.ordered, sound.steady.fits, sound.steady.window⟩
  atStage := atStage

theorem RankSound.enterLoop (sound : RankSound lookAhead base self) :
    RankSound lookAhead base self.enterLoop := by
  rw [DistributedSimulatorImpl.enterLoop]
  split
  · exact sound.move trivial
  · split
    · exact sound.move trivial
    · exact sound.move rfl

theorem RankSound.contribute (sound : RankSound lookAhead base self) (myId : Nat) :
    RankSound lookAhead base (self.contribute myId) :=
  sound.move ⟨rfl, myId, rfl⟩

theorem RankSound.again (sound : RankSound lookAhead base self) :
    RankSound lookAhead base self.again :=
  sound.move trivial

theorem signed_le {n : Int} (nonneg : 0 ≤ n) : signed 64 n ≤ n := by
  rw [signed, Int.bmod]
  split <;> omega

theorem RankSound.conclude (sound : RankSound lookAhead base self) {nextTime : Int}
    {lbts : List LbtsMessage} (stage : self.stage = .gathered nextTime lbts)
    (nonneg : 0 ≤ lookAhead) :
    RankSound lookAhead base (self.conclude nextTime lbts) := by
  have atStage := sound.atStage
  rw [stage] at atStage
  obtain ⟨sameTime, positive, smallest⟩ := atStage
  refine ⟨⟨sound.steady.lookAhead_eq, ?_, sound.steady.current, sound.steady.small,
    sound.steady.ordered, sound.steady.fits, sound.steady.window⟩, sameTime⟩
  rw [DistributedSimulatorImpl.conclude]
  dsimp only
  rw [sound.steady.lookAhead_eq]
  split
  · rename_i moved
    have least := smallest moved
    split
    · omega
    · exact (signed_le (by omega)).trans (by omega)
  · exact sound.steady.granted

theorem RankSound.processOneEvent (sound : RankSound lookAhead base self) {next : Event}
    (decides : Cluster.Decides self true) (isNext : IsNext self.events next) :
    RankSound lookAhead base (self.processOneEvent next) := by
  obtain ⟨nextTime, stage, decision⟩ := decides
  have atStage := sound.atStage
  rw [stage] at atStage
  obtain ⟨early, unfinished⟩ := Bool.and_eq_true_iff.mp decision
  have goesOn := stop_of_isLocalFinished ((Bool.not_eq_true' _).mp unfinished)
  have inWindow : nextTime ≤ self.grantedTime := of_decide_eq_true early
  have announced := ts_le_next isNext (sound.steady.fits next isNext.1)
  have granted := sound.steady.granted
  have sameTime : nextTime = self.next := atStage
  refine ⟨⟨sound.steady.lookAhead_eq, granted, ?_, sound.steady.fits next isNext.1, ?_, ?_, ?_⟩, ?_⟩
  · show (next.key.ts : Int) ≤ base + lookAhead
    omega
  · intro ev stored
    rcases EventKey.rank_le_rank.mp (isNext.2 ev (Multiset.mem_of_mem_erase stored)) with
      earlier | ⟨same, _⟩
    · exact Nat.le_of_lt earlier
    · exact Nat.le_of_eq same
  · exact fun ev stored => sound.steady.fits ev (Multiset.mem_of_mem_erase stored)
  · exact fun goesOn ev stored => sound.steady.window goesOn ev (Multiset.mem_of_mem_erase stored)
  · exact sound.steady.window goesOn next isNext.1

/-- An event enters the list at a time that is neither in the past nor before the base. -/
theorem Steady.enqueue (steady : Steady lookAhead base self) {ts : Nat} (now : self.currentTs ≤ ts)
    (fits : ts < 2 ^ 63) (inWindow : base ≤ ts) (context event : Nat) :
    Steady lookAhead base (self.enqueue ts context event) where
  lookAhead_eq := steady.lookAhead_eq
  granted := steady.granted
  current := steady.current
  small := steady.small
  ordered ev stored := by
    rcases Multiset.mem_cons.mp stored with rfl | before
    · exact now
    · exact steady.ordered ev before
  fits ev stored := by
    rcases Multiset.mem_cons.mp stored with rfl | before
    · exact fits
    · exact steady.fits ev before
  window goesOn ev stored := by
    rcases Multiset.mem_cons.mp stored with rfl | before
    · exact inWindow
    · exact steady.window goesOn ev before

theorem absolute_eq {delay : Int} (fits : self.Fits delay) :
    (self.absolute delay : Int) = delay + self.currentTs := by
  obtain ⟨nonneg, small⟩ := fits
  rw [DistributedSimulatorImpl.absolute, wrapInt]
  omega

/-- An event of the list leaves it. -/
theorem Steady.discard (steady : Steady lookAhead base self) {other : DistributedSimulatorImpl}
    (lookAhead_eq : other.lookAhead = self.lookAhead)
    (granted : other.grantedTime = self.grantedTime) (current : other.currentTs = self.currentTs)
    (fewer : other.events ≤ self.events) (stop : self.stop = true → other.stop = true) :
    Steady lookAhead base other where
  lookAhead_eq := lookAhead_eq.trans steady.lookAhead_eq
  granted := granted ▸ steady.granted
  current := current ▸ steady.current
  small := current ▸ steady.small
  ordered ev stored := current ▸ steady.ordered ev (Multiset.mem_of_le fewer stored)
  fits ev stored := steady.fits ev (Multiset.mem_of_le fewer stored)
  window goesOn ev stored := by
    apply steady.window _ ev (Multiset.mem_of_le fewer stored)
    cases stopped : self.stop with
    | false => rfl
    | true => exact absurd (stop stopped) (Bool.eq_false_iff.mp goesOn)

theorem Steady.perform (steady : Steady lookAhead base self) (now : base ≤ self.currentTs)
    {call : Call} (admits : call.Admits self) : Steady lookAhead base (self.perform call) := by
  cases call with
  | schedule delay event =>
      have ts := absolute_eq admits
      obtain ⟨nonneg, small⟩ := admits
      exact steady.enqueue (by omega) (by omega) (by omega) _ event
  | scheduleWithContext context delay event =>
      have ts := absolute_eq admits
      obtain ⟨nonneg, small⟩ := admits
      exact steady.enqueue (by omega) (by omega) (by omega) context event
  | scheduleNow event => exact steady.enqueue (le_refl _) steady.small now _ event
  | scheduleDestroy event => exact steady.discard rfl rfl rfl (le_refl _) id
  | remove id =>
      rw [DistributedSimulatorImpl.perform, DistributedSimulatorImpl.remove]
      split
      · exact steady.discard rfl rfl rfl (le_refl _) (fun stop => stop)
      · split
        · exact steady
        · split
          · exact steady
          · exact steady.discard rfl rfl rfl (Multiset.erase_le _ _) (fun stop => stop)
  | cancel id =>
      rw [DistributedSimulatorImpl.perform, DistributedSimulatorImpl.cancel]
      split
      · exact steady
      · split
        · exact steady
        · exact steady.discard rfl rfl rfl (le_refl _) (fun stop => stop)
  | stop => exact steady.discard rfl rfl rfl (le_refl _) fun _ => rfl

/-- What the body of an event does leaves the rank in the body of the event. -/
theorem perform_stage (self : DistributedSimulatorImpl) (call : Call) :
    (self.perform call).stage = self.stage ∧ (self.perform call).currentTs = self.currentTs ∧
      (self.perform call).globalFinished = self.globalFinished ∧
      (self.perform call).txCount = self.txCount ∧ (self.perform call).rxCount = self.rxCount := by
  cases call with
  | remove id =>
      rw [DistributedSimulatorImpl.perform, DistributedSimulatorImpl.remove]
      split
      · exact ⟨rfl, rfl, rfl, rfl, rfl⟩
      · split
        · exact ⟨rfl, rfl, rfl, rfl, rfl⟩
        · split <;> exact ⟨rfl, rfl, rfl, rfl, rfl⟩
  | cancel id =>
      rw [DistributedSimulatorImpl.perform, DistributedSimulatorImpl.cancel]
      split
      · exact ⟨rfl, rfl, rfl, rfl, rfl⟩
      · split <;> exact ⟨rfl, rfl, rfl, rfl, rfl⟩
  | _ => exact ⟨rfl, rfl, rfl, rfl, rfl⟩

theorem RankSound.perform (sound : RankSound lookAhead base self) (stage : self.stage = .handling)
    {call : Call} (admits : call.Admits self) :
    RankSound lookAhead base (self.perform call) := by
  have atStage := sound.atStage
  rw [stage] at atStage
  obtain ⟨sameStage, sameTs, _⟩ := perform_stage self call
  refine ⟨sound.steady.perform atStage admits, ?_⟩
  rw [sameStage, stage]
  show base ≤ (self.perform call).currentTs
  rw [sameTs]
  exact atStage

/-- What arrives is an event at the time of the message. -/
theorem RankSound.receive (sound : RankSound lookAhead base self) (stage : self.stage = .receiving)
    {time : Nat} (arrives : base + lookAhead ≤ time) (nonneg : 0 ≤ lookAhead)
    (small : time < 2 ^ 63) (node event : Nat) :
    RankSound lookAhead base (self.receive time node event) := by
  have current := sound.steady.current
  have counted : Steady lookAhead base { self with rxCount := wrap 32 (self.rxCount + 1) } :=
    sound.steady.discard rfl rfl rfl (le_refl _) id
  have value : signed 64 time = time := signed_of_isSigned (by decide) ⟨by omega, by omega⟩
  have delay : DistributedSimulatorImpl.Fits { self with rxCount := wrap 32 (self.rxCount + 1) }
      (signed 64 time - self.currentTs) := by
    rw [value]
    exact ⟨by omega, by show (self.currentTs : Int) + _ < _; omega⟩
  have ts := absolute_eq delay
  rw [value] at ts
  have sameTs : ((DistributedSimulatorImpl.absolute
      { self with rxCount := wrap 32 (self.rxCount + 1) }
        (time - self.currentTs) : Nat) : Int) = time := by
    rw [ts]
    exact sub_add_cancel _ _
  refine ⟨?_, ?_⟩
  · rw [DistributedSimulatorImpl.receive, value]
    exact counted.enqueue (by show self.currentTs ≤ _; omega) (by omega) (by omega) node event
  · show AtStage base _ self.stage
    rw [stage]
    trivial

end Rank

end Ns3.Mpi
