import Mathlib.Algebra.BigOperators.Fin
import Mathlib.Data.Nat.ModEq
import Ns3.Mpi.Distributed.Safety

/-!
No message arrives in the past of its receiver, whatever the order in which ranks run and messages
arrive, and no rank leaves the loop while a message is on its way.
-/

namespace Ns3.Mpi

open Ns3.Core Library

variable {size : Nat}

/-- A sum after a change at one place. -/
theorem sum_update {Value : Type} (count : Value → Nat) (values : Fin size → Value)
    (rank : Fin size) (value : Value) :
    ∑ other, count (Function.update values rank value other) + count (values rank) =
      ∑ other, count (values other) + count value := by
  have changed := Finset.sum_update_of_mem (Finset.mem_univ rank) (count ∘ values) (count value)
  have whole := Finset.add_sum_erase Finset.univ (count ∘ values) (Finset.mem_univ rank)
  rw [← Function.comp_update, Finset.sdiff_singleton_eq_erase] at changed
  simp only [Function.comp_apply] at changed whole
  omega

/-- The halting condition where a rank finds it. -/
def FinalAt (globalFinished : Bool) : Stage → Prop
  | .gathered _ lbts => finished lbts = true
  | .left => True
  | _ => globalFinished = true

/-- The rank has the halting condition. -/
def Final (self : DistributedSimulatorImpl) : Prop := FinalAt self.globalFinished self.stage

/-- The rank has the halting condition, and waits for nothing more. -/
def EndAt (globalFinished : Bool) : Stage → Prop
  | .gathered _ lbts => finished lbts = true
  | .looping | .deciding _ => globalFinished = true
  | .left => True
  | .receiving | .gathering _ _ | .handling => False

/-- The rank can only leave the loop. -/
def AtEnd (self : DistributedSimulatorImpl) : Prop :=
  self.isLocalFinished = true ∧ EndAt self.globalFinished self.stage

/-- A step of a rank does not make up the halting condition, nor lose it. -/
structure KeepsEnd (before after : DistributedSimulatorImpl) : Prop where
  reflects : Final after → Final before
  keeps : AtEnd before → AtEnd after

section Steps

variable {self : DistributedSimulatorImpl}

theorem final_of_stage {stage : Stage} (same : self.stage = stage) :
    Final self ↔ FinalAt self.globalFinished stage := by
  rw [Final, same]

/-- A rank that takes messages or handles an event is not at the end. -/
theorem not_atEnd (busy : self.stage = .receiving ∨ self.stage = .handling) : ¬ AtEnd self := by
  rintro ⟨_, stage⟩
  rcases busy with receiving | handling
  · rw [receiving] at stage
    exact stage
  · rw [handling] at stage
    exact stage

theorem KeepsEnd.enterLoop (stage : self.stage = .looping) : KeepsEnd self self.enterLoop := by
  constructor
  · intro final
    rw [final_of_stage stage]
    rw [DistributedSimulatorImpl.enterLoop] at final
    split at final
    · assumption
    · split at final
      · exact final
      · exact final
  · rintro ⟨finished, told⟩
    rw [stage] at told
    have ended : self.globalFinished = true := told
    rw [DistributedSimulatorImpl.enterLoop, if_pos ended]
    exact ⟨finished, trivial⟩

theorem KeepsEnd.contribute (stage : self.stage = .receiving) (myId : Nat) :
    KeepsEnd self (self.contribute myId) where
  reflects final := (final_of_stage stage).mpr final
  keeps atEnd := absurd atEnd (not_atEnd (.inl stage))

theorem KeepsEnd.conclude {nextTime : Int} {lbts : List LbtsMessage}
    (stage : self.stage = .gathered nextTime lbts) :
    KeepsEnd self (self.conclude nextTime lbts) where
  reflects final := (final_of_stage stage).mpr final
  keeps := by
    rintro ⟨finished, told⟩
    rw [stage] at told
    exact ⟨finished, told⟩

theorem KeepsEnd.skip {nextTime : Int} (stage : self.stage = .deciding nextTime) :
    KeepsEnd self self.again where
  reflects final := (final_of_stage stage).mpr final
  keeps := by
    rintro ⟨finished, told⟩
    rw [stage] at told
    exact ⟨finished, told⟩

theorem KeepsEnd.finishEvent (stage : self.stage = .handling) : KeepsEnd self self.again where
  reflects final := (final_of_stage stage).mpr final
  keeps atEnd := absurd atEnd (not_atEnd (.inr stage))

theorem KeepsEnd.processOneEvent {next : Event} (decides : Cluster.Decides self true) :
    KeepsEnd self (self.processOneEvent next) where
  reflects final := by
    obtain ⟨nextTime, stage, _⟩ := decides
    exact (final_of_stage stage).mpr final
  keeps atEnd := by
    obtain ⟨nextTime, _, decision⟩ := decides
    have unfinished := (Bool.and_eq_true_iff.mp decision).2
    rw [atEnd.1] at unfinished
    exact absurd unfinished Bool.false_ne_true

theorem KeepsEnd.perform (stage : self.stage = .handling) (call : Call) :
    KeepsEnd self (self.perform call) where
  reflects final := by
    obtain ⟨sameStage, _, sameFinished, _⟩ := perform_stage self call
    rw [final_of_stage (sameStage.trans stage), sameFinished] at final
    exact (final_of_stage stage).mpr final
  keeps atEnd := absurd atEnd (not_atEnd (.inr stage))

end Steps

section Gathered

variable {lbts : List LbtsMessage} {message : LbtsMessage}

theorem smallestTime_le (member : message ∈ lbts) : smallestTime lbts ≤ message.smallestTime := by
  cases lbts with
  | nil => exact nomatch member
  | cons first rest =>
      have lowers : ∀ (smallest : Int) (message : LbtsMessage),
          (if message.smallestTime < smallest then message.smallestTime else smallest) ≤
            smallest := by
        intro smallest message
        split <;> omega
      rcases List.mem_cons.mp member with rfl | later
      · exact foldl_le lowers rest message.smallestTime
      · apply foldl_le_of_mem lowers later
        intro smallest
        split <;> omega

theorem smallestTime_nonneg (nonneg : ∀ message ∈ lbts, 0 ≤ message.smallestTime) :
    0 ≤ smallestTime lbts := by
  cases lbts with
  | nil => exact le_refl 0
  | cons first rest =>
      apply List.foldlRecOn rest _ (nonneg first List.mem_cons_self)
      intro smallest positive message member
      split
      · exact nonneg message (List.mem_cons_of_mem first member)
      · exact positive

theorem smallestTime_le_maximum
    (bounded : ∀ message ∈ lbts, message.smallestTime ≤ maximumSimulationTime) :
    smallestTime lbts ≤ maximumSimulationTime := by
  cases lbts with
  | nil => exact (by decide : (0 : Int) ≤ maximumSimulationTime)
  | cons first rest =>
      exact (smallestTime_le List.mem_cons_self).trans (bounded first List.mem_cons_self)

/-- A total is a sum but for its overflow. -/
theorem total_modEq (count : LbtsMessage → Nat) (lbts : List LbtsMessage) :
    Nat.ModEq (2 ^ 32) (total count lbts) (lbts.map count).sum := by
  cases lbts with
  | nil => rfl
  | cons first rest =>
      rw [total, List.map_cons, List.sum_cons]
      generalize count first = start
      induction rest generalizing start with
      | nil => rfl
      | cons next rest inductionHypothesis =>
          have wrapped : Nat.ModEq (2 ^ 32) (wrap 32 (start + count next)) (start + count next) :=
            Nat.mod_modEq _ _
          rw [List.foldl_cons, List.map_cons, List.sum_cons, ← Nat.add_assoc]
          exact (inductionHypothesis _).trans (wrapped.add_right _)

theorem all_of_foldl {start : Bool}
    (folded : lbts.foldl (fun finished message => finished && message.isFinished) start = true) :
    start = true ∧ ∀ message ∈ lbts, message.isFinished = true := by
  induction lbts generalizing start with
  | nil => exact ⟨folded, fun _ member => nomatch member⟩
  | cons first rest inductionHypothesis =>
      obtain ⟨both, later⟩ := inductionHypothesis folded
      obtain ⟨before, now⟩ := Bool.and_eq_true_iff.mp both
      exact ⟨before, List.forall_mem_cons.mpr ⟨now, later⟩⟩

theorem all_of_finished (halted : finished lbts = true) :
    (∀ message ∈ lbts, message.isFinished = true) ∧ noTransients lbts = true := by
  cases lbts with
  | nil => exact absurd halted Bool.false_ne_true
  | cons first rest =>
      obtain ⟨folded, agree⟩ := Bool.and_eq_true_iff.mp halted
      obtain ⟨now, later⟩ := all_of_foldl folded
      exact ⟨List.forall_mem_cons.mpr ⟨now, later⟩, agree⟩

end Gathered

/-- The invariant of a run over its base. -/
structure Sound (lookAhead : Fin size → Int) (base : Int) (cluster : Cluster size) : Prop where
  nonneg : 0 ≤ base
  small : base ≤ maximumSimulationTime
  ranks : ∀ rank, RankSound (lookAhead rank) base (cluster.impl rank)
  arrives : ∀ message ∈ cluster.inFlight,
    base + lookAhead message.rank ≤ message.time ∧ message.time < 2 ^ 63
  counts : Nat.ModEq (2 ^ 32) (∑ rank, (cluster.impl rank).txCount)
    (∑ rank, (cluster.impl rank).rxCount + cluster.inFlight.length)
  room : cluster.inFlight.length < 2 ^ 32
  halted : ∀ rank, Final (cluster.impl rank) →
    cluster.inFlight = [] ∧ ∀ other, AtEnd (cluster.impl other)

section Cluster

variable {lookAhead : Fin size → Int} {base : Int} {cluster : Cluster size} {rank : Fin size}
  {impl : DistributedSimulatorImpl}

theorem ranks_goOn (sound : Sound lookAhead base cluster)
    (rankSound : RankSound (lookAhead rank) base impl) (other : Fin size) :
    RankSound (lookAhead other) base ((cluster.goOn rank impl).impl other) := by
  by_cases same : other = rank
  · rw [same]
    simpa [Cluster.goOn] using rankSound
  · simpa [Cluster.goOn, same] using sound.ranks other

/-- One rank goes on by itself. -/
theorem Sound.goOn (sound : Sound lookAhead base cluster)
    (rankSound : RankSound (lookAhead rank) base impl)
    (txCount : impl.txCount = (cluster.impl rank).txCount)
    (rxCount : impl.rxCount = (cluster.impl rank).rxCount)
    (keepsEnd : KeepsEnd (cluster.impl rank) impl) :
    Sound lookAhead base (cluster.goOn rank impl) where
  nonneg := sound.nonneg
  small := sound.small
  ranks := ranks_goOn sound rankSound
  arrives := sound.arrives
  counts := by
    have sent := sum_update DistributedSimulatorImpl.txCount cluster.impl rank impl
    have received := sum_update DistributedSimulatorImpl.rxCount cluster.impl rank impl
    rw [txCount] at sent
    rw [rxCount] at received
    rw [Cluster.goOn, Nat.add_right_cancel sent, Nat.add_right_cancel received]
    exact sound.counts
  room := sound.room
  halted := by
    have reached : ∀ other, Final ((cluster.goOn rank impl).impl other) →
        Final (cluster.impl other) := by
      intro other final
      by_cases same : other = rank
      · rw [same]
        apply keepsEnd.reflects
        simpa [Cluster.goOn, same] using final
      · simpa [Cluster.goOn, same] using final
    intro first final
    obtain ⟨nothing, atEnd⟩ := sound.halted first (reached first final)
    refine ⟨nothing, ?_⟩
    intro other
    by_cases same : other = rank
    · rw [same]
      simpa [Cluster.goOn] using keepsEnd.keeps (atEnd rank)
    · simpa [Cluster.goOn, same] using atEnd other

/-- A rank that takes a message or sends one has not seen the halting condition. -/
theorem Sound.exchange (sound : Sound lookAhead base cluster)
    (rankSound : RankSound (lookAhead rank) base impl) {inFlight : List (Message size)}
    (busy : (cluster.impl rank).stage = .receiving ∨ (cluster.impl rank).stage = .handling)
    (stage : impl.stage = (cluster.impl rank).stage)
    (globalFinished : impl.globalFinished = (cluster.impl rank).globalFinished)
    (arrives : ∀ message ∈ inFlight,
      base + lookAhead message.rank ≤ message.time ∧ message.time < 2 ^ 63)
    (counts : Nat.ModEq (2 ^ 32)
      (impl.txCount + (cluster.impl rank).rxCount + cluster.inFlight.length)
      (impl.rxCount + (cluster.impl rank).txCount + inFlight.length))
    (room : inFlight.length < 2 ^ 32) :
    Sound lookAhead base { cluster.goOn rank impl with inFlight := inFlight } where
  nonneg := sound.nonneg
  small := sound.small
  ranks := ranks_goOn sound rankSound
  arrives := arrives
  counts := by
    have sent := sum_update DistributedSimulatorImpl.txCount cluster.impl rank impl
    have received := sum_update DistributedSimulatorImpl.rxCount cluster.impl rank impl
    have before := sound.counts
    show Nat.ModEq (2 ^ 32) (∑ other, (Function.update cluster.impl rank impl other).txCount)
      (∑ other, (Function.update cluster.impl rank impl other).rxCount + inFlight.length)
    unfold Nat.ModEq at *
    omega
  room := room
  halted := by
    have same : Final impl → Final (cluster.impl rank) := by
      rcases busy with receiving | handling
      · rw [final_of_stage (stage.trans receiving), final_of_stage receiving, globalFinished]
        exact id
      · rw [final_of_stage (stage.trans handling), final_of_stage handling, globalFinished]
        exact id
    intro first final
    have before : Final (cluster.impl first) := by
      by_cases here : first = rank
      · rw [here]
        apply same
        simpa [Cluster.goOn, here] using final
      · simpa [Cluster.goOn, here] using final
    exact absurd ((sound.halted first before).2 rank) (not_atEnd busy)

/-- What the ranks have contributed. -/
def contributions (cluster : Cluster size) : List LbtsMessage :=
  List.ofFn fun rank =>
    match (cluster.impl rank).stage with
    | .gathering _ lMsg => lMsg
    | _ => (cluster.impl rank).lbtsMessage rank

/-- All ranks wait for the others. -/
def AllGathering (cluster : Cluster size) : Prop :=
  ∀ rank, ∃ nextTime lMsg, (cluster.impl rank).stage = .gathering nextTime lMsg

theorem Sound.contribution (sound : Sound lookAhead base cluster)
    (all : AllGathering cluster) (rank : Fin size) :
    ∃ myId lMsg, (cluster.impl rank).stage = .gathering (cluster.impl rank).next lMsg ∧
      lMsg = (cluster.impl rank).lbtsMessage myId := by
  obtain ⟨nextTime, lMsg, stage⟩ := all rank
  have atStage := (sound.ranks rank).atStage
  rw [stage] at atStage
  obtain ⟨sameTime, myId, sameMessage⟩ := atStage
  exact ⟨myId, lMsg, sameTime ▸ stage, sameMessage⟩

/-- A contribution tells where its rank is. -/
theorem Sound.contributions_eq (sound : Sound lookAhead base cluster)
    (all : AllGathering cluster) :
    ∃ ids : Fin size → Nat, contributions cluster =
      List.ofFn fun rank => (cluster.impl rank).lbtsMessage (ids rank) := by
  choose ids lMsg stage message using fun rank => sound.contribution all rank
  refine ⟨ids, ?_⟩
  rw [contributions]
  congr 1
  funext rank
  rw [stage rank]
  exact message rank

theorem allgather_impl {nextTime : Int} {lMsg : LbtsMessage}
    (stage : (cluster.impl rank).stage = .gathering nextTime lMsg) :
    cluster.allgather.impl rank =
      { cluster.impl rank with stage := .gathered nextTime (contributions cluster) } := by
  rw [Cluster.allgather]
  dsimp only
  rw [stage]
  rfl

/-- Counts that agree tell that no message is on its way. -/
theorem Sound.inFlight_eq_nil (sound : Sound lookAhead base cluster) (all : AllGathering cluster)
    (agree : noTransients (contributions cluster) = true) : cluster.inFlight = [] := by
  obtain ⟨ids, same⟩ := sound.contributions_eq all
  have totals : total LbtsMessage.rxCount (contributions cluster) =
      total LbtsMessage.txCount (contributions cluster) := of_decide_eq_true agree
  have received := total_modEq LbtsMessage.rxCount (contributions cluster)
  have sent := total_modEq LbtsMessage.txCount (contributions cluster)
  rw [totals] at received
  rw [same, List.map_ofFn, List.sum_ofFn] at received sent
  have sums : Nat.ModEq (2 ^ 32) (∑ rank, (cluster.impl rank).txCount)
      (∑ rank, (cluster.impl rank).rxCount) := sent.symm.trans received
  have none : Nat.ModEq (2 ^ 32) cluster.inFlight.length 0 :=
    (sound.counts.symm.trans sums).add_left_cancel' _
  have room := sound.room
  apply List.eq_nil_of_length_eq_zero
  unfold Nat.ModEq at none
  omega

/-- The base after the ranks have told each other where they are. -/
def gatheredBase (base : Int) (lbts : List LbtsMessage) : Int :=
  if noTransients lbts then max base (smallestTime lbts) else base

theorem le_gatheredBase (base : Int) (lbts : List LbtsMessage) : base ≤ gatheredBase base lbts := by
  rw [gatheredBase]
  split
  · exact le_max_left _ _
  · exact le_refl base

theorem Sound.smallestTime_le (sound : Sound lookAhead base cluster) (all : AllGathering cluster)
    (rank : Fin size) : smallestTime (contributions cluster) ≤ (cluster.impl rank).next := by
  obtain ⟨ids, same⟩ := sound.contributions_eq all
  have member : (cluster.impl rank).lbtsMessage (ids rank) ∈ contributions cluster := by
    rw [same]
    exact List.mem_ofFn.mpr ⟨rank, rfl⟩
  have least := Mpi.smallestTime_le member
  rw [DistributedSimulatorImpl.lbtsMessage_smallestTime] at least
  exact least

theorem Sound.smallestTime_bounds (sound : Sound lookAhead base cluster)
    (all : AllGathering cluster) :
    0 ≤ smallestTime (contributions cluster) ∧
      smallestTime (contributions cluster) ≤ maximumSimulationTime := by
  obtain ⟨ids, same⟩ := sound.contributions_eq all
  rw [same]
  constructor
  · apply smallestTime_nonneg
    intro message member
    obtain ⟨rank, rfl⟩ := List.mem_ofFn.mp member
    rw [DistributedSimulatorImpl.lbtsMessage_smallestTime, next_eq]
    exact Int.natCast_nonneg _
  · apply smallestTime_le_maximum
    intro message member
    obtain ⟨rank, rfl⟩ := List.mem_ofFn.mp member
    rw [DistributedSimulatorImpl.lbtsMessage_smallestTime]
    exact next_le_maximum

/-- The base moves to the least time of an event, if no message is on its way. -/
theorem Sound.allgather (sound : Sound lookAhead base cluster) (all : AllGathering cluster) :
    Sound lookAhead (gatheredBase base (contributions cluster)) cluster.allgather := by
  have later := le_gatheredBase base (contributions cluster)
  obtain ⟨positive, most⟩ := sound.smallestTime_bounds all
  have moved : ∀ rank, cluster.allgather.impl rank = { cluster.impl rank with
      stage := .gathered (cluster.impl rank).next (contributions cluster) } := by
    intro rank
    obtain ⟨_, lMsg, stage, _⟩ := sound.contribution all rank
    exact allgather_impl stage
  have nonneg := sound.nonneg
  refine ⟨nonneg.trans later, ?_, ?_, ?_, ?_, sound.room, ?_⟩
  · rw [gatheredBase]
    split
    · exact max_le sound.small most
    · exact sound.small
  · intro rank
    obtain ⟨steady, _⟩ := sound.ranks rank
    have granted := steady.granted
    have current := steady.current
    rw [moved rank]
    refine ⟨⟨steady.lookAhead_eq, by dsimp only; omega, by dsimp only; omega, steady.small,
      steady.ordered, steady.fits, ?_⟩, rfl, positive, ?_⟩
    · intro goesOn ev stored
      have least := (sound.smallestTime_le all rank).trans (next_le stored goesOn)
      have before := steady.window goesOn ev stored
      rw [gatheredBase]
      split
      · exact max_le before least
      · exact before
    · intro agree
      rw [gatheredBase, if_pos agree]
      exact le_max_right _ _
  · intro message waits
    rw [gatheredBase]
    split
    · rename_i agree
      have none : message ∈ [] := sound.inFlight_eq_nil all agree ▸ waits
      exact nomatch none
    · exact sound.arrives message waits
  · have sent : ∀ rank, (cluster.allgather.impl rank).txCount = (cluster.impl rank).txCount :=
      fun rank => by rw [moved rank]
    have received : ∀ rank, (cluster.allgather.impl rank).rxCount = (cluster.impl rank).rxCount :=
      fun rank => by rw [moved rank]
    rw [Finset.sum_congr rfl fun rank _ => sent rank,
      Finset.sum_congr rfl fun rank _ => received rank]
    exact sound.counts
  · intro rank final
    rw [moved rank] at final
    obtain ⟨ends, agree⟩ := all_of_finished final
    refine ⟨sound.inFlight_eq_nil all agree, ?_⟩
    intro other
    obtain ⟨ids, same⟩ := sound.contributions_eq all
    have member : (cluster.impl other).lbtsMessage (ids other) ∈ contributions cluster := by
      rw [same]
      exact List.mem_ofFn.mpr ⟨other, rfl⟩
    rw [moved other]
    exact ⟨ends _ member, final⟩

variable {network : Network size} {bound : Fin size → Int}

/-- What a rank sends arrives after the window of its receiver. -/
theorem Sound.transmitStart (bounded : ∀ rank, bound rank ≤ maximumSimulationTime)
    (sound : Sound (calculateLookAhead network.nodes bound) base cluster)
    (stage : (cluster.impl rank).stage = .handling) {device : NetDevice size}
    {channel : Channel size} (remote : IsRemote network.nodes rank device channel) {txTime : Int}
    (nonneg : 0 ≤ txTime)
    (small : (cluster.impl rank).currentTs + txTime + channel.delay < 2 ^ 63)
    (room : cluster.inFlight.length + 1 < 2 ^ 32) (node dev packet : Nat) :
    Sound (calculateLookAhead network.nodes bound) base
      (cluster.transmitStart rank (device.remoteSystemId channel) channel.delay txTime node dev
        packet) := by
  have inWindow := (sound.ranks rank).atStage
  rw [stage] at inWindow
  have base_le : base ≤ (cluster.impl rank).currentTs := inWindow
  obtain ⟨peer, fromPeer⟩ := network.paired remote
  have ahead := calculateLookAhead_le bounded fromPeer
  have delayed := network.delayed remote
  have sent : RankSound (calculateLookAhead network.nodes bound rank) base
      { cluster.impl rank with txCount := wrap 32 ((cluster.impl rank).txCount + 1) } := by
    refine ⟨(sound.ranks rank).steady.discard rfl rfl rfl (le_refl _) id, ?_⟩
    rw [stage]
    exact base_le
  refine sound.exchange sent (.inr stage) rfl rfl ?_ ?_ room
  · intro message waits
    rcases List.mem_cons.mp waits with rfl | before
    · have time : (wrapInt 64 ((cluster.impl rank).currentTs + txTime + channel.delay) : Int) =
          (cluster.impl rank).currentTs + txTime + channel.delay := by
        rw [wrapInt]
        omega
      constructor
      · dsimp only
        omega
      · dsimp only
        omega
    · exact sound.arrives message before
  · have wrapped : Nat.ModEq (2 ^ 32) (wrap 32 ((cluster.impl rank).txCount + 1))
        ((cluster.impl rank).txCount + 1) := Nat.mod_modEq _ _
    rw [List.length_cons]
    unfold Nat.ModEq at *
    dsimp only at *
    omega

/-- A rank takes a message off the network. -/
theorem Sound.receive (sound : Sound lookAhead base cluster)
    (lookAheadNonneg : ∀ rank, 0 ≤ lookAhead rank) {message : Message size}
    (stage : (cluster.impl message.rank).stage = .receiving) (waits : message ∈ cluster.inFlight)
    (event : Nat) :
    Sound lookAhead base { cluster.goOn message.rank
      ((cluster.impl message.rank).receive message.time message.node event) with
        inFlight := cluster.inFlight.erase message } := by
  obtain ⟨arrives, small⟩ := sound.arrives message waits
  have length := List.length_erase_of_mem waits
  have positive := List.length_pos_of_mem waits
  have room := sound.room
  apply sound.exchange ((sound.ranks message.rank).receive stage arrives
    (lookAheadNonneg message.rank) small message.node event) (.inl stage) rfl rfl _ _ (by omega)
  · exact fun other remains => sound.arrives other (List.mem_of_mem_erase remains)
  · have wrapped : Nat.ModEq (2 ^ 32) (wrap 32 ((cluster.impl message.rank).rxCount + 1))
        ((cluster.impl message.rank).rxCount + 1) := Nat.mod_modEq _ _
    show Nat.ModEq (2 ^ 32) ((cluster.impl message.rank).txCount + _ + _)
      (wrap 32 ((cluster.impl message.rank).rxCount + 1) + _ + _)
    rw [length]
    unfold Nat.ModEq at *
    omega

/-- What one step preserves, over a base that may move. -/
theorem Sound.step (bounded : ∀ rank, bound rank ≤ maximumSimulationTime)
    (nonneg : ∀ rank, 0 ≤ bound rank)
    (sound : Sound (calculateLookAhead network.nodes bound) base cluster) {action : Action size}
    (enabled : Cluster.Enabled network cluster action) :
    ∃ moved, Sound (calculateLookAhead network.nodes bound) moved (cluster.step action) := by
  have lookAheadNonneg : ∀ rank, 0 ≤ calculateLookAhead network.nodes bound rank :=
    fun rank => calculateLookAhead_nonneg nonneg
  cases action with
  | loop rank =>
      have sameCounts : ∀ self : DistributedSimulatorImpl,
          self.enterLoop.txCount = self.txCount ∧ self.enterLoop.rxCount = self.rxCount := by
        intro self
        rw [DistributedSimulatorImpl.enterLoop]
        split
        · exact ⟨rfl, rfl⟩
        · split <;> exact ⟨rfl, rfl⟩
      exact ⟨base, sound.goOn (sound.ranks rank).enterLoop (sameCounts _).1 (sameCounts _).2
        (.enterLoop enabled)⟩
  | receive message event =>
      exact ⟨base, sound.receive lookAheadNonneg enabled.1 enabled.2 event⟩
  | contribute rank =>
      exact ⟨base, sound.goOn ((sound.ranks rank).contribute rank) rfl rfl
        (.contribute enabled rank)⟩
  | allgather => exact ⟨_, sound.allgather enabled⟩
  | conclude rank =>
      obtain ⟨nextTime, lbts, stage⟩ := enabled
      refine ⟨base, ?_⟩
      rw [Cluster.step, stage]
      exact sound.goOn ((sound.ranks rank).conclude stage (lookAheadNonneg rank)) rfl rfl
        (.conclude stage)
  | processOneEvent rank next =>
      exact ⟨base, sound.goOn ((sound.ranks rank).processOneEvent enabled.1 enabled.2) rfl rfl
        (.processOneEvent enabled.1)⟩
  | skip rank =>
      obtain ⟨nextTime, stage, _⟩ := enabled
      exact ⟨base, sound.goOn (sound.ranks rank).again rfl rfl (.skip stage)⟩
  | call rank call =>
      obtain ⟨_, _, _, sent, received⟩ := perform_stage (cluster.impl rank) call
      exact ⟨base, sound.goOn ((sound.ranks rank).perform enabled.1 enabled.2) sent received
        (.perform enabled.1 call)⟩
  | transmitStart rank device channel txTime node dev packet =>
      obtain ⟨stage, remote, txTimeNonneg, small, room⟩ := enabled
      exact ⟨base, sound.transmitStart bounded stage remote txTimeNonneg small room node dev
        packet⟩
  | finishEvent rank =>
      exact ⟨base, sound.goOn (sound.ranks rank).again rfl rfl (.finishEvent enabled)⟩

/-- Before the first step, the base is the start of the simulation. -/
theorem sound_enterRun (nonneg : ∀ rank, 0 ≤ bound rank) {events : Fin size → Multiset Event}
    (fits : ∀ rank, ∀ ev ∈ events rank, ev.key.ts < 2 ^ 63) (uid : Fin size → Nat) :
    Sound (calculateLookAhead network.nodes bound) 0 (.enterRun network bound events uid) where
  nonneg := le_refl 0
  small := by decide
  ranks rank := by
    have ahead : 0 ≤ calculateLookAhead network.nodes bound rank := calculateLookAhead_nonneg nonneg
    refine ⟨⟨rfl, ?_, ?_, Nat.two_pow_pos 63, fun _ _ => Nat.zero_le _, fits rank,
      fun _ _ _ => Int.natCast_nonneg _⟩, trivial⟩
    · exact le_of_eq (zero_add _).symm
    · exact (zero_add (calculateLookAhead network.nodes bound rank)).symm ▸ ahead
  arrives _ waits := nomatch waits
  counts := by
    have sent : ∀ rank, ((Cluster.enterRun network bound events uid).impl rank).txCount = 0 :=
      fun _ => rfl
    have received : ∀ rank, ((Cluster.enterRun network bound events uid).impl rank).rxCount = 0 :=
      fun _ => rfl
    rw [Finset.sum_congr rfl fun rank _ => sent rank,
      Finset.sum_congr rfl fun rank _ => received rank]
    rfl
  room := Nat.two_pow_pos 32
  halted _ final := absurd final Bool.false_ne_true

end Cluster

/-- No event and no message is in the past of the rank that handles it, and when a rank has left the
loop, no message is on its way and every rank has finished. -/
structure Causal (cluster : Cluster size) : Prop where
  events : ∀ rank, ∀ ev ∈ (cluster.impl rank).events, (cluster.impl rank).currentTs ≤ ev.key.ts
  messages : ∀ message ∈ cluster.inFlight, (cluster.impl message.rank).currentTs ≤ message.time
  halted : ∀ rank, (cluster.impl rank).stage = .left →
    cluster.inFlight = [] ∧ ∀ other, (cluster.impl other).isLocalFinished = true

theorem Sound.causal {lookAhead : Fin size → Int} {base : Int} {cluster : Cluster size}
    (sound : Sound lookAhead base cluster) : Causal cluster where
  events rank := (sound.ranks rank).steady.ordered
  messages message waits := by
    have current := (sound.ranks message.rank).steady.current
    have arrives := (sound.arrives message waits).1
    omega
  halted rank stage := by
    have final : Final (cluster.impl rank) := (final_of_stage stage).mpr trivial
    obtain ⟨nothing, atEnd⟩ := sound.halted rank final
    exact ⟨nothing, fun other => (atEnd other).1⟩

/-- Every run is causal, however the ranks and the network interleave. -/
theorem always_causal (network : Network size) {bound : Fin size → Int}
    (nonneg : ∀ rank, 0 ≤ bound rank) (bounded : ∀ rank, bound rank ≤ maximumSimulationTime)
    {events : Fin size → Multiset Event}
    (fits : ∀ rank, ∀ ev ∈ events rank, ev.key.ts < 2 ^ 63) (uid : Fin size → Nat)
    {actions : List (Action size)}
    (legal : (Cluster.machine network).Legal (.enterRun network bound events uid) actions) :
    (Cluster.machine network).Always Causal (.enterRun network bound events uid) actions := by
  have always : (Cluster.machine network).Always
      (fun cluster => ∃ base, Sound (calculateLookAhead network.nodes bound) base cluster)
      (.enterRun network bound events uid) actions := by
    apply Machine.Legal.always _ ⟨0, sound_enterRun nonneg fits uid⟩ legal
    rintro cluster action ⟨base, sound⟩ enabled
    exact sound.step bounded nonneg enabled
  apply Machine.Always.mono _ always
  rintro cluster ⟨base, sound⟩
  exact sound.causal

section Pair

/-- A link between two ranks. -/
def pairChannel : Channel 2 := ⟨⟨0, 0⟩, ⟨1, 1⟩, 2⟩

/-- The device at an end of the link. -/
def pairDevice (id : Nat) : NetDevice 2 := ⟨id, true, some pairChannel⟩

/-- Two ranks with a node each. -/
def pairNodes : List (Node 2) := [⟨0, [pairDevice 0]⟩, ⟨1, [pairDevice 1]⟩]

theorem isRemote_pair : IsRemote pairNodes 0 (pairDevice 0) pairChannel :=
  ⟨⟨⟨0, [pairDevice 0]⟩, by decide, rfl, by decide⟩, rfl, rfl, by decide⟩

theorem isRemote_pair_back : IsRemote pairNodes 1 (pairDevice 1) pairChannel :=
  ⟨⟨⟨1, [pairDevice 1]⟩, by decide, rfl, by decide⟩, rfl, rfl, by decide⟩

theorem isRemote_pair_cases {rank : Fin 2} {device : NetDevice 2} {channel : Channel 2}
    (remote : IsRemote pairNodes rank device channel) :
    channel = pairChannel ∧ (device = pairDevice 0 ∨ device = pairDevice 1) := by
  obtain ⟨node, member, _, installed⟩ := remote.installed
  have attached := remote.attached
  rcases List.mem_cons.mp member with rfl | last
  · rw [List.mem_singleton.mp installed] at attached ⊢
    exact ⟨(Option.some.inj attached).symm, .inl rfl⟩
  · rw [List.mem_singleton.mp last] at installed
    rw [List.mem_singleton.mp installed] at attached ⊢
    exact ⟨(Option.some.inj attached).symm, .inr rfl⟩

/-- The two ranks and their link. -/
def pairNetwork : Network 2 where
  nodes := pairNodes
  paired remote := by
    obtain ⟨rfl, rfl | rfl⟩ := isRemote_pair_cases remote
    · exact ⟨_, isRemote_pair_back⟩
    · exact ⟨_, isRemote_pair⟩
  delayed remote := by
    obtain ⟨rfl, _⟩ := isRemote_pair_cases remote
    decide

/-- The first rank has an event, the second has none. -/
def pairEvents (rank : Fin 2) : Multiset Event := if rank = 0 then {⟨1, 1, 4, 0⟩} else 0

/-- The first rank sends in its event, and the second takes the message. -/
def pairRun : List (Action 2) :=
  [.loop 0, .processOneEvent 0 ⟨1, 1, 4, 0⟩, .transmitStart 0 (pairDevice 0) pairChannel 0 1 1 7,
    .loop 1, .receive ⟨1, 3, 1, 1, 7⟩ 9]

theorem legal_pairRun : (Cluster.machine pairNetwork).Legal
    (.enterRun pairNetwork (fun _ => maximumSimulationTime) pairEvents fun _ => 5) pairRun := by
  refine ⟨rfl, ⟨⟨1, by decide, by decide⟩, by decide, by decide⟩,
    ⟨by decide, isRemote_pair, by decide, by decide, by decide⟩, rfl,
    ⟨by decide, by decide⟩, trivial⟩

theorem always_causal_pair : (Cluster.machine pairNetwork).Always Causal
    (.enterRun pairNetwork (fun _ => maximumSimulationTime) pairEvents fun _ => 5) pairRun :=
  always_causal pairNetwork (fun _ => by decide) (fun _ => le_refl _)
    (by decide) (fun _ => 5) legal_pairRun

end Pair

end Ns3.Mpi
