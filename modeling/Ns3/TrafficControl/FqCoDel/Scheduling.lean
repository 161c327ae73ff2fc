import Ns3.Library.Machine
import Ns3.TrafficControl.FqCoDel.Kernel

/-!
The lists of flows of `ns3::FqCoDelQueueDisc` over runs of `Enqueue` and `Dequeue`.

The status of a flow says in which list it is, and a flow with packets is in one of them. So
`Dequeue` gives nothing only if no flow has a packet.
-/

namespace Ns3.TrafficControl.FqCoDel

open Library FqCoDelQueueDisc

variable {config : Config} {largest : Nat}

/-- What a flow keeps: it is active if it has packets, and its deficit is within the bounds if it
is active. -/
structure FqCoDelFlow.Fair (config : Config) (largest : Nat) (flow : FqCoDelFlow) : Prop where
  active : flow.queue ≠ [] → flow.status ≠ .inactive
  deficit : flow.status ≠ .inactive →
    -(largest : Int) < flow.deficit ∧ flow.deficit ≤ config.quantum
  size : ∀ item ∈ flow.queue, item.size ≤ largest

/-- Each flow is once in the list of its status, and in no other one. -/
structure FqCoDelQueueDisc.Listed (disc : FqCoDelQueueDisc) : Prop where
  newFlows : ∀ place, disc.newFlows.count place =
    if (disc.flow place).status = .newFlow then 1 else 0
  oldFlows : ∀ place, disc.oldFlows.count place =
    if (disc.flow place).status = .oldFlow then 1 else 0

/-- What the queue disc keeps. -/
structure FqCoDelQueueDisc.Scheduled (config : Config) (largest : Nat) (disc : FqCoDelQueueDisc) :
    Prop where
  listed : disc.Listed
  fair : ∀ place, (disc.flow place).Fair config largest
  unused : ∀ place, disc.nQueueDiscClasses ≤ place → disc.flow place = {}
  indexed : ∀ h place, disc.flowsIndices h = some place → place < disc.nQueueDiscClasses

namespace FqCoDelFlow.Fair

variable {flow : FqCoDelFlow}

theorem isSigned_of_bounds {deficit : Int} (small : largest < 2 ^ 31)
    (low : -(largest : Int) < deficit) (high : deficit ≤ config.quantum) : IsSigned 32 deficit := by
  have bound := config.quantum_lt
  constructor
  · simp only [Nat.reduceSub]
    omega
  · simp only [Nat.reduceSub]
    omega

/-- A flow that is out of credit gets some. -/
theorem increaseDeficit (fair : flow.Fair config largest) (small : largest < 2 ^ 31)
    (active : flow.status ≠ .inactive) (spent : flow.deficit ≤ 0) :
    (flow.increaseDeficit config.quantum).Fair config largest := by
  obtain ⟨low, high⟩ := fair.deficit active
  have grown : signed 32 (flow.deficit + config.quantum) = flow.deficit + config.quantum :=
    signed_of_isSigned (by decide)
      (@isSigned_of_bounds config largest _ small (by omega) (by omega))
  refine ⟨fair.active, fun _ => ?_, fair.size⟩
  unfold FqCoDelFlow.increaseDeficit
  dsimp only
  rw [grown]
  omega

/-- A flow pays for a packet. -/
theorem pay (fair : flow.Fair config largest) (small : largest < 2 ^ 31)
    (positive : 0 < flow.deficit) {size : Nat} (bounded : size ≤ largest)
    (active : flow.status ≠ .inactive) :
    (flow.increaseDeficit (signed 32 (-size))).Fair config largest := by
  obtain ⟨low, high⟩ := fair.deficit active
  have cost : signed 32 (-(size : Int)) = -size := by
    refine signed_of_isSigned (by decide) ⟨?_, ?_⟩
    · simp only [Nat.reduceSub]
      omega
    · simp only [Nat.reduceSub]
      omega
  have paid : signed 32 (flow.deficit + -size) = flow.deficit + -size :=
    signed_of_isSigned (by decide)
      (@isSigned_of_bounds config largest _ small (by omega) (by omega))
  refine ⟨fair.active, fun _ => ?_, fair.size⟩
  unfold FqCoDelFlow.increaseDeficit
  dsimp only
  rw [cost, paid]
  omega

/-- Packets may be removed from an active flow. -/
theorem shorten (fair : flow.Fair config largest) {queue : List Item}
    (subset : queue ⊆ flow.queue) : ({ flow with queue := queue }).Fair config largest := by
  refine ⟨fun some => fair.active fun none => ?_, fair.deficit, fun item mem =>
    fair.size item (subset mem)⟩
  rw [none] at subset
  exact some (List.subset_nil.mp subset)

theorem mono (fair : flow.Fair config largest) {larger : Nat} (grows : largest ≤ larger) :
    flow.Fair config larger := by
  refine ⟨fair.active, fun active => ?_, fun item mem => (fair.size item mem).trans grows⟩
  obtain ⟨low, high⟩ := fair.deficit active
  omega

end FqCoDelFlow.Fair

namespace FqCoDelQueueDisc

variable {disc : FqCoDelQueueDisc} {place : Nat} {rest : List Nat}

/-- A new flow at the head has this status, and is in no list besides. -/
theorem Listed.head_new (listed : disc.Listed) (isNew : disc.newFlows = place :: rest) :
    (disc.flow place).status = .newFlow ∧ rest.count place = 0 := by
  have count := listed.newFlows place
  rw [isNew, List.count_cons_self] at count
  split at count
  · next status => exact ⟨status, by omega⟩
  · omega

theorem Listed.head_old (listed : disc.Listed) (isOld : disc.oldFlows = place :: rest) :
    (disc.flow place).status = .oldFlow ∧ rest.count place = 0 := by
  have count := listed.oldFlows place
  rw [isOld, List.count_cons_self] at count
  split at count
  · next status => exact ⟨status, by omega⟩
  · omega

/-- A flow is changed that keeps its status. -/
theorem Listed.modify (listed : disc.Listed) (change : FqCoDelFlow → FqCoDelFlow)
    (same : (change (disc.flow place)).status = (disc.flow place).status) :
    (disc.modify place change).Listed := by
  have status (other : Nat) :
      ((disc.modify place change).flow other).status = (disc.flow other).status := by
    by_cases here : other = place
    · subst here
      simpa [FqCoDelQueueDisc.modify] using same
    · simp [FqCoDelQueueDisc.modify, here]
  constructor
  · intro other
    rw [status]
    exact listed.newFlows other
  · intro other
    rw [status]
    exact listed.oldFlows other

/-- The first new flow goes to the end of the old ones. -/
theorem Listed.demote (listed : disc.Listed) (isNew : disc.newFlows = place :: rest)
    {flow : FqCoDelFlow} (isOld : flow.status = .oldFlow) :
    ({ disc.modify place fun _ => flow with
      oldFlows := disc.oldFlows ++ [place], newFlows := rest } : FqCoDelQueueDisc).Listed := by
  obtain ⟨status, once⟩ := listed.head_new isNew
  constructor
  · intro other
    have count := listed.newFlows other
    rw [isNew] at count
    by_cases here : other = place
    · subst here
      simp [FqCoDelQueueDisc.modify, isOld, once]
    · simpa [FqCoDelQueueDisc.modify, here, List.count_cons_of_ne (Ne.symm here)] using count
  · intro other
    have count := listed.oldFlows other
    by_cases here : other = place
    · subst here
      simp [status] at count
      simp [FqCoDelQueueDisc.modify, isOld, List.count_append, count]
    · simpa [FqCoDelQueueDisc.modify, here, List.count_append, List.count_cons_of_ne (Ne.symm here)]
        using count

/-- The first old flow goes to the end. -/
theorem Listed.rotate (listed : disc.Listed) (isOld : disc.oldFlows = place :: rest) :
    ({ disc with oldFlows := rest ++ [place] } : FqCoDelQueueDisc).Listed := by
  refine ⟨listed.newFlows, fun other => ?_⟩
  have count := listed.oldFlows other
  rw [isOld] at count
  rw [← count, List.count_append, List.count_singleton, List.count_cons]

/-- The first old flow leaves the lists. -/
theorem Listed.leave (listed : disc.Listed) (isOld : disc.oldFlows = place :: rest)
    {flow : FqCoDelFlow} (inactive : flow.status = .inactive) :
    ({ disc.modify place fun _ => flow with oldFlows := rest } : FqCoDelQueueDisc).Listed := by
  obtain ⟨status, once⟩ := listed.head_old isOld
  constructor
  · intro other
    have count := listed.newFlows other
    by_cases here : other = place
    · subst here
      simp [status] at count
      simp [FqCoDelQueueDisc.modify, inactive, count]
    · simpa [FqCoDelQueueDisc.modify, here] using count
  · intro other
    have count := listed.oldFlows other
    rw [isOld] at count
    by_cases here : other = place
    · subst here
      simp [FqCoDelQueueDisc.modify, inactive, once]
    · simpa [FqCoDelQueueDisc.modify, here, List.count_cons_of_ne (Ne.symm here)] using count

/-- An inactive flow becomes a new one. -/
theorem Listed.enter (listed : disc.Listed) (inactive : (disc.flow place).status = .inactive)
    {flow : FqCoDelFlow} (isNew : flow.status = .newFlow) :
    ({ disc.modify place fun _ => flow with newFlows := disc.newFlows ++ [place] } :
      FqCoDelQueueDisc).Listed := by
  constructor
  · intro other
    have count := listed.newFlows other
    by_cases here : other = place
    · subst here
      simp [inactive] at count
      simp [FqCoDelQueueDisc.modify, isNew, List.count_append, count]
    · simpa [FqCoDelQueueDisc.modify, here, List.count_append, List.count_cons_of_ne (Ne.symm here)]
        using count
  · intro other
    have count := listed.oldFlows other
    by_cases here : other = place
    · subst here
      simp [inactive] at count
      simp [FqCoDelQueueDisc.modify, isNew, count]
    · simpa [FqCoDelQueueDisc.modify, here] using count

/-- A flow that is listed is one of the classes. -/
theorem Scheduled.lt_classes (scheduled : disc.Scheduled config largest)
    (active : (disc.flow place).status ≠ .inactive) : place < disc.nQueueDiscClasses := by
  by_contra unused
  exact active (congrArg FqCoDelFlow.status (scheduled.unused place (by omega)))

/-- What every flow keeps when one of the classes is changed. -/
theorem Scheduled.fair_modify (scheduled : disc.Scheduled config largest) {flow : FqCoDelFlow}
    (fair : flow.Fair config largest) (other : Nat) :
    ((disc.modify place fun _ => flow).flow other).Fair config largest := by
  by_cases here : other = place
  · subst here
    simpa [modify] using fair
  · simpa [modify, here] using scheduled.fair other

theorem Scheduled.unused_modify (scheduled : disc.Scheduled config largest)
    (inside : place < disc.nQueueDiscClasses) (flow : FqCoDelFlow) (other : Nat)
    (outside : disc.nQueueDiscClasses ≤ other) :
    (disc.modify place fun _ => flow).flow other = {} := by
  have apart : other ≠ place := by omega
  simpa [modify, apart] using scheduled.unused other outside

theorem Scheduled.demote (scheduled : disc.Scheduled config largest) (small : largest < 2 ^ 31)
    (isNew : disc.newFlows = place :: rest) (spent : (disc.flow place).deficit ≤ 0) :
    (disc.demote config place rest).Scheduled config largest := by
  have active : (disc.flow place).status ≠ .inactive := by
    simp [(scheduled.listed.head_new isNew).1]
  have increased := (scheduled.fair place).increaseDeficit small active spent
  have fair : (((disc.flow place).increaseDeficit config.quantum).setStatus .oldFlow).Fair config
      largest :=
    ⟨by simp [FqCoDelFlow.setStatus], fun _ => increased.deficit active, increased.size⟩
  exact ⟨scheduled.listed.demote isNew rfl, scheduled.fair_modify fair,
    scheduled.unused_modify (scheduled.lt_classes active) _, scheduled.indexed⟩

theorem Scheduled.rotate (scheduled : disc.Scheduled config largest) (small : largest < 2 ^ 31)
    (isOld : disc.oldFlows = place :: rest) (spent : (disc.flow place).deficit ≤ 0) :
    (disc.rotate config place rest).Scheduled config largest := by
  have active : (disc.flow place).status ≠ .inactive := by
    simp [(scheduled.listed.head_old isOld).1]
  have fair := (scheduled.fair place).increaseDeficit small active spent
  have listed : (disc.modify place (·.increaseDeficit config.quantum)).Listed :=
    scheduled.listed.modify _ rfl
  exact ⟨listed.rotate isOld, scheduled.fair_modify fair,
    scheduled.unused_modify (scheduled.lt_classes active) _, scheduled.indexed⟩

/-- The loops keep the schedule, and find a flow with a positive deficit. -/
theorem Scheduled.search (scheduled : disc.Scheduled config largest) (small : largest < 2 ^ 31) :
    (disc.search config).Scheduled config largest ∧
      ∀ place, (disc.search config).found = some place →
        0 < ((disc.search config).flow place).deficit :=
  search_rule (fun _ _ _ scheduled isNew spent => scheduled.demote small isNew spent)
    (fun _ _ _ scheduled isOld spent => scheduled.rotate small isOld spent) scheduled

/-- A flow that is found is active. -/
theorem Scheduled.found_active (scheduled : disc.Scheduled config largest)
    (isFound : disc.found = some place) : (disc.flow place).status ≠ .inactive := by
  unfold found at isFound
  cases isNew : disc.newFlows with
  | cons first rest =>
      rw [isNew] at isFound
      cases isFound
      simp [(scheduled.listed.head_new isNew).1]
  | nil =>
      cases isOld : disc.oldFlows with
      | nil =>
          rw [isNew, isOld] at isFound
          cases isFound
      | cons first rest =>
          rw [isNew, isOld] at isFound
          cases isFound
          simp [(scheduled.listed.head_old isOld).1]

/-- If no flow is found, there is no packet. -/
theorem Scheduled.queue_of_notFound (scheduled : disc.Scheduled config largest)
    (notFound : disc.found = none) (place : Nat) : (disc.flow place).queue = [] := by
  rw [found, List.head?_eq_none_iff, List.append_eq_nil_iff] at notFound
  obtain ⟨noNew, noOld⟩ := notFound
  have countNew := scheduled.listed.newFlows place
  have countOld := scheduled.listed.oldFlows place
  rw [noNew] at countNew
  rw [noOld] at countOld
  by_contra backlog
  have active := (scheduled.fair place).active backlog
  cases status : (disc.flow place).status with
  | inactive => exact active status
  | newFlow => simp [status] at countNew
  | oldFlow => simp [status] at countOld

/-- A flow that has given no packet leaves its list. -/
theorem Scheduled.retire (scheduled : disc.Scheduled config largest)
    (isFound : disc.found = some place) (empty : (disc.flow place).queue = []) :
    (disc.retire place).Scheduled config largest := by
  have inside := scheduled.lt_classes (scheduled.found_active isFound)
  have active := scheduled.found_active isFound
  have fair := scheduled.fair place
  have old : ((disc.flow place).setStatus .oldFlow).Fair config largest :=
    ⟨by simp [FqCoDelFlow.setStatus], fun _ => fair.deficit active, fair.size⟩
  have inactive : ((disc.flow place).setStatus .inactive).Fair config largest :=
    ⟨fun some => absurd empty some, fun other => absurd rfl other, fair.size⟩
  unfold FqCoDelQueueDisc.retire
  unfold found at isFound
  cases isNew : disc.newFlows with
  | cons first rest =>
      rw [isNew] at isFound
      cases isFound
      exact ⟨scheduled.listed.demote isNew rfl, scheduled.fair_modify old,
        scheduled.unused_modify inside _, scheduled.indexed⟩
  | nil =>
      cases isOld : disc.oldFlows with
      | nil =>
          rw [isNew, isOld] at isFound
          cases isFound
      | cons first rest =>
          rw [isNew, isOld] at isFound
          cases isFound
          have left := scheduled.listed.leave isOld
            (show ((disc.flow place).setStatus .inactive).status = .inactive from rfl)
          exact ⟨left, scheduled.fair_modify inactive, scheduled.unused_modify inside _, scheduled.indexed⟩

/-- What a child gives: nothing if it has nothing left, or one of its packets. -/
theorem dequeue_spec (flow : FqCoDelFlow) (drops : Nat) :
    ∃ queue, queue ⊆ flow.queue ∧ (flow.dequeue drops).1 = { flow with queue := queue } ∧
      ((flow.dequeue drops).2 = none → queue = []) ∧
      ∀ item, (flow.dequeue drops).2 = some item → item ∈ flow.queue := by
  have inside := List.drop_subset drops flow.queue
  unfold FqCoDelFlow.dequeue
  cases isDropped : flow.queue.drop drops with
  | nil => exact ⟨[], by simp, rfl, fun _ => rfl, by simp⟩
  | cons first rest =>
      rw [isDropped] at inside
      refine ⟨rest, fun item mem => inside (List.mem_cons_of_mem first mem), rfl, by simp, ?_⟩
      rintro item ⟨⟩
      exact inside List.mem_cons_self

/-- `DoDequeue` keeps the schedule, and gives nothing only if no packet is left. -/
theorem Scheduled.doDequeueFrom (scheduled : disc.Scheduled config largest)
    (small : largest < 2 ^ 31) (drops : Nat → Nat) (call : Nat) :
    (disc.doDequeueFrom config drops call).1.Scheduled config largest ∧
      ((disc.doDequeueFrom config drops call).2 = none →
        ∀ place, ((disc.doDequeueFrom config drops call).1.flow place).queue = []) := by
  fun_induction FqCoDelQueueDisc.doDequeueFrom config drops call disc with
  | case1 call disc notFound =>
      have searched := (scheduled.search small).1
      exact ⟨searched, fun _ => searched.queue_of_notFound notFound⟩
  | case2 call disc place isFound flow isDequeued inductionHypothesis =>
      have searched := (scheduled.search small).1
      have active := searched.found_active isFound
      obtain ⟨queue, subset, isFlow, isEmpty, _⟩ :=
        dequeue_spec ((disc.search config).flow place) (drops call)
      rw [isDequeued] at isFlow isEmpty
      have empty := isEmpty rfl
      subst isFlow empty
      have emptied : ((disc.search config).modify place fun _ =>
          { (disc.search config).flow place with queue := [] }).Scheduled config largest :=
        ⟨searched.listed.modify _ rfl, searched.fair_modify ((searched.fair place).shorten subset),
          searched.unused_modify (searched.lt_classes active) _, searched.indexed⟩
      refine inductionHypothesis (emptied.retire isFound ?_)
      simp [modify]
  | case3 call disc place isFound flow item isDequeued =>
      obtain ⟨searched, isPositive⟩ := scheduled.search small
      have active := searched.found_active isFound
      obtain ⟨queue, subset, isFlow, _, isItem⟩ :=
        dequeue_spec ((disc.search config).flow place) (drops call)
      rw [isDequeued] at isFlow isItem
      have bounded := (searched.fair place).size item (isItem item rfl)
      subst isFlow
      have fair := ((searched.fair place).shorten subset).pay small (isPositive place isFound)
        bounded active
      dsimp only
      refine ⟨⟨searched.listed.modify _ rfl, searched.fair_modify fair,
        searched.unused_modify (searched.lt_classes active) _, searched.indexed⟩, by simp⟩

theorem Scheduled.mono (scheduled : disc.Scheduled config largest) {larger : Nat}
    (grows : largest ≤ larger) : disc.Scheduled config larger :=
  { scheduled with fair := fun place => (scheduled.fair place).mono grows }

theorem Scheduled.classify (scheduled : disc.Scheduled config largest) (flowHash : Nat) :
    (disc.classify config flowHash).1.Scheduled config largest := by
  unfold FqCoDelQueueDisc.classify setAssociativeHash
  split
  · dsimp only
    exact ⟨⟨scheduled.listed.newFlows, scheduled.listed.oldFlows⟩, scheduled.fair,
      scheduled.unused, scheduled.indexed⟩
  · exact scheduled

/-- The flow of a packet is one of the classes, or becomes one. -/
theorem Scheduled.findFlow (scheduled : disc.Scheduled config largest) (h : Nat) :
    (disc.findFlow h).1.Scheduled config largest ∧
      (disc.findFlow h).2 < (disc.findFlow h).1.nQueueDiscClasses := by
  unfold FqCoDelQueueDisc.findFlow
  cases isPlace : disc.flowsIndices h with
  | some place => exact ⟨scheduled, scheduled.indexed h place isPlace⟩
  | none =>
      have empty := scheduled.unused disc.nQueueDiscClasses (Nat.le_refl _)
      have listed := @Listed.modify disc disc.nQueueDiscClasses scheduled.listed
        (fun _ => { index := h }) (by rw [empty])
      have fair : ({ index := h } : FqCoDelFlow).Fair config largest :=
        ⟨by simp, by simp, by simp⟩
      refine ⟨⟨⟨listed.newFlows, listed.oldFlows⟩, scheduled.fair_modify fair, ?_, ?_⟩,
        Nat.lt_succ_self _⟩
      · intro other outside
        dsimp only at outside
        have apart : other ≠ disc.nQueueDiscClasses := by omega
        simpa [apart] using scheduled.unused other (by omega)
      · intro h' place isPlace'
        dsimp only at isPlace' ⊢
        by_cases same : h' = h
        · subst same
          rw [Function.update_self] at isPlace'
          cases isPlace'
          omega
        · rw [Function.update_of_ne same] at isPlace'
          have inside := scheduled.indexed h' place isPlace'
          omega

/-- The flow of a packet is active afterwards. -/
theorem Scheduled.activate (scheduled : disc.Scheduled config largest)
    (inside : place < disc.nQueueDiscClasses) :
    (disc.activate config place).Scheduled config largest ∧
      ((disc.activate config place).flow place).status ≠ .inactive ∧
      (disc.activate config place).nQueueDiscClasses = disc.nQueueDiscClasses := by
  have positive := config.quantum_pos
  have bound := config.quantum_lt
  unfold FqCoDelQueueDisc.activate
  split
  case isFalse active => exact ⟨scheduled, active, rfl⟩
  case isTrue inactive =>
    have credit : signed 32 (config.quantum : Int) = config.quantum := by
      refine signed_of_isSigned (by decide) ⟨?_, ?_⟩
      · simp only [Nat.reduceSub]
        omega
      · simp only [Nat.reduceSub]
        omega
    have fair : (((disc.flow place).setStatus .newFlow).setDeficit config.quantum).Fair config
        largest := by
      unfold FqCoDelFlow.setStatus FqCoDelFlow.setDeficit
      rw [credit]
      refine ⟨by simp, fun _ => ?_, (scheduled.fair place).size⟩
      dsimp only
      omega
    refine ⟨⟨scheduled.listed.enter inactive rfl, scheduled.fair_modify fair,
      scheduled.unused_modify inside _, scheduled.indexed⟩, ?_, rfl⟩
    simp [modify, FqCoDelFlow.setStatus, FqCoDelFlow.setDeficit]

/-- A packet comes to an active flow, or is refused. -/
theorem Scheduled.enqueue (scheduled : disc.Scheduled config largest)
    (active : (disc.flow place).status ≠ .inactive) {item : Item} (bounded : item.size ≤ largest)
    (maxSize : Nat) :
    (disc.modify place (·.enqueue maxSize item)).Scheduled config largest := by
  have inside := scheduled.lt_classes active
  have status : ((disc.flow place).enqueue maxSize item).status = (disc.flow place).status := by
    unfold FqCoDelFlow.enqueue
    split <;> rfl
  have fair : ((disc.flow place).enqueue maxSize item).Fair config largest := by
    have before := scheduled.fair place
    unfold FqCoDelFlow.enqueue
    split
    · exact before
    · refine ⟨fun _ => active, before.deficit, fun other mem => ?_⟩
      rcases List.mem_append.mp mem with old | new
      · exact before.size other old
      · cases List.mem_singleton.mp new
        exact bounded
  exact ⟨scheduled.listed.modify _ status, scheduled.fair_modify fair,
    scheduled.unused_modify inside _, scheduled.indexed⟩

theorem dropBatch_subset (threshold : Nat) (queue : List Item) (count len : Nat) :
    dropBatch config threshold queue count len ⊆ queue := by
  fun_induction dropBatch config threshold queue count len with
  | case1 => exact List.Subset.refl _
  | case2 item rest count len more inductionHypothesis =>
      exact fun other mem => List.mem_cons_of_mem item (inductionHypothesis mem)
  | case3 item rest count len enough => exact List.subset_cons_self item rest

/-- `FqCoDelDrop` takes packets from one flow, and leaves it where it is. -/
theorem Scheduled.fqCoDelDrop (scheduled : disc.Scheduled config largest) :
    (disc.fqCoDelDrop config).Scheduled config largest := by
  unfold FqCoDelQueueDisc.fqCoDelDrop
  obtain ⟨index, maxBacklog⟩ := disc.fatFlow
  dsimp only
  have fair := (scheduled.fair index).shorten
    (@dropBatch_subset config (maxBacklog >>> 1) (disc.flow index).queue 0 0)
  refine ⟨scheduled.listed.modify _ rfl, scheduled.fair_modify fair, ?_, scheduled.indexed⟩
  intro other outside
  have empty := scheduled.unused other outside
  by_cases here : other = index
  · subst here
    simp [modify, empty, dropBatch]
  · simpa [modify, here] using empty

theorem Scheduled.doEnqueue (scheduled : disc.Scheduled config largest) {item : Item}
    (bounded : item.size ≤ largest) :
    (disc.doEnqueue config item).1.Scheduled config largest := by
  unfold FqCoDelQueueDisc.doEnqueue
  cases item.flowHash with
  | none => exact scheduled
  | some flowHash =>
      have classified := scheduled.classify flowHash
      obtain ⟨known, inside⟩ := classified.findFlow (disc.classify config flowHash).2
      obtain ⟨activated, active, _⟩ := known.activate inside
      have enqueued := activated.enqueue active bounded config.maxSize
      dsimp only
      split
      · exact enqueued.fqCoDelDrop
      · exact enqueued

end FqCoDelQueueDisc

/-- A queue disc in use, with the size of the largest packet so far and what the last `Dequeue`
has given. -/
structure Session where
  disc : FqCoDelQueueDisc := {}
  largest : Nat := 0
  given : Option (Option Item) := none

/-- The calls from outside. -/
inductive Call
  | enqueue (item : Item)
  | dequeue (drops : Nat → Nat)

namespace Session

variable (config)

/-- One call. -/
def step (session : Session) : Call → Session
  | .enqueue item =>
      { disc := (session.disc.doEnqueue config item).1
        largest := max session.largest item.size
        given := none }
  | .dequeue drops =>
      { session with
        disc := (session.disc.doDequeue config drops).1
        given := some (session.disc.doDequeue config drops).2 }

/-- The lists of flows are right, every flow with a packet is in one of them with a deficit within
the bounds, and `Dequeue` gives nothing only if there is nothing. -/
structure Fair (session : Session) : Prop where
  newFlows : ∀ place, session.disc.newFlows.count place =
    if (session.disc.flow place).status = .newFlow then 1 else 0
  oldFlows : ∀ place, session.disc.oldFlows.count place =
    if (session.disc.flow place).status = .oldFlow then 1 else 0
  backlogged : ∀ place, (session.disc.flow place).queue ≠ [] →
    place ∈ session.disc.newFlows ∨ place ∈ session.disc.oldFlows
  deficit : ∀ place, place ∈ session.disc.newFlows ∨ place ∈ session.disc.oldFlows →
    -(session.largest : Int) < (session.disc.flow place).deficit ∧
      (session.disc.flow place).deficit ≤ config.quantum
  given : session.given = some none → ∀ place, (session.disc.flow place).queue = []

end Session

/-- Sessions of a queue disc. All calls are allowed at any time. -/
def sessions (config : Config) : Machine Session Call where
  step := Session.step config
  Enabled _ _ := True

namespace Session

variable {session : Session}

/-- What a session keeps. -/
structure Invariant (config : Config) (session : Session) : Prop where
  scheduled : session.disc.Scheduled config session.largest
  small : session.largest < 2 ^ 31
  given : session.given = some none → ∀ place, (session.disc.flow place).queue = []

theorem invariant_initial (config : Config) : Invariant config {} where
  scheduled := ⟨⟨fun _ => rfl, fun _ => rfl⟩, fun _ => ⟨by simp, by simp, by simp⟩, fun _ _ => rfl,
    by simp⟩
  small := by decide
  given := by simp

theorem Invariant.step (invariant : Invariant config session) (call : Call) :
    Invariant config (session.step config call) := by
  obtain ⟨scheduled, small, _⟩ := invariant
  cases call with
  | enqueue item =>
      exact ⟨(scheduled.mono (Nat.le_max_left _ _)).doEnqueue (Nat.le_max_right _ _),
        Nat.max_lt.mpr ⟨small, item.size_lt⟩, by simp [Session.step]⟩
  | dequeue drops =>
      obtain ⟨kept, isEmpty⟩ := scheduled.doDequeueFrom small drops 0
      exact ⟨kept, small, fun nothing => isEmpty (Option.some_inj.mp nothing)⟩

theorem Invariant.fair (invariant : Invariant config session) : session.Fair config := by
  have listed := invariant.scheduled.listed
  have active (place : Nat) : (session.disc.flow place).status ≠ .inactive ↔
      place ∈ session.disc.newFlows ∨ place ∈ session.disc.oldFlows := by
    rw [← List.count_pos_iff, ← List.count_pos_iff, listed.newFlows, listed.oldFlows]
    cases (session.disc.flow place).status <;> simp
  refine ⟨listed.newFlows, listed.oldFlows, fun place some => ?_, fun place isListed => ?_,
    invariant.given⟩
  · exact (active place).mp ((invariant.scheduled.fair place).active some)
  · exact (invariant.scheduled.fair place).deficit ((active place).mpr isListed)

end Session

/-- Over every run of `Enqueue` and `Dequeue` the lists of flows are right. -/
theorem always_fair (config : Config) (calls : List Call) :
    (sessions config).Always (Session.Fair config) {} calls := by
  have legal : (sessions config).Legal {} calls :=
    Machine.legal_of_enabled (fun _ _ => trivial) _ calls
  exact (Machine.Legal.always (fun _ call invariant _ => invariant.step call)
    (Session.invariant_initial config) legal).mono fun _ invariant => invariant.fair

end Ns3.TrafficControl.FqCoDel
