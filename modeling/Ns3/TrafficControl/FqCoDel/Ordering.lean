import Ns3.TrafficControl.FqCoDel.Scheduling

/-!
The order of the packets of a flow in `ns3::FqCoDelQueueDisc`.

The packets of a flow leave in order while they are all in one child. Set associative hashing may
find another child for a flow that still has packets in the one it had.
-/

namespace Ns3.TrafficControl.FqCoDel

open Library

/-- The packets with a flow hash, in their order. -/
def ofFlow (flowHash : Nat) (items : List Item) : List Item :=
  items.filter fun item => item.flowHash = some flowHash

theorem ofFlow_append (flowHash : Nat) (items more : List Item) :
    ofFlow flowHash (items ++ more) = ofFlow flowHash items ++ ofFlow flowHash more :=
  List.filter_append ..

theorem ofFlow_sublist {items more : List Item} (sublist : items.Sublist more) (flowHash : Nat) :
    (ofFlow flowHash items).Sublist (ofFlow flowHash more) := sublist.filter _

theorem ofFlow_singleton_of_ne {item : Item} {flowHash : Nat}
    (other : item.flowHash ≠ some flowHash) : ofFlow flowHash [item] = [] := by
  simp [ofFlow, other]

theorem ofFlow_ne_nil {items more : List Item} (sublist : items.Sublist more) {flowHash : Nat}
    (some : ofFlow flowHash items ≠ []) : ofFlow flowHash more ≠ [] := by
  intro none
  have sublist := ofFlow_sublist sublist flowHash
  rw [none] at sublist
  exact some (List.sublist_nil.mp sublist)

namespace FqCoDelQueueDisc

variable (config : Config)

/-- The first queue of the set of a flow. -/
def firstQueue (flowHash : Nat) : Nat :=
  flowHash % config.flows - flowHash % config.flows % config.setWays

/-- The queues of the set of a flow. -/
def queueSet (flowHash : Nat) : List Nat := List.range' (firstQueue config flowHash) config.setWays

/-- The queues that a flow may get. -/
def InSet (flowHash h : Nat) : Prop :=
  if config.enableSetAssociativeHash then
    h ∈ firstQueue config flowHash :: queueSet config flowHash
  else h = flowHash % config.flows

/-- A queue with packets of the flow is the first of its set that can be used, or it is the first
one of the set and none can be used. -/
def Stays (disc : FqCoDelQueueDisc) (flowHash : Nat) : Prop :=
  config.enableSetAssociativeHash = true →
    ∀ h ∈ firstQueue config flowHash :: queueSet config flowHash,
      ∀ place ∈ disc.flowsIndices h, ofFlow flowHash (disc.flow place).queue ≠ [] →
        (disc.usableQueue flowHash h = true ∧
          ∀ other ∈ queueSet config flowHash, other < h → disc.usableQueue flowHash other = false) ∨
        (h = firstQueue config flowHash ∧
          ∀ other ∈ queueSet config flowHash, disc.usableQueue flowHash other = false)

instance (disc : FqCoDelQueueDisc) (flowHash : Nat) : Decidable (Stays config disc flowHash) :=
  inferInstanceAs (Decidable (_ → _))

variable {config} {disc after : FqCoDelQueueDisc} {place h : Nat} {item : Item}

theorem classify_inSet (disc : FqCoDelQueueDisc) (flowHash : Nat) :
    InSet config flowHash (disc.classify config flowHash).2 := by
  unfold InSet classify
  split
  · unfold setAssociativeHash
    dsimp only
    cases isFound : (List.range' (flowHash % config.flows - flowHash % config.flows %
        config.setWays) config.setWays).find? (disc.usableQueue flowHash) with
    | none => exact List.mem_cons_self
    | some i => exact List.mem_cons_of_mem _ (List.mem_of_find?_eq_some isFound)
  · rfl

theorem find_queueSet {flowHash h : Nat} {usable : Nat → Bool} (someWays : 0 < config.setWays)
    (inSet : h ∈ firstQueue config flowHash :: queueSet config flowHash) (here : usable h = true)
    (least : ∀ other ∈ queueSet config flowHash, other < h → usable other = false) :
    (queueSet config flowHash).find? usable = some h := by
  unfold queueSet at *
  simp only [List.mem_cons, List.mem_range'_1] at inSet least
  rw [List.find?_range'_eq_some]
  refine ⟨here, ?_, fun other low high => ?_⟩
  · rw [List.mem_range'_1]
    omega
  · rw [least other (by omega) high]
    rfl

/-- The flow gets the queue that has its packets. -/
theorem Stays.classify {flowHash h place : Nat} (stays : disc.Stays config flowHash)
    (inSet : InSet config flowHash h) (isPlace : disc.flowsIndices h = some place)
    (queued : ofFlow flowHash (disc.flow place).queue ≠ []) :
    (disc.classify config flowHash).2 = h := by
  unfold InSet at inSet
  unfold FqCoDelQueueDisc.classify
  split at inSet
  · next associative =>
    rw [if_pos associative]
    change ((queueSet config flowHash).find? (disc.usableQueue flowHash)).getD
      (firstQueue config flowHash) = h
    rcases stays associative h inSet place isPlace queued with ⟨usable, least⟩ | ⟨isFirst, used⟩
    · rcases Nat.eq_zero_or_pos config.setWays with noWays | someWays
      · have empty : queueSet config flowHash = [] := by
          rw [queueSet, noWays]
          rfl
        rw [empty, List.mem_singleton] at inSet
        rw [empty, inSet]
        rfl
      · rw [find_queueSet someWays inSet usable least]
        rfl
    · have isFound : (queueSet config flowHash).find? (disc.usableQueue flowHash) = none :=
        List.find?_eq_none.mpr fun other inside => by simp [used other inside]
      rw [isFound]
      exact isFirst.symm
  · next direct =>
    rw [if_neg direct]
    exact inSet.symm

/-- Packets leave the queues, and nothing else happens to them. -/
structure Shrunk (before after : FqCoDelQueueDisc) : Prop where
  queue : ∀ place, (after.flow place).queue.Sublist (before.flow place).queue
  flowsIndices : after.flowsIndices = before.flowsIndices
  classes : after.nQueueDiscClasses = before.nQueueDiscClasses

theorem Shrunk.refl (disc : FqCoDelQueueDisc) : Shrunk disc disc :=
  ⟨fun _ => .refl _, rfl, rfl⟩

theorem Shrunk.trans {last : FqCoDelQueueDisc} (first : Shrunk disc after)
    (second : Shrunk after last) : Shrunk disc last :=
  ⟨fun place => (second.queue place).trans (first.queue place),
    second.flowsIndices.trans first.flowsIndices, second.classes.trans first.classes⟩

theorem Shrunk.modify (disc : FqCoDelQueueDisc) (place : Nat) (change : FqCoDelFlow → FqCoDelFlow)
    (shrinks : (change (disc.flow place)).queue.Sublist (disc.flow place).queue) :
    Shrunk disc (disc.modify place change) := by
  refine ⟨fun other => ?_, rfl, rfl⟩
  by_cases here : other = place
  · subst here
    simpa [FqCoDelQueueDisc.modify] using shrinks
  · simp [FqCoDelQueueDisc.modify, here]

/-- The lists of flows do not matter. -/
theorem Shrunk.relist (shrunk : Shrunk disc after) (newFlows oldFlows : List Nat) :
    Shrunk disc { after with newFlows := newFlows, oldFlows := oldFlows } :=
  ⟨shrunk.queue, shrunk.flowsIndices, shrunk.classes⟩

theorem shrunk_demote (disc : FqCoDelQueueDisc) (place : Nat) (rest : List Nat) :
    Shrunk disc (disc.demote config place rest) :=
  (Shrunk.modify disc place _ (.refl _)).relist rest (disc.oldFlows ++ [place])

theorem shrunk_rotate (disc : FqCoDelQueueDisc) (place : Nat) (rest : List Nat) :
    Shrunk disc (disc.rotate config place rest) :=
  (Shrunk.modify disc place _ (.refl _)).relist disc.newFlows (rest ++ [place])

theorem shrunk_search (disc : FqCoDelQueueDisc) : Shrunk disc (disc.search config) :=
  (search_rule
    (fun other place rest shrunk _ _ => shrunk.trans (shrunk_demote other place rest))
    (fun other place rest shrunk _ _ => shrunk.trans (shrunk_rotate other place rest))
    (Shrunk.refl disc)).1

theorem shrunk_retire (disc : FqCoDelQueueDisc) (place : Nat) :
    Shrunk disc (disc.retire place) := by
  unfold retire
  split
  · exact (Shrunk.modify disc place _ (.refl _)).relist disc.newFlows.tail
      (disc.oldFlows ++ [place])
  · exact (Shrunk.modify disc place _ (.refl _)).relist disc.newFlows disc.oldFlows.tail

theorem shrunk_activate (config : Config) (disc : FqCoDelQueueDisc) (place : Nat) :
    Shrunk disc (disc.activate config place) := by
  unfold activate
  split
  · have shrunk := Shrunk.modify disc place
      (fun flow => (flow.setStatus .newFlow).setDeficit config.quantum)
      (by rw [FqCoDelFlow.setDeficit_queue]; exact .refl _)
    exact ⟨shrunk.queue, shrunk.flowsIndices, shrunk.classes⟩
  · exact .refl _

theorem dropBatch_sublist (threshold : Nat) (queue : List Item) (count len : Nat) :
    (dropBatch config threshold queue count len).Sublist queue := by
  fun_induction dropBatch config threshold queue count len with
  | case1 => exact .slnil
  | case2 item rest count len more inductionHypothesis => exact inductionHypothesis.cons item
  | case3 item rest count len enough => exact List.sublist_cons_self item rest

theorem shrunk_fqCoDelDrop (disc : FqCoDelQueueDisc) : Shrunk disc (disc.fqCoDelDrop config) := by
  unfold fqCoDelDrop
  exact Shrunk.modify disc _ _ (dropBatch_sublist _ _ _ _)

/-- The first packet of a queue is taken. -/
structure Taken (before after : FqCoDelQueueDisc) (place : Nat) (item : Item) : Prop where
  here : (item :: (after.flow place).queue).Sublist (before.flow place).queue
  shrunk : Shrunk before after

theorem Shrunk.taken (shrunk : Shrunk disc after) {last : FqCoDelQueueDisc}
    (taken : Taken after last place item) : Taken disc last place item :=
  ⟨taken.here.trans (shrunk.queue place), shrunk.trans taken.shrunk⟩

/-- A child gives the first packet that it does not drop. -/
theorem dequeue_sublist (flow : FqCoDelFlow) (drops : Nat) :
    ((flow.dequeue drops).2.toList ++ (flow.dequeue drops).1.queue).Sublist flow.queue := by
  have dropped := List.drop_sublist drops flow.queue
  unfold FqCoDelFlow.dequeue
  cases isDropped : flow.queue.drop drops with
  | nil => exact List.nil_sublist _
  | cons item rest =>
      rw [isDropped] at dropped
      exact dropped

/-- What `DoDequeue` does to the queues. -/
theorem doDequeueFrom_spec (config : Config) (disc : FqCoDelQueueDisc) (drops : Nat → Nat) (call : Nat) :
    Shrunk disc (disc.doDequeueFrom config drops call).1 ∧
      ∀ item, (disc.doDequeueFrom config drops call).2 = some item →
        ∃ place, Taken disc (disc.doDequeueFrom config drops call).1 place item := by
  fun_induction FqCoDelQueueDisc.doDequeueFrom config drops call disc with
  | case1 call disc notFound => exact ⟨shrunk_search disc, by simp⟩
  | case2 call disc place isFound flow isDequeued inductionHypothesis =>
      have emptied : Shrunk disc
          (((disc.search config).modify place fun _ => flow).retire place) := by
        have given := dequeue_sublist ((disc.search config).flow place) (drops call)
        rw [isDequeued] at given
        exact ((shrunk_search disc).trans (Shrunk.modify _ place _ given)).trans
          (shrunk_retire _ place)
      obtain ⟨shrunk, taken⟩ := inductionHypothesis
      refine ⟨emptied.trans shrunk, fun item isItem => ?_⟩
      obtain ⟨other, isTaken⟩ := taken item isItem
      exact ⟨other, emptied.taken isTaken⟩
  | case3 call disc place isFound flow item isDequeued =>
      have given := dequeue_sublist ((disc.search config).flow place) (drops call)
      rw [isDequeued] at given
      have shrunk := Shrunk.modify (disc.search config) place
        (fun _ => flow.increaseDeficit (signed 32 (-item.size)))
        ((List.sublist_cons_self item flow.queue).trans given)
      refine ⟨(shrunk_search disc).trans shrunk, fun other isItem => ⟨place, ?_⟩⟩
      cases isItem
      refine (shrunk_search disc).taken ⟨?_, shrunk⟩
      simpa [FqCoDelQueueDisc.modify, FqCoDelFlow.increaseDeficit] using given

theorem shrunk_classify (config : Config) (disc : FqCoDelQueueDisc) (flowHash : Nat) :
    Shrunk disc (disc.classify config flowHash).1 := by
  unfold classify setAssociativeHash
  split
  · exact ⟨fun _ => .refl _, rfl, rfl⟩
  · exact .refl _

/-- Where the packets are: each class has an index, a queue has only packets that its index is in
the set of, and no two queues have packets of one flow. -/
structure Placed (config : Config) (disc : FqCoDelQueueDisc) : Prop where
  injective : ∀ h other place, disc.flowsIndices h = some place →
    disc.flowsIndices other = some place → h = other
  lt : ∀ h place, disc.flowsIndices h = some place → place < disc.nQueueDiscClasses
  indexed : ∀ place < disc.nQueueDiscClasses, ∃ h, disc.flowsIndices h = some place
  unused : ∀ place, disc.nQueueDiscClasses ≤ place → (disc.flow place).queue = []
  inSet : ∀ h place flowHash, disc.flowsIndices h = some place →
    ofFlow flowHash (disc.flow place).queue ≠ [] → InSet config flowHash h
  together : ∀ flowHash place other, ofFlow flowHash (disc.flow place).queue ≠ [] →
    ofFlow flowHash (disc.flow other).queue ≠ [] → place = other

theorem Placed.shrunk (placed : Placed config disc) (shrunk : Shrunk disc after) :
    Placed config after := by
  constructor
  · intro h other place
    rw [shrunk.flowsIndices]
    exact placed.injective h other place
  · intro h place
    rw [shrunk.flowsIndices, shrunk.classes]
    exact placed.lt h place
  · intro place
    rw [shrunk.flowsIndices, shrunk.classes]
    exact placed.indexed place
  · intro place
    rw [shrunk.classes]
    intro outside
    have sublist := shrunk.queue place
    rw [placed.unused place outside] at sublist
    exact List.sublist_nil.mp sublist
  · intro h place flowHash
    rw [shrunk.flowsIndices]
    exact fun isPlace some => placed.inSet h place flowHash isPlace
      (ofFlow_ne_nil (shrunk.queue place) some)
  · intro flowHash place other some more
    exact placed.together flowHash place other (ofFlow_ne_nil (shrunk.queue place) some)
      (ofFlow_ne_nil (shrunk.queue other) more)

theorem findFlow_queue (unused : (disc.flow disc.nQueueDiscClasses).queue = []) (h other : Nat) :
    ((disc.findFlow h).1.flow other).queue = (disc.flow other).queue := by
  unfold findFlow
  split
  · rfl
  · by_cases here : other = disc.nQueueDiscClasses
    · subst here
      simp [unused]
    · simp [here]

theorem findFlow_flowsIndices (disc : FqCoDelQueueDisc) (h other : Nat) :
    (disc.findFlow h).1.flowsIndices h = some (disc.findFlow h).2 ∧
      (other ≠ h → (disc.findFlow h).1.flowsIndices other = disc.flowsIndices other) := by
  unfold findFlow
  split
  · next isPlace => exact ⟨isPlace, fun _ => rfl⟩
  · exact ⟨by simp, fun apart => by simp [apart]⟩

/-- The index of a new flow, or of a flow that there was. -/
theorem findFlow_cases (isNone : disc.flowsIndices h = none) {other place : Nat}
    (isPlace : (disc.findFlow h).1.flowsIndices other = some place) :
    other = h ∧ place = disc.nQueueDiscClasses ∨ disc.flowsIndices other = some place := by
  simp only [findFlow, isNone] at isPlace
  by_cases same : other = h
  · subst same
    rw [Function.update_self, Option.some_inj] at isPlace
    exact .inl ⟨rfl, isPlace.symm⟩
  · rw [Function.update_of_ne same] at isPlace
    exact .inr isPlace

theorem Placed.findFlow (placed : Placed config disc) (h : Nat) :
    Placed config (disc.findFlow h).1 := by
  cases isNone : disc.flowsIndices h with
  | some place =>
      have same : (disc.findFlow h).1 = disc := by simp [FqCoDelQueueDisc.findFlow, isNone]
      rw [same]
      exact placed
  | none =>
      have classes : (disc.findFlow h).1.nQueueDiscClasses = disc.nQueueDiscClasses + 1 := by
        simp [FqCoDelQueueDisc.findFlow, isNone]
      constructor
      · intro first second place isFirst isSecond
        rcases findFlow_cases isNone isFirst with ⟨rfl, rfl⟩ | wasFirst
        · rcases findFlow_cases isNone isSecond with ⟨rfl, -⟩ | wasSecond
          · rfl
          · exact absurd (placed.lt _ _ wasSecond) (Nat.lt_irrefl _)
        · rcases findFlow_cases isNone isSecond with ⟨rfl, rfl⟩ | wasSecond
          · exact absurd (placed.lt _ _ wasFirst) (Nat.lt_irrefl _)
          · exact placed.injective _ _ place wasFirst wasSecond
      · intro other place isPlace
        rw [classes]
        rcases findFlow_cases isNone isPlace with ⟨-, rfl⟩ | was
        · exact Nat.lt_succ_self _
        · exact Nat.lt_succ_of_lt (placed.lt other place was)
      · intro place inside
        rw [classes] at inside
        by_cases isNew : place = disc.nQueueDiscClasses
        · subst isNew
          exact ⟨h, by simp [FqCoDelQueueDisc.findFlow, isNone]⟩
        · obtain ⟨other, isOther⟩ := placed.indexed place (by omega)
          refine ⟨other, ?_⟩
          rw [(findFlow_flowsIndices disc h other).2, isOther]
          rintro rfl
          rw [isNone] at isOther
          cases isOther
      · intro place outside
        rw [findFlow_queue (placed.unused _ (Nat.le_refl _))]
        exact placed.unused place (by omega)
      · intro other place flowHash isPlace queued
        rw [findFlow_queue (placed.unused _ (Nat.le_refl _))] at queued
        rcases findFlow_cases isNone isPlace with ⟨-, rfl⟩ | was
        · rw [placed.unused _ (Nat.le_refl _)] at queued
          exact absurd rfl queued
        · exact placed.inSet other place flowHash was queued
      · intro flowHash place other
        have queue := findFlow_queue (placed.unused _ (Nat.le_refl _)) h
        rw [queue, queue]
        exact placed.together flowHash place other

theorem enqueue_queue (flow : FqCoDelFlow) (maxSize : Nat) (item : Item) :
    (flow.enqueue maxSize item).queue = flow.queue ∨
      (flow.enqueue maxSize item).queue = flow.queue ++ [item] := by
  unfold FqCoDelFlow.enqueue
  split
  · exact .inl rfl
  · exact .inr rfl

theorem modify_flow (disc : FqCoDelQueueDisc) (place other : Nat)
    (change : FqCoDelFlow → FqCoDelFlow) :
    (disc.modify place change).flow other =
      if other = place then change (disc.flow place) else disc.flow other := by
  unfold modify
  dsimp only
  rw [Function.update_apply]

/-- A packet comes to the queue of its flow, which no other queue has packets of. -/
theorem Placed.enqueue (placed : Placed config disc) {h flowHash : Nat}
    (isFlow : item.flowHash = some flowHash) (isPlace : disc.flowsIndices h = some place)
    (inSet : InSet config flowHash h)
    (alone : ∀ other, ofFlow flowHash (disc.flow other).queue ≠ [] → other = place)
    (maxSize : Nat) : Placed config (disc.modify place (·.enqueue maxSize item)) := by
  rcases enqueue_queue (disc.flow place) maxSize item with refused | accepted
  · refine placed.shrunk (Shrunk.modify disc place _ ?_)
    rw [refused]
  · -- A queue has packets of a flow exactly if it had some or it has got this one.
    have queued (other hash : Nat)
        (some : ofFlow hash ((disc.modify place (·.enqueue maxSize item)).flow other).queue ≠ []) :
        ofFlow hash (disc.flow other).queue ≠ [] ∨ other = place ∧ hash = flowHash := by
      rw [modify_flow] at some
      split at some
      · next here =>
        subst here
        rw [accepted, ofFlow_append] at some
        by_cases same : hash = flowHash
        · exact .inr ⟨rfl, same⟩
        · rw [ofFlow_singleton_of_ne (by rw [isFlow]; simpa using Ne.symm same),
            List.append_nil] at some
          exact .inl some
      · exact .inl some
    refine ⟨placed.injective, placed.lt, placed.indexed, fun other outside => ?_,
      fun other at' hash isOther some => ?_, fun hash first second some more => ?_⟩
    · have inside := placed.lt h place isPlace
      have outside : disc.nQueueDiscClasses ≤ other := outside
      rw [modify_flow, if_neg (by omega)]
      exact placed.unused other outside
    · rcases queued at' hash some with before | ⟨rfl, rfl⟩
      · exact placed.inSet other at' hash isOther before
      · cases placed.injective other h at' isOther isPlace
        exact inSet
    · rcases queued first hash some with before | ⟨rfl, rfl⟩
      · rcases queued second hash more with before' | ⟨rfl, rfl⟩
        · exact placed.together hash first second before before'
        · exact alone first before
      · rcases queued second hash more with before' | ⟨same, -⟩
        · exact (alone second before').symm
        · exact same.symm

/-- The flow that a packet goes to. -/
def flowOf (config : Config) (disc : FqCoDelQueueDisc) (flowHash : Nat) : FqCoDelQueueDisc × Nat :=
  (disc.classify config flowHash).1.findFlow (disc.classify config flowHash).2

/-- A queue that has packets of the flow is the one that a packet goes to. -/
theorem Placed.flowOf_eq (placed : Placed config disc) {flowHash : Nat}
    (stays : disc.Stays config flowHash) (queued : ofFlow flowHash (disc.flow place).queue ≠ []) :
    (disc.flowOf config flowHash).2 = place := by
  have inside : place < disc.nQueueDiscClasses := by
    by_contra outside
    rw [placed.unused place (by omega)] at queued
    exact queued rfl
  obtain ⟨h, isPlace⟩ := placed.indexed place inside
  have isQueue := stays.classify (placed.inSet h place flowHash isPlace queued) isPlace queued
  have known : (disc.classify config flowHash).1.flowsIndices h = some place := by
    rw [(shrunk_classify config disc flowHash).flowsIndices]
    exact isPlace
  unfold flowOf FqCoDelQueueDisc.findFlow
  rw [isQueue, known]

/-- `DoEnqueue` without the drops of an overload. -/
def enlist (config : Config) (disc : FqCoDelQueueDisc) (flowHash : Nat) (item : Item) :
    FqCoDelQueueDisc :=
  let (known, place) := disc.flowOf config flowHash
  (known.activate config place).modify place (·.enqueue config.maxSize item)

theorem shrunk_doEnqueue (config : Config) (disc : FqCoDelQueueDisc) {flowHash : Nat}
    (isFlow : item.flowHash = some flowHash) :
    Shrunk (disc.enlist config flowHash item) (disc.doEnqueue config item).1 := by
  unfold doEnqueue
  rw [isFlow]
  dsimp only
  split
  · exact shrunk_fqCoDelDrop _
  · exact .refl _

/-- The packets are left where they are until the new one comes. -/
theorem activate_flowOf_sublist (config : Config)
    (unused : (disc.flow disc.nQueueDiscClasses).queue = []) (flowHash place other : Nat) :
    (((disc.flowOf config flowHash).1.activate config place).flow other).queue.Sublist
      (disc.flow other).queue := by
  have classified := shrunk_classify config disc flowHash
  refine ((shrunk_activate config _ place).queue other).trans ?_
  unfold flowOf
  rw [findFlow_queue]
  · exact classified.queue other
  · rw [← List.sublist_nil, ← unused, classified.classes]
    exact classified.queue _

theorem enlist_sublist (config : Config) (unused : (disc.flow disc.nQueueDiscClasses).queue = [])
    (flowHash : Nat) (item : Item) (other : Nat) :
    ((disc.enlist config flowHash item).flow other).queue.Sublist
      ((disc.flow other).queue ++ [item]) := by
  have before := activate_flowOf_sublist config unused flowHash
    (disc.flowOf config flowHash).2 other
  unfold enlist
  dsimp only
  rw [modify_flow]
  split
  · next here =>
    subst here
    rcases enqueue_queue (((disc.flowOf config flowHash).1.activate config
      (disc.flowOf config flowHash).2).flow (disc.flowOf config flowHash).2) config.maxSize
      item with refused | accepted
    · rw [refused]
      exact before.trans (List.sublist_append_left _ _)
    · rw [accepted]
      exact before.append_right _
  · exact before.trans (List.sublist_append_left _ _)

theorem doEnqueue_sublist (config : Config)
    (unused : (disc.flow disc.nQueueDiscClasses).queue = []) (item : Item) (other : Nat) :
    ((disc.doEnqueue config item).1.flow other).queue.Sublist
      ((disc.flow other).queue ++ [item]) := by
  cases isFlow : item.flowHash with
  | none =>
      have refused : (disc.doEnqueue config item).1 = disc := by
        simp [FqCoDelQueueDisc.doEnqueue, isFlow]
      rw [refused]
      exact List.sublist_append_left _ _
  | some flowHash =>
      exact ((shrunk_doEnqueue config disc isFlow).queue other).trans
        (enlist_sublist config unused flowHash item other)

theorem Placed.enlist (placed : Placed config disc) {flowHash : Nat}
    (stays : disc.Stays config flowHash) (isFlow : item.flowHash = some flowHash) :
    Placed config (disc.enlist config flowHash item) := by
  have known := (placed.shrunk (shrunk_classify config disc flowHash)).findFlow
    (disc.classify config flowHash).2
  have isPlace := (findFlow_flowsIndices (disc.classify config flowHash).1
    (disc.classify config flowHash).2 0).1
  have activated := shrunk_activate config (disc.flowOf config flowHash).1
    (disc.flowOf config flowHash).2
  refine (known.shrunk activated).enqueue isFlow (h := (disc.classify config flowHash).2) ?_
    (classify_inSet disc flowHash) (fun other queued => ?_) config.maxSize
  · rw [activated.flowsIndices]
    exact isPlace
  · exact (placed.flowOf_eq stays (ofFlow_ne_nil (activate_flowOf_sublist config
      (placed.unused _ (Nat.le_refl _)) flowHash _ other) queued)).symm

theorem Placed.doEnqueue (placed : Placed config disc)
    (stays : ∀ flowHash ∈ item.flowHash, disc.Stays config flowHash) :
    Placed config (disc.doEnqueue config item).1 := by
  cases isFlow : item.flowHash with
  | none =>
      have refused : (disc.doEnqueue config item).1 = disc := by
        simp [FqCoDelQueueDisc.doEnqueue, isFlow]
      rw [refused]
      exact placed
  | some flowHash =>
      exact (placed.enlist (stays flowHash isFlow) isFlow).shrunk
        (shrunk_doEnqueue config disc isFlow)

end FqCoDelQueueDisc

/-- A queue disc with the packets that came and the packets that left, in their order. -/
structure Record where
  disc : FqCoDelQueueDisc := {}
  enqueued : List Item := []
  dequeued : List Item := []

namespace Record

variable (config : Config)

/-- One call. -/
def step (record : Record) : Call → Record
  | .enqueue item =>
      { record with
        disc := (record.disc.doEnqueue config item).1
        enqueued := record.enqueued ++ [item] }
  | .dequeue drops =>
      { record with
        disc := (record.disc.doDequeue config drops).1
        dequeued := record.dequeued ++ (record.disc.doDequeue config drops).2.toList }

/-- The packets of a flow leave in the order in which they came, and those that are queued are in
one queue. -/
structure InOrder (record : Record) : Prop where
  order : ∀ flowHash,
    (ofFlow flowHash record.dequeued).Sublist (ofFlow flowHash record.enqueued)
  together : ∀ flowHash place other,
    ofFlow flowHash (record.disc.flow place).queue ≠ [] →
      ofFlow flowHash (record.disc.flow other).queue ≠ [] → place = other

/-- The condition for a call. -/
def Stays (record : Record) : Call → Prop
  | .enqueue item => ∀ flowHash ∈ item.flowHash, record.disc.Stays config flowHash
  | .dequeue _ => True

instance : ∀ record call, Decidable (Stays config record call)
  | _, .enqueue _ => inferInstanceAs (Decidable (∀ flowHash ∈ _, _))
  | _, .dequeue _ => inferInstanceAs (Decidable True)

end Record

/-- The records of a queue disc. All calls are allowed at any time. -/
def records (config : Config) : Machine Record Call where
  step := Record.step config
  Enabled _ _ := True

namespace Record

variable {config : Config} {record : Record} {item : Item}

/-- What a record keeps: what has left and what is in a queue came in that order. -/
structure Invariant (config : Config) (record : Record) : Prop where
  placed : record.disc.Placed config
  order : ∀ flowHash place,
    (ofFlow flowHash record.dequeued ++ ofFlow flowHash (record.disc.flow place).queue).Sublist
      (ofFlow flowHash record.enqueued)

theorem invariant_initial (config : Config) : Invariant config {} where
  placed := ⟨by simp, by simp, by simp, fun _ _ => rfl, by simp, by simp [ofFlow]⟩
  order _ _ := List.nil_sublist _

theorem Invariant.enqueue (invariant : Invariant config record)
    (stays : ∀ flowHash ∈ item.flowHash, record.disc.Stays config flowHash) :
    Invariant config (record.step config (.enqueue item)) := by
  refine ⟨invariant.placed.doEnqueue stays, fun flowHash place => ?_⟩
  have queue := ofFlow_sublist (FqCoDelQueueDisc.doEnqueue_sublist config
    (invariant.placed.unused _ (Nat.le_refl _)) item place) flowHash
  dsimp only [Record.step]
  rw [ofFlow_append] at queue ⊢
  refine ((List.Sublist.refl _).append queue).trans ?_
  rw [← List.append_assoc]
  exact (invariant.order flowHash place).append_right _

theorem Invariant.dequeue (invariant : Invariant config record) (drops : Nat → Nat) :
    Invariant config (record.step config (.dequeue drops)) := by
  obtain ⟨shrunk, taken⟩ := FqCoDelQueueDisc.doDequeueFrom_spec config record.disc drops 0
  refine ⟨invariant.placed.shrunk shrunk, fun flowHash place => ?_⟩
  have order := invariant.order flowHash
  change (ofFlow flowHash (record.dequeued ++ (record.disc.doDequeue config drops).2.toList) ++
    ofFlow flowHash ((record.disc.doDequeue config drops).1.flow place).queue).Sublist
      (ofFlow flowHash record.enqueued)
  rw [ofFlow_append, List.append_assoc]
  cases isItem : (record.disc.doDequeue config drops).2 with
  | none =>
      exact ((List.Sublist.refl _).append (ofFlow_sublist (shrunk.queue place) flowHash)).trans
        (order place)
  | some item =>
      obtain ⟨source, isTaken⟩ := taken item isItem
      have given := ofFlow_sublist isTaken.here flowHash
      rw [← List.singleton_append, ofFlow_append] at given
      by_cases isFlow : item.flowHash = some flowHash
      · by_cases here : place = source
        · subst here
          exact ((List.Sublist.refl _).append given).trans (order place)
        · -- The other queues have no packets of the flow.
          have queued : ofFlow flowHash (record.disc.flow source).queue ≠ [] := by
            refine ofFlow_ne_nil isTaken.here ?_
            simp [ofFlow, isFlow]
          have none : ofFlow flowHash ((record.disc.doDequeue config drops).1.flow place).queue =
              [] := by
            by_contra some
            exact here (invariant.placed.together flowHash place source
              (ofFlow_ne_nil (shrunk.queue place) some) queued)
          rw [none, List.append_nil]
          exact ((List.Sublist.refl _).append ((List.sublist_append_left _ _).trans given)).trans
            (order source)
      · have apart : ofFlow flowHash (some item).toList = [] := ofFlow_singleton_of_ne isFlow
        rw [apart, List.nil_append]
        exact ((List.Sublist.refl _).append (ofFlow_sublist (shrunk.queue place) flowHash)).trans
          (order place)

theorem Invariant.inOrder (invariant : Invariant config record) : record.InOrder :=
  ⟨fun flowHash => (List.sublist_append_left _ _).trans (invariant.order flowHash 0),
    invariant.placed.together⟩

end Record

/-- While every flow stays with its queue, its packets leave in order. -/
theorem always_flowOrdered (config : Config) {calls : List Call}
    (stays : (records config).Along (Record.Stays config) {} calls) :
    (records config).Always Record.InOrder {} calls := by
  have legal : (records config).Legal {} calls :=
    Machine.legal_of_enabled (fun _ _ => trivial) _ calls
  refine (legal.always_of_along ?_ (Record.invariant_initial config) stays).mono
    fun _ invariant => invariant.inOrder
  intro record call invariant _ stays
  cases call with
  | enqueue item => exact invariant.enqueue stays
  | dequeue drops => exact invariant.dequeue drops

/-- A queue disc with one set of two queues. -/
def twoQueues : Config where
  quantum := 1
  flows := 2
  setWays := 2
  enableSetAssociativeHash := true
  dropBatchSize := 64
  maxSize := 10240
  quantum_pos := by decide
  quantum_lt := by decide

/-- A packet of one byte. -/
def smallItem (packet flowHash : Nat) : Item where
  packet := packet
  flowHash := some flowHash
  size := 1
  size_lt := by decide

/-- A flow with one packet comes first and is served first. -/
def drainedFirst : List Call :=
  [.enqueue (smallItem 0 0), .enqueue (smallItem 1 2), .enqueue (smallItem 2 2),
    .enqueue (smallItem 3 2), .dequeue fun _ => 0, .dequeue fun _ => 0]

theorem always_flowOrdered_drainedFirst :
    (records twoQueues).Always Record.InOrder {} drainedFirst :=
  always_flowOrdered twoQueues (by decide)

/-- Once the first queue of the set is inactive, the second flow gets it, with packets in its own. -/
theorem not_always_flowOrdered :
    ¬ ∀ config calls, (records config).Always Record.InOrder {} calls := by
  intro always
  have inOrder := (always twoQueues (drainedFirst ++ [.dequeue fun _ => 0,
    .enqueue (smallItem 4 2), .dequeue fun _ => 0, .dequeue fun _ => 0])).last
  have order := inOrder.order 2
  revert order
  decide +kernel

end Ns3.TrafficControl.FqCoDel
