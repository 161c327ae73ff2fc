import Ns3.TrafficControl.FqCoDel.Ordering
import Ns3.TrafficControl.QueueDisc.Kernel

/-!
The limit of `ns3::FqCoDelQueueDisc`, and what is dropped where it is passed.

The fat flow is found by the bytes that the children count with 32 bits.
-/

namespace Ns3.TrafficControl.FqCoDel

open Library

/-- `SetMaxSize`. The queue disc was constructed with a limit in packets, and the unit of its limit
cannot be changed. -/
def Config.setMaxSize (config : Config) : QueueSize → Config × Bool
  | .packets value => if value = 0 then (config, false) else ({ config with maxSize := value.toNat }, true)
  | .bytes _ => (config, false)

/-- The bytes in the queue disc of a flow. -/
def FqCoDelFlow.backlog (flow : FqCoDelFlow) : Nat := (flow.queue.map Item.size).sum

theorem FqCoDelFlow.getNBytes_of_lt {flow : FqCoDelFlow} (fits : flow.backlog < 2 ^ 32) :
    flow.getNBytes = flow.backlog := wrap_of_lt fits

/-- Packets that are not empty have bytes. -/
theorem FqCoDelFlow.backlog_pos {flow : FqCoDelFlow} (positive : ∀ item ∈ flow.queue, 0 < item.size)
    (some : flow.queue ≠ []) : 0 < flow.backlog := by
  unfold backlog
  cases isQueue : flow.queue with
  | nil => exact absurd isQueue some
  | cons item rest =>
      have first := positive item (by simp [isQueue])
      rw [List.map_cons, List.sum_cons]
      omega

namespace FqCoDelQueueDisc

variable (config : Config)

/-- The items that the loop of `FqCoDelDrop` takes from a queue. An empty one gives a null item. -/
def droppedBatch (threshold : Nat) : List Item → Nat → Nat → List (Option Item)
  | [], _, _ => [none]
  | item :: rest, count, len =>
      some item ::
        if count + 1 < config.dropBatchSize ∧ len + item.size < threshold then
          droppedBatch threshold rest (count + 1) (len + item.size)
        else []

/-- The items that `FqCoDelDrop` takes. -/
def dropped (disc : FqCoDelQueueDisc) : List (Option Item) :=
  droppedBatch config (disc.fatFlow.2 >>> 1) (disc.flow disc.fatFlow.1).queue 0 0

/-- `FqCoDelDrop` takes packets from the head of a flow with the most bytes, and no null item. -/
structure SoundDrop (disc : FqCoDelQueueDisc) : Prop where
  fattest : ∀ place, (disc.flow place).backlog ≤ (disc.flow disc.fatFlow.1).backlog
  fromHead : ∃ items, items ≠ [] ∧ disc.dropped config = items.map some ∧
    (disc.flow disc.fatFlow.1).queue =
      items ++ ((disc.fqCoDelDrop config).flow disc.fatFlow.1).queue
  others : ∀ place, place ≠ disc.fatFlow.1 →
    (disc.fqCoDelDrop config).flow place = disc.flow place

variable {config} {disc after : FqCoDelQueueDisc}

/-- The loop does not run dry if what it drops is less than what is queued. -/
theorem droppedBatch_spec (config : Config) (threshold : Nat) (queue : List Item) (count len : Nat)
    (some' : queue ≠ []) (enough : threshold ≤ len + (queue.map Item.size).sum) :
    ∃ items, items ≠ [] ∧ droppedBatch config threshold queue count len = items.map some ∧
      queue = items ++ dropBatch config threshold queue count len := by
  fun_induction dropBatch config threshold queue count len with
  | case1 => exact absurd rfl some'
  | case2 item rest count len more inductionHypothesis =>
      rw [List.map_cons, List.sum_cons] at enough
      have left : rest ≠ [] := by
        rintro rfl
        simp only [List.map_nil, List.sum_nil] at enough
        omega
      obtain ⟨items, -, isDropped, isQueue⟩ := inductionHypothesis left (by omega)
      refine ⟨item :: items, by simp, ?_, congrArg (item :: ·) isQueue⟩
      rw [droppedBatch, if_pos more, isDropped]
      rfl
  | case3 item rest count len enough' =>
      refine ⟨[item], by simp, ?_, rfl⟩
      rw [droppedBatch, if_neg enough']
      rfl

/-- The loop that finds the fat flow, over the first so many. -/
def fattestOf (bytes : Nat → Nat) (n : Nat) : Nat × Nat :=
  (List.range n).foldl (fun (index, maxBacklog) i =>
    if bytes i > maxBacklog then (i, bytes i) else (index, maxBacklog)) (0, 0)

theorem fattestOf_succ (bytes : Nat → Nat) (n : Nat) :
    fattestOf bytes (n + 1) =
      if bytes n > (fattestOf bytes n).2 then (n, bytes n) else fattestOf bytes n := by
  unfold fattestOf
  rw [List.range_succ, List.foldl_append]
  rfl

/-- The fat flow has the most bytes of the flows that were looked at. -/
theorem le_fattestOf (bytes : Nat → Nat) (n : Nat) :
    ∀ place < n, bytes place ≤ (fattestOf bytes n).2 := by
  induction n with
  | zero => exact fun place inside => absurd inside (Nat.not_lt_zero place)
  | succ n inductionHypothesis =>
      intro place inside
      rw [fattestOf_succ]
      by_cases isLast : place = n
      · subst isLast
        split
        · exact Nat.le_refl _
        · omega
      · have before := inductionHypothesis place (by omega)
        split
        · dsimp only
          omega
        · exact before

theorem fattestOf_eq (bytes : Nat → Nat) (n : Nat) :
    (fattestOf bytes n).2 = 0 ∨
      (fattestOf bytes n).1 < n ∧ (fattestOf bytes n).2 = bytes (fattestOf bytes n).1 := by
  induction n with
  | zero => exact .inl rfl
  | succ n inductionHypothesis =>
      rw [fattestOf_succ]
      split
      · exact .inr ⟨Nat.lt_succ_self n, rfl⟩
      · rcases inductionHypothesis with isZero | ⟨inside, isBytes⟩
        · exact .inl isZero
        · exact .inr ⟨Nat.lt_succ_of_lt inside, isBytes⟩

theorem sum_range_indicator (place n : Nat) :
    ((List.range n).map fun i => if i = place then 1 else 0).sum =
      if place < n then 1 else 0 := by
  induction n with
  | zero => rfl
  | succ n inductionHypothesis =>
      rw [List.range_succ, List.map_append, List.sum_append, inductionHypothesis]
      simp only [List.map_cons, List.map_nil, List.sum_cons, List.sum_nil]
      split_ifs <;> omega

/-- One of the numbers may be larger by one. -/
theorem sum_range_le_succ {f g : Nat → Nat} (place n : Nat)
    (le : ∀ i, g i ≤ f i + if i = place then 1 else 0) :
    ((List.range n).map g).sum ≤ ((List.range n).map f).sum + 1 := by
  have bound := List.sum_le_sum fun i (_ : i ∈ List.range n) => le i
  rw [List.sum_map_add, sum_range_indicator] at bound
  split at bound <;> omega

/-- One of the numbers is smaller. -/
theorem sum_range_succ_le {f g : Nat → Nat} {place n : Nat} (inside : place < n)
    (le : ∀ i, g i + (if i = place then 1 else 0) ≤ f i) :
    ((List.range n).map g).sum + 1 ≤ ((List.range n).map f).sum := by
  have bound := List.sum_le_sum fun i (_ : i ∈ List.range n) => le i
  rw [List.sum_map_add, sum_range_indicator, if_pos inside] at bound
  exact bound

/-- The queue disc gets smaller where packets leave. -/
theorem Shrunk.getCurrentSize_le (shrunk : Shrunk disc after) :
    after.getCurrentSize ≤ disc.getCurrentSize := by
  unfold getCurrentSize
  rw [shrunk.classes]
  exact List.sum_le_sum fun place _ => (shrunk.queue place).length_le

/-- All packets have bytes. -/
def Positive (disc : FqCoDelQueueDisc) : Prop :=
  ∀ place, ∀ item ∈ (disc.flow place).queue, 0 < item.size

/-- The children of a queue disc count right. -/
def Counted (disc : FqCoDelQueueDisc) : Prop :=
  ∀ place < disc.nQueueDiscClasses, (disc.flow place).backlog < 2 ^ 32

instance (disc : FqCoDelQueueDisc) : Decidable (Counted disc) :=
  inferInstanceAs (Decidable (∀ place < _, _))

/-- No class has been left unused that has packets. -/
def Unused (disc : FqCoDelQueueDisc) : Prop :=
  ∀ place, disc.nQueueDiscClasses ≤ place → (disc.flow place).queue = []

/-- The fat flow has packets. -/
theorem fatFlow_spec (positive : disc.Positive) (some : 0 < disc.getCurrentSize)
    (counted : disc.Counted) :
    disc.fatFlow.1 < disc.nQueueDiscClasses ∧
      disc.fatFlow.2 = (disc.flow disc.fatFlow.1).backlog ∧ 0 < disc.fatFlow.2 ∧
      ∀ place < disc.nQueueDiscClasses, (disc.flow place).backlog ≤ disc.fatFlow.2 := by
  have isFold : disc.fatFlow =
      fattestOf (fun i => (disc.flow i).getNBytes) disc.nQueueDiscClasses := rfl
  have most := le_fattestOf (fun i => (disc.flow i).getNBytes) disc.nQueueDiscClasses
  have cases' := fattestOf_eq (fun i => (disc.flow i).getNBytes) disc.nQueueDiscClasses
  rw [← isFold] at most cases'
  have bytes (place : Nat) (inside : place < disc.nQueueDiscClasses) :
      (disc.flow place).backlog ≤ disc.fatFlow.2 := by
    rw [← FqCoDelFlow.getNBytes_of_lt (counted place inside)]
    exact most place inside
  have full : 0 < disc.fatFlow.2 := by
    by_contra empty
    have none : disc.getCurrentSize = 0 := by
      unfold getCurrentSize
      rw [List.sum_eq_zero_iff]
      intro size isSize
      obtain ⟨place, isPlace, rfl⟩ := List.mem_map.mp isSize
      have inside := List.mem_range.mp isPlace
      have noBytes := bytes place inside
      by_contra queued
      have someBytes := FqCoDelFlow.backlog_pos (positive place)
        (List.ne_nil_of_length_pos (Nat.pos_of_ne_zero queued))
      omega
    omega
  rcases cases' with isZero | ⟨inside, isBytes⟩
  · omega
  · rw [FqCoDelFlow.getNBytes_of_lt (counted _ inside)] at isBytes
    exact ⟨inside, isBytes, full, bytes⟩

/-- The drops of an overload are sound if the children count right. -/
theorem soundDrop (config : Config) (unused : disc.Unused) (positive : disc.Positive)
    (some : 0 < disc.getCurrentSize) (counted : disc.Counted) : disc.SoundDrop config := by
  obtain ⟨inside, isBytes, full, most⟩ := fatFlow_spec positive some counted
  have queued : (disc.flow disc.fatFlow.1).queue ≠ [] := by
    intro empty
    rw [isBytes, FqCoDelFlow.backlog, empty] at full
    exact Nat.lt_irrefl _ full
  have enough : disc.fatFlow.2 >>> 1 ≤ 0 + ((disc.flow disc.fatFlow.1).queue.map Item.size).sum := by
    rw [Nat.shiftRight_eq_div_pow, isBytes, FqCoDelFlow.backlog]
    omega
  obtain ⟨items, nonempty, isDropped, isQueue⟩ :=
    droppedBatch_spec config _ _ 0 0 queued enough
  refine ⟨fun place => ?_, ⟨items, nonempty, isDropped, ?_⟩, fun place apart => ?_⟩
  · rw [← isBytes]
    by_cases isClass : place < disc.nQueueDiscClasses
    · exact most place isClass
    · rw [FqCoDelFlow.backlog, unused place (by omega)]
      exact Nat.zero_le _
  · unfold fqCoDelDrop
    dsimp only
    rw [modify_flow, if_pos rfl]
    exact isQueue
  · unfold fqCoDelDrop
    dsimp only
    rw [modify_flow, if_neg apart]

/-- A drop makes room for a packet. -/
theorem getCurrentSize_fqCoDelDrop (unused : disc.Unused) (positive : disc.Positive)
    (some : 0 < disc.getCurrentSize) (counted : disc.Counted) :
    (disc.fqCoDelDrop config).getCurrentSize + 1 ≤ disc.getCurrentSize := by
  obtain ⟨inside, -⟩ := fatFlow_spec positive some counted
  obtain ⟨-, ⟨items, nonempty, -, isQueue⟩, others⟩ :=
    soundDrop config unused positive some counted
  have classes : (disc.fqCoDelDrop config).nQueueDiscClasses = disc.nQueueDiscClasses := rfl
  unfold getCurrentSize
  rw [classes]
  refine sum_range_succ_le inside fun place => ?_
  split
  · next here =>
    subst here
    have length := congrArg List.length isQueue
    have := List.length_pos_of_ne_nil nonempty
    rw [List.length_append] at length
    omega
  · next apart => rw [others place apart, Nat.add_zero]

theorem getCurrentSize_findFlow (unused : disc.Unused) (h : Nat) :
    (disc.findFlow h).1.getCurrentSize = disc.getCurrentSize := by
  have queue := findFlow_queue (unused disc.nQueueDiscClasses (Nat.le_refl _)) h
  cases isPlace : disc.flowsIndices h with
  | some place => simp [findFlow, isPlace]
  | none =>
      have classes : (disc.findFlow h).1.nQueueDiscClasses = disc.nQueueDiscClasses + 1 := by
        simp [findFlow, isPlace]
      unfold getCurrentSize
      simp only [queue, classes, List.range_succ, List.map_append, List.sum_append, List.map_cons,
        List.map_nil, List.sum_cons, List.sum_nil, unused disc.nQueueDiscClasses (Nat.le_refl _),
        List.length_nil, Nat.add_zero]

theorem getCurrentSize_enlist (unused : disc.Unused) (flowHash : Nat) (item : Item) :
    (disc.enlist config flowHash item).getCurrentSize ≤ disc.getCurrentSize + 1 := by
  have classified := shrunk_classify config disc flowHash
  have unused' : (disc.classify config flowHash).1.Unused := by
    intro place outside
    rw [classified.classes] at outside
    have queue := classified.queue place
    rw [unused place outside] at queue
    exact List.sublist_nil.mp queue
  have known := getCurrentSize_findFlow unused' (disc.classify config flowHash).2
  have activated := (shrunk_activate config (disc.flowOf config flowHash).1
    (disc.flowOf config flowHash).2).getCurrentSize_le
  have before : ((disc.flowOf config flowHash).1.activate config
      (disc.flowOf config flowHash).2).getCurrentSize ≤ disc.getCurrentSize :=
    (activated.trans (Nat.le_of_eq known)).trans classified.getCurrentSize_le
  refine Nat.le_trans ?_ (Nat.succ_le_succ before)
  unfold enlist
  refine sum_range_le_succ (disc.flowOf config flowHash).2 _ fun place => ?_
  rw [modify_flow]
  split
  · next here =>
    subst here
    rcases enqueue_queue (((disc.flowOf config flowHash).1.activate config
      (disc.flowOf config flowHash).2).flow (disc.flowOf config flowHash).2) config.maxSize
      item with refused | accepted
    · rw [refused]
      exact Nat.le_add_right _ _
    · rw [accepted, List.length_append]
      exact Nat.le_refl _
  · exact Nat.le_refl _

variable {largest : Nat} {item : Item}

theorem doEnqueue_eq (config : Config) (disc : FqCoDelQueueDisc) {flowHash : Nat}
    (isFlow : item.flowHash = some flowHash) :
    (disc.doEnqueue config item).1 =
      if (disc.enlist config flowHash item).getCurrentSize > config.maxSize then
        (disc.enlist config flowHash item).fqCoDelDrop config
      else disc.enlist config flowHash item := by
  unfold doEnqueue
  rw [isFlow]
  change (if (disc.enlist config flowHash item).getCurrentSize > config.maxSize then
    ((disc.enlist config flowHash item).fqCoDelDrop config, true)
    else (disc.enlist config flowHash item, true)).1 = _
  split <;> rfl

theorem Scheduled.enlist (scheduled : disc.Scheduled config largest)
    (bounded : item.size ≤ largest) (flowHash : Nat) :
    (disc.enlist config flowHash item).Scheduled config largest := by
  obtain ⟨known, inside⟩ := (scheduled.classify flowHash).findFlow
    (disc.classify config flowHash).2
  obtain ⟨activated, active, -⟩ := known.activate inside
  exact activated.enqueue active bounded config.maxSize

theorem Scheduled.isUnused (scheduled : disc.Scheduled config largest) : disc.Unused :=
  fun place outside => by rw [scheduled.unused place outside]

theorem Positive.sublist (positive : disc.Positive) (some : 0 < item.size)
    (queue : ∀ place, (after.flow place).queue.Sublist ((disc.flow place).queue ++ [item])) :
    after.Positive := by
  intro place other inside
  rcases List.mem_append.mp ((queue place).subset inside) with before | isNew
  · exact positive place other before
  · cases List.mem_singleton.mp isNew
    exact some

end FqCoDelQueueDisc

/-- The packets of a call have bytes. -/
def Call.Positive : Call → Prop
  | enqueue item => 0 < item.size
  | dequeue _ => True

namespace Session

variable (config : Config)

/-- The condition for a call: where it passes the limit, the children count right. -/
def Counted (session : Session) : Call → Prop
  | .enqueue item => ∀ flowHash ∈ item.flowHash,
      config.maxSize < (session.disc.enlist config flowHash item).getCurrentSize →
        (session.disc.enlist config flowHash item).Counted
  | .dequeue _ => True

/-- A call keeps the limit, and what it drops for that is right. -/
def KeepsLimit (session : Session) : Call → Prop
  | .enqueue item =>
      (session.step config (.enqueue item)).disc.getCurrentSize ≤ config.maxSize ∧
        ∀ flowHash ∈ item.flowHash,
          config.maxSize < (session.disc.enlist config flowHash item).getCurrentSize →
            (session.disc.enlist config flowHash item).SoundDrop config
  | .dequeue _ => True

instance : ∀ session call, Decidable (Counted config session call)
  | _, .enqueue _ => inferInstanceAs (Decidable (∀ flowHash ∈ _, _))
  | _, .dequeue _ => inferInstanceAs (Decidable True)

end Session

/-- Sessions where all the packets have bytes. -/
def positiveSessions (config : Config) : Machine Session Call where
  step := Session.step config
  Enabled _ call := call.Positive

instance (config : Config) : ∀ session call, Decidable ((positiveSessions config).Enabled session call)
  | _, .enqueue item => inferInstanceAs (Decidable (0 < item.size))
  | _, .dequeue _ => inferInstanceAs (Decidable True)

namespace Session

variable {config : Config} {session : Session}

/-- What a session keeps. -/
structure Bounded (config : Config) (session : Session) : Prop where
  invariant : session.Invariant config
  positive : session.disc.Positive
  size : session.disc.getCurrentSize ≤ config.maxSize

theorem bounded_initial (config : Config) : Bounded config {} where
  invariant := invariant_initial config
  positive := by
    intro place item inside
    cases inside
  size := Nat.zero_le _

/-- The size and the drops of one call. -/
theorem Bounded.keepsLimit (bounded : Bounded config session) {call : Call}
    (positive : call.Positive) (counted : session.Counted config call) :
    session.KeepsLimit config call := by
  cases call with
  | dequeue drops => trivial
  | enqueue item =>
      have unused := bounded.invariant.scheduled.isUnused
      dsimp only [KeepsLimit, Session.step]
      cases isFlow : item.flowHash with
      | none =>
          have refused : (session.disc.doEnqueue config item).1 = session.disc := by
            simp [FqCoDelQueueDisc.doEnqueue, isFlow]
          rw [refused]
          exact ⟨bounded.size, by simp⟩
      | some flowHash =>
          have scheduled : (session.disc.enlist config flowHash item).Scheduled config _ :=
            (bounded.invariant.scheduled.mono (Nat.le_max_left _ item.size)).enlist
              (Nat.le_max_right _ _) flowHash
          have admitted := bounded.positive.sublist positive
            (FqCoDelQueueDisc.enlist_sublist config (unused _ (Nat.le_refl _)) flowHash item)
          have size : (session.disc.enlist config flowHash item).getCurrentSize ≤ _ :=
            FqCoDelQueueDisc.getCurrentSize_enlist unused flowHash item
          have before := bounded.size
          have counted := counted flowHash isFlow
          rw [FqCoDelQueueDisc.doEnqueue_eq config session.disc isFlow]
          refine ⟨?_, fun other isOther overload => ?_⟩
          · split
            · next overload =>
              have room : (FqCoDelQueueDisc.fqCoDelDrop config _).getCurrentSize + 1 ≤ _ :=
                FqCoDelQueueDisc.getCurrentSize_fqCoDelDrop scheduled.isUnused admitted (by omega)
                  (counted overload)
              omega
            · omega
          · cases isOther
            exact FqCoDelQueueDisc.soundDrop config scheduled.isUnused admitted (by omega)
              (counted overload)

theorem Bounded.step (bounded : Bounded config session) {call : Call}
    (positive : call.Positive) (counted : session.Counted config call) :
    Bounded config (session.step config call) := by
  have unused := bounded.invariant.scheduled.isUnused
  have invariant := bounded.invariant.step call
  have limit := bounded.keepsLimit positive counted
  cases call with
  | enqueue item =>
      exact ⟨invariant, bounded.positive.sublist positive
        (FqCoDelQueueDisc.doEnqueue_sublist config (unused _ (Nat.le_refl _)) item), limit.1⟩
  | dequeue drops =>
      have shrunk := (FqCoDelQueueDisc.doDequeueFrom_spec config session.disc drops 0).1
      exact ⟨invariant, fun place item inside => bounded.positive place item
        ((shrunk.queue place).subset inside), shrunk.getCurrentSize_le.trans bounded.size⟩

end Session

/-- While the children count right, every call keeps the limit, in whatever unit one was asked
for. -/
theorem along_keepsLimit (config : Config) (size : QueueSize) {calls : List Call}
    (legal : (positiveSessions (config.setMaxSize size).1).Legal {} calls)
    (counted : (positiveSessions (config.setMaxSize size).1).Along
      (Session.Counted (config.setMaxSize size).1) {} calls) :
    (positiveSessions (config.setMaxSize size).1).Along
      (Session.KeepsLimit (config.setMaxSize size).1) {} calls := by
  generalize (config.setMaxSize size).1 = config at legal counted ⊢
  have bounded : (positiveSessions config).Always (Session.Bounded config) {} calls :=
    legal.always_of_along (fun _ _ bounded positive counted => bounded.step positive counted)
      (Session.bounded_initial config) counted
  exact counted.mono (fun _ _ bounded positive counted => bounded.keepsLimit positive counted)
    bounded legal

theorem smallQuantum_lt : 1 < 2 ^ 31 := by decide

/-- A queue disc with a quantum of one byte. -/
def smallQuantum : Config where
  quantum := 1
  flows := 4
  setWays := 4
  enableSetAssociativeHash := false
  dropBatchSize := 64
  maxSize := 10240
  quantum_pos := Nat.one_pos
  quantum_lt := smallQuantum_lt

theorem along_keepsLimit_small :
    (positiveSessions (smallQuantum.setMaxSize (.packets 1)).1).Along
      (Session.KeepsLimit (smallQuantum.setMaxSize (.packets 1)).1) {}
      [.enqueue (smallItem 0 0), .enqueue (smallItem 1 1)] :=
  along_keepsLimit smallQuantum (.packets 1) (by decide) (by decide)

/-- A large packet. -/
def largeItem (packet flowHash size : Nat) (size_lt : size < 2 ^ 31) : Item where
  packet := packet
  flowHash := some flowHash
  size := size
  size_lt := size_lt

/-- The first flow is drained, and two flows have packets of four gibibytes each. -/
def wrappedBytes : List Call :=
  [.enqueue (smallItem 0 0), .dequeue fun _ => 0,
    .enqueue (largeItem 1 1 (2 ^ 31 - 1) (by decide)),
    .enqueue (largeItem 2 1 (2 ^ 31 - 1) (by decide)), .enqueue (largeItem 3 1 2 (by decide)),
    .enqueue (largeItem 4 2 (2 ^ 31 - 1) (by decide)),
    .enqueue (largeItem 5 2 (2 ^ 31 - 1) (by decide)), .enqueue (largeItem 6 2 2 (by decide))]

/-- No flow seems to have bytes, and the loop drops from the first one. -/
theorem not_along_keepsLimit :
    ¬ ∀ config size calls, (positiveSessions (Config.setMaxSize config size).1).Legal {} calls →
      (positiveSessions (Config.setMaxSize config size).1).Along
        (Session.KeepsLimit (Config.setMaxSize config size).1) {} calls := by
  intro always
  have along := always smallQuantum (.packets 5) wrappedBytes (by decide)
  have sound := along.2.2.2.2.2.2.2.1.2 2 rfl (by decide +kernel)
  obtain ⟨items, -, isDropped, -⟩ := sound.fromHead
  have null : none ∈ items.map some := by
    rw [← isDropped]
    decide +kernel
  simp at null

end Ns3.TrafficControl.FqCoDel
