import Ns3.TrafficControl.QueueDisc.Traces
import Mathlib.Tactic.Abel

/-!
The books of a tree of queue discs.

An item that a running call has taken out of a queue is counted as dequeued below the first
queue disc with `m_peeked` set, and owed to the others. At every moment the items that were
enqueued at a queue disc are those it has counted as dequeued, those it holds and those owed
to it.
-/

namespace Ns3.TrafficControl

open Library

/-- The bytes of some items. -/
def bytes (items : Multiset QueueDiscItem) : Nat :=
  (items.map (·.size.toNat)).sum

@[simp]
theorem bytes_add (items others : Multiset QueueDiscItem) :
    bytes (items + others) = bytes items + bytes others := by
  simp [bytes]

@[simp]
theorem bytes_cons (item : QueueDiscItem) (items : Multiset QueueDiscItem) :
    bytes (item ::ₘ items) = item.size.toNat + bytes items := by
  simp [bytes]

theorem ofNat_succ (width number : Nat) :
    BitVec.ofNat width (number + 1) = BitVec.ofNat width number + 1 := by
  rw [BitVec.ofNat_add]
  rfl

theorem ofNat_toNat_add (width number : Nat) (size : BitVec 32) :
    BitVec.ofNat width (size.toNat + number) = BitVec.ofNat width number + size.setWidth width := by
  rw [BitVec.ofNat_add, BitVec.add_comm, BitVec.ofNat_toNat]

theorem setWidth_sub (left right : BitVec 64) :
    (left - right).setWidth 32 = left.setWidth 32 - right.setWidth 32 := by
  rw [eq_sub_iff_add_eq, ← BitVec.setWidth_add _ _ (by decide), sub_add_cancel]

theorem setWidth_add_size (number : BitVec 64) (size : BitVec 32) :
    (number + size.setWidth 64).setWidth 32 = number.setWidth 32 + size := by
  rw [BitVec.setWidth_add _ _ (by decide), BitVec.setWidth_setWidth_of_le _ (by decide),
    BitVec.setWidth_eq]

namespace QueueDisc

/-- The counters are what the trace sources have been fired for. -/
structure Tracks (disc : QueueDisc) : Prop where
  receivedPackets : disc.stats.nTotalReceivedPackets =
    BitVec.ofNat 32 (Multiset.card disc.traces.received)
  receivedBytes : disc.stats.nTotalReceivedBytes = BitVec.ofNat 64 (bytes disc.traces.received)
  enqueuedPackets : disc.stats.nTotalEnqueuedPackets =
    BitVec.ofNat 32 (Multiset.card disc.traces.enqueue)
  enqueuedBytes : disc.stats.nTotalEnqueuedBytes = BitVec.ofNat 64 (bytes disc.traces.enqueue)
  dequeuedPackets : disc.stats.nTotalDequeuedPackets =
    BitVec.ofNat 32 (Multiset.card disc.traces.dequeue)
  dequeuedBytes : disc.stats.nTotalDequeuedBytes = BitVec.ofNat 64 (bytes disc.traces.dequeue)
  droppedPackets : disc.stats.nTotalDroppedPacketsBeforeEnqueue =
    BitVec.ofNat 32 (Multiset.card disc.traces.dropBeforeEnqueue)
  droppedBytes : disc.stats.nTotalDroppedBytesBeforeEnqueue =
    BitVec.ofNat 64 (bytes disc.traces.dropBeforeEnqueue)
  nPackets_eq : disc.nPackets =
    disc.stats.nTotalEnqueuedPackets - disc.stats.nTotalDequeuedPackets
  nBytes_eq : disc.nBytes =
    (disc.stats.nTotalEnqueuedBytes - disc.stats.nTotalDequeuedBytes).setWidth 32

variable {disc : QueueDisc} {item : QueueDiscItem}

theorem Tracks.fresh : ({} : QueueDisc).Tracks := by
  constructor <;> rfl

theorem Tracks.countReceived (tracks : disc.Tracks) : (disc.countReceived item).Tracks := by
  constructor
  case receivedPackets =>
    simp only [QueueDisc.countReceived, tracks.receivedPackets, Multiset.card_cons, ofNat_succ]
  case receivedBytes =>
    simp only [QueueDisc.countReceived, tracks.receivedBytes, bytes_cons, ofNat_toNat_add]
  all_goals first
    | exact tracks.enqueuedPackets | exact tracks.enqueuedBytes
    | exact tracks.dequeuedPackets | exact tracks.dequeuedBytes
    | exact tracks.droppedPackets | exact tracks.droppedBytes
    | exact tracks.nPackets_eq | exact tracks.nBytes_eq

theorem Tracks.countDroppedBefore (tracks : disc.Tracks) (reason : String) :
    (disc.countDroppedBefore item reason).Tracks := by
  constructor
  case droppedPackets =>
    simp only [QueueDisc.countDroppedBefore, tracks.droppedPackets, Multiset.card_cons,
      ofNat_succ]
  case droppedBytes =>
    simp only [QueueDisc.countDroppedBefore, tracks.droppedBytes, bytes_cons, ofNat_toNat_add]
  all_goals first
    | exact tracks.receivedPackets | exact tracks.receivedBytes
    | exact tracks.enqueuedPackets | exact tracks.enqueuedBytes
    | exact tracks.dequeuedPackets | exact tracks.dequeuedBytes
    | exact tracks.nPackets_eq | exact tracks.nBytes_eq

theorem Tracks.countEnqueued (tracks : disc.Tracks) : (disc.countEnqueued item).Tracks := by
  constructor
  case enqueuedPackets =>
    simp only [QueueDisc.countEnqueued, tracks.enqueuedPackets, Multiset.card_cons, ofNat_succ]
  case enqueuedBytes =>
    simp only [QueueDisc.countEnqueued, tracks.enqueuedBytes, bytes_cons, ofNat_toNat_add]
  case nPackets_eq =>
    simp only [QueueDisc.countEnqueued, tracks.nPackets_eq]
    abel
  case nBytes_eq =>
    simp only [QueueDisc.countEnqueued, tracks.nBytes_eq, setWidth_sub, setWidth_add_size]
    abel
  all_goals first
    | exact tracks.receivedPackets | exact tracks.receivedBytes
    | exact tracks.dequeuedPackets | exact tracks.dequeuedBytes
    | exact tracks.droppedPackets | exact tracks.droppedBytes

theorem Tracks.countDequeued (tracks : disc.Tracks) : (disc.countDequeued item).Tracks := by
  constructor
  case dequeuedPackets =>
    simp only [QueueDisc.countDequeued, tracks.dequeuedPackets, Multiset.card_cons, ofNat_succ]
  case dequeuedBytes =>
    simp only [QueueDisc.countDequeued, tracks.dequeuedBytes, bytes_cons, ofNat_toNat_add]
  case nPackets_eq =>
    simp only [QueueDisc.countDequeued, tracks.nPackets_eq]
    abel
  case nBytes_eq =>
    simp only [QueueDisc.countDequeued, tracks.nBytes_eq, setWidth_sub, setWidth_add_size]
    abel
  all_goals first
    | exact tracks.receivedPackets | exact tracks.receivedBytes
    | exact tracks.enqueuedPackets | exact tracks.enqueuedBytes
    | exact tracks.droppedPackets | exact tracks.droppedBytes

theorem Tracks.countDroppedAfter (tracks : disc.Tracks) (reason : String) :
    (disc.countDroppedAfter item reason).Tracks := by
  cases tracks
  constructor <;> assumption

theorem Tracks.countDropped (tracks : disc.Tracks) (reason : String) (shielded : Prop)
    [Decidable shielded] : (disc.countDropped item reason shielded).Tracks := by
  rw [QueueDisc.countDropped]
  split
  · exact (tracks.countDroppedAfter reason).countDequeued
  · exact tracks.countDroppedAfter reason

theorem Tracks.requeue (tracks : disc.Tracks) : (disc.requeue item).Tracks := by
  cases tracks
  constructor <;> assumption

/-- The counters do not depend on the queues and the peeked item. -/
theorem Tracks.refit (tracks : disc.Tracks) (peeked : Bool) (requeued : Option QueueDiscItem)
    (queues : List Queue) : { disc with peeked, requeued, queues }.Tracks := by
  cases tracks
  constructor <;> assumption

@[simp]
theorem own_countReceived : (disc.countReceived item).own = disc.own := rfl

@[simp]
theorem own_countEnqueued : (disc.countEnqueued item).own = disc.own := rfl

@[simp]
theorem own_countDequeued : (disc.countDequeued item).own = disc.own := rfl

@[simp]
theorem own_countDroppedBefore (reason : String) :
    (disc.countDroppedBefore item reason).own = disc.own := rfl

@[simp]
theorem own_countDropped (reason : String) (shielded : Prop) [Decidable shielded] :
    (disc.countDropped item reason shielded).own = disc.own := by
  rw [countDropped]
  split <;> rfl

theorem sum_modify {queues : List Queue} {index : Nat} {queue : Queue}
    {lost gained : Multiset QueueDiscItem} {change : Queue → Queue}
    (found : queues[index]? = some queue)
    (changed : ((change queue).packets : Multiset QueueDiscItem) + lost =
      (queue.packets : Multiset QueueDiscItem) + gained) :
    ((queues.modify index change).map fun queue =>
        (queue.packets : Multiset QueueDiscItem)).sum + lost =
      (queues.map fun queue => (queue.packets : Multiset QueueDiscItem)).sum + gained := by
  induction queues generalizing index with
  | nil => simp at found
  | cons first rest inductionHypothesis =>
      cases index with
      | zero =>
          obtain rfl : first = queue := by simpa using found
          simp only [List.modify_zero_cons, List.map_cons, List.sum_cons]
          rw [add_right_comm, changed, add_right_comm]
      | succ index =>
          have := inductionHypothesis (by simpa using found)
          simp only [List.modify_succ_cons, List.map_cons, List.sum_cons, add_assoc, this]

/-- A change of one internal queue shows in the items of the queue disc. -/
theorem own_modifyQueue {index : Nat} {queue : Queue} {lost gained : Multiset QueueDiscItem}
    {change : Queue → Queue} (found : disc.queues[index]? = some queue)
    (changed : ((change queue).packets : Multiset QueueDiscItem) + lost =
      (queue.packets : Multiset QueueDiscItem) + gained) :
    (disc.modifyQueue index change).own + lost = disc.own + gained := by
  have sums := sum_modify found changed
  rw [own, own, add_right_comm]
  exact (congrArg (· + _) sums).trans (add_right_comm _ _ _)

end QueueDisc

namespace Queue

variable {queue : Queue} {item : QueueDiscItem} {position : Nat}

theorem packets_erase (found : queue.item? position = some item) :
    ((queue.erase position item).packets : Multiset QueueDiscItem) + {item} =
      (queue.packets : Multiset QueueDiscItem) + 0 := by
  rw [Queue.item?] at found
  split at found
  · simp at found
  · obtain ⟨within, rfl⟩ := List.getElem?_eq_some_iff.mp found
    rw [add_zero, add_comm, Multiset.singleton_add]
    exact Multiset.coe_eq_coe.mpr (List.getElem_cons_eraseIdx_perm within)

theorem packets_insert (within : position ≤ queue.packets.length) :
    ((queue.insert position item).packets : Multiset QueueDiscItem) + 0 =
      (queue.packets : Multiset QueueDiscItem) + {item} := by
  rw [add_zero, add_comm, Multiset.singleton_add]
  exact Multiset.coe_eq_coe.mpr (List.perm_insertIdx item queue.packets within)

end Queue

namespace Tree

variable {tree other : Tree} {path : Path} {item : QueueDiscItem}

/-- What one queue disc loses and gains, all queue discs above it lose and gain. -/
theorem held_change {lost gained : Multiset QueueDiscItem} (paths : other.paths = tree.paths)
    (present : path ∈ tree.paths)
    (same : ∀ below, below ≠ path → (other.discs below).own = (tree.discs below).own)
    (changed : (other.discs path).own + lost = (tree.discs path).own + gained) (above : Path) :
    other.held above + (if above <:+ path then lost else 0) =
      tree.held above + if above <:+ path then gained else 0 := by
  rw [held, held, paths]
  by_cases reached : above <:+ path
  · have member : path ∈ tree.paths.filter (above <:+ ·) := by simp [present, reached]
    rw [← Finset.add_sum_erase _ _ member, ← Finset.add_sum_erase _ _ member]
    have rest : ∑ below ∈ (tree.paths.filter (above <:+ ·)).erase path, (other.discs below).own =
        ∑ below ∈ (tree.paths.filter (above <:+ ·)).erase path, (tree.discs below).own :=
      Finset.sum_congr rfl fun below found => same below (Finset.ne_of_mem_erase found)
    simp only [reached, if_true, rest]
    rw [add_right_comm, changed, add_right_comm]
  · simp only [reached, if_false, add_zero]
    refine Finset.sum_congr rfl fun below found => same below ?_
    rintro rfl
    exact reached (Finset.mem_filter.mp found).2

end Tree

/-- What a call still has to say about the item it was called with. -/
def Frame.debt (frame : Frame) (above : Path) : Multiset QueueDiscItem :=
  if above <:+ frame.path then (frame.pending.toList : Multiset QueueDiscItem) else 0

/-- What a call has taken without that the queue disc has counted it. -/
def Frame.owed (frame : Frame) (tree : Tree) (above : Path) : Multiset QueueDiscItem :=
  if above <:+ frame.path ∧ tree.Shielded frame.path above then
    (frame.hand : Multiset QueueDiscItem)
  else 0

/-- The innermost call runs on this path: each call is made by the parent, and the first one
on the root. -/
def Chained : List Path → Prop
  | [] => True
  | [path] => path = []
  | path :: parent :: rest => (∃ index, path = index :: parent) ∧ Chained (parent :: rest)

namespace Session

/-- What all running calls have to say. -/
def debt (session : Session) (above : Path) : Multiset QueueDiscItem :=
  (session.frames.map (·.debt above)).sum

/-- What all running calls have taken. -/
def owed (session : Session) (above : Path) : Multiset QueueDiscItem :=
  (session.frames.map (·.owed session.tree above)).sum

/-- The running calls and the flags of the queue discs fit together. -/
structure Shaped (session : Session) : Prop where
  chained : Chained (session.frames.map (·.path))
  root : [] ∈ session.tree.paths
  present : ∀ frame ∈ session.frames, frame.path ∈ session.tree.paths
  dequeuing : ∀ frame ∈ session.frames, frame.role = .dequeue →
    (session.tree.discs frame.path).peeked = false
  peeking : ∀ frame ∈ session.frames, frame.role = .peek →
    (session.tree.discs frame.path).peeked = true ∧
      (session.tree.discs frame.path).requeued = none
  peeked : ∀ path, (session.tree.discs path).peeked = true →
    (session.tree.discs path).requeued ≠ none ∨
      ∃ frame ∈ session.frames, frame.role = .peek ∧ frame.path = path
  requeued : ∀ path, (session.tree.discs path).requeued ≠ none →
    (session.tree.discs path).peeked = true ∨ path = []
  outside : ∀ path, path ∉ session.tree.paths → (session.tree.discs path).own = 0

/-- The books of a queue disc at any moment. -/
structure Balanced (session : Session) (path : Path) : Prop where
  tracks : (session.tree.discs path).Tracks
  received : (session.tree.discs path).traces.received =
    (session.tree.discs path).traces.enqueue +
      (session.tree.discs path).traces.dropBeforeEnqueue + session.debt path
  conserved : (session.tree.discs path).traces.enqueue =
    (session.tree.discs path).traces.dequeue + session.tree.held path + session.owed path

/-- The invariant of all runs. -/
structure Accounts (session : Session) : Prop where
  shaped : session.Shaped
  balanced : ∀ path, session.Balanced path

end Session

theorem Chained.shorter {path : Path} {rest : List Path} (chained : Chained (path :: rest)) :
    ∀ outer ∈ rest, outer.length < path.length := by
  induction rest generalizing path with
  | nil => simp
  | cons parent rest inductionHypothesis =>
      obtain ⟨⟨index, rfl⟩, chained⟩ := chained
      intro outer member
      rcases List.mem_cons.mp member with rfl | further
      · simp
      · exact (inductionHypothesis chained outer further).trans (by simp)

theorem Chained.tail {path : Path} {rest : List Path} (chained : Chained (path :: rest)) :
    Chained rest := by
  cases rest with
  | nil => trivial
  | cons parent rest => exact chained.2

/-- The tree changes in the items of one queue disc and in counters, but in no flag. -/
structure Tree.Moves (tree other : Tree) (path : Path)
    (lost gained : Multiset QueueDiscItem) : Prop where
  paths : other.paths = tree.paths
  peeked : ∀ above, (other.discs above).peeked = (tree.discs above).peeked
  requeued : ∀ above, (other.discs above).requeued = (tree.discs above).requeued
  same : ∀ below, below ≠ path → (other.discs below).own = (tree.discs below).own
  changed : (other.discs path).own + lost = (tree.discs path).own + gained

namespace Tree.Moves

variable {tree other : Tree} {path : Path} {lost gained : Multiset QueueDiscItem}

theorem held (moves : tree.Moves other path lost gained) (present : path ∈ tree.paths)
    (above : Path) :
    other.held above + (if above <:+ path then lost else 0) =
      tree.held above + if above <:+ path then gained else 0 :=
  held_change moves.paths present moves.same moves.changed above

theorem shielded (moves : tree.Moves other path lost gained) (from' above : Path) :
    other.Shielded from' above ↔ tree.Shielded from' above :=
  shielded_congr fun between _ => moves.peeked between

theorem owed (moves : tree.Moves other path lost gained) (frame : Frame) (above : Path) :
    frame.owed other above = frame.owed tree above := by
  simp only [Frame.owed, moves.shielded]

end Tree.Moves

namespace Session.Shaped

variable {tree other : Tree} {frames others : List Frame} {path : Path}
  {lost gained : Multiset QueueDiscItem}

/-- The shape sees of a call only its path and its role. -/
theorem move (shaped : Shaped ⟨tree, frames⟩) (moves : tree.Moves other path lost gained)
    (present : path ∈ tree.paths)
    (outline : others.map (fun frame => (frame.path, frame.role)) =
      frames.map fun frame => (frame.path, frame.role)) : Shaped ⟨other, others⟩ := by
  have found : ∀ frame ∈ others, ∃ former ∈ frames,
      former.path = frame.path ∧ former.role = frame.role := by
    intro frame member
    have image : (frame.path, frame.role) ∈ frames.map fun frame => (frame.path, frame.role) :=
      outline ▸ List.mem_map_of_mem member
    simpa using image
  have found' : ∀ frame ∈ frames, ∃ later ∈ others,
      later.path = frame.path ∧ later.role = frame.role := by
    intro frame member
    have image : (frame.path, frame.role) ∈ others.map fun frame => (frame.path, frame.role) :=
      outline ▸ List.mem_map_of_mem member
    simpa using image
  have paths : others.map (·.path) = frames.map (·.path) := by
    simpa [Function.comp_def] using congrArg (List.map Prod.fst) outline
  constructor
  case chained => exact paths ▸ shaped.chained
  case root => exact moves.paths ▸ shaped.root
  case present =>
    intro frame member
    obtain ⟨former, before, samePath, _⟩ := found frame member
    have there := shaped.present former before
    simp only [moves.paths]
    exact samePath ▸ there
  case dequeuing =>
    intro frame member role
    obtain ⟨former, before, samePath, sameRole⟩ := found frame member
    have flag := shaped.dequeuing former before (sameRole.trans role)
    simp only [moves.peeked]
    exact samePath ▸ flag
  case peeking =>
    intro frame member role
    obtain ⟨former, before, samePath, sameRole⟩ := found frame member
    have flags := shaped.peeking former before (sameRole.trans role)
    simp only [moves.peeked, moves.requeued]
    exact samePath ▸ flags
  case peeked =>
    intro path flag
    simp only [moves.peeked, moves.requeued] at flag ⊢
    rcases shaped.peeked path flag with held | ⟨former, before, role, there⟩
    · exact .inl held
    · obtain ⟨later, member, samePath, sameRole⟩ := found' former before
      exact .inr ⟨later, member, sameRole.trans role, samePath.trans there⟩
  case requeued =>
    intro path held
    simp only [moves.peeked, moves.requeued] at held ⊢
    exact shaped.requeued path held
  case outside =>
    intro below absent
    simp only [moves.paths] at absent
    have different : below ≠ path := by
      rintro rfl
      exact absent present
    exact (moves.same below different).trans (shaped.outside below absent)

end Session.Shaped

end Ns3.TrafficControl
