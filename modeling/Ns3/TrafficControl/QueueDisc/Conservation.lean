import Ns3.TrafficControl.QueueDisc.Accounting

/-!
The calls that move items without a peek keep the books of every queue disc.

Each of them changes what one queue disc owns, what the queue discs above it have counted and
what the innermost call has at hand. `Balanced.follow` is the arithmetic they share.
-/

namespace Ns3.TrafficControl

open Library

variable {tree other : Tree} {path : Path} {item : QueueDiscItem}
  {lost gained : Multiset QueueDiscItem}

namespace Tree

/-- A queue disc without the flag shields nobody. -/
theorem shielded_cons_unpeeked {index : Nat} {above : Path}
    (unpeeked : (tree.discs (index :: path)).peeked = false) :
    (above <:+ index :: path ∧ tree.Shielded (index :: path) above) ↔
      above <:+ path ∧ tree.Shielded path above := by
  by_cases reached : above <:+ path
  · simp [reached, shielded_cons reached, unpeeked, reached.trans (List.suffix_cons index path)]
  · simp only [reached, false_and, iff_false, List.suffix_cons_iff, or_false, not_and]
    rintro rfl
    simp [shielded_self, unpeeked]

theorem Moves.trans {last : Tree} (moves : tree.Moves other path lost gained)
    (further : other.Moves last path 0 0) : tree.Moves last path lost gained where
  paths := further.paths.trans moves.paths
  peeked above := (further.peeked above).trans (moves.peeked above)
  requeued above := (further.requeued above).trans (moves.requeued above)
  same below different := (further.same below different).trans (moves.same below different)
  changed := by
    have unchanged := further.changed
    simp only [add_zero] at unchanged
    rw [unchanged, moves.changed]

theorem Moves.of_discs (paths : other.paths = tree.paths)
    (same : ∀ above, (other.discs above).peeked = (tree.discs above).peeked ∧
      (other.discs above).requeued = (tree.discs above).requeued ∧
      (other.discs above).own = (tree.discs above).own) : tree.Moves other path 0 0 where
  paths := paths
  peeked above := (same above).1
  requeued above := (same above).2.1
  same below _ := (same below).2.2
  changed := by simp [(same path).2.2]

theorem packetEnqueued_moves : tree.Moves (packetEnqueued item path tree) path 0 0 := by
  refine .of_discs packetEnqueued_paths fun above => ?_
  rw [packetEnqueued_discs]
  split <;> exact ⟨rfl, rfl, rfl⟩

theorem packetDequeued_moves : tree.Moves (packetDequeued item path tree) path 0 0 := by
  refine .of_discs packetDequeued_paths fun above => ?_
  rw [packetDequeued_discs]
  split <;> exact ⟨rfl, rfl, rfl⟩

theorem dropBeforeEnqueue_moves (reason : String) :
    tree.Moves (dropBeforeEnqueue item path reason tree) path 0 0 := by
  obtain ⟨reasons, discs⟩ := @dropBeforeEnqueue_discs tree path item reason
  refine .of_discs (dropBeforeEnqueue_paths reason) fun above => ?_
  rw [discs]
  split <;> exact ⟨rfl, rfl, rfl⟩

theorem dropAfterDequeue_moves (reason : String) :
    tree.Moves (dropAfterDequeue item path reason tree) path 0 0 := by
  obtain ⟨reasons, discs⟩ := @dropAfterDequeue_discs tree path item reason
  refine .of_discs (dropAfterDequeue_paths reason) fun above => ?_
  rw [discs, QueueDisc.countDropped]
  split_ifs <;> exact ⟨rfl, rfl, rfl⟩

theorem modifyQueue_moves {index : Nat} {queue : Queue} {change : Queue → Queue}
    (found : tree.queue? path index = some queue)
    (changed : ((change queue).packets : Multiset QueueDiscItem) + lost =
      (queue.packets : Multiset QueueDiscItem) + gained) :
    tree.Moves (tree.modify path (·.modifyQueue index change)) path lost gained where
  paths := rfl
  peeked above := by
    rw [modify_discs]
    split
    case isTrue same => simp [same, QueueDisc.modifyQueue]
    case isFalse => rfl
  requeued above := by
    rw [modify_discs]
    split
    case isTrue same => simp [same, QueueDisc.modifyQueue]
    case isFalse => rfl
  same below different := by simp [modify_discs, different]
  changed := by
    rw [modify_discs_same]
    exact QueueDisc.own_modifyQueue found changed

/-- A change that leaves the packets of a queue where they are. -/
theorem modifyQueue_keeps (index : Nat) {change : Queue → Queue}
    (keeps : ∀ queue, (change queue).packets = queue.packets) :
    tree.Moves (tree.modify path (·.modifyQueue index change)) path 0 0 := by
  cases found : tree.queue? path index with
  | some queue => exact modifyQueue_moves found (by rw [keeps])
  | none =>
      have unchanged : tree.modify path (·.modifyQueue index change) = tree := by
        have : (tree.discs path).queues.modify index change = (tree.discs path).queues :=
          List.modify_eq_self (List.getElem?_eq_none_iff.mp found)
        simp [modify, QueueDisc.modifyQueue, this]
      rw [unchanged]
      exact .of_discs rfl fun above => ⟨rfl, rfl, rfl⟩

theorem item?_spec {index position : Nat}
    (found : tree.item? path index position = some item) :
    ∃ queue, tree.queue? path index = some queue ∧ queue.item? position = some item := by
  simpa [item?, Option.bind_eq_some_iff] using found

theorem erase_moves {index position : Nat}
    (found : tree.item? path index position = some item) :
    tree.Moves (tree.modify path (·.modifyQueue index (·.erase position item))) path {item} 0 := by
  obtain ⟨queue, there, first⟩ := item?_spec found
  exact modifyQueue_moves there (Queue.packets_erase first)

theorem modify_modify (change next : QueueDisc → QueueDisc) :
    (tree.modify path change).modify path next = tree.modify path (next ∘ change) := by
  simp [modify]

theorem modifyQueue_traces {index : Nat} {change : Queue → Queue} (above : Path) :
    ((tree.modify path (·.modifyQueue index change)).discs above).traces =
      (tree.discs above).traces := by
  rw [modify_discs]
  split
  case isTrue same => simp [same, QueueDisc.modifyQueue]
  case isFalse => rfl

theorem modifyQueue_tracks {index : Nat} {change : Queue → Queue} {above : Path}
    (tracks : (tree.discs above).Tracks) :
    ((tree.modify path (·.modifyQueue index change)).discs above).Tracks := by
  rw [modify_discs]
  split
  case isTrue same => exact (same ▸ tracks).refit _ _ _
  case isFalse => exact tracks

end Tree

@[simp]
theorem Frame.debt_none (path above : Path) (role : Role) (hand : List QueueDiscItem) :
    Frame.debt ⟨path, role, none, hand⟩ above = 0 := by
  simp [Frame.debt]

@[simp]
theorem Frame.debt_some (path above : Path) (role : Role) (item : QueueDiscItem)
    (hand : List QueueDiscItem) :
    Frame.debt ⟨path, role, some item, hand⟩ above = if above <:+ path then {item} else 0 := by
  simp [Frame.debt]

@[simp]
theorem Frame.owed_nil (path above : Path) (role : Role) (pending : Option QueueDiscItem) :
    Frame.owed ⟨path, role, pending, []⟩ tree above = 0 := by
  simp [Frame.owed]

theorem coe_cons_eq (item : QueueDiscItem) (items : List QueueDiscItem) :
    ((item :: items : List QueueDiscItem) : Multiset QueueDiscItem) = ↑items + {item} := by
  rw [add_comm, Multiset.singleton_add, Multiset.cons_coe]

theorem Frame.owed_deliver (frame : Frame) (item : QueueDiscItem) (tree : Tree) (above : Path) :
    Frame.owed { frame with hand := item :: frame.hand } tree above =
      frame.owed tree above +
        if above <:+ frame.path ∧ tree.Shielded frame.path above then {item} else 0 := by
  by_cases owes : above <:+ frame.path ∧ tree.Shielded frame.path above
  · simp [Frame.owed, owes, coe_cons_eq]
  · simp [Frame.owed, owes]

namespace Session

variable {session later : Session} {above : Path}

/-- How the books of a queue disc follow a call: what is received, enqueued, dequeued and
dropped by it, and what is lost and gained below. -/
theorem Balanced.follow (balanced : session.Balanced above)
    (received enqueue dequeue drop : Multiset QueueDiscItem)
    (tracks : (later.tree.discs above).Tracks)
    (sameReceived : (later.tree.discs above).traces.received =
      (session.tree.discs above).traces.received + received)
    (sameEnqueue : (later.tree.discs above).traces.enqueue =
      (session.tree.discs above).traces.enqueue + enqueue)
    (sameDequeue : (later.tree.discs above).traces.dequeue =
      (session.tree.discs above).traces.dequeue + dequeue)
    (sameDrop : (later.tree.discs above).traces.dropBeforeEnqueue =
      (session.tree.discs above).traces.dropBeforeEnqueue + drop)
    (held : later.tree.held above + lost = session.tree.held above + gained)
    (debt : session.debt above + received = enqueue + drop + later.debt above)
    (owed : session.owed above + enqueue + lost = dequeue + gained + later.owed above) :
    later.Balanced above where
  tracks := tracks
  received := by
    rw [sameReceived, sameEnqueue, sameDrop, balanced.received, add_assoc, debt]
    abel
  conserved := by
    rw [sameEnqueue, sameDequeue, balanced.conserved]
    refine add_right_cancel (b := lost) ?_
    calc
      _ = (session.tree.discs above).traces.dequeue + session.tree.held above +
          (session.owed above + enqueue + lost) := by abel
      _ = (session.tree.discs above).traces.dequeue + dequeue +
          (session.tree.held above + gained) + later.owed above := by rw [owed]; abel
      _ = _ := by rw [← held]; abel

/-- The innermost call has changed in what it has at hand and in what it has to say. -/
theorem Accounts.move {frame changed : Frame} {rest : List Frame}
    (accounts : Accounts ⟨tree, frame :: rest⟩) (moves : tree.Moves other path lost gained)
    (present : path ∈ tree.paths) (samePath : changed.path = frame.path)
    (sameRole : changed.role = frame.role)
    (tracks : ∀ above, (tree.discs above).Tracks → (other.discs above).Tracks)
    (traces : ∀ above, ∃ enqueue dequeue drop : Multiset QueueDiscItem,
      (other.discs above).traces.received = (tree.discs above).traces.received ∧
      (other.discs above).traces.enqueue = (tree.discs above).traces.enqueue + enqueue ∧
      (other.discs above).traces.dequeue = (tree.discs above).traces.dequeue + dequeue ∧
      (other.discs above).traces.dropBeforeEnqueue =
        (tree.discs above).traces.dropBeforeEnqueue + drop ∧
      frame.debt above = enqueue + drop + changed.debt above ∧
      frame.owed tree above + enqueue + (if above <:+ path then lost else 0) =
        dequeue + (if above <:+ path then gained else 0) + changed.owed tree above) :
    Accounts ⟨other, changed :: rest⟩ where
  shaped := accounts.shaped.move moves present (by simp [samePath, sameRole])
  balanced above := by
    obtain ⟨enqueue, dequeue, drop, received, enqueued, dequeued, dropped, debt, owed⟩ :=
      traces above
    refine (accounts.balanced above).follow 0 enqueue dequeue drop
      (tracks above (accounts.balanced above).tracks) (by simpa using received) enqueued
      dequeued dropped (moves.held present above) ?_ ?_
    · simp only [Session.debt, List.map_cons, List.sum_cons, debt]
      abel
    · simp only [Session.owed, List.map_cons, List.sum_cons, moves.owed]
      calc
        _ = (frame.owed tree above + enqueue + if above <:+ path then lost else 0) +
            (rest.map (·.owed tree above)).sum := by abel
        _ = _ := by rw [owed]; abel

variable {frame : Frame} {rest : List Frame}

theorem Accounts.dropBeforeEnqueue (accounts : Accounts ⟨tree, frame :: rest⟩)
    (pending : frame.pending = some item) (reason : String) :
    Accounts ⟨Tree.dropBeforeEnqueue item frame.path reason tree,
      { frame with pending := none } :: rest⟩ := by
  obtain ⟨reasons, discs⟩ := @Tree.dropBeforeEnqueue_discs tree frame.path item reason
  refine accounts.move (Tree.dropBeforeEnqueue_moves reason)
    (accounts.shaped.present frame (by simp)) rfl rfl ?_ ?_
  · intro above tracks
    rw [discs]
    split
    · exact tracks.countDroppedBefore _
    · exact tracks
  · intro above
    refine ⟨0, 0, if above <:+ frame.path then {item} else 0, ?_⟩
    rw [discs]
    by_cases reached : above <:+ frame.path
    · simp [reached, QueueDisc.countDroppedBefore, Frame.debt, Frame.owed, pending, add_comm,
        Multiset.singleton_add]
    · simp [reached, Frame.debt, Frame.owed]

theorem Accounts.enqueueInternal {index position : Nat} {queue : Queue}
    (accounts : Accounts ⟨tree, frame :: rest⟩) (pending : frame.pending = some item)
    (found : tree.queue? frame.path index = some queue)
    (within : position ≤ queue.packets.length) :
    Accounts ⟨tree.enqueueInternal frame.path index position item,
      { frame with pending := none } :: rest⟩ := by
  have present := accounts.shaped.present frame (by simp)
  rw [Tree.enqueueInternal, found]
  by_cases full : queue.full item
  · have noted : Accounts ⟨tree.modify frame.path
        (·.modifyQueue index (·.dropBeforeEnqueue item)), frame :: rest⟩ := by
      refine accounts.move (Tree.modifyQueue_keeps index fun queue => rfl) present rfl rfl
        (fun above tracks => Tree.modifyQueue_tracks tracks) fun above => ⟨0, 0, 0, ?_⟩
      simp [Tree.modifyQueue_traces]
    simp only [full, if_true]
    exact noted.dropBeforeEnqueue pending _
  · simp only [full, Bool.false_eq_true, if_false]
    refine accounts.move ((Tree.modifyQueue_moves found (Queue.packets_insert within)).trans
      Tree.packetEnqueued_moves) present rfl rfl ?_ ?_
    · intro above tracks
      rw [Tree.packetEnqueued_discs]
      split
      · exact (Tree.modifyQueue_tracks tracks).countEnqueued
      · exact Tree.modifyQueue_tracks tracks
    · intro above
      refine ⟨if above <:+ frame.path then {item} else 0, 0, 0, ?_⟩
      rw [Tree.packetEnqueued_discs]
      by_cases reached : above <:+ frame.path
      · simp [reached, QueueDisc.countEnqueued, Frame.debt, Frame.owed, pending, add_comm,
          Multiset.singleton_add, Tree.modifyQueue_traces]
      · simp [reached, Frame.debt, Frame.owed, Tree.modifyQueue_traces]

/-- An item goes from an internal queue into the hand of the innermost call. It is counted
wherever the call does not owe it. -/
theorem Accounts.dequeueInternal {index position : Nat}
    (accounts : Accounts ⟨tree, frame :: rest⟩)
    (found : tree.item? path index position = some item) (present : path ∈ tree.paths)
    (below : frame.path <:+ path)
    (shields : ∀ above, above <:+ path →
      (tree.Shielded path above ↔ above <:+ frame.path ∧ tree.Shielded frame.path above)) :
    Accounts ⟨tree.dequeueInternal path index position, deliver item (frame :: rest)⟩ := by
  rw [Tree.dequeueInternal, found]
  refine accounts.move ((Tree.erase_moves found).trans Tree.packetDequeued_moves) present
    rfl rfl ?_ ?_
  · intro above tracks
    rw [Tree.packetDequeued_discs]
    split
    · exact (Tree.modifyQueue_tracks tracks).countDequeued
    · exact Tree.modifyQueue_tracks tracks
  · intro above
    refine ⟨0, if above <:+ path ∧ ¬ tree.Shielded path above then {item} else 0, 0, ?_⟩
    have kept := (Tree.erase_moves found).shielded path above
    rw [Tree.packetDequeued_discs]
    simp only [kept]
    by_cases reached : above <:+ path
    · have rule := shields above reached
      by_cases shielded : tree.Shielded path above
      · have owes := rule.mp shielded
        simp [reached, shielded, owes, Frame.debt, Frame.owed, Tree.modifyQueue_traces,
          coe_cons_eq]
      · have owes := mt rule.mpr shielded
        simp [reached, shielded, owes, Frame.debt, Frame.owed, Tree.modifyQueue_traces,
          QueueDisc.countDequeued, add_comm, Multiset.singleton_add]
    · have apart : ¬ above <:+ frame.path := fun reach => reached (reach.trans below)
      simp [reached, apart, Frame.debt, Frame.owed, Tree.modifyQueue_traces]

/-- An item goes from an internal queue out of the tree. -/
theorem Accounts.removeInternal {index position : Nat}
    (accounts : Accounts ⟨tree, frame :: rest⟩) (present : path ∈ tree.paths) :
    Accounts ⟨tree.removeInternal path index position, frame :: rest⟩ := by
  rw [Tree.removeInternal]
  split
  · exact accounts
  · rename_i item found
    rw [Tree.dequeueInternal, found]
    have dequeued := (Tree.erase_moves found).trans (@Tree.packetDequeued_moves _ path item)
    have noted := dequeued.trans (Tree.modifyQueue_keeps index fun queue =>
      (rfl : (queue.dropAfterDequeue item).packets = queue.packets))
    obtain ⟨reasons, discs⟩ := @Tree.dropAfterDequeue_discs
      ((Tree.packetDequeued item path
        (tree.modify path (·.modifyQueue index (·.erase position item)))).modify path
          (·.modifyQueue index (·.dropAfterDequeue item))) path item Tree.internalQueueDrop
    refine accounts.move (noted.trans (Tree.dropAfterDequeue_moves _)) present rfl rfl ?_ ?_
    · intro above tracks
      have counted : ((Tree.packetDequeued item path
          (tree.modify path (·.modifyQueue index (·.erase position item)))).discs above).Tracks := by
        rw [Tree.packetDequeued_discs]
        split
        · exact (Tree.modifyQueue_tracks tracks).countDequeued
        · exact Tree.modifyQueue_tracks tracks
      rw [discs]
      split
      · exact (Tree.modifyQueue_tracks counted).countDropped _ _
      · exact Tree.modifyQueue_tracks counted
    · intro above
      refine ⟨0, if above <:+ path then {item} else 0, 0, ?_⟩
      have kept := (Tree.erase_moves found).shielded path above
      -- The dequeue is counted below the first peeked queue disc, the drop counts the rest.
      have once : ((Tree.packetDequeued item path
          (tree.modify path (·.modifyQueue index (·.erase position item)))).discs above).traces =
          if above <:+ path ∧ ¬ tree.Shielded path above then
            { (tree.discs above).traces with
              dequeue := item ::ₘ (tree.discs above).traces.dequeue }
          else (tree.discs above).traces := by
        rw [Tree.packetDequeued_discs]
        simp only [kept]
        split <;> simp [QueueDisc.countDequeued, Tree.modifyQueue_traces]
      rw [discs]
      simp only [noted.shielded path above, QueueDisc.countDropped]
      by_cases reached : above <:+ path
      · by_cases shielded : tree.Shielded path above
        · simp [reached, shielded, QueueDisc.countDequeued, QueueDisc.countDroppedAfter,
            Tree.modifyQueue_traces, once, add_comm, Multiset.singleton_add]
        · simp [reached, shielded, QueueDisc.countDroppedAfter, Tree.modifyQueue_traces, once,
            add_comm, Multiset.singleton_add]
      · simp [reached, Tree.modifyQueue_traces, once]

/-- An item goes from the hand of the innermost call out of the tree. -/
theorem Accounts.dropAfterDequeue {chosen : Nat} (accounts : Accounts ⟨tree, frame :: rest⟩)
    (found : frame.hand[chosen]? = some item) (reason : String) :
    Accounts ⟨Tree.dropAfterDequeue item frame.path reason tree,
      { frame with hand := frame.hand.eraseIdx chosen } :: rest⟩ := by
  obtain ⟨reasons, discs⟩ := @Tree.dropAfterDequeue_discs tree frame.path item reason
  have split : (frame.hand : Multiset QueueDiscItem) = ↑(frame.hand.eraseIdx chosen) + {item} := by
    obtain ⟨within, rfl⟩ := List.getElem?_eq_some_iff.mp found
    rw [← coe_cons_eq]
    exact Multiset.coe_eq_coe.mpr (List.getElem_cons_eraseIdx_perm within).symm
  refine accounts.move (Tree.dropAfterDequeue_moves reason)
    (accounts.shaped.present frame (by simp)) rfl rfl ?_ ?_
  · intro above tracks
    rw [discs]
    split
    · exact tracks.countDropped _ _
    · exact tracks
  · intro above
    refine ⟨0, if above <:+ frame.path ∧ tree.Shielded frame.path above then {item} else 0, 0, ?_⟩
    rw [discs]
    by_cases reached : above <:+ frame.path
    · by_cases shielded : tree.Shielded frame.path above
      · simp [reached, shielded, QueueDisc.countDropped, QueueDisc.countDequeued,
          QueueDisc.countDroppedAfter, Frame.debt, Frame.owed, split, add_comm,
          Multiset.singleton_add]
      · simp [reached, shielded, QueueDisc.countDropped, QueueDisc.countDroppedAfter,
          Frame.debt, Frame.owed]
    · simp [reached, Frame.debt, Frame.owed]

/-- A queue disc that is called by the innermost call, or the root if there is none. -/
def Reaches (frames : List Frame) (path : Path) : Prop :=
  Chained (path :: frames.map (·.path))

theorem Reaches.apart {frames : List Frame} (reaches : Reaches frames path)
    {frame : Frame} (member : frame ∈ frames) {between : Path} (within : between <:+ frame.path) :
    between ≠ path := by
  rintro rfl
  have short := Chained.shorter reaches frame.path (List.mem_map_of_mem member)
  exact absurd within.length_le (Nat.not_le.mpr short)

theorem Shaped.push {frames : List Frame} (shaped : Shaped ⟨tree, frames⟩)
    (reaches : Reaches frames path) (present : path ∈ tree.paths)
    (samePath : frame.path = path) (noPeek : frame.role ≠ .peek)
    (dequeuing : frame.role = .dequeue → (tree.discs path).peeked = false) :
    Shaped ⟨tree, frame :: frames⟩ where
  chained := by
    simp only [List.map_cons, samePath]
    exact reaches
  root := shaped.root
  present := by
    intro former member
    rcases List.mem_cons.mp member with rfl | further
    · exact samePath ▸ present
    · exact shaped.present former further
  dequeuing := by
    intro former member role
    rcases List.mem_cons.mp member with rfl | further
    · exact samePath ▸ dequeuing role
    · exact shaped.dequeuing former further role
  peeking := by
    intro former member role
    rcases List.mem_cons.mp member with rfl | further
    · exact absurd role noPeek
    · exact shaped.peeking former further role
  peeked := by
    intro above flag
    rcases shaped.peeked above flag with held | ⟨former, member, found⟩
    · exact .inl held
    · exact .inr ⟨former, List.mem_cons_of_mem _ member, found⟩
  requeued := shaped.requeued
  outside := shaped.outside

theorem Shaped.pop (shaped : Shaped ⟨tree, frame :: rest⟩) (noPeek : frame.role ≠ .peek) :
    Shaped ⟨tree, rest⟩ where
  chained := Chained.tail shaped.chained
  root := shaped.root
  present former member := shaped.present former (List.mem_cons_of_mem _ member)
  dequeuing former member := shaped.dequeuing former (List.mem_cons_of_mem _ member)
  peeking former member := shaped.peeking former (List.mem_cons_of_mem _ member)
  peeked := by
    intro above flag
    rcases shaped.peeked above flag with held | ⟨former, member, role, there⟩
    · exact .inl held
    · rcases List.mem_cons.mp member with rfl | further
      · exact absurd role noPeek
      · exact .inr ⟨former, further, role, there⟩
  requeued := shaped.requeued
  outside := shaped.outside

theorem modify_moves {change : QueueDisc → QueueDisc}
    (peeked : (change (tree.discs path)).peeked = (tree.discs path).peeked)
    (requeued : (change (tree.discs path)).requeued = (tree.discs path).requeued)
    (own : (change (tree.discs path)).own = (tree.discs path).own) :
    tree.Moves (tree.modify path change) path 0 0 := by
  refine .of_discs rfl fun above => ?_
  rw [Tree.modify_discs]
  split
  case isTrue same =>
    subst same
    exact ⟨peeked, requeued, own⟩
  case isFalse => exact ⟨rfl, rfl, rfl⟩

/-- The item that a call has to say something about goes on to the queue disc that it calls,
which counts it as received. -/
theorem Accounts.receive {frames others : List Frame} (accounts : Accounts ⟨tree, frames⟩)
    (reaches : Reaches frames path) (present : path ∈ tree.paths)
    (outline : others.map (fun frame => (frame.path, frame.role)) =
      frames.map fun frame => (frame.path, frame.role))
    (owed : ∀ above, (others.map (·.owed tree above)).sum = (frames.map (·.owed tree above)).sum)
    (debt : ∀ above, (frames.map (·.debt above)).sum + (if above = path then {item} else 0) =
      (if above <:+ path then {item} else 0) + (others.map (·.debt above)).sum) :
    Accounts (enqueue ⟨tree, others⟩ path item) where
  shaped := by
    have moves : tree.Moves (tree.modify path (·.countReceived item)) path 0 0 :=
      modify_moves rfl rfl rfl
    have outlined : others.map (·.path) = frames.map (·.path) := by
      simpa [Function.comp_def] using congrArg (List.map Prod.fst) outline
    exact (accounts.shaped.move moves present outline).push (by rw [Reaches, outlined]; exact reaches)
      present rfl (by simp) (by simp)
  balanced above := by
    have moves : tree.Moves (tree.modify path (·.countReceived item)) path 0 0 :=
      modify_moves rfl rfl rfl
    refine (accounts.balanced above).follow (if above = path then {item} else 0) 0 0 0 ?_ ?_
      ?_ ?_ ?_ (moves.held present above) ?_ ?_
    · simp only [enqueue, Tree.modify_discs]
      split
      case isTrue same => exact (same ▸ (accounts.balanced above).tracks).countReceived
      case isFalse => exact (accounts.balanced above).tracks
    · simp only [enqueue, Tree.modify_discs]
      split
      case isTrue same =>
        simp [same, QueueDisc.countReceived, add_comm, Multiset.singleton_add]
      case isFalse => simp
    · simp only [enqueue, Tree.modify_discs]
      split
      case isTrue same => simp [same, QueueDisc.countReceived]
      case isFalse => simp
    · simp only [enqueue, Tree.modify_discs]
      split
      case isTrue same => simp [same, QueueDisc.countReceived]
      case isFalse => simp
    · simp only [enqueue, Tree.modify_discs]
      split
      case isTrue same => simp [same, QueueDisc.countReceived]
      case isFalse => simp
    · simpa [enqueue, Session.debt] using debt above
    · simp [enqueue, Session.owed, moves.owed, owed above]

theorem Accounts.enqueueRoot (accounts : Accounts ⟨tree, []⟩) :
    Accounts (enqueue ⟨tree, []⟩ [] item) := by
  refine accounts.receive rfl accounts.shaped.root rfl (fun _ => rfl) fun above => ?_
  simp

theorem Accounts.enqueueClass {index : Nat} (accounts : Accounts ⟨tree, frame :: rest⟩)
    (pending : frame.pending = some item) (present : index :: frame.path ∈ tree.paths) :
    Accounts (enqueue ⟨tree, { frame with pending := none } :: rest⟩ (index :: frame.path)
      item) := by
  refine accounts.receive ⟨⟨index, rfl⟩, accounts.shaped.chained⟩ present rfl
    (fun _ => rfl) fun above => ?_
  simp only [List.map_cons, List.sum_cons, Frame.debt, pending, Option.toList_some,
    Multiset.coe_singleton, Option.toList_none, Multiset.coe_nil, ite_self, zero_add,
    List.suffix_cons_iff]
  by_cases same : above = index :: frame.path
  · simp [same, Tree.not_cons_suffix, add_comm]
  · simp [same]

/-- A call starts with an empty hand. -/
theorem Accounts.push {frames : List Frame} {role : Role} (accounts : Accounts ⟨tree, frames⟩)
    (reaches : Reaches frames path) (present : path ∈ tree.paths) (noPeek : role ≠ .peek)
    (dequeuing : role = .dequeue → (tree.discs path).peeked = false) :
    Accounts ⟨tree, { path, role } :: frames⟩ where
  shaped := accounts.shaped.push reaches present rfl noPeek dequeuing
  balanced above :=
    { tracks := (accounts.balanced above).tracks
      received := by simpa [Session.debt] using (accounts.balanced above).received
      conserved := by simpa [Session.owed] using (accounts.balanced above).conserved }

/-- A call returns with an empty hand. -/
theorem Accounts.pop (accounts : Accounts ⟨tree, frame :: rest⟩) (noPeek : frame.role ≠ .peek)
    (settled : frame.pending = none) (empty : frame.hand = []) : Accounts ⟨tree, rest⟩ where
  shaped := accounts.shaped.pop noPeek
  balanced above :=
    { tracks := (accounts.balanced above).tracks
      received := by
        simpa [Session.debt, Frame.debt, settled] using (accounts.balanced above).received
      conserved := by
        simpa [Session.owed, Frame.owed, empty] using (accounts.balanced above).conserved }

/-- An empty queue is added to a queue disc. -/
theorem Accounts.addInternalQueue {frames : List Frame} (accounts : Accounts ⟨tree, frames⟩)
    (present : path ∈ tree.paths) (maxSize : QueueSize) :
    Accounts ⟨tree.modify path fun disc =>
      { disc with queues := disc.queues ++ [{ maxSize }] }, frames⟩ := by
  have moves : tree.Moves (tree.modify path fun disc =>
      { disc with queues := disc.queues ++ [{ maxSize }] }) path 0 0 :=
    modify_moves rfl rfl (by simp [QueueDisc.own])
  refine ⟨accounts.shaped.move moves present rfl, fun above => ?_⟩
  have held := moves.held present above
  simp only [ite_self, add_zero] at held
  have traces : ((tree.modify path fun disc =>
      { disc with queues := disc.queues ++ [{ maxSize }] }).discs above).traces =
      (tree.discs above).traces := by
    rw [Tree.modify_discs]
    split
    case isTrue same => simp [same]
    case isFalse => rfl
  constructor
  · rw [Tree.modify_discs]
    split
    case isTrue same => exact (same ▸ (accounts.balanced above).tracks).refit _ _ _
    case isFalse => exact (accounts.balanced above).tracks
  · rw [traces]
    exact (accounts.balanced above).received
  · simp only [traces, held, Session.owed, moves.owed]
    exact (accounts.balanced above).conserved

/-- A class with a new queue disc is added. -/
theorem Accounts.addQueueDiscClass {frames : List Frame} (accounts : Accounts ⟨tree, frames⟩)
    {index : Nat} (absent : index :: path ∉ tree.paths) :
    Accounts ⟨{ tree with paths := insert (index :: path) tree.paths }, frames⟩ := by
  have empty := accounts.shaped.outside (index :: path) absent
  have held : ∀ above, Tree.held { tree with paths := insert (index :: path) tree.paths } above =
      tree.held above := by
    intro above
    simp only [Tree.held, Finset.filter_insert]
    split
    · have new : index :: path ∉ tree.paths.filter (above <:+ ·) := by simp [absent]
      rw [Finset.sum_insert new]
      exact (congrArg (· + _) empty).trans (zero_add _)
    · rfl
  constructor
  case shaped =>
    have shaped := accounts.shaped
    exact { shaped with
      root := Finset.mem_insert_of_mem shaped.root
      present := fun frame member => Finset.mem_insert_of_mem (shaped.present frame member)
      outside := fun above outside =>
        shaped.outside above fun member => outside (Finset.mem_insert_of_mem member) }
  case balanced =>
    intro above
    refine ⟨(accounts.balanced above).tracks, (accounts.balanced above).received, ?_⟩
    rw [held]
    exact (accounts.balanced above).conserved

end Session

end Ns3.TrafficControl
