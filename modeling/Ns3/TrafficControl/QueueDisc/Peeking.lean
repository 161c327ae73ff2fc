import Ns3.TrafficControl.QueueDisc.Conservation

/-!
The calls that go through `m_peeked` and `m_requeued` keep the books.

A peek sets the flag of a queue disc that is called by the innermost call, so no call that
runs has a path through it: what is owed to the queue discs above stays as it is.
-/

namespace Ns3.TrafficControl

open Library

variable {tree : Tree} {path above : Path} {item : QueueDiscItem} {frame : Frame}
  {rest : List Frame} {lost gained : Multiset QueueDiscItem}

/-- A queue disc that no longer holds the item of a peek. -/
def QueueDisc.released (disc : QueueDisc) : QueueDisc :=
  (disc.setRequeued none).setPeeked false

namespace Session

/-- Without a peeked item and outside of a peek the flag is not set. -/
theorem Shaped.unpeeked {frames : List Frame} (shaped : Shaped ⟨tree, frames⟩)
    (reaches : Reaches frames path) (requeued : (tree.discs path).requeued = none) :
    (tree.discs path).peeked = false := by
  by_contra flag
  rcases shaped.peeked path (by simpa using flag) with held | ⟨frame, member, _, there⟩
  · exact held requeued
  · exact reaches.apart member (List.suffix_refl _) there

/-- The shape but for the flags of one queue disc, which is called by the innermost call. -/
structure Around (tree : Tree) (frames : List Frame) (path : Path) : Prop where
  reaches : Reaches frames path
  root : [] ∈ tree.paths
  there : path ∈ tree.paths
  present : ∀ frame ∈ frames, frame.path ∈ tree.paths
  dequeuing : ∀ frame ∈ frames, frame.role = .dequeue → (tree.discs frame.path).peeked = false
  peeking : ∀ frame ∈ frames, frame.role = .peek →
    (tree.discs frame.path).peeked = true ∧ (tree.discs frame.path).requeued = none
  peeked : ∀ above, above ≠ path → (tree.discs above).peeked = true →
    (tree.discs above).requeued ≠ none ∨
      ∃ frame ∈ frames, frame.role = .peek ∧ frame.path = above
  requeued : ∀ above, above ≠ path → (tree.discs above).requeued ≠ none →
    (tree.discs above).peeked = true ∨ above = []
  outside : ∀ above, above ∉ tree.paths → (tree.discs above).own = 0

theorem Shaped.around {frames : List Frame} (shaped : Shaped ⟨tree, frames⟩)
    (reaches : Reaches frames path) (there : path ∈ tree.paths) : Around tree frames path where
  reaches := reaches
  root := shaped.root
  there := there
  present := shaped.present
  dequeuing := shaped.dequeuing
  peeking := shaped.peeking
  peeked above _ := shaped.peeked above
  requeued above _ := shaped.requeued above
  outside := shaped.outside

theorem Shaped.around_pop (shaped : Shaped ⟨tree, frame :: rest⟩) :
    Around tree rest frame.path where
  reaches := shaped.chained
  root := shaped.root
  there := shaped.present frame (by simp)
  present former member := shaped.present former (List.mem_cons_of_mem _ member)
  dequeuing former member := shaped.dequeuing former (List.mem_cons_of_mem _ member)
  peeking former member := shaped.peeking former (List.mem_cons_of_mem _ member)
  peeked := by
    intro above different flag
    rcases shaped.peeked above flag with held | ⟨former, member, role, there⟩
    · exact .inl held
    · rcases List.mem_cons.mp member with rfl | further
      · exact absurd there.symm different
      · exact .inr ⟨former, further, role, there⟩
  requeued above _ := shaped.requeued above
  outside := shaped.outside

/-- The shape with the queue disc as it is and no call of it running. -/
theorem Around.settled {frames : List Frame} (around : Around tree frames path)
    (peeked : (tree.discs path).peeked = true → (tree.discs path).requeued ≠ none)
    (requeued : (tree.discs path).requeued ≠ none →
      (tree.discs path).peeked = true ∨ path = []) : Shaped ⟨tree, frames⟩ where
  chained := Chained.tail around.reaches
  root := around.root
  present := around.present
  dequeuing := around.dequeuing
  peeking := around.peeking
  peeked := by
    intro above flag
    by_cases same : above = path
    · subst same
      exact .inl (peeked flag)
    · exact around.peeked above same flag
  requeued := by
    intro above held
    by_cases same : above = path
    · subst same
      exact requeued held
    · exact around.requeued above same held
  outside := around.outside

/-- The shape while the queue disc is being peeked. -/
theorem Around.started {frames : List Frame} (around : Around tree frames path)
    (peeked : (tree.discs path).peeked = true) (requeued : (tree.discs path).requeued = none) :
    Shaped ⟨tree, { path, role := .peek } :: frames⟩ where
  chained := around.reaches
  root := around.root
  present := by
    intro frame member
    rcases List.mem_cons.mp member with rfl | further
    · exact around.there
    · exact around.present frame further
  dequeuing := by
    intro frame member role
    rcases List.mem_cons.mp member with rfl | further
    · simp at role
    · exact around.dequeuing frame further role
  peeking := by
    intro frame member role
    rcases List.mem_cons.mp member with rfl | further
    · exact ⟨peeked, requeued⟩
    · exact around.peeking frame further role
  peeked := by
    intro above flag
    by_cases same : above = path
    · exact .inr ⟨_, List.mem_cons_self, rfl, same.symm⟩
    · rcases around.peeked above same flag with held | ⟨frame, member, found⟩
      · exact .inl held
      · exact .inr ⟨frame, List.mem_cons_of_mem _ member, found⟩
  requeued := by
    intro above held
    by_cases same : above = path
    · subst same
      exact absurd requeued held
    · exact around.requeued above same held
  outside := around.outside

section Reflag

variable {frames : List Frame} {change : QueueDisc → QueueDisc}

theorem Around.reflag (around : Around tree frames path) :
    Around (tree.modify path change) frames path := by
  have elsewhere : ∀ above, above ≠ path →
      (tree.modify path change).discs above = tree.discs above := by
    intro above different
    simp [Tree.modify_discs, different]
  have within : ∀ frame ∈ frames,
      (tree.modify path change).discs frame.path = tree.discs frame.path :=
    fun frame member => elsewhere _ (around.reaches.apart member (List.suffix_refl _))
  constructor
  case reaches => exact around.reaches
  case root => exact around.root
  case there => exact around.there
  case present => exact around.present
  case dequeuing =>
    intro frame member
    rw [within frame member]
    exact around.dequeuing frame member
  case peeking =>
    intro frame member
    rw [within frame member]
    exact around.peeking frame member
  case peeked =>
    intro above different
    rw [elsewhere above different]
    exact around.peeked above different
  case requeued =>
    intro above different
    rw [elsewhere above different]
    exact around.requeued above different
  case outside =>
    intro above absent
    have different : above ≠ path := by
      rintro rfl
      exact absent around.there
    rw [elsewhere above different]
    exact around.outside above absent

/-- The flags of the queue disc are of no concern to the calls that run above it. -/
theorem Around.owed (around : Around tree frames path) (above : Path) :
    frames.map (·.owed (tree.modify path change) above) = frames.map (·.owed tree above) := by
  refine List.map_congr_left fun frame member => ?_
  have kept : ∀ between, between <:+ frame.path →
      ((tree.modify path change).discs between).peeked = (tree.discs between).peeked := by
    intro between within
    simp [Tree.modify_discs, around.reaches.apart member within]
  simp only [Frame.owed, Tree.shielded_congr kept]

theorem Around.held (around : Around tree frames path)
    (changed : (change (tree.discs path)).own + lost = (tree.discs path).own + gained)
    (above : Path) :
    (tree.modify path change).held above + (if above <:+ path then lost else 0) =
      tree.held above + if above <:+ path then gained else 0 := by
  refine Tree.held_change (Tree.modify_paths _) around.there (fun below different => ?_) ?_ above
  · simp [Tree.modify_discs, different]
  · rw [Tree.modify_discs_same]
    exact changed

/-- The books when a queue disc changes in its flags and in what it holds. -/
theorem Balanced.reflag {before after : List Frame} (balanced : Balanced ⟨tree, before⟩ above)
    (around : Around tree frames path)
    (traces : (change (tree.discs path)).traces = (tree.discs path).traces)
    (tracks : (tree.discs path).Tracks → (change (tree.discs path)).Tracks)
    (own : (change (tree.discs path)).own + lost = (tree.discs path).own + gained)
    (debt : (before.map (·.debt above)).sum = (after.map (·.debt above)).sum)
    (owed : (before.map (·.owed tree above)).sum + (if above <:+ path then lost else 0) =
      (if above <:+ path then gained else 0) +
        (after.map (·.owed (tree.modify path change) above)).sum) :
    Balanced ⟨tree.modify path change, after⟩ above := by
  have same : ((tree.modify path change).discs above).traces = (tree.discs above).traces := by
    rw [Tree.modify_discs]
    split
    case isTrue equal => rw [traces, equal]
    case isFalse => rfl
  refine balanced.follow 0 0 0 0 ?_ (by simp [same]) (by simp [same]) (by simp [same])
    (by simp [same]) (around.held own above) ?_ ?_
  · simp only [Tree.modify_discs]
    split
    case isTrue equal => exact tracks (equal ▸ balanced.tracks)
    case isFalse => exact balanced.tracks
  · simpa [Session.debt] using debt
  · simpa [Session.owed] using owed

end Reflag

/-- A peek sets the flag of a queue disc that holds nothing for it yet. -/
theorem Accounts.peek {frames : List Frame} (accounts : Accounts ⟨tree, frames⟩)
    (reaches : Reaches frames path) (present : path ∈ tree.paths) :
    Accounts (peek ⟨tree, frames⟩ path) := by
  rw [Session.peek]
  split
  · exact accounts
  case h_2 requeued =>
    replace requeued : (tree.discs path).requeued = none := requeued
    have around := accounts.shaped.around reaches present
    have own : ((tree.discs path).setPeeked true).own + 0 = (tree.discs path).own + 0 := by
      simp [QueueDisc.own, QueueDisc.setPeeked, accounts.shaped.unpeeked reaches requeued, requeued]
    refine ⟨around.reflag.started (by simp) (by simpa [QueueDisc.setPeeked] using requeued), ?_⟩
    intro above
    refine (accounts.balanced above).reflag around rfl (fun tracks => tracks.refit _ _ _) own
      ?_ ?_
    · simp
    · simp [around.owed]

/-- A peek that finds nothing takes its flag back. -/
theorem Accounts.leavePeek_nil (accounts : Accounts ⟨tree, frame :: rest⟩)
    (role : frame.role = .peek) (settled : frame.pending = none) (empty : frame.hand = []) :
    Accounts ⟨tree.modify frame.path (·.setPeeked false), rest⟩ := by
  have around := accounts.shaped.around_pop
  obtain ⟨peeked, requeued⟩ := accounts.shaped.peeking frame (by simp) role
  replace requeued : (tree.discs frame.path).requeued = none := requeued
  have own : ((tree.discs frame.path).setPeeked false).own + 0 =
      (tree.discs frame.path).own + 0 := by
    simp [QueueDisc.own, QueueDisc.setPeeked, requeued]
  refine ⟨around.reflag.settled (by simp) ?_, fun above => ?_⟩
  · simp [QueueDisc.setPeeked, requeued]
  · refine (accounts.balanced above).reflag around rfl (fun tracks => tracks.refit _ _ _) own
      ?_ ?_
    · simp [Frame.debt, settled]
    · have mine : frame.owed tree above = 0 := by simp [Frame.owed, empty]
      simp [around.owed, mine]

/-- A peek keeps the item that it finds, which no queue disc from here on up has counted. -/
theorem Accounts.leavePeek_cons (accounts : Accounts ⟨tree, frame :: rest⟩)
    (role : frame.role = .peek) (settled : frame.pending = none) (single : frame.hand = [item]) :
    Accounts ⟨tree.modify frame.path (·.setRequeued (some item)), rest⟩ := by
  have around := accounts.shaped.around_pop
  obtain ⟨peeked, requeued⟩ := accounts.shaped.peeking frame (by simp) role
  replace requeued : (tree.discs frame.path).requeued = none := requeued
  replace peeked : (tree.discs frame.path).peeked = true := peeked
  have own : ((tree.discs frame.path).setRequeued (some item)).own + 0 =
      (tree.discs frame.path).own + {item} := by
    simp [QueueDisc.own, QueueDisc.setRequeued, requeued, peeked]
  refine ⟨around.reflag.settled ?_ ?_, fun above => ?_⟩
  · simp [QueueDisc.setRequeued]
  · simp [QueueDisc.setRequeued, peeked]
  · refine (accounts.balanced above).reflag around rfl (fun tracks => tracks.refit _ _ _) own
      ?_ ?_
    · simp [Frame.debt, settled]
    · by_cases reached : above <:+ frame.path
      · have shielded : tree.Shielded frame.path above :=
          ⟨frame.path, by simp, reached, peeked⟩
        have mine : frame.owed tree above = {item} := by
          simp [Frame.owed, single, reached, shielded]
        simp [around.owed, mine, reached]
      · have mine : frame.owed tree above = 0 := by simp [Frame.owed, reached]
        simp [around.owed, mine, reached]

/-- What is owed when an item goes up from a queue disc without the flag. -/
theorem Reaches.owed_deliver {frames : List Frame} (reaches : Reaches frames path)
    (unpeeked : (tree.discs path).peeked = false) (above : Path) :
    ((deliver item frames).map (·.owed tree above)).sum =
      (frames.map (·.owed tree above)).sum +
        if above <:+ path ∧ tree.Shielded path above then {item} else 0 := by
  cases frames with
  | nil =>
      obtain rfl : path = [] := reaches
      have gone : ¬ (above <:+ [] ∧ tree.Shielded [] above) := by
        rintro ⟨reached, shielded⟩
        rw [Tree.shielded_nil reached, unpeeked] at shielded
        simp at shielded
      rw [if_neg gone]
      simp [deliver]
  | cons frame rest =>
      obtain ⟨⟨index, rfl⟩, _⟩ := reaches
      simp only [deliver, List.map_cons, List.sum_cons, Frame.owed_deliver,
        Tree.shielded_cons_unpeeked unpeeked]
      abel

theorem debt_deliver (frames : List Frame) (above : Path) :
    ((deliver item frames).map (·.debt above)).sum = (frames.map (·.debt above)).sum := by
  cases frames with
  | nil => rfl
  | cons frame rest => rfl

theorem Shaped.deliver {frames : List Frame} (shaped : Shaped ⟨tree, frames⟩) :
    Shaped ⟨tree, deliver item frames⟩ := by
  refine shaped.move (.of_discs rfl fun _ => ⟨rfl, rfl, rfl⟩) shaped.root ?_
  cases frames with
  | nil => rfl
  | cons frame rest => rfl

/-- A dequeue returns an item, which the queue disc itself has counted. -/
theorem Accounts.leaveDequeue_cons (accounts : Accounts ⟨tree, frame :: rest⟩)
    (role : frame.role = .dequeue) (settled : frame.pending = none)
    (single : frame.hand = [item]) : Accounts ⟨tree, deliver item rest⟩ where
  shaped := (accounts.shaped.pop (by simp [role])).deliver
  balanced above := by
    have unpeeked := accounts.shaped.dequeuing frame (by simp) role
    have reaches : Reaches rest frame.path := accounts.shaped.chained
    have mine : frame.owed tree above =
        if above <:+ frame.path ∧ tree.Shielded frame.path above then {item} else 0 := by
      simp [Frame.owed, single]
    have silent : frame.debt above = 0 := by simp [Frame.debt, settled]
    refine ⟨(accounts.balanced above).tracks, ?_, ?_⟩
    · simpa [Session.debt, debt_deliver, silent] using (accounts.balanced above).received
    · have conserved := (accounts.balanced above).conserved
      simp only [Session.owed, List.map_cons, List.sum_cons, mine] at conserved
      simp only [Session.owed, reaches.owed_deliver unpeeked, conserved]
      abel

/-- The item that a peek has kept goes up, the flag is taken back and the dequeue counted. -/
theorem Accounts.release {frames : List Frame} (accounts : Accounts ⟨tree, frames⟩)
    (around : Around tree frames path) (requeued : (tree.discs path).requeued = some item)
    (peeked : (tree.discs path).peeked = true) :
    Accounts ⟨Tree.packetDequeued item path (tree.modify path QueueDisc.released),
      deliver item frames⟩ := by
  have own : (tree.discs path).released.own + {item} = (tree.discs path).own + 0 := by
    simp [QueueDisc.own, QueueDisc.released, QueueDisc.setRequeued, QueueDisc.setPeeked,
      requeued, peeked]
  have moves := @Tree.packetDequeued_moves (tree.modify path QueueDisc.released) path item
  have unpeeked : ((tree.modify path QueueDisc.released).discs path).peeked = false := by
    simp [QueueDisc.released]
  have settled : Shaped ⟨tree.modify path QueueDisc.released, frames⟩ := by
    refine around.reflag.settled ?_ ?_
    · simp [QueueDisc.released]
    · simp [QueueDisc.released, QueueDisc.setRequeued, QueueDisc.setPeeked]
  refine ⟨(settled.move moves around.there rfl).deliver, fun above => ?_⟩
  have traces : ((tree.modify path QueueDisc.released).discs above).traces =
      (tree.discs above).traces := by
    rw [Tree.modify_discs]
    split
    case isTrue same => simp [same, QueueDisc.released, QueueDisc.setPeeked, QueueDisc.setRequeued]
    case isFalse => rfl
  have tracks : ((tree.modify path QueueDisc.released).discs above).Tracks := by
    rw [Tree.modify_discs]
    split
    case isTrue same => exact (same ▸ (accounts.balanced above).tracks).refit _ _ _
    case isFalse => exact (accounts.balanced above).tracks
  have held : (Tree.packetDequeued item path (tree.modify path QueueDisc.released)).held above +
      (if above <:+ path then {item} else 0) =
      tree.held above + if above <:+ path then 0 else 0 := by
    have same := moves.held around.there above
    simp only [ite_self, add_zero] at same
    rw [same]
    exact around.held own above
  have owed : (Session.owed ⟨Tree.packetDequeued item path (tree.modify path QueueDisc.released),
      deliver item frames⟩ above) = Session.owed ⟨tree, frames⟩ above +
        if above <:+ path ∧ (tree.modify path QueueDisc.released).Shielded path above
          then {item} else 0 := by
    simp only [Session.owed, moves.owed, around.reaches.owed_deliver unpeeked, around.owed]
  have debt : (Session.debt ⟨Tree.packetDequeued item path (tree.modify path QueueDisc.released),
      deliver item frames⟩ above) = Session.debt ⟨tree, frames⟩ above :=
    debt_deliver frames above
  have discs := @Tree.packetDequeued_discs (tree.modify path QueueDisc.released) path above item
  -- The item is counted where it is not owed.
  by_cases counted : above <:+ path ∧ ¬ (tree.modify path QueueDisc.released).Shielded path above
  · rw [if_pos counted] at discs
    refine (accounts.balanced above).follow 0 0 {item} 0 ?_ ?_ ?_ ?_ ?_ held ?_ ?_
    · exact discs ▸ tracks.countDequeued
    all_goals simp [discs, traces, QueueDisc.countDequeued, debt, owed, counted, add_comm,
      Multiset.singleton_add]
  · rw [if_neg counted] at discs
    have rule : above <:+ path ↔
        above <:+ path ∧ (tree.modify path QueueDisc.released).Shielded path above := by
      tauto
    refine (accounts.balanced above).follow 0 0 0 0 ?_ ?_ ?_ ?_ ?_ held ?_ ?_
    · exact discs ▸ tracks
    case refine_7 => simp [owed, ← rule]
    all_goals simp [discs, traces, debt]

theorem Accounts.dequeue {frames : List Frame} (accounts : Accounts ⟨tree, frames⟩)
    (reaches : Reaches frames path) (present : path ∈ tree.paths) :
    Accounts (dequeue ⟨tree, frames⟩ path) := by
  have around := accounts.shaped.around reaches present
  rw [Session.dequeue]
  split
  case h_2 requeued =>
    exact accounts.push reaches present (by simp)
      fun _ => accounts.shaped.unpeeked reaches requeued
  case h_1 item requeued =>
    replace requeued : (tree.discs path).requeued = some item := requeued
    split
    case isTrue peeked =>
      replace peeked : (tree.discs path).peeked = true := peeked
      simp only [Tree.modify_modify]
      exact accounts.release around requeued peeked
    case isFalse unpeeked =>
      replace unpeeked : (tree.discs path).peeked = false := by simpa using unpeeked
      obtain rfl : path = [] := by
        simpa [unpeeked, requeued] using accounts.shaped.requeued path
      obtain rfl : frames = [] := by
        cases frames with
        | nil => rfl
        | cons frame rest => simp [Reaches, Chained] at reaches
      have own : ((tree.discs []).setRequeued none).own + 0 = (tree.discs []).own + 0 := by
        simp [QueueDisc.own, QueueDisc.setRequeued, unpeeked]
      refine ⟨around.reflag.settled ?_ ?_, fun above => ?_⟩
      · simp [QueueDisc.setRequeued, unpeeked]
      · simp [QueueDisc.setRequeued]
      · exact (accounts.balanced above).reflag around rfl (fun tracks => tracks.refit _ _ _) own
          rfl (by simp [Session.deliver])

/-- A packet that the device refuses comes back to the root, which has counted it. -/
theorem Accounts.requeueRoot (accounts : Accounts ⟨tree, []⟩)
    (requeued : (tree.discs []).requeued = none) :
    Accounts ⟨tree.modify [] (·.requeue item), []⟩ := by
  have reaches : Reaches [] [] := rfl
  have unpeeked := accounts.shaped.unpeeked reaches requeued
  have around := accounts.shaped.around reaches accounts.shaped.root
  have own : ((tree.discs []).requeue item).own + 0 = (tree.discs []).own + 0 := by
    simp [QueueDisc.own, QueueDisc.requeue, unpeeked]
  refine ⟨around.reflag.settled ?_ ?_, fun above => ?_⟩
  · simp [QueueDisc.requeue]
  · simp
  · exact (accounts.balanced above).reflag around rfl (fun tracks => tracks.requeue) own rfl
      (by simp)

end Session

end Ns3.TrafficControl
