import Ns3.Internet.TcpRxBuffer.Delivery

/-!
The SACK list over whole runs.

`UpdateSackList` merges the new block with the blocks that end or start where it
does. A block that lies within the new one is found by neither comparison, so the
blocks are disjoint as long as no packet that a block reports is swallowed by a
larger one that arrives out of order.
-/

namespace Ns3.Internet

open Library Network SequenceSpace

namespace TcpRxBuffer

/-- The blocks have no position in common. -/
def Apart (a b : SackBlock Nat) : Prop := a.2 ≤ b.1 ∨ b.2 ≤ a.1

instance : DecidableRel Apart := fun _ _ => inferInstanceAs (Decidable (_ ∨ _))

/-- The first block contains the range. -/
def StartsWith (blocks : List (SackBlock Nat)) (range : Nat × Nat) : Prop :=
  ∃ first ∈ blocks.head?, first.1 ≤ range.1 ∧ range.2 ≤ first.2

section

variable {blocks : List (SackBlock Nat)} {begin merged : SackBlock Nat}
  {rest : List (SackBlock Nat)}

theorem Apart.symm {a b : SackBlock Nat} (apart : Apart a b) : Apart b a := Or.symm apart

theorem findMerge_apart (nonEmpty : ∀ block ∈ blocks, block.1 < block.2)
    (apart : (begin :: blocks).Pairwise Apart)
    (found : findMerge begin blocks = some (merged, rest)) :
    (merged :: rest).Pairwise Apart := by
  obtain ⟨before, current, after, rfl, rfl, merging⟩ := findMerge_cases found
  obtain ⟨beginApart, othersApart⟩ := List.pairwise_cons.mp apart
  have shuffled : (current :: (before ++ after)).Pairwise Apart :=
    (List.Perm.pairwise_iff Apart.symm List.perm_middle).mp othersApart
  obtain ⟨currentApart, restApart⟩ := List.pairwise_cons.mp shuffled
  refine List.pairwise_cons.mpr ⟨fun block member => ?_, restApart⟩
  have inBlocks : block ∈ before ++ current :: after :=
    List.perm_middle.symm.subset (List.mem_cons_of_mem current member)
  have fromBegin := beginApart block inBlocks
  have fromCurrent := currentApart block member
  have some := nonEmpty block inBlocks
  unfold Apart at *
  rcases merging with ⟨same, rfl⟩ | ⟨same, rfl⟩
  · dsimp only
    omega
  · dsimp only
    omega

theorem findMerge_contains (nonEmpty : ∀ block ∈ blocks, block.1 < block.2)
    (some : begin.1 < begin.2) (found : findMerge begin blocks = .some (merged, rest)) :
    merged.1 ≤ begin.1 ∧ begin.2 ≤ merged.2 ∧ merged.1 < merged.2 ∧
      (∀ block ∈ rest, block.1 < block.2) ∧ rest.length + 1 = blocks.length := by
  obtain ⟨mergedSome, restSome⟩ := findMerge_forall (fun _ _ _ => Nat.lt_trans) nonEmpty some found
  obtain ⟨before, current, after, rfl, rfl, merging⟩ := findMerge_cases found
  have currentSome := nonEmpty current (by simp)
  refine ⟨?_, ?_, mergedSome, restSome, by simp; omega⟩
  · rcases merging with ⟨same, rfl⟩ | ⟨same, rfl⟩
    · dsimp only
      omega
    · exact Nat.le_refl _
  · rcases merging with ⟨same, rfl⟩ | ⟨same, rfl⟩
    · exact Nat.le_refl _
    · dsimp only
      omega

theorem mergeSackList_apart (merges : Nat) (nonEmpty : ∀ block ∈ blocks, block.1 < block.2)
    (some : begin.1 < begin.2) (apart : (begin :: blocks).Pairwise Apart) :
    (mergeSackList merges begin blocks).Pairwise Apart := by
  induction merges generalizing begin blocks with
  | zero => exact apart
  | succ merges inductionHypothesis =>
      rw [mergeSackList]
      cases found : findMerge begin blocks with
      | none => exact apart
      | some result =>
          obtain ⟨-, -, mergedSome, restSome, -⟩ := findMerge_contains nonEmpty some found
          exact inductionHypothesis restSome mergedSome (findMerge_apart nonEmpty apart found)

/-- The first block contains the new one, and there is at most one block more than
before. -/
theorem mergeSackList_first (merges : Nat) (nonEmpty : ∀ block ∈ blocks, block.1 < block.2)
    (some : begin.1 < begin.2) :
    ∃ first others, mergeSackList merges begin blocks = first :: others ∧
      first.1 ≤ begin.1 ∧ begin.2 ≤ first.2 ∧ others.length ≤ blocks.length := by
  induction merges generalizing begin blocks with
  | zero => exact ⟨begin, blocks, rfl, Nat.le_refl _, Nat.le_refl _, Nat.le_refl _⟩
  | succ merges inductionHypothesis =>
      rw [mergeSackList]
      cases found : findMerge begin blocks with
      | none => exact ⟨begin, blocks, rfl, Nat.le_refl _, Nat.le_refl _, Nat.le_refl _⟩
      | some result =>
          obtain ⟨left, right, mergedSome, restSome, fewer⟩ :=
            findMerge_contains nonEmpty some found
          obtain ⟨first, others, same, firstLeft, firstRight, few⟩ :=
            inductionHypothesis restSome mergedSome
          exact ⟨first, others, same, Nat.le_trans firstLeft left,
            Nat.le_trans right firstRight, by omega⟩

theorem updateSackList_first {head tail : Nat} (nonEmpty : ∀ block ∈ blocks, block.1 < block.2)
    (some : head < tail) (few : blocks.length ≤ 4) :
    StartsWith (updateSackList blocks head tail) (head, tail) ∧
      (updateSackList blocks head tail).length ≤ 4 := by
  obtain ⟨first, others, same, left, right, fewer⟩ := @mergeSackList_first blocks (head, tail)
    blocks.length nonEmpty some
  unfold updateSackList
  rw [same]
  dsimp only
  split
  next many =>
    cases others with
    | nil => exact absurd many (by simp)
    | cons second others =>
        refine ⟨⟨first, rfl, left, right⟩, ?_⟩
        simp only [List.length_dropLast, List.length_cons] at fewer ⊢
        omega
  next notMany => exact ⟨⟨first, rfl, left, right⟩, Nat.le_of_not_lt notMany⟩

theorem updateSackList_apart {head tail : Nat} (nonEmpty : ∀ block ∈ blocks, block.1 < block.2)
    (some : head < tail) (apart : blocks.Pairwise Apart)
    (newApart : ∀ block ∈ blocks, Apart (head, tail) block) :
    (updateSackList blocks head tail).Pairwise Apart := by
  have merged := mergeSackList_apart blocks.length nonEmpty some
    (List.pairwise_cons.mpr ⟨newApart, apart⟩)
  unfold updateSackList
  dsimp only
  split
  · exact merged.sublist (List.dropLast_sublist _)
  · exact merged

/-- A first block that ends above the next sequence number stays the first one. -/
theorem StartsWith.clear {range : Nat × Nat} {next : Nat} (first : StartsWith blocks range)
    (some : range.1 < range.2) (above : next < range.1) :
    StartsWith (clearSackList blocks next) range := by
  obtain ⟨block, found, left, right⟩ := first
  cases blocks with
  | nil => exact nomatch found
  | cons current others =>
      obtain rfl := Option.some.inj found
      refine ⟨current, ?_, left, right⟩
      unfold clearSackList
      rw [List.filter_cons_of_pos (by simp; omega)]
      rfl

end

/-- The entry is swallowed by the segment from `start` to `stop`: a byte of the segment
before it is missing, and the window accepts the segment beyond its end. -/
def Swallowed (self : TcpRxBuffer Nat) (start stop : Nat) (entry : Nat × List UInt8) : Prop :=
  (∃ position < entry.1, start ≤ position ∧ ¬ Covers self.data position) ∧
    entry.1 + entry.2.length < self.acceptedEnd stop

instance (self : TcpRxBuffer Nat) (start stop : Nat) (entry : Nat × List UInt8) :
    Decidable (self.Swallowed start stop entry) := inferInstanceAs (Decidable (_ ∧ _))

/-- A block reports a byte of the entry. -/
def Reports (block : SackBlock Nat) (entry : Nat × List UInt8) : Prop :=
  ∃ position < block.2, block.1 ≤ position ∧ Chunk.Holds entry position

instance (block : SackBlock Nat) (entry : Nat × List UInt8) : Decidable (Reports block entry) :=
  inferInstanceAs (Decidable (∃ position < block.2, _))

/-- A segment that arrives out of order swallows no entry that a block reports. -/
def KeepsReported (self : TcpRxBuffer Nat) (start stop : Nat) : Prop :=
  self.nextRxSeq < start → ∀ entry ∈ self.data, ∀ block ∈ self.sackList, Reports block entry →
    ¬ self.Swallowed start stop entry

instance (self : TcpRxBuffer Nat) (start stop : Nat) : Decidable (self.KeepsReported start stop) :=
  inferInstanceAs (Decidable (_ → _))

variable {self : TcpRxBuffer Nat} {stream : List UInt8} {extracted inOrder start stop : Nat}
  {trimmed : Trimmed Nat}

/-- The first byte that is left of a segment is missing. -/
theorem Accepts.not_covers (accepts : self.Accepts inOrder start stop trimmed) :
    ¬ Covers self.data trimmed.headSeq := by
  rintro ⟨entry, member, low, high⟩
  rcases accepts.cleared.erased entry member with kept | ⟨above, -⟩
  · have := accepts.cleared.apart accepts.some entry kept
    have := accepts.some
    omega
  · omega

/-- What is left of a segment starts at the next sequence number, or the segment
starts after it. -/
theorem Accepts.start_above (accepts : self.Accepts inOrder start stop trimmed)
    (gap : ¬ Covers self.data inOrder) (sublist : trimmed.data.Sublist self.data)
    (above : inOrder < trimmed.headSeq) : inOrder < start := by
  by_contra below
  have some := accepts.some
  have high := accepts.high
  obtain ⟨low, last⟩ := accepts.window inOrder (Nat.le_of_not_lt below) (by omega) (Nat.le_refl _)
  rcases accepts.cleared.covered inOrder low last with inside | covers
  · omega
  · exact gap (covers.mono sublist.subset)

/-- The new block is apart from the blocks whose entries are kept. -/
theorem Delivering.apart_of_keepsReported (delivering : Delivering stream extracted inOrder self)
    (accepts : self.Accepts inOrder start stop trimmed) (keeps : self.KeepsReported start stop)
    (above : self.nextRxSeq < start) :
    ∀ block ∈ self.sackList, Apart (trimmed.headSeq, trimmed.tailSeq) block := by
  intro block member
  have held := delivering.held block member
  have low := accepts.low
  have high := accepts.high
  by_contra overlap
  unfold Apart at overlap
  dsimp only at overlap
  have some := held.some
  have trimmedSome := accepts.some
  -- The first position that the blocks share belongs to an entry that was erased.
  obtain ⟨entry, entryMember, holds⟩ := held.covered (max trimmed.headSeq block.1) (by omega)
    (by omega)
  have startsBefore := holds.1
  have endsAfter := holds.2
  rcases accepts.cleared.erased entry entryMember with kept | ⟨headBefore, -, tailAfter⟩
  · have := accepts.cleared.apart accepts.some entry kept
    omega
  · refine keeps above entry entryMember block member
      ⟨max trimmed.headSeq block.1, by omega, by omega, holds⟩
      ⟨⟨trimmed.headSeq, headBefore, by omega, accepts.not_covers⟩, ?_⟩
    have tailIs := (self.trimToWindow_spec start stop).1
    omega

/-- At most four blocks, the first of which contains what was stored out of order last,
unless the next sequence number moved over it. -/
structure Recent (latest : Option (Nat × Nat)) (buffer : TcpRxBuffer Nat) : Prop where
  few : buffer.sackList.length ≤ 4
  some : ∀ range ∈ latest, range.1 < range.2
  first : ∀ range ∈ latest, buffer.nextRxSeq < range.1 → StartsWith buffer.sackList range

theorem Delivering.nonEmpty_blocks (delivering : Delivering stream extracted inOrder self) :
    ∀ block ∈ self.sackList, block.1 < block.2 := fun block member =>
  (delivering.held block member).some

theorem Recent.add {latest : Option (Nat × Nat)} (recent : Recent latest self)
    (delivering : Delivering stream extracted inOrder self) {after : TcpRxBuffer Nat}
    {newInOrder : Nat}
    (outcome : AddOutcome stream extracted inOrder start stop self after newInOrder) :
    Recent
      (if self.nextRxSeq < (self.leftOf start stop).headSeq ∧
          (self.leftOf start stop).headSeq < (self.leftOf start stop).tailSeq then
        .some ((self.leftOf start stop).headSeq, (self.leftOf start stop).tailSeq)
      else latest) after := by
  rcases outcome.blocks with ⟨nothing, rfl⟩ | ⟨accepts, next, reached, moved, blocks⟩
  · rw [if_neg fun stored => Nat.not_le.mpr stored.2 nothing]
    exact recent
  · generalize self.leftOf start stop = trimmed at *
    have some := accepts.some
    unfold reported at blocks
    by_cases above : self.nextRxSeq < trimmed.headSeq
    · rw [if_pos ⟨above, some⟩]
      rw [if_pos above] at blocks
      obtain ⟨first, few⟩ := updateSackList_first delivering.nonEmpty_blocks some recent.few
      refine ⟨?_, ?_, ?_⟩
      · rw [blocks]
        exact Nat.le_trans (List.length_filter_le _ _) few
      · rintro _ ⟨⟩
        exact some
      · rintro _ ⟨⟩ below
        rw [blocks]
        exact first.clear some (Nat.lt_of_le_of_lt reached below)
    · rw [if_neg fun stored => above stored.1]
      rw [if_neg above] at blocks
      refine ⟨?_, recent.some, fun range isLatest below => ?_⟩
      · rw [blocks]
        exact Nat.le_trans (List.length_filter_le _ _) recent.few
      · rw [blocks]
        exact (recent.first range isLatest (by omega)).clear (recent.some range isLatest)
          (Nat.lt_of_le_of_lt reached below)

/-- Blocks that are disjoint stay disjoint where no entry that they report is
swallowed. -/
theorem Delivering.apart_add (delivering : Delivering stream extracted inOrder self)
    (apart : self.sackList.Pairwise Apart) {after : TcpRxBuffer Nat} {newInOrder : Nat}
    (outcome : AddOutcome stream extracted inOrder start stop self after newInOrder)
    (keeps : self.KeepsReported start stop) : after.sackList.Pairwise Apart := by
  rcases outcome.blocks with ⟨-, rfl⟩ | ⟨accepts, next, -, -, blocks⟩
  · exact apart
  · rw [blocks]
    refine List.Pairwise.filter _ ?_
    unfold reported
    split
    next above =>
      have startAbove : self.nextRxSeq < start := by
        rw [accepts.next] at above ⊢
        exact accepts.start_above delivering.stored.gap (removeOverlaps_sublist _ _ _ _) above
      exact updateSackList_apart delivering.nonEmpty_blocks accepts.some apart
        (delivering.apart_of_keepsReported accepts keeps startAbove)
    next => exact apart

/-- The blocks lie above the next sequence number, also when it counts the FIN. -/
theorem Delivering.block_above (delivering : Delivering stream extracted inOrder self)
    {block : SackBlock Nat} (member : block ∈ self.sackList) : self.nextRxSeq < block.1 := by
  have held := delivering.held block member
  have above := held.above
  have inStream := delivering.stored.covers_lt (held.covered block.1 (Nat.le_refl _) held.some)
  rw [delivering.next]
  split <;> omega

namespace Reception

/-- The SACK list is what RFC 2018 asks for. -/
structure SackListCorrect (initial : Nat) (reception : Reception) : Prop where
  numbered : reception.buffer =
    reception.positions.numbered (SequenceNumber32.ofPosition initial)
  few : reception.buffer.sackList.length ≤ 4
  nonEmpty : ∀ block ∈ reception.positions.sackList, block.1 < block.2
  held : ∀ block ∈ reception.positions.sackList, ∀ position, block.1 ≤ position →
    position < block.2 → Covers reception.positions.data position
  above : ∀ block ∈ reception.positions.sackList, reception.positions.nextRxSeq < block.1
  disjoint : reception.positions.sackList.Pairwise Apart
  latest : ∀ range ∈ reception.latest, reception.positions.nextRxSeq < range.1 →
    StartsWith reception.positions.sackList range

/-- No segment that arrives out of order swallows an entry that a block reports. -/
def KeepsReported (reception : Reception) : Call → Prop
  | .add start length => reception.positions.KeepsReported start (start + length)
  | _ => True

variable {initial : Nat} {reception : Reception}

theorem Recent.extract (recent : Recent reception.latest reception.positions) (maxSize : Nat) :
    Recent (step stream initial reception (.extract maxSize)).latest
      (step stream initial reception (.extract maxSize)).positions ∧
    (step stream initial reception (.extract maxSize)).positions.sackList =
      reception.positions.sackList := by
  rw [step]
  split
  next found =>
    obtain ⟨sameNext, sameList⟩ := extract_frame found
    refine ⟨⟨sameList ▸ recent.few, recent.some, fun range isLatest => ?_⟩, sameList⟩
    dsimp only
    rw [sameNext, sameList]
    exact recent.first range isLatest
  next => exact ⟨recent, rfl⟩

theorem Recent.setFinSequence (recent : Recent reception.latest reception.positions) :
    Recent (step stream initial reception .setFinSequence).latest
      (step stream initial reception .setFinSequence).positions where
  few := recent.few
  some := recent.some
  first range isLatest below := by
    refine recent.first range isLatest (Nat.lt_of_le_of_lt ?_ below)
    simp only [step, TcpRxBuffer.setFinSequence, nat_add]
    split <;> omega

/-- The invariant of the SACK list. -/
structure Sacking (stream : List UInt8) (initial : Nat) (reception : Reception) : Prop where
  invariant : ∃ inOrder, Invariant stream initial inOrder reception
  recent : Recent reception.latest reception.positions
  disjoint : reception.positions.sackList.Pairwise Apart

theorem Sacking.step (sacking : Sacking stream initial reception) {call : Call}
    (enabled : Enabled stream reception call) (keeps : KeepsReported reception call) :
    Sacking stream initial (step stream initial reception call) := by
  obtain ⟨inOrder, invariant⟩ := sacking.invariant
  cases call with
  | add start length =>
      obtain ⟨newInOrder, outcome, added⟩ := invariant.add enabled
      exact ⟨⟨newInOrder, added⟩, sacking.recent.add invariant.delivering outcome,
        invariant.delivering.apart_add sacking.disjoint outcome keeps⟩
  | extract maxSize =>
      obtain ⟨recent, same⟩ := Recent.extract sacking.recent maxSize
      exact ⟨⟨inOrder, invariant.extract enabled⟩, recent, same ▸ sacking.disjoint⟩
  | setFinSequence =>
      exact ⟨⟨inOrder, invariant.setFinSequence enabled⟩, Recent.setFinSequence sacking.recent,
        sacking.disjoint⟩

theorem Sacking.correct (sacking : Sacking stream initial reception) :
    SackListCorrect initial reception := by
  obtain ⟨inOrder, invariant⟩ := sacking.invariant
  have delivering := invariant.delivering
  refine ⟨invariant.numbered, ?_, delivering.nonEmpty_blocks,
    fun block member => (delivering.held block member).covered,
    fun block member => delivering.block_above member, sacking.disjoint, sacking.recent.first⟩
  rw [invariant.numbered, TcpRxBuffer.numbered, numberBlocks, List.length_map]
  exact sacking.recent.few

end Reception

end TcpRxBuffer

end Ns3.Internet
