import Ns3.Internet.TcpRxBuffer.Kernel

/-!
The buffer over the positions of a stream.

A buffer over sequence numbers that wrap does what the buffer over the positions
does, as long as the positions in use lie within half the sequence number space:
each function of the buffer commutes with numbering the positions.
-/

namespace Ns3.Internet

open Library Network SequenceSpace

/-- The position is in the window of half the sequence number space from the lowest
position on. -/
def InUse (lowest position : Nat) : Prop := lowest ≤ position ∧ position < lowest + 2 ^ 31

instance (lowest position : Nat) : Decidable (InUse lowest position) :=
  inferInstanceAs (Decidable (_ ∧ _))

theorem InUse.ite {lowest x y : Nat} (xInUse : InUse lowest x) (yInUse : InUse lowest y)
    (condition : Prop) [Decidable condition] : InUse lowest (if condition then x else y) := by
  split <;> assumption

namespace TcpRxBuffer

variable {Seq : Type} [SequenceSpace Seq] [DecidableEq Seq]

/-- Number the keys of the entries. -/
def numberEntries (seq : Nat → Seq) (data : List (Nat × List UInt8)) : List (Seq × List UInt8) :=
  data.map fun entry => (seq entry.1, entry.2)

/-- Number the ends of the blocks. -/
def numberBlocks (seq : Nat → Seq) (blocks : List (SackBlock Nat)) : List (SackBlock Seq) :=
  blocks.map fun block => (seq block.1, seq block.2)

/-- Number the positions of a buffer. -/
def numbered (seq : Nat → Seq) (self : TcpRxBuffer Nat) : TcpRxBuffer Seq where
  nextRxSeq := seq self.nextRxSeq
  gotFin := self.gotFin
  finSeq := seq self.finSeq
  size := self.size
  maxBuffer := self.maxBuffer
  availBytes := self.availBytes
  data := numberEntries seq self.data
  sackList := numberBlocks seq self.sackList

/-- Number the positions of what is left of a packet. -/
def Trimmed.numbered (seq : Nat → Seq) (self : Trimmed Nat) : Trimmed Seq :=
  ⟨numberEntries seq self.data, self.size, seq self.headSeq, seq self.tailSeq⟩

/-- The ends of every entry are in use. -/
def EntriesInUse (lowest : Nat) (data : List (Nat × List UInt8)) : Prop :=
  ∀ entry ∈ data, InUse lowest entry.1 ∧ InUse lowest (entry.1 + entry.2.length)

/-- The ends of every block are in use. -/
def BlocksInUse (lowest : Nat) (blocks : List (SackBlock Nat)) : Prop :=
  ∀ block ∈ blocks, InUse lowest block.1 ∧ InUse lowest block.2

section

variable {seq : Nat → Seq} {lowest : Nat} {data : List (Nat × List UInt8)}
  {blocks : List (SackBlock Nat)}

theorem EntriesInUse.head {entry : Nat × List UInt8} (inUse : EntriesInUse lowest (entry :: data)) :
    InUse lowest entry.1 ∧ InUse lowest (entry.1 + entry.2.length) := inUse entry List.mem_cons_self

theorem EntriesInUse.tail {entry : Nat × List UInt8} (inUse : EntriesInUse lowest (entry :: data)) :
    EntriesInUse lowest data := fun other member => inUse other (List.mem_cons_of_mem entry member)

theorem removeOverlaps_numbered (faithful : Faithful seq (InUse lowest))
    (entries : EntriesInUse lowest data) {size head tail : Nat} (headInUse : InUse lowest head)
    (tailInUse : InUse lowest tail) :
    removeOverlaps (numberEntries seq data) size (seq head) (seq tail) =
      (removeOverlaps data size head tail).numbered seq ∧
    InUse lowest (removeOverlaps data size head tail).headSeq ∧
    InUse lowest (removeOverlaps data size head tail).tailSeq := by
  induction data generalizing size head tail with
  | nil => exact ⟨rfl, headInUse, tailInUse⟩
  | cons entry rest inductionHypothesis =>
      obtain ⟨startInUse, endInUse⟩ := entries.head
      have later := @inductionHypothesis entries.tail
      simp only [numberEntries, List.map_cons, removeOverlaps, faithful.add,
        faithful.le startInUse tailInUse, faithful.gt _ _ endInUse headInUse,
        faithful.gt _ _ startInUse headInUse, faithful.lt endInUse tailInUse,
        faithful.le startInUse headInUse, faithful.ge endInUse tailInUse, nat_le, nat_gt, nat_lt,
        nat_ge, nat_add, decide_eq_true_eq, Bool.and_eq_true]
      split
      next =>
        split
        next =>
          split
          next => exact later headInUse tailInUse
          next =>
            obtain ⟨same, headAfter, tailAfter⟩ := later
              (endInUse.ite headInUse (entry.1 ≤ head))
              (startInUse.ite tailInUse (tail ≤ entry.1 + entry.2.length))
            rw [apply_ite seq, apply_ite seq] at same
            exact ⟨congrArg (fun trimmed : Trimmed Seq =>
              { trimmed with data := (seq entry.1, entry.2) :: trimmed.data }) same,
              headAfter, tailAfter⟩
        next =>
          obtain ⟨same, headAfter, tailAfter⟩ := later headInUse tailInUse
          exact ⟨congrArg (fun trimmed : Trimmed Seq =>
            { trimmed with data := (seq entry.1, entry.2) :: trimmed.data }) same,
            headAfter, tailAfter⟩
      next => exact ⟨rfl, headInUse, tailInUse⟩

theorem removeOverlaps_sublist (data : List (Nat × List UInt8)) (size head tail : Nat) :
    (removeOverlaps data size head tail).data.Sublist data := by
  induction data generalizing size head tail with
  | nil => exact List.Sublist.refl _
  | cons entry rest inductionHypothesis =>
      rw [removeOverlaps]
      split
      · dsimp only
        split
        · split
          · exact (inductionHypothesis _ _ _).cons entry
          · exact (inductionHypothesis _ _ _).cons_cons entry
        · exact (inductionHypothesis _ _ _).cons_cons entry
      · exact List.Sublist.refl _

theorem insertEntry_numbered (faithful : Faithful seq (InUse lowest))
    (entries : EntriesInUse lowest data) {key : Nat} (keyInUse : InUse lowest key)
    (packet : List UInt8) :
    insertEntry (seq key) packet (numberEntries seq data) =
      numberEntries seq (insertEntry key packet data) := by
  induction data with
  | nil => rfl
  | cons entry rest inductionHypothesis =>
      have startInUse := entries.head.1
      have later := inductionHypothesis entries.tail
      simp only [numberEntries, List.map_cons] at later ⊢
      simp only [insertEntry, faithful.lt keyInUse startInUse, faithful.eq_iff keyInUse startInUse,
        nat_lt, decide_eq_true_eq]
      split
      · rfl
      · split
        · rfl
        · rw [later, List.map_cons]

theorem findMerge_numbered (faithful : Faithful seq (InUse lowest))
    (inUse : BlocksInUse lowest blocks) {begin : SackBlock Nat} (beginInUse : InUse lowest begin.1)
    (endInUse : InUse lowest begin.2) :
    findMerge (seq begin.1, seq begin.2) (numberBlocks seq blocks) =
      (findMerge begin blocks).map fun found =>
        ((seq found.1.1, seq found.1.2), numberBlocks seq found.2) := by
  induction blocks with
  | nil => rfl
  | cons current rest inductionHypothesis =>
      obtain ⟨leftInUse, rightInUse⟩ := inUse current List.mem_cons_self
      have later := inductionHypothesis fun block member =>
        inUse block (List.mem_cons_of_mem current member)
      simp only [numberBlocks, List.map_cons] at later ⊢
      simp only [findMerge, faithful.eq_iff beginInUse rightInUse,
        faithful.eq_iff endInUse leftInUse]
      split
      · rfl
      · split
        · rfl
        · rw [later]
          cases findMerge begin rest <;> rfl

/-- The block that was merged, and the other ones. -/
theorem findMerge_cases {begin merged : SackBlock Nat} {rest : List (SackBlock Nat)}
    (found : findMerge begin blocks = some (merged, rest)) :
    ∃ before current after, blocks = before ++ current :: after ∧ rest = before ++ after ∧
      (begin.1 = current.2 ∧ merged = (current.1, begin.2) ∨
        begin.2 = current.1 ∧ merged = (begin.1, current.2)) := by
  induction blocks generalizing rest with
  | nil => exact nomatch found
  | cons current others inductionHypothesis =>
      rw [findMerge] at found
      split at found
      next same =>
        cases found
        exact ⟨[], current, others, rfl, rfl, .inl ⟨same, rfl⟩⟩
      next =>
        split at found
        next same =>
          cases found
          exact ⟨[], current, others, rfl, rfl, .inr ⟨same, rfl⟩⟩
        next =>
          obtain ⟨⟨inner, left⟩, innerFound, same⟩ := Option.map_eq_some_iff.mp found
          cases same
          obtain ⟨before, other, after, rfl, rfl, merging⟩ := inductionHypothesis innerFound
          exact ⟨current :: before, other, after, rfl, rfl, merging⟩

section

variable {Property : SackBlock Nat → Prop}
  (joined : ∀ left middle right, Property (left, middle) → Property (middle, right) →
    Property (left, right))

include joined

theorem findMerge_forall (all : ∀ block ∈ blocks, Property block) {begin merged : SackBlock Nat}
    {rest : List (SackBlock Nat)} (first : Property begin)
    (found : findMerge begin blocks = some (merged, rest)) :
    Property merged ∧ ∀ block ∈ rest, Property block := by
  obtain ⟨before, current, after, rfl, rfl, merging⟩ := findMerge_cases found
  have currentHas := all current (by simp)
  refine ⟨?_, fun block member => all block (by
    rcases List.mem_append.mp member with left | right
    · exact List.mem_append_left _ left
    · exact List.mem_append_right _ (List.mem_cons_of_mem current right))⟩
  rcases merging with ⟨same, rfl⟩ | ⟨same, rfl⟩
  · exact joined _ _ _ currentHas (same ▸ first)
  · exact joined _ _ _ first (same ▸ currentHas)

theorem mergeSackList_forall (merges : Nat) (all : ∀ block ∈ blocks, Property block)
    {begin : SackBlock Nat} (first : Property begin) :
    ∀ block ∈ mergeSackList merges begin blocks, Property block := by
  induction merges generalizing begin blocks with
  | zero => exact List.forall_mem_cons.mpr ⟨first, all⟩
  | succ merges inductionHypothesis =>
      rw [mergeSackList]
      cases found : findMerge begin blocks with
      | none => exact List.forall_mem_cons.mpr ⟨first, all⟩
      | some result =>
          obtain ⟨mergedHas, restHave⟩ := findMerge_forall joined all first found
          exact inductionHypothesis restHave mergedHas

/-- A property of adjacent blocks that merging them keeps is one of all the blocks
that `UpdateSackList` leaves. -/
theorem updateSackList_forall (all : ∀ block ∈ blocks, Property block) {head tail : Nat}
    (first : Property (head, tail)) :
    ∀ block ∈ updateSackList blocks head tail, Property block := by
  have merged := mergeSackList_forall joined blocks.length all first
  unfold updateSackList
  dsimp only
  split
  · exact fun block member => merged block (List.dropLast_subset _ member)
  · exact merged

end

theorem mergeSackList_numbered (faithful : Faithful seq (InUse lowest)) (merges : Nat)
    (inUse : BlocksInUse lowest blocks) (begin : SackBlock Nat) (beginInUse : InUse lowest begin.1)
    (endInUse : InUse lowest begin.2) :
    mergeSackList merges (seq begin.1, seq begin.2) (numberBlocks seq blocks) =
      numberBlocks seq (mergeSackList merges begin blocks) := by
  induction merges generalizing begin blocks with
  | zero => rfl
  | succ merges inductionHypothesis =>
      rw [mergeSackList, mergeSackList, findMerge_numbered faithful inUse beginInUse endInUse]
      cases found : findMerge begin blocks with
      | none => rfl
      | some result =>
          obtain ⟨merged, rest⟩ := result
          obtain ⟨mergedInUse, restInUse⟩ := findMerge_forall (fun _ _ _ first second =>
            ⟨first.1, second.2⟩) inUse ⟨beginInUse, endInUse⟩ found
          exact inductionHypothesis restInUse merged mergedInUse.1 mergedInUse.2

theorem updateSackList_numbered (faithful : Faithful seq (InUse lowest))
    (inUse : BlocksInUse lowest blocks) {head tail : Nat} (headInUse : InUse lowest head)
    (tailInUse : InUse lowest tail) :
    updateSackList (numberBlocks seq blocks) (seq head) (seq tail) =
      numberBlocks seq (updateSackList blocks head tail) := by
  have merged := mergeSackList_numbered faithful blocks.length inUse (head, tail) headInUse
    tailInUse
  unfold updateSackList
  simp only [numberBlocks, List.length_map] at merged ⊢
  rw [merged, List.length_map]
  split
  · rw [List.map_dropLast]
  · rfl

omit [DecidableEq Seq] in
theorem clearSackList_numbered (faithful : Faithful seq (InUse lowest))
    (inUse : BlocksInUse lowest blocks) {position : Nat} (positionInUse : InUse lowest position) :
    clearSackList (numberBlocks seq blocks) (seq position) =
      numberBlocks seq (clearSackList blocks position) := by
  unfold clearSackList numberBlocks
  rw [List.filter_map]
  congr 1
  refine List.filter_congr fun block member => ?_
  simp only [Function.comp, faithful.le (inUse block member).2 positionInUse, nat_le]

theorem BlocksInUse.filter (inUse : BlocksInUse lowest blocks) (keep : SackBlock Nat → Bool) :
    BlocksInUse lowest (blocks.filter keep) := fun block member =>
  inUse block ((List.mem_filter.mp member).1)

theorem advance_numbered (faithful : Faithful seq (InUse lowest))
    (entries : EntriesInUse lowest data) {self : TcpRxBuffer Nat}
    (nextInUse : InUse lowest self.nextRxSeq) (inUse : BlocksInUse lowest self.sackList) :
    advance (numberEntries seq data) (self.numbered seq) = (advance data self).numbered seq ∧
      InUse lowest (advance data self).nextRxSeq := by
  induction data generalizing self with
  | nil => exact ⟨rfl, nextInUse⟩
  | cons entry rest inductionHypothesis =>
      obtain ⟨startInUse, endInUse⟩ := entries.head
      have later := @inductionHypothesis entries.tail
      simp only [numberEntries, List.map_cons] at later ⊢
      simp only [advance, numbered, faithful.lt startInUse nextInUse,
        faithful.gt _ _ startInUse nextInUse, faithful.add, nat_lt, nat_gt, nat_add,
        decide_eq_true_eq]
      split
      · exact later nextInUse inUse
      · split
        · exact ⟨rfl, nextInUse⟩
        · rw [clearSackList_numbered faithful inUse endInUse]
          exact @later
            { self with
              nextRxSeq := entry.1 + entry.2.length
              availBytes := wrap 32 (self.availBytes + entry.2.length)
              sackList := clearSackList self.sackList (entry.1 + entry.2.length) }
            endInUse (inUse.filter _)

theorem trimToWindow_numbered (faithful : Faithful seq (InUse lowest)) {self : TcpRxBuffer Nat}
    (nextInUse : InUse lowest self.nextRxSeq)
    (maxInUse : ∀ first ∈ self.data.head?, InUse lowest (first.1 + self.maxBuffer))
    {head tail : Nat} (headInUse : InUse lowest head) (tailInUse : InUse lowest tail) :
    (self.numbered seq).trimToWindow (seq head) (seq tail) =
      (seq (self.trimToWindow head tail).1, seq (self.trimToWindow head tail).2) ∧
    InUse lowest (self.trimToWindow head tail).1 ∧
    InUse lowest (self.trimToWindow head tail).2 := by
  have newHead := nextInUse.ite headInUse (head < self.nextRxSeq)
  unfold trimToWindow
  simp only [numbered, faithful.lt headInUse nextInUse, nat_lt, decide_eq_true_eq]
  rw [← apply_ite seq]
  cases same : self.data with
  | nil => exact ⟨rfl, newHead, tailInUse⟩
  | cons first rest =>
      have limitInUse := maxInUse first (by rw [same]; rfl)
      have newTail := limitInUse.ite tailInUse (first.1 + self.maxBuffer < tail)
      simp only [numberEntries, List.map_cons, faithful.add, faithful.lt limitInUse tailInUse,
        nat_add, decide_eq_true_eq]
      rw [← apply_ite seq]
      simp only [faithful.lt newTail newHead, decide_eq_true_eq]
      rw [← apply_ite seq]
      exact ⟨rfl, newTail.ite newHead _, newTail⟩

/-- The entries after `m_data [key] = packet`. -/
theorem mem_insertEntry {key : Nat} {packet : List UInt8} {entry : Nat × List UInt8}
    (member : entry ∈ insertEntry key packet data) : entry = (key, packet) ∨ entry ∈ data := by
  induction data with
  | nil => exact .inl (List.mem_singleton.mp member)
  | cons first rest inductionHypothesis =>
      rw [insertEntry] at member
      split at member
      · exact List.mem_cons.mp member
      · split at member
        · exact (List.mem_cons.mp member).imp_right (List.mem_cons_of_mem first)
        · rcases List.mem_cons.mp member with rfl | later
          · exact .inr List.mem_cons_self
          · exact (inductionHypothesis later).imp_right (List.mem_cons_of_mem first)

theorem EntriesInUse.insertEntry (entries : EntriesInUse lowest data) {key : Nat}
    {packet : List UInt8} (keyInUse : InUse lowest key)
    (endInUse : InUse lowest (key + packet.length)) :
    EntriesInUse lowest (insertEntry key packet data) := by
  intro entry member
  rcases mem_insertEntry member with rfl | before
  · exact ⟨keyInUse, endInUse⟩
  · exact entries entry before

end

/-- The sequence numbers of a buffer are in use. -/
structure Live (lowest : Nat) (buffer : TcpRxBuffer Nat) : Prop where
  next : InUse lowest buffer.nextRxSeq
  fin : buffer.gotFin → InUse lowest buffer.finSeq
  entries : EntriesInUse lowest buffer.data
  window : ∀ first ∈ buffer.data.head?, InUse lowest (first.1 + buffer.maxBuffer)

instance (lowest : Nat) (buffer : TcpRxBuffer Nat) : Decidable (Live lowest buffer) :=
  decidable_of_iff
    (InUse lowest buffer.nextRxSeq ∧ (buffer.gotFin → InUse lowest buffer.finSeq) ∧
      (∀ entry ∈ buffer.data, InUse lowest entry.1 ∧ InUse lowest (entry.1 + entry.2.length)) ∧
      ∀ first ∈ buffer.data.head?, InUse lowest (first.1 + buffer.maxBuffer))
    ⟨fun ⟨next, fin, entries, window⟩ => ⟨next, fin, entries, window⟩,
      fun live => ⟨live.next, live.fin, live.entries, live.window⟩⟩

section

variable {seq : Nat → Seq} {lowest : Nat} {self : TcpRxBuffer Nat}

/-- `advance` only moves over the entries. -/
theorem advance_eq (data : List (Seq × List UInt8)) (self : TcpRxBuffer Seq) :
    ∃ nextRxSeq availBytes sackList, advance data self =
      { self with nextRxSeq := nextRxSeq, availBytes := availBytes, sackList := sackList } := by
  induction data generalizing self with
  | nil => exact ⟨_, _, _, rfl⟩
  | cons entry rest inductionHypothesis =>
      rw [advance]
      split
      · exact inductionHypothesis self
      · split
        · exact ⟨_, _, _, rfl⟩
        · exact inductionHypothesis _

/-- What no segment changes. -/
structure SameFin (before after : TcpRxBuffer Seq) : Prop where
  gotFin : after.gotFin = before.gotFin
  finSeq : after.finSeq = before.finSeq
  maxBuffer : after.maxBuffer = before.maxBuffer

theorem sameFin_accountFin (self : TcpRxBuffer Seq) : SameFin self self.accountFin := by
  unfold accountFin
  split
  · exact ⟨rfl, rfl, rfl⟩
  · exact ⟨rfl, rfl, rfl⟩

theorem sameFin_store (self : TcpRxBuffer Seq) (packet : List UInt8) (head tail : Seq) :
    SameFin self (self.store packet head tail) := by
  unfold store
  obtain ⟨nextRxSeq, availBytes, sackList, frame⟩ := advance_eq (insertEntry head packet self.data)
    { self with
      data := insertEntry head packet self.data
      sackList := if gt head self.nextRxSeq then updateSackList self.sackList head tail
        else self.sackList
      size := wrap 32 (self.size + packet.length) }
  dsimp only
  rw [frame]
  have accounted := sameFin_accountFin
    { self with
      data := insertEntry head packet self.data
      sackList := sackList
      size := wrap 32 (self.size + packet.length)
      nextRxSeq := nextRxSeq
      availBytes := availBytes }
  exact ⟨accounted.gotFin, accounted.finSeq, accounted.maxBuffer⟩

theorem sameFin_add (self : TcpRxBuffer Seq) (packet : List UInt8) (start : Seq) :
    SameFin self (self.add packet start).1 := by
  unfold add
  dsimp only
  split
  · exact ⟨rfl, rfl, rfl⟩
  · have stored := sameFin_store
      { self with
        data := (removeOverlaps self.data self.size
          (self.trimToWindow start (SequenceSpace.add start packet.length)).1
          (self.trimToWindow start (SequenceSpace.add start packet.length)).2).data
        size := (removeOverlaps self.data self.size
          (self.trimToWindow start (SequenceSpace.add start packet.length)).1
          (self.trimToWindow start (SequenceSpace.add start packet.length)).2).size }
    exact ⟨(stored _ _ _).gotFin, (stored _ _ _).finSeq, (stored _ _ _).maxBuffer⟩

theorem accountFin_numbered (faithful : Faithful seq (InUse lowest))
    (nextInUse : InUse lowest self.nextRxSeq)
    (finInUse : self.gotFin → InUse lowest self.finSeq) :
    (self.numbered seq).accountFin = self.accountFin.numbered seq := by
  cases known : self.gotFin with
  | false => simp [accountFin, numbered, known]
  | true =>
      simp only [accountFin, numbered, known, Bool.true_and, decide_eq_true_eq,
        faithful.eq_iff nextInUse (finInUse known)]
      split
      · simp only [faithful.add, nat_add]
      · simp only [known]

theorem store_numbered (faithful : Faithful seq (InUse lowest))
    (entries : EntriesInUse lowest self.data) (blocks : BlocksInUse lowest self.sackList)
    (nextInUse : InUse lowest self.nextRxSeq)
    (finInUse : self.gotFin → InUse lowest self.finSeq) {packet : List UInt8} {head tail : Nat}
    (headInUse : InUse lowest head) (tailInUse : InUse lowest tail)
    (length : head + packet.length = tail) :
    (self.numbered seq).store packet (seq head) (seq tail) =
      (self.store packet head tail).numbered seq := by
  have stored : EntriesInUse lowest (insertEntry head packet self.data) :=
    entries.insertEntry headInUse (by rwa [length])
  have updated : BlocksInUse lowest (if gt head self.nextRxSeq then
      updateSackList self.sackList head tail else self.sackList) := by
    split
    · exact updateSackList_forall (fun _ _ _ first second => ⟨first.1, second.2⟩) blocks
        ⟨headInUse, tailInUse⟩
    · exact blocks
  have same : (if gt (seq head) (self.numbered seq).nextRxSeq then
        updateSackList (self.numbered seq).sackList (seq head) (seq tail)
      else (self.numbered seq).sackList) =
      numberBlocks seq (if gt head self.nextRxSeq then updateSackList self.sackList head tail
        else self.sackList) := by
    simp only [numbered, faithful.gt _ _ headInUse nextInUse, updateSackList_numbered faithful
      blocks headInUse tailInUse, nat_gt]
    rw [← apply_ite (numberBlocks seq)]
  have inserted : insertEntry (seq head) packet (self.numbered seq).data =
      numberEntries seq (insertEntry head packet self.data) :=
    insertEntry_numbered faithful entries headInUse packet
  unfold store
  dsimp only
  rw [same, inserted]
  generalize (if gt head self.nextRxSeq then updateSackList self.sackList head tail
    else self.sackList) = sackList at updated
  obtain ⟨advanced, advancedInUse⟩ := @advance_numbered Seq _ _ seq lowest _ faithful stored
    { self with
      data := insertEntry head packet self.data
      sackList := sackList
      size := wrap 32 (self.size + packet.length) } nextInUse updated
  refine (congrArg accountFin advanced).trans (accountFin_numbered faithful advancedInUse ?_)
  obtain ⟨nextRxSeq, availBytes, cleared, frame⟩ := advance_eq (insertEntry head packet self.data)
    { self with
      data := insertEntry head packet self.data
      sackList := sackList
      size := wrap 32 (self.size + packet.length) }
  rw [frame]
  exact finInUse

theorem setFinSequence_numbered (faithful : Faithful seq (InUse lowest))
    (nextInUse : InUse lowest self.nextRxSeq) {position : Nat} (inUse : InUse lowest position) :
    (self.numbered seq).setFinSequence (seq position) =
      (self.setFinSequence position).numbered seq := by
  simp only [setFinSequence, numbered, faithful.eq_iff nextInUse inUse, faithful.add]
  rw [← apply_ite seq]
  rfl

/-- What is left of the segment from `start` to `stop` after it is trimmed. -/
def leftOf (self : TcpRxBuffer Nat) (start stop : Nat) : Trimmed Nat :=
  removeOverlaps self.data self.size (self.trimToWindow start stop).1
    (self.trimToWindow start stop).2

/-- `Add` on the sequence numbers is `Add` on the positions, where what is left of
the packet is part of it. -/
theorem add_numbered (faithful : Faithful seq (InUse lowest)) (live : self.Live lowest)
    (blocks : BlocksInUse lowest self.sackList) {packet : List UInt8} {start : Nat}
    (startInUse : InUse lowest start) (endInUse : InUse lowest (start + packet.length))
    (inside : (self.leftOf start (start + packet.length)).headSeq <
        (self.leftOf start (start + packet.length)).tailSeq →
      start ≤ (self.leftOf start (start + packet.length)).headSeq ∧
        (self.leftOf start (start + packet.length)).tailSeq ≤ start + packet.length) :
    (self.numbered seq).add packet (seq start) =
      ((self.add packet start).1.numbered seq, (self.add packet start).2) := by
  obtain ⟨window, headInUse, tailInUse⟩ := trimToWindow_numbered faithful live.next live.window
    startInUse endInUse
  obtain ⟨trimmed, newHeadInUse, newTailInUse⟩ := @removeOverlaps_numbered Seq _ _ seq lowest
    self.data faithful live.entries self.size _ _ headInUse tailInUse
  unfold add
  simp only [faithful.add, window]
  simp only [numbered, trimmed]
  simp only [nat_add]
  unfold leftOf at inside
  generalize left : removeOverlaps self.data self.size
    (self.trimToWindow start (start + packet.length)).1
    (self.trimToWindow start (start + packet.length)).2 = result at *
  simp only [Trimmed.numbered, faithful.ge newHeadInUse newTailInUse, nat_ge, decide_eq_true_eq]
  split
  · rfl
  next some =>
    obtain ⟨after, before⟩ := inside (Nat.lt_of_not_le some)
    rw [faithful.sub _ _ newHeadInUse startInUse after,
      faithful.sub _ _ newTailInUse newHeadInUse (Nat.le_of_lt (Nat.lt_of_not_le some))]
    refine Prod.ext ?_ rfl
    have kept : EntriesInUse lowest result.data := fun entry member =>
      live.entries entry (by
        rw [← left] at member
        exact (removeOverlaps_sublist _ _ _ _).subset member)
    refine @store_numbered Seq _ _ seq lowest { self with data := result.data, size := result.size }
      faithful kept blocks live.next live.fin _ _ _ newHeadInUse newTailInUse ?_
    simp only [List.length_take, List.length_drop]
    omega

/-- The sequence number of the rest of a split entry. -/
theorem extractFrom_numbered (faithful : Faithful seq (InUse lowest)) (extractSize : Nat)
    {data : List (Nat × List UInt8)} (entries : EntriesInUse lowest data) :
    extractFrom extractSize (numberEntries seq data) =
      (extractFrom extractSize data).map fun extracted =>
        (extracted.1, numberEntries seq extracted.2) := by
  induction data generalizing extractSize with
  | nil => cases extractSize <;> rfl
  | cons entry rest inductionHypothesis =>
      cases extractSize with
      | zero => rfl
      | succ extractSize =>
          obtain ⟨startInUse, endInUse⟩ := entries.head
          have later := inductionHypothesis (extractSize + 1 - entry.2.length) entries.tail
          rw [numberEntries, List.map_cons, extractFrom, extractFrom]
          split
          · rw [← numberEntries, later, Option.map_map, Option.map_map]
            rfl
          next partly =>
            have splitInUse : InUse lowest (entry.1 + (extractSize + 1)) := by
              unfold InUse at *
              dsimp only at partly
              omega
            rw [faithful.add, ← numberEntries,
              insertEntry_numbered faithful entries.tail splitInUse]
            rfl

theorem extract_numbered (faithful : Faithful seq (InUse lowest)) (live : self.Live lowest)
    (maxSize : Nat) :
    (self.numbered seq).extract maxSize =
      (self.extract maxSize).map fun extracted => (extracted.1, extracted.2.numbered seq) := by
  unfold extract
  simp only [numbered, extractFrom_numbered faithful _ live.entries, Option.map_map]
  rfl

end

end TcpRxBuffer

end Ns3.Internet
