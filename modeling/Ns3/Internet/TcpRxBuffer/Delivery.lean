import Ns3.Library.Machine
import Ns3.Internet.TcpRxBuffer.Reassembly

/-!
The receive buffer over whole runs.

`Delivering` is the invariant of the buffer over positions. A session makes the
same calls on a buffer over sequence numbers and on one over the positions of the
stream; the positions in use tell which calls keep the sequence numbers within
half of their space.
-/

namespace Ns3.Internet

open Library Network SequenceSpace

namespace TcpRxBuffer

/-- The block lies above the bytes that are in order, and all of it is held. -/
structure Held (data : List (Nat × List UInt8)) (inOrder : Nat) (block : SackBlock Nat) : Prop where
  above : inOrder < block.1
  some : block.1 < block.2
  covered : ∀ position, block.1 ≤ position → position < block.2 → Covers data position

/-- The buffer holds the stream from the first position that was not extracted. -/
structure Delivering (stream : List UInt8) (extracted inOrder : Nat) (buffer : TcpRxBuffer Nat) :
    Prop where
  stored : Stored stream extracted inOrder buffer.data
  fin : buffer.gotFin → buffer.finSeq = stream.length
  next : buffer.nextRxSeq =
    if buffer.gotFin ∧ inOrder = stream.length then inOrder + 1 else inOrder
  size : buffer.size = totalLength buffer.data
  available : buffer.availBytes = inOrder - extracted
  held : ∀ block ∈ buffer.sackList, Held buffer.data inOrder block

variable {self : TcpRxBuffer Nat} {stream : List UInt8} {extracted inOrder lowest : Nat}

theorem delivering_create (stream : List UInt8) (maxBuffer : Nat) :
    Delivering stream 0 0 (create 0 maxBuffer) where
  stored :=
    { nonEmpty := fun _ member => nomatch member
      slices := fun _ member => nomatch member
      separated := List.Pairwise.nil
      after := fun _ member => nomatch member
      reached := Nat.le_refl 0
      within := Nat.zero_le _
      contiguous := fun _ _ high => absurd high (Nat.not_lt_zero _)
      gap := not_covers_nil }
  fin known := nomatch known
  next := rfl
  size := rfl
  available := rfl
  held _ member := nomatch member

theorem Delivering.inOrder_le_next (delivering : Delivering stream extracted inOrder self) :
    inOrder ≤ self.nextRxSeq := by
  rw [delivering.next]
  split <;> omega

/-- The blocks are in use when the entries are. -/
theorem Delivering.blocksInUse (delivering : Delivering stream extracted inOrder self)
    (entries : EntriesInUse lowest self.data) : BlocksInUse lowest self.sackList := by
  intro block member
  have held := delivering.held block member
  have some := held.some
  obtain ⟨first, firstMember, firstHolds⟩ := held.covered block.1 (Nat.le_refl _) some
  obtain ⟨last, lastMember, lastHolds⟩ := held.covered (block.2 - 1) (by omega) (by omega)
  have firstInUse := entries first firstMember
  have lastInUse := entries last lastMember
  unfold Chunk.Holds at firstHolds lastHolds
  unfold InUse at *
  omega

/-- No more bytes are in order than positions are in use. -/
theorem Stored.inOrder_sub_le {data : List (Nat × List UInt8)}
    (stored : Stored stream extracted inOrder data) (entries : EntriesInUse lowest data) :
    inOrder - extracted ≤ 2 ^ 31 := by
  by_cases some : extracted < inOrder
  · obtain ⟨first, firstMember, firstHolds⟩ := stored.contiguous extracted (Nat.le_refl _) some
    obtain ⟨last, lastMember, lastHolds⟩ := stored.contiguous (inOrder - 1) (by omega) (by omega)
    have firstInUse := entries first firstMember
    have lastInUse := entries last lastMember
    unfold Chunk.Holds at firstHolds lastHolds
    unfold InUse at *
    omega
  · omega

/-- No more bytes are stored than positions are in use. -/
theorem totalLength_le_of_inUse {data : List (Nat × List UInt8)} (separated : Separated data)
    (entries : EntriesInUse lowest data) : totalLength data ≤ 2 ^ 31 := by
  have bound := separated.totalLength_le (Nat.le_add_right lowest (2 ^ 31)) fun entry member => by
    have := entries entry member
    unfold InUse at this
    omega
  omega

/-- Something is left of the segment, and can be stored. -/
structure Accepts (buffer : TcpRxBuffer Nat) (inOrder start stop : Nat) (trimmed : Trimmed Nat) :
    Prop where
  cleared : Cleared buffer.data buffer.size (buffer.trimToWindow start stop).1
    (buffer.trimToWindow start stop).2 trimmed
  some : trimmed.headSeq < trimmed.tailSeq
  next : buffer.nextRxSeq = inOrder
  low : max start inOrder ≤ trimmed.headSeq
  high : trimmed.tailSeq ≤ buffer.acceptedEnd stop
  window : ∀ position, start ≤ position → position < buffer.acceptedEnd stop → inOrder ≤ position →
    (buffer.trimToWindow start stop).1 ≤ position ∧ position < (buffer.trimToWindow start stop).2

theorem Delivering.cleared (delivering : Delivering stream extracted inOrder self)
    (start stop : Nat) :
    Cleared self.data self.size (self.trimToWindow start stop).1
      (self.trimToWindow start stop).2 (self.leftOf start stop) := by
  have ordered := (self.trimToWindow_spec start stop).2.1
  unfold leftOf
  cases same : self.data with
  | nil =>
      exact Cleared.stop (Nat.le_refl _) (Nat.le_refl _) (fun _ _ member => nomatch member)
        fun _ low high => .inl ⟨low, high⟩
  | cons first rest =>
      rw [← same]
      exact removeOverlaps_cleared delivering.stored.separated delivering.stored.nonEmpty
        (ordered (by rw [same]; exact List.cons_ne_nil first rest))

/-- Either something is left of a segment, or all that the window accepts of it is
there. -/
theorem Delivering.accepts (delivering : Delivering stream extracted inOrder self)
    (start : Nat) {stop : Nat} (within : stop ≤ stream.length) :
    self.Accepts inOrder start stop (self.leftOf start stop) ∨
    (self.leftOf start stop).tailSeq ≤ (self.leftOf start stop).headSeq ∧
      ∀ position, start ≤ position → position < self.acceptedEnd stop →
        position < inOrder ∨ Covers self.data position := by
  have inStream := delivering.stored.within
  have bound := self.acceptedEnd_le stop
  have cleared := delivering.cleared start stop
  obtain ⟨low, high⟩ := cleared.bounds
  obtain ⟨tailIs, -, headIs⟩ := self.trimToWindow_spec start stop
  have next := delivering.next
  by_cases some : (self.leftOf start stop).headSeq < (self.leftOf start stop).tailSeq
  · -- A FIN that was counted leaves nothing of a segment of the stream.
    have same : self.nextRxSeq = inOrder := by
      split at next <;> omega
    refine .inl ⟨cleared, some, same, by omega, by omega, fun position first last after => ?_⟩
    omega
  · refine .inr ⟨Nat.le_of_not_lt some, fun position first last => ?_⟩
    by_cases before : position < inOrder
    · exact .inl before
    · have reached : self.nextRxSeq ≤ position := by
        split at next <;> omega
      rcases cleared.covered position (by omega) (by omega) with inside | covers
      · omega
      · rw [(cleared.unchanged (Nat.le_of_not_lt some)).1] at covers
        exact .inr covers

theorem Delivering.inside (delivering : Delivering stream extracted inOrder self)
    {start stop : Nat} (within : stop ≤ stream.length)
    (some : (self.leftOf start stop).headSeq < (self.leftOf start stop).tailSeq) :
    start ≤ (self.leftOf start stop).headSeq ∧ (self.leftOf start stop).tailSeq ≤ stop := by
  have bound := self.acceptedEnd_le stop
  rcases delivering.accepts start within with accepts | ⟨nothing, -⟩
  · have low := accepts.low
    have high := accepts.high
    omega
  · omega

/-- `Add` on positions, by what is left of the packet. -/
theorem add_eq (self : TcpRxBuffer Nat) (packet : List UInt8) (start : Nat) :
    self.add packet start =
      let trimmed := self.leftOf start (start + packet.length)
      if trimmed.tailSeq ≤ trimmed.headSeq then
        ({ self with data := trimmed.data, size := trimmed.size }, false)
      else
        ({ self with data := trimmed.data, size := trimmed.size }.store
          ((packet.drop (trimmed.headSeq - start)).take (trimmed.tailSeq - trimmed.headSeq))
          trimmed.headSeq trimmed.tailSeq, true) := by
  simp only [add, nat_add, nat_ge, nat_sub, decide_eq_true_eq]
  rfl

/-- The blocks after a packet was stored, those below the next sequence number
included. -/
def reported (self : TcpRxBuffer Nat) (head tail : Nat) : List (SackBlock Nat) :=
  if self.nextRxSeq < head then updateSackList self.sackList head tail else self.sackList

theorem clearSackList_eq_self {blocks : List (SackBlock Nat)} {next : Nat}
    (above : ∀ block ∈ blocks, next < block.2) : clearSackList blocks next = blocks := by
  refine List.filter_eq_self.mpr fun block member => ?_
  simpa using above block member

/-- `store` on positions: the packet is stored, and the next sequence number moves to
the frontier. -/
theorem store_eq {packet : List UInt8} {head tail : Nat}
    (nonEmpty : NonEmpty (insertEntry head packet self.data))
    (small : self.availBytes < 2 ^ 32)
    (above : ∀ block ∈ self.reported head tail, self.nextRxSeq < block.2) :
    self.store packet head tail =
      accountFin
        { self with
          data := insertEntry head packet self.data
          size := wrap 32 (self.size + packet.length)
          nextRxSeq := frontier (insertEntry head packet self.data) self.nextRxSeq
          availBytes := wrap 32 (self.availBytes +
            (frontier (insertEntry head packet self.data) self.nextRxSeq - self.nextRxSeq))
          sackList := clearSackList (self.reported head tail)
            (frontier (insertEntry head packet self.data) self.nextRxSeq) } := by
  have list : (if gt head self.nextRxSeq then updateSackList self.sackList head tail
      else self.sackList) = self.reported head tail := by
    simp only [reported, nat_gt, decide_eq_true_eq]
  unfold store
  dsimp only
  rw [list, advance_frontier nonEmpty]
  · dsimp only
    split
    next stays => rw [stays, clearSackList_eq_self above]
    next => rfl
  · exact small

theorem Held.joined {data : List (Nat × List UInt8)} (left middle right : Nat)
    (first : Held data inOrder (left, middle)) (second : Held data inOrder (middle, right)) :
    Held data inOrder (left, right) where
  above := first.above
  some := Nat.lt_trans first.some second.some
  covered position low high := by
    by_cases before : position < middle
    · exact first.covered position low before
    · exact second.covered position (Nat.le_of_not_lt before) high

theorem Held.mono {data newData : List (Nat × List UInt8)} {block : SackBlock Nat}
    (held : Held data inOrder block)
    (kept : ∀ position, inOrder < position → Covers data position → Covers newData position) :
    Held newData inOrder block where
  above := held.above
  some := held.some
  covered position low high := kept position (Nat.lt_of_lt_of_le held.above low)
    (held.covered position low high)

/-- The blocks that are left above the next sequence number. -/
theorem Held.clear {data : List (Nat × List UInt8)} {next : Nat} {block : SackBlock Nat}
    (held : Held data inOrder block) (gap : ¬ Covers data next) (above : next < block.2) :
    Held data next block where
  above := by
    by_contra below
    exact gap (held.covered next (Nat.le_of_not_lt below) above)
  some := held.some
  covered := held.covered

theorem accountFin_data : self.accountFin.data = self.data := by
  unfold accountFin
  split <;> rfl

theorem accountFin_sackList : self.accountFin.sackList = self.sackList := by
  unfold accountFin
  split <;> rfl

theorem le_accountFin_nextRxSeq {next : Nat} (same : self.nextRxSeq = next) :
    next ≤ self.accountFin.nextRxSeq := by
  unfold accountFin
  split
  · exact same ▸ Nat.le_succ _
  · exact Nat.le_of_eq same.symm

theorem delivering_accountFin (stored : Stored stream extracted inOrder self.data)
    (fin : self.gotFin → self.finSeq = stream.length) (next : self.nextRxSeq = inOrder)
    (size : self.size = totalLength self.data) (available : self.availBytes = inOrder - extracted)
    (held : ∀ block ∈ self.sackList, Held self.data inOrder block) :
    Delivering stream extracted inOrder self.accountFin := by
  unfold accountFin
  simp only [Bool.and_eq_true, decide_eq_true_eq, nat_add]
  split
  next counted =>
    refine ⟨stored, fin, ?_, size, available, held⟩
    rw [if_pos ⟨counted.1, by rw [← next, counted.2, fin counted.1]⟩]
    exact congrArg (· + 1) next
  next notCounted =>
    refine ⟨stored, fin, ?_, size, available, held⟩
    rw [if_neg fun counted => notCounted ⟨counted.1, by rw [next, counted.2, fin counted.1]⟩]
    exact next

/-- The blocks that a stored packet leaves are held. -/
theorem Delivering.held_reported (delivering : Delivering stream extracted inOrder self)
    (next : self.nextRxSeq = inOrder) {head tail : Nat} (some : head < tail)
    {data : List (Nat × List UInt8)}
    (covers : ∀ position, Covers data position ↔
      head ≤ position ∧ position < tail ∨ Covers self.data position) :
    ∀ block ∈ self.reported head tail, Held data inOrder block := by
  have oldHeld : ∀ block ∈ self.sackList, Held data inOrder block := fun block member =>
    (delivering.held block member).mono fun position _ covered =>
      (covers position).mpr (.inr covered)
  unfold reported
  split
  next above =>
    refine updateSackList_forall Held.joined oldHeld ⟨next ▸ above, some, ?_⟩
    exact fun position low high => (covers position).mpr (.inl ⟨low, high⟩)
  next => exact oldHeld

/-- The part of a segment that is left is stored. -/
theorem Delivering.store (delivering : Delivering stream extracted inOrder self)
    (live : self.Live lowest) {start stop : Nat} (startInUse : InUse lowest start)
    (stopInUse : InUse lowest stop) {trimmed : Trimmed Nat}
    (accepts : self.Accepts inOrder start stop trimmed)
    (sublist : trimmed.data.Sublist self.data) {packet : List UInt8}
    (length : trimmed.headSeq + packet.length = trimmed.tailSeq)
    (slice : Chunk.SliceOf stream (trimmed.headSeq, packet)) :
    Delivering stream extracted
      (frontier (insertEntry trimmed.headSeq packet trimmed.data) inOrder)
      ({ self with data := trimmed.data, size := trimmed.size }.store packet trimmed.headSeq
        trimmed.tailSeq) ∧
    ∃ next ≤ ({ self with data := trimmed.data, size := trimmed.size }.store packet
        trimmed.headSeq trimmed.tailSeq).nextRxSeq,
      self.nextRxSeq ≤ next ∧
      ({ self with data := trimmed.data, size := trimmed.size }.store packet trimmed.headSeq
        trimmed.tailSeq).sackList =
        clearSackList (self.reported trimmed.headSeq trimmed.tailSeq) next := by
  obtain rfl := accepts.next
  have later := Nat.le_trans (Nat.le_max_right _ _) accepts.low
  obtain ⟨perm, covers, stored⟩ := delivering.stored.insert accepts.cleared sublist length
    accepts.some later slice
  have bound := self.acceptedEnd_le stop
  have low := accepts.low
  have high := accepts.high
  have some := accepts.some
  have headInUse : InUse lowest trimmed.headSeq := by
    unfold InUse at *
    omega
  have tailInUse : InUse lowest trimmed.tailSeq := by
    unfold InUse at *
    omega
  have kept : EntriesInUse lowest trimmed.data := fun entry member =>
    live.entries entry (sublist.subset member)
  have entries : EntriesInUse lowest (insertEntry trimmed.headSeq packet trimmed.data) :=
    kept.insertEntry headInUse (by rwa [length])
  -- The counters do not overflow.
  have stores := totalLength_le_of_inUse stored.separated entries
  have total := totalLength_perm perm
  rw [totalLength_cons] at total
  dsimp only at total
  have oldTotal := totalLength_le_of_inUse delivering.stored.separated live.entries
  have size := delivering.size
  have counted := accepts.cleared.counted (by omega) (by omega)
  have available := delivering.available
  have oldReached := delivering.stored.reached
  have oldFew := delivering.stored.inOrder_sub_le live.entries
  have few := stored.inOrder_sub_le entries
  have further := le_frontier (insertEntry trimmed.headSeq packet trimmed.data) self.nextRxSeq
  have held := delivering.held_reported rfl accepts.some covers
  have small : self.availBytes < 2 ^ 32 := by omega
  rw [@store_eq { self with data := trimmed.data, size := trimmed.size } packet trimmed.headSeq
    trimmed.tailSeq stored.nonEmpty small fun block member =>
      Nat.lt_trans (held block member).above (held block member).some]
  refine ⟨delivering_accountFin stored delivering.fin rfl ?_ ?_ ?_,
    frontier (insertEntry trimmed.headSeq packet trimmed.data) self.nextRxSeq,
    le_accountFin_nextRxSeq rfl, further, accountFin_sackList⟩
  · change wrap 32 (trimmed.size + packet.length) =
      totalLength (insertEntry trimmed.headSeq packet trimmed.data)
    rw [wrap_of_lt (by omega)]
    omega
  · change wrap 32 (self.availBytes +
        (frontier (insertEntry trimmed.headSeq packet trimmed.data) self.nextRxSeq -
          self.nextRxSeq)) =
      frontier (insertEntry trimmed.headSeq packet trimmed.data) self.nextRxSeq - extracted
    rw [wrap_of_lt (by omega)]
    omega
  · intro block member
    obtain ⟨before, above⟩ := List.mem_filter.mp member
    exact (held block before).clear stored.gap (by simpa using above)

/-- What `Add` does to the positions that were received and to the blocks. -/
structure AddOutcome (stream : List UInt8) (extracted inOrder start stop : Nat)
    (before after : TcpRxBuffer Nat) (newInOrder : Nat) : Prop where
  delivering : Delivering stream extracted newInOrder after
  blocks :
    (before.leftOf start stop).tailSeq ≤ (before.leftOf start stop).headSeq ∧ after = before ∨
    before.Accepts inOrder start stop (before.leftOf start stop) ∧
      ∃ next ≤ after.nextRxSeq, before.nextRxSeq ≤ next ∧ after.sackList =
        clearSackList (before.reported (before.leftOf start stop).headSeq
          (before.leftOf start stop).tailSeq) next
  received : ∀ position, position < newInOrder ∨ Covers after.data position ↔
    (position < inOrder ∨ Covers before.data position) ∨
      start ≤ position ∧ position < before.acceptedEnd stop

theorem store_data {packet : List UInt8} {head tail : Nat} :
    (self.store packet head tail).data = insertEntry head packet self.data := by
  obtain ⟨nextRxSeq, availBytes, sackList, frame⟩ := advance_eq (insertEntry head packet self.data)
    { self with
      data := insertEntry head packet self.data
      sackList := if gt head self.nextRxSeq then updateSackList self.sackList head tail
        else self.sackList
      size := wrap 32 (self.size + packet.length) }
  unfold store
  dsimp only
  rw [accountFin_data, frame]

theorem Delivering.add (delivering : Delivering stream extracted inOrder self)
    (live : self.Live lowest) {start length : Nat} (within : start + length ≤ stream.length)
    (startInUse : InUse lowest start) (stopInUse : InUse lowest (start + length)) :
    ∃ newInOrder, AddOutcome stream extracted inOrder start (start + length) self
      (self.add ((stream.drop start).take length) start).1 newInOrder := by
  have packetLength : ((stream.drop start).take length).length = length := by
    rw [List.length_take, List.length_drop]
    omega
  rw [add_eq, packetLength]
  dsimp only
  rcases delivering.accepts start within with accepts | ⟨nothing, there⟩
  · have low := accepts.low
    have high := accepts.high
    have some := accepts.some
    have bound := self.acceptedEnd_le (start + length)
    have sublist : (self.leftOf start (start + length)).data.Sublist self.data :=
      removeOverlaps_sublist _ _ _ _
    rw [if_neg (Nat.not_le.mpr some)]
    generalize leftIs : self.leftOf start (start + length) = trimmed at *
    have slice := ((Chunk.sliceOf_take_drop stream start length).drop
      (trimmed.headSeq - start)).take (trimmed.tailSeq - trimmed.headSeq)
    rw [show start + (trimmed.headSeq - start) = trimmed.headSeq by omega] at slice
    generalize made : (((stream.drop start).take length).drop (trimmed.headSeq - start)).take
      (trimmed.tailSeq - trimmed.headSeq) = packet at *
    have pieceLength : trimmed.headSeq + packet.length = trimmed.tailSeq := by
      rw [← made, List.length_take, List.length_drop, packetLength]
      omega
    obtain ⟨result, blocks⟩ := delivering.store live startInUse stopInUse accepts sublist
      pieceLength slice
    obtain ⟨-, covers, -⟩ := delivering.stored.insert accepts.cleared sublist pieceLength some
      (by omega) slice
    refine ⟨_, result, .inr (leftIs.symm ▸ ⟨accepts, blocks⟩), fun position => ?_⟩
    rw [store_data, covers]
    have further := le_frontier (insertEntry trimmed.headSeq packet trimmed.data) inOrder
    constructor
    · rintro (before | inside | covered)
      · by_cases old : position < inOrder
        · exact .inl (.inl old)
        · have covered := covers_of_lt_frontier (Nat.le_of_not_lt old) before
          rcases (covers position).mp covered with inside | covered
          · exact .inr ⟨by omega, by omega⟩
          · exact .inl (.inr covered)
      · exact .inr ⟨by omega, by omega⟩
      · exact .inl (.inr covered)
    · rintro ((before | covered) | ⟨first, last⟩)
      · exact .inl (by omega)
      · exact .inr (.inr covered)
      · by_cases before : position < inOrder
        · exact .inl (by omega)
        · obtain ⟨low, high⟩ := accepts.window position first last (Nat.le_of_not_lt before)
          exact .inr ((accepts.cleared.covered position low high).imp_right fun covered =>
            covered.mono sublist.subset)
  · rw [if_pos nothing]
    obtain ⟨sameData, sameSize⟩ := (delivering.cleared start (start + length)).unchanged nothing
    rw [sameData, sameSize]
    refine ⟨inOrder, delivering, .inl ⟨nothing, rfl⟩, fun position => ⟨.inl, ?_⟩⟩
    rintro (already | ⟨low, high⟩)
    · exact already
    · exact there position low high

/-- `Extract` leaves the blocks and the next sequence number. -/
theorem extract_frame {maxSize : Nat} {bytes : List UInt8} {after : TcpRxBuffer Nat}
    (found : self.extract maxSize = some (bytes, after)) :
    after.nextRxSeq = self.nextRxSeq ∧ after.sackList = self.sackList := by
  obtain ⟨extracted, -, same⟩ := Option.map_eq_some_iff.mp found
  cases same
  exact ⟨rfl, rfl⟩

theorem Delivering.extract (delivering : Delivering stream extracted inOrder self)
    (live : self.Live lowest) (maxSize : Nat) :
    ∃ after, self.extract maxSize =
        some ((stream.drop extracted).take (min maxSize self.availBytes), after) ∧
      (∀ position, inOrder ≤ position → (Covers after.data position ↔ Covers self.data position)) ∧
      Delivering stream (extracted + min maxSize self.availBytes) inOrder after := by
  have available := delivering.available
  have reached := delivering.stored.reached
  have inStream := delivering.stored.within
  have few := delivering.stored.inOrder_sub_le live.entries
  have stores := totalLength_le_of_inUse delivering.stored.separated live.entries
  have size := delivering.size
  obtain ⟨rest, found, covers, total, stored⟩ := delivering.stored.extract
    (min maxSize self.availBytes) (by omega)
  have taken : ((stream.drop extracted).take (min maxSize self.availBytes)).length =
      min maxSize self.availBytes := by
    rw [List.length_take, List.length_drop]
    omega
  unfold TcpRxBuffer.extract
  dsimp only
  rw [found, Option.map_some]
  dsimp only
  rw [taken, wrapSub_of_le (by omega) (by omega), wrapSub_of_le (by omega) (by omega)]
  refine ⟨_, rfl, fun position low => covers position (by omega), stored, delivering.fin,
    delivering.next, ?_, ?_, fun block member => ?_⟩
  · dsimp only
    omega
  · dsimp only
    omega
  · exact (delivering.held block member).mono fun position above covered =>
      (covers position (by omega)).mpr covered

theorem Delivering.setFinSequence (delivering : Delivering stream extracted inOrder self) :
    Delivering stream extracted inOrder (self.setFinSequence stream.length) := by
  refine { delivering with fin := fun _ => rfl, next := ?_ }
  have next := delivering.next
  simp only [TcpRxBuffer.setFinSequence, nat_add, true_and]
  split at next <;> split <;> split <;> omega

/-- The positions of the ranges. -/
def Received (ranges : List (Nat × Nat)) (position : Nat) : Prop :=
  ∃ range ∈ ranges, range.1 ≤ position ∧ position < range.2

/-- A receiver of a stream. The buffer over positions, the bytes that were extracted, the
ranges that the window accepted and the range that was stored out of order last are
only there to say what the buffer does. -/
structure Reception where
  buffer : TcpRxBuffer SequenceNumber32
  positions : TcpRxBuffer Nat
  extracted : List UInt8
  received : List (Nat × Nat)
  latest : Option (Nat × Nat)

/-- The calls of a receiver: a segment of the stream arrives, the application reads, or
the FIN arrives, which comes after the stream. -/
inductive Call
  | add (start length : Nat)
  | extract (maxSize : Nat)
  | setFinSequence

namespace Reception

/-- A new receiver. -/
def create (initial maxBuffer : Nat) : Reception where
  buffer := TcpRxBuffer.create (SequenceNumber32.ofPosition initial 0) maxBuffer
  positions := TcpRxBuffer.create 0 maxBuffer
  extracted := []
  received := []
  latest := none

/-- What a call does. -/
def step (stream : List UInt8) (initial : Nat) (self : Reception) : Call → Reception
  | .add start length =>
      let packet := (stream.drop start).take length
      let left := self.positions.leftOf start (start + length)
      { self with
        buffer := (self.buffer.add packet (SequenceNumber32.ofPosition initial start)).1
        positions := (self.positions.add packet start).1
        received := (start, self.positions.acceptedEnd (start + length)) :: self.received
        latest :=
          if self.positions.nextRxSeq < left.headSeq ∧ left.headSeq < left.tailSeq then
            some (left.headSeq, left.tailSeq)
          else self.latest }
  | .extract maxSize =>
      match self.buffer.extract maxSize, self.positions.extract maxSize with
      | some (bytes, buffer), some (_, positions) =>
          { self with
            buffer := buffer
            positions := positions
            extracted := self.extracted ++ bytes }
      | _, _ => self
  | .setFinSequence =>
      { self with
        buffer := self.buffer.setFinSequence (SequenceNumber32.ofPosition initial stream.length)
        positions := self.positions.setFinSequence stream.length }

/-- The segments are those of the stream, and the sequence numbers in use are within
half of the sequence number space. -/
def Enabled (stream : List UInt8) (self : Reception) : Call → Prop
  | .add start length =>
      start + length ≤ stream.length ∧
        ∃ lowest, self.positions.Live lowest ∧ InUse lowest start ∧ InUse lowest (start + length)
  | .extract _ => ∃ lowest, self.positions.Live lowest
  | .setFinSequence => ∃ lowest, self.positions.Live lowest ∧ InUse lowest stream.length

/-- A receiver of the stream whose first byte has the initial sequence number. -/
def machine (stream : List UInt8) (initial : Nat) : Machine Reception Call where
  step := step stream initial
  Enabled := Enabled stream

/-- The buffer over positions delivers the stream, and the buffer does what it does. -/
structure Invariant (stream : List UInt8) (initial inOrder : Nat) (reception : Reception) :
    Prop where
  delivering : Delivering stream reception.extracted.length inOrder reception.positions
  delivered : reception.extracted = stream.take reception.extracted.length
  numbered : reception.buffer =
    reception.positions.numbered (SequenceNumber32.ofPosition initial)
  received : ∀ position, Received reception.received position ↔
    position < inOrder ∨ Covers reception.positions.data position

/-- The buffer reassembles the stream: with every byte before `inOrder` received and that one
not received. -/
structure Reassembles (stream : List UInt8) (initial inOrder : Nat) (reception : Reception) :
    Prop where
  delivered : reception.extracted = stream.take reception.extracted.length
  numbered : reception.buffer =
    reception.positions.numbered (SequenceNumber32.ofPosition initial)
  nonEmpty : NonEmpty reception.positions.data
  disjoint : Separated reception.positions.data
  slices : ∀ entry ∈ reception.positions.data, Chunk.SliceOf stream entry
  size : reception.buffer.size =
    (reception.buffer.data.map fun entry => entry.2.length).sum
  available : reception.extracted.length + reception.buffer.availBytes = inOrder
  contiguous : ∀ position, reception.extracted.length ≤ position → position < inOrder →
    Covers reception.positions.data position
  next : reception.buffer.nextRxSeq = SequenceNumber32.ofPosition initial
    (if reception.buffer.gotFin ∧ inOrder = stream.length then inOrder + 1 else inOrder)
  first : (∀ position < inOrder, Received reception.received position) ∧
    ¬ Received reception.received inOrder

variable {initial : Nat} {reception : Reception}

theorem invariant_create (stream : List UInt8) (initial maxBuffer : Nat) :
    Invariant stream initial 0 (create initial maxBuffer) where
  delivering := delivering_create stream maxBuffer
  delivered := rfl
  numbered := rfl
  received position := by simp [create, TcpRxBuffer.create, Received, not_covers_nil]

theorem Invariant.add (invariant : Invariant stream initial inOrder reception)
    {start length : Nat} (enabled : Enabled stream reception (.add start length)) :
    ∃ newInOrder,
      AddOutcome stream reception.extracted.length inOrder start (start + length)
        reception.positions (step stream initial reception (.add start length)).positions
        newInOrder ∧
      Invariant stream initial newInOrder (step stream initial reception (.add start length)) := by
  obtain ⟨within, lowest, live, startInUse, stopInUse⟩ := enabled
  have delivering := invariant.delivering
  obtain ⟨newInOrder, outcome⟩ := delivering.add live within startInUse stopInUse
  have packetLength : ((stream.drop start).take length).length = length := by
    rw [List.length_take, List.length_drop]
    omega
  have same := add_numbered (SequenceNumber32.faithful_ofPosition initial lowest) live
    (delivering.blocksInUse live.entries) startInUse (packetLength.symm ▸ stopInUse)
    fun some => by
      rw [packetLength] at some ⊢
      exact delivering.inside within some
  refine ⟨newInOrder, outcome, outcome.delivering, invariant.delivered, ?_, fun position => ?_⟩
  · rw [step, invariant.numbered, same]
  · change Received (_ :: reception.received) position ↔ position < newInOrder ∨
      Covers (reception.positions.add _ _).1.data position
    rw [outcome.received, ← invariant.received]
    simp only [Received, List.exists_mem_cons_iff]
    exact or_comm

theorem Invariant.extract (invariant : Invariant stream initial inOrder reception)
    {maxSize : Nat} (enabled : Enabled stream reception (.extract maxSize)) :
    Invariant stream initial inOrder (step stream initial reception (.extract maxSize)) := by
  obtain ⟨lowest, live⟩ := enabled
  have inStream := invariant.delivering.stored.within
  obtain ⟨after, found, covers, delivering⟩ := invariant.delivering.extract live maxSize
  have same := extract_numbered (SequenceNumber32.faithful_ofPosition initial lowest) live maxSize
  rw [found, Option.map_some, ← invariant.numbered] at same
  have taken : ((stream.drop reception.extracted.length).take
      (min maxSize reception.positions.availBytes)).length =
      min maxSize reception.positions.availBytes := by
    have := delivering.stored.reached
    rw [List.length_take, List.length_drop]
    omega
  rw [step, same, found]
  refine ⟨?_, ?_, rfl, fun position => ?_⟩
  · rw [List.length_append, taken]
    exact delivering
  · rw [List.length_append, taken, List.take_add, ← invariant.delivered]
  · rw [invariant.received]
    by_cases before : position < inOrder
    · exact ⟨fun _ => .inl before, fun _ => .inl before⟩
    · exact or_congr Iff.rfl (covers position (Nat.le_of_not_lt before)).symm

theorem Invariant.setFinSequence (invariant : Invariant stream initial inOrder reception)
    (enabled : Enabled stream reception .setFinSequence) :
    Invariant stream initial inOrder (step stream initial reception .setFinSequence) := by
  obtain ⟨lowest, live, inUse⟩ := enabled
  refine ⟨invariant.delivering.setFinSequence, invariant.delivered, ?_, invariant.received⟩
  rw [step, invariant.numbered]
  exact setFinSequence_numbered (SequenceNumber32.faithful_ofPosition initial lowest) live.next
    inUse

theorem Invariant.step (invariant : Invariant stream initial inOrder reception) {call : Call}
    (enabled : Enabled stream reception call) :
    ∃ newInOrder, Invariant stream initial newInOrder (step stream initial reception call) := by
  cases call with
  | add start length =>
      obtain ⟨newInOrder, -, added⟩ := invariant.add enabled
      exact ⟨newInOrder, added⟩
  | extract maxSize => exact ⟨inOrder, invariant.extract enabled⟩
  | setFinSequence => exact ⟨inOrder, invariant.setFinSequence enabled⟩

theorem Invariant.reassembles (invariant : Invariant stream initial inOrder reception) :
    Reassembles stream initial inOrder reception where
  delivered := invariant.delivered
  numbered := invariant.numbered
  nonEmpty := invariant.delivering.stored.nonEmpty
  disjoint := invariant.delivering.stored.separated
  slices := invariant.delivering.stored.slices
  size := by
    rw [invariant.numbered, TcpRxBuffer.numbered, numberEntries, List.map_map]
    exact invariant.delivering.size
  available := by
    have reached := invariant.delivering.stored.reached
    have available := invariant.delivering.available
    rw [invariant.numbered, TcpRxBuffer.numbered, available]
    omega
  contiguous := invariant.delivering.stored.contiguous
  next := by
    rw [invariant.numbered, TcpRxBuffer.numbered, invariant.delivering.next]
  first := by
    refine ⟨fun position before => (invariant.received position).mpr (.inl before), ?_⟩
    rw [invariant.received, not_or]
    exact ⟨Nat.lt_irrefl inOrder, invariant.delivering.stored.gap⟩

/-- `Extract` finds the bytes that are available. -/
def Returns (reception : Reception) : Call → Prop
  | .extract maxSize => (reception.buffer.extract maxSize).isSome
  | _ => True

theorem Invariant.returns (invariant : Invariant stream initial inOrder reception) {call : Call}
    (enabled : Enabled stream reception call) : Returns reception call := by
  cases call with
  | add start length => trivial
  | setFinSequence => trivial
  | extract maxSize =>
      obtain ⟨lowest, live⟩ := enabled
      obtain ⟨after, found, -⟩ := invariant.delivering.extract live maxSize
      have same := extract_numbered (SequenceNumber32.faithful_ofPosition initial lowest) live
        maxSize
      rw [Returns, invariant.numbered, same, found]
      rfl

/-- In every run the buffer reassembles the stream, whatever the order, the duplication
and the overlap of the segments. -/
theorem reassembles_always (stream : List UInt8) (initial maxBuffer : Nat) (calls : List Call)
    (legal : (machine stream initial).Legal (create initial maxBuffer) calls) :
    (machine stream initial).Always
        (fun reception => ∃ inOrder, Reassembles stream initial inOrder reception)
        (create initial maxBuffer) calls ∧
      (machine stream initial).Along Returns (create initial maxBuffer) calls := by
  have always : (machine stream initial).Always
      (fun reception => ∃ inOrder, Invariant stream initial inOrder reception)
      (create initial maxBuffer) calls :=
    Machine.Legal.always (fun _ _ ⟨_, invariant⟩ enabled => invariant.step enabled)
      ⟨0, invariant_create stream initial maxBuffer⟩ legal
  exact ⟨always.mono fun _ ⟨inOrder, invariant⟩ => ⟨inOrder, invariant.reassembles⟩,
    always.along (fun _ _ ⟨_, invariant⟩ enabled => invariant.returns enabled) legal⟩

/-- Two segments that overlap arrive in the wrong order, across the end of the sequence
number space. -/
theorem reassembles_always_overlapping :
    (machine [1, 2, 3, 4] 4294967294).Always
        (fun reception => ∃ inOrder, Reassembles [1, 2, 3, 4] 4294967294 inOrder reception)
        (create 4294967294 8) [.add 2 2, .add 0 3, .extract 3, .setFinSequence, .extract 5] ∧
      (machine [1, 2, 3, 4] 4294967294).Along Returns
        (create 4294967294 8) [.add 2 2, .add 0 3, .extract 3, .setFinSequence, .extract 5] :=
  reassembles_always [1, 2, 3, 4] 4294967294 8 _
    ⟨⟨by decide, 0, by decide⟩, ⟨by decide, 0, by decide⟩, ⟨0, by decide⟩, ⟨0, by decide⟩,
      ⟨0, by decide⟩, trivial⟩

end Reception

end TcpRxBuffer

end Ns3.Internet
