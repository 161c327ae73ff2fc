import Ns3.Network.Buffer.Sharing

/-!
What each method of `Buffer` does to its operand and to the other buffers.

`AddAtStart` and `AddAtEnd` open a gap at one end of the operand that no other
buffer reads, in the same block or in a new one; writing the gap completes them.
-/

namespace Ns3.Network

open Library Buffer

variable {heap : BufferHeap} {others : Multiset Buffer} {self : Buffer}

/-- The copy constructor. -/
theorem Valid.copy (valid : Valid heap others) (held : self ∈ others) :
    Changes heap others (self.content heap) (copy heap self) where
  valid := by
    refine valid.of_within ?_ rfl ?_
    · rw [Multiset.map_cons]
      exact valid.counted.retain (Multiset.mem_map_of_mem _ held)
    · intro buffer bufferHeld
      rcases Multiset.mem_cons.mp bufferHeld with rfl | before
      · have shaped := valid.shaped self held
        exact ⟨self, held, rfl, ⟨shaped.front, shaped.zeroes, shaped.back, shaped.fits⟩,
          le_rfl, le_rfl, le_rfl⟩
      · exact ⟨buffer, before, (valid.shaped buffer before).within⟩
  content := rfl
  frame _ _ := rfl

/-- The destructor. -/
theorem Valid.destroy (valid : Valid heap (self ::ₘ others)) :
    Valid (destroy heap self) others ∧
      ∀ other : Buffer, other.content (destroy heap self) = other.content heap := by
  constructor
  · refine valid.of_block (BufferHeap.release_counted ?_) (BufferHeap.release_block _ _)
      fun _ => Multiset.mem_cons_of_mem
    rw [← Multiset.map_cons]
    exact valid.counted
  · exact fun other => content_release _ other _

/-- Assignment from another buffer. -/
theorem Valid.assign (valid : Valid heap (self ::ₘ others)) {o : Buffer} (held : o ∈ others) :
    Changes heap others (o.content heap) (assign heap self o) := by
  have known : ∀ buffer ∈ o ::ₘ others, buffer ∈ self ::ₘ others := by
    intro buffer bufferHeld
    rcases Multiset.mem_cons.mp bufferHeld with rfl | before
    · exact Multiset.mem_cons_of_mem held
    · exact Multiset.mem_cons_of_mem before
  have heldData := Multiset.mem_map_of_mem Buffer.data held
  unfold Buffer.assign
  split
  next =>
    have counted : (self.data ::ₘ others.map Buffer.data) = (self ::ₘ others).map Buffer.data :=
      (Multiset.map_cons _ _ _).symm
    refine ⟨valid.of_block ?_ (BufferHeap.release_block _ _) known, ?_, ?_⟩
    · rw [Multiset.map_cons]
      exact (BufferHeap.release_counted (counted ▸ valid.counted)).retain heldData
    · exact content_release _ o _
    · exact fun other _ => content_release _ other _
  next same =>
    refine ⟨valid.of_block ?_ rfl known, rfl, fun _ _ => rfl⟩
    rw [Multiset.map_cons, ← not_not.mp same, ← Multiset.map_cons]
    exact valid.counted

/-- Assignment of a buffer to itself. -/
theorem Valid.assign_self (valid : Valid heap (self ::ₘ others)) :
    Changes heap others (self.content heap) (Buffer.assign heap self self) := by
  rw [Buffer.assign, if_neg (not_not.mpr rfl)]
  exact ⟨valid.of_block valid.counted rfl fun _ held => held, rfl, fun _ _ => rfl⟩

theorem Valid.removeAtStart (valid : Valid heap (self ::ₘ others)) {count : Nat}
    (within : count ≤ self.getSize) :
    Changes heap others ((self.content heap).drop count) (heap, self.removeAtStart count) :=
  valid.shorten ((valid.shaped self (Multiset.mem_cons_self _ _)).removeAtStart within heap)

theorem Valid.removeAtEnd (valid : Valid heap (self ::ₘ others)) {count : Nat}
    (within : count ≤ self.getSize) :
    Changes heap others ((self.content heap).take (self.getSize - count))
      (heap, self.removeAtEnd count) :=
  valid.shorten ((valid.shaped self (Multiset.mem_cons_self _ _)).removeAtEnd within heap)

/-- `CreateFragment`. -/
theorem Valid.createFragment (valid : Valid heap others) (held : self ∈ others)
    {start length : Nat} (within : start + length ≤ self.getSize) :
    Changes heap others (((self.content heap).drop start).take length)
      (createFragment heap self start length) := by
  have shaped := valid.shaped self held
  have copied := valid.copy held
  have sizeFits : self.getSize < 2 ^ 32 := lt_of_le_of_lt (Nat.sub_le _ _) shaped.fits
  have dropped := copied.valid.removeAtStart (show start ≤ (Buffer.copy heap self).2.getSize from
    (Nat.le_add_right _ _).trans within)
  have leftSize := dropped.getSize
  rw [copied.content, List.length_drop, shaped.length_content] at leftSize
  have restEq : wrapSub 32 self.getSize (wrap 32 (start + length)) =
      self.getSize - (start + length) := by
    rw [wrap_of_lt (by omega), wrapSub_of_le within sizeFits]
  have taken := dropped.valid.removeAtEnd
    (show self.getSize - (start + length) ≤ _ by rw [leftSize]; omega)
  rw [dropped.content, copied.content, leftSize] at taken
  have lengthEq : self.getSize - start - (self.getSize - (start + length)) = length := by omega
  rw [lengthEq] at taken
  unfold Buffer.createFragment
  rw [restEq]
  exact copied.trans (dropped.trans taken)

/-- A gap of `front` bytes before the data of the buffer and of `back` bytes after
it, which no other buffer reads. -/
structure Opens (heap : BufferHeap) (others : Multiset Buffer) (buffer : Buffer)
    (front back : Nat) (result : BufferHeap × Buffer) : Prop where
  valid : Valid result.1 (result.2 ::ₘ others)
  frontWithin : result.2.start + front ≤ result.2.zeroAreaStart
  backWithin : result.2.zeroAreaEnd + back ≤ result.2.stop
  zeroSize : result.2.zeroSize = buffer.zeroSize
  stop : result.2.stop ≤ buffer.stop + front + back
  kept : ({ result.2 with
    start := result.2.start + front
    stop := result.2.stop - back } : Buffer).content result.1 = buffer.content heap
  frame : ∀ other ∈ others, other.content result.1 = other.content heap
  frontClear : 0 < front → ∀ other ∈ others, other.data = result.2.data →
    result.2.start + front ≤ other.start
  backClear : 0 < back → ∀ other ∈ others, other.data = result.2.data →
    other.getInternalEnd + back ≤ result.2.getInternalEnd
  block : result.2.data = buffer.data ∨ ∀ other ∈ others, other.data ≠ result.2.data

theorem Opens.noteZeroArea {front back : Nat} {result : BufferHeap × Buffer}
    (opens : Opens heap others self front back result) :
    Opens heap others self front back (result.1, result.2.noteZeroArea) := by
  refine { opens with valid := opens.valid.of_within (opens.valid.counted_of_data rfl) rfl ?_ }
  intro buffer held
  rcases Multiset.mem_cons.mp held with rfl | before
  · have shaped := opens.valid.shaped result.2 (Multiset.mem_cons_self _ _)
    exact ⟨result.2, Multiset.mem_cons_self _ _, rfl, shaped.noteZeroArea, le_rfl, le_rfl, le_rfl⟩
  · have keeps : buffer ∈ result.2 ::ₘ others := Multiset.mem_cons_of_mem before
    exact ⟨buffer, keeps, (opens.valid.shaped buffer keeps).within⟩

theorem Valid.startInPlace (valid : Valid heap (self ::ₘ others)) {count : Nat}
    (inPlace : StartsInPlace heap self count) :
    Opens heap others self count 0
      (heap.setDirty self.data (self.start - count) (heap.block self.data).dirtyEnd,
        { self with start := self.start - count }) := by
  have held : self ∈ self ::ₘ others := Multiset.mem_cons_self _ _
  have keeps : ∀ other ∈ others, other ∈ self ::ₘ others := fun _ => Multiset.mem_cons_of_mem
  obtain ⟨front, zeroes, back, fits⟩ := valid.shaped self held
  obtain ⟨enough, notDirty⟩ := inPlace
  have clear : ∀ other ∈ others, other.data = self.data → self.start ≤ other.start := by
    intro other otherHeld same
    have shared : 1 < heap.count self.data := by
      by_contra few
      exact valid.alone few otherHeld same
    have otherFront := valid.front other (keeps other otherHeld)
    rw [same] at otherFront
    omega
  constructor
  case valid =>
    refine valid.redirty rfl ⟨?_, zeroes, back, fits⟩ (valid.room self held) le_rfl
      (valid.back self held self held rfl) ?_ ?_
    · exact (Nat.sub_le _ _).trans front
    · exact fun other otherHeld same =>
        (Nat.sub_le _ _).trans (clear other otherHeld same)
    · intro other otherHeld same
      have otherKept := keeps other otherHeld
      refine ⟨valid.back self held other otherKept same.symm, ?_, ?_⟩
      · exact same ▸ valid.back other otherKept self held same
      · exact fun next nextHeld nextSame => same ▸
          valid.back other otherKept next (keeps next nextHeld) (same.trans nextSame.symm)
  case frontWithin =>
    change self.start - count + count ≤ self.zeroAreaStart
    omega
  case backWithin => exact back
  case zeroSize => rfl
  case stop => exact Nat.le_add_right _ _
  case kept =>
    rw [content_setDirty]
    change ({ self with start := self.start - count + count } : Buffer).content heap = _
    rw [Nat.sub_add_cancel enough]
  case frame => exact fun other _ => content_setDirty heap other _ _ _
  case frontClear =>
    intro _ other otherHeld same
    change self.start - count + count ≤ other.start
    rw [Nat.sub_add_cancel enough]
    exact clear other otherHeld same
  case backClear => exact fun some => absurd some (Nat.lt_irrefl 0)
  case block => exact .inl rfl

theorem Valid.endInPlace (valid : Valid heap (self ::ₘ others)) {count : Nat}
    (inPlace : EndsInPlace heap self count) (fits : self.stop + count < 2 ^ 32) :
    Opens heap others self 0 count
      (heap.setDirty self.data (heap.block self.data).dirtyStart (wrap 32 (self.stop + count)),
        { self with stop := wrap 32 (self.stop + count) }) := by
  have held : self ∈ self ::ₘ others := Multiset.mem_cons_self _ _
  have keeps : ∀ other ∈ others, other ∈ self ::ₘ others := fun _ => Multiset.mem_cons_of_mem
  have shaped := valid.shaped self held
  have endSum := shaped.internalEnd_add
  obtain ⟨front, zeroes, back, _⟩ := shaped
  obtain ⟨enough, notDirty⟩ := inPlace
  rw [wrap_of_lt (by omega)] at enough
  rw [wrap_of_lt fits]
  have clear : ∀ other ∈ others, other.data = self.data →
      (heap.block self.data).dirtyEnd = self.stop := by
    intro other otherHeld same
    have shared : 1 < heap.count self.data := by
      by_contra few
      exact valid.alone few otherHeld same
    have selfBack := valid.back self held self held rfl
    omega
  have grown : ({ self with stop := self.stop + count } : Buffer).Shaped :=
    ⟨front, zeroes, back.trans (Nat.le_add_right _ _), fits⟩
  have grownEnd : ({ self with stop := self.stop + count } : Buffer).getInternalEnd =
      self.getInternalEnd + count := by
    have grownSum := grown.internalEnd_add
    change _ + self.zeroSize = self.stop + count at grownSum
    omega
  have grownZero : ({ self with stop := self.stop + count } : Buffer).zeroSize = self.zeroSize := rfl
  constructor
  case valid =>
    refine valid.redirty rfl grown ?_ (valid.front self held) ?_ ?_ ?_
    · exact grownEnd ▸ enough
    · rw [grownEnd, grownZero]
      omega
    · exact fun other otherHeld same => same ▸ valid.front other (keeps other otherHeld)
    · intro other otherHeld same
      have dirtyEq := clear other otherHeld same
      have otherKept := keeps other otherHeld
      have selfOther := valid.back self held other otherKept same.symm
      have otherSelf := valid.back other otherKept self held same
      rw [same] at otherSelf
      rw [grownEnd, grownZero]
      refine ⟨by omega, by omega, fun next nextHeld nextSame => ?_⟩
      have otherNext := valid.back other otherKept next (keeps next nextHeld)
        (same.trans nextSame.symm)
      rw [same] at otherNext
      omega
  case frontWithin => exact front
  case backWithin => exact Nat.add_le_add_right back count
  case zeroSize => rfl
  case stop => exact le_rfl
  case kept =>
    rw [content_setDirty]
    change ({ self with stop := self.stop + count - count } : Buffer).content heap = _
    rw [Nat.add_sub_cancel]
  case frame => exact fun other _ => content_setDirty heap other _ _ _
  case frontClear => exact fun some => absurd some (Nat.lt_irrefl 0)
  case backClear =>
    intro _ other otherHeld same
    have dirtyEq := clear other otherHeld same
    have selfOther := valid.back self held other (keeps other otherHeld) same.symm
    rw [grownEnd]
    omega
  case block => exact .inl rfl

/-- What `Create` hands out. -/
structure NewBlock (heap : BufferHeap) (holders : Multiset Buffer) (size : Nat)
    (created : Nat × BufferHeap) : Prop where
  counted : created.2.shared.Counted (created.1 ::ₘ holders.map Buffer.data)
  unheld : ∀ buffer ∈ holders, buffer.data ≠ created.1
  others : ∀ buffer ∈ holders, created.2.block buffer.data = heap.block buffer.data
  size : size ≤ (created.2.block created.1).size
  allocated : ∀ address, (created.2.block address).size ≤ (created.2.block address).capacity

theorem allocated_size (garbage : Memory UInt8) {size : Nat} (fits : size + 19 < 2 ^ 32) :
    size ≤ (BufferHeap.allocated garbage size).size ∧
      (BufferHeap.allocated garbage size).size ≤ (BufferHeap.allocated garbage size).capacity := by
  unfold BufferHeap.allocated
  dsimp only
  split
  next none => exact ⟨by omega, by decide⟩
  next =>
    rw [wrap_of_lt (by omega)]
    exact ⟨le_rfl, by omega⟩

theorem Valid.create (valid : Valid heap others) (garbage : Nat → Memory UInt8) {size : Nat}
    (fits : size + 19 < 2 ^ 32) : NewBlock heap others size (heap.create garbage size) := by
  have created := valid.counted.create (fun block => decide (size ≤ block.size))
    (fun address => BufferHeap.allocated (garbage address) size) (List.Sublist.refl _)
  refine ⟨created.counted, ?_, ?_, ?_, ?_⟩
  · exact fun buffer held same =>
      created.unheld (Multiset.mem_map.mpr ⟨buffer, held, same⟩)
  · exact fun buffer held => created.others _ (Multiset.mem_map_of_mem _ held)
  · rcases created.usable with enough | ⟨id, fresh⟩
    · exact of_decide_eq_true enough
    · exact le_of_le_of_eq (allocated_size (garbage id) fits).1
        (congrArg BufferData.size fresh).symm
  · intro address
    change (SharedHeap.block (heap.shared.create _ _ _).2 address).size ≤
      (SharedHeap.block (heap.shared.create _ _ _).2 address).capacity
    rcases created.origin address with before | ⟨id, fresh⟩
    · rw [before]
      exact valid.allocated address
    · rw [fresh]
      exact (allocated_size (garbage id) fits).2

/-- A buffer gets a block of its own. -/
theorem Valid.adopt {holders : Multiset Buffer} (valid : Valid heap holders)
    (known : ∀ other ∈ others, other ∈ holders) {after : BufferHeap} {moved : Buffer}
    (counted : after.shared.Counted (moved.data ::ₘ others.map Buffer.data))
    (unshared : ∀ other ∈ others, other.data ≠ moved.data)
    (blocks : ∀ other ∈ others, after.block other.data = heap.block other.data)
    (shaped : moved.Shaped) (room : moved.getInternalEnd ≤ (after.block moved.data).size)
    (allocated : ∀ address, (after.block address).size ≤ (after.block address).capacity)
    {dirtyStart : Nat} (first : dirtyStart ≤ moved.start) :
    Valid (after.setDirty moved.data dirtyStart moved.stop) (moved ::ₘ others) := by
  have kept : ∀ other ∈ others, (after.setDirty moved.data dirtyStart moved.stop).block other.data =
      heap.block other.data := by
    intro other held
    rw [after.setDirty_block_of_ne _ _ (unshared other held)]
    exact blocks other held
  obtain ⟨dirtyStartEq, dirtyEndEq⟩ := after.setDirty_dirty_self moved.data dirtyStart moved.stop
  refine ⟨?_, ?_, ?_, ?_, ?_, ?_⟩
  · rw [Multiset.map_cons]
    exact counted.set _ _
  · intro buffer held
    rcases Multiset.mem_cons.mp held with rfl | before
    · exact shaped
    · exact valid.shaped buffer (known buffer before)
  · intro buffer held
    rcases Multiset.mem_cons.mp held with rfl | before
    · rw [dirtyStartEq]
      exact first
    · rw [kept buffer before]
      exact valid.front buffer (known buffer before)
  · intro buffer held
    rcases Multiset.mem_cons.mp held with rfl | before
    · rw [BufferHeap.setDirty_size]
      exact room
    · rw [kept buffer before]
      exact valid.room buffer (known buffer before)
  · intro buffer held other otherHeld same
    rcases Multiset.mem_cons.mp held with rfl | before
    · rcases Multiset.mem_cons.mp otherHeld with rfl | otherBefore
      · rw [dirtyEndEq, Nat.add_comm, shaped.internalEnd_add]
      · exact absurd same.symm (unshared other otherBefore)
    · rcases Multiset.mem_cons.mp otherHeld with rfl | otherBefore
      · exact absurd same (unshared buffer before)
      · rw [kept buffer before]
        exact valid.back buffer (known buffer before) other (known other otherBefore) same
  · intro address
    rw [BufferHeap.setDirty_size, BufferHeap.setDirty_capacity]
    exact allocated address

namespace Buffer

/-- Where `moveTo` puts a buffer in its new block. -/
def movedTo (self : Buffer) (data front back : Nat) : Buffer where
  data := data
  maxZeroAreaStart := self.maxZeroAreaStart
  zeroAreaStart := self.zeroAreaStart - self.start + front
  zeroAreaEnd := self.zeroAreaStart - self.start + self.zeroSize + front
  start := 0
  stop := self.zeroAreaStart - self.start + self.zeroSize + (self.stop - self.zeroAreaEnd) +
    front + back

theorem movedTo_data (data front back : Nat) : (self.movedTo data front back).data = data := rfl

theorem movedTo_start (data front back : Nat) : (self.movedTo data front back).start = 0 := rfl

theorem movedTo_zeroSize (data front back : Nat) :
    (self.movedTo data front back).zeroSize = self.zeroSize := by
  unfold movedTo
  rw [zeroSize, Nat.add_right_comm, Nat.add_sub_cancel_left]

theorem Shaped.movedTo_fits (shaped : self.Shaped) {front back : Nat}
    (fits : self.getSize + front + back < 2 ^ 32) (data : Nat) :
    (self.movedTo data front back).stop < 2 ^ 32 := by
  unfold movedTo
  rw [← shaped.getSize_eq]
  exact fits

theorem Shaped.movedTo (shaped : self.Shaped) {front back : Nat}
    (fits : self.getSize + front + back < 2 ^ 32) (data : Nat) :
    (self.movedTo data front back).Shaped := by
  refine ⟨Nat.zero_le _, ?_, ?_, shaped.movedTo_fits fits data⟩
  · exact Nat.add_le_add_right (Nat.le_add_right _ _) _
  · refine le_trans ?_ (Nat.le_add_right _ back)
    exact Nat.add_le_add_right (Nat.le_add_right _ _) _

theorem movedTo_internalEnd (data front back : Nat) :
    (self.movedTo data front back).getInternalEnd = self.getInternalSize + (front + back) := by
  rw [getInternalEnd, movedTo_zeroSize, getInternalSize]
  unfold Buffer.movedTo
  dsimp only
  rw [Nat.add_assoc _ front, Nat.add_assoc (_ - _) self.zeroSize, Nat.add_left_comm _ self.zeroSize,
    Nat.add_assoc self.zeroSize, Nat.add_sub_cancel_left]

theorem wrapSub_shift {start offset size front : Nat} (above : start ≤ offset)
    (startFits : start < 2 ^ 32) (below : offset - start ≤ size) (fits : size + front < 2 ^ 32) :
    wrapSub 32 (offset + front) start = offset - start + front := by
  have moved : offset + front - start = offset - start + front := Nat.sub_add_comm above
  have small : offset - start + front < 2 ^ 32 :=
    lt_of_le_of_lt (Nat.add_le_add_right below front) fits
  rw [wrapSub_of_fits (le_trans above (Nat.le_add_right _ _)) startFits (moved.trans_lt small),
    moved]

theorem Shaped.moveTo_eq (shaped : self.Shaped) (garbage : Nat → Memory UInt8) {front back : Nat}
    (fits : self.getSize + front + back < 2 ^ 32)
    (allocates : self.getInternalSize + front + back + 19 < 2 ^ 32) :
    Buffer.moveTo garbage heap self front back =
      let created := heap.create garbage (self.getInternalSize + (front + back))
      let moved := self.movedTo created.1 front back
      (((created.2.store created.1 front ((created.2.block self.data).data.read self.start
        self.getInternalSize)).release self.data).setDirty created.1 0 moved.stop, moved) := by
  have startFits : self.start < 2 ^ 32 :=
    lt_of_le_of_lt (shaped.front.trans (shaped.zeroes.trans shaped.back)) shaped.fits
  have sizeFits : self.getSize + front < 2 ^ 32 := lt_of_le_of_lt (Nat.le_add_right _ back) fits
  have zeroesFrom : self.start ≤ self.zeroAreaEnd := shaped.front.trans shaped.zeroes
  have shiftFront := wrapSub_shift shaped.front startFits
    (Nat.sub_le_sub_right (shaped.zeroes.trans shaped.back) self.start) sizeFits
  have shiftZeroes := wrapSub_shift zeroesFrom startFits
    (Nat.sub_le_sub_right shaped.back self.start) sizeFits
  have shiftStop := wrapSub_shift (zeroesFrom.trans shaped.back) startFits le_rfl sizeFits
  have toZeroesEnd : self.zeroAreaEnd - self.start =
      self.zeroAreaStart - self.start + self.zeroSize := by
    rw [zeroSize, Nat.add_comm, Nat.sub_add_sub_cancel shaped.zeroes shaped.front]
  have wide : self.getInternalSize + (front + back) < 2 ^ 32 := by
    rw [← Nat.add_assoc]
    exact lt_of_le_of_lt (Nat.le_add_right _ 19) allocates
  have stopEq := wrap_of_lt fits
  rw [shaped.getSize_eq] at stopEq
  unfold Buffer.moveTo Buffer.movedTo
  dsimp only
  rw [wrap_of_lt wide, shiftFront, shiftZeroes, shiftStop, toZeroesEnd, ← getSize,
    shaped.getSize_eq, stopEq]

/-- The bytes around the zero area, where `moveTo` copied them. -/
theorem Shaped.movedTo_reads (shaped : self.Shaped) (source target : Memory UInt8) (front : Nat) :
    (target.write front (source.read self.start self.getInternalSize)).read front
        (self.zeroAreaStart - self.start) =
      source.read self.start (self.zeroAreaStart - self.start) ∧
    (target.write front (source.read self.start self.getInternalSize)).read
        (self.zeroAreaStart - self.start + front) (self.stop - self.zeroAreaEnd) =
      source.read self.zeroAreaStart (self.stop - self.zeroAreaEnd) := by
  constructor
  · have within : 0 + (self.zeroAreaStart - self.start) ≤ self.getInternalSize := by
      rw [Nat.zero_add]
      exact Nat.le_add_right _ _
    exact target.read_copy source within
  · rw [Nat.add_comm _ front]
    nth_rewrite 2 [← Nat.add_sub_of_le shaped.front]
    exact target.read_copy source le_rfl

end Buffer

/-- The branch of `AddAtStart` and `AddAtEnd` that moves to a new block. -/
theorem Valid.moveTo (valid : Valid heap (self ::ₘ others)) (garbage : Nat → Memory UInt8)
    {front back : Nat} (fits : self.getSize + front + back < 2 ^ 32)
    (allocates : self.getInternalSize + front + back + 19 < 2 ^ 32) :
    Opens heap others self front back (Buffer.moveTo garbage heap self front back) := by
  have held : self ∈ self ::ₘ others := Multiset.mem_cons_self _ _
  have shaped := valid.shaped self held
  have new := valid.create garbage
    (show self.getInternalSize + (front + back) + 19 < 2 ^ 32 by omega)
  rw [shaped.moveTo_eq garbage fits allocates]
  generalize heap.create garbage (self.getInternalSize + (front + back)) = created at new ⊢
  dsimp only
  have movedShaped := shaped.movedTo fits created.1
  have keeps : ∀ other ∈ others, other ∈ self ::ₘ others := fun _ => Multiset.mem_cons_of_mem
  have unshared : ∀ other ∈ others, other.data ≠ created.1 :=
    fun other otherHeld => new.unheld other (keeps other otherHeld)
  have blocks : ∀ other ∈ others, ((created.2.store created.1 front
      ((created.2.block self.data).data.read self.start self.getInternalSize)).release
        self.data).block other.data = heap.block other.data := by
    intro other otherHeld
    rw [BufferHeap.release_block, BufferHeap.store,
      BufferHeap.set_block_of_ne _ _ (unshared other otherHeld)]
    exact new.others other (keeps other otherHeld)
  have counted := new.counted
  rw [Multiset.map_cons, Multiset.cons_swap] at counted
  refine ⟨valid.adopt keeps (BufferHeap.release_counted (counted.set _ _)) unshared blocks
    movedShaped ?_ ?_ le_rfl, ?_, ?_, ?_, ?_, ?_, ?_, ?_, ?_, .inr unshared⟩
  · rw [BufferHeap.release_block, BufferHeap.store, movedTo_internalEnd, movedTo_data,
      BufferHeap.set_block_self]
    exact new.size
  · intro address
    rw [BufferHeap.release_block]
    obtain ⟨data, blockEq⟩ := store_fields created.2 created.1 front
      ((created.2.block self.data).data.read self.start self.getInternalSize) address
    rw [blockEq]
    exact new.allocated address
  · exact Nat.add_le_add_right (Nat.zero_le _) front
  · exact Nat.add_le_add_right (Nat.add_le_add_right (Nat.le_add_right _ _) front) back
  · exact movedTo_zeroSize _ _ _
  · have stopEq : (self.movedTo created.1 front back).stop = self.getSize + front + back := by
      rw [shaped.getSize_eq]
      rfl
    rw [stopEq]
    exact Nat.add_le_add_right (Nat.add_le_add_right (Nat.sub_le _ _) front) back
  · obtain ⟨frontRead, backRead⟩ := shaped.movedTo_reads ((heap.block self.data).data)
      ((created.2.block created.1).data) front
    have frontLength : (self.movedTo created.1 front back).zeroAreaStart - (0 + front) =
        self.zeroAreaStart - self.start := by
      rw [Nat.zero_add]
      exact Nat.add_sub_cancel _ _
    have backLength : (self.movedTo created.1 front back).stop - back -
        (self.movedTo created.1 front back).zeroAreaEnd = self.stop - self.zeroAreaEnd := by
      unfold movedTo
      rw [Nat.add_sub_cancel, Nat.add_right_comm _ _ front, Nat.add_sub_cancel_left]
    have bytes : ((((created.2.store created.1 front ((created.2.block self.data).data.read
        self.start self.getInternalSize)).release self.data).setDirty created.1 0
          (self.movedTo created.1 front back).stop).block created.1).data =
        (created.2.block created.1).data.write front
          ((heap.block self.data).data.read self.start self.getInternalSize) := by
      rw [BufferHeap.setDirty_data, BufferHeap.release_block, BufferHeap.store,
        BufferHeap.set_block_self, new.others self held]
    unfold content
    dsimp only
    rw [movedTo_data, movedTo_start, bytes, frontLength, Nat.zero_add, frontRead, backLength]
    exact congrArg₂ (fun zeroes rest => _ ++ (List.replicate zeroes 0 ++ rest))
      (movedTo_zeroSize created.1 front back) backRead
  · intro other otherHeld
    rw [content_setDirty]
    exact content_of_block (blocks other otherHeld)
  · exact fun _ other otherHeld same => absurd same (unshared other otherHeld)
  · exact fun _ other otherHeld same => absurd same (unshared other otherHeld)

theorem Valid.addAtStart (valid : Valid heap (self ::ₘ others)) (garbage : Nat → Memory UInt8)
    {count : Nat} (fits : self.getSize + count < 2 ^ 32)
    (allocates : self.getInternalSize + count + 19 < 2 ^ 32) :
    Opens heap others self count 0 (Buffer.addAtStart garbage heap self count) := by
  unfold Buffer.addAtStart
  split
  next inPlace => exact (valid.startInPlace inPlace).noteZeroArea
  next => exact (valid.moveTo garbage fits allocates).noteZeroArea

theorem Valid.addAtEnd (valid : Valid heap (self ::ₘ others)) (garbage : Nat → Memory UInt8)
    {count : Nat} (fits : self.stop + count < 2 ^ 32)
    (allocates : self.getInternalSize + count + 19 < 2 ^ 32) :
    Opens heap others self 0 count (Buffer.addAtEnd garbage heap self count) := by
  unfold Buffer.addAtEnd
  split
  next inPlace => exact (valid.endInPlace inPlace fits).noteZeroArea
  next =>
    have sizeFits : self.getSize + 0 + count < 2 ^ 32 := by
      rw [getSize]
      omega
    exact (valid.moveTo garbage sizeFits allocates).noteZeroArea

/-- Filling the gap at the start. -/
theorem Opens.fillFront {front : Nat} {bytes : List UInt8} {result : BufferHeap × Buffer}
    (opens : Opens heap others self front 0 result) (length : bytes.length = front) :
    Changes heap others (bytes ++ self.content heap)
      (result.1.store result.2.data result.2.start bytes, result.2) := by
  subst length
  have shaped := opens.valid.shaped result.2 (Multiset.mem_cons_self _ _)
  have within := opens.frontWithin
  have restShaped : ({ result.2 with start := result.2.start + bytes.length } : Buffer).Shaped :=
    ⟨within, shaped.zeroes, shaped.back, shaped.fits⟩
  refine ⟨opens.valid.store _ _ _, ?_, ?_⟩
  · rw [content_split_front within, content_store_of_outside restShaped fun _ _ => .inl le_rfl,
      BufferHeap.store, BufferHeap.set_block_self, Memory.read_write _ rfl]
    exact congrArg (bytes ++ ·) opens.kept
  · intro other held
    rw [← opens.frame other held]
    refine content_store_of_outside (opens.valid.shaped other (Multiset.mem_cons_of_mem held)) ?_
    exact fun some same => .inl (opens.frontClear some other held same)

/-- Filling the gap at the end. -/
theorem Opens.fillBack {back : Nat} {bytes : List UInt8} {result : BufferHeap × Buffer}
    (opens : Opens heap others self 0 back result) (length : bytes.length = back) :
    Changes heap others (self.content heap ++ bytes)
      (result.1.store result.2.data (result.2.getInternalEnd - bytes.length) bytes, result.2) := by
  subst length
  have shaped := opens.valid.shaped result.2 (Multiset.mem_cons_self _ _)
  have within := opens.backWithin
  have restShaped : ({ result.2 with stop := result.2.stop - bytes.length } : Buffer).Shaped :=
    ⟨shaped.front, shaped.zeroes, by dsimp only; omega,
      lt_of_le_of_lt (Nat.sub_le _ _) shaped.fits⟩
  have restEnd : ({ result.2 with stop := result.2.stop - bytes.length } : Buffer).getInternalEnd =
      result.2.getInternalEnd - bytes.length := by
    rw [restShaped.internalEnd, shaped.internalEnd]
    dsimp only
    omega
  refine ⟨opens.valid.store _ _ _, ?_, ?_⟩
  · rw [content_split_back shaped within,
      content_store_of_outside restShaped fun _ _ => .inr restEnd.le, BufferHeap.store,
      BufferHeap.set_block_self, Memory.read_write _ rfl]
    exact congrArg (· ++ bytes) opens.kept
  · intro other held
    rw [← opens.frame other held]
    refine content_store_of_outside (opens.valid.shaped other (Multiset.mem_cons_of_mem held)) ?_
    exact fun some same => .inr (Nat.le_sub_of_add_le (opens.backClear some other held same))

/-- Calls of `WriteU8` in a row before the zero area. -/
theorem writeAll_before {iterator : Iterator} {bytes : List UInt8}
    (before : iterator.current + bytes.length ≤ iterator.zeroStart) :
    (iterator.writeAll heap bytes).1 = heap.store iterator.data iterator.current bytes := by
  induction bytes generalizing heap iterator with
  | nil => exact (heap.store_nil _ _).symm
  | cons byte bytes inductionHypothesis =>
      rw [List.length_cons] at before
      have one : iterator.writeU8 heap byte = (heap.store iterator.data iterator.current [byte],
          { iterator with current := iterator.current + 1 }) :=
        if_pos (show iterator.current < iterator.zeroStart by omega)
      rw [Iterator.writeAll, List.foldl_cons, one]
      refine (inductionHypothesis ?_).trans (heap.store_store _ _ [byte] bytes)
      dsimp only
      omega

/-- Calls of `WriteU8` in a row after the zero area. -/
theorem writeAll_after {iterator : Iterator} {bytes : List UInt8}
    (ordered : iterator.zeroStart ≤ iterator.zeroEnd) (after : iterator.zeroEnd ≤ iterator.current) :
    (iterator.writeAll heap bytes).1 = heap.store iterator.data
      (iterator.current - (iterator.zeroEnd - iterator.zeroStart)) bytes := by
  induction bytes generalizing heap iterator with
  | nil => exact (heap.store_nil _ _).symm
  | cons byte bytes inductionHypothesis =>
      have one : iterator.writeU8 heap byte = (heap.store iterator.data
          (iterator.current - (iterator.zeroEnd - iterator.zeroStart)) [byte],
          { iterator with current := iterator.current + 1 }) :=
        if_neg (show ¬ iterator.current < iterator.zeroStart by omega)
      have nextOffset : iterator.current + 1 - (iterator.zeroEnd - iterator.zeroStart) =
          iterator.current - (iterator.zeroEnd - iterator.zeroStart) + 1 := by omega
      rw [Iterator.writeAll, List.foldl_cons, one]
      refine (@inductionHypothesis _ { iterator with current := iterator.current + 1 } ordered
        (show iterator.zeroEnd ≤ iterator.current + 1 by omega)).trans ?_
      dsimp only
      rw [nextOffset]
      exact heap.store_store _ _ [byte] bytes

/-- The internal offset of the gap at the end. -/
theorem Opens.back_offset {back : Nat} {result : BufferHeap × Buffer}
    (opens : Opens heap others self 0 back result) :
    result.2.stop - back - result.2.zeroSize = result.2.getInternalEnd - back := by
  have shaped := opens.valid.shaped result.2 (Multiset.mem_cons_self _ _)
  have within := opens.backWithin
  have zeroes := shaped.zeroes
  rw [shaped.internalEnd, Buffer.zeroSize]
  omega

theorem Opens.writeFront {front : Nat} {bytes : List UInt8} {result : BufferHeap × Buffer}
    (opens : Opens heap others self front 0 result) (length : bytes.length = front) :
    Changes heap others (bytes ++ self.content heap) (writeFront result bytes) := by
  subst length
  have filled := opens.fillFront rfl
  rw [Buffer.writeFront, writeAll_before opens.frontWithin]
  exact filled

theorem Opens.writeBack {back : Nat} {bytes : List UInt8} {result : BufferHeap × Buffer}
    (opens : Opens heap others self 0 back result) (length : bytes.length = back) :
    Changes heap others (self.content heap ++ bytes) (writeBack result bytes) := by
  subst length
  have filled := opens.fillBack rfl
  have shaped := opens.valid.shaped result.2 (Multiset.mem_cons_self _ _)
  have within := opens.backWithin
  rw [← opens.back_offset] at filled
  rw [Buffer.writeBack, writeAll_after shaped.zeroes
    (show result.2.zeroAreaEnd ≤ result.2.stop - bytes.length by omega)]
  exact filled

theorem Opens.blockFront {front : Nat} {bytes : List UInt8} {result : BufferHeap × Buffer}
    (opens : Opens heap others self front 0 result) (length : bytes.length = front) :
    Changes heap others (bytes ++ self.content heap) (blockFront result bytes) := by
  subst length
  have filled := opens.fillFront rfl
  have atStart : result.2.begin.current ≤ result.2.begin.zeroStart :=
    (opens.valid.shaped result.2 (Multiset.mem_cons_self _ _)).front
  simp only [Buffer.blockFront, Iterator.writeBlock, if_pos atStart]
  exact filled

theorem Opens.blockBack {back : Nat} {bytes : List UInt8} {result : BufferHeap × Buffer}
    (opens : Opens heap others self 0 back result) (length : bytes.length = back) :
    Changes heap others (self.content heap ++ bytes) (blockBack result bytes) := by
  subst length
  have filled := opens.fillBack rfl
  have shaped := opens.valid.shaped result.2 (Multiset.mem_cons_self _ _)
  have within := opens.backWithin
  have zeroes := shaped.zeroes
  rw [← opens.back_offset] at filled
  simp only [Buffer.blockBack, Iterator.writeBlock]
  split
  next atZeroes =>
    -- The end of an empty zero area.
    have noZeroes : result.2.zeroSize = 0 := by
      change result.2.stop - bytes.length ≤ result.2.zeroAreaStart at atZeroes
      rw [Buffer.zeroSize]
      omega
    rw [noZeroes, Nat.sub_zero] at filled
    exact filled
  next => exact filled

theorem Valid.prepend (valid : Valid heap (self ::ₘ others)) (garbage : Nat → Memory UInt8)
    {bytes : List UInt8} (fits : self.getSize + bytes.length < 2 ^ 32)
    (allocates : self.getInternalSize + bytes.length + 19 < 2 ^ 32) :
    Changes heap others (bytes ++ self.content heap) (prepend garbage heap self bytes) :=
  (valid.addAtStart garbage fits allocates).writeFront rfl

theorem Valid.append (valid : Valid heap (self ::ₘ others)) (garbage : Nat → Memory UInt8)
    {bytes : List UInt8} (fits : self.stop + bytes.length < 2 ^ 32)
    (allocates : self.getInternalSize + bytes.length + 19 < 2 ^ 32) :
    Changes heap others (self.content heap ++ bytes) (append garbage heap self bytes) :=
  (valid.addAtEnd garbage fits allocates).writeBack rfl

/-- The constructors. -/
theorem Valid.init (valid : Valid heap others) (garbage : Nat → Memory UInt8) {zeroSize : Nat}
    (fits : firstStart garbage heap + zeroSize < 2 ^ 32) :
    Changes heap others (List.replicate zeroSize 0) (init garbage heap zeroSize) := by
  have new := valid.create garbage (show 0 + 19 < 2 ^ 32 by decide)
  have startLe : firstStart garbage heap ≤
      ((heap.create garbage 0).2.block (heap.create garbage 0).1).size := Nat.min_le_left _ _
  have shaped : ({
      data := (heap.create garbage 0).1
      maxZeroAreaStart := firstStart garbage heap
      zeroAreaStart := firstStart garbage heap
      zeroAreaEnd := firstStart garbage heap + zeroSize
      start := firstStart garbage heap
      stop := firstStart garbage heap + zeroSize } : Buffer).Shaped :=
    ⟨le_rfl, Nat.le_add_right _ _, le_rfl, fits⟩
  simp only [Buffer.init, wrap_of_lt fits]
  refine ⟨valid.adopt (fun _ held => held) new.counted new.unheld new.others shaped ?_
    new.allocated le_rfl, ?_, ?_⟩
  · rw [shaped.internalEnd]
    dsimp only
    omega
  · simp [content, Buffer.zeroSize]
  · intro other held
    rw [content_setDirty]
    exact content_of_block (new.others other held)

/-- Equal contents have equal parts. -/
theorem reads_of_content {after : BufferHeap}
    (same : self.content after = self.content heap) :
    (after.block self.data).data.read self.start (self.zeroAreaStart - self.start) =
        (heap.block self.data).data.read self.start (self.zeroAreaStart - self.start) ∧
      (after.block self.data).data.read self.zeroAreaStart (self.stop - self.zeroAreaEnd) =
        (heap.block self.data).data.read self.zeroAreaStart (self.stop - self.zeroAreaEnd) := by
  obtain ⟨sameFront, rest⟩ := List.append_inj same (by simp)
  exact ⟨sameFront, (List.append_inj rest rfl).2⟩

/-- `AddAtStart` where the whole buffer can be allocated. -/
theorem Valid.addAtFreshStart (valid : Valid heap (self ::ₘ others))
    (garbage : Nat → Memory UInt8) {count : Nat} (fits : self.getSize + count + 19 < 2 ^ 32) :
    Opens heap others self count 0 (Buffer.addAtStart garbage heap self count) := by
  have internal := (valid.shaped self (Multiset.mem_cons_self _ _)).internalSize_le
  exact valid.addAtStart garbage (by omega) (by omega)

/-- `AddAtEnd` where the whole buffer can be allocated. -/
theorem Valid.addAtFreshEnd (valid : Valid heap (self ::ₘ others))
    (garbage : Nat → Memory UInt8) {count : Nat} (fits : self.stop + count + 19 < 2 ^ 32) :
    Opens heap others self 0 count (Buffer.addAtEnd garbage heap self count) := by
  have internal := (valid.shaped self (Multiset.mem_cons_self _ _)).internalSize_le
  rw [getSize] at internal
  exact valid.addAtEnd garbage (by omega) (by omega)

theorem Valid.copyZeroes {tmp : BufferHeap × Buffer} (valid : Valid tmp.1 (tmp.2 ::ₘ others))
    (garbage : Nat → Memory UInt8) {zeroSize : Nat}
    (fits : tmp.2.getSize + zeroSize + 19 < 2 ^ 32) :
    Changes tmp.1 others (List.replicate zeroSize 0 ++ tmp.2.content tmp.1)
      (copyZeroes garbage tmp zeroSize) :=
  (valid.addAtFreshStart garbage fits).blockFront List.length_replicate

theorem Valid.copyStart {tmp : BufferHeap × Buffer} (valid : Valid tmp.1 (tmp.2 ::ₘ others))
    (garbage : Nat → Memory UInt8) (held : self ∈ others)
    (fits : tmp.2.getSize + (self.zeroAreaStart - self.start) + 19 < 2 ^ 32) :
    Changes tmp.1 others
      ((tmp.1.block self.data).data.read self.start (self.zeroAreaStart - self.start) ++
        tmp.2.content tmp.1) (copyStart garbage tmp self) := by
  have opens := valid.addAtFreshStart garbage fits
  have source := (reads_of_content (opens.frame self held)).1
  simp only [Buffer.copyStart, source]
  exact opens.blockFront (Memory.length_read _ _ _)

theorem Valid.copyEnd {tmp : BufferHeap × Buffer} (valid : Valid tmp.1 (tmp.2 ::ₘ others))
    (garbage : Nat → Memory UInt8) (held : self ∈ others)
    (fits : tmp.2.stop + (self.stop - self.zeroAreaEnd) + 19 < 2 ^ 32) :
    Changes tmp.1 others
      (tmp.2.content tmp.1 ++
        (tmp.1.block self.data).data.read self.zeroAreaStart (self.stop - self.zeroAreaEnd))
      (copyEnd garbage tmp self) := by
  have opens := valid.addAtFreshEnd garbage fits
  have source := (reads_of_content (opens.frame self held)).2
  simp only [Buffer.copyEnd, source]
  exact opens.blockBack (Memory.length_read _ _ _)

/-- `CreateFullCopy` has no zero area and the same bytes. -/
theorem Valid.createFullCopy (valid : Valid heap others) (garbage : Nat → Memory UInt8)
    (held : self ∈ others)
    (fits : self.zeroSize ≠ 0 → firstStart garbage heap + self.getSize + 19 < 2 ^ 32) :
    Changes heap others (self.content heap) (createFullCopy garbage heap self) ∧
      (Buffer.createFullCopy garbage heap self).2.zeroSize = 0 ∧
      (self.zeroSize ≠ 0 →
        (∀ other ∈ others, other.data ≠ (Buffer.createFullCopy garbage heap self).2.data) ∧
        (Buffer.createFullCopy garbage heap self).2.stop ≤
          firstStart garbage heap + self.getSize) := by
  unfold Buffer.createFullCopy
  split
  next some =>
    have shaped := valid.shaped self held
    obtain ⟨front, zeroes, back, _⟩ := shaped
    have room := fits some
    rw [getSize] at room
    have zeroEq : self.zeroSize = self.zeroAreaEnd - self.zeroAreaStart := rfl
    have new := valid.init garbage (show firstStart garbage heap + 0 < 2 ^ 32 by omega)
    have newSize := new.getSize
    rw [List.length_replicate] at newSize
    have newStop : (Buffer.init garbage heap 0).2.stop = firstStart garbage heap := by
      exact wrap_of_lt (show firstStart garbage heap + 0 < 2 ^ 32 by omega)
    have zeroFits : (Buffer.init garbage heap 0).2.getSize + self.zeroSize + 19 < 2 ^ 32 := by omega
    have zeroed := new.valid.copyZeroes garbage zeroFits
    have zeroedOpens := new.valid.addAtFreshStart garbage zeroFits
    have zeroedSize := zeroed.getSize
    rw [new.content, List.length_append, List.length_replicate, List.length_replicate] at zeroedSize
    have startFits : (Buffer.copyZeroes garbage (Buffer.init garbage heap 0)
        self.zeroSize).2.getSize + (self.zeroAreaStart - self.start) + 19 < 2 ^ 32 := by omega
    have started := zeroed.valid.copyStart garbage held startFits
    have startedOpens := zeroed.valid.addAtFreshStart garbage startFits
    have zeroedStop := zeroedOpens.stop
    have startedStop := startedOpens.stop
    have endFits : (Buffer.copyStart garbage (Buffer.copyZeroes garbage
        (Buffer.init garbage heap 0) self.zeroSize) self).2.stop +
          (self.stop - self.zeroAreaEnd) + 19 < 2 ^ 32 := by
      change (Buffer.copyStart garbage (Buffer.copyZeroes garbage
        (Buffer.init garbage heap 0) self.zeroSize) self).2.stop ≤ _ at startedStop
      change (Buffer.copyZeroes garbage (Buffer.init garbage heap 0) self.zeroSize).2.stop ≤ _
        at zeroedStop
      omega
    have ended := started.valid.copyEnd garbage held endFits
    have endedOpens := started.valid.addAtFreshEnd garbage endFits
    have atZeroed := (reads_of_content ((zeroed.frame self held).trans (new.frame self held))).1
    have atStarted := (reads_of_content ((started.frame self held).trans
      ((zeroed.frame self held).trans (new.frame self held)))).2
    rw [started.content, zeroed.content, new.content, atZeroed, atStarted, List.replicate_zero,
      List.append_nil, List.append_assoc] at ended
    refine ⟨new.trans (zeroed.trans (started.trans ended)), ?_, fun _ => ⟨?_, ?_⟩⟩
    · refine endedOpens.zeroSize.trans (startedOpens.zeroSize.trans
        (zeroedOpens.zeroSize.trans ?_))
      change wrap 32 (firstStart garbage heap + 0) - firstStart garbage heap = 0
      rw [wrap_of_lt (by omega), Nat.add_zero, Nat.sub_self]
    · have unshared : ∀ other ∈ others, other.data ≠ (Buffer.init garbage heap 0).2.data :=
        (valid.create garbage (show 0 + 19 < 2 ^ 32 by decide)).unheld
      rcases endedOpens.block with same | apart
      · rcases startedOpens.block with startedSame | apart
        · rcases zeroedOpens.block with zeroedSame | apart
          · exact fun other otherHeld otherSame => unshared other otherHeld
              (otherSame.trans (same.trans (startedSame.trans zeroedSame)))
          · exact fun other otherHeld otherSame => apart other otherHeld
              (otherSame.trans (same.trans startedSame))
        · exact fun other otherHeld otherSame => apart other otherHeld (otherSame.trans same)
      · exact apart
    · have endedStop := endedOpens.stop
      change (Buffer.copyEnd garbage _ self).2.stop ≤
        (Buffer.copyStart garbage _ self).2.stop + _ + _ at endedStop
      change (Buffer.copyStart garbage _ self).2.stop ≤
        (Buffer.copyZeroes garbage _ self.zeroSize).2.stop + _ + _ at startedStop
      change (Buffer.copyZeroes garbage _ self.zeroSize).2.stop ≤ _ at zeroedStop
      rw [getSize]
      omega
  next none => exact ⟨valid.copy held, not_not.mp none, fun some => absurd some none⟩

/-- `PeekData` keeps the bytes, which then lie in one piece in the block. -/
theorem Valid.peekData (valid : Valid heap (self ::ₘ others)) (garbage : Nat → Memory UInt8)
    (fits : self.zeroSize ≠ 0 → firstStart garbage heap + self.getSize + 19 < 2 ^ 32) :
    Changes heap others (self.content heap) (peekData garbage heap self) ∧
      (Buffer.peekData garbage heap self).2.zeroSize = 0 ∧
      (self.zeroSize ≠ 0 →
        (∀ other ∈ others, other.data ≠ (Buffer.peekData garbage heap self).2.data) ∧
        (Buffer.peekData garbage heap self).2.stop ≤ firstStart garbage heap + self.getSize) := by
  obtain ⟨copied, noZeroes, apart⟩ := valid.createFullCopy garbage (Multiset.mem_cons_self _ _) fits
  have copiedValid := copied.valid
  rw [Multiset.cons_swap] at copiedValid
  have assigned := copiedValid.assign (Multiset.mem_cons_self _ _)
  have assignedValid := assigned.valid
  rw [Multiset.cons_swap] at assignedValid
  obtain ⟨destroyed, kept⟩ := assignedValid.destroy
  have assignedEq : (Buffer.assign (Buffer.createFullCopy garbage heap self).1 self
      (Buffer.createFullCopy garbage heap self).2).2 =
      (Buffer.createFullCopy garbage heap self).2 := by
    unfold Buffer.assign
    split <;> rfl
  refine ⟨⟨destroyed, ?_, ?_⟩, ?_, fun some => ?_⟩
  · exact (kept _).trans (assigned.content.trans copied.content)
  · intro other held
    refine (kept other).trans ((assigned.frame other (Multiset.mem_cons_of_mem held)).trans ?_)
    exact copied.frame other (Multiset.mem_cons_of_mem held)
  · exact (congrArg Buffer.zeroSize assignedEq).trans noZeroes
  · obtain ⟨unshared, stopLe⟩ := apart some
    change (∀ other ∈ others, other.data ≠ (Buffer.assign _ self _).2.data) ∧
      (Buffer.assign _ self _).2.stop ≤ _
    rw [assignedEq]
    exact ⟨fun other held => unshared other (Multiset.mem_cons_of_mem held), stopLe⟩

end Ns3.Network
