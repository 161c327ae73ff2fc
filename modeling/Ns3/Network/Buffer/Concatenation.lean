import Ns3.Network.Buffer.Refinement

/-!
`AddAtEnd (const Buffer &o)`: joining two buffers.

Where the zero area of the one buffer meets that of the other, the joined buffer
gets one long zero area and only what follows it in `o` is copied; otherwise all
of `o` is copied behind a full copy. Both paths end in the range write of an
iterator, which addresses the block without regard to the zero area and asserts
that the two buffers are in different blocks. Where its assertion fails the
program stops, and there is no result.
-/

namespace Ns3.Network

open Library

namespace Buffer

namespace Iterator

/-- `Check`. -/
def Check (self : Iterator) (i : Nat) : Prop :=
  self.dataStart ≤ i ∧ ¬ (self.zeroStart ≤ i ∧ i < self.zeroEnd) ∧ i ≤ self.dataEnd

instance (self : Iterator) (i : Nat) : Decidable (self.Check i) :=
  inferInstanceAs (Decidable (_ ∧ ¬ (_ ∧ _) ∧ _))

/-- `CheckNoZero`. -/
def CheckNoZero (self : Iterator) (start stop : Nat) : Prop :=
  ∀ i < stop, start ≤ i → self.Check i

instance (self : Iterator) (start stop : Nat) : Decidable (self.CheckNoZero start stop) :=
  inferInstanceAs (Decidable (∀ i < stop, start ≤ i → self.Check i))

/-- A range write under way: the iterator written to, the one read from and how
much there is left to copy. -/
structure RangeWrite where
  heap : BufferHeap
  target : Iterator
  source : Iterator
  size : Nat

namespace RangeWrite

/-- One `memcpy` or `memset` to `m_data[m_current]`. -/
def put (range : RangeWrite) (bytes : List UInt8) : RangeWrite where
  heap := range.heap.store range.target.data range.target.current bytes
  target := { range.target with current := range.target.current + bytes.length }
  source := { range.source with current := range.source.current + bytes.length }
  size := range.size - bytes.length

/-- What precedes the zero area of the source. -/
def copyFront (range : RangeWrite) : RangeWrite :=
  if range.source.current ≤ range.source.zeroStart then
    range.put ((range.heap.block range.source.data).data.read range.source.current
      (min range.size (range.source.zeroStart - range.source.current)))
  else range

/-- The zero area of the source. -/
def copyZeroArea (range : RangeWrite) : RangeWrite :=
  if range.source.current ≤ range.source.zeroEnd then
    range.put (List.replicate (min range.size (range.source.zeroEnd - range.source.current)) 0)
  else range

/-- What follows the zero area of the source. -/
def copyBack (range : RangeWrite) : RangeWrite :=
  range.put ((range.heap.block range.source.data).data.read
    (range.source.current - (range.source.zeroEnd - range.source.zeroStart))
    (min range.size (range.source.dataEnd - range.source.current)))

end RangeWrite

/-- The assertions of `Write (start, end)`. -/
def WriteAsserts (self start stop : Iterator) : Prop :=
  start.data = stop.data ∧ start.current ≤ stop.current ∧ start.zeroStart = stop.zeroStart ∧
    start.zeroEnd = stop.zeroEnd ∧ self.data ≠ start.data ∧
    self.CheckNoZero self.current (wrap 32 (self.current + (stop.current - start.current)))

instance (self start stop : Iterator) : Decidable (self.WriteAsserts start stop) :=
  inferInstanceAs (Decidable (_ ∧ _ ∧ _ ∧ _ ∧ _ ∧ _))

/-- `Write (start, end)`. -/
def write (heap : BufferHeap) (self start stop : Iterator) : Option (BufferHeap × Iterator) :=
  if self.WriteAsserts start stop then
    let range : RangeWrite := ⟨heap, self, start, stop.current - start.current⟩
    let copied := range.copyFront.copyZeroArea.copyBack
    some (copied.heap, copied.target)
  else none

end Iterator

variable (garbage : Nat → Memory UInt8)

/-- The condition of the first path of `AddAtEnd (const Buffer &o)`. -/
def Adjacent (heap : BufferHeap) (self o : Buffer) : Prop :=
  heap.count self.data = 1 ∧ self.stop = self.zeroAreaEnd ∧
    self.stop = (heap.block self.data).dirtyEnd ∧ o.start = o.zeroAreaStart ∧ 0 < o.zeroSize

instance (heap : BufferHeap) (self o : Buffer) : Decidable (Adjacent heap self o) :=
  inferInstanceAs (Decidable (_ ∧ _ ∧ _ ∧ _ ∧ _))

/-- The zero area of the joined buffer. -/
def joinZeroArea (heap : BufferHeap) (self o : Buffer) : BufferHeap × Buffer :=
  let zeroAreaEnd := wrap 32 (self.zeroAreaEnd + o.zeroSize)
  (heap.setDirty self.data (heap.block self.data).dirtyStart zeroAreaEnd,
    { self with zeroAreaEnd, stop := zeroAreaEnd })

/-- The path for adjacent zero areas. -/
def addAdjacent (heap : BufferHeap) (self o : Buffer) : Option (BufferHeap × Buffer) :=
  let joined := joinZeroArea heap self o
  let endData := o.stop - o.zeroAreaEnd
  let opened := addAtEnd garbage joined.1 joined.2 endData
  ((opened.2.finish.prev endData).write opened.1 (o.finish.prev endData) o.finish).map
    fun written => (written.1, opened.2)

/-- The path that copies everything. `*this = CreateFullCopy ()` is what
`TransformIntoRealBuffer` does. -/
def addFullCopy (heap : BufferHeap) (self o : Buffer) : Option (BufferHeap × Buffer) :=
  let real := transformIntoRealBuffer garbage heap self
  let opened := addAtEnd garbage real.1 real.2 o.getSize
  ((opened.2.finish.prev o.getSize).write opened.1 o.begin o.finish).map
    fun written => (written.1, opened.2)

/-- `AddAtEnd (const Buffer &o)`. -/
def addAtEndBuffer (heap : BufferHeap) (self o : Buffer) : Option (BufferHeap × Buffer) :=
  if Adjacent heap self o then addAdjacent garbage heap self o
  else addFullCopy garbage heap self o

/-- Bytes of `o` follow the joined zero area: they are written as far behind their
place as the zero area is long. -/
def Misplaces (heap : BufferHeap) (self o : Buffer) : Prop :=
  Adjacent heap self o ∧ o.zeroAreaEnd < o.stop

instance (heap : BufferHeap) (self o : Buffer) : Decidable (Misplaces heap self o) :=
  inferInstanceAs (Decidable (_ ∧ _))

/-- The bytes of `o` are copied within one block: there is no zero area to copy
away from the shared block, and the block has room for `o` behind the buffer. -/
def Collides (heap : BufferHeap) (self o : Buffer) : Prop :=
  self.zeroSize = 0 ∧ self.data = o.data ∧ EndsInPlace heap self o.getSize

instance (heap : BufferHeap) (self o : Buffer) : Decidable (Collides heap self o) :=
  inferInstanceAs (Decidable (_ ∧ _ ∧ _))

/-- The path that copies everything passes no offset beyond 32 bits. -/
def FullCopyFits (heap : BufferHeap) (self o : Buffer) : Prop :=
  (self.zeroSize = 0 →
    self.stop + o.getSize < 2 ^ 32 ∧ self.getInternalSize + o.getSize + 19 < 2 ^ 32) ∧
  (self.zeroSize ≠ 0 → firstStart garbage heap + self.getSize + o.getSize + 19 < 2 ^ 32)

instance (heap : BufferHeap) (self o : Buffer) : Decidable (FullCopyFits garbage heap self o) :=
  inferInstanceAs (Decidable ((_ → _ ∧ _) ∧ (_ ≠ _ → _)))

/-- No offset passes 32 bits on the path that is taken. -/
def ConcatenationFits (heap : BufferHeap) (self o : Buffer) : Prop :=
  (Adjacent heap self o → self.stop + o.zeroSize < 2 ^ 32) ∧
    (¬ Adjacent heap self o → FullCopyFits garbage heap self o)

instance (heap : BufferHeap) (self o : Buffer) :
    Decidable (ConcatenationFits garbage heap self o) :=
  inferInstanceAs (Decidable ((_ → _) ∧ (¬ _ → _)))

namespace Iterator.RangeWrite

variable {heap : BufferHeap} {target : Iterator} {o : Buffer}

theorem put_nil (range : RangeWrite) : range.put [] = range := by
  rw [put, BufferHeap.store_nil]
  rfl

/-- Nothing is left to copy. -/
theorem copy_nothing (range : RangeWrite) (done : range.size = 0) :
    range.copyFront.copyZeroArea.copyBack = range := by
  have front : range.copyFront = range := by
    unfold copyFront
    rw [done, Nat.zero_min, Memory.read_zero, put_nil, ite_self]
  have zeroes : range.copyZeroArea = range := by
    unfold copyZeroArea
    rw [done, Nat.zero_min, List.replicate_zero, put_nil, ite_self]
  rw [front, zeroes, copyBack, done, Nat.zero_min, Memory.read_zero, put_nil]

theorem write_nothing {self start stop : Iterator} (asserts : self.WriteAsserts start stop)
    (done : stop.current - start.current = 0) : self.write heap start stop = some (heap, self) := by
  have nothing := copy_nothing ⟨heap, self, start, stop.current - start.current⟩ done
  simp only [write, if_pos asserts, nothing]

/-- A range write from another block stores the content of the source. -/
theorem copy_content (shaped : o.Shaped) (apart : o.data ≠ target.data) :
    (RangeWrite.copyBack (copyZeroArea (copyFront
      ⟨heap, target, o.begin, o.getSize⟩))).heap =
      heap.store target.data target.current (o.content heap) := by
  obtain ⟨front, zeroes, back, _⟩ := shaped
  have sizeEq : o.getSize = o.stop - o.start := rfl
  have zeroEq : o.zeroSize = o.zeroAreaEnd - o.zeroAreaStart := rfl
  have atZeroes : o.start + (o.zeroAreaStart - o.start) = o.zeroAreaStart :=
    Nat.add_sub_of_le front
  have behind : o.getSize - (o.zeroAreaStart - o.start) = o.stop - o.zeroAreaStart :=
    Nat.sub_sub_sub_cancel_right front
  have frontSize : min o.getSize (o.zeroAreaStart - o.start) = o.zeroAreaStart - o.start :=
    Nat.min_eq_right (Nat.sub_le_sub_right (le_trans zeroes back) _)
  have zeroesSize : min (o.getSize - (o.zeroAreaStart - o.start))
      (o.zeroAreaEnd - (o.start + (o.zeroAreaStart - o.start))) = o.zeroSize := by
    rw [behind, atZeroes]
    exact Nat.min_eq_right (Nat.sub_le_sub_right back _)
  have backSize : min (o.getSize - (o.zeroAreaStart - o.start) - o.zeroSize)
      (o.stop - (o.start + (o.zeroAreaStart - o.start) + o.zeroSize)) =
      o.stop - o.zeroAreaEnd := by
    rw [behind, atZeroes, zeroEq, Nat.add_sub_of_le zeroes, Nat.sub_sub_sub_cancel_right zeroes,
      Nat.min_self]
  have backOffset : o.start + (o.zeroAreaStart - o.start) + o.zeroSize -
      (o.zeroAreaEnd - o.zeroAreaStart) = o.zeroAreaStart := by
    rw [atZeroes, zeroEq, Nat.add_sub_cancel]
  have unread : ∀ (before : BufferHeap) (offset : Nat) (bytes : List UInt8),
      (before.store target.data offset bytes).block o.data = before.block o.data :=
    fun before _ _ => before.set_block_of_ne _ apart
  have inZeroes : o.start + (o.zeroAreaStart - o.start) ≤ o.zeroAreaEnd := by
    rw [atZeroes]
    exact zeroes
  simp only [copyFront, copyZeroArea, copyBack, put, begin, if_pos front, frontSize,
    Memory.length_read, if_pos inZeroes, zeroesSize, List.length_replicate, backSize, backOffset,
    unread]
  have last := (heap.store target.data target.current ((heap.block o.data).data.read o.start
    (o.zeroAreaStart - o.start))).store_store target.data
      (target.current + (o.zeroAreaStart - o.start)) (List.replicate o.zeroSize 0)
      ((heap.block o.data).data.read o.zeroAreaStart (o.stop - o.zeroAreaEnd))
  have first := heap.store_store target.data target.current
    ((heap.block o.data).data.read o.start (o.zeroAreaStart - o.start))
    (List.replicate o.zeroSize 0 ++
      (heap.block o.data).data.read o.zeroAreaStart (o.stop - o.zeroAreaEnd))
  rw [List.length_replicate] at last
  rw [Memory.length_read] at first
  rw [last, first]
  rfl

end Iterator.RangeWrite

/-- Without a zero area the full copy is the buffer itself. -/
theorem transformIntoRealBuffer_of_noZeroes (heap : BufferHeap) {self : Buffer}
    (noZeroes : self.zeroSize = 0) :
    (transformIntoRealBuffer garbage heap self).2 =
        { self with maxZeroAreaStart := self.zeroAreaStart } ∧
      (transformIntoRealBuffer garbage heap self).1.block = heap.block ∧
      (transformIntoRealBuffer garbage heap self).1.count self.data = heap.count self.data := by
  have copied : createFullCopy garbage heap self = copy heap self :=
    if_neg (not_not.mpr noZeroes)
  have assigned : ∀ after : BufferHeap, assign after self (copy heap self).2 =
      (recommend after self, (copy heap self).2) :=
    fun after => if_neg (not_not.mpr rfl)
  simp only [transformIntoRealBuffer, copied, assigned]
  refine ⟨rfl, BufferHeap.release_block _ _, ?_⟩
  have dropped : ∀ after : BufferHeap,
      (after.release self.data).count self.data = after.count self.data - 1 := by
    intro after
    unfold BufferHeap.release BufferHeap.recycle
    repeat' split
    all_goals exact Function.update_self _ _ _
  refine (dropped _).trans (Nat.sub_eq_of_eq_add ?_)
  exact Function.update_self _ _ _

end Buffer

open Buffer

variable {heap : BufferHeap} {others : Multiset Buffer} {self o : Buffer}

/-- A buffer that does not extend in place leaves its block to the others. -/
theorem Valid.addAtEnd_unshared (valid : Valid heap (self ::ₘ others))
    (garbage : Nat → Memory UInt8) {count : Nat}
    (allocates : self.getInternalSize + count + 19 < 2 ^ 32)
    (notInPlace : ¬ EndsInPlace heap self count) :
    ∀ other ∈ others, other.data ≠ (Buffer.addAtEnd garbage heap self count).2.data := by
  have sizeEq : wrap 32 (self.getInternalSize + (0 + count)) = self.getInternalSize + count := by
    rw [Nat.zero_add, wrap_of_lt (by omega)]
  rw [Buffer.addAtEnd, if_neg notInPlace]
  intro other held
  change other.data ≠ (heap.create garbage (wrap 32 (self.getInternalSize + (0 + count)))).1
  rw [sizeEq]
  exact (valid.create garbage allocates).unheld other (Multiset.mem_cons_of_mem held)

/-- Copying a buffer of another block into the gap at the end. -/
theorem Opens.writeBuffer {result : BufferHeap × Buffer}
    (opens : Opens heap others self 0 o.getSize result) (noZeroes : result.2.zeroSize = 0)
    (held : o ∈ others) (apart : o.data ≠ result.2.data) :
    ∃ written, (result.2.finish.prev o.getSize).write result.1 o.begin o.finish = some written ∧
      Changes heap others (self.content heap ++ o.content heap) (written.1, result.2) := by
  have shaped := opens.valid.shaped result.2 (Multiset.mem_cons_self _ _)
  have sourceShaped := opens.valid.shaped o (Multiset.mem_cons_of_mem held)
  have within := opens.backWithin
  have ends := shaped.internalEnd_add
  have asserts : (result.2.finish.prev o.getSize).WriteAsserts o.begin o.finish := by
    refine ⟨rfl, sourceShaped.front.trans (sourceShaped.zeroes.trans sourceShaped.back), rfl, rfl,
      apart.symm, ?_⟩
    intro i below above
    obtain ⟨front, zeroes, back, fits⟩ := shaped
    change i < wrap 32 (result.2.stop - o.getSize + o.getSize) at below
    change result.2.stop - o.getSize ≤ i at above
    rw [Nat.sub_add_cancel (by omega), wrap_of_lt fits] at below
    refine ⟨?_, ?_, below.le⟩
    · change result.2.start ≤ i
      omega
    · rintro ⟨-, inside⟩
      change i < result.2.zeroAreaEnd at inside
      omega
  have lengthEq : (o.content heap).length = o.getSize := sourceShaped.length_content
  have filled := opens.fillBack lengthEq
  rw [lengthEq] at filled
  have atEnd : result.2.getInternalEnd - o.getSize = result.2.stop - o.getSize := by omega
  have copied : (Iterator.RangeWrite.copyBack (.copyZeroArea (.copyFront
      ⟨result.1, result.2.finish.prev o.getSize, o.begin, o.getSize⟩))).heap =
      result.1.store result.2.data (result.2.stop - o.getSize) (o.content result.1) :=
    Iterator.RangeWrite.copy_content sourceShaped apart
  rw [opens.frame o held] at copied
  rw [atEnd, ← copied] at filled
  exact ⟨_, if_pos asserts, filled⟩

/-- The full copy can be extended, and the extension is not in the block of `o`. -/
theorem Valid.openFullCopy (valid : Valid heap (self ::ₘ others)) (garbage : Nat → Memory UInt8)
    (held : o ∈ others) (fits : FullCopyFits garbage heap self o)
    (apart : ¬ Collides heap self o) :
    let real := transformIntoRealBuffer garbage heap self
    Opens real.1 others real.2 0 o.getSize (Buffer.addAtEnd garbage real.1 real.2 o.getSize) ∧
      o.data ≠ (Buffer.addAtEnd garbage real.1 real.2 o.getSize).2.data := by
  intro real
  obtain ⟨peeked, noZeroes, fresh⟩ := valid.peekData garbage fun some => by
    have room := fits.2 some
    omega
  have realSize : real.2.getInternalSize ≤ self.getSize := by
    rw [← (valid.shaped self (Multiset.mem_cons_self _ _)).length_content, ← peeked.getSize]
    exact (peeked.valid.shaped _ (Multiset.mem_cons_self _ _)).internalSize_le
  by_cases none : self.zeroSize = 0
  · obtain ⟨realEq, blockEq, countEq⟩ :=
      transformIntoRealBuffer_of_noZeroes garbage heap none
    change real.2 = _ at realEq
    change real.1.block = _ at blockEq
    obtain ⟨stopFits, allocates⟩ := fits.1 none
    have realFits : real.2.stop + o.getSize < 2 ^ 32 := by
      rw [realEq]
      exact stopFits
    have realAllocates : real.2.getInternalSize + o.getSize + 19 < 2 ^ 32 := by
      rw [realEq]
      exact allocates
    have opens := peeked.valid.addAtEnd garbage realFits realAllocates
    refine ⟨opens, ?_⟩
    by_cases same : self.data = o.data
    · -- The others keep the block, for otherwise the buffer would extend in it.
      refine peeked.valid.addAtEnd_unshared garbage realAllocates (fun inPlace => ?_) o held
      apply apart
      refine ⟨none, same, ?_⟩
      change EndsInPlace real.1 real.2 o.getSize at inPlace
      rw [realEq] at inPlace
      unfold EndsInPlace at inPlace ⊢
      rw [blockEq, show real.1.count self.data = heap.count self.data from countEq] at inPlace
      exact inPlace
    · rcases opens.block with block | unshared
      · intro otherSame
        have realData : real.2.data = self.data := by rw [realEq]
        exact same ((otherSame.trans (block.trans realData)).symm)
      · exact unshared o held
  · obtain ⟨unshared, stopLe⟩ := fresh none
    have room := fits.2 none
    change real.2.stop ≤ _ at stopLe
    have opens := peeked.valid.addAtEnd garbage
      (show real.2.stop + o.getSize < 2 ^ 32 by omega)
      (show real.2.getInternalSize + o.getSize + 19 < 2 ^ 32 by omega)
    refine ⟨opens, ?_⟩
    rcases opens.block with block | unsharedAfter
    · exact fun otherSame => unshared o held (otherSame.trans block)
    · exact unsharedAfter o held

/-- The path that copies everything. -/
theorem Valid.addFullCopy (valid : Valid heap (self ::ₘ others)) (garbage : Nat → Memory UInt8)
    (held : o ∈ others) (fits : FullCopyFits garbage heap self o)
    (apart : ¬ Collides heap self o) :
    ∃ result, addFullCopy garbage heap self o = some result ∧
      Changes heap others (self.content heap ++ o.content heap) result := by
  obtain ⟨opens, different⟩ := valid.openFullCopy garbage held fits apart
  obtain ⟨peeked, noZeroes, _⟩ := valid.peekData garbage fun some => by
    have room := fits.2 some
    omega
  obtain ⟨written, writes, changes⟩ :=
    opens.writeBuffer (opens.zeroSize.trans noZeroes) held different
  have content : (transformIntoRealBuffer garbage heap self).2.content
      (transformIntoRealBuffer garbage heap self).1 = self.content heap := peeked.content
  have source : o.content (transformIntoRealBuffer garbage heap self).1 = o.content heap :=
    peeked.frame o held
  rw [content, source] at changes
  refine ⟨_, ?_, peeked.trans changes⟩
  unfold Buffer.addFullCopy
  dsimp only
  rw [writes]
  rfl

/-- The zero area grows by the one of `o`. -/
theorem Valid.joinZeroArea (valid : Valid heap (self ::ₘ others)) (adjacent : Adjacent heap self o)
    (last : o.stop = o.zeroAreaEnd) (fits : self.stop + o.zeroSize < 2 ^ 32) :
    Changes heap others (self.content heap ++ o.content heap) (joinZeroArea heap self o) := by
  obtain ⟨single, atEnd, _, atStart, _⟩ := adjacent
  have held : self ∈ self ::ₘ others := Multiset.mem_cons_self _ _
  have alone : ∀ other ∈ others, other.data ≠ self.data :=
    fun other => valid.alone (show ¬ 1 < heap.count self.data by omega)
  have room := valid.room self held
  have shaped := valid.shaped self held
  have ends := shaped.internalEnd
  obtain ⟨front, zeroes, _, _⟩ := shaped
  have grownShaped : ({ self with
      zeroAreaEnd := self.zeroAreaEnd + o.zeroSize
      stop := self.zeroAreaEnd + o.zeroSize } : Buffer).Shaped :=
    ⟨front, zeroes.trans (Nat.le_add_right _ _), le_rfl, by dsimp only; omega⟩
  have grownEnd := grownShaped.internalEnd
  have grownAdd := grownShaped.internalEnd_add
  dsimp only at grownEnd
  unfold Buffer.joinZeroArea
  rw [wrap_of_lt (show self.zeroAreaEnd + o.zeroSize < 2 ^ 32 by omega)]
  dsimp only
  refine ⟨valid.redirty rfl grownShaped ?_ (valid.front self held) ?_ ?_ ?_, ?_, ?_⟩
  · refine grownEnd.trans_le ?_
    omega
  · rw [Nat.add_comm, grownAdd]
  · exact fun other otherHeld same => absurd same (alone other otherHeld)
  · exact fun other otherHeld same => absurd same (alone other otherHeld)
  · have zeroSizeEq : self.zeroAreaEnd + o.zeroSize - self.zeroAreaStart =
        self.zeroSize + o.zeroSize := Nat.sub_add_comm zeroes
    rw [content_setDirty]
    simp only [content, Buffer.zeroSize, Nat.sub_self, Memory.read_zero, List.append_nil, last,
      atStart, atEnd, List.nil_append, List.append_assoc] at zeroSizeEq ⊢
    rw [zeroSizeEq, List.replicate_append_replicate]
  · exact fun other _ => content_setDirty heap other _ _ _

/-- The path for adjacent zero areas where nothing follows them. -/
theorem Valid.addAdjacent (valid : Valid heap (self ::ₘ others)) (garbage : Nat → Memory UInt8)
    (held : o ∈ others) (adjacent : Adjacent heap self o) (last : o.stop = o.zeroAreaEnd)
    (fits : self.stop + o.zeroSize < 2 ^ 32) :
    ∃ result, addAdjacent garbage heap self o = some result ∧
      Changes heap others (self.content heap ++ o.content heap) result := by
  have joined := valid.joinZeroArea adjacent last fits
  have apart : o.data ≠ self.data :=
    valid.alone (show ¬ 1 < heap.count self.data by rw [adjacent.1]; decide) held
  have inPlace : EndsInPlace (Buffer.joinZeroArea heap self o).1
      (Buffer.joinZeroArea heap self o).2 0 := by
    refine ⟨(wrap_le _ _).trans (joined.valid.room _ (Multiset.mem_cons_self _ _)), ?_⟩
    rintro ⟨shared, -⟩
    change 1 < heap.count self.data at shared
    rw [adjacent.1] at shared
    exact Nat.lt_irrefl 1 shared
  have opens := (joined.valid.endInPlace inPlace
    (joined.valid.shaped _ (Multiset.mem_cons_self _ _)).fits).noteZeroArea
  rw [Nat.add_zero] at opens
  have filled := opens.fillBack List.length_nil
  rw [BufferHeap.store_nil, List.append_nil, joined.content] at filled
  refine ⟨_, ?_, joined.trans filled⟩
  have nothing : o.stop - o.zeroAreaEnd = 0 := by omega
  unfold Buffer.addAdjacent Buffer.addAtEnd
  dsimp only
  rw [nothing, if_pos inPlace, Nat.add_zero]
  have asserts : ∀ target : Iterator, target.data = self.data →
      target.WriteAsserts (o.finish.prev 0) o.finish := by
    intro target data
    refine ⟨rfl, le_rfl, rfl, rfl, data.trans_ne apart.symm, fun i below above => ?_⟩
    change i < wrap 32 (target.current + (o.stop - o.stop)) at below
    rw [Nat.sub_self, Nat.add_zero] at below
    exact absurd ((wrap_le _ _).trans above) (Nat.not_le.mpr below)
  rw [Iterator.RangeWrite.write_nothing (asserts _ rfl) (Nat.sub_self _)]
  rfl

/-- Joining two buffers where neither of the two failures occurs. -/
theorem Valid.addAtEndBuffer (valid : Valid heap (self ::ₘ others)) (garbage : Nat → Memory UInt8)
    (held : o ∈ others) (fits : ConcatenationFits garbage heap self o)
    (placed : ¬ Misplaces heap self o) (apart : ¬ Collides heap self o) :
    ∃ result, addAtEndBuffer garbage heap self o = some result ∧
      Changes heap others (self.content heap ++ o.content heap) result := by
  unfold Buffer.addAtEndBuffer
  split
  next adjacent =>
    have last : o.stop = o.zeroAreaEnd :=
      ((valid.shaped o (Multiset.mem_cons_of_mem held)).back.antisymm
        (not_lt.mp fun after => placed ⟨adjacent, after⟩)).symm
    exact valid.addAdjacent garbage held adjacent last (fits.1 adjacent)
  next other => exact valid.addFullCopy garbage held (fits.2 other) apart

/-- The calls on a pool of buffers: its operations and joining two buffers. -/
inductive BufferCall where
  | plain (action : BufferAction)
  | addAtEndBuffer (i j : Nat)
  deriving DecidableEq, Repr

namespace BufferPool

variable (garbage : Nat → Memory UInt8)

/-- The pool after a call; a failed assertion stops the program, which is left
as it was. -/
def call (pool : BufferPool) : BufferCall → BufferPool
  | .plain action => pool.step garbage action
  | .addAtEndBuffer i j =>
      match pool.buffers[i]?, pool.buffers[j]? with
      | some self, some o =>
          match Buffer.addAtEndBuffer garbage pool.heap self o with
          | some result => pool.put i result
          | none => pool
      | _, _ => pool

/-- The same call on independent byte lists. -/
def callBytes (model : List (List UInt8)) : BufferCall → List (List UInt8)
  | .plain action => stepBytes model action
  | .addAtEndBuffer i j => model.set i (model.getD i [] ++ model.getD j [])

/-- A condition on two buffers of the pool. -/
def HasPair (pool : BufferPool) (i j : Nat) (Property : Buffer → Buffer → Prop) : Prop :=
  pool.Has i fun self => pool.Has j fun o => Property self o

instance {pool : BufferPool} {i j : Nat} {Property : Buffer → Buffer → Prop}
    [∀ self, DecidablePred (Property self)] : Decidable (pool.HasPair i j Property) :=
  inferInstanceAs (Decidable (pool.Has i fun self => pool.Has j fun o => Property self o))

/-- Two different buffers are joined. -/
def Callable (pool : BufferPool) : BufferCall → Prop
  | .plain action => pool.Enabled action
  | .addAtEndBuffer i j => i ≠ j ∧ pool.HasPair i j fun _ _ => True

instance (pool : BufferPool) : ∀ call, Decidable (pool.Callable call)
  | .plain action => inferInstanceAs (Decidable (pool.Enabled action))
  | .addAtEndBuffer i j => inferInstanceAs (Decidable (i ≠ j ∧ pool.HasPair i j fun _ _ => True))

/-- The two buffers can be joined: no offset passes 32 bits, and neither failure
occurs. -/
def Joinable (heap : BufferHeap) (self o : Buffer) : Prop :=
  ConcatenationFits garbage heap self o ∧ ¬ Misplaces heap self o ∧ ¬ Collides heap self o

instance (heap : BufferHeap) (self o : Buffer) : Decidable (Joinable garbage heap self o) :=
  inferInstanceAs (Decidable (_ ∧ ¬ _ ∧ ¬ _))

/-- The condition under which a call does what it should. -/
def Sound (pool : BufferPool) : BufferCall → Prop
  | .plain action => pool.Fits garbage action
  | .addAtEndBuffer i j => pool.HasPair i j (Joinable garbage pool.heap)

instance (pool : BufferPool) : ∀ call, Decidable (pool.Sound garbage call)
  | .plain action => inferInstanceAs (Decidable (pool.Fits garbage action))
  | .addAtEndBuffer i j => inferInstanceAs (Decidable (pool.HasPair i j _))

/-- A pool beside the byte lists it should stand for, with joining. -/
def callMachine : Machine (BufferPool × List (List UInt8)) BufferCall where
  step state call := (state.1.call garbage call, callBytes state.2 call)
  Enabled state call := state.1.Callable call

instance : ∀ state call, Decidable ((callMachine garbage).Enabled state call) :=
  fun state call => inferInstanceAs (Decidable (state.1.Callable call))

/-- What `AddAtEnd (const Buffer &o)` should do with two buffers of a pool: the
program goes on, the buffer becomes the concatenation, every other buffer keeps
its bytes, and so it is on the path that copies everything. -/
structure Concatenates (pool : BufferPool) (i : Nat) (buffer o : Buffer) : Prop where
  joined : ∃ result, Buffer.addAtEndBuffer garbage pool.heap buffer o = some result ∧
    result.2.content result.1 = buffer.content pool.heap ++ o.content pool.heap ∧
    result.2.CheckInternalState result.1 ∧
    ∀ k other, k ≠ i → pool.buffers[k]? = some other →
      other.content result.1 = other.content pool.heap
  copied : FullCopyFits garbage pool.heap buffer o →
    ∃ result, Buffer.addFullCopy garbage pool.heap buffer o = some result ∧
      result.2.content result.1 = buffer.content pool.heap ++ o.content pool.heap ∧
      ∀ k other, k ≠ i → pool.buffers[k]? = some other →
        other.content result.1 = other.content pool.heap

variable {garbage} {pool : BufferPool} {model : List (List UInt8)}

theorem HasPair.found {i j : Nat} {Property : Buffer → Buffer → Prop}
    (has : pool.HasPair i j Property) :
    ∃ self o, pool.buffers[i]? = some self ∧ pool.buffers[j]? = some o ∧ Property self o := by
  obtain ⟨self, found, rest⟩ := Has.found has
  obtain ⟨o, foundOther, property⟩ := Has.found rest
  exact ⟨self, o, found, foundOther, property⟩

/-- Another buffer of the pool is among the others. -/
theorem mem_others {i k : Nat} {other : Buffer} (different : k ≠ i)
    (found : pool.buffers[k]? = some other) :
    other ∈ (pool.buffers.eraseIdx i : Multiset Buffer) :=
  List.mem_eraseIdx_iff_getElem?.mpr ⟨k, different, found⟩

/-- Every call keeps the pool beside its byte lists. -/
theorem Stands.call (stands : Stands pool model) {call : BufferCall}
    (callable : pool.Callable call) (sound : pool.Sound garbage call) :
    Stands (pool.call garbage call) (callBytes model call) := by
  cases call with
  | plain action => exact stands.step callable sound
  | addAtEndBuffer i j =>
      obtain ⟨self, o, found, foundOther, fits, placed, apart⟩ := HasPair.found sound
      obtain ⟨result, joined, changes⟩ := (stands.operand found).addAtEndBuffer garbage
        (mem_others callable.1.symm foundOther) fits placed apart
      simp only [BufferPool.call, callBytes, found, foundOther, joined, stands.getD found,
        stands.getD foundOther]
      exact stands.put found changes

theorem Stands.concatenates (stands : Stands pool model) {i j : Nat} {self o : Buffer}
    (different : i ≠ j) (found : pool.buffers[i]? = some self)
    (foundOther : pool.buffers[j]? = some o) (joinable : Joinable garbage pool.heap self o) :
    Concatenates garbage pool i self o := by
  obtain ⟨fits, placed, apart⟩ := joinable
  have operand := stands.operand found
  have held := mem_others different.symm foundOther
  constructor
  · obtain ⟨result, joined, changes⟩ := operand.addAtEndBuffer garbage held fits placed apart
    exact ⟨result, joined, changes.content,
      changes.valid.checkInternalState (Multiset.mem_cons_self _ _),
      fun k other apart foundThird => changes.frame other (mem_others apart foundThird)⟩
  · intro copyFits
    obtain ⟨result, copied, changes⟩ := operand.addFullCopy garbage held copyFits apart
    exact ⟨result, copied, changes.content,
      fun k other apart foundThird => changes.frame other (mem_others apart foundThird)⟩

/-- All pairs of buffers of the pool that meet the condition are joined as they
should be. -/
def Joins (garbage : Nat → Memory UInt8) (Condition : BufferHeap → Buffer → Buffer → Prop)
    (state : BufferPool × List (List UInt8)) : Prop :=
  ∀ i j self o, i ≠ j → state.1.buffers[i]? = some self → state.1.buffers[j]? = some o →
    Condition state.1.heap self o → Concatenates garbage state.1 i self o

/-- In every run whose calls meet the condition, two buffers of the pool that
meet it are joined to their concatenation. -/
theorem bufferPool_concatenates (garbage : Nat → Memory UInt8) (calls : List BufferCall)
    (legal : (callMachine garbage).Legal (empty, []) calls)
    (sound : (callMachine garbage).Along (fun state call => state.1.Sound garbage call)
      (empty, []) calls) :
    (callMachine garbage).Always (Joins garbage (Joinable garbage)) (empty, []) calls := by
  have always : (callMachine garbage).Always (fun state => Stands state.1 state.2)
      (empty, []) calls :=
    Machine.Legal.always_of_along
      (fun state call stands callable sound => Stands.call stands callable sound)
      Stands.empty legal sound
  refine always.mono fun state stands => ?_
  intro i j self o different found foundOther joinable
  exact stands.concatenates different found foundOther joinable

/-- Joining adjacent zero areas, a zero area to data, and a buffer to a copy of
itself. -/
theorem bufferPool_concatenates_short_run :
    (callMachine fun _ _ => 0).Always (Joins (fun _ _ => 0) (Joinable fun _ _ => 0)) (empty, [])
      [.plain (.construct 3), .plain (.construct 2), .addAtEndBuffer 0 1,
        .plain (.addAtStart 1 [5]), .addAtEndBuffer 0 1, .plain (.copy 1), .addAtEndBuffer 1 2] :=
  bufferPool_concatenates _ _ (by decide) (by decide +kernel)

/-- A byte behind the zero area of the second buffer is lost when the zero areas
meet. -/
theorem bufferPool_misplaces :
    (callMachine fun _ _ => 0).Legal (empty, [])
        [.plain (.construct 1), .plain (.construct 1), .plain (.addAtEnd 1 [7])] ∧
      ¬ (callMachine fun _ _ => 0).Always (Joins (fun _ _ => 0) fun _ _ _ => True) (empty, [])
        [.plain (.construct 1), .plain (.construct 1), .plain (.addAtEnd 1 [7])] := by
  refine ⟨by decide, fun always => ?_⟩
  have concatenates := always.last 0 1 ⟨0, 0, 0, 1, 0, 1⟩ ⟨1, 0, 0, 1, 0, 2⟩ (by decide)
    (by decide) (by decide) trivial
  obtain ⟨result, joined, content, _⟩ := concatenates.joined
  have size : ∀ joined ∈ Buffer.addAtEndBuffer (fun _ _ => 0)
      ((callMachine fun _ _ => 0).run (empty, [])
        [.plain (.construct 1), .plain (.construct 1), .plain (.addAtEnd 1 [7])]).1.heap
      ⟨0, 0, 0, 1, 0, 1⟩ ⟨1, 0, 0, 1, 0, 2⟩, joined.2.content joined.1 = [0, 0, 0] := by
    decide
  rw [size result joined] at content
  revert content
  decide

end BufferPool

end Ns3.Network
