import Ns3.Network.Buffer.Content
import Mathlib.Data.Multiset.Filter

/-!
The invariant that lets buffers share blocks.

All offsets of the dirty area count the zero area of the buffer that set them,
so the end of the dirty area has to clear the zero area of every holder of the
block together with the data of every holder. A buffer whose end is the end of
the dirty area is then the one whose data reaches furthest, and what lies after
it belongs to nobody. Every operation is described by what it does to its
operand and by the contents of the other holders, which stay as they are.
-/

namespace Ns3.Network

open Library

/-- The invariant of the blocks for the buffers that hold them. -/
structure Valid (heap : BufferHeap) (holders : Multiset Buffer) : Prop where
  counted : heap.shared.Counted (holders.map Buffer.data)
  shaped : ∀ buffer ∈ holders, buffer.Shaped
  front : ∀ buffer ∈ holders, (heap.block buffer.data).dirtyStart ≤ buffer.start
  room : ∀ buffer ∈ holders, buffer.getInternalEnd ≤ (heap.block buffer.data).size
  back : ∀ buffer ∈ holders, ∀ other ∈ holders, buffer.data = other.data →
    buffer.zeroSize + other.getInternalEnd ≤ (heap.block buffer.data).dirtyEnd
  allocated : ∀ address, (heap.block address).size ≤ (heap.block address).capacity

/-- The operand of an operation, its new content and the other holders. -/
structure Changes (heap : BufferHeap) (others : Multiset Buffer) (bytes : List UInt8)
    (result : BufferHeap × Buffer) : Prop where
  valid : Valid result.1 (result.2 ::ₘ others)
  content : result.2.content result.1 = bytes
  frame : ∀ other ∈ others, other.content result.1 = other.content heap

namespace BufferHeap

@[simp]
theorem set_block_self (heap : BufferHeap) (address : Nat) (block : BufferData) :
    (heap.set address block).block address = block :=
  heap.shared.set_block_self address block

theorem set_block_of_ne (heap : BufferHeap) {address other : Nat} (block : BufferData)
    (different : other ≠ address) : (heap.set address block).block other = heap.block other :=
  heap.shared.set_block_of_ne block different

theorem store_nil (heap : BufferHeap) (address offset : Nat) :
    heap.store address offset [] = heap := by
  rw [store, Memory.write_nil]
  exact congrArg (fun shared => { heap with shared }) (heap.shared.set_block address)

/-- Two stores in a row are one. -/
theorem store_store (heap : BufferHeap) (address offset : Nat) (front back : List UInt8) :
    (heap.store address offset front).store address (offset + front.length) back =
      heap.store address offset (front ++ back) := by
  simp only [store, set_block_self]
  rw [Memory.write_append]
  exact congrArg (fun shared => { heap with shared }) (heap.shared.set_set address _ _)

@[simp]
theorem setDirty_data (heap : BufferHeap) (address dirtyStart dirtyEnd other : Nat) :
    ((heap.setDirty address dirtyStart dirtyEnd).block other).data = (heap.block other).data := by
  rcases eq_or_ne other address with rfl | different
  · rw [setDirty, set_block_self]
  · rw [setDirty, set_block_of_ne _ _ different]

@[simp]
theorem setDirty_capacity (heap : BufferHeap) (address dirtyStart dirtyEnd other : Nat) :
    ((heap.setDirty address dirtyStart dirtyEnd).block other).capacity =
      (heap.block other).capacity := by
  rcases eq_or_ne other address with rfl | different
  · rw [setDirty, set_block_self]
  · rw [setDirty, set_block_of_ne _ _ different]

@[simp]
theorem setDirty_size (heap : BufferHeap) (address dirtyStart dirtyEnd other : Nat) :
    ((heap.setDirty address dirtyStart dirtyEnd).block other).size = (heap.block other).size := by
  rcases eq_or_ne other address with rfl | different
  · rw [setDirty, set_block_self]
  · rw [setDirty, set_block_of_ne _ _ different]

theorem setDirty_dirty_self (heap : BufferHeap) (address dirtyStart dirtyEnd : Nat) :
    ((heap.setDirty address dirtyStart dirtyEnd).block address).dirtyStart = dirtyStart ∧
      ((heap.setDirty address dirtyStart dirtyEnd).block address).dirtyEnd = dirtyEnd := by
  rw [setDirty, set_block_self]
  exact ⟨rfl, rfl⟩

theorem setDirty_block_of_ne (heap : BufferHeap) {address other : Nat} (dirtyStart dirtyEnd : Nat)
    (different : other ≠ address) :
    (heap.setDirty address dirtyStart dirtyEnd).block other = heap.block other :=
  heap.set_block_of_ne _ different

/-- Giving up a holder changes no block. -/
theorem release_block (heap : BufferHeap) (address : Nat) :
    (heap.release address).block = heap.block := by
  unfold release recycle
  repeat' split
  all_goals rfl

theorem release_counted {heap : BufferHeap} {address : Nat} {holders : Multiset Nat}
    (counted : heap.shared.Counted (address ::ₘ holders)) :
    (heap.release address).shared.Counted holders := by
  have dropped := counted.drop
  unfold release recycle
  split
  next unheld =>
    split
    next => exact dropped
    next =>
      refine dropped.recycle (counted.known address (Multiset.mem_cons_self _ _)) ?_ ?_
      · rw [← Multiset.count_eq_zero, ← dropped.counts]
        exact unheld
      · exact fun waits => counted.freeUnheld address waits (Multiset.mem_cons_self _ _)
  next => exact dropped

end BufferHeap

namespace Buffer

theorem content_setDirty (heap : BufferHeap) (self : Buffer) (address dirtyStart dirtyEnd : Nat) :
    self.content (heap.setDirty address dirtyStart dirtyEnd) = self.content heap := by
  simp only [content, BufferHeap.setDirty_data]

theorem content_release (heap : BufferHeap) (self : Buffer) (address : Nat) :
    self.content (heap.release address) = self.content heap := by
  simp only [content, BufferHeap.release_block]

theorem content_of_block {heap after : BufferHeap} {self : Buffer}
    (same : after.block self.data = heap.block self.data) :
    self.content after = self.content heap := by
  simp only [content, same]

/-- A store outside the window of a buffer does not show in it. -/
theorem content_store_of_outside {heap : BufferHeap} {self : Buffer} (shaped : self.Shaped)
    {address offset : Nat} {bytes : List UInt8}
    (outside : 0 < bytes.length → self.data = address →
      offset + bytes.length ≤ self.start ∨ self.getInternalEnd ≤ offset) :
    self.content (heap.store address offset bytes) = self.content heap := by
  rcases eq_or_ne self.data address with rfl | different
  · simp only [content, BufferHeap.store, BufferHeap.set_block_self]
    rcases Nat.eq_zero_or_pos bytes.length with none | some
    · rw [List.length_eq_zero_iff.mp none, Memory.write_nil]
    · have disjoint := outside some rfl
      rw [shaped.internalEnd] at disjoint
      have front := shaped.front
      rw [Memory.read_write_of_disjoint _ (by omega), Memory.read_write_of_disjoint _ (by omega)]
  · exact content_of_block (BufferHeap.set_block_of_ne _ _ different)

end Buffer

open Buffer

variable {heap : BufferHeap} {others : Multiset Buffer} {self : Buffer}

theorem Valid.empty : Valid BufferHeap.empty 0 where
  counted := SharedHeap.Counted.empty _
  shaped := by simp
  front := by simp
  room := by simp
  back := by simp
  allocated _ := Nat.le_refl 0

/-- A store changes nothing but bytes. -/
theorem store_fields (heap : BufferHeap) (address offset : Nat) (bytes : List UInt8)
    (other : Nat) :
    ∃ data, (heap.store address offset bytes).block other =
      { heap.block other with data := data } := by
  rcases eq_or_ne other address with rfl | different
  · exact ⟨_, by rw [BufferHeap.store, BufferHeap.set_block_self]⟩
  · exact ⟨_, by rw [BufferHeap.store, BufferHeap.set_block_of_ne _ _ different]⟩

theorem Valid.store (valid : Valid heap others) (address offset : Nat) (bytes : List UInt8) :
    Valid (heap.store address offset bytes) others := by
  have fields := store_fields heap address offset bytes
  refine ⟨valid.counted.set _ _, valid.shaped, ?_, ?_, ?_, ?_⟩
  · intro buffer held
    obtain ⟨data, blockEq⟩ := fields buffer.data
    rw [blockEq]
    exact valid.front buffer held
  · intro buffer held
    obtain ⟨data, blockEq⟩ := fields buffer.data
    rw [blockEq]
    exact valid.room buffer held
  · intro buffer held other otherHeld same
    obtain ⟨data, blockEq⟩ := fields buffer.data
    rw [blockEq]
    exact valid.back buffer held other otherHeld same
  · intro other
    obtain ⟨data, blockEq⟩ := fields other
    rw [blockEq]
    exact valid.allocated other

/-- A block with at most one holder belongs to its buffer alone. -/
theorem Valid.alone (valid : Valid heap (self ::ₘ others)) (few : ¬ 1 < heap.count self.data)
    {other : Buffer} (held : other ∈ others) : other.data ≠ self.data := by
  intro same
  apply few
  have twice : 0 < (others.map Buffer.data).count self.data :=
    Multiset.count_pos.mpr (Multiset.mem_map.mpr ⟨other, held, same⟩)
  have counts := valid.counted.counts self.data
  rw [Multiset.map_cons, Multiset.count_cons_self] at counts
  change heap.count self.data = _ at counts
  omega

theorem Valid.checkInternalState (valid : Valid heap others) (held : self ∈ others) :
    self.CheckInternalState heap := by
  have shaped := valid.shaped self held
  have room := valid.room self held
  have back := valid.back self held self held rfl
  rw [Nat.add_comm, shaped.internalEnd_add] at back
  have startLe := shaped.start_le_internalEnd
  refine ⟨⟨shaped.front, shaped.zeroes, shaped.back⟩, ⟨valid.front self held, back⟩,
    ⟨room, startLe.trans room, ?_⟩, ?_⟩
  · rw [shaped.internalEnd] at room
    exact (Nat.le_add_right _ _).trans room
  · change 0 < heap.shared.count self.data
    rw [valid.counted.counts]
    exact Multiset.count_pos.mpr (Multiset.mem_map_of_mem _ held)

/-- One operation after the other. -/
theorem Changes.trans {bytes after : List UInt8} {result next : BufferHeap × Buffer}
    (first : Changes heap others bytes result) (second : Changes result.1 others after next) :
    Changes heap others after next :=
  ⟨second.valid, second.content, fun other held =>
    (second.frame other held).trans (first.frame other held)⟩

theorem Changes.getSize {bytes : List UInt8} {result : BufferHeap × Buffer}
    (changes : Changes heap others bytes result) : result.2.getSize = bytes.length := by
  rw [← changes.content, (changes.valid.shaped _ (Multiset.mem_cons_self _ _)).length_content]

/-- The holders may change into ones that take up no more of the same blocks. -/
theorem Valid.of_within (valid : Valid heap others) {after : BufferHeap}
    {holders : Multiset Buffer} (counted : after.shared.Counted (holders.map Buffer.data))
    (block : after.block = heap.block)
    (within : ∀ buffer ∈ holders, ∃ old ∈ others, buffer.Within old) : Valid after holders where
  counted := counted
  shaped buffer held := by
    obtain ⟨old, _, within⟩ := within buffer held
    exact within.shaped
  front buffer held := by
    obtain ⟨old, oldHeld, within⟩ := within buffer held
    rw [block, within.data]
    exact (valid.front old oldHeld).trans within.start
  room buffer held := by
    obtain ⟨old, oldHeld, within⟩ := within buffer held
    rw [block, within.data]
    exact within.internalEnd.trans (valid.room old oldHeld)
  back buffer held other otherHeld same := by
    obtain ⟨old, oldHeld, oldWithin⟩ := within buffer held
    obtain ⟨next, nextHeld, nextWithin⟩ := within other otherHeld
    have sameOld : old.data = next.data := oldWithin.data.symm.trans (same.trans nextWithin.data)
    rw [block, oldWithin.data]
    exact (Nat.add_le_add oldWithin.zeroSize nextWithin.internalEnd).trans
      (valid.back old oldHeld next nextHeld sameOld)
  allocated address := by
    rw [block]
    exact valid.allocated address

/-- The counts do not change when the operand stays in its block. -/
theorem Valid.counted_of_data (valid : Valid heap (self ::ₘ others)) {new : Buffer}
    (data : new.data = self.data) :
    heap.shared.Counted ((new ::ₘ others).map Buffer.data) := by
  rw [Multiset.map_cons, data, ← Multiset.map_cons]
  exact valid.counted

/-- The operand keeps to its part of the block. -/
theorem Valid.shorten (valid : Valid heap (self ::ₘ others)) {new : Buffer}
    {bytes : List UInt8} (shortened : Shortened heap self new bytes) :
    Changes heap others bytes (heap, new) := by
  refine ⟨valid.of_within (valid.counted_of_data shortened.data) rfl ?_, shortened.content,
    fun _ _ => rfl⟩
  intro buffer held
  rcases Multiset.mem_cons.mp held with rfl | before
  · exact ⟨self, Multiset.mem_cons_self _ _, shortened.toWithin⟩
  · have keeps : buffer ∈ self ::ₘ others := Multiset.mem_cons_of_mem before
    exact ⟨buffer, keeps, (valid.shaped buffer keeps).within⟩

/-- A further holder, or none, of the same blocks. -/
theorem Valid.of_block (valid : Valid heap others) {after : BufferHeap}
    {holders : Multiset Buffer} (counted : after.shared.Counted (holders.map Buffer.data))
    (block : after.block = heap.block) (known : ∀ buffer ∈ holders, buffer ∈ others) :
    Valid after holders :=
  valid.of_within counted block fun buffer held =>
    ⟨buffer, known buffer held, (valid.shaped buffer (known buffer held)).within⟩

/-- The operand takes up another part of its block, and the dirty area is set to
match it. -/
theorem Valid.redirty (valid : Valid heap (self ::ₘ others)) {new : Buffer}
    {dirtyStart dirtyEnd : Nat} (data : new.data = self.data) (shaped : new.Shaped)
    (room : new.getInternalEnd ≤ (heap.block self.data).size) (front : dirtyStart ≤ new.start)
    (back : new.zeroSize + new.getInternalEnd ≤ dirtyEnd)
    (frontOthers : ∀ other ∈ others, other.data = self.data → dirtyStart ≤ other.start)
    (backOthers : ∀ other ∈ others, other.data = self.data →
      new.zeroSize + other.getInternalEnd ≤ dirtyEnd ∧
        other.zeroSize + new.getInternalEnd ≤ dirtyEnd ∧
        ∀ next ∈ others, next.data = self.data →
          other.zeroSize + next.getInternalEnd ≤ dirtyEnd) :
    Valid (heap.setDirty self.data dirtyStart dirtyEnd) (new ::ₘ others) := by
  have keeps : ∀ other ∈ others, other ∈ self ::ₘ others := fun _ => Multiset.mem_cons_of_mem
  obtain ⟨dirtyStartEq, dirtyEndEq⟩ := heap.setDirty_dirty_self self.data dirtyStart dirtyEnd
  refine ⟨(valid.counted_of_data data).set _ _, ?_, ?_, ?_, ?_, ?_⟩
  · intro buffer held
    rcases Multiset.mem_cons.mp held with rfl | before
    · exact shaped
    · exact valid.shaped buffer (keeps buffer before)
  · intro buffer held
    rcases Multiset.mem_cons.mp held with rfl | before
    · rw [data, dirtyStartEq]
      exact front
    · rcases eq_or_ne buffer.data self.data with same | different
      · rw [same, dirtyStartEq]
        exact frontOthers buffer before same
      · rw [heap.setDirty_block_of_ne _ _ different]
        exact valid.front buffer (keeps buffer before)
  · intro buffer held
    rw [BufferHeap.setDirty_size]
    rcases Multiset.mem_cons.mp held with rfl | before
    · rw [data]
      exact room
    · exact valid.room buffer (keeps buffer before)
  · intro buffer held other otherHeld same
    rcases Multiset.mem_cons.mp held with rfl | before
    · rw [data, dirtyEndEq]
      rcases Multiset.mem_cons.mp otherHeld with rfl | otherBefore
      · exact back
      · exact (backOthers other otherBefore (same.symm.trans data)).1
    · rcases eq_or_ne buffer.data self.data with sameBlock | different
      · rw [sameBlock, dirtyEndEq]
        rcases Multiset.mem_cons.mp otherHeld with rfl | otherBefore
        · exact (backOthers buffer before sameBlock).2.1
        · exact (backOthers buffer before sameBlock).2.2 other otherBefore
            (same.symm.trans sameBlock)
      · rw [heap.setDirty_block_of_ne _ _ different]
        rcases Multiset.mem_cons.mp otherHeld with rfl | otherBefore
        · exact absurd (same.trans data) different
        · exact valid.back buffer (keeps buffer before) other (keeps other otherBefore) same
  · intro address
    rw [BufferHeap.setDirty_size, BufferHeap.setDirty_capacity]
    exact valid.allocated address

end Ns3.Network
