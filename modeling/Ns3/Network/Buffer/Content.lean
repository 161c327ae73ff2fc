import Ns3.Network.Buffer.Kernel

/-!
The bytes of a buffer.

`content` is what a buffer stands for. The lemmas here say how it splits at the
two ends, what `RemoveAtStart` and `RemoveAtEnd` do to it, and that `CopyData`
returns it.
-/

namespace Ns3.Network

open Library

namespace Buffer

/-- The bytes of the buffer: data, virtual zeroes, data. -/
def content (heap : BufferHeap) (self : Buffer) : List UInt8 :=
  (heap.block self.data).data.read self.start (self.zeroAreaStart - self.start) ++
    (List.replicate self.zeroSize 0 ++
      (heap.block self.data).data.read self.zeroAreaStart (self.stop - self.zeroAreaEnd))

/-- The offsets of a buffer are in order and fit in 32 bits. -/
structure Shaped (buffer : Buffer) : Prop where
  front : buffer.start ≤ buffer.zeroAreaStart
  zeroes : buffer.zeroAreaStart ≤ buffer.zeroAreaEnd
  back : buffer.zeroAreaEnd ≤ buffer.stop
  fits : buffer.stop < 2 ^ 32

variable {heap : BufferHeap} {self : Buffer}

theorem Shaped.internalEnd (shaped : self.Shaped) :
    self.getInternalEnd = self.zeroAreaStart + (self.stop - self.zeroAreaEnd) := by
  have := shaped.zeroes
  have := shaped.back
  rw [getInternalEnd, zeroSize]
  omega

theorem Shaped.internalEnd_add (shaped : self.Shaped) :
    self.getInternalEnd + self.zeroSize = self.stop := by
  have := shaped.zeroes
  have := shaped.back
  rw [getInternalEnd, zeroSize]
  omega

theorem Shaped.start_le_internalEnd (shaped : self.Shaped) :
    self.start ≤ self.getInternalEnd := by
  rw [shaped.internalEnd]
  exact shaped.front.trans (Nat.le_add_right _ _)

/-- What is before the zero area, the zero area, and what is behind it. -/
theorem Shaped.getSize_eq (shaped : self.Shaped) :
    self.getSize = self.zeroAreaStart - self.start + self.zeroSize +
      (self.stop - self.zeroAreaEnd) := by
  rw [zeroSize, Nat.add_comm (_ - _), Nat.sub_add_sub_cancel shaped.zeroes shaped.front,
    Nat.add_comm, Nat.sub_add_sub_cancel shaped.back (shaped.front.trans shaped.zeroes), getSize]

theorem Shaped.internalSize_le (shaped : self.Shaped) : self.getInternalSize ≤ self.getSize := by
  have := shaped.front
  have := shaped.zeroes
  have := shaped.back
  rw [getInternalSize, getSize]
  omega

theorem Shaped.length_content (shaped : self.Shaped) :
    (self.content heap).length = self.getSize := by
  have := shaped.front
  have := shaped.zeroes
  have := shaped.back
  simp only [content, List.length_append, Memory.length_read, List.length_replicate, getSize,
    zeroSize]
  omega

theorem content_split_front {count : Nat} (within : self.start + count ≤ self.zeroAreaStart) :
    self.content heap = (heap.block self.data).data.read self.start count ++
      ({ self with start := self.start + count }).content heap := by
  have lengthEq : self.zeroAreaStart - self.start =
      count + (self.zeroAreaStart - (self.start + count)) := by omega
  rw [content, lengthEq, Memory.read_add, List.append_assoc]
  rfl

theorem content_split_back (shaped : self.Shaped) {count : Nat}
    (within : self.zeroAreaEnd + count ≤ self.stop) :
    self.content heap = ({ self with stop := self.stop - count }).content heap ++
      (heap.block self.data).data.read (self.getInternalEnd - count) count := by
  have lengthEq : self.stop - self.zeroAreaEnd =
      self.stop - count - self.zeroAreaEnd + count := by omega
  have offsetEq : self.getInternalEnd - count =
      self.zeroAreaStart + (self.stop - count - self.zeroAreaEnd) := by
    rw [shaped.internalEnd]
    omega
  rw [content, lengthEq, Memory.read_add, offsetEq, ← List.append_assoc, ← List.append_assoc]
  simp only [content, List.append_assoc]
  rfl

/-- Without a zero area the bytes lie in one piece. -/
theorem Shaped.content_of_noZeroes (shaped : self.Shaped) (noZeroes : self.zeroSize = 0) :
    self.content heap = (heap.block self.data).data.read self.start self.getSize := by
  have front := shaped.front
  have zeroes := shaped.zeroes
  have back := shaped.back
  have zeroEq : self.zeroAreaEnd = self.zeroAreaStart := by
    rw [zeroSize] at noZeroes
    omega
  have sizeEq : self.getSize =
      (self.zeroAreaStart - self.start) + (self.stop - self.zeroAreaEnd) := by
    rw [getSize]
    omega
  have middle : self.start + (self.zeroAreaStart - self.start) = self.zeroAreaStart := by omega
  rw [sizeEq, Memory.read_add, middle, content, noZeroes, List.replicate_zero, List.nil_append]

@[simp]
theorem content_noteZeroArea : self.noteZeroArea.content heap = self.content heap := rfl

theorem Shaped.noteZeroArea (shaped : self.Shaped) : self.noteZeroArea.Shaped :=
  ⟨shaped.front, shaped.zeroes, shaped.back, shaped.fits⟩

/-- A buffer takes up no more of its block than another one. -/
structure Within (new old : Buffer) : Prop where
  data : new.data = old.data
  shaped : new.Shaped
  start : old.start ≤ new.start
  zeroSize : new.zeroSize ≤ old.zeroSize
  internalEnd : new.getInternalEnd ≤ old.getInternalEnd

theorem Shaped.within (shaped : self.Shaped) : self.Within self :=
  ⟨rfl, shaped, le_rfl, le_rfl, le_rfl⟩

/-- What is left of a buffer after bytes were removed. -/
structure Shortened (heap : BufferHeap) (old new : Buffer) (bytes : List UInt8) : Prop
    extends new.Within old where
  content : new.content heap = bytes

theorem Shortened.noteZeroArea {old new : Buffer} {bytes : List UInt8}
    (shortened : Shortened heap old new bytes) : Shortened heap old new.noteZeroArea bytes :=
  { shortened with shaped := shortened.shaped.noteZeroArea }

theorem Shaped.removeAtStart (shaped : self.Shaped) {count : Nat}
    (within : count ≤ self.getSize) (heap : BufferHeap) :
    Shortened heap self (self.removeAtStart count) ((self.content heap).drop count) := by
  obtain ⟨front, zeroes, back, fits⟩ := shaped
  have shaped : self.Shaped := ⟨front, zeroes, back, fits⟩
  rw [getSize] at within
  have newStart : wrap 32 (self.start + count) = self.start + count := wrap_of_lt (by omega)
  unfold Buffer.removeAtStart
  rw [newStart]
  apply Shortened.noteZeroArea
  split
  next inFront =>
    refine ⟨⟨rfl, ⟨inFront, zeroes, back, fits⟩, Nat.le_add_right _ _, le_rfl, le_rfl⟩, ?_⟩
    rw [content_split_front inFront, List.drop_append, List.drop_of_length_le (by simp),
      Memory.length_read, Nat.sub_self, List.drop_zero, List.nil_append]
  next pastFront =>
    split
    next inZeroes =>
      refine ⟨⟨rfl, ⟨le_rfl, ?_, ?_, ?_⟩, front, ?_, ?_⟩, ?_⟩
      all_goals simp only [zeroSize, getInternalEnd]
      · omega
      · omega
      · omega
      · omega
      · omega
      · simp only [content, zeroSize, Nat.sub_self, Memory.read_zero, List.nil_append]
        rw [List.drop_append, List.drop_of_length_le (by simp; omega), List.nil_append,
          List.drop_append, List.drop_replicate, Memory.length_read, List.length_replicate,
          Memory.drop_read]
        congr 2
        all_goals omega
    next pastZeroes =>
      rw [if_pos (by omega)]
      refine ⟨⟨rfl, ⟨le_rfl, le_rfl, ?_, ?_⟩, ?_, ?_, ?_⟩, ?_⟩
      all_goals simp only [zeroSize, getInternalEnd, Nat.sub_self]
      · omega
      · omega
      · omega
      · omega
      · omega
      · simp only [content, zeroSize, Nat.sub_self, Memory.read_zero, List.nil_append,
          List.replicate_zero]
        rw [List.drop_append, List.drop_of_length_le (by simp; omega), List.nil_append,
          List.drop_append, List.drop_of_length_le (by simp; omega), List.nil_append,
          Memory.drop_read, Memory.length_read, List.length_replicate]
        congr 1
        all_goals omega

theorem Shaped.removeAtEnd (shaped : self.Shaped) {count : Nat}
    (within : count ≤ self.getSize) (heap : BufferHeap) :
    Shortened heap self (self.removeAtEnd count)
      ((self.content heap).take (self.getSize - count)) := by
  obtain ⟨front, zeroes, back, fits⟩ := shaped
  have shaped : self.Shaped := ⟨front, zeroes, back, fits⟩
  rw [getSize] at within ⊢
  have newEnd : self.stop - min count (self.stop - self.start) = self.stop - count := by omega
  have shorter : self.stop - count < 2 ^ 32 := lt_of_le_of_lt (Nat.sub_le _ _) fits
  unfold Buffer.removeAtEnd
  rw [newEnd]
  apply Shortened.noteZeroArea
  split
  next inBack =>
    have stillShaped : ({ self with stop := self.stop - count } : Buffer).Shaped :=
      ⟨front, zeroes, inBack.le, shorter⟩
    refine ⟨⟨rfl, stillShaped, le_rfl, le_rfl, ?_⟩, ?_⟩
    · exact Nat.sub_le_sub_right (Nat.sub_le _ _) _
    · have takenEq : self.stop - self.start - count =
          (({ self with stop := self.stop - count } : Buffer).content heap).length := by
        rw [stillShaped.length_content]
        change _ = self.stop - count - self.start
        omega
      rw [takenEq, content_split_back shaped (show self.zeroAreaEnd + count ≤ self.stop by omega),
        List.take_left]
  next pastBack =>
    split
    next inZeroes =>
      refine ⟨⟨rfl, ⟨front, inZeroes.le, le_rfl, shorter⟩, le_rfl, ?_, ?_⟩, ?_⟩
      · simp only [zeroSize]
        omega
      · simp only [zeroSize, getInternalEnd]
        omega
      · have takenEq : self.stop - self.start - count =
            ((heap.block self.data).data.read self.start
              (self.zeroAreaStart - self.start)).length +
              (self.stop - count - self.zeroAreaStart) := by
          rw [Memory.length_read]
          omega
        rw [takenEq, content, content, List.take_length_add_append,
          List.take_append_of_le_length, List.take_replicate]
        · simp only [zeroSize, Nat.sub_self, Memory.read_zero, List.append_nil]
          congr 2
          omega
        · rw [List.length_replicate, zeroSize]
          omega
    next pastZeroes =>
      have takenEq : (self.content heap).take (self.stop - self.start - count) =
          (heap.block self.data).data.read self.start (self.stop - count - self.start) := by
        rw [content, List.take_append_of_le_length, Memory.take_read]
        · congr 1
          omega
        · rw [Memory.length_read]
          omega
      rw [takenEq]
      split
      next some =>
        refine ⟨⟨rfl, ⟨some.le, le_rfl, le_rfl, shorter⟩, le_rfl, ?_, ?_⟩, ?_⟩
        · simp [zeroSize]
        · simp only [zeroSize, getInternalEnd]
          omega
        · simp [content, zeroSize]
      next none =>
        refine ⟨⟨rfl, ⟨le_rfl, le_rfl, le_rfl, ?_⟩, le_rfl, ?_, ?_⟩, ?_⟩
        · exact lt_of_le_of_lt (front.trans (zeroes.trans back)) fits
        · simp [zeroSize]
        · simp only [zeroSize, getInternalEnd]
          omega
        · rw [Nat.sub_eq_zero_of_le (not_lt.mp none)]
          simp [content, zeroSize]

/-- Everything is removed at the start of a buffer, and no offset wraps. -/
theorem Shaped.removeAtStart_all (shaped : self.Shaped) {count : Nat}
    (beyond : self.getSize < count) (fits : self.start + count < 2 ^ 32) (heap : BufferHeap) :
    Shortened heap self (self.removeAtStart count) [] := by
  have window : self.start ≤ self.stop := shaped.front.trans (shaped.zeroes.trans shaped.back)
  have pastEnd : self.stop < self.start + count := by
    rw [getSize] at beyond
    omega
  have pastZeroes : self.zeroAreaEnd < self.start + count := lt_of_le_of_lt shaped.back pastEnd
  have pastFront : self.zeroAreaStart < self.start + count :=
    lt_of_le_of_lt shaped.zeroes pastZeroes
  unfold Buffer.removeAtStart
  rw [wrap_of_lt fits]
  dsimp only
  rw [if_neg (not_le.mpr pastFront), if_neg (not_le.mpr pastZeroes),
    if_neg (not_le.mpr pastEnd)]
  apply Shortened.noteZeroArea
  refine ⟨⟨rfl, ⟨le_rfl, le_rfl, le_rfl, ?_⟩, shaped.start_le_internalEnd, ?_, ?_⟩, ?_⟩
  · exact lt_of_le_of_lt (Nat.sub_le _ _) shaped.fits
  · exact (Nat.sub_self _).le.trans (Nat.zero_le _)
  · exact Nat.sub_le _ _
  · simp only [content, zeroSize, Nat.sub_self, Memory.read_zero, List.replicate_zero,
      List.append_nil]

/-- `RemoveAtStart` when the new start is no more than 32 bits. -/
theorem Shaped.removeAtStart_of_fits (shaped : self.Shaped) {count : Nat}
    (fits : self.start + count < 2 ^ 32) (heap : BufferHeap) :
    Shortened heap self (self.removeAtStart count) ((self.content heap).drop count) := by
  rcases Nat.lt_or_ge self.getSize count with beyond | within
  · rw [List.drop_of_length_le (shaped.length_content.trans_le beyond.le)]
    exact shaped.removeAtStart_all beyond fits heap
  · exact shaped.removeAtStart within heap

/-- The new start wraps around to before the old one, and the buffer grows. -/
theorem removeAtStart_wraps {count : Nat} (small : count < 2 ^ 32) (shaped : self.Shaped)
    (wraps : 2 ^ 32 ≤ self.start + count) :
    (self.removeAtStart count).Shaped ∧
      self.stop < (self.removeAtStart count).getSize + self.start := by
  have window : self.start ≤ self.stop := shaped.front.trans (shaped.zeroes.trans shaped.back)
  have fits := shaped.fits
  have newStart : wrap 32 (self.start + count) = self.start + count - 2 ^ 32 := by
    rw [wrap, Nat.mod_eq_sub_mod wraps, Nat.mod_eq_of_lt (by omega)]
  have lower : self.start + count - 2 ^ 32 < self.start := by omega
  unfold Buffer.removeAtStart
  rw [newStart]
  dsimp only
  rw [if_pos (lower.le.trans shaped.front)]
  refine ⟨⟨lower.le.trans shaped.front, shaped.zeroes, shaped.back, shaped.fits⟩, ?_⟩
  change self.stop < self.stop - (self.start + count - 2 ^ 32) + self.start
  omega

/-- More is removed at the end of a buffer than there is. -/
theorem removeAtEnd_min (count : Nat) :
    self.removeAtEnd (min count self.getSize) = self.removeAtEnd count := by
  unfold Buffer.removeAtEnd
  rw [getSize, Nat.min_assoc, Nat.min_self]

theorem Shaped.removeAtEnd_min (shaped : self.Shaped) (count : Nat) (heap : BufferHeap) :
    Shortened heap self (self.removeAtEnd count)
      ((self.content heap).take (self.getSize - min count self.getSize)) := by
  rw [← Buffer.removeAtEnd_min]
  exact shaped.removeAtEnd (Nat.min_le_right _ _) heap

theorem writeZeroes_eq (left : Nat) : writeZeroes left = List.replicate left 0 := by
  induction left using Nat.strongRecOn with
  | ind left inductionHypothesis =>
      unfold writeZeroes
      split
      next none => rw [none, List.replicate_zero]
      next some =>
        rw [inductionHypothesis _ (by omega), List.replicate_append_replicate]
        congr 1
        omega

/-- `CopyData` of the whole buffer returns its content. -/
theorem Shaped.copyData (shaped : self.Shaped) (heap : BufferHeap) :
    self.copyData heap self.getSize = self.content heap := by
  obtain ⟨front, zeroes, back, _⟩ := shaped
  have frontMin : min (self.zeroAreaStart - self.start) self.getSize =
      self.zeroAreaStart - self.start := by
    rw [getSize]
    omega
  have zeroMin : min (self.zeroAreaEnd - self.zeroAreaStart)
      (self.getSize - (self.zeroAreaStart - self.start)) = self.zeroSize := by
    rw [getSize, zeroSize]
    omega
  have backMin : min (self.stop - self.zeroAreaEnd)
      (self.getSize - (self.zeroAreaStart - self.start) - self.zeroSize) =
      self.stop - self.zeroAreaEnd := by
    rw [getSize, zeroSize]
    omega
  simp only [Buffer.copyData, frontMin, zeroMin, backMin, writeZeroes_eq, content]
  split
  next =>
    split
    next =>
      split
      next => rfl
      next noBack =>
        have backEmpty : self.stop - self.zeroAreaEnd = 0 := by
          rw [getSize, zeroSize] at noBack
          omega
        rw [backEmpty, Memory.read_zero]
    next noZeroes =>
      have zeroEmpty : self.zeroSize = 0 ∧ self.stop - self.zeroAreaEnd = 0 := by
        rw [getSize] at noZeroes
        rw [zeroSize]
        omega
      simp [zeroEmpty.1, zeroEmpty.2]
  next empty =>
    have allEmpty : self.zeroAreaStart - self.start = 0 ∧ self.zeroSize = 0 ∧
        self.stop - self.zeroAreaEnd = 0 := by
      rw [getSize] at empty
      rw [zeroSize]
      omega
    rw [allEmpty.1, allEmpty.2.1, allEmpty.2.2]
    rfl

end Buffer

end Ns3.Network
