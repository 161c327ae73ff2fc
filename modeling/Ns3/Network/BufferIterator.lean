import Mathlib.Data.List.Induction
import Ns3.Network.Packet

/-!
`ns3::Buffer::Iterator`: words of several bytes.

A word that lies before or behind the zero area is read and written in the block at once, and any
other one is read byte after byte. `PeekU8` says what the bytes of a buffer are.
-/

namespace Ns3.Network

open Library

namespace Buffer

namespace Iterator

variable (heap : BufferHeap) (self : Iterator)

/-- `m_data`. -/
def memory : Memory UInt8 := (heap.block self.data).data

/-- `m_current - (m_zeroEnd - m_zeroStart)`. -/
def behindZeroes : Nat := wrapSub 32 self.current (wrapSub 32 self.zeroEnd self.zeroStart)

/-- `Next (delta)`. -/
def next (delta : Nat) : Iterator := { self with current := wrap 32 (self.current + delta) }

/-- `PeekU8`. -/
def peekU8 : UInt8 :=
  if self.current < self.zeroStart then self.memory heap self.current
  else if self.current < self.zeroEnd then 0
  else self.memory heap self.behindZeroes

/-- `ReadU8`. -/
def readU8 : UInt8 × Iterator := (self.peekU8 heap, self.next 1)

/-- Calls of `ReadU8` in a row. -/
def readAll : Nat → Iterator → List UInt8 × Iterator
  | 0, self => ([], self)
  | count + 1, self =>
      let first := self.readU8 heap
      let rest := readAll count first.2
      (first.1 :: rest.1, rest.2)

/-- `retval <<= 8; retval |= byte` for one byte after the other. -/
def combine (bits : Nat) (bytes : List UInt8) : Nat :=
  bytes.foldl (fun retval byte => wrap bits (retval <<< 8) ||| byte.toNat) 0

/-- The word that is read byte after byte. -/
def slowReadNtoh (count : Nat) : Nat × Iterator :=
  let read := readAll heap count self
  (combine (8 * count) read.1, read.2)

/-- The word that is read in the block where it does not touch the zero area. -/
def readNtoh (count : Nat) : Nat × Iterator :=
  if wrap 32 (self.current + count) ≤ self.zeroStart then
    (combine (8 * count) ((self.memory heap).read self.current count), self.next count)
  else if self.current ≥ self.zeroEnd then
    (combine (8 * count) ((self.memory heap).read self.behindZeroes count), self.next count)
  else self.slowReadNtoh heap count

/-- `ReadNtohU16`. -/
def readNtohU16 : UInt16 × Iterator := ((self.readNtoh heap 2).map .ofNat id)

/-- `ReadNtohU32`. -/
def readNtohU32 : UInt32 × Iterator := ((self.readNtoh heap 4).map .ofNat id)

/-- `ReadNtohU64`. -/
def readNtohU64 : UInt64 × Iterator := ((self.slowReadNtoh heap 8).map .ofNat id)

/-- The bytes `(data >> 8 * i) & 0xff` of a word, the highest one first. -/
def htonBytes (count data : Nat) : List UInt8 :=
  ((List.range count).map fun i => UInt8.ofNat ((data >>> (8 * i)) &&& 0xff)).reverse

/-- The word that is written in the block. -/
def writeHton (count data : Nat) : BufferHeap × Iterator :=
  let target :=
    if wrap 32 (self.current + count) ≤ self.zeroStart then self.current else self.behindZeroes
  (heap.store self.data target (htonBytes count data), self.next count)

/-- `WriteHtonU16`. -/
def writeHtonU16 (data : UInt16) : BufferHeap × Iterator := self.writeHton heap 2 data.toNat

/-- `WriteHtonU32`. -/
def writeHtonU32 (data : UInt32) : BufferHeap × Iterator := self.writeHton heap 4 data.toNat

/-- `WriteHtonU64`, eight calls of `WriteU8`. -/
def writeHtonU64 (data : UInt64) : BufferHeap × Iterator :=
  self.writeAll heap (htonBytes 8 data.toNat)

end Iterator

/-- The iterator at a position of the buffer. -/
def iterator (self : Buffer) (position : Nat) : Iterator :=
  { self.begin with current := position }

/-- The bytes of the buffer by their positions, as `PeekU8` reads them. -/
def bytes (heap : BufferHeap) (self : Buffer) : Memory UInt8 := fun position =>
  (self.iterator position).peekU8 heap

/-- Where the block holds a byte. -/
def offset (self : Buffer) (position : Nat) : Nat :=
  if position < self.zeroAreaStart then position else position - self.zeroSize

/-- A word of `count` bytes lies in the buffer. -/
def Spans (self : Buffer) (position count : Nat) : Prop :=
  self.start ≤ position ∧ position + count ≤ self.stop

/-- A word of `count` bytes can be written: it lies in the buffer, and not in the zero area. -/
def Writable (self : Buffer) (position count : Nat) : Prop :=
  self.Spans position count ∧
    (self.iterator position).CheckNoZero position (position + count)

/-- The value that is read is the big-endian combination of the bytes. -/
def Combines (heap : BufferHeap) (self : Buffer) (count : Nat)
    (read : Iterator → Nat × Iterator) : Prop :=
  ∀ position, self.Spans position count →
    read (self.iterator position) =
      (ofBytes ((self.bytes heap).read position count).reverse, self.iterator (position + count))

/-- What a write should do: no other byte of the buffer changes, no other byte of its block, and no
other block. -/
structure Writes (heap : BufferHeap) (buffer : Buffer) (count position : Nat)
    (written : BufferHeap × Iterator) : Prop where
  moves : written.2 = buffer.iterator (position + count)
  others : ∀ other, buffer.start ≤ other → other < buffer.stop →
    other < position ∨ position + count ≤ other →
      buffer.bytes written.1 other = buffer.bytes heap other
  offsets : ∀ offset, (∀ i < count, offset ≠ buffer.offset (position + i)) →
    (written.1.block buffer.data).data offset = (heap.block buffer.data).data offset
  blocks : ∀ address, address ≠ buffer.data → written.1.block address = heap.block address

/-- The words of a buffer are its bytes. -/
structure Accesses (heap : BufferHeap) (buffer : Buffer) : Prop where
  readU16 : Combines heap buffer 2 fun it => (it.readNtohU16 heap).map UInt16.toNat id
  readU32 : Combines heap buffer 4 fun it => (it.readNtohU32 heap).map UInt32.toNat id
  readU64 : Combines heap buffer 8 fun it => (it.readNtohU64 heap).map UInt64.toNat id
  writeU16 : ∀ position data, buffer.Writable position 2 →
    Writes heap buffer 2 position ((buffer.iterator position).writeHtonU16 heap data) ∧
      ((buffer.iterator position).readNtohU16
        ((buffer.iterator position).writeHtonU16 heap data).1).1 = data
  writeU32 : ∀ position data, buffer.Writable position 4 →
    Writes heap buffer 4 position ((buffer.iterator position).writeHtonU32 heap data) ∧
      ((buffer.iterator position).readNtohU32
        ((buffer.iterator position).writeHtonU32 heap data).1).1 = data
  writeU64 : ∀ position data, buffer.Writable position 8 →
    Writes heap buffer 8 position ((buffer.iterator position).writeHtonU64 heap data) ∧
      ((buffer.iterator position).readNtohU64
        ((buffer.iterator position).writeHtonU64 heap data).1).1 = data

section

variable {heap : BufferHeap} {self : Buffer} {position count data : Nat}

theorem Shaped.behindZeroes (shaped : self.Shaped) (enough : self.zeroSize ≤ position)
    (small : position < 2 ^ 32) :
    (self.iterator position).behindZeroes = position - self.zeroSize := by
  have back := shaped.back
  have fits := shaped.fits
  change wrapSub 32 position (wrapSub 32 self.zeroAreaEnd self.zeroAreaStart) = _
  rw [wrapSub_of_le shaped.zeroes (by omega), ← zeroSize, wrapSub_of_le enough small]

theorem zeroSize_le (behind : self.zeroAreaEnd ≤ position) :
    self.zeroSize ≤ position :=
  Nat.le_trans (Nat.sub_le _ _) behind

/-- The byte at a position. -/
theorem Shaped.bytes_eq (shaped : self.Shaped) (small : position < 2 ^ 32) :
    self.bytes heap position =
      if self.zeroAreaStart ≤ position ∧ position < self.zeroAreaEnd then 0
      else (heap.block self.data).data (self.offset position) := by
  have ordered := shaped.zeroes
  unfold bytes Iterator.peekU8 offset
  change (if position < self.zeroAreaStart then (heap.block self.data).data position
    else if position < self.zeroAreaEnd then 0
    else (heap.block self.data).data (self.iterator position).behindZeroes) = _
  by_cases before : position < self.zeroAreaStart
  · rw [if_pos before, if_neg (by omega), if_pos before]
  · rw [if_neg before, if_neg before]
    by_cases inside : position < self.zeroAreaEnd
    · rw [if_pos inside, if_pos ⟨by omega, inside⟩]
    · rw [if_neg inside, if_neg fun zero => inside zero.2,
        shaped.behindZeroes (zeroSize_le (by omega)) small]

/-- Bytes before the zero area lie in the block. -/
theorem Shaped.read_before (shaped : self.Shaped)
    (before : position + count ≤ self.zeroAreaStart) :
    (heap.block self.data).data.read position count = (self.bytes heap).read position count := by
  have ordered := shaped.zeroes
  have back := shaped.back
  have fits := shaped.fits
  refine List.map_congr_left fun i bounded => ?_
  have inRange := List.mem_range.mp bounded
  rw [shaped.bytes_eq (by omega), if_neg (by omega), offset, if_pos (by omega)]

/-- Bytes behind the zero area lie in the block. -/
theorem Shaped.read_behind (shaped : self.Shaped) (behind : self.zeroAreaEnd ≤ position)
    (within : position + count ≤ self.stop) :
    (heap.block self.data).data.read (position - self.zeroSize) count =
      (self.bytes heap).read position count := by
  have ordered := shaped.zeroes
  have fits := shaped.fits
  refine List.map_congr_left fun i bounded => ?_
  have inRange := List.mem_range.mp bounded
  rw [shaped.bytes_eq (by omega), if_neg (by omega), offset, if_neg (by omega), zeroSize,
    Nat.sub_add_comm (by omega)]

theorem iterator_next (small : position + count < 2 ^ 32) :
    (self.iterator position).next count = self.iterator (position + count) := by
  change ({ self.iterator position with current := wrap 32 (position + count) } : Iterator) = _
  rw [wrap_of_lt small]
  rfl

theorem readAll_eq (small : position + count < 2 ^ 32) :
    Iterator.readAll heap count (self.iterator position) =
      ((self.bytes heap).read position count, self.iterator (position + count)) := by
  induction count generalizing position with
  | zero => rfl
  | succ count inductionHypothesis =>
      have rest := @inductionHypothesis (position + 1) (by omega)
      rw [Iterator.readAll, Iterator.readU8, iterator_next (by omega)]
      dsimp only
      rw [rest, Memory.read_succ, Nat.add_assoc, Nat.add_comm 1 count]
      rfl

theorem Shaped.slowReadNtoh_eq (shaped : self.Shaped) (spans : self.Spans position count) :
    (self.iterator position).slowReadNtoh heap count =
      (Iterator.combine (8 * count) ((self.bytes heap).read position count),
        self.iterator (position + count)) := by
  have fits := shaped.fits
  have within := spans.2
  rw [Iterator.slowReadNtoh, readAll_eq (by omega)]

/-- The three ways to read a word are one. -/
theorem Shaped.readNtoh_eq (shaped : self.Shaped) (spans : self.Spans position count) :
    (self.iterator position).readNtoh heap count =
      (self.iterator position).slowReadNtoh heap count := by
  have fits := shaped.fits
  have within := spans.2
  rw [shaped.slowReadNtoh_eq spans, Iterator.readNtoh, iterator_next (by omega)]
  split
  next before =>
    change wrap 32 (position + count) ≤ self.zeroAreaStart at before
    rw [wrap_of_lt (by omega)] at before
    rw [← shaped.read_before before]
    rfl
  next =>
    split
    next behind =>
      change self.zeroAreaEnd ≤ position at behind
      rw [← shaped.read_behind behind within, shaped.behindZeroes (zeroSize_le behind) (by omega)]
      rfl
    next => exact shaped.slowReadNtoh_eq spans

theorem ofBytes_lt (bytes : List UInt8) : ofBytes bytes < 256 ^ bytes.length := by
  induction bytes with
  | nil => exact Nat.one_pos
  | cons byte bytes inductionHypothesis =>
      have small := byte.toNat_lt
      rw [ofBytes, List.length_cons, Nat.pow_succ]
      omega

/-- The shifts put the bytes together, the highest one first. -/
theorem combine_eq {bits : Nat} {bytes : List UInt8} (fits : 256 ^ bytes.length ≤ 2 ^ bits) :
    Iterator.combine bits bytes = ofBytes bytes.reverse := by
  induction bytes using List.reverseRecOn with
  | nil => rfl
  | append_singleton bytes byte inductionHypothesis =>
      rw [List.length_append, List.length_singleton, Nat.pow_succ] at fits
      have bound := ofBytes_lt bytes.reverse
      rw [List.length_reverse] at bound
      have earlier := inductionHypothesis (by omega)
      have joined := Nat.two_pow_add_eq_or_of_lt byte.toNat_lt (ofBytes bytes.reverse)
      rw [Iterator.combine] at earlier ⊢
      rw [List.foldl_append, List.foldl_cons, List.foldl_nil, earlier, Nat.shiftLeft_eq,
        wrap_of_lt (by omega), List.reverse_append, List.reverse_singleton, List.singleton_append,
        ofBytes, Nat.mul_comm _ (2 ^ 8), ← joined]
      omega

theorem htonBytes_eq (count data : Nat) :
    Iterator.htonBytes count data = (toBytes count data).reverse := by
  have lowest : ∀ data : Nat, (List.range count).map
      (fun i => UInt8.ofNat ((data >>> (8 * i)) &&& 0xff)) = toBytes count data := by
    intro data
    induction count generalizing data with
    | zero => rfl
    | succ count inductionHypothesis =>
        rw [List.range_succ_eq_map, List.map_cons, List.map_map, toBytes,
          ← inductionHypothesis (data / 256)]
        congr 1
        · apply UInt8.toNat_inj.mp
          rw [UInt8.toNat_ofNat', UInt8.toNat_ofNat', Nat.mul_zero, Nat.shiftRight_zero]
          exact (congrArg (· % 2 ^ 8) (Nat.and_two_pow_sub_one_eq_mod data 8)).trans
            (Nat.mod_mod _ _)
        · refine List.map_congr_left fun i _ => ?_
          rw [Function.comp_apply, Nat.mul_succ, Nat.add_comm, Nat.shiftRight_add, Nat.shiftRight_eq_div_pow data 8]
  rw [Iterator.htonBytes, lowest]

/-- The bytes of a word that can be written lie in a row in the block. -/
structure InBlock (buffer : Buffer) (position count : Nat) : Prop where
  stored : ∀ i < count, ¬ (buffer.zeroAreaStart ≤ position + i ∧ position + i < buffer.zeroAreaEnd)
  offsets : ∀ i < count, buffer.offset (position + i) = buffer.offset position + i
  target :
    (if wrap 32 (position + count) ≤ buffer.zeroAreaStart then position
      else (buffer.iterator position).behindZeroes) = buffer.offset position

theorem Shaped.inBlock (shaped : self.Shaped) (writable : self.Writable position count)
    (some : 0 < count) : self.InBlock position count := by
  have zeroes := shaped.zeroes
  have fits := shaped.fits
  obtain ⟨⟨_, within⟩, noZero⟩ := writable
  have stored : ∀ i < count,
      ¬ (self.zeroAreaStart ≤ position + i ∧ position + i < self.zeroAreaEnd) :=
    fun i inRange => (noZero (position + i) (by omega) (Nat.le_add_right _ _)).2.1
  have first := stored 0 some
  by_cases before : position + count ≤ self.zeroAreaStart
  · refine ⟨stored, fun i inRange => ?_, ?_⟩
    · rw [offset, offset, if_pos (by omega), if_pos (by omega)]
    · rw [wrap_of_lt (by omega), if_pos before, offset, if_pos (by omega)]
  · by_cases behind : self.zeroAreaEnd ≤ position
    · have enough := zeroSize_le behind
      refine ⟨stored, fun i inRange => ?_, ?_⟩
      · rw [offset, offset, if_neg (by omega), if_neg (by omega), Nat.sub_add_comm enough]
      · rw [wrap_of_lt (by omega), if_neg before, shaped.behindZeroes enough (by omega), offset,
          if_neg (by omega)]
    · -- The word goes over a zero area that is empty.
      have boundary := stored (self.zeroAreaStart - position) (by omega)
      have empty : self.zeroSize = 0 := by
        rw [zeroSize]
        omega
      have plain : ∀ position, self.offset position = position := fun position => by
        rw [offset, empty, Nat.sub_zero, ite_self]
      refine ⟨stored, fun i inRange => ?_, ?_⟩
      · rw [plain, plain]
      · rw [wrap_of_lt (by omega), if_neg before,
          shaped.behindZeroes (empty ▸ Nat.zero_le _) (by omega), plain, empty, Nat.sub_zero]

theorem writeU8_iterator (byte : UInt8) :
    (self.iterator position).writeU8 heap byte =
      (heap.store self.data (self.offset position) [byte], self.iterator (position + 1)) := by
  unfold Iterator.writeU8 offset
  change (if position < self.zeroAreaStart then (heap.store self.data position [byte], _)
    else (heap.store self.data (position - self.zeroSize) [byte], _)) = _
  split
  · rfl
  · rfl

/-- Bytes that lie in a row are written at once or one after the other. -/
theorem writeAll_iterator {values : List UInt8}
    (offsets : ∀ i < values.length, self.offset (position + i) = self.offset position + i) :
    (self.iterator position).writeAll heap values =
      (heap.store self.data (self.offset position) values,
        self.iterator (position + values.length)) := by
  induction values generalizing heap position with
  | nil =>
      rw [heap.store_nil]
      rfl
  | cons byte values inductionHypothesis =>
      rw [List.length_cons] at offsets
      have rest : ∀ i < values.length,
          self.offset (position + 1 + i) = self.offset (position + 1) + i := by
        intro i inRange
        rw [offsets 1 (by omega), Nat.add_assoc, offsets (1 + i) (by omega), Nat.add_assoc]
      have next := @inductionHypothesis (heap.store self.data (self.offset position) [byte])
        (position + 1) rest
      rw [Iterator.writeAll, List.foldl_cons, writeU8_iterator]
      refine next.trans ?_
      rcases values with _ | ⟨second, values⟩
      · rw [BufferHeap.store_nil]
        rfl
      · rw [offsets 1 (by simp)]
        refine Prod.ext (heap.store_store _ _ [byte] _) (congrArg self.iterator ?_)
        rw [List.length_cons, List.length_cons, Nat.add_assoc, Nat.add_comm 1]
        rfl

section

variable {values : List UInt8} {other : Nat}

theorem Shaped.bytes_store (shaped : self.Shaped) (small : other < 2 ^ 32) :
    self.bytes (heap.store self.data (self.offset position) values) other =
      if self.zeroAreaStart ≤ other ∧ other < self.zeroAreaEnd then 0
      else (heap.block self.data).data.write (self.offset position) values (self.offset other) := by
  rw [shaped.bytes_eq small, BufferHeap.store, BufferHeap.set_block_self]

theorem Shaped.offset_outside (shaped : self.Shaped)
    (stored : ¬ (self.zeroAreaStart ≤ other ∧ other < self.zeroAreaEnd))
    (positionStored : ¬ (self.zeroAreaStart ≤ position ∧ position < self.zeroAreaEnd)) :
    (other < position → self.offset other < self.offset position) ∧
      (position < other → self.offset position < self.offset other) := by
  have zeroes := shaped.zeroes
  unfold offset zeroSize
  constructor
  · intro before
    split <;> split <;> omega
  · intro behind
    split <;> split <;> omega

/-- A word that is stored changes only its bytes. -/
theorem Shaped.writes_store (shaped : self.Shaped) (inBlock : self.InBlock position count)
    (some : 0 < count) (length : values.length = count) :
    Writes heap self count position
      (heap.store self.data (self.offset position) values, self.iterator (position + count)) where
  moves := rfl
  others := by
    intro other low high outside
    have fits := shaped.fits
    rw [shaped.bytes_store (by omega), shaped.bytes_eq (by omega)]
    split
    · rfl
    · rename_i stored
      apply Memory.write_of_outside
      rw [length]
      rcases outside with before | behind
      · exact .inl ((shaped.offset_outside stored (inBlock.stored 0 some)).1 before)
      · have last := inBlock.offsets (count - 1) (by omega)
        have further := (shaped.offset_outside stored
          (inBlock.stored (count - 1) (by omega))).2 (by omega)
        exact .inr (by omega)
  offsets := by
    intro offset different
    rw [BufferHeap.store, BufferHeap.set_block_self]
    apply Memory.write_of_outside
    rw [length]
    by_contra inside
    exact different (offset - self.offset position) (by omega)
      (by rw [inBlock.offsets _ (by omega)]; omega)
  blocks := by
    intro address different
    exact heap.set_block_of_ne _ different

/-- The word is read back. -/
theorem Shaped.read_store (shaped : self.Shaped) (within : position + count ≤ self.stop)
    (inBlock : self.InBlock position count) (length : values.length = count) :
    (self.bytes (heap.store self.data (self.offset position) values)).read position count =
      values := by
  have fits := shaped.fits
  refine List.ext_getElem (by rw [Memory.length_read, length]) fun i inRange bounded => ?_
  rw [Memory.length_read] at inRange
  simp only [Memory.read, List.getElem_map, List.getElem_range]
  rw [shaped.bytes_store (by omega), if_neg (inBlock.stored i inRange), inBlock.offsets i inRange,
    Memory.write_of_inside _ bounded]

end

theorem length_htonBytes (count data : Nat) : (Iterator.htonBytes count data).length = count := by
  rw [htonBytes_eq, List.length_reverse, length_toBytes]

theorem InBlock.writeHton_eq (inBlock : self.InBlock position count)
    (small : position + count < 2 ^ 32) :
    (self.iterator position).writeHton heap count data =
      (heap.store self.data (self.offset position) (Iterator.htonBytes count data),
        self.iterator (position + count)) := by
  have target := inBlock.target
  rw [Iterator.writeHton, iterator_next small, ← target]
  rfl

/-- Reading the word that is stored. -/
theorem Shaped.slowReadNtoh_store (shaped : self.Shaped) (spans : self.Spans position count)
    (inBlock : self.InBlock position count) (fits : data < 256 ^ count) :
    ((self.iterator position).slowReadNtoh
      (heap.store self.data (self.offset position) (Iterator.htonBytes count data)) count).1 =
      data := by
  rw [shaped.slowReadNtoh_eq spans, shaped.read_store spans.2 inBlock (length_htonBytes count data),
    combine_eq, htonBytes_eq, List.reverse_reverse, ofBytes_toBytes fits]
  rw [length_htonBytes, Nat.pow_mul]

theorem Shaped.combines (shaped : self.Shaped) (count : Nat) :
    Combines heap self count fun it => it.slowReadNtoh heap count := by
  intro position spans
  change (self.iterator position).slowReadNtoh heap count = _
  rw [shaped.slowReadNtoh_eq spans, combine_eq]
  rw [Memory.length_read, Nat.pow_mul]

section

variable {Word : Type} {ofNat : Nat → Word} {toNat : Word → Nat}

/-- The value is the same in a type of words. -/
theorem Combines.word {read : Iterator → Nat × Iterator}
    (combines : Combines heap self count read)
    (same : ∀ n < 256 ^ count, toNat (ofNat n) = n) :
    Combines heap self count fun it => ((read it).map ofNat id).map toNat id := by
  intro position spans
  have bound := ofBytes_lt ((self.bytes heap).read position count).reverse
  rw [List.length_reverse, Memory.length_read] at bound
  dsimp only
  rw [combines position spans, Prod.map_apply, Prod.map_apply, same _ bound]
  rfl

end

theorem Shaped.combines_readNtoh (shaped : self.Shaped) (count : Nat) :
    Combines heap self count fun it => it.readNtoh heap count := by
  intro position spans
  exact (shaped.readNtoh_eq spans).trans (shaped.combines count position spans)

theorem Shaped.writes_writeHton (shaped : self.Shaped) (writable : self.Writable position count)
    (some : 0 < count) :
    Writes heap self count position ((self.iterator position).writeHton heap count data) := by
  have inBlock := shaped.inBlock writable some
  have fits := shaped.fits
  have within := writable.1.2
  rw [inBlock.writeHton_eq (by omega)]
  exact shaped.writes_store inBlock some (length_htonBytes count data)

theorem Shaped.readNtoh_writeHton (shaped : self.Shaped)
    (writable : self.Writable position count) (some : 0 < count) (small : data < 256 ^ count) :
    ((self.iterator position).readNtoh
      ((self.iterator position).writeHton heap count data).1 count).1 = data := by
  have inBlock := shaped.inBlock writable some
  have fits := shaped.fits
  have within := writable.1.2
  rw [shaped.readNtoh_eq writable.1, inBlock.writeHton_eq (by omega)]
  exact shaped.slowReadNtoh_store writable.1 inBlock small

theorem InBlock.writeAll_eq (inBlock : self.InBlock position count) :
    (self.iterator position).writeAll heap (Iterator.htonBytes count data) =
      (heap.store self.data (self.offset position) (Iterator.htonBytes count data),
        self.iterator (position + count)) := by
  have length := length_htonBytes count data
  rw [writeAll_iterator fun i inRange => inBlock.offsets i (length ▸ inRange), length]

theorem Shaped.accesses (shaped : self.Shaped) (heap : BufferHeap) : Accesses heap self where
  readU16 := (shaped.combines_readNtoh 2).word fun _ small => Nat.mod_eq_of_lt small
  readU32 := (shaped.combines_readNtoh 4).word fun _ small => Nat.mod_eq_of_lt small
  readU64 := (shaped.combines 8).word fun _ small => Nat.mod_eq_of_lt small
  writeU16 position data writable := by
    refine ⟨shaped.writes_writeHton writable (by decide), ?_⟩
    have returns := @readNtoh_writeHton heap self position 2 data.toNat shaped writable (by decide)
      data.toNat_lt
    exact (congrArg UInt16.ofNat returns).trans UInt16.ofNat_toNat
  writeU32 position data writable := by
    refine ⟨shaped.writes_writeHton writable (by decide), ?_⟩
    have returns := @readNtoh_writeHton heap self position 4 data.toNat shaped writable (by decide)
      data.toNat_lt
    exact (congrArg UInt32.ofNat returns).trans UInt32.ofNat_toNat
  writeU64 position data writable := by
    have inBlock := shaped.inBlock writable (by decide)
    rw [Iterator.writeHtonU64, inBlock.writeAll_eq]
    refine ⟨shaped.writes_store inBlock (by decide) (length_htonBytes 8 _), ?_⟩
    have returns := @slowReadNtoh_store heap self position 8 data.toNat shaped writable.1 inBlock
      data.toNat_lt
    exact (congrArg UInt64.ofNat returns).trans UInt64.ofNat_toNat

end

end Buffer

namespace BufferPool

/-- The words of any buffer are its bytes as long as no offset has passed 32 bits. -/
theorem bufferPool_accesses (garbage : Nat → Memory UInt8) (calls : List PacketCall)
    (legal : (packetMachine garbage).Legal empty calls)
    (inWord : (packetMachine garbage).Along (InWord garbage) empty calls) :
    (packetMachine garbage).Always
      (fun pool => ∀ self ∈ pool.buffers, Buffer.Accesses pool.heap self) empty calls := by
  refine (always_valid legal inWord).mono fun pool valid self held => ?_
  exact (valid.shaped self held).accesses pool.heap

/-- A zero area between a header and a trailer. -/
theorem bufferPool_accesses_short_run :
    (packetMachine fun _ _ => 0).Always
      (fun pool => ∀ self ∈ pool.buffers, Buffer.Accesses pool.heap self) empty
      [.buffer (.plain (.construct 3)), .buffer (.plain (.addAtStart 0 [5, 6])),
        .addPaddingAtEnd 0 2] :=
  bufferPool_accesses _ _ (by decide) (by decide)

/-- The end of the zero area passes 32 bits, and comes to lie before its start. -/
theorem not_bufferPool_accesses :
    ¬ ∀ calls, (packetMachine fun _ _ => 0).Legal empty calls →
      (packetMachine fun _ _ => 0).Always
        (fun pool => ∀ self ∈ pool.buffers, Buffer.Accesses pool.heap self) empty calls := by
  intro always
  have accesses := (always [.buffer (.plain (.construct 4294967295)),
    .buffer (.plain (.addAtStart 0 [1, 2])), .addPaddingAtEnd 0 2] (by decide)).last
      ⟨2, 2, 2, 1, 0, 3⟩ (by decide)
  have value := congrArg Prod.fst (accesses.readU16 1 ⟨by decide, by decide⟩)
  revert value
  decide

end BufferPool

end Ns3.Network
