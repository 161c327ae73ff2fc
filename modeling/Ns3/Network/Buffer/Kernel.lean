import Ns3.Library.SharedHeap
import Ns3.Library.Memory
import Ns3.Library.Word
import Mathlib.Order.MinMax

/-!
`ns3::Buffer`: byte buffers that share their storage.

A buffer is a window `[start, stop)` on a `Data` block with a virtual zero area
`[zeroAreaStart, zeroAreaEnd)` that takes no storage, so that offsets after it
are shifted down in the block. Offsets are words of 32 bits. Bytes of a block
that nobody has written yet hold `garbage`.
-/

namespace Ns3.Network

open Library

/-- `Buffer::Data` without its count; `capacity` is how many bytes were really
allocated from `m_data` on. -/
structure BufferData where
  size : Nat
  capacity : Nat
  dirtyStart : Nat
  dirtyEnd : Nat
  data : Memory UInt8

/-- The static state of the class: the blocks, `g_maxSize` and
`g_recommendedStart`. -/
structure BufferHeap where
  shared : SharedHeap BufferData
  maxSize : Nat
  recommendedStart : Nat

/-- `ns3::Buffer`; `data` is the address of its block and `stop` is `m_end`. -/
structure Buffer where
  data : Nat
  maxZeroAreaStart : Nat
  zeroAreaStart : Nat
  zeroAreaEnd : Nat
  start : Nat
  stop : Nat
  deriving DecidableEq, Repr

namespace BufferHeap

/-- Before the first buffer. -/
def empty : BufferHeap := ⟨.empty fun _ => ⟨0, 0, 0, 0, fun _ => 0⟩, 0, 0⟩

def block (heap : BufferHeap) (address : Nat) : BufferData := heap.shared.block address

def count (heap : BufferHeap) (address : Nat) : Nat := heap.shared.count address

def set (heap : BufferHeap) (address : Nat) (block : BufferData) : BufferHeap :=
  { heap with shared := heap.shared.set address block }

/-- `m_data->m_dirtyStart` and `m_data->m_dirtyEnd`. -/
def setDirty (heap : BufferHeap) (address dirtyStart dirtyEnd : Nat) : BufferHeap :=
  heap.set address { heap.block address with dirtyStart, dirtyEnd }

/-- Store bytes in a block. -/
def store (heap : BufferHeap) (address offset : Nat) (bytes : List UInt8) : BufferHeap :=
  heap.set address
    { heap.block address with data := (heap.block address).data.write offset bytes }

/-- `Allocate`: at least one byte. The header of 20 bytes ends with the first
byte of `m_data`, at offset 16, and the sum is a word of 32 bits. -/
def allocated (garbage : Memory UInt8) (reqSize : Nat) : BufferData :=
  let reqSize := if reqSize = 0 then 1 else reqSize
  ⟨reqSize, wrap 32 (reqSize - 1 + 20) - 16, 0, 0, garbage⟩

/-- `Create`. A new block holds what `garbage` has for it. -/
def create (heap : BufferHeap) (garbage : Nat → Memory UInt8) (dataSize : Nat) :
    Nat × BufferHeap :=
  let created := heap.shared.create (fun block => decide (dataSize ≤ block.size))
    (fun address => allocated (garbage address) dataSize) heap.shared.free
  (created.1, { heap with shared := created.2 })

/-- `g_maxSize = std::max (g_maxSize, data->m_size)`. -/
def noteSize (heap : BufferHeap) (address : Nat) : BufferHeap :=
  { heap with maxSize := max heap.maxSize (heap.block address).size }

/-- `Recycle`: blocks of the largest size seen so far are kept. -/
def recycle (heap : BufferHeap) (address : Nat) : BufferHeap :=
  if (heap.block address).size < (heap.noteSize address).maxSize ∨
      heap.shared.free.length > 1000 then heap.noteSize address
  else { heap.noteSize address with shared := heap.shared.recycle address }

def drop (heap : BufferHeap) (address : Nat) : BufferHeap :=
  { heap with shared := heap.shared.drop address }

/-- `m_data->m_count--`, and `Recycle` when nobody holds the block. -/
def release (heap : BufferHeap) (address : Nat) : BufferHeap :=
  if (heap.drop address).count address = 0 then (heap.drop address).recycle address
  else heap.drop address

end BufferHeap

namespace Buffer

variable (garbage : Nat → Memory UInt8)

/-- `GetSize`. -/
def getSize (self : Buffer) : Nat := self.stop - self.start

/-- The length of the virtual zero area. -/
def zeroSize (self : Buffer) : Nat := self.zeroAreaEnd - self.zeroAreaStart

/-- `GetInternalSize`. -/
def getInternalSize (self : Buffer) : Nat :=
  self.zeroAreaStart - self.start + (self.stop - self.zeroAreaEnd)

/-- `GetInternalEnd`. -/
def getInternalEnd (self : Buffer) : Nat := self.stop - self.zeroSize

/-- The condition that `CheckInternalState` computes where it is compiled in. -/
def CheckInternalState (heap : BufferHeap) (self : Buffer) : Prop :=
  (self.start ≤ self.zeroAreaStart ∧ self.zeroAreaStart ≤ self.zeroAreaEnd ∧
      self.zeroAreaEnd ≤ self.stop) ∧
    ((heap.block self.data).dirtyStart ≤ self.start ∧
      self.stop ≤ (heap.block self.data).dirtyEnd) ∧
    (self.getInternalEnd ≤ (heap.block self.data).size ∧
      self.start ≤ (heap.block self.data).size ∧
      self.zeroAreaStart ≤ (heap.block self.data).size) ∧
    0 < heap.count self.data

instance (heap : BufferHeap) (self : Buffer) : Decidable (CheckInternalState heap self) :=
  inferInstanceAs (Decidable ((_ ∧ _ ∧ _) ∧ (_ ∧ _) ∧ (_ ∧ _ ∧ _) ∧ _))

/-- Where `Initialize` puts the start of a buffer in the block it is given. -/
def firstStart (heap : BufferHeap) : Nat :=
  min ((heap.create garbage 0).2.block (heap.create garbage 0).1).size heap.recommendedStart

/-- `Initialize`, called by the constructors. -/
def init (heap : BufferHeap) (zeroSize : Nat) : BufferHeap × Buffer :=
  let data := (heap.create garbage 0).1
  let start := firstStart garbage heap
  let zeroAreaEnd := wrap 32 (start + zeroSize)
  ((heap.create garbage 0).2.setDirty data start zeroAreaEnd,
    ⟨data, start, start, zeroAreaEnd, start, zeroAreaEnd⟩)

/-- The copy constructor. -/
def copy (heap : BufferHeap) (o : Buffer) : BufferHeap × Buffer :=
  ({ heap with shared := heap.shared.retain o.data },
    { o with maxZeroAreaStart := o.zeroAreaStart })

/-- `g_recommendedStart = std::max (g_recommendedStart, m_maxZeroAreaStart)`. -/
def recommend (heap : BufferHeap) (self : Buffer) : BufferHeap :=
  { heap with recommendedStart := max heap.recommendedStart self.maxZeroAreaStart }

/-- `operator =`. -/
def assign (heap : BufferHeap) (self o : Buffer) : BufferHeap × Buffer :=
  if self.data ≠ o.data then
    let released := heap.release self.data
    (recommend { released with shared := released.shared.retain o.data } self, o)
  else (recommend heap self, o)

/-- `~Buffer`. -/
def destroy (heap : BufferHeap) (self : Buffer) : BufferHeap :=
  (recommend heap self).release self.data

/-- `m_maxZeroAreaStart = std::max (m_maxZeroAreaStart, m_zeroAreaStart)`. -/
def noteZeroArea (self : Buffer) : Buffer :=
  { self with maxZeroAreaStart := max self.maxZeroAreaStart self.zeroAreaStart }

/-- `AddAtStart` writes in place. -/
def StartsInPlace (heap : BufferHeap) (self : Buffer) (start : Nat) : Prop :=
  start ≤ self.start ∧
    ¬ (1 < heap.count self.data ∧ (heap.block self.data).dirtyStart < self.start)

instance (heap : BufferHeap) (self : Buffer) (start : Nat) :
    Decidable (StartsInPlace heap self start) := inferInstanceAs (Decidable (_ ∧ ¬ (_ ∧ _)))

/-- `AddAtEnd` writes in place. -/
def EndsInPlace (heap : BufferHeap) (self : Buffer) (stop : Nat) : Prop :=
  wrap 32 (self.getInternalEnd + stop) ≤ (heap.block self.data).size ∧
    ¬ (1 < heap.count self.data ∧ self.stop < (heap.block self.data).dirtyEnd)

instance (heap : BufferHeap) (self : Buffer) (stop : Nat) :
    Decidable (EndsInPlace heap self stop) := inferInstanceAs (Decidable (_ ∧ ¬ (_ ∧ _)))

/-- The other branch of `AddAtStart` and `AddAtEnd`: a new block with room for
`start` bytes before the data and `stop` bytes after it. The offsets change by
`start - m_start`, and `m_start` is set back to 0. -/
def moveTo (heap : BufferHeap) (self : Buffer) (start stop : Nat) : BufferHeap × Buffer :=
  let created := heap.create garbage (wrap 32 (self.getInternalSize + (start + stop)))
  let copied := created.2.store created.1 start
    ((created.2.block self.data).data.read self.start self.getInternalSize)
  let shift := fun offset => wrapSub 32 (offset + start) self.start
  let moved : Buffer :=
    ⟨created.1, self.maxZeroAreaStart, shift self.zeroAreaStart, shift self.zeroAreaEnd, 0,
      wrap 32 (shift self.stop + stop)⟩
  ((copied.release self.data).setDirty created.1 0 moved.stop, moved)

/-- `AddAtStart`. -/
def addAtStart (heap : BufferHeap) (self : Buffer) (start : Nat) : BufferHeap × Buffer :=
  if StartsInPlace heap self start then
    (heap.setDirty self.data (self.start - start) (heap.block self.data).dirtyEnd,
      ({ self with start := self.start - start }).noteZeroArea)
  else
    let moved := moveTo garbage heap self start 0
    (moved.1, moved.2.noteZeroArea)

/-- `AddAtEnd (uint32_t)`. -/
def addAtEnd (heap : BufferHeap) (self : Buffer) (stop : Nat) : BufferHeap × Buffer :=
  if EndsInPlace heap self stop then
    (heap.setDirty self.data (heap.block self.data).dirtyStart (wrap 32 (self.stop + stop)),
      ({ self with stop := wrap 32 (self.stop + stop) }).noteZeroArea)
  else
    let moved := moveTo garbage heap self 0 stop
    (moved.1, moved.2.noteZeroArea)

/-- `RemoveAtStart`. -/
def removeAtStart (self : Buffer) (start : Nat) : Buffer :=
  let newStart := wrap 32 (self.start + start)
  noteZeroArea <|
    if newStart ≤ self.zeroAreaStart then { self with start := newStart }
    else if newStart ≤ self.zeroAreaEnd then
      let delta := newStart - self.zeroAreaStart
      { self with
        start := self.zeroAreaStart
        zeroAreaEnd := self.zeroAreaEnd - delta
        stop := self.stop - delta }
    else if newStart ≤ self.stop then
      { self with
        start := newStart - self.zeroSize
        stop := self.stop - self.zeroSize
        zeroAreaStart := newStart - self.zeroSize
        zeroAreaEnd := newStart - self.zeroSize }
    else
      { self with
        stop := self.getInternalEnd
        start := self.getInternalEnd
        zeroAreaEnd := self.getInternalEnd
        zeroAreaStart := self.getInternalEnd }

/-- `RemoveAtEnd`. -/
def removeAtEnd (self : Buffer) (stop : Nat) : Buffer :=
  let newEnd := self.stop - min stop (self.stop - self.start)
  noteZeroArea <|
    if newEnd > self.zeroAreaEnd then { self with stop := newEnd }
    else if newEnd > self.zeroAreaStart then { self with stop := newEnd, zeroAreaEnd := newEnd }
    else if newEnd > self.start then
      { self with stop := newEnd, zeroAreaEnd := newEnd, zeroAreaStart := newEnd }
    else
      { self with stop := self.start, zeroAreaEnd := self.start, zeroAreaStart := self.start }

/-- `CreateFragment`. -/
def createFragment (heap : BufferHeap) (self : Buffer) (start length : Nat) :
    BufferHeap × Buffer :=
  let tmp := copy heap self
  (tmp.1, (tmp.2.removeAtStart start).removeAtEnd
    (wrapSub 32 self.getSize (wrap 32 (start + length))))

/-- `Buffer::Iterator`. -/
structure Iterator where
  zeroStart : Nat
  zeroEnd : Nat
  dataStart : Nat
  dataEnd : Nat
  current : Nat
  data : Nat
  deriving DecidableEq, Repr

/-- `Begin`. -/
def begin (self : Buffer) : Iterator :=
  ⟨self.zeroAreaStart, self.zeroAreaEnd, self.start, self.stop, self.start, self.data⟩

/-- `End`. -/
def finish (self : Buffer) : Iterator :=
  ⟨self.zeroAreaStart, self.zeroAreaEnd, self.start, self.stop, self.stop, self.data⟩

namespace Iterator

/-- `Prev (delta)`. -/
def prev (self : Iterator) (delta : Nat) : Iterator := { self with current := self.current - delta }

/-- `WriteU8`. -/
def writeU8 (heap : BufferHeap) (self : Iterator) (byte : UInt8) : BufferHeap × Iterator :=
  if self.current < self.zeroStart then
    (heap.store self.data self.current [byte], { self with current := self.current + 1 })
  else
    (heap.store self.data (self.current - (self.zeroEnd - self.zeroStart)) [byte],
      { self with current := self.current + 1 })

/-- Calls of `WriteU8` in a row. -/
def writeAll (heap : BufferHeap) (self : Iterator) (bytes : List UInt8) : BufferHeap × Iterator :=
  bytes.foldl (fun state byte => state.2.writeU8 state.1 byte) (heap, self)

/-- `Write (buffer, size)` and `WriteU8 (data, len)`: one `memcpy` or `memset`. -/
def writeBlock (heap : BufferHeap) (self : Iterator) (bytes : List UInt8) :
    BufferHeap × Iterator :=
  let target := if self.current ≤ self.zeroStart then self.current
    else self.current - (self.zeroEnd - self.zeroStart)
  (heap.store self.data target bytes, { self with current := self.current + bytes.length })

end Iterator

/-- Calls of `WriteU8` in a row for all bytes of the gap at the start. -/
def writeFront (opened : BufferHeap × Buffer) (bytes : List UInt8) : BufferHeap × Buffer :=
  ((opened.2.begin.writeAll opened.1 bytes).1, opened.2)

/-- Calls of `WriteU8` in a row for all bytes of the gap at the end. -/
def writeBack (opened : BufferHeap × Buffer) (bytes : List UInt8) : BufferHeap × Buffer :=
  (((opened.2.finish.prev bytes.length).writeAll opened.1 bytes).1, opened.2)

/-- `AddAtStart` and writing the new bytes. -/
def prepend (heap : BufferHeap) (self : Buffer) (bytes : List UInt8) : BufferHeap × Buffer :=
  writeFront (addAtStart garbage heap self bytes.length) bytes

/-- `AddAtEnd` and writing the new bytes. -/
def append (heap : BufferHeap) (self : Buffer) (bytes : List UInt8) : BufferHeap × Buffer :=
  writeBack (addAtEnd garbage heap self bytes.length) bytes

/-- One `Write` or `WriteU8 (data, len)` at `Begin ()`. -/
def blockFront (opened : BufferHeap × Buffer) (bytes : List UInt8) : BufferHeap × Buffer :=
  ((opened.2.begin.writeBlock opened.1 bytes).1, opened.2)

/-- One `Write` that ends at `End ()`. -/
def blockBack (opened : BufferHeap × Buffer) (bytes : List UInt8) : BufferHeap × Buffer :=
  (((opened.2.finish.prev bytes.length).writeBlock opened.1 bytes).1, opened.2)

/-- The three parts of `CreateFullCopy`, each an addition to the temporary
buffer `tmp`: the zeroes, what precedes them and what follows them. -/
def copyZeroes (tmp : BufferHeap × Buffer) (zeroSize : Nat) : BufferHeap × Buffer :=
  blockFront (addAtStart garbage tmp.1 tmp.2 zeroSize) (List.replicate zeroSize 0)

def copyStart (tmp : BufferHeap × Buffer) (self : Buffer) : BufferHeap × Buffer :=
  let opened := addAtStart garbage tmp.1 tmp.2 (self.zeroAreaStart - self.start)
  blockFront opened
    ((opened.1.block self.data).data.read self.start (self.zeroAreaStart - self.start))

def copyEnd (tmp : BufferHeap × Buffer) (self : Buffer) : BufferHeap × Buffer :=
  let opened := addAtEnd garbage tmp.1 tmp.2 (self.stop - self.zeroAreaEnd)
  blockBack opened
    ((opened.1.block self.data).data.read self.zeroAreaStart (self.stop - self.zeroAreaEnd))

/-- `CreateFullCopy`. -/
def createFullCopy (heap : BufferHeap) (self : Buffer) : BufferHeap × Buffer :=
  if self.zeroSize ≠ 0 then
    copyEnd garbage (copyStart garbage
      (copyZeroes garbage (init garbage heap 0) self.zeroSize) self) self
  else copy heap self

/-- `TransformIntoRealBuffer`; the temporary copy is destroyed at the end. -/
def transformIntoRealBuffer (heap : BufferHeap) (self : Buffer) : BufferHeap × Buffer :=
  let tmp := createFullCopy garbage heap self
  let assigned := assign tmp.1 self tmp.2
  (destroy assigned.1 tmp.2, assigned.2)

/-- `PeekData`; the pointer it returns leads to the first byte of the buffer. -/
def peekData (heap : BufferHeap) (self : Buffer) : BufferHeap × Buffer :=
  transformIntoRealBuffer garbage heap self

/-- The loop that writes zeroes in pieces of `g_zeroes.size`. -/
def writeZeroes (left : Nat) : List UInt8 :=
  if left = 0 then []
  else List.replicate (min left 1000) 0 ++ writeZeroes (left - min left 1000)
termination_by left
decreasing_by omega

/-- `CopyData (buffer, size)`: what ends up in the caller's buffer. -/
def copyData (heap : BufferHeap) (self : Buffer) (size : Nat) : List UInt8 :=
  let data := (heap.block self.data).data
  if size > 0 then
    let front := min (self.zeroAreaStart - self.start) size
    let size := size - front
    data.read self.start front ++
      if size > 0 then
        let zeroes := min (self.zeroAreaEnd - self.zeroAreaStart) size
        let size := size - zeroes
        writeZeroes zeroes ++
          if size > 0 then data.read self.zeroAreaStart (min (self.stop - self.zeroAreaEnd) size)
          else []
      else []
  else []

end Buffer

end Ns3.Network
