import Ns3.Library.SharedHeap
import Ns3.Library.Memory
import Ns3.Library.Word
import Ns3.Network.PacketTagList.Kernel

/-!
`ns3::ByteTagList`: tags on ranges of bytes, stored one after the other in blocks
that lists share.

A stored tag is its type, its size, the two ends of its range and its data. The
ends are signed words relative to an adjustment that the list keeps, so that all
tags move together. A block that was never used holds `garbage`.
-/

namespace Ns3.Network

open Library

/-- `ByteTagListData` without its count. -/
structure ByteTagListData where
  size : Nat
  dirty : Nat
  data : Memory UInt8

/-- The static state: the blocks and `g_maxSize`. -/
structure ByteTagHeap where
  shared : SharedHeap ByteTagListData
  maxSize : Nat

/-- `ns3::ByteTagList`; `data` is the address of its block. -/
structure ByteTagList where
  minStart : Int
  maxEnd : Int
  adjustment : Int
  used : Nat
  data : Option Nat
  deriving DecidableEq, Repr

namespace ByteTagHeap

def empty : ByteTagHeap := ⟨.empty fun _ => ⟨0, 0, fun _ => 0⟩, 0⟩

def block (heap : ByteTagHeap) (address : Nat) : ByteTagListData := heap.shared.block address

def count (heap : ByteTagHeap) (address : Nat) : Nat := heap.shared.count address

def set (heap : ByteTagHeap) (address : Nat) (block : ByteTagListData) : ByteTagHeap :=
  { heap with shared := heap.shared.set address block }

def retain (heap : ByteTagHeap) : Option Nat → ByteTagHeap
  | some address => { heap with shared := heap.shared.retain address }
  | none => heap

/-- `Allocate`. -/
def allocate (heap : ByteTagHeap) (garbage : Nat → Memory UInt8) (size : Nat) :
    Nat × ByteTagHeap :=
  let created := heap.shared.create (fun block => decide (size ≤ block.size))
    (fun address => ⟨size, 0, garbage address⟩) heap.shared.free
  (created.1, ({ heap with shared := created.2 }).set created.1
    { created.2.block created.1 with dirty := 0 })

/-- `Deallocate`. -/
def deallocate (heap : ByteTagHeap) : Option Nat → ByteTagHeap
  | none => heap
  | some address =>
      let heap := { heap with
        maxSize := max heap.maxSize (heap.block address).size
        shared := heap.shared.drop address }
      if heap.count address = 0 then
        if heap.shared.free.length > 1000 ∨ (heap.block address).size < heap.maxSize then heap
        else { heap with shared := heap.shared.recycle address }
      else heap

end ByteTagHeap

namespace ByteTagList

/-- A list and the blocks of all lists. -/
abbrev State := ByteTagHeap × ByteTagList

/-- The constructor. -/
def empty : ByteTagList := ⟨2 ^ 31 - 1, -2 ^ 31, 0, 0, none⟩

/-- The copy constructor. -/
def copy (heap : ByteTagHeap) (o : ByteTagList) : State := (heap.retain o.data, o)

/-- The destructor. -/
def destroy (heap : ByteTagHeap) (self : ByteTagList) : ByteTagHeap := heap.deallocate self.data

/-- `operator =`, from another list. -/
def assign (heap : ByteTagHeap) (self o : ByteTagList) : State :=
  ((heap.deallocate self.data).retain o.data, o)

/-- `RemoveAll`. -/
def removeAll (heap : ByteTagHeap) (self : ByteTagList) : State :=
  (heap.deallocate self.data, empty)

/-- `Adjust`. -/
def adjust (self : ByteTagList) (adjustment : Int) : ByteTagList :=
  { self with adjustment := signed 32 (self.adjustment + adjustment) }

/-- What `Add` and its caller write for a tag. -/
def stored (tag : Tag) (start stop : Int) : List UInt8 :=
  toBytes 4 tag.tid ++ toBytes 4 tag.data.length ++ toBytes 4 (wrapInt 32 start) ++
    toBytes 4 (wrapInt 32 stop) ++ tag.data

variable (garbage : Nat → Memory UInt8)

/-- The first part of `Add`: a block with room for the tag that no other list
reads from `m_used` on. -/
def reserve (heap : ByteTagHeap) (self : ByteTagList) (spaceNeeded : Nat) : ByteTagHeap × Nat :=
  match self.data with
  | none => ((heap.allocate garbage spaceNeeded).2, (heap.allocate garbage spaceNeeded).1)
  | some address =>
      if (heap.block address).size < spaceNeeded ∨
          (heap.count address ≠ 1 ∧ (heap.block address).dirty ≠ self.used) then
        let allocated := heap.allocate garbage spaceNeeded
        let copied := allocated.2.set allocated.1 { allocated.2.block allocated.1 with
          data := (allocated.2.block allocated.1).data.write 0
            ((allocated.2.block address).data.read 0 self.used) }
        (copied.deallocate (some address), allocated.1)
      else (heap, address)

/-- `Add (tid, bufferSize, start, end)` and writing the data of the tag. -/
def add (heap : ByteTagHeap) (self : ByteTagList) (tag : Tag) (start stop : Int) : State :=
  let spaceNeeded := wrap 32 (self.used + tag.data.length + 16)
  let used := if self.data = none then 0 else self.used
  let reserved := reserve garbage heap self spaceNeeded
  let start := signed 32 (start - self.adjustment)
  let stop := signed 32 (stop - self.adjustment)
  (reserved.1.set reserved.2 { reserved.1.block reserved.2 with
      dirty := spaceNeeded
      data := (reserved.1.block reserved.2).data.write used (stored tag start stop) },
    { self with
      minStart := if start < self.minStart then start else self.minStart
      maxEnd := if stop > self.maxEnd then stop else self.maxEnd
      used := spaceNeeded
      data := some reserved.2 })

/-- `Iterator::Item`: a tag and the bytes it is on. -/
structure Item where
  tag : Tag
  start : Int
  stop : Int
  deriving DecidableEq, Repr

/-- The tags that are stored in the bytes; the ends of their ranges are words as
they were written. -/
def stores : Nat → List UInt8 → List (Tag × Nat × Nat)
  | 0, _ => []
  | fuel + 1, bytes =>
      if bytes = [] then []
      else
        let size := ofBytes ((bytes.drop 4).take 4)
        (⟨ofBytes (bytes.take 4), (bytes.drop 16).take size⟩,
          ofBytes ((bytes.drop 8).take 4), ofBytes ((bytes.drop 12).take 4)) ::
          stores fuel (bytes.drop (16 + size))

/-- The bytes of a list. -/
def bytes (heap : ByteTagHeap) (self : ByteTagList) : List UInt8 :=
  match self.data with
  | none => []
  | some address => (heap.block address).data.read 0 self.used

/-- `Iterator::PrepareForNext` and `Next` for one stored tag: it is skipped, or
cut to the range of the iterator. -/
def next (offsetStart offsetEnd adjustment : Int) (entry : Tag × Nat × Nat) : Option Item :=
  let start := signed 32 (entry.2.1 + adjustment)
  let stop := signed 32 (entry.2.2 + adjustment)
  if start ≥ offsetEnd ∨ stop ≤ offsetStart then none
  else some ⟨entry.1, max start offsetStart, min stop offsetEnd⟩

/-- `Begin` and all items that follow. -/
def items (heap : ByteTagHeap) (self : ByteTagList) (offsetStart offsetEnd : Int) : List Item :=
  (stores (self.bytes heap).length (self.bytes heap)).filterMap
    (next offsetStart offsetEnd self.adjustment)

/-- `BeginAll` and all items that follow. -/
def allItems (heap : ByteTagHeap) (self : ByteTagList) : List Item :=
  items heap self 0 (2 ^ 31 - 1)

/-- A row of calls of `Add`. The list that the items are read from is not written
in between. -/
def addItems (state : State) (items : List Item) : State :=
  items.foldl (fun state item => add garbage state.1 state.2 item.tag item.start item.stop) state

/-- `Add (const ByteTagList &)`. -/
def addList (heap : ByteTagHeap) (self o : ByteTagList) : State :=
  addItems garbage (heap, self) (o.allItems heap)

/-- `*this = list`, and the end of the scope of `list`. -/
def become (self : ByteTagList) (list : State) : State :=
  let assigned := assign list.1 self list.2
  (destroy assigned.1 list.2, assigned.2)

/-- The body of the loop of `AddAtEnd`, up to `Add`. -/
def cutEnd (appendOffset : Int) (item : Item) : Option Item :=
  if item.start ≥ appendOffset then none
  else if item.stop > appendOffset then some { item with stop := appendOffset }
  else some item

/-- `AddAtEnd`. -/
def addAtEnd (heap : ByteTagHeap) (self : ByteTagList) (appendOffset : Int) : State :=
  if self.maxEnd ≤ signed 32 (appendOffset - self.adjustment) then (heap, self)
  else self.become (addItems garbage (heap, empty)
    ((self.allItems heap).filterMap (cutEnd appendOffset)))

/-- The body of the loop of `AddAtStart`, up to `Add`. -/
def cutStart (prependOffset : Int) (item : Item) : Option Item :=
  if item.stop ≤ prependOffset then none
  else if item.start < prependOffset then some { item with start := prependOffset }
  else some item

/-- `AddAtStart`. -/
def addAtStart (heap : ByteTagHeap) (self : ByteTagList) (prependOffset : Int) : State :=
  if self.minStart ≥ signed 32 (prependOffset - self.adjustment) then (heap, self)
  else self.become (addItems garbage (heap, empty)
    ((self.allItems heap).filterMap (cutStart prependOffset)))

end ByteTagList

end Ns3.Network
