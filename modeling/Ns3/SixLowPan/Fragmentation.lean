import Mathlib.Data.List.AList
import Ns3.Library.Tiling
import Ns3.Library.Word
import Ns3.SixLowPan.Address

/-!
Fragmentation and reassembly in `ns3::SixLowPanNetDevice`.

A packet is the list of its bytes. The decompression of the first fragment is a parameter, and
so is the random tag. A step that fails an assertion or follows a pointer to nothing gives
nothing, and so does `DoFragmentation` when its loop is not over in the given turns.
-/

namespace Ns3.SixLowPan

open Library

/-- A fragment on the link: the fields of `ns3::SixLowPanFrag1` or `ns3::SixLowPanFragN`, and
what is behind the header. -/
structure SixLowPanFragment where
  isFirst : Bool
  datagramSize : Nat
  datagramTag : Nat
  datagramOffset : Nat
  payload : List UInt8
  deriving DecidableEq, Repr

namespace SixLowPanFragment

/-- `SixLowPanFrag1::GetSerializedSize`. -/
def frag1Size : Nat := 4

/-- `SixLowPanFragN::GetSerializedSize`. -/
def fragNSize : Nat := 5

/-- The bytes of the fragment. -/
def size (self : SixLowPanFragment) : Nat :=
  (if self.isFirst then frag1Size else fragNSize) + self.payload.length

/-- A fragment with a `SixLowPanFrag1` header. -/
def frag1 (datagramSize datagramTag : Nat) (payload : List UInt8) : SixLowPanFragment :=
  ⟨true, wrap 11 datagramSize, wrap 16 datagramTag, 0, payload⟩

/-- A fragment with a `SixLowPanFragN` header. -/
def fragN (datagramSize datagramTag datagramOffset : Nat) (payload : List UInt8) :
    SixLowPanFragment :=
  ⟨false, wrap 11 datagramSize, wrap 16 datagramTag, wrap 8 datagramOffset, payload⟩

end SixLowPanFragment

/-- What `DoFragmentation` is called with, and what it takes from the device. -/
structure FragmentationRequest where
  packet : List UInt8
  origPacketSize : Nat
  origHdrSize : Nat
  extraHdrSize : Nat
  l2Mtu : Nat
  tag : Nat
  deriving DecidableEq, Repr

namespace FragmentationRequest

/-- `compressedHeaderSize`. -/
def compressedHeaderSize (self : FragmentationRequest) : Nat :=
  wrapSub 32 self.packet.length (wrapSub 32 self.origPacketSize self.origHdrSize)

/-- Rounded down to units of eight bytes. -/
def rounded (size : Nat) : Nat := size - size % 8

/-- The size of the first fragment. -/
def firstSize (self : FragmentationRequest) : Nat :=
  wrap 32 (rounded (wrapSub 32 (wrapSub 32 (wrapSub 32 self.l2Mtu SixLowPanFragment.frag1Size)
    self.compressedHeaderSize) self.extraHdrSize) + self.compressedHeaderSize)

/-- The size of another fragment. -/
def nextSize (self : FragmentationRequest) : Nat :=
  rounded (wrapSub 32 (wrapSub 32 self.l2Mtu SixLowPanFragment.fragNSize) self.extraHdrSize)

/-- `CreateFragment`. -/
def createFragment (self : FragmentationRequest) (offset size : Nat) : List UInt8 :=
  (self.packet.drop offset).take size

/-- The loop of `DoFragmentation`, for at most the given number of turns. -/
def fragmentLoop (self : FragmentationRequest) :
    Nat → Nat → Nat → Option (List SixLowPanFragment)
  | 0, _, _ => none
  | turns + 1, offset, offsetData =>
      let moreFrag := ¬ wrap 32 (offsetData + self.nextSize) > self.packet.length
      let size := if moreFrag then self.nextSize else wrapSub 32 self.packet.length offsetData
      let created := if size > 0 then
        [SixLowPanFragment.fragN self.origPacketSize self.tag (offset / 8)
          (self.createFragment offsetData size)]
      else []
      if moreFrag then
        (self.fragmentLoop turns (wrap 16 (offset + size)) (wrap 16 (offsetData + size))).map
          (created ++ ·)
      else some created

/-- `DoFragmentation`. -/
def doFragmentation (self : FragmentationRequest) (turns : Nat) :
    Option (List SixLowPanFragment) :=
  if self.l2Mtu > SixLowPanFragment.frag1Size then
    let offset := wrapSub 32 (wrap 32 (self.firstSize + self.origHdrSize))
      self.compressedHeaderSize
    (self.fragmentLoop turns (wrap 16 offset) (wrap 16 self.firstSize)).map
      (.frag1 self.origPacketSize self.tag (self.createFragment 0 self.firstSize) :: ·)
  else none

end FragmentationRequest

/-- `SixLowPanNetDevice::Fragments`; the first fragment is kept without its header. -/
structure Fragments where
  packetSize : Nat
  fragments : List (Chunk UInt8)
  firstFragment : Option (List UInt8)
  deriving DecidableEq, Repr

namespace Fragments

/-- The constructor, and `SetPacketSize`. -/
def create (packetSize : Nat) : Fragments := ⟨packetSize, [], none⟩

/-- `AddFragment`, which asserts that a duplicate has the same size. -/
def addFragment (self : Fragments) (fragment : List UInt8) (fragmentOffset : Nat) :
    Option Fragments :=
  (insertNew (fragmentOffset, fragment) self.fragments).map fun fragments =>
    { self with fragments := fragments }

/-- `AddFirstFragment`. -/
def addFirstFragment (self : Fragments) (fragment : List UInt8) : Fragments :=
  { self with firstFragment := some fragment }

/-- The loop of `IsEntire`: where the fragments end if there is no hole. -/
def lastEndOffset : List (Chunk UInt8) → Nat → Option Nat
  | [], reached => some reached
  | stored :: rest, reached =>
      if reached < stored.1 then none
      else lastEndOffset rest (max reached (wrap 16 (stored.2.length + stored.1)))

/-- `IsEntire`. -/
def isEntire (self : Fragments) : Bool :=
  !self.fragments.isEmpty && decide (lastEndOffset self.fragments 0 = some self.packetSize)

/-- The loop of `GetPacket`, which aborts for overlapping fragments. -/
def assemble : List (Chunk UInt8) → Nat → List UInt8 → Option (List UInt8)
  | [], _, packet => some packet
  | stored :: rest, reached, packet =>
      if reached > stored.1 then none
      else assemble rest (wrap 16 (reached + stored.2.length)) (packet ++ stored.2)

/-- `GetPacket`. -/
def getPacket (self : Fragments) : Option (List UInt8) :=
  match self.firstFragment, self.fragments with
  | some first, stored :: rest => assemble rest (wrap 16 stored.2.length) first
  | _, _ => none

end Fragments

/-- `FragmentKey_t`. -/
structure FragmentKey where
  src : LinkAddress
  dst : LinkAddress
  datagramSize : Nat
  datagramTag : Nat
  deriving DecidableEq, Repr

/-- The reassembly buffers of the device. The timeouts are all of the same length, so that
their list is in the order in which they were set. -/
structure FragmentTable where
  fragmentReassemblyListSize : Nat
  fragments : AList fun _ : FragmentKey => Fragments
  timeoutEventList : List FragmentKey

/-- The decompression of a packet from one link-layer address to another, if it is not
dropped. -/
abbrev Decompression : Type := List UInt8 → LinkAddress → LinkAddress → Option (List UInt8)

namespace FragmentTable

/-- Nothing has been received. -/
def create (fragmentReassemblyListSize : Nat) : FragmentTable :=
  ⟨fragmentReassemblyListSize, ∅, []⟩

/-- A new datagram would be one too many. -/
def IsFull (self : FragmentTable) : Prop :=
  self.fragmentReassemblyListSize ≠ 0 ∧
    self.fragments.entries.length ≥ self.fragmentReassemblyListSize

instance (self : FragmentTable) : Decidable self.IsFull := inferInstanceAs (Decidable (_ ∧ _))

/-- The oldest datagram is erased. -/
def eraseOldest (self : FragmentTable) : Option FragmentTable :=
  match self.timeoutEventList with
  | [] => none
  | oldestKey :: _ =>
      (self.fragments.lookup oldestKey).map fun _ =>
        { self with
          timeoutEventList := self.timeoutEventList.erase oldestKey
          fragments := self.fragments.erase oldestKey }

/-- The oldest datagram is erased where a new one would be one too many. -/
def makeRoom (self : FragmentTable) : Option FragmentTable :=
  if self.IsFull then self.eraseOldest else some self

/-- The table with an entry for the key, and the entry. -/
def findOrCreate (self : FragmentTable) (key : FragmentKey) (packetSize : Nat) :
    Option (FragmentTable × Fragments) :=
  match self.fragments.lookup key with
  | some fragments => some (self, fragments)
  | none => do
      let table ← self.makeRoom
      let fragments := Fragments.create packetSize
      pure ({ table with
        fragments := table.fragments.insert key fragments
        timeoutEventList := table.timeoutEventList ++ [key] }, fragments)

/-- The part of `ProcessFragment` behind the headers: the fragment is added, and the packet is
taken out when it is entire. -/
def processStored (self : FragmentTable) (key : FragmentKey) (fragments : Fragments) :
    Option (FragmentTable × Option (List UInt8)) :=
  if fragments.isEntire then
    fragments.getPacket.map fun packet =>
      ({ self with
        timeoutEventList := self.timeoutEventList.erase key
        fragments := self.fragments.erase key }, some packet)
  else some ({ self with fragments := self.fragments.insert key fragments }, none)

/-- The key of a fragment. -/
def keyOf (fragment : SixLowPanFragment) (src dst : LinkAddress) : FragmentKey :=
  ⟨src, dst, fragment.datagramSize, fragment.datagramTag⟩

/-- `ProcessFragment`: the table, and the packet if the result is true. -/
def processFragment (self : FragmentTable) (decompress : Decompression)
    (fragment : SixLowPanFragment) (src dst : LinkAddress) :
    Option (FragmentTable × Option (List UInt8)) :=
  let key := keyOf fragment src dst
  if fragment.isFirst then
    match decompress fragment.payload src dst with
    | none => some (self, none)
    | some p => do
        let (table, fragments) ← self.findOrCreate key fragment.datagramSize
        let fragments ← fragments.addFragment p 0
        table.processStored key (fragments.addFirstFragment fragment.payload)
  else do
    let (table, fragments) ← self.findOrCreate key fragment.datagramSize
    let fragments ← fragments.addFragment fragment.payload
      (wrap 16 (fragment.datagramOffset * 8))
    table.processStored key fragments

end FragmentTable

end Ns3.SixLowPan
