import Ns3.Library.FlaggedChunks
import Ns3.Library.Word
import Mathlib.Logic.Function.Basic

/-!
Fragmentation and reassembly in `ns3::Ipv4L3Protocol`.

A packet is the list of its bytes. Of the header only the fields are kept that
fragmentation and reassembly read, and the header has no options. A fragment
that waits for the others never times out.
-/

namespace Ns3.Internet

open Library

/-- `ns3::Ipv4Header`. -/
structure Ipv4Header where
  source : Nat
  destination : Nat
  identification : Nat
  protocol : Nat
  fragmentOffset : Nat
  moreFragments : Bool
  payloadSize : Nat
  deriving DecidableEq, Repr

namespace Ipv4Header

/-- `GetSerializedSize` without options. -/
def serializedSize : Nat := 5 * 4

/-- `IsLastFragment`. -/
def isLastFragment (self : Ipv4Header) : Bool := ! self.moreFragments

/-- `SetFragmentOffset`, which aborts for an offset that is not a multiple of eight. -/
def setFragmentOffset (self : Ipv4Header) (offsetBytes : Nat) : Option Ipv4Header :=
  if offsetBytes &&& 7 ≠ 0 then none else some { self with fragmentOffset := offsetBytes }

/-- The two bytes that `Serialize` writes for the flags and the offset; no header here sets
the flag against fragmentation. -/
def serializeFragment (self : Ipv4Header) : Nat × Nat :=
  let fragmentOffset := self.fragmentOffset / 8
  let flagsFrag := (fragmentOffset >>> 8) &&& 31
  (if self.moreFragments then flagsFrag ||| 1 <<< 5 else flagsFrag, fragmentOffset &&& 255)

/-- What `Deserialize` makes of them. -/
def deserializeFragment (self : Ipv4Header) (flags frag : Nat) : Ipv4Header :=
  { self with
    moreFragments := flags &&& 1 <<< 5 ≠ 0
    fragmentOffset := wrap 16 (((flags &&& 31) <<< 8 ||| frag) <<< 3) }

/-- The header that arrives at the next node. -/
def transmitted (self : Ipv4Header) : Ipv4Header :=
  self.deserializeFragment self.serializeFragment.1 self.serializeFragment.2

end Ipv4Header

/-- `Ipv4PayloadHeaderPair`. -/
structure Ipv4Fragment where
  packet : List UInt8
  header : Ipv4Header
  deriving DecidableEq, Repr

namespace Ipv4L3Protocol

/-- The loop of `DoFragmentation`, which aborts where the offset is invalid. -/
def fragmentLoop (p : List UInt8) (ipv4Header : Ipv4Header) (fragmentSize : Nat) :
    Nat → Nat → Option (List Ipv4Fragment)
  | 0, _ => none
  | turns + 1, offset => do
      let moreFragment := decide (p.length > wrap 32 (offset + fragmentSize))
      let currentFragmentablePartSize :=
        if moreFragment then fragmentSize else wrapSub 32 p.length offset
      let flagged :=
        { ipv4Header with moreFragments := moreFragment || ! ipv4Header.isLastFragment }
      let placed ← flagged.setFragmentOffset (wrap 16 (offset + ipv4Header.fragmentOffset))
      let fragment : Ipv4Fragment :=
        { packet := (p.drop offset).take currentFragmentablePartSize
          header := { placed with payloadSize := wrap 16 currentFragmentablePartSize } }
      if moreFragment then
        let later ← fragmentLoop p ipv4Header fragmentSize turns
          (wrap 16 (offset + currentFragmentablePartSize))
        pure (fragment :: later)
      else pure [fragment]

/-- `DoFragmentation`. Each turn but the last makes a fragment of eight bytes or more. -/
def doFragmentation (packet : List UInt8) (ipv4Header : Ipv4Header) (outIfaceMtu : Nat) :
    Option (List Ipv4Fragment) :=
  let fragmentSize := wrapSub 32 outIfaceMtu Ipv4Header.serializedSize / 8 * 8
  fragmentLoop packet ipv4Header fragmentSize (packet.length + 1) 0

/-- The packets that `SendRealOut` sends over an interface. -/
def sendRealOut (fragment : Ipv4Fragment) (mtu : Nat) : Option (List Ipv4Fragment) :=
  if fragment.packet.length + Ipv4Header.serializedSize > mtu then
    doFragmentation fragment.packet fragment.header mtu
  else some [fragment]

/-- `Ipv4L3Protocol::Fragments`: the flag, and the packets with their offsets. -/
abbrev Fragments : Type := FlaggedChunks UInt8

namespace Fragments

/-- `Fragments::Fragments`. -/
def create : Fragments := FlaggedChunks.empty

/-- `AddFragment`: in front of the first fragment with a greater offset. -/
def addFragment (self : Fragments) (fragment : List UInt8) (fragmentOffset : Nat)
    (moreFragment : Bool) : Fragments := self.add ⟨fragmentOffset, fragment, moreFragment⟩

/-- The loop of `IsEntire`. -/
def contiguous : List (Chunk UInt8) → Nat → Bool
  | [], _ => true
  | stored :: rest, lastEndOffset =>
      if lastEndOffset < stored.1 then false
      else contiguous rest (max lastEndOffset (wrap 16 (stored.2.length + stored.1)))

/-- `IsEntire`. -/
def isEntire (self : Fragments) : Bool :=
  ! self.more && decide (self.chunks.length > 0) && contiguous self.chunks 0

/-- The loop of `GetPacket`. -/
def assemble : List (Chunk UInt8) → List UInt8 → List UInt8
  | [], p => p
  | stored :: rest, p =>
      let lastEndOffset := wrap 16 p.length
      if lastEndOffset > stored.1 then
        let newStart := lastEndOffset - stored.1
        if stored.2.length > newStart then
          assemble rest (p ++ (stored.2.drop newStart).take (stored.2.length - newStart))
        else assemble rest p
      else assemble rest (p ++ stored.2)

/-- `GetPacket`. -/
def getPacket (self : Fragments) : List UInt8 :=
  match self.chunks with
  | [] => []
  | first :: rest => assemble rest first.2

end Fragments

/-- `FragmentKey_t`. -/
abbrev FragmentKey : Type := Nat × Nat

/-- The key under which `ProcessFragment` looks for the other fragments. -/
def fragmentKey (ipHeader : Ipv4Header) : FragmentKey :=
  (ipHeader.source <<< 32 ||| ipHeader.destination,
    ipHeader.identification <<< 16 ||| ipHeader.protocol)

end Ipv4L3Protocol

/-- `ns3::Ipv4L3Protocol`, with the fragments that wait. -/
structure Ipv4L3Protocol where
  fragments : Ipv4L3Protocol.FragmentKey → Option Ipv4L3Protocol.Fragments

namespace Ipv4L3Protocol

/-- No fragment waits. -/
def create : Ipv4L3Protocol := ⟨fun _ => none⟩

/-- `ProcessFragment`: the packet, if it is complete. -/
def processFragment (self : Ipv4L3Protocol) (arriving : Ipv4Fragment) :
    Ipv4L3Protocol × Option (List UInt8) :=
  let key := fragmentKey arriving.header
  let fragments := ((self.fragments key).getD Fragments.create).addFragment arriving.packet
    arriving.header.fragmentOffset (! arriving.header.isLastFragment)
  if fragments.isEntire then
    (⟨Function.update self.fragments key none⟩, some fragments.getPacket)
  else (⟨Function.update self.fragments key (some fragments)⟩, none)

end Ipv4L3Protocol

end Ns3.Internet
