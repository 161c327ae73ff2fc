import Ns3.Library.FlaggedChunks
import Ns3.Library.Word
import Mathlib.Logic.Function.Basic

/-!
Fragmentation and reassembly in `ns3::Ipv6ExtensionFragment`.

A packet is the list of its bytes, and an address is a number. A function that
reads behind the end of a packet, or follows a pointer that is null, gives nothing. A
fragment that waits for the others never times out.
-/

namespace Ns3.Internet

open Library

namespace Ipv6Header

/-- `Ipv6Header::IPV6_EXT_HOP_BY_HOP` and the other types of extension headers. -/
def extHopByHop : UInt8 := 0

def extRouting : UInt8 := 43

def extFragmentation : UInt8 := 44

def extDestination : UInt8 := 60

/-- `GetSerializedSize`. -/
def serializedSize : Nat := 10 * 4

end Ipv6Header

/-- `ns3::Ipv6Header`. -/
structure Ipv6Header where
  sourceAddress : Nat
  nextHeader : UInt8
  payloadLength : Nat
  deriving DecidableEq, Repr

/-- The options of a hop-by-hop or destination header behind its first two bytes. -/
structure OptionField where
  optionData : List UInt8
  deriving DecidableEq, Repr

namespace OptionField

/-- `CalculatePad` for the end of the header. -/
def calculatePad (self : OptionField) : Nat := wrapSub 32 0 (self.optionData.length + 2) % 8

/-- `GetSerializedSize`. -/
def serializedSize (self : OptionField) : Nat := self.optionData.length + self.calculatePad

/-- The padding that `Serialize` fills the header with. -/
def padding : Nat → List UInt8
  | 0 => []
  | 1 => [0]
  | fill + 2 => 1 :: UInt8.ofNat fill :: List.replicate fill 0

/-- `Serialize`. -/
def serialize (self : OptionField) : List UInt8 :=
  self.optionData ++ padding self.calculatePad

end OptionField

/-- The extension headers of the unfragmentable part: `Ipv6ExtensionHopByHopHeader`,
`Ipv6ExtensionLooseRoutingHeader` and `Ipv6ExtensionDestinationHeader`. -/
inductive Ipv6ExtensionHeader
  | hopByHop (nextHeader length : UInt8) (options : OptionField)
  | routing (nextHeader length typeRouting segmentsLeft : UInt8)
      (routersAddress : List (List UInt8))
  | destination (nextHeader length : UInt8) (options : OptionField)
  deriving DecidableEq, Repr

namespace Ipv6ExtensionHeader

/-- The type of the header. -/
def number : Ipv6ExtensionHeader → UInt8
  | hopByHop _ _ _ => Ipv6Header.extHopByHop
  | routing _ _ _ _ _ => Ipv6Header.extRouting
  | destination _ _ _ => Ipv6Header.extDestination

/-- `GetNextHeader`. -/
def nextHeader : Ipv6ExtensionHeader → UInt8
  | hopByHop next _ _ => next
  | routing next _ _ _ _ => next
  | destination next _ _ => next

/-- `SetNextHeader`. -/
def setNextHeader (next : UInt8) : Ipv6ExtensionHeader → Ipv6ExtensionHeader
  | hopByHop _ length options => hopByHop next length options
  | routing _ length type left addresses => routing next length type left addresses
  | destination _ length options => destination next length options

/-- `GetLength`. -/
def getLength (self : Ipv6ExtensionHeader) : Nat :=
  match self with
  | hopByHop _ length _ => (length.toNat + 1) <<< 3
  | routing _ length _ _ _ => (length.toNat + 1) <<< 3
  | destination _ length _ => (length.toNat + 1) <<< 3

/-- `GetSerializedSize`. -/
def serializedSize : Ipv6ExtensionHeader → Nat
  | hopByHop _ _ options => 2 + options.serializedSize
  | routing _ _ _ _ addresses => 8 + addresses.length * 16
  | destination _ _ options => 2 + options.serializedSize

/-- What hop-by-hop and destination headers write. -/
def serializeOptions (next : UInt8) (options : OptionField) : List UInt8 :=
  next :: UInt8.ofNat ((2 + options.serializedSize) / 8 - 1) :: options.serialize

/-- `Serialize`. -/
def serialize : Ipv6ExtensionHeader → List UInt8
  | hopByHop next _ options => serializeOptions next options
  | routing next _ type left addresses =>
      let addressNum := UInt8.ofNat addresses.length
      next :: addressNum * 2 :: type :: left :: 0 :: 0 :: 0 :: 0 :: addresses.flatten
  | destination next _ options => serializeOptions next options

/-- What hop-by-hop and destination headers read. -/
def deserializeOptions : List UInt8 → Option (UInt8 × UInt8 × OptionField)
  | next :: length :: rest =>
      let size := (length.toNat + 1) * 8 - 2
      if size ≤ rest.length then some (next, length, ⟨rest.take size⟩) else none
  | _ => none

/-- The addresses that a routing header reads. -/
def readAddresses : Nat → List UInt8 → Option (List (List UInt8))
  | 0, _ => some []
  | count + 1, bytes =>
      if 16 ≤ bytes.length then
        (readAddresses count (bytes.drop 16)).map (bytes.take 16 :: ·)
      else none

/-- What a routing header reads. -/
def deserializeRouting : List UInt8 → Option Ipv6ExtensionHeader
  | next :: length :: type :: left :: _ :: _ :: _ :: _ :: rest =>
      (readAddresses (length.toNat / 2) rest).map (routing next length type left)
  | _ => none

/-- `Deserialize` for the type of header. -/
def deserialize (number : UInt8) (bytes : List UInt8) : Option Ipv6ExtensionHeader :=
  if number = Ipv6Header.extHopByHop then
    (deserializeOptions bytes).map fun (next, length, options) => hopByHop next length options
  else if number = Ipv6Header.extRouting then deserializeRouting bytes
  else if number = Ipv6Header.extDestination then
    (deserializeOptions bytes).map fun (next, length, options) => destination next length options
  else none

/-- `RemoveHeader`: the header, and the packet without it. -/
def removeHeader (number : UInt8) (p : List UInt8) :
    Option (Ipv6ExtensionHeader × List UInt8) :=
  (deserialize number p).map fun header => (header, p.drop header.serializedSize)

end Ipv6ExtensionHeader

/-- `ns3::Ipv6ExtensionFragmentHeader`; the lowest bit of the offset is the flag. -/
structure Ipv6ExtensionFragmentHeader where
  nextHeader : UInt8
  offset : Nat
  identification : Nat
  deriving DecidableEq, Repr

namespace Ipv6ExtensionFragmentHeader

/-- A new header. -/
def create : Ipv6ExtensionFragmentHeader := ⟨0, 0, 0⟩

/-- `GetSerializedSize`. -/
def serializedSize : Nat := 8

/-- `SetOffset`, which saves the flag. -/
def setOffset (self : Ipv6ExtensionFragmentHeader) (offset : Nat) : Ipv6ExtensionFragmentHeader :=
  { self with offset := self.offset % 2 ||| offset / 8 * 8 }

/-- `GetOffset`. -/
def getOffset (self : Ipv6ExtensionFragmentHeader) : Nat := self.offset / 2 * 2

/-- `SetMoreFragment`. -/
def setMoreFragment (self : Ipv6ExtensionFragmentHeader) (moreFragment : Bool) :
    Ipv6ExtensionFragmentHeader :=
  { self with offset := if moreFragment then self.offset ||| 1 else self.offset / 2 * 2 }

/-- The calls with which `GetFragments` prepares the header for a fragment. -/
def prepare (self : Ipv6ExtensionFragmentHeader) (nextHeader : UInt8) (offset : Nat)
    (moreFragment : Bool) (identification : Nat) : Ipv6ExtensionFragmentHeader :=
  let placed := ({ self with nextHeader := nextHeader }.setOffset offset).setMoreFragment moreFragment
  { placed with identification := identification }

/-- `GetMoreFragment`. -/
def getMoreFragment (self : Ipv6ExtensionFragmentHeader) : Bool := self.offset % 2 = 1

/-- `Serialize`, in network byte order. -/
def serialize (self : Ipv6ExtensionFragmentHeader) : List UInt8 :=
  self.nextHeader :: 0 :: (toBytes 2 self.offset).reverse ++ (toBytes 4 self.identification).reverse

/-- `Deserialize`. -/
def deserialize : List UInt8 → Option Ipv6ExtensionFragmentHeader
  | next :: _ :: o₁ :: o₀ :: i₃ :: i₂ :: i₁ :: i₀ :: _ =>
      some ⟨next, ofBytes [o₀, o₁], ofBytes [i₀, i₁, i₂, i₃]⟩
  | _ => none

end Ipv6ExtensionFragmentHeader

/-- `Ipv6PayloadHeaderPair`. -/
structure Ipv6Fragment where
  packet : List UInt8
  header : Ipv6Header
  deriving DecidableEq, Repr

namespace Ipv6ExtensionFragment

/-- The test of `GetFragments` for a header of the unfragmentable part, where the packet
starts with the header of that type. -/
def moreHeader (nextHeader : UInt8) (p : List UInt8) : Bool :=
  nextHeader = Ipv6Header.extHopByHop || nextHeader = Ipv6Header.extRouting ||
    (nextHeader = Ipv6Header.extDestination && p.head? = some Ipv6Header.extRouting)

/-- The loop of `GetFragments` over the headers of the unfragmentable part: the headers, the
type of what follows them, and the fragmentable part. -/
def removeHeaders : Nat → UInt8 → List UInt8 →
    Option (List Ipv6ExtensionHeader × UInt8 × List UInt8)
  | 0, _, _ => none
  | turns + 1, nextHeader, p => do
      let (header, rest) ← Ipv6ExtensionHeader.removeHeader nextHeader p
      if moreHeader header.nextHeader rest then
        let (headers, last, fragmentable) ← removeHeaders turns header.nextHeader rest
        pure (header :: headers, last, fragmentable)
      else
        pure ([header.setNextHeader Ipv6Header.extFragmentation], header.nextHeader, rest)

/-- The loop of `GetFragments` that adds the headers of the unfragmentable part to a
fragment. -/
def addHeaders (unfragmentablePart : List Ipv6ExtensionHeader) (fragment : List UInt8) :
    List UInt8 :=
  unfragmentablePart.foldl (fun packet header => header.serialize ++ packet) fragment

/-- The main loop of `GetFragments`. -/
def fragmentLoop (p : List UInt8) (unfragmentablePart : List Ipv6ExtensionHeader)
    (nextHeader : UInt8) (ipv6Header : Ipv6Header)
    (maxFragmentablePartSize identification : Nat) :
    Nat → Ipv6ExtensionFragmentHeader → Nat → Option (List Ipv6Fragment)
  | 0, _, _ => none
  | turns + 1, fragmentHeader, offset =>
      let moreFragment := decide (p.length > wrap 32 (offset + maxFragmentablePartSize))
      let currentFragmentablePartSize :=
        if moreFragment then maxFragmentablePartSize - maxFragmentablePartSize % 8
        else wrapSub 32 p.length offset
      let prepared := fragmentHeader.prepare nextHeader offset moreFragment identification
      let fragment := addHeaders unfragmentablePart
        (prepared.serialize ++ (p.drop offset).take currentFragmentablePartSize)
      let pair : Ipv6Fragment :=
        ⟨fragment, { ipv6Header with payloadLength := wrap 16 fragment.length }⟩
      if moreFragment then
        (fragmentLoop p unfragmentablePart nextHeader ipv6Header maxFragmentablePartSize
          identification turns prepared (wrap 16 (offset + currentFragmentablePartSize))).map
            (pair :: ·)
      else some [pair]

/-- The part of `GetFragments` that takes the unfragmentable part apart: the headers, the type
of what follows them, the fragmentable part, and the IPv6 header of the fragments. -/
def unfragmentablePart (packet : List UInt8) (ipv6Header : Ipv6Header) :
    Option (List Ipv6ExtensionHeader × UInt8 × List UInt8 × Ipv6Header) :=
  if moreHeader ipv6Header.nextHeader packet then
    (removeHeaders (packet.length + 1) ipv6Header.nextHeader packet).map
      fun (headers, last, rest) => (headers, last, rest, ipv6Header)
  else
    some ([], ipv6Header.nextHeader, packet,
      { ipv6Header with nextHeader := Ipv6Header.extFragmentation })

/-- The sum of the lengths of the headers, each of which is read into eight bits. -/
def unfragmentablePartSize (headers : List Ipv6ExtensionHeader) : Nat :=
  (headers.map fun header => wrap 8 header.getLength).sum

/-- The most bytes of the fragmentable part in a fragment. -/
def maxFragmentablePartSize (maxFragmentSize : Nat) (headers : List Ipv6ExtensionHeader) : Nat :=
  wrapSub 32 (wrapSub 32 (wrapSub 32 maxFragmentSize Ipv6Header.serializedSize)
    (unfragmentablePartSize headers)) Ipv6ExtensionFragmentHeader.serializedSize

/-- `GetFragments`; the identification is a random number. -/
def getFragments (packet : List UInt8) (ipv6Header : Ipv6Header)
    (maxFragmentSize identification : Nat) : Option (List Ipv6Fragment) := do
  let (headers, nextHeader, p, header) ← unfragmentablePart packet ipv6Header
  fragmentLoop p headers nextHeader header (maxFragmentablePartSize maxFragmentSize headers)
    identification (p.length + 1) Ipv6ExtensionFragmentHeader.create 0

/-- `Ipv6ExtensionFragment::Fragments`. -/
structure Fragments where
  packetFragments : FlaggedChunks UInt8
  unfragmentable : Option (List UInt8)
  deriving DecidableEq, Repr

namespace Fragments

/-- `Fragments::Fragments`. -/
def create : Fragments := ⟨FlaggedChunks.empty, none⟩

/-- `AddFragment`: in front of the first fragment with a greater offset. -/
def addFragment (self : Fragments) (fragment : List UInt8) (fragmentOffset : Nat)
    (moreFragment : Bool) : Fragments :=
  { self with
    packetFragments := self.packetFragments.add ⟨fragmentOffset, fragment, moreFragment⟩ }

/-- `SetUnfragmentablePart`. -/
def setUnfragmentablePart (self : Fragments) (unfragmentablePart : List UInt8) : Fragments :=
  { self with unfragmentable := some unfragmentablePart }

/-- The loop of `IsEntire`. -/
def adjacent : List (Chunk UInt8) → Nat → Bool
  | [], _ => true
  | stored :: rest, lastEndOffset =>
      if lastEndOffset ≠ stored.1 then false
      else adjacent rest (wrap 16 (lastEndOffset + stored.2.length))

/-- `IsEntire`. -/
def isEntire (self : Fragments) : Bool :=
  ! self.packetFragments.more && decide (self.packetFragments.chunks.length > 0) &&
    adjacent self.packetFragments.chunks 0

/-- `GetPacket`. -/
def getPacket (self : Fragments) : Option (List UInt8) :=
  self.unfragmentable.map fun p =>
    self.packetFragments.chunks.foldl (fun packet stored => packet ++ stored.2) p

end Fragments

/-- `FragmentKey_t`. -/
abbrev FragmentKey : Type := Nat × Nat

end Ipv6ExtensionFragment

/-- `ns3::Ipv6ExtensionFragment`, with the fragments that wait. -/
structure Ipv6ExtensionFragment where
  fragments : Ipv6ExtensionFragment.FragmentKey → Option Ipv6ExtensionFragment.Fragments

namespace Ipv6ExtensionFragment

/-- No fragment waits. -/
def create : Ipv6ExtensionFragment := ⟨fun _ => none⟩

/-- What `Process` gives: the type of the header behind, and the packet, unless the
processing has to stop. -/
structure Processed where
  nextHeader : UInt8
  packet : Option (List UInt8)
  deriving DecidableEq, Repr

/-- `Process`. -/
def process (self : Ipv6ExtensionFragment) (packet : List UInt8) (offset : Nat)
    (ipv6Header : Ipv6Header) : Option (Ipv6ExtensionFragment × Processed) := do
  let fragmentHeader ← Ipv6ExtensionFragmentHeader.deserialize (packet.drop offset)
  let p := (packet.drop offset).drop Ipv6ExtensionFragmentHeader.serializedSize
  let fragmentKey := (ipv6Header.sourceAddress, fragmentHeader.identification)
  let waiting := (self.fragments fragmentKey).getD Fragments.create
  let prepared :=
    if fragmentHeader.getOffset = 0 then waiting.setUnfragmentablePart (packet.take offset)
    else waiting
  let fragments := prepared.addFragment p fragmentHeader.getOffset fragmentHeader.getMoreFragment
  if fragments.isEntire then do
    let entire ← fragments.getPacket
    pure (⟨Function.update self.fragments fragmentKey none⟩,
      ⟨fragmentHeader.nextHeader, some entire⟩)
  else
    pure (⟨Function.update self.fragments fragmentKey (some fragments)⟩,
      ⟨fragmentHeader.nextHeader, none⟩)

end Ipv6ExtensionFragment

end Ns3.Internet
