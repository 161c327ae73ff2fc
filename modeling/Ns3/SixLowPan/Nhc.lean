import Ns3.SixLowPan.UdpNhc

/-!
`CompressLowPanNhc` and `DecompressLowPanNhc`: the headers behind the IPv6 header.

Both functions and those for the IPv6 header call each other. Each takes what treats the rest of
the packet as an argument here, and the recursion is on a number of steps; a step takes bytes off
the packet, so the length of the packet is enough.
-/

namespace Ns3.SixLowPan

open Library

/-- The extension headers that have a code, `Eid_e`. -/
inductive ExtensionKind
  | hopByHop
  | routing
  | fragmentation
  | destination
  deriving DecidableEq, Repr

namespace ExtensionKind

/-- The type in front of the header. -/
def headerType : ExtensionKind → UInt8
  | hopByHop => Ipv6Header.extHopByHop
  | routing => Ipv6Header.extRouting
  | fragmentation => Ipv6Header.extFragmentation
  | destination => 60

def eid : ExtensionKind → UInt8
  | hopByHop => 0
  | routing => 1
  | fragmentation => 2
  | destination => 3

/-- The header that `CompressLowPanNhc` removes; others are not supported. -/
def ofHeaderType (headerType : UInt8) : Option ExtensionKind :=
  if headerType = Ipv6Header.extHopByHop then some hopByHop
  else if headerType = Ipv6Header.extRouting then some routing
  else if headerType = Ipv6Header.extFragmentation then some fragmentation
  else if headerType = 60 then some destination
  else none

end ExtensionKind

/-- `ns3::Ipv6ExtensionHeader` and the classes for the kinds, with what `Serialize` writes behind
the first two bytes. -/
structure Ipv6Extension where
  nextHeader : UInt8
  length : UInt8
  contents : List UInt8
  deriving DecidableEq, Repr

namespace Ipv6Extension

/-- `GetLength`. -/
def getLength (self : Ipv6Extension) : Nat := (self.length.toNat + 1) * 8

/-- The bytes that fill up options to a multiple of eight bytes: `Pad1` or `PadN`. -/
def optionPadding : Nat → List UInt8
  | 0 => []
  | 1 => [0]
  | fill + 2 => 1 :: UInt8.ofNat fill :: List.replicate fill 0

/-- `OptionField::CalculatePad` for eight bytes. -/
def calculatePad (options : List UInt8) : Nat := (8 - (options.length + 2) % 8) % 8

/-- `GetSerializedSize`. -/
def getSerializedSize (self : Ipv6Extension) : ExtensionKind → Nat
  | .hopByHop | .destination => 2 + (self.contents.length + calculatePad self.contents)
  | .routing => 4
  | .fragmentation => 8

/-- `Serialize`. -/
def serialize (self : Ipv6Extension) (kind : ExtensionKind) : List UInt8 :=
  match kind with
  | .hopByHop | .destination =>
      self.nextHeader :: UInt8.ofNat (self.getSerializedSize kind / 8 - 1) ::
        (self.contents ++ optionPadding (calculatePad self.contents))
  | .routing => self.nextHeader :: self.length :: self.contents
  | .fragmentation => self.nextHeader :: 0 :: self.contents

/-- The bytes that `Deserialize` reads behind the first two. A fragment header has no length. -/
def contentsSize : ExtensionKind → UInt8 → Nat
  | .hopByHop, length | .destination, length => (length.toNat + 1) * 8 - 2
  | .routing, _ => 2
  | .fragmentation, _ => 6

/-- `Deserialize`. -/
def deserialize (kind : ExtensionKind) : List UInt8 → Option Ipv6Extension
  | nextHeader :: length :: rest =>
      if contentsSize kind length ≤ rest.length then
        some ⟨nextHeader, if kind = .fragmentation then 0 else length,
          rest.take (contentsSize kind length)⟩
      else none
  | _ => none

/-- `RemoveHeader`: the header, and the packet without it. -/
def removeHeader (kind : ExtensionKind) (packet : List UInt8) :
    Option (Ipv6Extension × List UInt8) :=
  (deserialize kind packet).map fun self => (self, packet.drop (self.getSerializedSize kind))

end Ipv6Extension

/-- `ns3::SixLowPanNhcExtension`. -/
structure SixLowPanNhcExtension where
  nhcExtensionHeader : UInt8
  nhcNextHeader : UInt8
  nhcBlob : List UInt8
  deriving DecidableEq, Repr

namespace SixLowPanNhcExtension

variable (self : SixLowPanNhcExtension)

/-- `GetNh`. -/
def getNh : Bool := self.nhcExtensionHeader &&& 0x01 = 1

/-- `GetEid`. -/
def getEid : UInt8 := (self.nhcExtensionHeader >>> 1) &&& 0x7

/-- `Serialize`. -/
def serialize : List UInt8 :=
  self.nhcExtensionHeader :: ((if self.getNh then [] else [self.nhcNextHeader]) ++
    UInt8.ofNat self.nhcBlob.length :: self.nhcBlob)

/-- What `Deserialize` reads for the blob. -/
def deserializeBlob : List UInt8 → Option (SixLowPanNhcExtension × List UInt8)
  | [] => none
  | length :: packet =>
      if length.toNat ≤ packet.length then
        some ({ self with nhcBlob := packet.take length.toNat }, packet.drop length.toNat)
      else none

/-- `RemoveHeader`: the header, and the packet without it. -/
def removeHeader : List UInt8 → Option (SixLowPanNhcExtension × List UInt8)
  | [] => none
  | header :: packet =>
      if (⟨header, 0, []⟩ : SixLowPanNhcExtension).getNh then
        (⟨header, 0, []⟩ : SixLowPanNhcExtension).deserializeBlob packet
      else
        match packet with
        | [] => none
        | nextHeader :: packet =>
            (⟨header, nextHeader, []⟩ : SixLowPanNhcExtension).deserializeBlob packet

end SixLowPanNhcExtension

/-- `SixLowPanDispatch::GetNhcDispatchType` is `LOWPAN_UDPNHC` for the first byte; there may be
none. -/
def isUdpNhcDispatch (packet : List UInt8) : Bool :=
  decide (0xF0 ≤ packet.headD 0) && decide (packet.headD 0 ≤ 0xF7)

namespace SixLowPanNetDevice

/-- The device when it is known what becomes of the next header. -/
def knowing (self : SixLowPanNetDevice) (compressed : Option (List UInt8))
    (decompressed : Option (UInt8 × List UInt8)) : SixLowPanNetDevice :=
  { self with nextHeaders := ⟨fun _ _ _ _ => compressed, fun _ _ _ _ _ => decompressed⟩ }

/-- A header that can be compressed is, unless it is too long. -/
def compressRest (compress : UInt8 → List UInt8 → Except Failure (Option (List UInt8)))
    (nextHeader : UInt8) (packet : List UInt8) : Except Failure (Option (List UInt8)) :=
  if canCompressLowPanNhc nextHeader then compress nextHeader packet else .ok none

/-- `CompressLowPanIphc`, with the compression of what is behind the header. -/
def compressWith (self : SixLowPanNetDevice)
    (compress : UInt8 → List UInt8 → Except Failure (Option (List UInt8))) (packet : List UInt8)
    (src dst : LinkAddress) : Except Failure (List UInt8) :=
  if packet.length < Ipv6Header.serializedSize then .error .aborted
  else
    match Ipv6Header.deserialize packet with
    | none => .ok packet
    | some ipHeader => do
        let next ← compressRest compress ipHeader.nextHeader (packet.drop Ipv6Header.serializedSize)
        (self.knowing next none).compressLowPanIphc packet src dst

/-- The header that `CompressLowPanNhc` adds. -/
def nhcHeader (kind : ExtensionKind) (header : Ipv6Extension) (nh : Bool) :
    SixLowPanNhcExtension where
  nhcExtensionHeader := (0xE0 : UInt8) ||| kind.eid <<< 1 ||| (if nh then 1 else 0)
  nhcNextHeader := if nh then 0 else header.nextHeader
  nhcBlob := (header.serialize kind).drop 2

/-- `CompressLowPanNhc`, which gives nothing if the header is too long. -/
def compressLowPanNhc (compress : UInt8 → List UInt8 → Except Failure (Option (List UInt8)))
    (headerType : UInt8) (packet : List UInt8) : Except Failure (Option (List UInt8)) :=
  match ExtensionKind.ofHeaderType headerType with
  | none => .error .aborted
  | some kind =>
      match Ipv6Extension.removeHeader kind packet with
      | none => .error .aborted
      | some (header, rest) =>
          if header.getLength ≥ 0xff then .ok none
          else do
            let next ← compressRest compress header.nextHeader rest
            pure (some ((nhcHeader kind header next.isSome).serialize ++ next.getD rest))

/-- The bytes that `DecompressLowPanNhc` makes a header of. -/
def blobData (kind : ExtensionKind) (nextHeader : UInt8) (blob : List UInt8) : List UInt8 :=
  match kind with
  | .hopByHop | .destination =>
      let paddingSize := if (blob.length + 2) % 8 > 0 then 8 - (blob.length + 2) % 8 else 0
      nextHeader :: UInt8.ofNat ((blob.length + 2 + paddingSize) / 8 - 1) ::
        (blob ++ Ipv6Extension.optionPadding paddingSize)
  | .routing => nextHeader :: (UInt8.ofNat ((blob.length + 2) / 8) - 1) :: blob
  | .fragmentation => nextHeader :: 0 :: blob

/-- An extension header is put back. Whether the rest was dropped does not matter here. -/
def rebuildHeader (decompress : List UInt8 → Except Failure (UInt8 × Bool × List UInt8))
    (kind : ExtensionKind) (encoding : SixLowPanNhcExtension) (packet : List UInt8) :
    Except Failure (UInt8 × Bool × List UInt8) := do
  let (nextHeader, packet) ←
    if encoding.getNh then (decompress packet).map fun (type, _, packet) => (type, packet)
    else pure (encoding.nhcNextHeader, packet)
  let header ← orAborted (Ipv6Extension.deserialize kind (blobData kind nextHeader encoding.nhcBlob))
  pure (kind.headerType, false, header.serialize kind ++ packet)

/-- `DecompressLowPanNhc`: the type of the header, whether the packet was dropped, and the
packet. -/
def decompressLowPanNhc (decompress : List UInt8 → Except Failure (UInt8 × Bool × List UInt8))
    (decompressIphc : List UInt8 → Except Failure (Bool × List UInt8)) (packet : List UInt8) :
    Except Failure (UInt8 × Bool × List UInt8) := do
  let (encoding, packet) ← orAborted (SixLowPanNhcExtension.removeHeader packet)
  if encoding.getEid = 0 then rebuildHeader decompress .hopByHop encoding packet
  else if encoding.getEid = 1 then rebuildHeader decompress .routing encoding packet
  else if encoding.getEid = 2 then rebuildHeader decompress .fragmentation encoding packet
  else if encoding.getEid = 3 then rebuildHeader decompress .destination encoding packet
  else if encoding.getEid = 7 then do
    let (dropped, packet) ← decompressIphc packet
    pure (if dropped then (0, true, packet) else (Ipv6Header.ipv6, false, packet))
  else .error .aborted

/-- `DecompressLowPanIphc`, with the decompression of what is behind the header: whether the
packet was dropped, and the packet. -/
def decompressWith (self : SixLowPanNetDevice)
    (decompress : Ipv6Address → Ipv6Address → List UInt8 →
      Except Failure (UInt8 × Bool × List UInt8))
    (packet : List UInt8) (src dst : LinkAddress) : Except Failure (Bool × List UInt8) := do
  let (encoding, rest) ← orAborted (SixLowPanIphc.removeHeader packet)
  match self.decompressAddresses encoding src dst with
  | .error .dropped => pure (true, rest)
  | .error .aborted => .error .aborted
  | .ok (sourceAddress, destinationAddress) =>
      if encoding.getNh then do
        let (nextHeader, dropped, payload) ← decompress sourceAddress destinationAddress rest
        if dropped then pure (true, payload)
        else
          ((self.knowing none (some (nextHeader, payload))).decompressLowPanIphc packet src dst).map
            (false, ·)
      else ((self.knowing none none).decompressLowPanIphc packet src dst).map (false, ·)

end SixLowPanNetDevice

/-- The device with its attribute `OmitUdpChecksum`, on a node that does checksums or not. -/
structure SixLowPanNode extends SixLowPanNetDevice where
  omitUdpChecksum : Bool
  checksumEnabled : Bool

namespace SixLowPanNode

open SixLowPanNetDevice

variable (self : SixLowPanNode) (src dst : LinkAddress)

/-- The compression of a header that `CanCompressLowPanNhc` names. -/
def compressNext : Nat → UInt8 → List UInt8 → Except Failure (Option (List UInt8))
  | 0, _, _ => .error .aborted
  | steps + 1, nextHeader, packet =>
      if nextHeader = Ipv6Header.udp then
        orAborted ((compressLowPanUdpNhc packet self.omitUdpChecksum).map some)
      else if nextHeader = Ipv6Header.ipv6 then
        (self.compressWith (compressNext steps) packet src dst).map some
      else compressLowPanNhc (compressNext steps) nextHeader packet

/-- The decompression of a header by its first byte. -/
def decompressNext : Nat → Ipv6Address → Ipv6Address → List UInt8 →
    Except Failure (UInt8 × Bool × List UInt8)
  | 0, _, _, _ => .error .aborted
  | steps + 1, sourceAddress, destinationAddress, packet =>
      if isUdpNhcDispatch packet then
        orAborted ((decompressLowPanUdpNhc packet sourceAddress destinationAddress
          self.checksumEnabled).map fun packet => (Ipv6Header.udp, false, packet))
      else
        decompressLowPanNhc (decompressNext steps sourceAddress destinationAddress)
          (self.decompressWith (decompressNext steps) · src dst) packet

/-- `CompressLowPanIphc` of a packet. -/
def compressPacket (packet : List UInt8) : Except Failure (List UInt8) :=
  self.compressWith (self.compressNext src dst packet.length) packet src dst

/-- `DecompressLowPanIphc` of a packet, which may be dropped. -/
def decompressPacket (packet : List UInt8) : Except Failure (List UInt8) :=
  match self.decompressWith (self.decompressNext src dst packet.length) packet src dst with
  | .error failure => .error failure
  | .ok (true, _) => .error .dropped
  | .ok (false, packet) => .ok packet

end SixLowPanNode

end Ns3.SixLowPan
