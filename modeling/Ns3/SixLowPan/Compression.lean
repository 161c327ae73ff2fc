import Ns3.SixLowPan.Iphc

/-!
Header compression in `ns3::SixLowPanNetDevice`.

A packet is the list of its bytes. The compression of the header behind the IPv6 header is a
parameter.
-/

namespace Ns3.SixLowPan

open Library

/-- `ns3::Ipv6Header`. -/
structure Ipv6Header where
  trafficClass : UInt8
  flowLabel : BitVec 20
  payloadLength : UInt16
  nextHeader : UInt8
  hopLimit : UInt8
  sourceAddress : Ipv6Address
  destinationAddress : Ipv6Address
  deriving DecidableEq, Repr

namespace Ipv6Header

/-- The types of the headers that `CanCompressLowPanNhc` names. -/
def extHopByHop : UInt8 := 0

def udp : UInt8 := 17

def ipv6 : UInt8 := 41

def extRouting : UInt8 := 43

def extFragmentation : UInt8 := 44

/-- `GetSerializedSize`. -/
def serializedSize : Nat := 10 * 4

/-- The version, the traffic class and the flow label in one word. -/
def vTcFl (self : Ipv6Header) : BitVec 32 :=
  (6 : BitVec 32) <<< 28 ||| self.trafficClass.toBitVec.setWidth 32 <<< 20 |||
    self.flowLabel.setWidth 32

/-- `Serialize`. -/
def serialize (self : Ipv6Header) : List UInt8 :=
  (toBytes 4 self.vTcFl.toNat).reverse ++ ((toBytes 2 self.payloadLength.toNat).reverse ++
    (self.nextHeader :: self.hopLimit ::
      (self.sourceAddress.bytes ++ self.destinationAddress.bytes)))

/-- Read an address. -/
def readFrom (bytes : List UInt8) : Option Ipv6Address :=
  if whole : (bytes.take 16).length = 16 then some ⟨bytes.take 16, whole⟩ else none

/-- `Deserialize`, which refuses a header of another version. The field of the flow label has
twenty bits, and the mask keeps the other twelve. -/
def deserialize : List UInt8 → Option Ipv6Header
  | v₃ :: v₂ :: v₁ :: v₀ :: p₁ :: p₀ :: next :: limit :: rest => do
      let vTcFl := BitVec.ofNat 32 (ofBytes [v₀, v₁, v₂, v₃])
      let source ← readFrom rest
      let destination ← readFrom (rest.drop 16)
      if vTcFl >>> 28 = 6 then
        pure
          { trafficClass := .ofBitVec ((vTcFl >>> 20).setWidth 8)
            flowLabel := (vTcFl &&& 0xfff00000).setWidth 20
            payloadLength := .ofNat (ofBytes [p₀, p₁])
            nextHeader := next
            hopLimit := limit
            sourceAddress := source
            destinationAddress := destination }
      else none
  | _ => none

end Ipv6Header

/-- `ContextEntry`. -/
structure ContextEntry where
  contextPrefix : Ipv6Prefix
  compressionAllowed : Bool
  validLifetime : Nat
  deriving DecidableEq, Repr

/-- The compression of the header behind the IPv6 header. It may refuse a header, and a packet
that it cannot decompress is dropped. -/
structure NextHeaderCompression where
  compress : UInt8 → List UInt8 → LinkAddress → LinkAddress → Option (List UInt8)
  decompress : List UInt8 → LinkAddress → LinkAddress → Ipv6Address → Ipv6Address →
    Option (UInt8 × List UInt8)

/-- `ns3::SixLowPanNetDevice`, with its contexts by number, the clock and what new headers
have in their inline parts. -/
structure SixLowPanNetDevice where
  contextTable : Fin 16 → Option ContextEntry
  now : Nat
  srcGarbage : List UInt8
  dstGarbage : List UInt8
  length_srcGarbage : srcGarbage.length = 16
  length_dstGarbage : dstGarbage.length = 16
  nextHeaders : NextHeaderCompression

/-- Why there is no packet. -/
inductive Failure
  | aborted
  | dropped
  deriving DecidableEq, Repr

namespace SixLowPanNetDevice

/-- The first context that may be used and that the test accepts. -/
def findContext (self : SixLowPanNetDevice) (accepts : Ipv6Prefix → Bool) : Option (Fin 16) :=
  (List.finRange 16).find? fun contextId =>
    match self.contextTable contextId with
    | none => false
    | some context =>
        context.compressionAllowed && decide (context.validLifetime > self.now) &&
          accepts context.contextPrefix

/-- `FindUnicastCompressionContext`. -/
def findUnicastCompressionContext (self : SixLowPanNetDevice) (address : Ipv6Address) :
    Option (Fin 16) :=
  self.findContext address.hasPrefix

/-- The test of `FindMulticastCompressionContext` for `ffXX:XXLL:PPPP:PPPP:PPPP:PPPP:XXXX:XXXX`. -/
def matchesMulticast (address : Ipv6Address) (contextPrefix : Ipv6Prefix) : Bool :=
  decide (contextPrefix.prefixLength ≤ 64) &&
    decide ((address.bytes.drop 3).take 9 =
      UInt8.ofNat contextPrefix.prefixLength :: contextPrefix.bytes.take 8)

/-- `FindMulticastCompressionContext`. -/
def findMulticastCompressionContext (self : SixLowPanNetDevice) (address : Ipv6Address) :
    Option (Fin 16) :=
  self.findContext (matchesMulticast address)

/-- The prefix of a context that was found. -/
def contextPrefix? (self : SixLowPanNetDevice) (contextId : Fin 16) : Option Ipv6Prefix :=
  (self.contextTable contextId).map ContextEntry.contextPrefix

/-- A byte of `CleanPrefix`. -/
def cleanByte (prefixLength index : Nat) (byte : UInt8) : UInt8 :=
  if index < prefixLength / 8 then 0
  else if index = prefixLength / 8 ∧ prefixLength % 8 ≠ 0 then
    byte &&& UInt8.ofNat (2 ^ (prefixLength % 8) - 1)
  else byte

/-- `CleanPrefix`. -/
def cleanPrefix (address : Ipv6Address) (contextPrefix : Ipv6Prefix) : List UInt8 :=
  address.bytes.mapIdx (cleanByte contextPrefix.prefixLength)

/-- The part of `CompressLowPanIphc` for the traffic class and the flow label. The assertions
of the setters hold for every two, six and twenty bits. -/
def compressTf (ipHeader : Ipv6Header) (iphcHeader : SixLowPanIphc) : SixLowPanIphc :=
  let ecn := (ipHeader.trafficClass &&& 0xC0) >>> 6
  let dscp := ipHeader.trafficClass &&& 0x3F
  if ipHeader.flowLabel = 0 ∧ ipHeader.trafficClass = 0 then iphcHeader.setTf .tfElided
  else if ipHeader.flowLabel ≠ 0 ∧ ipHeader.trafficClass ≠ 0 then
    { iphcHeader.setTf .tfFull with ecn := ecn, dscp := dscp, flowLabel := ipHeader.flowLabel }
  else if ipHeader.flowLabel = 0 ∧ ipHeader.trafficClass ≠ 0 then
    { iphcHeader.setTf .tfFlElided with ecn := ecn, dscp := dscp }
  else { iphcHeader.setTf .tfDscpElided with ecn := ecn, flowLabel := ipHeader.flowLabel }

/-- `CanCompressLowPanNhc`. -/
def canCompressLowPanNhc (nextHeader : UInt8) : Bool :=
  nextHeader = Ipv6Header.udp || nextHeader = Ipv6Header.extHopByHop ||
    nextHeader = Ipv6Header.extRouting || nextHeader = Ipv6Header.extFragmentation ||
    nextHeader = Ipv6Header.ipv6

/-- The part of `CompressLowPanIphc` for the next header: the header, and the rest of the
packet. -/
def compressNh (self : SixLowPanNetDevice) (nextHeader : UInt8) (payload : List UInt8)
    (src dst : LinkAddress) (iphcHeader : SixLowPanIphc) : SixLowPanIphc × List UInt8 :=
  if canCompressLowPanNhc nextHeader then
    match self.nextHeaders.compress nextHeader payload src dst with
    | some compressed => (iphcHeader.setNh true, compressed)
    | none => ({ iphcHeader.setNh false with nextHeader := nextHeader }, payload)
  else ({ iphcHeader.setNh false with nextHeader := nextHeader }, payload)

/-- The part of `CompressLowPanIphc` for the hop limit. -/
def compressHlim (hopLimit : UInt8) (iphcHeader : SixLowPanIphc) : SixLowPanIphc :=
  if hopLimit = 1 then iphcHeader.setHlim .hlimCompr1
  else if hopLimit = 0x40 then iphcHeader.setHlim .hlimCompr64
  else if hopLimit = 0xFF then iphcHeader.setHlim .hlimCompr255
  else { iphcHeader.setHlim .hlimInline with hopLimit := hopLimit }

/-- An address as it is compressed: the mode and the inline part. -/
structure CompressedAddress where
  mode : HeaderCompression
  inlinePart : List UInt8
  deriving DecidableEq, Repr

/-- The first fourteen bytes of `fe80::00ff:fe00:1`. -/
def unicastAddrChecker : List UInt8 := Ipv6Address.linkLocalHalf ++ [0, 0, 0, 0xff, 0xfe, 0]

/-- The bytes 8 to 13 of an address that is made of a short link-layer address. -/
def shortChecker : List UInt8 := [0, 0, 0, 0xff, 0xfe, 0]

/-- The stateless compression of a unicast address. -/
def compressStateless (address : Ipv6Address) (link : LinkAddress) : CompressedAddress :=
  if address = Ipv6Address.makeAutoconfiguredLinkLocalAddress link then ⟨.hcCompr0, []⟩
  else if address.bytes.take 14 = unicastAddrChecker then ⟨.hcCompr16, address.bytes.drop 14⟩
  else if address.isLinkLocal then ⟨.hcCompr64, address.bytes.drop 8⟩
  else ⟨.hcInline, address.bytes⟩

/-- The stateful compression of a unicast address. -/
def compressStateful (address : Ipv6Address) (link : LinkAddress)
    (contextPrefix : Ipv6Prefix) : Except Failure CompressedAddress :=
  match Ipv6Address.makeAutoconfiguredAddress link contextPrefix with
  | none => .error .aborted
  | some configured =>
      if configured = address then .ok ⟨.hcCompr0, []⟩
      else
        let cleaned := cleanPrefix address contextPrefix
        if (cleaned.drop 8).take 6 = shortChecker then .ok ⟨.hcCompr16, cleaned.drop 14⟩
        else .ok ⟨.hcCompr64, cleaned.drop 8⟩

/-- The stateless compression of a multicast address. -/
def compressMulticast (address : Ipv6Address) : CompressedAddress :=
  let bytes := address.bytes
  if bytes.take 15 = 0xff :: 0x02 :: List.replicate 13 0 then ⟨.hcCompr0, bytes.drop 15⟩
  else if bytes.head? = some 0xff ∧ (bytes.drop 2).take 11 = List.replicate 11 0 then
    ⟨.hcCompr16, (bytes.drop 1).take 1 ++ bytes.drop 13⟩
  else if bytes.head? = some 0xff ∧ (bytes.drop 2).take 9 = List.replicate 9 0 then
    ⟨.hcCompr64, (bytes.drop 1).take 1 ++ bytes.drop 11⟩
  else ⟨.hcInline, bytes⟩

/-- The number of a context in the header; the default context is not told. -/
def setSrcContext (contextId : Fin 16) (iphcHeader : SixLowPanIphc) : SixLowPanIphc :=
  if contextId ≠ 0 then
    (iphcHeader.setSrcContextId (UInt8.ofNat contextId)).setCid true
  else iphcHeader

def setDstContext (contextId : Fin 16) (iphcHeader : SixLowPanIphc) : SixLowPanIphc :=
  if contextId ≠ 0 then
    (iphcHeader.setDstContextId (UInt8.ofNat contextId)).setCid true
  else iphcHeader

def setSrcAddress (compressed : CompressedAddress) (iphcHeader : SixLowPanIphc) :
    SixLowPanIphc :=
  (iphcHeader.setSam compressed.mode).setSrcInlinePart compressed.inlinePart

def setDstAddress (compressed : CompressedAddress) (iphcHeader : SixLowPanIphc) :
    SixLowPanIphc :=
  (iphcHeader.setDam compressed.mode).setDstInlinePart compressed.inlinePart

/-- The part of `CompressLowPanIphc` for the source address. -/
def compressSource (self : SixLowPanNetDevice) (srcAddr : Ipv6Address) (src : LinkAddress)
    (iphcHeader : SixLowPanIphc) : Except Failure SixLowPanIphc :=
  if srcAddr = Ipv6Address.any then .ok ((iphcHeader.setSam .hcInline).setSac true)
  else
    match self.findUnicastCompressionContext srcAddr with
    | some contextId =>
        match self.contextPrefix? contextId with
        | none => .error .aborted
        | some contextPrefix => do
            let compressed ← compressStateful srcAddr src contextPrefix
            pure (setSrcAddress compressed (setSrcContext contextId (iphcHeader.setSac true)))
    | none => .ok (setSrcAddress (compressStateless srcAddr src) iphcHeader)

/-- The part of `CompressLowPanIphc` for a unicast destination address. -/
def compressUnicastDestination (self : SixLowPanNetDevice) (dstAddr : Ipv6Address)
    (dst : LinkAddress) (iphcHeader : SixLowPanIphc) : Except Failure SixLowPanIphc :=
  match self.findUnicastCompressionContext dstAddr with
  | some contextId =>
      match self.contextPrefix? contextId with
      | none => .error .aborted
      | some contextPrefix => do
          let compressed ← compressStateful dstAddr dst contextPrefix
          pure (setDstAddress compressed (setDstContext contextId (iphcHeader.setDac true)))
  | none => .ok (setDstAddress (compressStateless dstAddr dst) iphcHeader)

/-- The part of `CompressLowPanIphc` for a multicast destination address. -/
def compressMulticastDestination (self : SixLowPanNetDevice) (dstAddr : Ipv6Address)
    (iphcHeader : SixLowPanIphc) : SixLowPanIphc :=
  match self.findMulticastCompressionContext dstAddr with
  | some contextId =>
      let inlinePart := (dstAddr.bytes.drop 1).take 2 ++ dstAddr.bytes.drop 12
      setDstAddress ⟨.hcInline, inlinePart⟩ (setDstContext contextId (iphcHeader.setDac true))
  | none => setDstAddress (compressMulticast dstAddr) iphcHeader

/-- The part of `CompressLowPanIphc` for the destination address. -/
def compressDestination (self : SixLowPanNetDevice) (dstAddr : Ipv6Address) (dst : LinkAddress)
    (iphcHeader : SixLowPanIphc) : Except Failure SixLowPanIphc :=
  if dstAddr.isMulticast then
    .ok (self.compressMulticastDestination dstAddr (iphcHeader.setM true))
  else self.compressUnicastDestination dstAddr dst (iphcHeader.setM false)

/-- The header that `CompressLowPanIphc` adds, and the rest of the packet. -/
def compressHeader (self : SixLowPanNetDevice) (ipHeader : Ipv6Header) (payload : List UInt8)
    (src dst : LinkAddress) : Except Failure (SixLowPanIphc × List UInt8) := do
  let iphcHeader := compressTf ipHeader (.create self.srcGarbage self.dstGarbage)
  let (iphcHeader, rest) := self.compressNh ipHeader.nextHeader payload src dst iphcHeader
  let iphcHeader := compressHlim ipHeader.hopLimit iphcHeader
  let iphcHeader := ((iphcHeader.setCid false).setSac false).setDac false
  let iphcHeader ← self.compressSource ipHeader.sourceAddress src iphcHeader
  let iphcHeader ← self.compressDestination ipHeader.destinationAddress dst iphcHeader
  pure (iphcHeader, rest)

/-- A step that reads or writes behind the end of a packet aborts. -/
def orAborted {α : Type} : Option α → Except Failure α
  | none => .error .aborted
  | some result => .ok result

/-- `CompressLowPanIphc`; a packet of another version stays as it is. -/
def compressLowPanIphc (self : SixLowPanNetDevice) (packet : List UInt8)
    (src dst : LinkAddress) : Except Failure (List UInt8) :=
  if packet.length < Ipv6Header.serializedSize then .error .aborted
  else
    match Ipv6Header.deserialize packet with
    | none => .ok packet
    | some ipHeader => do
        let (iphcHeader, rest) ←
          self.compressHeader ipHeader (packet.drop Ipv6Header.serializedSize) src dst
        orAborted (iphcHeader.addHeader rest)

/-- A byte that the prefix overrides. -/
def overrideByte (contextPrefix : Ipv6Prefix) (index : Nat) (byte : UInt8) : UInt8 :=
  let mask := addressBitMask contextPrefix.prefixLength index
  (contextPrefix.bytes.getD index 0 &&& ~~~ mask) ||| (byte &&& mask)

/-- The address with the prefix over it. -/
def overridePrefix (contextPrefix : Ipv6Prefix) (bytes : List UInt8) : List UInt8 :=
  bytes.mapIdx (overrideByte contextPrefix)

/-- `Ipv6Address::Deserialize` of sixteen bytes. -/
def toAddress (bytes : List UInt8) : Except Failure Ipv6Address :=
  if whole : bytes.length = 16 then .ok ⟨bytes, whole⟩ else .error .aborted

/-- The context that a packet names. -/
def namedContext (self : SixLowPanNetDevice) (contextId : UInt8) : Except Failure Ipv6Prefix :=
  if named : contextId.toNat < 16 then
    match self.contextTable ⟨contextId.toNat, named⟩ with
    | none => .error .dropped
    | some context =>
        if context.validLifetime < self.now then .error .dropped else .ok context.contextPrefix
  else .error .dropped

/-- The stateful decompression of a unicast address. -/
def decompressStateful (mode : HeaderCompression) (inlinePart : List UInt8) (link : LinkAddress)
    (contextPrefix : Ipv6Prefix) : Except Failure Ipv6Address :=
  let bytes :=
    match mode with
    | .hcCompr64 => List.replicate 8 0 ++ inlinePart.take 8
    | .hcCompr16 => List.replicate 8 0 ++ shortChecker ++ inlinePart.take 2
    | _ => (Ipv6Address.makeAutoconfiguredLinkLocalAddress link).bytes
  toAddress (overridePrefix contextPrefix bytes)

/-- The stateless decompression of a unicast address. -/
def decompressStateless (mode : HeaderCompression) (inlinePart : List UInt8)
    (link : LinkAddress) : Except Failure Ipv6Address :=
  match mode with
  | .hcInline => toAddress (inlinePart.take 16)
  | .hcCompr64 => toAddress (Ipv6Address.linkLocalHalf ++ inlinePart.take 8)
  | .hcCompr16 => toAddress (unicastAddrChecker ++ inlinePart.take 2)
  | .hcCompr0 => .ok (Ipv6Address.makeAutoconfiguredLinkLocalAddress link)

/-- The part of `DecompressLowPanIphc` for the source address. -/
def decompressSource (self : SixLowPanNetDevice) (encoding : SixLowPanIphc)
    (src : LinkAddress) : Except Failure Ipv6Address :=
  if encoding.getSac then
    if encoding.getSam = .hcInline then .ok Ipv6Address.any
    else do
      let contextPrefix ← self.namedContext encoding.getSrcContextId
      decompressStateful encoding.getSam encoding.srcInlinePart src contextPrefix
  else decompressStateless encoding.getSam encoding.srcInlinePart src

/-- The stateless decompression of a multicast address. -/
def decompressMulticast (mode : HeaderCompression) (inlinePart : List UInt8) :
    Except Failure Ipv6Address :=
  match mode with
  | .hcInline => toAddress (inlinePart.take 16)
  | .hcCompr64 => toAddress
      (0xff :: inlinePart.take 1 ++ List.replicate 9 0 ++ (inlinePart.drop 1).take 5)
  | .hcCompr16 => toAddress
      (0xff :: inlinePart.take 1 ++ List.replicate 11 0 ++ (inlinePart.drop 1).take 3)
  | .hcCompr0 => toAddress (0xff :: 0x02 :: List.replicate 13 0 ++ inlinePart.take 1)

/-- The part of `DecompressLowPanIphc` for the destination address. -/
def decompressDestination (self : SixLowPanNetDevice) (encoding : SixLowPanIphc)
    (dst : LinkAddress) : Except Failure Ipv6Address :=
  if encoding.getDac then
    if (encoding.getDam = .hcInline ∧ encoding.getM = false) ∨
        (encoding.getDam ≠ .hcInline ∧ encoding.getM = true) then .error .aborted
    else do
      let contextPrefix ← self.namedContext encoding.getDstContextId
      if encoding.getM then
        let inlinePart := encoding.dstInlinePart
        toAddress (0xff :: inlinePart.take 2 ++
          UInt8.ofNat contextPrefix.prefixLength :: contextPrefix.bytes.take 8 ++
          (inlinePart.drop 2).take 4)
      else decompressStateful encoding.getDam encoding.dstInlinePart dst contextPrefix
  else if encoding.getM then decompressMulticast encoding.getDam encoding.dstInlinePart
  else decompressStateless encoding.getDam encoding.dstInlinePart dst

/-- The part of `DecompressLowPanIphc` for the traffic class and the flow label. -/
def decompressTf (encoding : SixLowPanIphc) : UInt8 × BitVec 20 :=
  match encoding.getTf with
  | .tfFull => (encoding.ecn <<< 6 ||| encoding.dscp, encoding.flowLabel &&& 0xfff)
  | .tfDscpElided => (encoding.ecn <<< 2, encoding.flowLabel)
  | .tfFlElided => (encoding.ecn <<< 6 ||| encoding.dscp, 0)
  | .tfElided => (0, 0)

/-- The part of `DecompressLowPanIphc` for the next header: its type, and the packet. -/
def decompressNh (self : SixLowPanNetDevice) (encoding : SixLowPanIphc) (rest : List UInt8)
    (src dst : LinkAddress) (sourceAddress destinationAddress : Ipv6Address) :
    Except Failure (UInt8 × List UInt8) :=
  if encoding.getNh then
    match self.nextHeaders.decompress rest src dst sourceAddress destinationAddress with
    | none => .error .dropped
    | some result => .ok result
  else .ok (encoding.nextHeader, rest)

/-- The addresses that `DecompressLowPanIphc` rebuilds. -/
def decompressAddresses (self : SixLowPanNetDevice) (encoding : SixLowPanIphc)
    (src dst : LinkAddress) : Except Failure (Ipv6Address × Ipv6Address) := do
  let sourceAddress ← self.decompressSource encoding src
  let destinationAddress ← self.decompressDestination encoding dst
  pure (sourceAddress, destinationAddress)

/-- `DecompressLowPanIphc`. -/
def decompressLowPanIphc (self : SixLowPanNetDevice) (packet : List UInt8)
    (src dst : LinkAddress) : Except Failure (List UInt8) := do
  let (encoding, rest) ← orAborted (SixLowPanIphc.removeHeader packet)
  let (sourceAddress, destinationAddress) ← self.decompressAddresses encoding src dst
  let (nextHeader, payload) ←
    self.decompressNh encoding rest src dst sourceAddress destinationAddress
  let ipHeader : Ipv6Header :=
    { trafficClass := (decompressTf encoding).1
      flowLabel := (decompressTf encoding).2
      payloadLength := .ofNat payload.length
      nextHeader := nextHeader
      hopLimit := encoding.hopLimit
      sourceAddress := sourceAddress
      destinationAddress := destinationAddress }
  pure (ipHeader.serialize ++ payload)

end SixLowPanNetDevice

end Ns3.SixLowPan
