import Ns3.SixLowPan.Compression

/-!
`ns3::SixLowPanUdpNhcExtension`: UDP headers in compressed packets.

Ports that begin with 0xf0 or 0xf0b are shortened to their last byte or digit, and the receiver
puts the rest back.
-/

namespace Ns3.SixLowPan

open Library

/-- The bytes of a number in network order. -/
def htonU16 (value : UInt16) : List UInt8 := (toBytes 2 value.toNat).reverse

def ntohU16 (high low : UInt8) : UInt16 := .ofNat (ofBytes [low, high])

/-- The bytes of a number as `WriteU16` writes them. -/
def writeU16 (value : UInt16) : List UInt8 := toBytes 2 value.toNat

def readU16 (low high : UInt8) : UInt16 := .ofNat (ofBytes [low, high])

@[simp]
theorem readU16_toBytes (value : UInt16) :
    readU16 value.toUInt8 (UInt8.ofNat (value.toNat / 256)) = value := by
  have low : value.toUInt8 = UInt8.ofNat value.toNat := by simp
  rw [low]
  change UInt16.ofNat (ofBytes (toBytes 2 value.toNat)) = value
  rw [ofBytes_toBytes value.toNat_lt, UInt16.ofNat_toNat]

@[simp]
theorem ntohU16_toBytes (value : UInt16) :
    ntohU16 (UInt8.ofNat (value.toNat / 256)) value.toUInt8 = value :=
  readU16_toBytes value

/-- `Buffer::Iterator::CalculateIpChecksum`. -/
def calculateIpChecksum (bytes : List UInt8) (initialChecksum : Nat) : UInt16 :=
  let fold (sum : Nat) : Nat := sum % 65536 + sum / 65536
  ~~~ UInt16.ofNat (fold (fold (fold (initialChecksum +
    ((bytes.take (bytes.length % 65536)).mapIdx fun index byte =>
      if index % 2 = 0 then byte.toNat else 256 * byte.toNat).sum))))

/-- `ns3::UdpHeader`; the addresses are there if the checksum is to be calculated. -/
structure UdpHeader where
  sourcePort : UInt16 := 0xfffd
  destinationPort : UInt16 := 0xfffd
  payloadSize : UInt16 := 0
  checksum : UInt16 := 0
  addresses : Option (Ipv6Address × Ipv6Address) := none
  deriving DecidableEq

namespace UdpHeader

/-- `GetSerializedSize`. -/
def serializedSize : Nat := 8

/-- `CalculateHeaderChecksum`, of the pseudo header. -/
def calculateHeaderChecksum (source destination : Ipv6Address) (size : Nat) : UInt16 :=
  ~~~ calculateIpChecksum (source.bytes ++ destination.bytes ++
    [0, 0, UInt8.ofNat (size / 256), UInt8.ofNat size, 0, 0, 0, Ipv6Header.udp]) 0

/-- `AddHeader`, with the bytes that `Serialize` writes in front of the packet. -/
def addHeader (self : UdpHeader) (packet : List UInt8) : List UInt8 :=
  let size := serializedSize + packet.length
  let ports := htonU16 self.sourcePort ++ htonU16 self.destinationPort
  let length := htonU16 (if self.payloadSize = 0 then .ofNat size else self.payloadSize)
  let checksum :=
    if self.checksum = 0 then
      match self.addresses with
      | none => 0
      | some (source, destination) =>
          calculateIpChecksum (ports ++ length ++ writeU16 0 ++ packet)
            (calculateHeaderChecksum source destination (size % 65536)).toNat
    else self.checksum
  ports ++ length ++ writeU16 checksum ++ packet

/-- `RemoveHeader`: the header, and the packet without it. -/
def removeHeader : List UInt8 → Option (UdpHeader × List UInt8)
  | s₁ :: s₀ :: d₁ :: d₀ :: l₁ :: l₀ :: c₀ :: c₁ :: packet =>
      some ({ sourcePort := ntohU16 s₁ s₀
              destinationPort := ntohU16 d₁ d₀
              payloadSize := ntohU16 l₁ l₀ - .ofNat serializedSize
              checksum := readU16 c₀ c₁ }, packet)
  | _ => none

end UdpHeader

/-- `Ports_e`. -/
inductive Ports
  | portsInline
  | portsAllSrcLastDst
  | portsLastSrcAllDst
  | portsLastSrcLastDst
  deriving DecidableEq, Repr

namespace Ports

def code : Ports → UInt8
  | portsInline => 0
  | portsAllSrcLastDst => 1
  | portsLastSrcAllDst => 2
  | portsLastSrcLastDst => 3

def ofCode (code : UInt8) : Ports :=
  if code = 0 then portsInline else if code = 1 then portsAllSrcLastDst
  else if code = 2 then portsLastSrcAllDst else portsLastSrcLastDst

end Ports

/-- `ns3::SixLowPanUdpNhcExtension`. -/
structure SixLowPanUdpNhcExtension where
  baseFormat : UInt8 := 0xF0
  checksum : UInt16 := 0
  srcPort : UInt16 := 0
  dstPort : UInt16 := 0
  deriving DecidableEq, Repr

namespace SixLowPanUdpNhcExtension

variable (self : SixLowPanUdpNhcExtension)

/-- `SetPorts`. -/
def setPorts (ports : Ports) : SixLowPanUdpNhcExtension :=
  { self with baseFormat := self.baseFormat ||| ports.code }

/-- `GetPorts`. -/
def getPorts : Ports := .ofCode (self.baseFormat &&& 0x3)

/-- `SetC`. -/
def setC (cField : Bool) : SixLowPanUdpNhcExtension :=
  { self with baseFormat := self.baseFormat ||| (if cField then (1 : UInt8) else 0) <<< 2 }

/-- `GetC`. -/
def getC : Bool := (self.baseFormat >>> 2) &&& 0x1 = 1

/-- `GetSerializedSize`. -/
def getSerializedSize : Nat :=
  1 + (if self.getC then 0 else 2) +
    match self.getPorts with
    | .portsInline => 4
    | .portsAllSrcLastDst | .portsLastSrcAllDst => 3
    | .portsLastSrcLastDst => 1

/-- What `Serialize` writes for the ports. -/
def serializePorts : List UInt8 :=
  match self.getPorts with
  | .portsInline => htonU16 self.srcPort ++ htonU16 self.dstPort
  | .portsAllSrcLastDst => htonU16 self.srcPort ++ [(self.dstPort &&& 0xff).toUInt8]
  | .portsLastSrcAllDst => (self.srcPort &&& 0xff).toUInt8 :: htonU16 self.dstPort
  | .portsLastSrcLastDst => [((self.srcPort &&& 0xf) <<< 4 ||| (self.dstPort &&& 0xf)).toUInt8]

/-- `Serialize`. -/
def serialize : List UInt8 :=
  self.baseFormat :: (self.serializePorts ++ if self.getC then [] else writeU16 self.checksum)

/-- What `Deserialize` reads for the ports. -/
def deserializePorts (packet : List UInt8) : Option (SixLowPanUdpNhcExtension × List UInt8) :=
  match self.getPorts, packet with
  | .portsInline, s₁ :: s₀ :: d₁ :: d₀ :: packet =>
      some ({ self with srcPort := ntohU16 s₁ s₀, dstPort := ntohU16 d₁ d₀ }, packet)
  | .portsAllSrcLastDst, s₁ :: s₀ :: d₀ :: packet =>
      some ({ self with srcPort := ntohU16 s₁ s₀, dstPort := d₀.toUInt16 }, packet)
  | .portsLastSrcAllDst, s₀ :: d₁ :: d₀ :: packet =>
      some ({ self with srcPort := s₀.toUInt16, dstPort := ntohU16 d₁ d₀ }, packet)
  | .portsLastSrcLastDst, temp :: packet =>
      some ({ self with srcPort := (temp >>> 4).toUInt16, dstPort := (temp &&& 0xf).toUInt16 },
        packet)
  | _, _ => none

/-- What `Deserialize` reads for the checksum. -/
def deserializeChecksum (packet : List UInt8) : Option (SixLowPanUdpNhcExtension × List UInt8) :=
  if self.getC then some (self, packet)
  else
    match packet with
    | c₀ :: c₁ :: packet => some ({ self with checksum := readU16 c₀ c₁ }, packet)
    | _ => none

/-- `RemoveHeader`: the header, and the packet without it. -/
def removeHeader : List UInt8 → Option (SixLowPanUdpNhcExtension × List UInt8)
  | [] => none
  | baseFormat :: packet => do
      let (self, packet) ← ({ baseFormat } : SixLowPanUdpNhcExtension).deserializePorts packet
      self.deserializeChecksum packet

end SixLowPanUdpNhcExtension

namespace SixLowPanNetDevice

/-- The P field that `CompressLowPanUdpNhc` sets. -/
def portsField (sourcePort destinationPort : UInt16) : Ports :=
  if sourcePort >>> 4 = 0xf0b ∧ destinationPort >>> 4 = 0xf0b then .portsLastSrcLastDst
  else if sourcePort >>> 8 = 0xf0 ∧ destinationPort >>> 8 ≠ 0xf0 then .portsLastSrcAllDst
  else if sourcePort >>> 8 ≠ 0xf0 ∧ destinationPort >>> 8 = 0xf0 then .portsAllSrcLastDst
  else .portsInline

/-- The header that `CompressLowPanUdpNhc` adds. The checksum of the header that it has read was
not checked, and counts as a good one. -/
def udpNhcHeader (udpHeader : UdpHeader) (omitChecksum : Bool) : SixLowPanUdpNhcExtension :=
  let udpNhcHeader : SixLowPanUdpNhcExtension :=
    { checksum := udpHeader.checksum
      srcPort := udpHeader.sourcePort
      dstPort := udpHeader.destinationPort }
  ((udpNhcHeader.setC false).setC omitChecksum).setPorts
    (portsField udpHeader.sourcePort udpHeader.destinationPort)

/-- `CompressLowPanUdpNhc`. -/
def compressLowPanUdpNhc (packet : List UInt8) (omitChecksum : Bool) : Option (List UInt8) :=
  (UdpHeader.removeHeader packet).map fun (udpHeader, packet) =>
    (udpNhcHeader udpHeader omitChecksum).serialize ++ packet

/-- The ports that `DecompressLowPanUdpNhc` sets. -/
def restoredPorts (encoding : SixLowPanUdpNhcExtension) : UInt16 × UInt16 :=
  let lastByte (port : UInt16) : UInt16 := (0xf0 : UInt16) ||| ((0xf0 : UInt16) <<< 8 ||| port)
  let lastDigit (port : UInt16) : UInt16 := (0xf0b : UInt16) ||| ((0xf0b : UInt16) <<< 4 ||| port)
  match encoding.getPorts with
  | .portsInline => (encoding.srcPort, encoding.dstPort)
  | .portsAllSrcLastDst => (encoding.srcPort, lastByte encoding.dstPort)
  | .portsLastSrcAllDst => (lastByte encoding.srcPort, encoding.dstPort)
  | .portsLastSrcLastDst => (lastDigit encoding.srcPort, lastDigit encoding.dstPort)

/-- `DecompressLowPanUdpNhc`, on a node that does checksums or does not. -/
def decompressLowPanUdpNhc (packet : List UInt8) (saddr daddr : Ipv6Address)
    (checksumEnabled : Bool) : Option (List UInt8) :=
  (SixLowPanUdpNhcExtension.removeHeader packet).map fun (encoding, packet) =>
    let (sourcePort, destinationPort) := restoredPorts encoding
    let udpHeader : UdpHeader := { sourcePort, destinationPort }
    if checksumEnabled then
      if encoding.getC then
        UdpHeader.addHeader { udpHeader with addresses := some (saddr, daddr) } packet
      else UdpHeader.addHeader { udpHeader with checksum := encoding.checksum } packet
    else udpHeader.addHeader packet

end SixLowPanNetDevice

/-- A UDP packet with these fields. -/
def udpPacket (sourcePort destinationPort length checksum : UInt16) (payload : List UInt8) :
    List UInt8 :=
  htonU16 sourcePort ++ htonU16 destinationPort ++ htonU16 length ++ writeU16 checksum ++ payload

theorem removeHeader_udpPacket (sourcePort destinationPort length checksum : UInt16)
    (payload : List UInt8) :
    UdpHeader.removeHeader (udpPacket sourcePort destinationPort length checksum payload) =
      some ({ sourcePort, destinationPort, payloadSize := length - 8, checksum }, payload) := by
  simp [udpPacket, htonU16, writeU16, toBytes, UdpHeader.removeHeader, UdpHeader.serializedSize]

theorem addHeader_eq_udpPacket (sourcePort destinationPort checksum : UInt16)
    (payload : List UInt8) :
    UdpHeader.addHeader { sourcePort, destinationPort, checksum } payload =
      udpPacket sourcePort destinationPort (.ofNat (8 + payload.length)) checksum payload := by
  unfold UdpHeader.addHeader udpPacket
  by_cases zero : checksum = 0 <;> simp [zero, UdpHeader.serializedSize]

namespace SixLowPanUdpNhcExtension

theorem length_serialize (self : SixLowPanUdpNhcExtension) :
    self.serialize.length = self.getSerializedSize := by
  have ports : self.serializePorts.length = match self.getPorts with
      | .portsInline => 4
      | .portsAllSrcLastDst | .portsLastSrcAllDst => 3
      | .portsLastSrcLastDst => 1 := by
    unfold serializePorts
    cases self.getPorts <;> rfl
  have checksum : (if self.getC then [] else writeU16 self.checksum).length =
      if self.getC then 0 else 2 := by
    split <;> rfl
  rw [serialize, getSerializedSize, List.length_cons, List.length_append, ports, checksum]
  omega

end SixLowPanUdpNhcExtension

namespace SixLowPanNetDevice

theorem udpNhcHeader_eq (udpHeader : UdpHeader) :
    udpNhcHeader udpHeader false =
      { baseFormat := 0xF0 ||| (portsField udpHeader.sourcePort udpHeader.destinationPort).code
        checksum := udpHeader.checksum
        srcPort := udpHeader.sourcePort
        dstPort := udpHeader.destinationPort } := by
  simp [udpNhcHeader, SixLowPanUdpNhcExtension.setPorts, SixLowPanUdpNhcExtension.setC]

/-- The choices that a base format tells. -/
theorem getPorts_code (self : SixLowPanUdpNhcExtension) {ports : Ports}
    (isFormat : self.baseFormat = 0xF0 ||| ports.code) :
    self.getPorts = ports ∧ self.getC = false := by
  rw [SixLowPanUdpNhcExtension.getPorts, SixLowPanUdpNhcExtension.getC, isFormat]
  cases ports <;> decide

/-- The ports that the receiver reads. -/
def readPorts (sourcePort destinationPort : UInt16) : UInt16 × UInt16 :=
  match portsField sourcePort destinationPort with
  | .portsInline => (sourcePort, destinationPort)
  | .portsAllSrcLastDst => (sourcePort, destinationPort &&& 0xff)
  | .portsLastSrcAllDst => (sourcePort &&& 0xff, destinationPort)
  | .portsLastSrcLastDst => (sourcePort &&& 0xf, destinationPort &&& 0xf)

theorem toUInt16_lastByte (port : UInt16) : (port &&& 0xff).toUInt8.toUInt16 = port &&& 0xff := by
  have mask (n : Nat) : n &&& 255 = n % 256 := Nat.and_two_pow_sub_one_eq_mod n 8
  apply UInt16.toNat_inj.mp
  simp [mask]

theorem toUInt16_lastDigits (source destination : UInt16) :
    (((source &&& 0xf) <<< 4 ||| (destination &&& 0xf)).toUInt8 >>> 4).toUInt16 = source &&& 0xf ∧
      (((source &&& 0xf) <<< 4 ||| (destination &&& 0xf)).toUInt8 &&& 0xf).toUInt16 =
        destination &&& 0xf := by
  have small (port : UInt16) : ∃ digit : Fin 16, port &&& 0xf = UInt16.ofNat digit := by
    have mask : port.toNat &&& 15 = port.toNat % 16 := Nat.and_two_pow_sub_one_eq_mod port.toNat 4
    refine ⟨⟨port.toNat % 16, by omega⟩, UInt16.toNat_inj.mp ?_⟩
    simp [mask]
    omega
  obtain ⟨first, isFirst⟩ := small source
  obtain ⟨second, isSecond⟩ := small destination
  have all : ∀ first second : Fin 16,
      (((UInt16.ofNat first) <<< 4 ||| UInt16.ofNat second).toUInt8 >>> 4).toUInt16 =
          UInt16.ofNat first ∧
        (((UInt16.ofNat first) <<< 4 ||| UInt16.ofNat second).toUInt8 &&& 0xf).toUInt16 =
          UInt16.ofNat second := by
    decide
  rw [isFirst, isSecond]
  exact all first second

/-- The bytes of a number, one by one. -/
theorem htonU16_eq (value : UInt16) :
    htonU16 value = [UInt8.ofNat (value.toNat / 256), value.toUInt8] := by
  simp [htonU16, toBytes]

theorem writeU16_eq (value : UInt16) :
    writeU16 value = [value.toUInt8, UInt8.ofNat (value.toNat / 256)] := by
  simp [writeU16, toBytes]

theorem removeHeader_udpNhcHeader (udpHeader : UdpHeader) (packet : List UInt8) :
    SixLowPanUdpNhcExtension.removeHeader ((udpNhcHeader udpHeader false).serialize ++ packet) =
      some ({ baseFormat := 0xF0 ||| (portsField udpHeader.sourcePort udpHeader.destinationPort).code
              checksum := udpHeader.checksum
              srcPort := (readPorts udpHeader.sourcePort udpHeader.destinationPort).1
              dstPort := (readPorts udpHeader.sourcePort udpHeader.destinationPort).2 }, packet) := by
  rw [udpNhcHeader_eq, readPorts]
  generalize portsField udpHeader.sourcePort udpHeader.destinationPort = ports
  obtain ⟨source, destination⟩ :=
    toUInt16_lastDigits udpHeader.sourcePort udpHeader.destinationPort
  have choices := fun (checksum srcPort dstPort : UInt16) =>
    getPorts_code ⟨0xF0 ||| ports.code, checksum, srcPort, dstPort⟩ rfl
  simp only [SixLowPanUdpNhcExtension.serialize, SixLowPanUdpNhcExtension.serializePorts,
    SixLowPanUdpNhcExtension.removeHeader, SixLowPanUdpNhcExtension.deserializePorts,
    SixLowPanUdpNhcExtension.deserializeChecksum, choices, List.cons_append, List.append_assoc,
    htonU16_eq, writeU16_eq, Bool.false_eq_true, if_false]
  cases ports <;>
    simp only [List.cons_append, List.nil_append, Option.bind_eq_bind, Option.bind_some, choices,
      Bool.false_eq_true, if_false, ntohU16_toBytes, readU16_toBytes, toUInt16_lastByte, source,
      destination]

/-- The ports that the receiver makes of them. -/
def rebuiltPorts (sourcePort destinationPort : UInt16) : UInt16 × UInt16 :=
  match portsField sourcePort destinationPort with
  | .portsInline => (sourcePort, destinationPort)
  | .portsAllSrcLastDst => (sourcePort, 0xf0f0 ||| (destinationPort &&& 0xff))
  | .portsLastSrcAllDst => (0xf0f0 ||| (sourcePort &&& 0xff), destinationPort)
  | .portsLastSrcLastDst => (0xffbb ||| (sourcePort &&& 0xf), 0xffbb ||| (destinationPort &&& 0xf))

/-- What comes back of a UDP packet. -/
theorem decompress_compress_udp (sourcePort destinationPort length checksum : UInt16)
    (payload : List UInt8) (saddr daddr : Ipv6Address) :
    (compressLowPanUdpNhc (udpPacket sourcePort destinationPort length checksum payload) false).bind
        (decompressLowPanUdpNhc · saddr daddr true) =
      some (udpPacket (rebuiltPorts sourcePort destinationPort).1
        (rebuiltPorts sourcePort destinationPort).2 (.ofNat (8 + payload.length)) checksum payload) := by
  have word (a b c : UInt16) (joined : a ||| b = c) (port : UInt16) :
      a ||| (b ||| port) = c ||| port := by
    rw [← joined]
    exact (UInt16.or_assoc a b port).symm
  obtain ⟨ports, noC⟩ := getPorts_code
    { baseFormat := 0xF0 ||| (portsField sourcePort destinationPort).code
      checksum := checksum
      srcPort := (readPorts sourcePort destinationPort).1
      dstPort := (readPorts sourcePort destinationPort).2 } rfl
  rw [compressLowPanUdpNhc, removeHeader_udpPacket, Option.map_some, Option.bind_some,
    decompressLowPanUdpNhc, removeHeader_udpNhcHeader, Option.map_some]
  simp only [noC, if_true, Bool.false_eq_true, if_false, addHeader_eq_udpPacket, restoredPorts,
    ports]
  rw [readPorts, rebuiltPorts]
  cases portsField sourcePort destinationPort with
  | portsInline => rfl
  | portsAllSrcLastDst | portsLastSrcAllDst =>
      simp only [word 0xf0 ((0xf0 : UInt16) <<< 8) 0xf0f0 (by decide)]
  | portsLastSrcLastDst => simp only [word 0xf0b ((0xf0b : UInt16) <<< 4) 0xffbb (by decide)]

/-- Where a port that is shortened comes back. -/
theorem lastByte_eq_iff {port : UInt16} (first : port >>> 8 = 0xf0) :
    0xf0f0 ||| (port &&& 0xff) = port ↔ port >>> 4 = 0xf0f := by
  have all : ∀ byte : Fin 256, 0xf0f0 ||| (UInt16.ofNat (61440 + byte) &&& 0xff) =
      UInt16.ofNat (61440 + byte) ↔ UInt16.ofNat (61440 + byte) >>> 4 = 0xf0f := by
    decide +kernel
  have number : port.toNat / 256 = 240 := by
    have := congrArg UInt16.toNat first
    simpa [Nat.shiftRight_eq_div_pow] using this
  have result := all ⟨port.toNat - 61440, by omega⟩
  have same : 61440 + (port.toNat - 61440) = port.toNat := by omega
  simpa [same] using result

theorem lastDigit_ne {port : UInt16} (first : port >>> 4 = 0xf0b) :
    0xffbb ||| (port &&& 0xf) ≠ port := by
  have all : ∀ digit : Fin 16, 0xffbb ||| (UInt16.ofNat (61616 + digit) &&& 0xf) ≠
      UInt16.ofNat (61616 + digit) := by
    decide
  have number : port.toNat / 16 = 3851 := by
    have := congrArg UInt16.toNat first
    simpa [Nat.shiftRight_eq_div_pow] using this
  have result := all ⟨port.toNat - 61616, by omega⟩
  have same : 61616 + (port.toNat - 61616) = port.toNat := by omega
  simpa [same] using result

/-- No shortened port has lost a digit. -/
def PortsKept (sourcePort destinationPort : UInt16) : Prop :=
  ¬ (sourcePort >>> 4 = 0xf0b ∧ destinationPort >>> 4 = 0xf0b) ∧
    (sourcePort >>> 8 = 0xf0 → destinationPort >>> 8 ≠ 0xf0 → sourcePort >>> 4 = 0xf0f) ∧
    (sourcePort >>> 8 ≠ 0xf0 → destinationPort >>> 8 = 0xf0 → destinationPort >>> 4 = 0xf0f)

theorem rebuiltPorts_eq_iff (sourcePort destinationPort : UInt16) :
    rebuiltPorts sourcePort destinationPort = (sourcePort, destinationPort) ↔
      PortsKept sourcePort destinationPort := by
  unfold rebuiltPorts portsField PortsKept
  by_cases digits : sourcePort >>> 4 = 0xf0b ∧ destinationPort >>> 4 = 0xf0b
  · simp [digits, lastDigit_ne digits.1]
  · by_cases source : sourcePort >>> 8 = 0xf0 <;> by_cases destination : destinationPort >>> 8 = 0xf0
    · simp [digits, source, destination]
    · simp [digits, source, destination, lastByte_eq_iff source]
    · simp [digits, source, destination, lastByte_eq_iff destination]
    · simp [digits, source, destination]

/-- The ports, the checksum and the payload of a UDP packet come back, and its header is as long as
it is counted. -/
def RestoresUdp (sourcePort destinationPort length checksum : UInt16) (payload : List UInt8)
    (saddr daddr : Ipv6Address) : Prop :=
  (∃ length', (compressLowPanUdpNhc
      (udpPacket sourcePort destinationPort length checksum payload) false).bind
        (decompressLowPanUdpNhc · saddr daddr true) =
          some (udpPacket sourcePort destinationPort length' checksum payload)) ∧
    ∀ extension : SixLowPanUdpNhcExtension,
      extension.serialize.length = extension.getSerializedSize

/-- A UDP packet comes back if and only if its ports are not shortened, or end with what the
receiver puts there. -/
theorem restoresUdp_iff (sourcePort destinationPort length checksum : UInt16)
    (payload : List UInt8) (saddr daddr : Ipv6Address) :
    RestoresUdp sourcePort destinationPort length checksum payload saddr daddr ↔
      PortsKept sourcePort destinationPort := by
  rw [RestoresUdp, decompress_compress_udp, ← rebuiltPorts_eq_iff]
  constructor
  · rintro ⟨⟨length', same⟩, _⟩
    have headers := congrArg (fun packet => packet.bind UdpHeader.removeHeader) same
    simp only [Option.bind_some, removeHeader_udpPacket, Option.some.injEq, Prod.mk.injEq,
      UdpHeader.mk.injEq] at headers
    exact Prod.ext headers.1.1 headers.1.2.1
  · intro kept
    rw [kept]
    exact ⟨⟨_, rfl⟩, SixLowPanUdpNhcExtension.length_serialize⟩

/-- A port of the short range gets another digit. -/
theorem not_restoresUdp_shortPort :
    ¬ RestoresUdp 0xf001 5683 8 0 [] Ipv6Address.any Ipv6Address.any := by
  rintro ⟨⟨length', same⟩, _⟩
  have headers := congrArg (fun packet => packet.bind UdpHeader.removeHeader) same
  rw [decompress_compress_udp] at headers
  simp only [Option.bind_some, removeHeader_udpPacket, Option.some.injEq, Prod.mk.injEq,
    UdpHeader.mk.injEq] at headers
  exact absurd headers.1.1 (by decide)

end SixLowPanNetDevice

end Ns3.SixLowPan
