import Ns3.Internet.TcpHeader.Options
import Ns3.Library.InternetChecksum
import Ns3.Library.Loop

/-!
`ns3::TcpHeader`.
-/

namespace Ns3.Internet

open Library

/-- `ns3::Address`, as the pseudo header needs it. -/
structure Address where
  /-- `Ipv4Address::IsMatchingType`. -/
  isIpv4 : Bool := false
  bytes : List UInt8 := []
  deriving DecidableEq, Repr

/-- `ns3::TcpHeader`. The constructor does not set the protocol. -/
structure TcpHeader where
  sourcePort : UInt16 := 0
  destinationPort : UInt16 := 0
  sequenceNumber : UInt32 := 0
  ackNumber : UInt32 := 0
  length : Nat := 5
  flags : UInt8 := 0
  windowSize : UInt16 := 0xffff
  urgentPointer : UInt16 := 0
  source : Address := {}
  destination : Address := {}
  protocol : UInt8
  calcChecksum : Bool := false
  goodChecksum : Bool := true
  options : List TcpOption := []
  optionsLen : Nat := 0
  deriving DecidableEq, Repr

/-- The loop of `Buffer::Iterator::CalculateIpChecksum`. -/
def sumLoop : List UInt8 → Nat → Nat
  | low :: high :: rest, sum => sumLoop rest (wrap 32 (sum + ofBytes [low, high]))
  | [last], sum => wrap 32 (sum + last.toNat)
  | [], sum => sum

/-- `Buffer::Iterator::CalculateIpChecksum`. -/
def calculateIpChecksum (bytes : List UInt8) (size initialChecksum : Nat) : Nat :=
  2 ^ 16 - 1 - foldCarries (sumLoop (bytes.take size) initialChecksum)

/-- Write the bytes at a position of a buffer. There is nothing if they do not fit. -/
def writeAt (buffer : List UInt8) (position : Nat) (bytes : List UInt8) : Option (List UInt8) :=
  if position + bytes.length ≤ buffer.length then
    some (buffer.take position ++ bytes ++ buffer.drop (position + bytes.length))
  else none

namespace TcpHeader

/-- `m_maxOptionsLen`. -/
def maxOptionsLen : Nat := 40

variable (self : TcpHeader)

/-- `CalculateHeaderLength`. -/
def calculateHeaderLength : Nat :=
  let len := wrap 32 (20 + (self.options.map TcpOption.getSerializedSize).sum)
  let len := if len % 4 ≠ 0 then wrap 32 (len + (4 - len % 4)) else len
  wrap 8 (len / 4)

/-- `GetSerializedSize`. -/
def getSerializedSize : Nat := self.calculateHeaderLength * 4

/-- `AppendOption`. -/
def appendOption (option : TcpOption) : Bool × TcpHeader :=
  if wrap 32 (self.optionsLen + option.getSerializedSize) ≤ maxOptionsLen then
    if TcpOption.isKindKnown option.getKind = false then (false, self)
    else if option.getKind ≠ 0 then
      let optionsLen := wrap 8 (self.optionsLen + option.getSerializedSize)
      (true, { self with
        options := self.options ++ [option]
        optionsLen := optionsLen
        length := wrap 8 ((20 + 3 + optionsLen) / 4) })
    else (true, self)
  else (false, self)

/-- The buffer of `CalculateHeaderChecksum`. -/
def pseudoHeader (size : Nat) : List UInt8 × Nat :=
  let addresses := self.source.bytes ++ self.destination.bytes
  let high := UInt8.ofNat (size / 2 ^ 8)
  let low := UInt8.ofNat size
  if self.source.isIpv4 then (addresses ++ [0, self.protocol, high, low], 12)
  else (addresses ++ [0, 0, high, low, 0, 0, 0, self.protocol], 40)

/-- `CalculateHeaderChecksum`. -/
def calculateHeaderChecksum (size : Nat) : Nat :=
  let (buf, hdrSize) := self.pseudoHeader size
  2 ^ 16 - 1 - calculateIpChecksum (buf ++ List.replicate (48 - buf.length) 0) hdrSize 0

/-- The bytes in front of the options. The checksum is zero. -/
def fixedPart : List UInt8 :=
  writeHtonU16 self.sourcePort ++ writeHtonU16 self.destinationPort ++
    writeHtonU32 self.sequenceNumber ++ writeHtonU32 self.ackNumber ++
    writeHtonU16 (UInt16.ofNat (self.length <<< 12 ||| self.flags.toNat)) ++
    writeHtonU16 self.windowSize ++ writeHtonU16 0 ++ writeHtonU16 self.urgentPointer

/-- The loop of `Serialize` over the options, with the iterator and the length of the options. -/
def writeOptions : List TcpOption → List UInt8 → Nat → Nat → Option (List UInt8 × Nat × Nat)
  | [], buffer, i, optionLen => some (buffer, i, optionLen)
  | op :: options, buffer, i, optionLen => do
      let buffer ← writeAt buffer i op.serialize
      if i + op.getSerializedSize ≤ buffer.length then
        writeOptions options buffer (i + op.getSerializedSize)
          (wrap 32 (optionLen + op.getSerializedSize))
      else none

/-- The checksum of `Serialize`. -/
def writeChecksum (buffer : List UInt8) : Option (List UInt8) :=
  if self.calcChecksum then
    let size := wrap 16 buffer.length
    let checksum := calculateIpChecksum buffer size (self.calculateHeaderChecksum size)
    writeAt buffer 16 (toBytes 2 checksum)
  else some buffer

/-- `Serialize` into a buffer. There is nothing if it writes behind the last byte. -/
def serialize (buffer : List UInt8) : Option (List UInt8) := do
  let buffer ← writeAt buffer 0 self.fixedPart
  let (buffer, i, optionLen) ← writeOptions self.options buffer 20 0
  let buffer ← writeAt buffer i (List.replicate ((4 - optionLen % 4) % 4) 0)
  self.writeChecksum buffer

/-- `Deserialize`, in front of the options. -/
def readFixedPart (bytes : List UInt8) : Option (TcpHeader × List UInt8) := do
  let (sourcePort, bytes) ← readNtohU16 bytes
  let (destinationPort, bytes) ← readNtohU16 bytes
  let (sequenceNumber, bytes) ← readNtohU32 bytes
  let (ackNumber, bytes) ← readNtohU32 bytes
  let (field, bytes) ← readNtohU16 bytes
  let (windowSize, bytes) ← readNtohU16 bytes
  let (_, bytes) ← readNtohU16 bytes
  let (urgentPointer, bytes) ← readNtohU16 bytes
  return ({ self with
    sourcePort := sourcePort
    destinationPort := destinationPort
    sequenceNumber := sequenceNumber
    ackNumber := ackNumber
    flags := UInt8.ofNat (field.toNat % 2 ^ 8)
    length := field.toNat / 2 ^ 12
    windowSize := windowSize
    urgentPointer := urgentPointer
    options := []
    optionsLen := 0 }, bytes)

/-- The variables of the loop of `Deserialize`. -/
structure OptionsLoop where
  bytes : List UInt8
  optionLen : Nat
  options : List TcpOption := []
  optionsLen : Nat := 0
  deriving DecidableEq, Repr

namespace OptionsLoop

/-- An option is kept. -/
def keep (state : OptionsLoop) (optionSize : Nat) (op : TcpOption) : OptionsLoop where
  bytes := state.bytes.drop optionSize
  optionLen := state.optionLen - optionSize
  options := state.options ++ [op]
  optionsLen := wrap 8 (state.optionsLen + optionSize)

/-- The padding behind an END option is skipped. -/
def skipPadding (state : OptionsLoop) : OptionsLoop where
  bytes := state.bytes.drop state.optionLen
  optionLen := 0
  options := state.options
  optionsLen := wrap 8 (state.optionsLen + state.optionLen)

/-- A turn of the loop. It fails if the option does, or at the last byte. -/
def turn (state : OptionsLoop) : Turn OptionsLoop OptionsLoop :=
  if state.optionLen = 0 then .exit state
  else
    match TcpOption.deserialize state.bytes with
    | none => .failed
    | some (optionSize, op) =>
        if optionSize ≠ op.getSerializedSize then .exit state
        else if state.optionLen < optionSize then .exit state
        else if op.getKind ≠ 0 then .again (state.keep optionSize op)
        else if state.bytes.length < state.optionLen then .failed
        else .again (state.keep optionSize op).skipPadding

end OptionsLoop

/-- The checksum of `Deserialize`. -/
def checkChecksum (bytes : List UInt8) : TcpHeader :=
  if self.calcChecksum then
    let size := wrap 16 bytes.length
    let checksum := calculateIpChecksum bytes size (self.calculateHeaderChecksum size)
    { self with goodChecksum := checksum == 0 }
  else self

/-- `Deserialize`, with at most so many turns of the loop: what it returns, and the header. -/
def deserialize (fuel : Nat) (bytes : List UInt8) : Outcome (Nat × TcpHeader) :=
  match self.readFixedPart bytes with
  | none => .failed
  | some (self, rest) =>
      let optionLen := wrapInt 32 (((self.length : Int) - 5) * 4)
      if optionLen > maxOptionsLen then .returned (20, self)
      else
        match loop OptionsLoop.turn fuel { bytes := rest, optionLen := optionLen } with
        | .returned last =>
            let self := { self with options := last.options, optionsLen := last.optionsLen }
            .returned (self.getSerializedSize, self.checkChecksum bytes)
        | .failed => .failed
        | .running => .running

end TcpHeader

end Ns3.Internet
