import Ns3.Library.Machine
import Ns3.Library.OrderedMap
import Ns3.Lte.SequenceNumber

/-!
`ns3::LteRlcUm`: the LTE RLC entity in unacknowledged mode.

One entity transmits and another one receives. The status tag of a packet is a field of the
segment, a PDU is its header and its data field, and what the receiving entity hands to the upper
layer is collected. A `Session` has both entities; every PDU that was sent may arrive any number
of times, or not at all, in any order within the reordering window.
-/

namespace Ns3.Lte

open Library

abbrev Bytes := List UInt8

/-- `LteRlcSduStatusTag::SduStatus_t`. -/
inductive SduStatus where
  | fullSdu
  | firstSegment
  | middleSegment
  | lastSegment
  deriving DecidableEq, Repr

/-- A packet with its status tag. -/
structure Segment where
  bytes : Bytes
  status : SduStatus
  deriving DecidableEq, Repr

namespace Segment

/-- `GetSize`. -/
def size (segment : Segment) : Nat := segment.bytes.length

/-- The segment starts with the first byte of an SDU. -/
def hasFirstByte (segment : Segment) : Bool :=
  segment.status == .fullSdu || segment.status == .firstSegment

/-- The segment ends with the last byte of an SDU. -/
def hasLastByte (segment : Segment) : Bool :=
  segment.status == .fullSdu || segment.status == .lastSegment

end Segment

/-- The two bits of `LteRlcHeader::FramingInfoFirstByte_t` and `FramingInfoLastByte_t`. -/
structure FramingInfo where
  noFirstByte : Bool
  noLastByte : Bool
  deriving DecidableEq, Repr

/-- `ns3::LteRlcHeader`; an extension bit tells whether E and LI fields follow. -/
structure LteRlcHeader where
  framingInfo : FramingInfo
  sequenceNumber : Nat
  extensionBits : List Bool
  lengthIndicators : List Nat
  deriving DecidableEq, Repr

/-- An RLC PDU: its header and its data field. -/
structure Pdu where
  header : LteRlcHeader
  data : Bytes
  deriving DecidableEq, Repr

namespace LteRlcUm

/-- What the entity keeps to transmit. -/
structure Transmitter where
  maxTxBufferSize : Nat := 10 * 1024
  txBufferSize : Nat := 0
  txBuffer : List Segment := []
  sequenceNumber : SequenceNumber10 := .ofNat 0
  deriving DecidableEq, Repr

namespace Transmitter

variable (transmitter : Transmitter)

/-- The SDU fits into the transmission buffer. -/
def accepts (p : Bytes) : Bool :=
  decide (wrap 32 (transmitter.txBufferSize + p.length) ≤ transmitter.maxTxBufferSize)

/-- `DoTransmitPdcpPdu`. -/
def doTransmitPdcpPdu (p : Bytes) : Transmitter :=
  if transmitter.accepts p then
    { transmitter with
      txBuffer := transmitter.txBuffer ++ [⟨p, .fullSdu⟩]
      txBufferSize := wrap 32 (transmitter.txBufferSize + p.length) }
  else transmitter

end Transmitter

/-- The data field that `DoNotifyTxOpportunity` builds, with the fields of the header that
describe it, and what it leaves in the transmission buffer. -/
structure Built where
  dataField : List Segment
  extensionBits : List Bool
  lengthIndicators : List Nat
  txBuffer : List Segment
  txBufferSize : Nat
  deriving DecidableEq, Repr

namespace Built

/-- The status of a segment that is taken from the front of another one. -/
def frontStatus : SduStatus → SduStatus
  | .fullSdu => .firstSegment
  | .lastSegment => .middleSegment
  | status => status

/-- The status of what remains of it. -/
def restStatus : SduStatus → SduStatus
  | .fullSdu => .lastSegment
  | status => status

/-- The status if the whole segment was taken after all. -/
def wholeStatus : SduStatus → SduStatus
  | .firstSegment => .fullSdu
  | .middleSegment => .lastSegment
  | status => status

/-- A segment that does not fit, or is too long for a length indicator, ends the data field. -/
def split (firstSegment : Segment) (nextSegmentSize : Nat) (txBuffer : List Segment)
    (txBufferSize : Nat) : Built :=
  let currSegmentSize := min firstSegment.size nextSegmentSize
  let remaining := firstSegment.bytes.drop currSegmentSize
  let newStatus := frontStatus firstSegment.status
  if remaining.length > 0 then
    { dataField := [⟨firstSegment.bytes.take currSegmentSize, newStatus⟩]
      extensionBits := [false], lengthIndicators := []
      txBuffer := ⟨remaining, restStatus firstSegment.status⟩ :: txBuffer
      txBufferSize := wrap 32 (txBufferSize + remaining.length) }
  else
    { dataField := [⟨firstSegment.bytes.take currSegmentSize, wholeStatus newStatus⟩]
      extensionBits := [false], lengthIndicators := [], txBuffer, txBufferSize }

/-- The last segment of the data field, which has no length indicator. -/
def last (firstSegment : Segment) (txBuffer : List Segment) (txBufferSize : Nat) : Built :=
  { dataField := [firstSegment], extensionBits := [false], lengthIndicators := [], txBuffer,
    txBufferSize }

/-- Put a segment with its length indicator in front. -/
def cons (firstSegment : Segment) (built : Built) : Built :=
  { built with
    dataField := firstSegment :: built.dataField
    extensionBits := true :: built.extensionBits
    lengthIndicators := firstSegment.size :: built.lengthIndicators }

/-- The loop of `DoNotifyTxOpportunity`. -/
def fill (firstSegment : Segment) (nextSegmentSize nextSegmentId txBufferSize : Nat) :
    List Segment → Built
  | [] =>
      if firstSegment.size = 0 ∨ nextSegmentSize = 0 then ⟨[], [], [], [], txBufferSize⟩
      else if firstSegment.size > nextSegmentSize ∨ firstSegment.size > 2047 then
        split firstSegment nextSegmentSize [] txBufferSize
      else last firstSegment [] txBufferSize
  | next :: txBuffer =>
      if firstSegment.size = 0 ∨ nextSegmentSize = 0 then
        ⟨[], [], [], next :: txBuffer, txBufferSize⟩
      else if firstSegment.size > nextSegmentSize ∨ firstSegment.size > 2047 then
        split firstSegment nextSegmentSize (next :: txBuffer) txBufferSize
      else if nextSegmentSize - firstSegment.size ≤ 2 then
        last firstSegment (next :: txBuffer) txBufferSize
      else
        cons firstSegment (fill next
          (nextSegmentSize - ((if nextSegmentId % 2 = 1 then 2 else 1) + firstSegment.size))
          (nextSegmentId + 1) (wrapSub 32 txBufferSize next.size) txBuffer)

end Built

namespace Transmitter

variable (transmitter : Transmitter)

/-- The PDU of a data field. -/
def buildPdu (built : Built) (first final : Segment) : Pdu where
  header :=
    { framingInfo := ⟨!first.hasFirstByte, !final.hasLastByte⟩
      sequenceNumber := transmitter.sequenceNumber.value
      extensionBits := built.extensionBits
      lengthIndicators := built.lengthIndicators }
  data := (built.dataField.map (·.bytes)).flatten

/-- `DoNotifyTxOpportunity`, with the PDU it sends, if it sends one. The source reads the first
segment of the data field, which is there unless an SDU is empty. -/
def doNotifyTxOpportunity (bytes : Nat) : Transmitter × Option Pdu :=
  if bytes ≤ 2 then (transmitter, none)
  else
    match transmitter.txBuffer with
    | [] => (transmitter, none)
    | firstSegment :: txBuffer =>
        let built := Built.fill firstSegment (bytes - 2) 1
          (wrapSub 32 transmitter.txBufferSize firstSegment.size) txBuffer
        match built.dataField.head?, built.dataField.getLast? with
        | some first, some final =>
            ({ transmitter with
                txBuffer := built.txBuffer
                txBufferSize := built.txBufferSize
                sequenceNumber := transmitter.sequenceNumber.increment },
              some (transmitter.buildPdu built first final))
        | _, _ => (transmitter, none)

end Transmitter

/-- `LteRlcUm::ReassemblingState_t`. -/
inductive ReassemblingState where
  | waitingS0Full
  | waitingSiSf
  deriving DecidableEq, Repr

/-- What the entity keeps to receive. `delivered` is what the upper layer has got. -/
structure Receiver where
  vrUr : SequenceNumber10 := .ofNat 0
  vrUx : SequenceNumber10 := .ofNat 0
  vrUh : SequenceNumber10 := .ofNat 0
  rxBuffer : OrderedMap Pdu := .empty
  reorderingTimer : Bool := false
  sdusBuffer : List Bytes := []
  reassemblingState : ReassemblingState := .waitingS0Full
  keepS0 : Option Bytes := none
  expectedSeqNumber : SequenceNumber10 := .ofNat 0
  delivered : List Bytes := []

namespace Receiver

variable (receiver : Receiver)

/-- `m_windowSize`. -/
def windowSize : Nat := 512

/-- Split the data field by the length indicators. -/
def buildSdus : List Bool → List Nat → Bytes → List Bytes
  | true :: extensionBits, lengthIndicator :: lengthIndicators, packet =>
      packet.take lengthIndicator ::
        buildSdus extensionBits lengthIndicators (packet.drop lengthIndicator)
  | _, _, packet => [packet]

/-- Deliver all SDUs of the list. -/
def deliverAll : Receiver :=
  { receiver with delivered := receiver.delivered ++ receiver.sdusBuffer, sdusBuffer := [] }

/-- Deliver all SDUs of the list but the last one, which is kept. -/
def keepLast : Receiver :=
  { receiver with
    delivered := receiver.delivered ++ receiver.sdusBuffer.dropLast
    keepS0 := receiver.sdusBuffer.getLast?
    sdusBuffer := [] }

/-- Discard the first SDU of the list. -/
def popFront : Receiver := { receiver with sdusBuffer := receiver.sdusBuffer.tail }

/-- Add the first SDU of the list to the one that is kept. -/
def extendS0 : Receiver :=
  { receiver with
    keepS0 := some (receiver.keepS0.getD [] ++ receiver.sdusBuffer.headD [])
    sdusBuffer := receiver.sdusBuffer.tail }

/-- Deliver the SDU that is kept. -/
def deliverS0 : Receiver :=
  { receiver with delivered := receiver.delivered ++ receiver.keepS0.toList }

/-- Discard the first SDU of a list whose last one is not complete. -/
def restartWithin : Receiver :=
  if receiver.sdusBuffer.length = 1 then
    { receiver.popFront with reassemblingState := .waitingS0Full }
  else { receiver.popFront.keepLast with reassemblingState := .waitingSiSf }

/-- The SDUs of the list are reassembled. A transition that is not possible leaves the list as
it is. -/
def reassemble (framingInfo : FramingInfo) (expectedSnLost : Bool) : Receiver :=
  match expectedSnLost, receiver.reassemblingState, framingInfo.noFirstByte,
      framingInfo.noLastByte with
  | false, .waitingS0Full, false, false =>
      { receiver.deliverAll with reassemblingState := .waitingS0Full }
  | false, .waitingS0Full, false, true =>
      { receiver.keepLast with reassemblingState := .waitingSiSf }
  | false, .waitingS0Full, true, false =>
      { receiver.popFront.deliverAll with reassemblingState := .waitingS0Full }
  | false, .waitingS0Full, true, true => receiver.restartWithin
  | false, .waitingSiSf, true, false =>
      { receiver.extendS0.deliverS0.deliverAll with reassemblingState := .waitingS0Full }
  | false, .waitingSiSf, true, true =>
      if receiver.sdusBuffer.length = 1 then
        { receiver.extendS0 with reassemblingState := .waitingSiSf }
      else { receiver.extendS0.deliverS0.keepLast with reassemblingState := .waitingSiSf }
  | false, .waitingSiSf, false, _ => receiver
  | true, .waitingS0Full, false, false =>
      { receiver.deliverAll with reassemblingState := .waitingS0Full }
  | true, .waitingS0Full, false, true =>
      { receiver.keepLast with reassemblingState := .waitingSiSf }
  | true, .waitingS0Full, true, false =>
      { receiver.popFront.deliverAll with reassemblingState := .waitingS0Full }
  | true, .waitingS0Full, true, true => receiver.restartWithin
  | true, .waitingSiSf, false, false =>
      { receiver.deliverAll with reassemblingState := .waitingS0Full, keepS0 := none }
  | true, .waitingSiSf, false, true =>
      { receiver.keepLast with reassemblingState := .waitingSiSf }
  | true, .waitingSiSf, true, false =>
      { receiver.popFront.deliverAll with reassemblingState := .waitingS0Full, keepS0 := none }
  | true, .waitingSiSf, true, true => { receiver with keepS0 := none }.restartWithin

/-- The number of the PDU is not the expected one. -/
def expectedSnLost (packet : Pdu) : Bool :=
  (SequenceNumber10.ofNat packet.header.sequenceNumber).value != receiver.expectedSeqNumber.value

/-- Expect the next number and build the list of SDUs. -/
def buildList (packet : Pdu) : Receiver :=
  { receiver with
    expectedSeqNumber :=
      if receiver.expectedSnLost packet then
        (SequenceNumber10.ofNat packet.header.sequenceNumber).add 1
      else receiver.expectedSeqNumber.increment
    sdusBuffer := receiver.sdusBuffer ++
      buildSdus packet.header.extensionBits packet.header.lengthIndicators packet.data }

/-- `ReassembleAndDeliver`. -/
def reassembleAndDeliver (packet : Pdu) : Receiver :=
  (receiver.buildList packet).reassemble packet.header.framingInfo
    (receiver.expectedSnLost packet)

/-- The modulus base that the window gives. -/
def windowBase : SequenceNumber10 := receiver.vrUh.sub windowSize

/-- Set the modulus base of VR(UH), as every look at the window does. -/
def rebase : Receiver := { receiver with vrUh := receiver.vrUh.setModulusBase receiver.windowBase }

/-- `IsInsideReorderingWindow`. -/
def isInsideReorderingWindow (seqNumber : SequenceNumber10) : Bool :=
  let vrUh := receiver.vrUh.setModulusBase receiver.windowBase
  let seqNumber := seqNumber.setModulusBase (vrUh.sub windowSize)
  (vrUh.sub windowSize).le seqNumber && seqNumber.lt vrUh

/-- The loop of `ReassembleOutsideWindow` over the entries of the reception buffer. -/
def outsideLoop : List (Nat × Pdu) → Receiver → Receiver
  | [], receiver => receiver
  | (sn, pdu) :: entries, receiver =>
      if receiver.isInsideReorderingWindow (.ofNat sn) then receiver.rebase
      else
        let delivering := receiver.rebase.reassembleAndDeliver pdu
        outsideLoop entries { delivering with rxBuffer := delivering.rxBuffer.erase sn }

/-- `ReassembleOutsideWindow`. -/
def reassembleOutsideWindow : Receiver := outsideLoop receiver.rxBuffer.entries receiver

/-- The loop of `ReassembleSnInterval`; numbers come round after 1024 steps. -/
def intervalLoop (highSeqNumber : SequenceNumber10) : Nat → SequenceNumber10 → Receiver → Receiver
  | 0, _, receiver => receiver
  | steps + 1, reassembleSn, receiver =>
      if reassembleSn.lt highSeqNumber then
        match receiver.rxBuffer.find reassembleSn.value with
        | some pdu =>
            let delivering := receiver.reassembleAndDeliver pdu
            intervalLoop highSeqNumber steps reassembleSn.increment
              { delivering with rxBuffer := delivering.rxBuffer.erase reassembleSn.value }
        | none => intervalLoop highSeqNumber steps reassembleSn.increment receiver
      else receiver

/-- `ReassembleSnInterval`. -/
def reassembleSnInterval (lowSeqNumber highSeqNumber : SequenceNumber10) : Receiver :=
  intervalLoop highSeqNumber 1024 lowSeqNumber receiver

/-- The first number from `newVrUr` on, a `uint16_t`, that is not in the buffer. The numbers in
the buffer are below 1024. -/
def firstMissing (rxBuffer : OrderedMap Pdu) : Nat → Nat → Nat
  | 0, newVrUr => newVrUr
  | steps + 1, newVrUr =>
      if (rxBuffer.find newVrUr).isSome then firstMissing rxBuffer steps (wrap 16 (newVrUr + 1))
      else newVrUr

/-- VR(UR) is set to the lower edge of the window if it is outside. -/
def keepVrUrInside : Receiver :=
  if receiver.isInsideReorderingWindow receiver.vrUr then receiver.rebase
  else { receiver.rebase with vrUr := receiver.rebase.vrUh.sub windowSize }

/-- The reordering window is moved to the number that has come. -/
def moveWindow (seqNumber : SequenceNumber10) : Receiver :=
  if receiver.isInsideReorderingWindow seqNumber then receiver.rebase
  else
    { receiver.rebase with vrUh := seqNumber.add 1 }.reassembleOutsideWindow.keepVrUrInside

/-- VR(UR) is moved past what is in the buffer. -/
def moveVrUr : Receiver :=
  if (receiver.rxBuffer.find receiver.vrUr.value).isSome then
    let newVrUr := firstMissing receiver.rxBuffer 1024 (wrap 16 (receiver.vrUr.value + 1))
    let vrUr := receiver.vrUr.assign newVrUr
    { receiver with vrUr }.reassembleSnInterval receiver.vrUr vrUr
  else receiver

/-- The reordering timer is stopped and started as needed. -/
def updateTimer : Receiver :=
  let base := receiver.windowBase
  let receiver := { receiver with
    vrUr := receiver.vrUr.setModulusBase base
    vrUx := receiver.vrUx.setModulusBase base
    vrUh := receiver.vrUh.setModulusBase base }
  let stops := receiver.reorderingTimer && (receiver.vrUx.le receiver.vrUr ||
    (!receiver.isInsideReorderingWindow receiver.vrUx &&
      receiver.vrUx.value != receiver.vrUh.value))
  let running := receiver.reorderingTimer && !stops
  if !running && receiver.vrUh.gt receiver.vrUr then
    { receiver with reorderingTimer := true, vrUx := receiver.vrUh }
  else { receiver with reorderingTimer := running }

/-- `DoReceivePdu`. -/
def doReceivePdu (p : Pdu) : Receiver :=
  let base := receiver.windowBase
  let receiver := { receiver with
    vrUr := receiver.vrUr.setModulusBase base
    vrUh := receiver.vrUh.setModulusBase base }
  let seqNumber := (SequenceNumber10.ofNat p.header.sequenceNumber).setModulusBase base
  if (receiver.vrUr.lt seqNumber && seqNumber.lt receiver.vrUh &&
        (receiver.rxBuffer.find seqNumber.value).isSome) ||
      ((receiver.vrUh.sub windowSize).le seqNumber && seqNumber.lt receiver.vrUr) then receiver
  else
    let placed := { receiver with rxBuffer := receiver.rxBuffer.insert seqNumber.value p }
    ((placed.moveWindow seqNumber).moveVrUr).updateTimer

/-- The first number from `newVrUr` on that is not in the buffer, which does not have them
all. -/
def firstAbsent (rxBuffer : OrderedMap Pdu) : Nat → SequenceNumber10 → SequenceNumber10
  | 0, newVrUr => newVrUr
  | steps + 1, newVrUr =>
      if (rxBuffer.find newVrUr.value).isSome then firstAbsent rxBuffer steps newVrUr.increment
      else newVrUr

/-- `ExpireReorderingTimer`. -/
def expireReorderingTimer : Receiver :=
  let newVrUr := firstAbsent receiver.rxBuffer 1024 receiver.vrUx
  let receiver := { receiver with vrUr := newVrUr, reorderingTimer := false }.reassembleSnInterval
    receiver.vrUr newVrUr
  if receiver.vrUh.gt receiver.vrUr then
    { receiver with reorderingTimer := true, vrUx := receiver.vrUh }
  else receiver

end Receiver

/-- Two entities, with the SDUs that the transmitting one has accepted, the PDUs it has sent, and
how far the receiving one has come: the number after the highest that has arrived. -/
structure Session where
  transmitter : Transmitter := {}
  receiver : Receiver := {}
  accepted : List Bytes := []
  sent : List Pdu := []
  top : Nat := 0

/-- What happens in a session. A PDU that arrives is named by its place among those sent. -/
inductive Event where
  | transmitPdcpPdu (p : Bytes)
  | notifyTxOpportunity (bytes : Nat)
  | receivePdu (number : Nat)
  | expireReorderingTimer
  deriving DecidableEq, Repr

namespace Session

def step (session : Session) : Event → Session
  | .transmitPdcpPdu p =>
      { session with
        transmitter := session.transmitter.doTransmitPdcpPdu p
        accepted :=
          if session.transmitter.accepts p then session.accepted ++ [p] else session.accepted }
  | .notifyTxOpportunity bytes =>
      let (transmitter, pdu) := session.transmitter.doNotifyTxOpportunity bytes
      { session with transmitter, sent := session.sent ++ pdu.toList }
  | .receivePdu number =>
      match session.sent[number]? with
      | none => session
      | some pdu =>
          { session with
            receiver := session.receiver.doReceivePdu pdu, top := max session.top (number + 1) }
  | .expireReorderingTimer =>
      { session with receiver := session.receiver.expireReorderingTimer }

/-- An SDU has the header of the PDCP layer at least, a PDU that arrives is within the reordering
window of 512 numbers on either side of the highest one, and a timer expires only if it runs. -/
def Enabled (session : Session) : Event → Prop
  | .transmitPdcpPdu p => p ≠ []
  | .notifyTxOpportunity _ => True
  | .receivePdu number =>
      number < session.sent.length ∧ session.top ≤ number + 512 ∧ number < session.top + 512
  | .expireReorderingTimer => session.receiver.reorderingTimer = true

instance (session : Session) : (event : Event) → Decidable (session.Enabled event)
  | .transmitPdcpPdu _ => inferInstanceAs (Decidable (_ ≠ _))
  | .notifyTxOpportunity _ => inferInstanceAs (Decidable True)
  | .receivePdu _ => inferInstanceAs (Decidable (_ ∧ _))
  | .expireReorderingTimer => inferInstanceAs (Decidable (_ = _))

end Session

/-- Sessions of two entities. -/
def sessions : Machine Session Event where
  step := Session.step
  Enabled := Session.Enabled

instance (session : Session) (event : Event) : Decidable (sessions.Enabled session event) :=
  inferInstanceAs (Decidable (session.Enabled event))

end LteRlcUm

end Ns3.Lte
