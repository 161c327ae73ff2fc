import Ns3.Wifi.BlockAck.Window

/-!
`ns3::RecipientBlockAckAgreement`: the scoreboard and the receive reordering
buffer of the recipient of a Block Ack agreement.

The buffer is a `std::map` whose order depends on `m_winStartB`; it is a list in
the order of the map. Beside the members of the source, `history` records what
has happened to the buffer: how far the window has moved since the agreement was
made, which MPDUs were taken into the buffer, and which were handed to
`MacRxMiddle::Receive`. An MPDU that is handed over is numbered by counting the
sequence numbers from the starting sequence number on, without wrapping.
-/

namespace Ns3.Wifi

open Library

/-- What has happened to a reordering buffer. -/
structure ReorderingHistory where
  advanced : Nat
  accepted : List WifiMacQueueItem
  passed : List (Nat × WifiMacQueueItem)
  deriving DecidableEq, Repr

/-- `ns3::RecipientBlockAckAgreement`. -/
structure RecipientBlockAckAgreement where
  scoreboard : BlockAckWindow
  winStartB : Nat
  winSizeB : Nat
  bufferedMpdus : List WifiMacQueueItem
  history : ReorderingHistory
  deriving DecidableEq, Repr

namespace RecipientBlockAckAgreement

/-- The constructor. -/
def create (bufferSize startingSeq : Nat) : RecipientBlockAckAgreement where
  scoreboard := .init startingSeq bufferSize
  winStartB := startingSeq
  winSizeB := bufferSize
  bufferedMpdus := []
  history := ⟨0, [], []⟩

/-- `Compare::operator ()`. -/
def compare (winStartB : Nat) (a b : WifiMacQueueItem) : Bool :=
  decide (signedDistance a.sequenceNumber winStartB < signedDistance b.sequenceNumber winStartB)

/-- `insert` of the map; a key that is present is left as it is. -/
def insert (winStartB : Nat) (mpdu : WifiMacQueueItem) :
    List WifiMacQueueItem → Option (List WifiMacQueueItem)
  | [] => some [mpdu]
  | first :: rest =>
      if compare winStartB mpdu first then some (mpdu :: first :: rest)
      else if compare winStartB first mpdu then (insert winStartB mpdu rest).map (first :: ·)
      else none

/-- `m_bufferedMpdus.insert`. -/
def store (self : RecipientBlockAckAgreement) (mpdu : WifiMacQueueItem) :
    RecipientBlockAckAgreement :=
  match insert self.winStartB mpdu self.bufferedMpdus with
  | none => self
  | some buffered =>
      { self with
        bufferedMpdus := buffered
        history := { self.history with accepted := mpdu :: self.history.accepted } }

/-- The number under which an MPDU is handed to `MacRxMiddle::Receive`. -/
def number (self : RecipientBlockAckAgreement) (mpdu : WifiMacQueueItem) :
    Nat × WifiMacQueueItem :=
  (self.history.advanced + getDistance mpdu.sequenceNumber self.winStartB, mpdu)

/-- The body of the loop of `PassBufferedMpdusUntilFirstLost`. -/
def passFirst (self : RecipientBlockAckAgreement) (mpdu : WifiMacQueueItem)
    (rest : List WifiMacQueueItem) : RecipientBlockAckAgreement :=
  { self with
    bufferedMpdus := rest
    winStartB := (self.winStartB + 1) % 4096
    history := { self.history with
      advanced := self.history.advanced + 1
      passed := self.history.passed ++ [self.number mpdu] } }

/-- The loop of `PassBufferedMpdusUntilFirstLost` over the buffer. -/
def passInSequence : List WifiMacQueueItem → RecipientBlockAckAgreement → RecipientBlockAckAgreement
  | [], self => self
  | mpdu :: rest, self =>
      if mpdu.sequenceNumber = self.winStartB then passInSequence rest (self.passFirst mpdu rest)
      else self

/-- `PassBufferedMpdusUntilFirstLost`. -/
def passBufferedMpdusUntilFirstLost (self : RecipientBlockAckAgreement) :
    RecipientBlockAckAgreement :=
  passInSequence self.bufferedMpdus self

/-- The condition of the loop of `PassBufferedMpdusWithSeqNumberLessThan`. -/
def isLessThan (self : RecipientBlockAckAgreement) (newWinStartB : Nat)
    (mpdu : WifiMacQueueItem) : Bool :=
  decide (getDistance mpdu.sequenceNumber self.winStartB <
    getDistance newWinStartB self.winStartB)

/-- `PassBufferedMpdusWithSeqNumberLessThan`. -/
def passBufferedMpdusWithSeqNumberLessThan (self : RecipientBlockAckAgreement)
    (newWinStartB : Nat) : RecipientBlockAckAgreement :=
  { self with
    bufferedMpdus := self.bufferedMpdus.dropWhile (self.isLessThan newWinStartB)
    winStartB := newWinStartB
    history := { self.history with
      advanced := self.history.advanced + getDistance newWinStartB self.winStartB
      passed := self.history.passed ++
        (self.bufferedMpdus.takeWhile (self.isLessThan newWinStartB)).map self.number } }

/-- The first part of `NotifyReceivedMpdu`. -/
def scoreMpdu (scoreboard : BlockAckWindow) (mpduSeqNumber : Nat) : BlockAckWindow :=
  let distance := wrap 16 (getDistance mpduSeqNumber scoreboard.winStart)
  if distance < scoreboard.getWinSize then scoreboard.mark distance
  else if distance < 2048 then
    (scoreboard.advance (distance - scoreboard.getWinSize + 1)).mark (scoreboard.getWinSize - 1)
  else scoreboard

/-- The argument `GetSequenceNumber () - m_winSizeB + 1`, which is converted from
`size_t` to `uint16_t`. -/
def newWinStartB (self : RecipientBlockAckAgreement) (mpduSeqNumber : Nat) : Nat :=
  wrapInt 16 ((mpduSeqNumber : Int) - self.winSizeB + 1)

/-- The second part of `NotifyReceivedMpdu`. -/
def reorderMpdu (self : RecipientBlockAckAgreement) (mpdu : WifiMacQueueItem) :
    RecipientBlockAckAgreement :=
  let distance := wrap 16 (getDistance mpdu.sequenceNumber self.winStartB)
  if distance < self.winSizeB then (self.store mpdu).passBufferedMpdusUntilFirstLost
  else if distance < 2048 then
    ((self.store mpdu).passBufferedMpdusWithSeqNumberLessThan
      (self.newWinStartB mpdu.sequenceNumber)).passBufferedMpdusUntilFirstLost
  else self

/-- `NotifyReceivedMpdu`. -/
def notifyReceivedMpdu (self : RecipientBlockAckAgreement) (mpdu : WifiMacQueueItem) :
    RecipientBlockAckAgreement :=
  { self with scoreboard := scoreMpdu self.scoreboard mpdu.sequenceNumber }.reorderMpdu mpdu

/-- The first part of `NotifyReceivedBar`. -/
def scoreBar (scoreboard : BlockAckWindow) (startingSequenceNumber : Nat) : BlockAckWindow :=
  let distance := wrap 16 (getDistance startingSequenceNumber scoreboard.winStart)
  if 0 < distance ∧ distance < scoreboard.getWinSize then scoreboard.advance distance
  else if 0 < distance ∧ distance < 2048 then scoreboard.reset startingSequenceNumber
  else scoreboard

/-- The second part of `NotifyReceivedBar`. -/
def reorderBar (self : RecipientBlockAckAgreement) (startingSequenceNumber : Nat) :
    RecipientBlockAckAgreement :=
  let distance := wrap 16 (getDistance startingSequenceNumber self.winStartB)
  if 0 < distance ∧ distance < 2048 then
    (self.passBufferedMpdusWithSeqNumberLessThan
      startingSequenceNumber).passBufferedMpdusUntilFirstLost
  else self

/-- `NotifyReceivedBar`. -/
def notifyReceivedBar (self : RecipientBlockAckAgreement) (startingSequenceNumber : Nat) :
    RecipientBlockAckAgreement :=
  { self with scoreboard := scoreBar self.scoreboard startingSequenceNumber }.reorderBar
    startingSequenceNumber

end RecipientBlockAckAgreement

end Ns3.Wifi
