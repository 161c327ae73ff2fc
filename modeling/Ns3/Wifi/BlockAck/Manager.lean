import Ns3.Wifi.BlockAck.Header
import Ns3.Wifi.BlockAck.Originator
import Mathlib.Logic.Function.Basic

/-!
`ns3::BlockAckManager`: the outstanding MPDUs of the established agreements of an
originator, and the queue from which MPDUs are retransmitted.

All agreements share the retransmit queue. The queue is not full and no lifetime
expires. `history` records which MPDUs were acknowledged and which discarded; the
retry flag, which the manager sets, is left out there. A call that aborts or does
not return gives no manager.
-/

namespace Ns3.Wifi

open Library

/-- The recipient and the TID of an agreement. -/
abbrev AgreementKey : Type := Nat × Nat

namespace WifiMacQueueItem

/-- The agreement under which an MPDU is sent. -/
def key (self : WifiMacQueueItem) : AgreementKey := (self.addr1, self.qosTid)

/-- `GetSequenceControl` of the header. -/
def sequenceControl (self : WifiMacQueueItem) : Nat :=
  self.sequenceNumber * 16 + self.fragmentNumber

/-- The MPDU without its retry flag. -/
def original (self : WifiMacQueueItem) : WifiMacQueueItem := { self with retry := false }

/-- The MPDU with its retry flag set. -/
def setRetry (self : WifiMacQueueItem) : WifiMacQueueItem := { self with retry := true }

end WifiMacQueueItem

/-- `QosUtilsIsOldPacket`. -/
def qosUtilsIsOldPacket (startingSeq seqNumber : Nat) : Bool :=
  decide (wrap 16 (getDistance seqNumber startingSeq) ≥ 2048)

/-- `ns3::BlockAckManager::Bar`, for a request. -/
structure Bar where
  key : AgreementKey
  startingSequence : Nat
  skipIfNoDataQueued : Bool
  deriving DecidableEq, Repr

/-- What has become of the MPDUs of a manager. -/
structure ManagerHistory where
  stored : List WifiMacQueueItem
  acknowledged : List WifiMacQueueItem
  discarded : List WifiMacQueueItem
  deriving DecidableEq, Repr

/-- `ns3::BlockAckManager`; the agreements are those that are established. -/
structure BlockAckManager where
  agreements : AgreementKey → Option (OriginatorBlockAckAgreement × List WifiMacQueueItem)
  retryPackets : List WifiMacQueueItem
  bars : List Bar
  history : ManagerHistory

namespace BlockAckManager

/-- A manager at the time its agreements are established: each has a starting
sequence number and a buffer size. -/
def create (established : AgreementKey → Option (Nat × Nat)) : BlockAckManager where
  agreements key := (established key).map fun agreement =>
    (.initTxWindow agreement.1 agreement.2, [])
  retryPackets := []
  bars := []
  history := ⟨[], [], []⟩

/-- Write back an agreement and its outstanding MPDUs. -/
def setAgreement (self : BlockAckManager) (key : AgreementKey)
    (agreement : OriginatorBlockAckAgreement) (outstanding : List WifiMacQueueItem) :
    BlockAckManager :=
  { self with agreements := Function.update self.agreements key (some (agreement, outstanding)) }

/-- The condition of `PeekByTidAndAddress`. -/
def isFor (key : AgreementKey) (item : WifiMacQueueItem) : Bool :=
  item.qosData && decide (item.key = key)

/-- The loops of `StorePacket` and `InsertInRetryQueue` over the MPDUs that match:
insertion in the order of the distance from the start of the window, unless the
sequence control is present. -/
def insertMpdu (isMatch : WifiMacQueueItem → Bool) (agreement : OriginatorBlockAckAgreement)
    (mpdu : WifiMacQueueItem) : List WifiMacQueueItem → Option (List WifiMacQueueItem)
  | [] => some [mpdu]
  | item :: rest =>
      if isMatch item then
        if mpdu.sequenceControl = item.sequenceControl then none
        else if agreement.distance mpdu < agreement.distance item ∨
            (agreement.distance mpdu = agreement.distance item ∧
              mpdu.fragmentNumber < item.fragmentNumber) then some (mpdu :: item :: rest)
        else (insertMpdu isMatch agreement mpdu rest).map (item :: ·)
      else (insertMpdu isMatch agreement mpdu rest).map (item :: ·)

/-- `StorePacket`. -/
def storePacket (self : BlockAckManager) (mpdu : WifiMacQueueItem) : Option BlockAckManager :=
  match self.agreements mpdu.key with
  | none => none
  | some (agreement, outstanding) =>
      if agreement.distance mpdu ≥ 2048 then some self
      else
        match insertMpdu (fun _ => true) agreement mpdu outstanding with
        | none => some self
        | some outstanding =>
            (agreement.notifyTransmittedMpdu mpdu).map fun agreement =>
              self.setAgreement mpdu.key agreement outstanding

/-- `InsertInRetryQueue`. -/
def insertInRetryQueue (self : BlockAckManager) (mpdu : WifiMacQueueItem) : BlockAckManager :=
  match self.agreements mpdu.key with
  | none => self
  | some (agreement, _) =>
      if agreement.distance mpdu ≥ 2048 then self
      else
        match insertMpdu (isFor mpdu.key) agreement mpdu.setRetry self.retryPackets with
        | none => self
        | some retryPackets => { self with retryPackets := retryPackets }

/-- The outstanding MPDUs that `NotifyGotAck` and `NotifyMissedAck` leave. -/
def withoutSequenceNumber (mpdu : WifiMacQueueItem) (outstanding : List WifiMacQueueItem) :
    List WifiMacQueueItem :=
  outstanding.filter fun item => decide (item.sequenceNumber ≠ mpdu.sequenceNumber)

/-- Note that an MPDU was acknowledged. -/
def noteAcknowledged (self : BlockAckManager) (mpdu : WifiMacQueueItem) : BlockAckManager :=
  { self with
    history := { self.history with
      acknowledged := mpdu.original :: self.history.acknowledged } }

/-- `NotifyGotAck`. -/
def notifyGotAck (self : BlockAckManager) (mpdu : WifiMacQueueItem) : Option BlockAckManager :=
  match self.agreements mpdu.key with
  | none => none
  | some (agreement, outstanding) =>
      (agreement.notifyAckedMpdu mpdu).map fun agreement =>
        (self.setAgreement mpdu.key agreement
          (withoutSequenceNumber mpdu outstanding)).noteAcknowledged mpdu

/-- `NotifyMissedAck`. -/
def notifyMissedAck (self : BlockAckManager) (mpdu : WifiMacQueueItem) : Option BlockAckManager :=
  match self.agreements mpdu.key with
  | none => none
  | some (agreement, outstanding) =>
      some ((self.setAgreement mpdu.key agreement
        (withoutSequenceNumber mpdu outstanding)).insertInRetryQueue mpdu)

/-- The loop of `NotifyGotBlockAck` for a compressed Block Ack; the list is what is
left of the outstanding MPDUs. -/
def processBlockAck (blockAck : CtrlBAckResponseHeader) (currentStartingSeq : Nat)
    (key : AgreementKey) : List WifiMacQueueItem → OriginatorBlockAckAgreement →
      BlockAckManager → Option BlockAckManager
  | [], agreement, self => some (self.setAgreement key agreement [])
  | mpdu :: rest, agreement, self =>
      if blockAck.isPacketReceived mpdu.sequenceNumber then
        (agreement.notifyAckedMpdu mpdu).bind fun agreement =>
          processBlockAck blockAck currentStartingSeq key rest agreement
            ((self.setAgreement key agreement rest).noteAcknowledged mpdu)
      else if ! qosUtilsIsOldPacket currentStartingSeq mpdu.sequenceNumber then
        processBlockAck blockAck currentStartingSeq key rest agreement
          ((self.insertInRetryQueue mpdu).setAgreement key agreement rest)
      else
        processBlockAck blockAck currentStartingSeq key rest agreement
          (self.setAgreement key agreement rest)

/-- `NotifyGotBlockAck`, compressed. -/
def notifyGotBlockAck (self : BlockAckManager) (blockAck : CtrlBAckResponseHeader)
    (key : AgreementKey) : Option BlockAckManager :=
  match self.agreements key with
  | none => some self
  | some (agreement, outstanding) =>
      processBlockAck blockAck agreement.txWindow.winStart key outstanding agreement self

/-- `NotifyMissedBlockAck`. -/
def notifyMissedBlockAck (self : BlockAckManager) (key : AgreementKey) :
    Option BlockAckManager :=
  match self.agreements key with
  | none => some self
  | some (agreement, outstanding) =>
      some ((outstanding.foldl insertInRetryQueue self).setAgreement key agreement [])

/-- What `RemoveFromRetryQueue` removes. -/
def isRemoved (agreement : OriginatorBlockAckAgreement) (key : AgreementKey)
    (startSeq endSeq : Nat) (item : WifiMacQueueItem) : Bool :=
  isFor key item && decide
    (getDistance startSeq agreement.txWindow.winStart ≤
        getDistance item.sequenceNumber agreement.txWindow.winStart ∧
      getDistance item.sequenceNumber agreement.txWindow.winStart ≤
        getDistance endSeq agreement.txWindow.winStart)

/-- What `RemoveOldPackets` removes from the outstanding MPDUs. -/
def isPassed (agreement : OriginatorBlockAckAgreement) (lastRemovedSeq : Nat)
    (item : WifiMacQueueItem) : Bool :=
  decide (getDistance item.sequenceNumber agreement.txWindow.winStart ≤
    getDistance lastRemovedSeq agreement.txWindow.winStart)

/-- `RemoveOldPackets`. -/
def removeOldPackets (self : BlockAckManager) (key : AgreementKey) (startingSeq : Nat) :
    Option BlockAckManager :=
  match self.agreements key with
  | none => none
  | some (agreement, outstanding) =>
      let currStartingSeq := agreement.txWindow.winStart
      if getDistance startingSeq currStartingSeq ≥ 2048 then none
      else if startingSeq = currStartingSeq then some self
      else
        let lastRemovedSeq := (startingSeq + 4096 - 1) % 4096
        let removed := isRemoved agreement key currStartingSeq lastRemovedSeq
        let passed := isPassed agreement lastRemovedSeq
        let retryPackets := self.retryPackets
        some {
          self.setAgreement key agreement (outstanding.filter (! passed ·)) with
          retryPackets := retryPackets.filter (! removed ·)
          history := { self.history with
            discarded := (outstanding.filter passed).map WifiMacQueueItem.original ++
              (retryPackets.filter removed).map WifiMacQueueItem.original ++
              self.history.discarded } }

/-- `ScheduleBar`, for a request that is not a retransmission: it takes the place of
the request for the same agreement. -/
def scheduleBar (request : Bar) : List Bar → List Bar
  | [] => [request]
  | bar :: rest => if bar.key = request.key then request :: rest else bar :: scheduleBar request rest

/-- `NotifyDiscardedMpdu`. -/
def notifyDiscardedMpdu (self : BlockAckManager) (mpdu : WifiMacQueueItem) :
    Option BlockAckManager :=
  if ! mpdu.qosData then some self
  else
    match self.agreements mpdu.key with
    | none => some self
    | some (agreement, _) =>
        if qosUtilsIsOldPacket agreement.txWindow.winStart mpdu.sequenceNumber then some self
        else
          (self.removeOldPackets mpdu.key ((mpdu.sequenceNumber + 1) % 4096)).bind fun self =>
            match self.agreements mpdu.key with
            | none => none
            | some (agreement, outstanding) =>
                (agreement.notifyDiscardedMpdu mpdu).map fun agreement =>
                  { self.setAgreement mpdu.key agreement outstanding with
                    bars := scheduleBar ⟨mpdu.key, agreement.txWindow.winStart, false⟩ self.bars }

/-- The loop of `DiscardOutstandingMpdus`; the number bounds the tests of its
condition. -/
def discardWhile (key : AgreementKey) : Nat → BlockAckManager → Option BlockAckManager
  | 0, _ => none
  | tests + 1, self =>
      match self.agreements key with
      | none => none
      | some (_, []) => some self
      | some (agreement, mpdu :: rest) =>
          if getDistance mpdu.sequenceNumber agreement.txWindow.winStart ≥ 2048 then
            discardWhile key tests (self.setAgreement key agreement rest)
          else (self.notifyDiscardedMpdu mpdu).bind (discardWhile key tests)

/-- `DiscardOutstandingMpdus`. -/
def discardOutstandingMpdus (self : BlockAckManager) (key : AgreementKey) :
    Option BlockAckManager :=
  match self.agreements key with
  | none => some self
  | some (_, outstanding) => discardWhile key (outstanding.length + 1) self

end BlockAckManager

end Ns3.Wifi
