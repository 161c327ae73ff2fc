import Ns3.Library.Machine
import Ns3.Wifi.BlockAck.Settlement

/-!
The manager over whole runs: each MPDU is in one place.

`NotifyGotAck` and `NotifyMissedAck` compare sequence numbers where `StorePacket`
and `InsertInRetryQueue` compare sequence controls, so fragments of one sequence
number that are acknowledged or missed one by one are lost or left behind. As long
as that does not happen, nothing is.
-/

namespace Ns3.Wifi

open Library

namespace BlockAckManager

/-- The calls of a manager; a retransmitted MPDU is first taken out of the queue. -/
inductive Call where
  | storePacket (mpdu : WifiMacQueueItem)
  | retransmit (mpdu : WifiMacQueueItem)
  | notifyGotAck (mpdu : WifiMacQueueItem)
  | notifyMissedAck (mpdu : WifiMacQueueItem)
  | notifyGotBlockAck (blockAck : CtrlBAckResponseHeader) (key : AgreementKey)
  | notifyMissedBlockAck (key : AgreementKey)
  | notifyDiscardedMpdu (mpdu : WifiMacQueueItem)
  | discardOutstandingMpdus (key : AgreementKey)
  deriving DecidableEq, Repr

/-- The agreement that a call is about. -/
def Call.key : Call → AgreementKey
  | .storePacket mpdu => mpdu.key
  | .retransmit mpdu => mpdu.key
  | .notifyGotAck mpdu => mpdu.key
  | .notifyMissedAck mpdu => mpdu.key
  | .notifyGotBlockAck _ key => key
  | .notifyMissedBlockAck key => key
  | .notifyDiscardedMpdu mpdu => mpdu.key
  | .discardOutstandingMpdus key => key

/-- What a call does, if it returns. -/
def perform (self : BlockAckManager) : Call → Option BlockAckManager
  | .storePacket mpdu => (self.storePacket mpdu).map (·.noteStored mpdu)
  | .retransmit mpdu => (self.dequeue mpdu).storePacket mpdu
  | .notifyGotAck mpdu => self.notifyGotAck mpdu
  | .notifyMissedAck mpdu => self.notifyMissedAck mpdu
  | .notifyGotBlockAck blockAck key => self.notifyGotBlockAck blockAck key
  | .notifyMissedBlockAck key => self.notifyMissedBlockAck key
  | .notifyDiscardedMpdu mpdu => self.notifyDiscardedMpdu mpdu
  | .discardOutstandingMpdus key => self.discardOutstandingMpdus key

/-- A data frame with a sequence number in the window. -/
def IsInWindow (ledger : Ledger) (mpdu : WifiMacQueueItem) : Prop :=
  mpdu.qosData ∧ mpdu.sequenceNumber < 4096 ∧
    getDistance mpdu.sequenceNumber ledger.agreement.txWindow.winStart <
      ledger.agreement.txWindow.getWinSize

instance (ledger : Ledger) (mpdu : WifiMacQueueItem) : Decidable (IsInWindow ledger mpdu) :=
  inferInstanceAs (Decidable (_ ∧ _ ∧ _))

/-- A new MPDU is in the window and its sequence control is not held; what is
retransmitted waits for it, and what is acknowledged or missed is outstanding. -/
def Allows (ledger : Ledger) : Call → Prop
  | .storePacket mpdu => IsInWindow ledger mpdu ∧ mpdu.fragmentNumber < 16 ∧
      ∀ item ∈ ledger.outstanding ++ ledger.retry, mpdu.sequenceControl ≠ item.sequenceControl
  | .retransmit mpdu => mpdu ∈ ledger.retry
  | .notifyGotAck mpdu => mpdu ∈ ledger.outstanding
  | .notifyMissedAck mpdu => mpdu ∈ ledger.outstanding
  | .notifyDiscardedMpdu mpdu => IsInWindow ledger mpdu
  | _ => True

/-- Fragments of one sequence number are not settled one by one: none is stored
once the sequence number is acknowledged, one that is acknowledged or missed by
itself is the only one, and what is acknowledged does not wait to be retransmitted. -/
def Whole (ledger : Ledger) : Call → Prop
  | .storePacket mpdu => ledger.agreement.txWindow.at'
      (getDistance mpdu.sequenceNumber ledger.agreement.txWindow.winStart) = false
  | .notifyGotAck mpdu =>
      (∀ other ∈ ledger.outstanding, other.sequenceNumber = mpdu.sequenceNumber → other = mpdu) ∧
      ∀ other ∈ ledger.retry, other.sequenceNumber ≠ mpdu.sequenceNumber
  | .notifyMissedAck mpdu =>
      ∀ other ∈ ledger.outstanding, other.sequenceNumber = mpdu.sequenceNumber → other = mpdu
  | .notifyGotBlockAck blockAck _ =>
      ∀ item ∈ ledger.outstanding, blockAck.isPacketReceived item.sequenceNumber →
        ∀ other ∈ ledger.retry, other.sequenceNumber ≠ item.sequenceNumber
  | _ => True

instance (ledger : Ledger) : ∀ call, Decidable (Allows ledger call)
  | .storePacket _ => inferInstanceAs (Decidable (_ ∧ _ ∧ _))
  | .retransmit mpdu => inferInstanceAs (Decidable (mpdu ∈ ledger.retry))
  | .notifyGotAck mpdu => inferInstanceAs (Decidable (mpdu ∈ ledger.outstanding))
  | .notifyMissedAck mpdu => inferInstanceAs (Decidable (mpdu ∈ ledger.outstanding))
  | .notifyGotBlockAck _ _ => inferInstanceAs (Decidable True)
  | .notifyMissedBlockAck _ => inferInstanceAs (Decidable True)
  | .notifyDiscardedMpdu mpdu => inferInstanceAs (Decidable (IsInWindow ledger mpdu))
  | .discardOutstandingMpdus _ => inferInstanceAs (Decidable True)

instance (ledger : Ledger) : ∀ call, Decidable (Whole ledger call)
  | .storePacket _ => inferInstanceAs (Decidable (_ = false))
  | .retransmit _ => inferInstanceAs (Decidable True)
  | .notifyGotAck _ => inferInstanceAs (Decidable (_ ∧ _))
  | .notifyMissedAck mpdu => inferInstanceAs (Decidable (∀ other ∈ ledger.outstanding,
      other.sequenceNumber = mpdu.sequenceNumber → other = mpdu))
  | .notifyGotBlockAck blockAck _ => inferInstanceAs (Decidable (∀ item ∈ ledger.outstanding,
      blockAck.isPacketReceived item.sequenceNumber →
        ∀ other ∈ ledger.retry, other.sequenceNumber ≠ item.sequenceNumber))
  | .notifyMissedBlockAck _ => inferInstanceAs (Decidable True)
  | .notifyDiscardedMpdu _ => inferInstanceAs (Decidable True)
  | .discardOutstandingMpdus _ => inferInstanceAs (Decidable True)

/-- A property of the ledger that a call is about. -/
def OnLedger (Property : Ledger → Call → Prop) (self : BlockAckManager) (call : Call) : Prop :=
  match self.ledger call.key with
  | none => False
  | some ledger => Property ledger call

instance (Property : Ledger → Call → Prop) [∀ ledger call, Decidable (Property ledger call)]
    (self : BlockAckManager) (call : Call) : Decidable (OnLedger Property self call) :=
  show Decidable (match self.ledger call.key with
    | none => False
    | some ledger => Property ledger call) from
  match self.ledger call.key with
  | none => inferInstanceAs (Decidable False)
  | some ledger => inferInstanceAs (Decidable (Property ledger call))

/-- Calls on established agreements. -/
def machine : Machine BlockAckManager Call where
  step self call := (self.perform call).getD self
  Enabled := OnLedger Allows

instance (self : BlockAckManager) (call : Call) : Decidable (machine.Enabled self call) :=
  inferInstanceAs (Decidable (OnLedger Allows self call))

/-- Each MPDU that was stored is outstanding, waits to be retransmitted, was
acknowledged or was discarded, once; no sequence control is in a list twice, and
the lists are sorted by the distance from the start of the window. -/
structure Accounts (ledger : Ledger) : Prop where
  conserved : (ledger.stored : Multiset WifiMacQueueItem) = ledger.total
  outstandingDistinct : (ledger.outstanding.map WifiMacQueueItem.sequenceControl).Nodup
  retryDistinct : (ledger.retry.map WifiMacQueueItem.sequenceControl).Nodup
  outstandingSorted : ledger.outstanding.Pairwise fun item other =>
    getDistance item.sequenceNumber ledger.agreement.txWindow.winStart ≤
      getDistance other.sequenceNumber ledger.agreement.txWindow.winStart
  retrySorted : ledger.retry.Pairwise fun item other =>
    getDistance item.sequenceNumber ledger.agreement.txWindow.winStart ≤
      getDistance other.sequenceNumber ledger.agreement.txWindow.winStart

/-- Every agreement accounts for its MPDUs. -/
def Conserves (self : BlockAckManager) : Prop :=
  ∀ key ledger, self.ledger key = some ledger → Accounts ledger

/-- The call returns. -/
def Returns (self : BlockAckManager) (call : Call) : Prop := (self.perform call).isSome

/-- Every ledger is in order. -/
def AllBalanced (self : BlockAckManager) : Prop :=
  ∀ key ledger, self.ledger key = some ledger →
    ∃ startingSeq winSize, winSize ≤ 1024 ∧ ledger.Balanced key startingSeq winSize

variable {self : BlockAckManager} {ledger : Ledger} {call : Call}

theorem accounts_of_balanced {key : AgreementKey} {startingSeq winSize : Nat}
    (balanced : ledger.Balanced key startingSeq winSize) : Accounts ledger := by
  have sorted : ∀ {items : List WifiMacQueueItem},
      (∀ item ∈ items, Held key ledger.agreement item) →
      SortedBy (place ledger.agreement) items → items.Pairwise fun item other =>
        getDistance item.sequenceNumber ledger.agreement.txWindow.winStart ≤
          getDistance other.sequenceNumber ledger.agreement.txWindow.winStart :=
    fun held order => List.Pairwise.imp_of_mem (fun {item other} inA inB before => by
      have fragment := (held item inA).fragment
      have otherFragment := (held other inB).fragment
      unfold place at before
      omega) order
  exact {
    conserved := balanced.conserved
    outstandingDistinct := Ledger.nodup_of_sorted balanced.outstandingHeld
      balanced.outstandingSorted
    retryDistinct := Ledger.nodup_of_sorted balanced.retryHeld balanced.retrySorted
    outstandingSorted := sorted balanced.outstandingHeld balanced.outstandingSorted
    retrySorted := sorted balanced.retryHeld balanced.retrySorted }

/-- A sequence number whose position is not marked is not shown. -/
theorem not_shows_of_at' {window : BlockAckWindow} (valid : window.Valid)
    (small : window.getWinSize ≤ 4096) {seq : Nat} (covered : window.Covers seq)
    (unmarked : window.at' (getDistance seq window.winStart) = false) : ¬ window.Shows seq := by
  rintro ⟨i, set, rfl⟩
  have inside := BlockAckWindow.lt_getWinSize_of_bit set
  rw [BlockAckWindow.at'_eq _ covered, getDistance_add valid.start (by omega), set] at unmarked
  exact nomatch unmarked

/-- Every call keeps the ledger of its agreement in order. -/
theorem settles_perform {startingSeq winSize : Nat} (found : self.ledger call.key = some ledger)
    (balanced : ledger.Balanced call.key startingSeq winSize) (small : winSize ≤ 1024)
    (allowed : Allows ledger call) (whole : Whole ledger call) :
    self.Settles call.key startingSeq winSize (self.perform call) := by
  cases call with
  | storePacket mpdu =>
      obtain ⟨⟨qosData, seqSmall, covered⟩, fragment, fresh⟩ := allowed
      have windowSmall : ledger.agreement.txWindow.getWinSize ≤ 4096 := by
        rw [balanced.valid.size]
        omega
      have held : Held mpdu.key ledger.agreement mpdu :=
        ⟨Bool.and_eq_true_iff.mpr ⟨qosData, decide_eq_true rfl⟩, seqSmall, fragment, covered,
          not_shows_of_at' balanced.valid.window windowSmall covered whole⟩
      exact settles_storePacket found balanced small held
        (fun item member => fresh item (List.mem_append_left _ member))
        (fun item member => fresh item (List.mem_append_right _ member))
  | retransmit mpdu => exact settles_retransmit found balanced small allowed
  | notifyGotAck mpdu => exact settles_notifyGotAck found balanced allowed whole.1 whole.2
  | notifyMissedAck mpdu => exact settles_notifyMissedAck found balanced small allowed whole
  | notifyGotBlockAck blockAck key => exact settles_notifyGotBlockAck found balanced small whole
  | notifyMissedBlockAck key => exact settles_notifyMissedBlockAck found balanced small
  | notifyDiscardedMpdu mpdu =>
      obtain ⟨qosData, seqSmall, covered⟩ := allowed
      obtain ⟨after, agreement, returned, updated, next⟩ := updates_notifyDiscardedMpdu found
        balanced small (Bool.and_eq_true_iff.mpr ⟨qosData, decide_eq_true rfl⟩) seqSmall covered
      exact ⟨after, _, returned, updated, next⟩
  | discardOutstandingMpdus key => exact settles_discardOutstandingMpdus found balanced small

theorem onLedger_eq_some {Property : Ledger → Call → Prop} (holds : OnLedger Property self call) :
    ∃ ledger, self.ledger call.key = some ledger ∧ Property ledger call := by
  unfold OnLedger at holds
  split at holds
  · exact holds.elim
  next ledger found => exact ⟨ledger, found, holds⟩

/-- What every step keeps. -/
theorem AllBalanced.perform (all : self.AllBalanced) (enabled : machine.Enabled self call)
    (whole : OnLedger Whole self call) :
    ∃ after, self.perform call = some after ∧ after.AllBalanced := by
  obtain ⟨ledger, found, allowed⟩ := onLedger_eq_some enabled
  obtain ⟨same, foundSame, holds⟩ := onLedger_eq_some whole
  obtain rfl := Option.some.inj (found.symm.trans foundSame)
  obtain ⟨startingSeq, winSize, small, balanced⟩ := all call.key ledger found
  obtain ⟨after, next, returned, updated, balancedNext⟩ :=
    settles_perform found balanced small allowed holds
  refine ⟨after, returned, fun key other present => ?_⟩
  by_cases own : key = call.key
  · subst own
    obtain rfl := Option.some.inj (updated.own.symm.trans present)
    exact ⟨startingSeq, winSize, small, balancedNext⟩
  · rw [updated.others key own] at present
    exact all key other present

theorem AllBalanced.create {established : AgreementKey → Option (Nat × Nat)}
    (sizes : ∀ key start size, established key = some (start, size) →
      start < 4096 ∧ 0 < size ∧ size ≤ 1024) : (create established).AllBalanced := by
  intro key ledger found
  unfold BlockAckManager.ledger BlockAckManager.create at found
  obtain ⟨entry, present, rfl⟩ := Option.map_eq_some_iff.mp found
  obtain ⟨⟨start, size⟩, given, rfl⟩ := Option.map_eq_some_iff.mp present
  obtain ⟨startSmall, positive, small⟩ := sizes key start size given
  exact ⟨start, size, small, {
    valid := .initTxWindow startSmall positive
    outstandingHeld := fun _ member => absurd member List.not_mem_nil
    retryHeld := fun _ member => absurd member List.not_mem_nil
    outstandingSorted := .nil
    retrySorted := .nil
    apart := fun _ member => absurd member List.not_mem_nil
    conserved := rfl }⟩

/-- A fragment of a data frame of one agreement. -/
def fragment (packet sequenceNumber fragmentNumber : Nat) : WifiMacQueueItem :=
  ⟨packet, 1, true, 0, sequenceNumber, fragmentNumber, false⟩

/-- One agreement, with a window of four sequence numbers. -/
def oneAgreement (key : AgreementKey) : Option (Nat × Nat) :=
  if key = (1, 0) then some (0, 4) else none

/-- Two frames are missed by a Block Ack that acknowledges a third one; one of them
is sent again and then discarded with the other. -/
def managerRun : List Call :=
  [.storePacket (fragment 1 0 0), .storePacket (fragment 2 1 0), .storePacket (fragment 3 2 0),
    .notifyGotBlockAck ⟨0, [2, 0, 0, 0, 0, 0, 0, 0]⟩ (1, 0),
    .retransmit (fragment 3 2 0).setRetry, .notifyDiscardedMpdu (fragment 3 2 0)]

/-- Two fragments of a frame are outstanding and one of them is missed. -/
def fragmentRun : List Call :=
  [.storePacket (fragment 1 0 0), .storePacket (fragment 2 0 1),
    .notifyMissedAck (fragment 1 0 0)]

end BlockAckManager

end Ns3.Wifi
