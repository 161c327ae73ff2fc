import Ns3.Wifi.BlockAck.Ledger

/-!
What the calls of the manager do to the ledgers.

Every call changes the ledger of one agreement and leaves the others as they are.
While a Block Ack is processed, fragments of an acknowledged sequence number may
be left behind by the window; `Processing` is the invariant of that loop, with the
outstanding MPDUs numbered from the start of the window before the first of them
was processed.
-/

namespace Ns3.Wifi

open Library

namespace Ledger

variable {self : Ledger} {key : AgreementKey} {startingSeq winSize base : Nat}
  {blockAck : CtrlBAckResponseHeader} {mpdu : WifiMacQueueItem} {rest : List WifiMacQueueItem}

/-- The ledger while a Block Ack is processed. -/
structure Processing (key : AgreementKey) (startingSeq winSize base : Nat)
    (blockAck : CtrlBAckResponseHeader) (ledger : Ledger) : Prop where
  valid : ledger.agreement.Valid startingSeq winSize
  small : winSize ≤ 1024
  isFor : ∀ item ∈ ledger.outstanding, BlockAckManager.isFor key item
  numbered : ∀ item ∈ ledger.outstanding, ∃ number, base ≤ number ∧ number < base + winSize ∧
    (startingSeq + number) % 4096 = item.sequenceNumber
  unreceived : ∀ item ∈ ledger.outstanding,
    ¬ blockAck.isPacketReceived item.sequenceNumber → Held key ledger.agreement item
  retryHeld : ∀ item ∈ ledger.retry, Held key ledger.agreement item
  retrySorted : SortedBy (place ledger.agreement) ledger.retry
  distinct : (ledger.outstanding.map WifiMacQueueItem.sequenceControl).Nodup
  apart : ∀ item ∈ ledger.outstanding, ∀ other ∈ ledger.retry,
    item.sequenceControl ≠ other.sequenceControl
  notRetry : ∀ item ∈ ledger.outstanding, blockAck.isPacketReceived item.sequenceNumber →
    ∀ other ∈ ledger.retry, other.sequenceNumber ≠ item.sequenceNumber
  reached : base ≤ ledger.agreement.advanced ∧ ledger.agreement.advanced ≤ base + winSize
  marked : ∀ i, ledger.agreement.txWindow.bits.getD i false →
    ledger.agreement.advanced + i < base + winSize
  conserved : (ledger.stored : Multiset WifiMacQueueItem) = ledger.total

theorem Balanced.processing (balanced : self.Balanced key startingSeq winSize)
    (small : winSize ≤ 1024)
    (notRetry : ∀ item ∈ self.outstanding, blockAck.isPacketReceived item.sequenceNumber →
      ∀ other ∈ self.retry, other.sequenceNumber ≠ item.sequenceNumber) :
    self.Processing key startingSeq winSize self.agreement.advanced blockAck where
  valid := balanced.valid
  small := small
  isFor item inOutstanding := (balanced.outstandingHeld item inOutstanding).isFor
  numbered item inOutstanding := by
    have held := balanced.outstandingHeld item inOutstanding
    have covered := held.covered
    have start := balanced.valid.start
    have reached := add_getDistance held.small balanced.valid.window.start
    rw [BlockAckWindow.Covers, balanced.valid.size] at covered
    exact ⟨self.agreement.advanced +
      getDistance item.sequenceNumber self.agreement.txWindow.winStart, by omega, by omega,
      by omega⟩
  unreceived item inOutstanding _ := balanced.outstandingHeld item inOutstanding
  retryHeld := balanced.retryHeld
  retrySorted := balanced.retrySorted
  distinct := nodup_of_sorted balanced.outstandingHeld balanced.outstandingSorted
  apart := balanced.apart
  notRetry := notRetry
  reached := by omega
  marked i set := by
    have inside := BlockAckWindow.lt_getWinSize_of_bit set
    rw [balanced.valid.size] at inside
    omega
  conserved := balanced.conserved

theorem Processing.balanced (processing : self.Processing key startingSeq winSize base blockAck)
    (finished : self.outstanding = []) : self.Balanced key startingSeq winSize where
  valid := processing.valid
  outstandingHeld _ inOutstanding := absurd (finished ▸ inOutstanding) List.not_mem_nil
  retryHeld := processing.retryHeld
  outstandingSorted := finished ▸ SortedBy.nil
  retrySorted := processing.retrySorted
  apart _ inOutstanding := absurd (finished ▸ inOutstanding) List.not_mem_nil
  conserved := processing.conserved

/-- An MPDU that is processed is in the window, or the window has left it behind. -/
theorem Processing.ackedIndex_cases
    (processing : self.Processing key startingSeq winSize base blockAck)
    (inOutstanding : mpdu ∈ self.outstanding) {index : Nat}
    (written : self.agreement.ackedIndex mpdu = some index) :
    index < winSize ∧ self.agreement.advanced + index < base + winSize := by
  obtain ⟨number, after, before, same⟩ := processing.numbered mpdu inOutstanding
  have seqSmall : mpdu.sequenceNumber < 4096 := same ▸ Nat.mod_lt _ (by decide)
  have start := processing.valid.start
  have small := processing.small
  have reached := processing.reached
  unfold OriginatorBlockAckAgreement.ackedIndex at written
  rw [processing.valid.distance_eq seqSmall, getDistance_eq seqSmall
    processing.valid.window.start] at written
  split at written
  · exact nomatch written
  · cases written
    omega

/-- The positions that are marked once an acknowledgment is noted. -/
theorem bit_acked {agreement : OriginatorBlockAckAgreement}
    (inside : ∀ index, agreement.ackedIndex mpdu = some index →
      index < agreement.txWindow.getWinSize) {i : Nat}
    (set : (agreement.acked mpdu).txWindow.bits.getD i false) :
    agreement.txWindow.bits.getD i false ∨ agreement.ackedIndex mpdu = some i := by
  rcases agreement.txWindow_acked_cases mpdu with same | ⟨marked, index⟩
  · exact .inl (same ▸ set)
  · rw [marked, BlockAckWindow.bits_mark _ (inside _ index)] at set
    by_cases same : agreement.distance mpdu = i
    · exact .inr (same ▸ index)
    · rw [List.getD_eq_getElem?_getD, List.getElem?_set_ne same] at set
      exact .inl ((List.getD_eq_getElem?_getD ..).trans set)

theorem Processing.acknowledge
    (processing : self.Processing key startingSeq winSize base blockAck)
    (outstanding : self.outstanding = mpdu :: rest)
    (received : blockAck.isPacketReceived mpdu.sequenceNumber) :
    ∃ after, self.agreement.notifyAckedMpdu mpdu = some after ∧
      Processing key startingSeq winSize base blockAck
        { self with
          agreement := after
          outstanding := rest
          acknowledged := mpdu.original :: self.acknowledged } := by
  have valid := processing.valid
  have first : mpdu ∈ self.outstanding := outstanding ▸ List.mem_cons_self
  have later : ∀ {item}, item ∈ rest → item ∈ self.outstanding := fun inRest =>
    outstanding ▸ List.mem_cons_of_mem mpdu inRest
  have small : mpdu.sequenceNumber < 4096 := by
    obtain ⟨number, -, -, same⟩ := processing.numbered mpdu first
    exact same ▸ Nat.mod_lt _ (by decide)
  have inside : ∀ index, self.agreement.ackedIndex mpdu = some index → index < winSize :=
    fun index written => (processing.ackedIndex_cases first written).1
  obtain ⟨after, ended, slid⟩ := valid.notifyAckedMpdu mpdu
  have further := slid.advanced
  have advanced := self.agreement.advanced_acked mpdu
  have reached := processing.reached
  have after_base : base ≤ after.advanced := by omega
  have start := self.agreement.winStart_acked mpdu
  have notedMarked : ∀ i, (self.agreement.acked mpdu).txWindow.bits.getD i false →
      self.agreement.advanced + i < base + winSize := fun i set =>
    (bit_acked (valid.size.symm ▸ inside) set).elim (processing.marked i)
      fun written => (processing.ackedIndex_cases first written).2
  have retryHeld : ∀ item ∈ self.retry, Held key (self.agreement.acked mpdu) item :=
    fun item waiting => Held.acked valid small inside (processing.retryHeld item waiting)
      (processing.notRetry mpdu first received item waiting)
  refine ⟨after, ended, {
    valid := valid_of_acked valid slid
    small := processing.small
    isFor := fun item inRest => processing.isFor item (later inRest)
    numbered := fun item inRest => processing.numbered item (later inRest)
    unreceived := fun item inRest notReceived => ?_
    retryHeld := fun item waiting => (slid.held valid.acked_window (retryHeld item waiting) id).1
    retrySorted := slid.sorted valid.acked_window
      (fun item waiting => ⟨retryHeld item waiting, id⟩)
      ((place_of_start start).symm ▸ processing.retrySorted)
    distinct := ?_
    apart := fun item inRest => processing.apart item (later inRest)
    notRetry := fun item inRest => processing.notRetry item (later inRest)
    reached := ⟨after_base, ?_⟩
    marked := fun i set => ?_
    conserved := ?_ }⟩
  · have different : item.sequenceNumber ≠ mpdu.sequenceNumber := fun same =>
      notReceived (same ▸ received)
    have held := Held.acked valid small inside
      (processing.unreceived item (later inRest) notReceived) different
    exact (slid.held valid.acked_window held id).1
  · have distinct := processing.distinct
    rw [outstanding, List.map_cons] at distinct
    exact (List.nodup_cons.mp distinct).2
  · by_cases moved : after.advanced = self.agreement.advanced
    · exact moved ▸ reached.2
    · have last := notedMarked (after.advanced - self.agreement.advanced - 1)
        ((slid.reasons _ (by omega)).resolve_right id)
      change after.advanced ≤ base + winSize
      omega
  · have set' : after.txWindow.bits.getD i false := set
    rw [slid.moved.bits] at set'
    have inWindow := notedMarked _ set'
    change after.advanced + i < base + winSize
    omega
  · rw [processing.conserved]
    unfold total
    dsimp only
    rw [outstanding, originals_cons, ← Multiset.cons_coe]
    simp only [Multiset.cons_add, Multiset.add_cons]

theorem Processing.retransmit
    (processing : self.Processing key startingSeq winSize base blockAck)
    (outstanding : self.outstanding = mpdu :: rest)
    (notReceived : ¬ blockAck.isPacketReceived mpdu.sequenceNumber) :
    ∃ retry, BlockAckManager.insertMpdu (fun _ => true) self.agreement mpdu.setRetry
        self.retry = some retry ∧
      Processing key startingSeq winSize base blockAck
        { self with outstanding := rest, retry := retry } := by
  have first : mpdu ∈ self.outstanding := outstanding ▸ List.mem_cons_self
  have later : ∀ {item}, item ∈ rest → item ∈ self.outstanding := fun inRest =>
    outstanding ▸ List.mem_cons_of_mem mpdu inRest
  have held := processing.unreceived mpdu first notReceived
  have taken : self.outstanding.Perm (mpdu :: rest) := List.Perm.of_eq outstanding
  have fresh := sequenceControl_ne_of_taken processing.distinct taken
  obtain ⟨retry, found, perm, sorted⟩ := BlockAckManager.insertMpdu_sorted processing.valid
    held.setRetry processing.retryHeld (processing.apart mpdu first) processing.retrySorted
  have members : ∀ {item}, item ∈ retry → item = mpdu.setRetry ∨ item ∈ self.retry :=
    fun member => List.mem_cons.mp (perm.mem_iff.mp member)
  refine ⟨retry, found, {
    valid := processing.valid
    small := processing.small
    isFor := fun item inRest => processing.isFor item (later inRest)
    numbered := fun item inRest => processing.numbered item (later inRest)
    unreceived := fun item inRest => processing.unreceived item (later inRest)
    retryHeld := fun item member => (members member).elim (fun same => same ▸ held.setRetry)
      (processing.retryHeld item)
    retrySorted := sorted
    distinct := ?_
    apart := fun item inRest other member => (members member).elim
      (fun same => same ▸ (fresh item inRest).symm) (processing.apart item (later inRest) other)
    notRetry := fun item inRest received other member => (members member).elim
      (fun same => same ▸ fun sameNumber => notReceived (sameNumber ▸ received))
      (processing.notRetry item (later inRest) received other)
    reached := processing.reached
    marked := processing.marked
    conserved := ?_ }⟩
  · have distinct := processing.distinct
    rw [outstanding, List.map_cons] at distinct
    exact (List.nodup_cons.mp distinct).2
  · rw [processing.conserved]
    unfold total
    dsimp only
    rw [outstanding, originals_of_perm perm, originals_cons, originals_cons, original_setRetry]
    simp only [Multiset.cons_add, Multiset.add_cons]

end Ledger

namespace BlockAckManager

/-- The ledger of an agreement. -/
def ledger (self : BlockAckManager) (key : AgreementKey) : Option Ledger :=
  (self.agreements key).map fun entry =>
    { agreement := entry.1
      outstanding := entry.2
      retry := self.retryPackets.filter (isFor key)
      stored := self.history.stored.filter (isFor key)
      acknowledged := self.history.acknowledged.filter (isFor key)
      discarded := self.history.discarded.filter (isFor key) }

/-- The ledger of one agreement is replaced, and the others are left alone. -/
structure Updates (before : BlockAckManager) (key : AgreementKey) (ledger : Ledger)
    (after : BlockAckManager) : Prop where
  own : after.ledger key = some ledger
  others : ∀ other, other ≠ key → after.ledger other = before.ledger other

variable {self after : BlockAckManager} {key : AgreementKey} {ledger : Ledger}
  {mpdu : WifiMacQueueItem}

theorem Updates.trans {later : BlockAckManager} {next : Ledger} (first : self.Updates key ledger after)
    (second : after.Updates key next later) : self.Updates key next later :=
  ⟨second.own, fun other different =>
    (second.others other different).trans (first.others other different)⟩

/-- What a ledger says about its manager. -/
theorem ledger_eq_some (found : self.ledger key = some ledger) :
    self.agreements key = some (ledger.agreement, ledger.outstanding) ∧
      ledger.retry = self.retryPackets.filter (isFor key) ∧
      ledger.stored = self.history.stored.filter (isFor key) ∧
      ledger.acknowledged = self.history.acknowledged.filter (isFor key) ∧
      ledger.discarded = self.history.discarded.filter (isFor key) := by
  obtain ⟨⟨agreement, outstanding⟩, present, rfl⟩ := Option.map_eq_some_iff.mp found
  exact ⟨present, rfl, rfl, rfl, rfl⟩

theorem isFor_other {item : WifiMacQueueItem} (matching : isFor key item) {other : AgreementKey}
    (different : other ≠ key) : isFor other item = false := by
  simp only [isFor, Bool.and_eq_true, decide_eq_true_eq, Bool.and_eq_false_imp] at *
  intro _
  exact decide_eq_false fun same => different (same.symm.trans matching.2)

theorem key_of_isFor {item : WifiMacQueueItem} (matching : isFor key item) : item.key = key := by
  simp only [isFor, Bool.and_eq_true, decide_eq_true_eq] at matching
  exact matching.2

theorem updates_setAgreement (found : self.ledger key = some ledger)
    (agreement : OriginatorBlockAckAgreement) (outstanding : List WifiMacQueueItem) :
    self.Updates key { ledger with agreement := agreement, outstanding := outstanding }
      (self.setAgreement key agreement outstanding) where
  own := by
    obtain ⟨-, retry, stored, acknowledged, discarded⟩ := ledger_eq_some found
    simp [BlockAckManager.ledger, setAgreement, retry, stored, acknowledged, discarded]
  others other different := by
    simp [BlockAckManager.ledger, setAgreement, Function.update_of_ne different]

theorem updates_noteAcknowledged (found : self.ledger key = some ledger) (matching : isFor key mpdu) :
    self.Updates key { ledger with acknowledged := mpdu.original :: ledger.acknowledged }
      (self.noteAcknowledged mpdu) where
  own := by
    obtain ⟨present, retry, stored, acknowledged, discarded⟩ := ledger_eq_some found
    have original : isFor key mpdu.original := matching
    simp [BlockAckManager.ledger, noteAcknowledged, present, retry, stored, acknowledged,
      discarded, original]
  others other different := by
    have original : isFor other mpdu.original = false := isFor_other matching different
    simp [BlockAckManager.ledger, noteAcknowledged, original]

theorem updates_insertInRetryQueue (found : self.ledger key = some ledger)
    (matching : isFor key mpdu) (recent : ledger.agreement.distance mpdu < 2048)
    {retry : List WifiMacQueueItem}
    (inserted : insertMpdu (fun _ => true) ledger.agreement mpdu.setRetry ledger.retry =
      some retry) :
    self.Updates key { ledger with retry := retry } (self.insertInRetryQueue mpdu) := by
  obtain ⟨present, waiting, stored, acknowledged, discarded⟩ := ledger_eq_some found
  have same := key_of_isFor matching
  have flagged : isFor key mpdu.setRetry := matching
  rw [waiting, insertMpdu_filter flagged] at inserted
  obtain ⟨retryPackets, queued, rfl⟩ := Option.map_eq_some_iff.mp inserted
  have result : self.insertInRetryQueue mpdu = { self with retryPackets := retryPackets } := by
    unfold insertInRetryQueue
    rw [same, present]
    dsimp only
    rw [if_neg (Nat.not_le.mpr recent), queued]
  rw [result]
  constructor
  · simp [BlockAckManager.ledger, present, stored, acknowledged, discarded]
  · intro other different
    have unchanged : retryPackets.filter (isFor other) = self.retryPackets.filter (isFor other) :=
      filter_of_insertMpdu (isFor_other flagged different) queued
    simp [BlockAckManager.ledger, unchanged]

/-- The call returns, and the ledger of the agreement is in order afterwards. -/
def Settles (self : BlockAckManager) (key : AgreementKey) (startingSeq winSize : Nat)
    (result : Option BlockAckManager) : Prop :=
  ∃ after next, result = some after ∧ self.Updates key next after ∧
    next.Balanced key startingSeq winSize

variable {startingSeq winSize : Nat}

theorem distance_lt_of_held {agreement : OriginatorBlockAckAgreement}
    (valid : agreement.Valid startingSeq winSize) (held : Held key agreement mpdu) :
    agreement.distance mpdu < winSize := by
  rw [valid.distance_eq held.small, ← valid.size]
  exact held.covered

/-- An MPDU in the window leaves the window where it is when it is transmitted. -/
theorem notifyTransmittedMpdu_of_held {agreement : OriginatorBlockAckAgreement}
    (valid : agreement.Valid startingSeq winSize) (held : Held key agreement mpdu) :
    agreement.notifyTransmittedMpdu mpdu = some agreement := by
  have inside := distance_lt_of_held valid held
  rw [← valid.size] at inside
  unfold OriginatorBlockAckAgreement.notifyTransmittedMpdu
  split
  · rfl
  · rw [if_neg (Nat.not_le.mpr inside)]

theorem storePacket_eq (found : self.ledger key = some ledger)
    (valid : ledger.agreement.Valid startingSeq winSize) (small : winSize ≤ 1024)
    (held : Held key ledger.agreement mpdu) {outstanding : List WifiMacQueueItem}
    (inserted : insertMpdu (fun _ => true) ledger.agreement mpdu ledger.outstanding =
      some outstanding) :
    self.storePacket mpdu = some (self.setAgreement key ledger.agreement outstanding) := by
  have inside := distance_lt_of_held valid held
  unfold storePacket
  rw [key_of_isFor held.isFor, (ledger_eq_some found).1]
  dsimp only
  rw [if_neg (by omega), inserted]
  dsimp only
  rw [notifyTransmittedMpdu_of_held valid held]
  rfl

/-- Note that an MPDU was stored. -/
def noteStored (self : BlockAckManager) (mpdu : WifiMacQueueItem) : BlockAckManager :=
  { self with history := { self.history with stored := mpdu.original :: self.history.stored } }

theorem updates_noteStored (found : self.ledger key = some ledger) (matching : isFor key mpdu) :
    self.Updates key { ledger with stored := mpdu.original :: ledger.stored }
      (self.noteStored mpdu) where
  own := by
    obtain ⟨present, retry, stored, acknowledged, discarded⟩ := ledger_eq_some found
    have original : isFor key mpdu.original := matching
    simp [BlockAckManager.ledger, noteStored, present, retry, stored, acknowledged, discarded,
      original]
  others other different := by
    have original : isFor other mpdu.original = false := isFor_other matching different
    simp [BlockAckManager.ledger, noteStored, original]

theorem settles_storePacket (found : self.ledger key = some ledger)
    (balanced : ledger.Balanced key startingSeq winSize) (small : winSize ≤ 1024)
    (held : Held key ledger.agreement mpdu)
    (notOutstanding : ∀ item ∈ ledger.outstanding, mpdu.sequenceControl ≠ item.sequenceControl)
    (notRetry : ∀ item ∈ ledger.retry, mpdu.sequenceControl ≠ item.sequenceControl) :
    self.Settles key startingSeq winSize ((self.storePacket mpdu).map (·.noteStored mpdu)) := by
  obtain ⟨outstanding, inserted, next⟩ := balanced.store held notOutstanding notRetry
  rw [storePacket_eq found balanced.valid small held inserted]
  have stored := updates_setAgreement found ledger.agreement outstanding
  exact ⟨_, _, rfl, stored.trans (updates_noteStored stored.own held.isFor), next⟩

/-- Take an MPDU out of the retransmit queue. -/
def dequeue (self : BlockAckManager) (mpdu : WifiMacQueueItem) : BlockAckManager :=
  { self with retryPackets := self.retryPackets.erase mpdu }

theorem updates_dequeue (found : self.ledger key = some ledger) (matching : isFor key mpdu) :
    self.Updates key { ledger with retry := ledger.retry.erase mpdu } (self.dequeue mpdu) where
  own := by
    obtain ⟨present, retry, stored, acknowledged, discarded⟩ := ledger_eq_some found
    simp [BlockAckManager.ledger, dequeue, present, retry, stored, acknowledged, discarded,
      List.erase_filter]
  others other different := by
    have absent : mpdu ∉ self.retryPackets.filter (isFor other) := fun member => by
      have here := (List.mem_filter.mp member).2
      rw [isFor_other matching different] at here
      exact nomatch here
    simp only [BlockAckManager.ledger, dequeue, ← List.erase_filter, List.erase_of_not_mem absent]

theorem settles_retransmit (found : self.ledger key = some ledger)
    (balanced : ledger.Balanced key startingSeq winSize) (small : winSize ≤ 1024)
    (waiting : mpdu ∈ ledger.retry) :
    self.Settles key startingSeq winSize ((self.dequeue mpdu).storePacket mpdu) := by
  have held := balanced.retryHeld mpdu waiting
  obtain ⟨outstanding, inserted, next⟩ := balanced.resend waiting
  have dequeued := updates_dequeue found held.isFor
  rw [storePacket_eq dequeued.own balanced.valid small held inserted]
  exact ⟨_, _, rfl, dequeued.trans (updates_setAgreement dequeued.own _ outstanding), next⟩

theorem settles_notifyGotAck (found : self.ledger key = some ledger)
    (balanced : ledger.Balanced key startingSeq winSize)
    (inOutstanding : mpdu ∈ ledger.outstanding)
    (alone : ∀ other ∈ ledger.outstanding,
      other.sequenceNumber = mpdu.sequenceNumber → other = mpdu)
    (notRetry : ∀ other ∈ ledger.retry, other.sequenceNumber ≠ mpdu.sequenceNumber) :
    self.Settles key startingSeq winSize (self.notifyGotAck mpdu) := by
  have matching := (balanced.outstandingHeld mpdu inOutstanding).isFor
  obtain ⟨after, ended, next⟩ := balanced.acknowledge inOutstanding alone notRetry
  have result : self.notifyGotAck mpdu = some ((self.setAgreement key after
      (withoutSequenceNumber mpdu ledger.outstanding)).noteAcknowledged mpdu) := by
    unfold notifyGotAck
    rw [key_of_isFor matching, (ledger_eq_some found).1]
    dsimp only
    rw [ended]
    rfl
  have written := updates_setAgreement found after (withoutSequenceNumber mpdu ledger.outstanding)
  exact ⟨_, _, result, written.trans (updates_noteAcknowledged written.own matching), next⟩

theorem settles_notifyMissedAck (found : self.ledger key = some ledger)
    (balanced : ledger.Balanced key startingSeq winSize) (small : winSize ≤ 1024)
    (inOutstanding : mpdu ∈ ledger.outstanding)
    (alone : ∀ other ∈ ledger.outstanding,
      other.sequenceNumber = mpdu.sequenceNumber → other = mpdu) :
    self.Settles key startingSeq winSize (self.notifyMissedAck mpdu) := by
  have held := balanced.outstandingHeld mpdu inOutstanding
  have recent : ledger.agreement.distance mpdu < 2048 :=
    lt_of_lt_of_le (distance_lt_of_held balanced.valid held) (by omega)
  have taken := balanced.perm_withoutSequenceNumber inOutstanding alone
  obtain ⟨retry, inserted, next⟩ := balanced.retransmit taken List.filter_sublist
  have result : self.notifyMissedAck mpdu = some ((self.setAgreement key ledger.agreement
      (withoutSequenceNumber mpdu ledger.outstanding)).insertInRetryQueue mpdu) := by
    unfold notifyMissedAck
    rw [key_of_isFor held.isFor, (ledger_eq_some found).1]
  have written := updates_setAgreement found ledger.agreement
    (withoutSequenceNumber mpdu ledger.outstanding)
  exact ⟨_, _, result,
    written.trans (updates_insertInRetryQueue written.own held.isFor recent inserted), next⟩

/-- No MPDU is old when the processing of a Block Ack begins. -/
theorem notOld_of_processing {base : Nat} {blockAck : CtrlBAckResponseHeader}
    (processing : ledger.Processing key startingSeq winSize base blockAck)
    (inOutstanding : mpdu ∈ ledger.outstanding) :
    qosUtilsIsOldPacket ((startingSeq + base) % 4096) mpdu.sequenceNumber = false := by
  obtain ⟨number, after, before, same⟩ := processing.numbered mpdu inOutstanding
  have small := processing.small
  have startSmall : (startingSeq + base) % 4096 < 4096 := Nat.mod_lt _ (by decide)
  have seqSmall : mpdu.sequenceNumber < 4096 := same ▸ Nat.mod_lt _ (by decide)
  refine decide_eq_false ?_
  rw [wrap_getDistance seqSmall startSmall, getDistance_eq seqSmall startSmall]
  omega

theorem settles_processBlockAck {base : Nat} {blockAck : CtrlBAckResponseHeader}
    {rest : List WifiMacQueueItem} (found : self.ledger key = some ledger)
    (processing : ledger.Processing key startingSeq winSize base blockAck)
    (outstanding : ledger.outstanding = rest) :
    self.Settles key startingSeq winSize
      (processBlockAck blockAck ((startingSeq + base) % 4096) key rest ledger.agreement self) := by
  induction rest generalizing self ledger with
  | nil =>
      refine ⟨_, _, rfl, updates_setAgreement found ledger.agreement [], ?_⟩
      exact outstanding ▸ processing.balanced outstanding
  | cons mpdu rest inductionHypothesis =>
      have first : mpdu ∈ ledger.outstanding := outstanding ▸ List.mem_cons_self
      have matching := processing.isFor mpdu first
      rw [processBlockAck]
      split
      next received =>
        obtain ⟨after, ended, next⟩ := processing.acknowledge outstanding received
        rw [ended]
        have written := updates_setAgreement found after rest
        have noted := written.trans (updates_noteAcknowledged written.own matching)
        obtain ⟨result, final, returned, updated, balanced⟩ :=
          inductionHypothesis noted.own next rfl
        exact ⟨result, final, returned, noted.trans updated, balanced⟩
      next notReceived =>
        have held := processing.unreceived mpdu first notReceived
        have small := processing.small
        have recent : ledger.agreement.distance mpdu < 2048 :=
          lt_of_lt_of_le (distance_lt_of_held processing.valid held) (by omega)
        obtain ⟨retry, inserted, next⟩ := processing.retransmit outstanding notReceived
        rw [notOld_of_processing processing first]
        have queued := updates_insertInRetryQueue found matching recent inserted
        have written := queued.trans (updates_setAgreement queued.own ledger.agreement rest)
        obtain ⟨result, final, returned, updated, balanced⟩ :=
          inductionHypothesis written.own next rfl
        exact ⟨result, final, returned, written.trans updated, balanced⟩

theorem settles_notifyGotBlockAck {blockAck : CtrlBAckResponseHeader}
    (found : self.ledger key = some ledger) (balanced : ledger.Balanced key startingSeq winSize)
    (small : winSize ≤ 1024)
    (notRetry : ∀ item ∈ ledger.outstanding, blockAck.isPacketReceived item.sequenceNumber →
      ∀ other ∈ ledger.retry, other.sequenceNumber ≠ item.sequenceNumber) :
    self.Settles key startingSeq winSize (self.notifyGotBlockAck blockAck key) := by
  unfold notifyGotBlockAck
  rw [(ledger_eq_some found).1]
  dsimp only
  rw [balanced.valid.start]
  exact settles_processBlockAck found (balanced.processing small notRetry) rfl

/-- The loop of `NotifyMissedBlockAck`: the ledger tells which MPDUs are still to
be inserted, while all are outstanding in the manager. -/
theorem updates_insertAll (small : winSize ≤ 1024) {items whole : List WifiMacQueueItem}
    (found : self.ledger key = some { ledger with outstanding := whole })
    (balanced : ledger.Balanced key startingSeq winSize) (outstanding : ledger.outstanding = items) :
    ∃ retry, self.Updates key { ledger with outstanding := whole, retry := retry }
        (items.foldl insertInRetryQueue self) ∧
      Ledger.Balanced key startingSeq winSize { ledger with outstanding := [], retry := retry } := by
  induction items generalizing self ledger with
  | nil => exact ⟨ledger.retry, ⟨found, fun _ _ => rfl⟩, outstanding ▸ balanced⟩
  | cons mpdu rest inductionHypothesis =>
      have first : mpdu ∈ ledger.outstanding := outstanding ▸ List.mem_cons_self
      have held := balanced.outstandingHeld mpdu first
      have recent : ledger.agreement.distance mpdu < 2048 :=
        lt_of_lt_of_le (distance_lt_of_held balanced.valid held) (by omega)
      obtain ⟨retry, inserted, next⟩ := balanced.retransmit (List.Perm.of_eq outstanding)
        (outstanding ▸ List.sublist_cons_self mpdu rest)
      have queued := updates_insertInRetryQueue found held.isFor recent inserted
      obtain ⟨final, updated, finished⟩ := inductionHypothesis queued.own next rfl
      exact ⟨final, queued.trans updated, finished⟩

theorem settles_notifyMissedBlockAck (found : self.ledger key = some ledger)
    (balanced : ledger.Balanced key startingSeq winSize) (small : winSize ≤ 1024) :
    self.Settles key startingSeq winSize (self.notifyMissedBlockAck key) := by
  obtain ⟨retry, updated, finished⟩ := updates_insertAll small found balanced rfl
  unfold notifyMissedBlockAck
  rw [(ledger_eq_some found).1]
  exact ⟨_, _, rfl, updated.trans (updates_setAgreement updated.own ledger.agreement []), finished⟩

theorem filter_original (items : List WifiMacQueueItem) (other : AgreementKey) :
    (items.map WifiMacQueueItem.original).filter (isFor other) =
      (items.filter (isFor other)).map WifiMacQueueItem.original := by
  rw [List.filter_map]
  rfl

/-- From the start of the window on, `RemoveFromRetryQueue` removes what is passed. -/
theorem isRemoved_eq {agreement : OriginatorBlockAckAgreement}
    (startSmall : agreement.txWindow.winStart < 4096) (seq : Nat) (item : WifiMacQueueItem) :
    isRemoved agreement key agreement.txWindow.winStart seq item =
      (isFor key item && isPassed agreement seq item) := by
  unfold isRemoved isPassed
  rw [getDistance_self startSmall]
  simp

theorem updates_removeOldPackets (found : self.ledger key = some ledger)
    (balanced : ledger.Balanced key startingSeq winSize) (small : winSize ≤ 1024) {seq : Nat}
    (seqSmall : seq < 4096) (covered : ledger.agreement.txWindow.Covers seq) :
    ∃ after, self.removeOldPackets key ((seq + 1) % 4096) = some after ∧
      self.Updates key (ledger.discardTo seq) after := by
  obtain ⟨present, retry, stored, acknowledged, discarded⟩ := ledger_eq_some found
  have startSmall := balanced.valid.window.start
  have distance := getDistance_eq seqSmall startSmall
  have nextDistance : getDistance ((seq + 1) % 4096) ledger.agreement.txWindow.winStart =
      getDistance seq ledger.agreement.txWindow.winStart + 1 := by
    rw [BlockAckWindow.Covers, balanced.valid.size] at covered
    rw [getDistance_eq (Nat.mod_lt _ (by decide)) startSmall] at *
    omega
  have notStart : (seq + 1) % 4096 ≠ ledger.agreement.txWindow.winStart := fun same => by
    rw [same, getDistance_self startSmall] at nextDistance
    cases nextDistance
  have last : ((seq + 1) % 4096 + 4096 - 1) % 4096 = seq := by omega
  unfold removeOldPackets
  rw [present]
  dsimp only
  rw [BlockAckWindow.Covers, balanced.valid.size] at covered
  rw [if_neg (by omega), if_neg notStart, last]
  have removed : isRemoved ledger.agreement key ledger.agreement.txWindow.winStart seq =
      fun item => isFor key item && isPassed ledger.agreement seq item :=
    funext (isRemoved_eq startSmall seq)
  rw [removed]
  have passedFor : (ledger.outstanding.filter (isPassed ledger.agreement seq)).filter (isFor key) =
      ledger.outstanding.filter (isPassed ledger.agreement seq) :=
    List.filter_eq_self.mpr fun item member =>
      (balanced.outstandingHeld item (List.mem_filter.mp member).1).isFor
  refine ⟨_, rfl, ?_, fun other different => ?_⟩
  · simp only [BlockAckManager.ledger, setAgreement, Function.update_self, Option.map_some,
      Option.some_inj, Ledger.discardTo, Ledger.mk.injEq, true_and]
    refine ⟨?_, stored.symm, acknowledged.symm, ?_⟩
    · rw [retry, List.filter_filter, List.filter_filter]
      refine List.filter_congr fun item _ => ?_
      cases isFor key item <;> cases isPassed ledger.agreement seq item <;> rfl
    · rw [List.filter_append, List.filter_append, filter_original, filter_original, passedFor,
        ← discarded, retry, List.filter_filter, List.filter_filter]
      have same : self.retryPackets.filter
          (fun item => isFor key item && (isFor key item && isPassed ledger.agreement seq item)) =
            self.retryPackets.filter
              (fun item => isPassed ledger.agreement seq item && isFor key item) := by
        refine List.filter_congr fun item _ => ?_
        cases isFor key item <;> cases isPassed ledger.agreement seq item <;> rfl
      rw [same]
  · have elsewhere : ∀ item, isFor key item → isFor other item = false := fun item matching =>
      isFor_other matching different
    have outstandingOther : (ledger.outstanding.filter (isPassed ledger.agreement seq)).filter
        (isFor other) = [] := List.filter_eq_nil_iff.mpr fun item member => by
      have held := balanced.outstandingHeld item (List.mem_filter.mp member).1
      simp [elsewhere item held.isFor]
    have retryOther : (self.retryPackets.filter
        (fun item => isFor key item && isPassed ledger.agreement seq item)).filter
          (isFor other) = [] := List.filter_eq_nil_iff.mpr fun item member => by
      have removed := (Bool.and_eq_true_iff.mp (List.mem_filter.mp member).2).1
      simp [elsewhere item removed]
    have kept : (self.retryPackets.filter
        (fun item => ! (isFor key item && isPassed ledger.agreement seq item))).filter
          (isFor other) = self.retryPackets.filter (isFor other) := by
      rw [List.filter_filter]
      refine List.filter_congr fun item _ => ?_
      cases matching : isFor key item with
      | false => simp
      | true => simp [elsewhere item matching]
    simp only [BlockAckManager.ledger, setAgreement, Function.update_of_ne different, kept,
      List.filter_append, filter_original, outstandingOther, retryOther, List.map_nil,
      List.nil_append]

/-- `NotifyDiscardedMpdu` lets go of the MPDU and of everything before it. -/
theorem updates_notifyDiscardedMpdu (found : self.ledger key = some ledger)
    (balanced : ledger.Balanced key startingSeq winSize) (small : winSize ≤ 1024)
    (matching : isFor key mpdu) (seqSmall : mpdu.sequenceNumber < 4096)
    (covered : ledger.agreement.txWindow.Covers mpdu.sequenceNumber) :
    ∃ after agreement, self.notifyDiscardedMpdu mpdu = some after ∧
      self.Updates key { ledger.discardTo mpdu.sequenceNumber with agreement := agreement } after ∧
      Ledger.Balanced key startingSeq winSize
        { ledger.discardTo mpdu.sequenceNumber with agreement := agreement } := by
  obtain ⟨removed, removal, updated⟩ := updates_removeOldPackets found balanced small seqSmall covered
  obtain ⟨agreement, ended, next⟩ := balanced.discard seqSmall
  have same := key_of_isFor matching
  have recent : qosUtilsIsOldPacket ledger.agreement.txWindow.winStart mpdu.sequenceNumber =
      false := by
    rw [BlockAckWindow.Covers, balanced.valid.size] at covered
    refine decide_eq_false ?_
    rw [wrap_getDistance seqSmall balanced.valid.window.start]
    omega
  have qosData : mpdu.qosData = true := (Bool.and_eq_true_iff.mp matching).1
  have ends : (ledger.discardTo mpdu.sequenceNumber).agreement.notifyDiscardedMpdu mpdu =
      some agreement := ended
  have written := updated.trans (updates_setAgreement updated.own agreement
    (ledger.discardTo mpdu.sequenceNumber).outstanding)
  have result : self.notifyDiscardedMpdu mpdu = some
      { removed.setAgreement key agreement (ledger.discardTo mpdu.sequenceNumber).outstanding with
        bars := scheduleBar ⟨key, agreement.txWindow.winStart, false⟩ removed.bars } := by
    unfold notifyDiscardedMpdu
    rw [qosData, same, (ledger_eq_some found).1]
    dsimp only
    rw [recent, if_neg (by decide), if_neg (by decide), removal, Option.bind_some,
      (ledger_eq_some updated.own).1]
    dsimp only
    rw [ends]
    rfl
  exact ⟨_, agreement, result, ⟨written.own, written.others⟩, next⟩

/-- Each round of `DiscardOutstandingMpdus` lets go of the first outstanding MPDU. -/
theorem settles_discardWhile {tests : Nat} (found : self.ledger key = some ledger)
    (balanced : ledger.Balanced key startingSeq winSize) (small : winSize ≤ 1024)
    (enough : ledger.outstanding.length < tests) :
    self.Settles key startingSeq winSize (discardWhile key tests self) := by
  induction tests generalizing self ledger with
  | zero => omega
  | succ tests inductionHypothesis =>
      rw [discardWhile, (ledger_eq_some found).1]
      cases outstanding : ledger.outstanding with
      | nil => exact ⟨self, ledger, rfl, ⟨found, fun _ _ => rfl⟩, balanced⟩
      | cons mpdu rest =>
          have held := balanced.outstandingHeld mpdu (outstanding ▸ List.mem_cons_self)
          have inside := distance_lt_of_held balanced.valid held
          rw [balanced.valid.distance_eq held.small] at inside
          dsimp only
          rw [if_neg (by omega)]
          obtain ⟨after, agreement, returned, updated, next⟩ := updates_notifyDiscardedMpdu found
            balanced small held.isFor held.small held.covered
          rw [returned, Option.bind_some]
          have fewer : (ledger.discardTo mpdu.sequenceNumber).outstanding.length < tests := by
            have passed : isPassed ledger.agreement mpdu.sequenceNumber mpdu = true :=
              decide_eq_true (le_refl _)
            have shorter := List.length_filter_le
              (! isPassed ledger.agreement mpdu.sequenceNumber ·) rest
            rw [Ledger.discardTo, outstanding]
            rw [outstanding, List.length_cons] at enough
            dsimp only
            rw [List.filter_cons_of_neg (by simp [passed])]
            omega
          obtain ⟨final, last, finished, updatedLast, balancedLast⟩ :=
            inductionHypothesis updated.own next fewer
          exact ⟨final, last, finished, updated.trans updatedLast, balancedLast⟩

theorem settles_discardOutstandingMpdus (found : self.ledger key = some ledger)
    (balanced : ledger.Balanced key startingSeq winSize) (small : winSize ≤ 1024) :
    self.Settles key startingSeq winSize (self.discardOutstandingMpdus key) := by
  unfold discardOutstandingMpdus
  rw [(ledger_eq_some found).1]
  exact settles_discardWhile found balanced small (Nat.lt_succ_self _)

end BlockAckManager

end Ns3.Wifi
