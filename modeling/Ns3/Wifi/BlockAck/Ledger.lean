import Ns3.Library.SortedList
import Ns3.Wifi.BlockAck.Manager
import Mathlib.Algebra.Order.Group.Multiset
import Mathlib.Tactic.Abel

/-!
The ledger of one agreement: where each MPDU that was stored under it is.

A ledger is balanced if every MPDU that it holds, outstanding or to be
retransmitted, is in the transmit window and not marked there, both lists are in
the order of the window, and nothing that was stored is missing or there twice.
-/

namespace Ns3.Wifi

open Library

/-- The place of an MPDU from the start of the window on; fragments of one
sequence number are in the order of their fragment numbers. -/
def place (agreement : OriginatorBlockAckAgreement) (item : WifiMacQueueItem) : Nat :=
  getDistance item.sequenceNumber agreement.txWindow.winStart * 16 + item.fragmentNumber

/-- An MPDU that an agreement holds. -/
structure Held (key : AgreementKey) (agreement : OriginatorBlockAckAgreement)
    (item : WifiMacQueueItem) : Prop where
  isFor : BlockAckManager.isFor key item
  small : item.sequenceNumber < 4096
  fragment : item.fragmentNumber < 16
  covered : agreement.txWindow.Covers item.sequenceNumber
  unmarked : ¬ agreement.txWindow.Shows item.sequenceNumber

theorem Held.setRetry {key : AgreementKey} {agreement : OriginatorBlockAckAgreement}
    {item : WifiMacQueueItem} (held : Held key agreement item) :
    Held key agreement item.setRetry :=
  ⟨held.isFor, held.small, held.fragment, held.covered, held.unmarked⟩

/-- What a manager knows about the MPDUs of one agreement. -/
structure Ledger where
  agreement : OriginatorBlockAckAgreement
  outstanding : List WifiMacQueueItem
  retry : List WifiMacQueueItem
  stored : List WifiMacQueueItem
  acknowledged : List WifiMacQueueItem
  discarded : List WifiMacQueueItem

namespace Ledger

/-- The MPDUs of a list, whatever their retry flags. -/
def originals (items : List WifiMacQueueItem) : Multiset WifiMacQueueItem :=
  (items.map WifiMacQueueItem.original : List WifiMacQueueItem)

/-- The MPDUs that a ledger accounts for. -/
def total (self : Ledger) : Multiset WifiMacQueueItem :=
  originals self.outstanding + originals self.retry +
    (self.acknowledged : Multiset WifiMacQueueItem) + (self.discarded : Multiset WifiMacQueueItem)

/-- A ledger in order. -/
structure Balanced (key : AgreementKey) (startingSeq winSize : Nat) (ledger : Ledger) : Prop where
  valid : ledger.agreement.Valid startingSeq winSize
  outstandingHeld : ∀ item ∈ ledger.outstanding, Held key ledger.agreement item
  retryHeld : ∀ item ∈ ledger.retry, Held key ledger.agreement item
  outstandingSorted : SortedBy (place ledger.agreement) ledger.outstanding
  retrySorted : SortedBy (place ledger.agreement) ledger.retry
  apart : ∀ item ∈ ledger.outstanding, ∀ other ∈ ledger.retry,
    item.sequenceControl ≠ other.sequenceControl
  conserved : (ledger.stored : Multiset WifiMacQueueItem) = ledger.total

end Ledger

namespace BlockAckManager

section Insert

variable {isMatch : WifiMacQueueItem → Bool} {agreement : OriginatorBlockAckAgreement}
  {mpdu : WifiMacQueueItem} {items inserted : List WifiMacQueueItem}

/-- Insertion among the MPDUs that match is insertion into what matches. -/
theorem insertMpdu_filter (matching : isMatch mpdu) :
    insertMpdu (fun _ => true) agreement mpdu (items.filter isMatch) =
      (insertMpdu isMatch agreement mpdu items).map (List.filter isMatch) := by
  induction items with
  | nil => simp [insertMpdu, matching]
  | cons item rest inductionHypothesis =>
      cases same : isMatch item with
      | false =>
          rw [List.filter_cons_of_neg (by simp [same]), inductionHypothesis, insertMpdu, same,
            if_neg (by decide), Option.map_map]
          congr 1
          funext inserted
          exact (List.filter_cons_of_neg (by simp [same])).symm
      | true =>
          rw [List.filter_cons_of_pos same, insertMpdu, insertMpdu, same, inductionHypothesis]
          simp only [if_true]
          split
          · rfl
          · split
            · simp [matching, same]
            · rw [Option.map_map, Option.map_map]
              congr 1
              funext inserted
              exact (List.filter_cons_of_pos same).symm

/-- Insertion leaves the MPDUs of the other agreements alone. -/
theorem filter_of_insertMpdu {isOther : WifiMacQueueItem → Bool} (different : isOther mpdu = false)
    (found : insertMpdu isMatch agreement mpdu items = some inserted) :
    inserted.filter isOther = items.filter isOther := by
  induction items generalizing inserted with
  | nil =>
      cases found
      simp [different]
  | cons item rest inductionHypothesis =>
      have later : ∀ {tail}, (insertMpdu isMatch agreement mpdu rest).map (item :: ·) = some tail →
          tail.filter isOther = (item :: rest).filter isOther := fun tailFound => by
        obtain ⟨tail, restFound, rfl⟩ := Option.map_eq_some_iff.mp tailFound
        rw [List.filter_cons, List.filter_cons, inductionHypothesis restFound]
      rw [insertMpdu] at found
      split at found
      · split at found
        · exact nomatch found
        · split at found
          · cases found
            rw [List.filter_cons_of_neg (by simp [different])]
          · exact later found
      · exact later found

theorem place_lt_iff {startingSeq winSize : Nat} (valid : agreement.Valid startingSeq winSize)
    {item : WifiMacQueueItem} (mpduSmall : mpdu.sequenceNumber < 4096)
    (itemSmall : item.sequenceNumber < 4096) (mpduFragment : mpdu.fragmentNumber < 16)
    (itemFragment : item.fragmentNumber < 16) :
    (agreement.distance mpdu < agreement.distance item ∨
      (agreement.distance mpdu = agreement.distance item ∧
        mpdu.fragmentNumber < item.fragmentNumber)) ↔
      place agreement mpdu < place agreement item := by
  rw [valid.distance_eq mpduSmall, valid.distance_eq itemSmall, place, place]
  omega

theorem place_ne {startingSeq winSize : Nat} (valid : agreement.Valid startingSeq winSize)
    {item : WifiMacQueueItem} (mpduSmall : mpdu.sequenceNumber < 4096)
    (itemSmall : item.sequenceNumber < 4096) (mpduFragment : mpdu.fragmentNumber < 16)
    (itemFragment : item.fragmentNumber < 16)
    (different : mpdu.sequenceControl ≠ item.sequenceControl) :
    place agreement mpdu ≠ place agreement item := by
  intro same
  have sameDistance : getDistance mpdu.sequenceNumber agreement.txWindow.winStart =
      getDistance item.sequenceNumber agreement.txWindow.winStart := by
    unfold place at same
    omega
  have sameNumber := getDistance_injective mpduSmall itemSmall valid.window.start sameDistance
  unfold place at same
  unfold WifiMacQueueItem.sequenceControl at different
  omega

/-- An MPDU whose sequence control is not present is inserted in its place. -/
theorem insertMpdu_sorted {key : AgreementKey} {startingSeq winSize : Nat}
    (valid : agreement.Valid startingSeq winSize)
    (held : Held key agreement mpdu) (itemsHeld : ∀ item ∈ items, Held key agreement item)
    (absent : ∀ item ∈ items, mpdu.sequenceControl ≠ item.sequenceControl)
    (sorted : SortedBy (place agreement) items) :
    ∃ inserted, insertMpdu (fun _ => true) agreement mpdu items = some inserted ∧
      inserted.Perm (mpdu :: items) ∧ SortedBy (place agreement) inserted := by
  induction items with
  | nil => exact ⟨[mpdu], rfl, List.Perm.refl _, List.pairwise_singleton _ _⟩
  | cons item rest inductionHypothesis =>
      have itemHeld := itemsHeld item List.mem_cons_self
      have different := absent item List.mem_cons_self
      have before_iff := place_lt_iff valid held.small itemHeld.small held.fragment
        itemHeld.fragment
      rw [insertMpdu, if_pos rfl, if_neg different]
      split
      next comesBefore =>
        have before := before_iff.mp comesBefore
        refine ⟨_, rfl, List.Perm.refl _, List.pairwise_cons.mpr ⟨fun other later => ?_, sorted⟩⟩
        rcases List.mem_cons.mp later with rfl | inRest
        · exact before
        · exact lt_trans before (sorted.head_lt inRest)
      next comesAfter =>
        have notBefore := mt before_iff.mpr comesAfter
        obtain ⟨tail, found, perm, tailSorted⟩ := inductionHypothesis
          (fun other inRest => itemsHeld other (List.mem_cons_of_mem item inRest))
          (fun other inRest => absent other (List.mem_cons_of_mem item inRest)) sorted.tail
        have notSame := place_ne valid held.small itemHeld.small held.fragment itemHeld.fragment
          different
        refine ⟨item :: tail, by rw [found]; rfl,
          (perm.cons item).trans (List.Perm.swap mpdu item rest),
          List.pairwise_cons.mpr ⟨fun other later => ?_, tailSorted⟩⟩
        rcases List.mem_cons.mp (perm.mem_iff.mp later) with rfl | inRest
        · omega
        · exact sorted.head_lt inRest

end Insert

end BlockAckManager

/-- A held MPDU stays held while the window moves on, at a place that is as much
nearer to the start. -/
theorem OriginatorBlockAckAgreement.Slid.held {Excused : Nat → Prop}
    {noted after : OriginatorBlockAckAgreement} (slid : noted.Slid Excused after)
    (window : noted.txWindow.Valid) {key : AgreementKey} {item : WifiMacQueueItem}
    (held : Held key noted item)
    (kept : ¬ Excused (getDistance item.sequenceNumber noted.txWindow.winStart)) :
    Held key after item ∧
      place after item + 16 * (after.advanced - noted.advanced) = place noted item := by
  have reached := add_getDistance held.small window.start
  have notPassed : after.advanced - noted.advanced ≤
      getDistance item.sequenceNumber noted.txWindow.winStart := by
    by_contra passed
    rcases slid.reasons _ (Nat.not_le.mp passed) with marked | excused
    · exact held.unmarked ⟨_, marked, reached⟩
    · exact kept excused
  have nearer := getDistance_advance held.small window.start notPassed
  rw [← slid.moved.start] at nearer
  have covered := held.covered
  refine ⟨⟨held.isFor, held.small, held.fragment, ?_, fun shown =>
    held.unmarked (slid.moved.shows shown)⟩, ?_⟩
  · rw [BlockAckWindow.Covers] at *
    rw [nearer, slid.moved.size]
    omega
  · rw [place, place, nearer]
    omega

/-- The window moves on under a list that is in its order. -/
theorem OriginatorBlockAckAgreement.Slid.sorted {Excused : Nat → Prop}
    {noted after : OriginatorBlockAckAgreement} (slid : noted.Slid Excused after)
    (window : noted.txWindow.Valid) {key : AgreementKey} {items : List WifiMacQueueItem}
    (held : ∀ item ∈ items, Held key noted item ∧
      ¬ Excused (getDistance item.sequenceNumber noted.txWindow.winStart))
    (sorted : SortedBy (place noted) items) : SortedBy (place after) items :=
  sorted.of_map fun a inA b inB smaller => by
    have nearA := (slid.held window (held a inA).1 (held a inA).2).2
    have nearB := (slid.held window (held b inB).1 (held b inB).2).2
    omega

theorem place_of_start {noted agreement : OriginatorBlockAckAgreement}
    (start : noted.txWindow.winStart = agreement.txWindow.winStart) :
    place noted = place agreement := by
  funext item
  rw [place, place, start]

namespace Ledger

variable {self : Ledger} {key : AgreementKey} {startingSeq winSize : Nat}
  {mpdu : WifiMacQueueItem}

theorem originals_of_perm {items others : List WifiMacQueueItem} (perm : items.Perm others) :
    originals items = originals others := Multiset.coe_eq_coe.mpr (perm.map _)

theorem originals_cons (item : WifiMacQueueItem) (items : List WifiMacQueueItem) :
    originals (item :: items) = item.original ::ₘ originals items := rfl

theorem original_setRetry (item : WifiMacQueueItem) : item.setRetry.original = item.original := rfl

/-- No sequence control is held twice in a list in the order of the window. -/
theorem nodup_of_sorted {agreement : OriginatorBlockAckAgreement} {items : List WifiMacQueueItem}
    (held : ∀ item ∈ items, Held key agreement item) (sorted : SortedBy (place agreement) items) :
    (items.map WifiMacQueueItem.sequenceControl).Nodup := by
  refine List.pairwise_map.mpr (List.Pairwise.imp_of_mem (fun {item other} inA inB before => ?_)
    sorted)
  intro same
  have itemFragment := (held item inA).fragment
  have otherFragment := (held other inB).fragment
  unfold WifiMacQueueItem.sequenceControl at same
  have sameNumber : item.sequenceNumber = other.sequenceNumber := by omega
  unfold place at before
  rw [sameNumber] at before same
  omega

/-- The sequence control of an MPDU that is taken out of a list is not in the rest. -/
theorem sequenceControl_ne_of_taken {items rest : List WifiMacQueueItem}
    (distinct : (items.map WifiMacQueueItem.sequenceControl).Nodup)
    (perm : items.Perm (mpdu :: rest)) :
    ∀ other ∈ rest, mpdu.sequenceControl ≠ other.sequenceControl := by
  intro other left same
  have fresh := (List.nodup_cons.mp ((perm.map _).nodup_iff.mp distinct)).1
  exact fresh (same ▸ List.mem_map_of_mem left)

/-- The window moves on, and some of the MPDUs are let go. -/
theorem Balanced.slide (balanced : self.Balanced key startingSeq winSize)
    {noted after : OriginatorBlockAckAgreement} {Excused : Nat → Prop}
    (start : noted.txWindow.winStart = self.agreement.txWindow.winStart)
    (window : noted.txWindow.Valid) (slid : noted.Slid Excused after)
    (valid : after.Valid startingSeq winSize)
    {outstanding retry acknowledged discarded : List WifiMacQueueItem}
    (fewerOutstanding : outstanding.Sublist self.outstanding)
    (fewerRetry : retry.Sublist self.retry)
    (outstandingHeld : ∀ item ∈ outstanding, Held key noted item ∧
      ¬ Excused (getDistance item.sequenceNumber noted.txWindow.winStart))
    (retryHeld : ∀ item ∈ retry, Held key noted item ∧
      ¬ Excused (getDistance item.sequenceNumber noted.txWindow.winStart))
    (conserved : (self.stored : Multiset WifiMacQueueItem) =
      total ⟨after, outstanding, retry, self.stored, acknowledged, discarded⟩) :
    Balanced key startingSeq winSize
      ⟨after, outstanding, retry, self.stored, acknowledged, discarded⟩ := by
  have samePlace := place_of_start start
  exact {
    valid := valid
    outstandingHeld := fun item inOutstanding =>
      (slid.held window (outstandingHeld item inOutstanding).1
        (outstandingHeld item inOutstanding).2).1
    retryHeld := fun item inRetry =>
      (slid.held window (retryHeld item inRetry).1 (retryHeld item inRetry).2).1
    outstandingSorted := slid.sorted window outstandingHeld
      (samePlace ▸ balanced.outstandingSorted.sublist fewerOutstanding)
    retrySorted := slid.sorted window retryHeld
      (samePlace ▸ balanced.retrySorted.sublist fewerRetry)
    apart := fun item inOutstanding other inRetry =>
      balanced.apart item (fewerOutstanding.mem inOutstanding) other (fewerRetry.mem inRetry)
    conserved := conserved }

/-- A new MPDU becomes outstanding. -/
theorem Balanced.store (balanced : self.Balanced key startingSeq winSize)
    (held : Held key self.agreement mpdu)
    (notOutstanding : ∀ item ∈ self.outstanding, mpdu.sequenceControl ≠ item.sequenceControl)
    (notRetry : ∀ item ∈ self.retry, mpdu.sequenceControl ≠ item.sequenceControl) :
    ∃ outstanding, BlockAckManager.insertMpdu (fun _ => true) self.agreement mpdu
        self.outstanding = some outstanding ∧
      Balanced key startingSeq winSize
        { self with outstanding := outstanding, stored := mpdu.original :: self.stored } := by
  obtain ⟨outstanding, found, perm, sorted⟩ := BlockAckManager.insertMpdu_sorted balanced.valid
    held balanced.outstandingHeld notOutstanding balanced.outstandingSorted
  have members : ∀ {item}, item ∈ outstanding → item = mpdu ∨ item ∈ self.outstanding :=
    fun member => List.mem_cons.mp (perm.mem_iff.mp member)
  refine ⟨outstanding, found, {
    balanced with
    outstandingHeld := fun item member => (members member).elim (fun same => same ▸ held)
      (balanced.outstandingHeld item)
    outstandingSorted := sorted
    apart := fun item member other inRetry => (members member).elim
      (fun same => same ▸ notRetry other inRetry) (balanced.apart item · other inRetry)
    conserved := ?_ }⟩
  have before := balanced.conserved
  unfold total at *
  dsimp only at *
  rw [← Multiset.cons_coe, before, originals_of_perm perm, originals_cons]
  simp only [Multiset.cons_add]

/-- An MPDU is retransmitted. -/
theorem Balanced.resend (balanced : self.Balanced key startingSeq winSize)
    (waiting : mpdu ∈ self.retry) :
    ∃ outstanding, BlockAckManager.insertMpdu (fun _ => true) self.agreement mpdu
        self.outstanding = some outstanding ∧
      Balanced key startingSeq winSize
        { self with outstanding := outstanding, retry := self.retry.erase mpdu } := by
  have held := balanced.retryHeld mpdu waiting
  have fewer : (self.retry.erase mpdu).Sublist self.retry := List.erase_sublist
  have taken := List.perm_cons_erase waiting
  have distinct := sequenceControl_ne_of_taken
    (nodup_of_sorted balanced.retryHeld balanced.retrySorted) taken
  obtain ⟨outstanding, found, perm, sorted⟩ := BlockAckManager.insertMpdu_sorted balanced.valid
    held balanced.outstandingHeld
    (fun item inOutstanding => (balanced.apart item inOutstanding mpdu waiting).symm)
    balanced.outstandingSorted
  have members : ∀ {item}, item ∈ outstanding → item = mpdu ∨ item ∈ self.outstanding :=
    fun member => List.mem_cons.mp (perm.mem_iff.mp member)
  refine ⟨outstanding, found, {
    valid := balanced.valid
    outstandingHeld := fun item member => (members member).elim (fun same => same ▸ held)
      (balanced.outstandingHeld item)
    retryHeld := fun item left => balanced.retryHeld item (fewer.mem left)
    outstandingSorted := sorted
    retrySorted := balanced.retrySorted.sublist fewer
    apart := fun item member other left => (members member).elim
      (fun same => same ▸ distinct other left)
      (balanced.apart item · other (fewer.mem left))
    conserved := ?_ }⟩
  have before := balanced.conserved
  unfold total at *
  dsimp only at *
  rw [before, originals_of_perm perm, originals_of_perm taken, originals_cons, originals_cons]
  simp only [Multiset.cons_add, Multiset.add_cons]

/-- An outstanding MPDU is to be retransmitted. -/
theorem Balanced.retransmit (balanced : self.Balanced key startingSeq winSize)
    {rest : List WifiMacQueueItem} (taken : self.outstanding.Perm (mpdu :: rest))
    (fewer : rest.Sublist self.outstanding) :
    ∃ retry, BlockAckManager.insertMpdu (fun _ => true) self.agreement mpdu.setRetry
        self.retry = some retry ∧
      Balanced key startingSeq winSize { self with outstanding := rest, retry := retry } := by
  have inOutstanding : mpdu ∈ self.outstanding := taken.mem_iff.mpr List.mem_cons_self
  have held := balanced.outstandingHeld mpdu inOutstanding
  have distinct := sequenceControl_ne_of_taken
    (nodup_of_sorted balanced.outstandingHeld balanced.outstandingSorted) taken
  obtain ⟨retry, found, perm, sorted⟩ := BlockAckManager.insertMpdu_sorted balanced.valid
    held.setRetry balanced.retryHeld (balanced.apart mpdu inOutstanding) balanced.retrySorted
  have members : ∀ {item}, item ∈ retry → item = mpdu.setRetry ∨ item ∈ self.retry :=
    fun member => List.mem_cons.mp (perm.mem_iff.mp member)
  refine ⟨retry, found, {
    valid := balanced.valid
    outstandingHeld := fun item left => balanced.outstandingHeld item (fewer.mem left)
    retryHeld := fun item member => (members member).elim (fun same => same ▸ held.setRetry)
      (balanced.retryHeld item)
    outstandingSorted := balanced.outstandingSorted.sublist fewer
    retrySorted := sorted
    apart := fun item left other member => (members member).elim
      (fun same => same ▸ (distinct item left).symm)
      (balanced.apart item (fewer.mem left) other)
    conserved := ?_ }⟩
  have before := balanced.conserved
  unfold total at *
  dsimp only at *
  rw [before, originals_of_perm perm, originals_of_perm taken, originals_cons, originals_cons,
    original_setRetry]
  simp only [Multiset.cons_add, Multiset.add_cons]

/-- The acknowledgment of an MPDU in the window writes within the window. -/
theorem Held.ackedIndex_lt {agreement : OriginatorBlockAckAgreement}
    (valid : agreement.Valid startingSeq winSize) (held : Held key agreement mpdu) {index : Nat}
    (written : agreement.ackedIndex mpdu = some index) : index < winSize := by
  have covered := held.covered
  rw [BlockAckWindow.Covers, valid.size] at covered
  unfold OriginatorBlockAckAgreement.ackedIndex at written
  rw [valid.distance_eq held.small] at written
  split at written
  · cases written
  · cases written
    exact covered

/-- The acknowledgment of one sequence number leaves the others held. -/
theorem Held.acked {agreement : OriginatorBlockAckAgreement}
    (valid : agreement.Valid startingSeq winSize) (small : mpdu.sequenceNumber < 4096)
    (inside : ∀ index, agreement.ackedIndex mpdu = some index → index < winSize)
    {item : WifiMacQueueItem} (held : Held key agreement item)
    (different : item.sequenceNumber ≠ mpdu.sequenceNumber) :
    Held key (agreement.acked mpdu) item where
  isFor := held.isFor
  small := held.small
  fragment := held.fragment
  covered := by
    rw [BlockAckWindow.Covers, agreement.winStart_acked, agreement.getWinSize_acked]
    exact held.covered
  unmarked shown := (valid.shows_of_acked small inside shown).elim different held.unmarked

theorem valid_of_acked {agreement after : OriginatorBlockAckAgreement}
    (valid : agreement.Valid startingSeq winSize)
    (slid : (agreement.acked mpdu).Slid (fun _ => False) after) :
    after.Valid startingSeq winSize :=
  slid.valid (by rw [agreement.winStart_acked, agreement.advanced_acked, valid.start])
    ((agreement.getWinSize_acked mpdu).trans valid.size)

/-- The only outstanding MPDU with its sequence number is taken out. -/
theorem Balanced.perm_withoutSequenceNumber (balanced : self.Balanced key startingSeq winSize)
    (inOutstanding : mpdu ∈ self.outstanding) (alone : ∀ other ∈ self.outstanding,
      other.sequenceNumber = mpdu.sequenceNumber → other = mpdu) :
    self.outstanding.Perm
      (mpdu :: BlockAckManager.withoutSequenceNumber mpdu self.outstanding) := by
  have distinct : self.outstanding.Nodup :=
    (nodup_of_sorted balanced.outstandingHeld balanced.outstandingSorted).of_map
  have same : BlockAckManager.withoutSequenceNumber mpdu self.outstanding =
      self.outstanding.erase mpdu := by
    rw [distinct.erase_eq_filter]
    refine List.filter_congr fun item member => ?_
    by_cases equal : item = mpdu
    · simp [equal]
    · simp [equal, mt (alone item member) equal]
  rw [same]
  exact List.perm_cons_erase inOutstanding

/-- An MPDU is acknowledged by itself. -/
theorem Balanced.acknowledge (balanced : self.Balanced key startingSeq winSize)
    (inOutstanding : mpdu ∈ self.outstanding)
    (alone : ∀ other ∈ self.outstanding, other.sequenceNumber = mpdu.sequenceNumber → other = mpdu)
    (notRetry : ∀ other ∈ self.retry, other.sequenceNumber ≠ mpdu.sequenceNumber) :
    ∃ after, self.agreement.notifyAckedMpdu mpdu = some after ∧
      Balanced key startingSeq winSize
        { self with
          agreement := after
          outstanding := BlockAckManager.withoutSequenceNumber mpdu self.outstanding
          acknowledged := mpdu.original :: self.acknowledged } := by
  have valid := balanced.valid
  have held := balanced.outstandingHeld mpdu inOutstanding
  have inside : ∀ index, self.agreement.ackedIndex mpdu = some index → index < winSize :=
    fun index written => Held.ackedIndex_lt valid held written
  obtain ⟨after, ended, slid⟩ := valid.notifyAckedMpdu mpdu
  have taken := balanced.perm_withoutSequenceNumber inOutstanding alone
  refine ⟨after, ended, balanced.slide (self.agreement.winStart_acked mpdu) valid.acked_window slid
    (valid_of_acked valid slid) List.filter_sublist (List.Sublist.refl _)
    (fun item left => ?_) (fun item waiting => ?_) ?_⟩
  · have others := List.mem_filter.mp left
    exact ⟨Held.acked valid held.small inside (balanced.outstandingHeld item others.1)
      (of_decide_eq_true others.2), id⟩
  · exact ⟨Held.acked valid held.small inside (balanced.retryHeld item waiting)
      (notRetry item waiting), id⟩
  · rw [balanced.conserved]
    unfold total
    dsimp only
    rw [originals_of_perm taken, originals_cons, ← Multiset.cons_coe]
    simp only [Multiset.cons_add, Multiset.add_cons]

theorem originals_filter (passes : WifiMacQueueItem → Bool) (items : List WifiMacQueueItem) :
    originals (items.filter passes) + originals (items.filter (! passes ·)) = originals items := by
  have perm := List.filter_append_perm passes items
  rw [← originals_of_perm perm]
  unfold originals
  rw [List.map_append, Multiset.coe_add]

/-- Let go of everything up to a sequence number. -/
def discardTo (self : Ledger) (seq : Nat) : Ledger :=
  let passed := BlockAckManager.isPassed self.agreement seq
  { self with
    outstanding := self.outstanding.filter (! passed ·)
    retry := self.retry.filter (! passed ·)
    discarded := (self.outstanding.filter passed).map WifiMacQueueItem.original ++
      (self.retry.filter passed).map WifiMacQueueItem.original ++ self.discarded }

/-- An MPDU is discarded together with everything before it. -/
theorem Balanced.discard (balanced : self.Balanced key startingSeq winSize)
    (small : mpdu.sequenceNumber < 4096) :
    ∃ after, self.agreement.notifyDiscardedMpdu mpdu = some after ∧
      Balanced key startingSeq winSize
        { self.discardTo mpdu.sequenceNumber with agreement := after } := by
  have valid := balanced.valid
  obtain ⟨after, ended, slid⟩ := valid.notifyDiscardedMpdu mpdu
  have kept : ∀ item, (! BlockAckManager.isPassed self.agreement mpdu.sequenceNumber item) = true →
      ¬ (getDistance item.sequenceNumber self.agreement.txWindow.winStart ≤
        self.agreement.distance mpdu ∧ self.agreement.distance mpdu < 2048) := by
    intro item notPassed
    rw [valid.distance_eq small]
    simp only [BlockAckManager.isPassed, Bool.not_eq_true', decide_eq_false_iff_not] at notPassed
    exact fun excused => notPassed excused.1
  refine ⟨after, ended, balanced.slide rfl valid.window slid (slid.valid valid.start valid.size)
    List.filter_sublist List.filter_sublist (fun item left => ?_) (fun item left => ?_) ?_⟩
  · have others := List.mem_filter.mp left
    exact ⟨balanced.outstandingHeld item others.1, kept item others.2⟩
  · have others := List.mem_filter.mp left
    exact ⟨balanced.retryHeld item others.1, kept item others.2⟩
  · rw [balanced.conserved]
    unfold total discardTo
    dsimp only
    rw [← originals_filter (BlockAckManager.isPassed self.agreement mpdu.sequenceNumber) self.outstanding,
      ← originals_filter (BlockAckManager.isPassed self.agreement mpdu.sequenceNumber) self.retry,
      ← Multiset.coe_add, ← Multiset.coe_add]
    unfold originals
    abel

end Ledger

end Ns3.Wifi
