import Ns3.Library.Machine
import Ns3.Library.SortedList
import Ns3.Wifi.BlockAck.Recipient
import Mathlib.Data.Multiset.AddSub

/-!
The receive reordering buffer over whole runs.

`InOrder` is what the buffer is for: the window is where the history says it is,
the buffer is sorted from the start of the window on and lies within it, and the
MPDUs were handed over in the order of their numbers, each of those taken into
the buffer once. The window is set to a sequence number outside the sequence
number space when an MPDU beyond the window has a sequence number smaller than
the size of the window less one, and only then.
-/

namespace Ns3.Wifi

open Library

namespace RecipientBlockAckAgreement

/-- The distance of an MPDU from the start of the window. -/
def distance (self : RecipientBlockAckAgreement) (mpdu : WifiMacQueueItem) : Nat :=
  getDistance mpdu.sequenceNumber self.winStartB

/-- The reordering buffer is in order, and nothing in it is `bound` or more
sequence numbers from the start of the window. -/
structure InOrder (startingSeq bound : Nat) (agreement : RecipientBlockAckAgreement) : Prop where
  start : agreement.winStartB = (startingSeq + agreement.history.advanced) % 4096
  small : ∀ mpdu ∈ agreement.bufferedMpdus, mpdu.sequenceNumber < 4096
  sorted : SortedBy agreement.distance agreement.bufferedMpdus
  within : ∀ mpdu ∈ agreement.bufferedMpdus, agreement.distance mpdu < bound
  numbered : ∀ entry ∈ agreement.history.passed,
    (startingSeq + entry.1) % 4096 = entry.2.sequenceNumber
  increasing : SortedBy Prod.fst agreement.history.passed
  behind : ∀ entry ∈ agreement.history.passed, entry.1 < agreement.history.advanced
  conserved : (agreement.history.accepted : Multiset WifiMacQueueItem) =
    agreement.bufferedMpdus + (agreement.history.passed.map Prod.snd : List WifiMacQueueItem)

variable {self : RecipientBlockAckAgreement} {startingSeq bound : Nat} {mpdu : WifiMacQueueItem}

theorem InOrder.winStartB_lt (order : self.InOrder startingSeq bound) : self.winStartB < 4096 := by
  rw [order.start]
  exact Nat.mod_lt _ (by decide)

/-- The number of a sequence number ahead of the start of the window. -/
theorem InOrder.number_mod (order : self.InOrder startingSeq bound) {seq : Nat}
    (small : seq < 4096) :
    (startingSeq + (self.history.advanced + getDistance seq self.winStartB)) % 4096 = seq := by
  have start := order.start
  have reached := add_getDistance small order.winStartB_lt
  omega

theorem InOrder.mono {larger : Nat} (order : self.InOrder startingSeq bound)
    (wider : bound ≤ larger) : self.InOrder startingSeq larger :=
  { order with within := fun mpdu buffered => lt_of_lt_of_le (order.within mpdu buffered) wider }

theorem compare_eq {winStartB : Nat} (start : winStartB < 4096) {a b : WifiMacQueueItem}
    (aSmall : a.sequenceNumber < 4096) (bSmall : b.sequenceNumber < 4096) :
    compare winStartB a b =
      decide (getDistance a.sequenceNumber winStartB < getDistance b.sequenceNumber winStartB) := by
  rw [compare, signedDistance_eq aSmall start, signedDistance_eq bSmall start,
    getDistance_eq aSmall start, getDistance_eq bSmall start]
  simp only [Int.ofNat_lt]

theorem insert_perm {winStartB : Nat} {buffered inserted : List WifiMacQueueItem}
    (found : insert winStartB mpdu buffered = some inserted) :
    inserted.Perm (mpdu :: buffered) := by
  induction buffered generalizing inserted with
  | nil =>
      cases found
      exact List.Perm.refl _
  | cons first rest inductionHypothesis =>
      rw [insert] at found
      split at found
      next =>
        cases found
        exact List.Perm.refl _
      next =>
        split at found
        next =>
          obtain ⟨tail, tailFound, rfl⟩ := Option.map_eq_some_iff.mp found
          exact ((inductionHypothesis tailFound).cons first).trans (List.Perm.swap mpdu first rest)
        next => exact nomatch found

theorem insert_sorted {winStartB : Nat} (start : winStartB < 4096)
    {buffered inserted : List WifiMacQueueItem} (mpduSmall : mpdu.sequenceNumber < 4096)
    (small : ∀ item ∈ buffered, item.sequenceNumber < 4096)
    (sorted : SortedBy (fun item => getDistance item.sequenceNumber winStartB) buffered)
    (found : insert winStartB mpdu buffered = some inserted) :
    SortedBy (fun item => getDistance item.sequenceNumber winStartB) inserted := by
  induction buffered generalizing inserted with
  | nil =>
      cases found
      exact List.pairwise_singleton _ _
  | cons first rest inductionHypothesis =>
      have firstSmall := small first List.mem_cons_self
      rw [insert, compare_eq start mpduSmall firstSmall, compare_eq start firstSmall mpduSmall]
        at found
      split at found
      next before =>
        cases found
        have smaller := of_decide_eq_true before
        refine List.pairwise_cons.mpr ⟨fun item later => ?_, sorted⟩
        rcases List.mem_cons.mp later with rfl | inRest
        · exact smaller
        · exact lt_trans smaller (sorted.head_lt inRest)
      next =>
        split at found
        next after =>
          obtain ⟨tail, tailFound, rfl⟩ := Option.map_eq_some_iff.mp found
          refine List.pairwise_cons.mpr ⟨fun item later => ?_, inductionHypothesis
            (fun item inRest => small item (List.mem_cons_of_mem first inRest)) sorted.tail
            tailFound⟩
          rcases List.mem_cons.mp ((insert_perm tailFound).mem_iff.mp later) with rfl | inRest
          · exact of_decide_eq_true after
          · exact sorted.head_lt inRest
        next => exact nomatch found

@[simp]
theorem winStartB_store : (self.store mpdu).winStartB = self.winStartB := by
  unfold store
  split <;> rfl

@[simp]
theorem winSizeB_store : (self.store mpdu).winSizeB = self.winSizeB := by
  unfold store
  split <;> rfl

theorem InOrder.store (order : self.InOrder startingSeq bound)
    (small : mpdu.sequenceNumber < 4096) (inside : self.distance mpdu < bound) :
    (self.store mpdu).InOrder startingSeq bound := by
  unfold RecipientBlockAckAgreement.store
  split
  next => exact order
  next buffered found =>
    have members : ∀ {item}, item ∈ buffered → item = mpdu ∨ item ∈ self.bufferedMpdus :=
      fun member => List.mem_cons.mp ((insert_perm found).mem_iff.mp member)
    exact {
      order with
      small := fun item member => (members member).elim (fun same => same ▸ small)
        (order.small item)
      sorted := insert_sorted order.winStartB_lt small order.small order.sorted found
      within := fun item member => (members member).elim (fun same => same ▸ inside)
        (order.within item)
      conserved := by
        have taken : (mpdu ::ₘ (self.history.accepted : Multiset WifiMacQueueItem)) =
            (buffered : Multiset WifiMacQueueItem) +
              (self.history.passed.map Prod.snd : List WifiMacQueueItem) := by
          rw [Multiset.coe_eq_coe.mpr (insert_perm found), ← Multiset.cons_coe, order.conserved,
            Multiset.cons_add]
        exact taken }

/-- Handing over the MPDU at the start of the window. -/
theorem InOrder.passFirst {rest : List WifiMacQueueItem} (order : self.InOrder startingSeq bound)
    (buffered : self.bufferedMpdus = mpdu :: rest) (first : mpdu.sequenceNumber = self.winStartB) :
    (self.passFirst mpdu rest).InOrder startingSeq bound := by
  have start := order.winStartB_lt
  have members : ∀ {item}, item ∈ rest → item ∈ self.bufferedMpdus := fun member => by
    rw [buffered]
    exact List.mem_cons_of_mem mpdu member
  have sorted : SortedBy self.distance (mpdu :: rest) := buffered ▸ order.sorted
  have atStart : getDistance mpdu.sequenceNumber self.winStartB = 0 := by
    rw [first]
    exact getDistance_self start
  have shifted : ∀ item ∈ rest,
      (self.passFirst mpdu rest).distance item = self.distance item - 1 := fun item member => by
    have later := sorted.head_lt member
    exact getDistance_advance (order.small item (members member)) start
      (Nat.succ_le_of_lt (Nat.zero_lt_of_lt later))
  exact {
    start := by
      change (self.winStartB + 1) % 4096 = (startingSeq + (self.history.advanced + 1)) % 4096
      rw [order.start]
      omega
    small := fun item member => order.small item (members member)
    sorted := sorted.tail.of_map fun a inA b inB smaller => by
      have after := sorted.head_lt inA
      rw [shifted a inA, shifted b inB]
      omega
    within := fun item member => by
      rw [shifted item member]
      exact lt_of_le_of_lt (Nat.sub_le _ _) (order.within item (members member))
    numbered := fun entry member => by
      rcases List.mem_append.mp member with before | new
      · exact order.numbered entry before
      · rw [List.mem_singleton.mp new]
        exact order.number_mod (first ▸ start)
    increasing := List.pairwise_append.mpr ⟨order.increasing, List.pairwise_singleton _ _,
      fun before inBefore new inNew => by
        rw [List.mem_singleton.mp inNew]
        exact Nat.lt_add_right _ (order.behind before inBefore)⟩
    behind := fun entry member => by
      rcases List.mem_append.mp member with before | new
      · exact Nat.lt_succ_of_lt (order.behind entry before)
      · rw [List.mem_singleton.mp new]
        change self.history.advanced + getDistance mpdu.sequenceNumber self.winStartB <
          self.history.advanced + 1
        omega
    conserved := by
      have moved : (self.history.accepted : Multiset WifiMacQueueItem) =
          (rest : Multiset WifiMacQueueItem) +
            ((self.history.passed ++ [self.number mpdu]).map Prod.snd : List WifiMacQueueItem) := by
        rw [order.conserved, buffered, List.map_append, Multiset.coe_add, Multiset.coe_add,
          Multiset.coe_eq_coe, List.cons_append, ← List.append_assoc]
        exact (List.perm_append_singleton mpdu _).symm
      exact moved }

theorem InOrder.passInSequence {buffered : List WifiMacQueueItem}
    (order : self.InOrder startingSeq bound) (same : self.bufferedMpdus = buffered) :
    (passInSequence buffered self).InOrder startingSeq bound := by
  induction buffered generalizing self with
  | nil => exact order
  | cons first rest inductionHypothesis =>
      rw [RecipientBlockAckAgreement.passInSequence]
      split
      next atStart => exact inductionHypothesis (order.passFirst same atStart) rfl
      next => exact order

theorem InOrder.passBufferedMpdusUntilFirstLost (order : self.InOrder startingSeq bound) :
    self.passBufferedMpdusUntilFirstLost.InOrder startingSeq bound :=
  order.passInSequence rfl

/-- Handing over what comes before a new start of the window. -/
theorem InOrder.passBufferedMpdusWithSeqNumberLessThan {newWinStartB : Nat}
    (order : self.InOrder startingSeq bound) (newSmall : newWinStartB < 4096) :
    (self.passBufferedMpdusWithSeqNumberLessThan newWinStartB).InOrder startingSeq
      (bound - getDistance newWinStartB self.winStartB) := by
  have start := order.winStartB_lt
  have moved := add_getDistance newSmall start
  have members : ∀ {item}, item ∈ self.bufferedMpdus.dropWhile (self.isLessThan newWinStartB) →
      item ∈ self.bufferedMpdus := fun member => (List.dropWhile_sublist _).mem member
  have left : ∀ {item}, item ∈ self.bufferedMpdus.dropWhile (self.isLessThan newWinStartB) →
      getDistance newWinStartB self.winStartB ≤ self.distance item :=
    fun member => order.sorted.le_of_mem_dropWhile member
  have shifted : ∀ item ∈ self.bufferedMpdus.dropWhile (self.isLessThan newWinStartB),
      (self.passBufferedMpdusWithSeqNumberLessThan newWinStartB).distance item =
        self.distance item - getDistance newWinStartB self.winStartB := fun item member => by
    change getDistance item.sequenceNumber newWinStartB = _
    conv_lhs => rw [← moved]
    exact getDistance_advance (order.small item (members member)) start (left member)
  have taken : ∀ entry ∈ (self.bufferedMpdus.takeWhile (self.isLessThan newWinStartB)).map
      self.number, ∃ item ∈ self.bufferedMpdus.takeWhile (self.isLessThan newWinStartB),
        entry = (self.history.advanced + self.distance item, item) := fun entry member => by
    obtain ⟨item, inTaken, rfl⟩ := List.mem_map.mp member
    exact ⟨item, inTaken, rfl⟩
  exact {
    start := (order.number_mod newSmall).symm
    small := fun item member => order.small item (members member)
    sorted := (order.sorted.sublist (List.dropWhile_sublist _)).of_map
      fun a inA b inB smaller => by
        have notPassed := left inA
        rw [shifted a inA, shifted b inB]
        omega
    within := fun item member => by
      have inside := order.within item (members member)
      have notPassed := left member
      rw [shifted item member]
      omega
    numbered := fun entry member => by
      rcases List.mem_append.mp member with before | new
      · exact order.numbered entry before
      · obtain ⟨item, inTaken, rfl⟩ := taken entry new
        have buffered := (List.takeWhile_sublist _).mem inTaken
        exact order.number_mod (order.small item buffered)
    increasing := List.pairwise_append.mpr ⟨order.increasing,
      List.pairwise_map.mpr ((order.sorted.sublist (List.takeWhile_sublist _)).imp
        fun smaller => Nat.add_lt_add_left smaller _),
      fun before inBefore new inNew => by
        obtain ⟨item, inTaken, rfl⟩ := taken new inNew
        exact Nat.lt_add_right _ (order.behind before inBefore)⟩
    behind := fun entry member => by
      rcases List.mem_append.mp member with before | new
      · exact Nat.lt_add_right _ (order.behind entry before)
      · obtain ⟨item, inTaken, rfl⟩ := taken entry new
        exact Nat.add_lt_add_left (lt_of_mem_takeWhile inTaken) _
    conserved := by
      have split : (self.history.accepted : Multiset WifiMacQueueItem) =
          (self.bufferedMpdus.dropWhile (self.isLessThan newWinStartB) :
            Multiset WifiMacQueueItem) + ((self.history.passed ++
              (self.bufferedMpdus.takeWhile (self.isLessThan newWinStartB)).map
                self.number).map Prod.snd : List WifiMacQueueItem) := by
        have whole : (self.bufferedMpdus : Multiset WifiMacQueueItem) =
            (self.bufferedMpdus.takeWhile (self.isLessThan newWinStartB) :
              Multiset WifiMacQueueItem) +
              (self.bufferedMpdus.dropWhile (self.isLessThan newWinStartB) :
                Multiset WifiMacQueueItem) := by
          rw [Multiset.coe_add, List.takeWhile_append_dropWhile]
        have same : ((self.bufferedMpdus.takeWhile (self.isLessThan newWinStartB)).map
            self.number).map Prod.snd =
              self.bufferedMpdus.takeWhile (self.isLessThan newWinStartB) := by
          rw [List.map_map]
          exact List.map_id _
        rw [order.conserved, whole, List.map_append, same, ← Multiset.coe_add,
          Multiset.add_comm (self.bufferedMpdus.takeWhile _ : Multiset WifiMacQueueItem),
          Multiset.add_assoc,
          Multiset.add_comm (self.bufferedMpdus.takeWhile _ : Multiset WifiMacQueueItem)]
      exact split }

@[simp]
theorem winSizeB_passInSequence (buffered : List WifiMacQueueItem) :
    (RecipientBlockAckAgreement.passInSequence buffered self).winSizeB = self.winSizeB := by
  induction buffered generalizing self with
  | nil => rfl
  | cons first rest inductionHypothesis =>
      rw [RecipientBlockAckAgreement.passInSequence]
      split
      next => exact inductionHypothesis
      next => rfl

@[simp]
theorem winSizeB_reorderMpdu : (self.reorderMpdu mpdu).winSizeB = self.winSizeB := by
  unfold reorderMpdu
  dsimp only
  repeat' split
  · exact (winSizeB_passInSequence _).trans winSizeB_store
  · exact (winSizeB_passInSequence _).trans winSizeB_store
  · rfl

@[simp]
theorem winSizeB_reorderBar {startingSequenceNumber : Nat} :
    (self.reorderBar startingSequenceNumber).winSizeB = self.winSizeB := by
  unfold reorderBar
  dsimp only
  split
  next => exact winSizeB_passInSequence _
  next => rfl

/-- The new start of the window that an MPDU beyond it asks for is a sequence
number exactly if the sequence number does not fall below zero. -/
theorem newWinStartB_lt_iff {seq : Nat} (seqSmall : seq < 4096) (positive : 0 < self.winSizeB)
    (windowSmall : self.winSizeB < 4096) :
    self.newWinStartB seq < 4096 ↔ self.winSizeB ≤ seq + 1 := by
  unfold newWinStartB wrapInt
  omega

theorem newWinStartB_eq {seq : Nat} (seqSmall : seq < 4096) (fits : self.winSizeB ≤ seq + 1) :
    self.newWinStartB seq = seq + 1 - self.winSizeB := by
  unfold newWinStartB wrapInt
  omega

/-- An MPDU beyond the window whose sequence number is smaller than the size of
the window less one. -/
def Underflows (agreement : RecipientBlockAckAgreement) (mpdu : WifiMacQueueItem) : Prop :=
  agreement.winSizeB ≤ agreement.distance mpdu ∧ agreement.distance mpdu < 2048 ∧
    mpdu.sequenceNumber + 1 < agreement.winSizeB

instance : Decidable (self.Underflows mpdu) := inferInstanceAs (Decidable (_ ∧ _ ∧ _))

theorem InOrder.reorderMpdu (order : self.InOrder startingSeq self.winSizeB)
    (small : mpdu.sequenceNumber < 4096) (positive : 0 < self.winSizeB)
    (fits : ¬ self.Underflows mpdu) :
    (self.reorderMpdu mpdu).InOrder startingSeq self.winSizeB := by
  have start := order.winStartB_lt
  unfold RecipientBlockAckAgreement.reorderMpdu
  rw [wrap_getDistance small start]
  dsimp only
  split
  next inside => exact (order.store small inside).passBufferedMpdusUntilFirstLost
  next beyond =>
    split
    next ahead =>
      have noUnderflow : self.winSizeB ≤ mpdu.sequenceNumber + 1 := by
        by_contra underflow
        exact fits ⟨Nat.not_lt.mp beyond, ahead, Nat.not_le.mp underflow⟩
      have newSmall : self.newWinStartB mpdu.sequenceNumber < 4096 :=
        (newWinStartB_lt_iff small positive (by omega)).mpr noUnderflow
      have moved : getDistance (self.newWinStartB mpdu.sequenceNumber) self.winStartB =
          self.distance mpdu + 1 - self.winSizeB := by
        have beyond' := beyond
        rw [distance, getDistance_eq small start, getDistance_eq newSmall start,
          newWinStartB_eq small noUnderflow] at *
        omega
      have stored : (self.store mpdu).InOrder startingSeq (self.distance mpdu + 1) :=
        (order.mono (le_trans (Nat.not_lt.mp beyond) (Nat.le_succ _))).store small
          (Nat.lt_succ_self _)
      have passed := stored.passBufferedMpdusWithSeqNumberLessThan newSmall
      rw [winStartB_store, moved] at passed
      exact (passed.mono (by omega)).passBufferedMpdusUntilFirstLost
    next => exact order

theorem InOrder.reorderBar {ssn : Nat} (order : self.InOrder startingSeq bound)
    (small : ssn < 4096) : (self.reorderBar ssn).InOrder startingSeq bound := by
  unfold RecipientBlockAckAgreement.reorderBar
  dsimp only
  split
  next =>
    exact ((order.passBufferedMpdusWithSeqNumberLessThan small).mono
      (Nat.sub_le _ _)).passBufferedMpdusUntilFirstLost
  next => exact order

theorem InOrder.withScoreboard (order : self.InOrder startingSeq bound)
    (scoreboard : BlockAckWindow) :
    { self with scoreboard := scoreboard }.InOrder startingSeq bound :=
  ⟨order.start, order.small, order.sorted, order.within, order.numbered, order.increasing,
    order.behind, order.conserved⟩

theorem InOrder.create (bufferSize : Nat) (small : startingSeq < 4096) :
    (create bufferSize startingSeq).InOrder startingSeq bufferSize where
  start := (Nat.mod_eq_of_lt small).symm
  small _ buffered := absurd buffered List.not_mem_nil
  sorted := .nil
  within _ buffered := absurd buffered List.not_mem_nil
  numbered _ passed := absurd passed List.not_mem_nil
  increasing := .nil
  behind _ passed := absurd passed List.not_mem_nil
  conserved := rfl

/-- After the underflow the start of the window is no sequence number, and no
buffered MPDU can match it. -/
theorem InOrder.winStartB_of_underflows (order : self.InOrder startingSeq self.winSizeB)
    (small : mpdu.sequenceNumber < 4096) (underflows : self.Underflows mpdu) :
    4096 ≤ (self.reorderMpdu mpdu).winStartB := by
  have start := order.winStartB_lt
  obtain ⟨beyond, ahead, below⟩ := underflows
  have outside : 4096 ≤ self.newWinStartB mpdu.sequenceNumber := by
    have windowSmall : self.winSizeB < 4096 := by omega
    exact Nat.not_lt.mp fun inSpace => absurd
      ((newWinStartB_lt_iff small (by omega) windowSmall).mp inSpace) (by omega)
  have stored : (self.store mpdu).InOrder startingSeq (self.distance mpdu + 1) :=
    (order.mono (le_trans beyond (Nat.le_succ _))).store small (Nat.lt_succ_self _)
  unfold RecipientBlockAckAgreement.reorderMpdu
  rw [wrap_getDistance small start]
  change 4096 ≤ (if self.distance mpdu < self.winSizeB then _
    else if self.distance mpdu < 2048 then _ else _ : RecipientBlockAckAgreement).winStartB
  rw [if_neg (Nat.not_lt.mpr beyond), if_pos ahead]
  unfold RecipientBlockAckAgreement.passBufferedMpdusUntilFirstLost
  generalize agreement : (self.store mpdu).passBufferedMpdusWithSeqNumberLessThan
    (self.newWinStartB mpdu.sequenceNumber) = after
  have newStart : after.winStartB = self.newWinStartB mpdu.sequenceNumber := agreement ▸ rfl
  have members : ∀ item ∈ after.bufferedMpdus, item.sequenceNumber < 4096 := fun item member =>
    stored.small item ((List.dropWhile_sublist _).mem (agreement ▸ member))
  cases buffered : after.bufferedMpdus with
  | nil => exact newStart ▸ outside
  | cons first rest =>
      have firstSmall := members first (buffered ▸ List.mem_cons_self)
      rw [RecipientBlockAckAgreement.passInSequence, if_neg (by omega)]
      exact newStart ▸ outside

/-- What the recipient of an agreement receives. -/
inductive Reception where
  | mpdu (item : WifiMacQueueItem)
  | bar (startingSequenceNumber : Nat)
  deriving DecidableEq, Repr

/-- The sequence number that a frame carries. -/
def Reception.sequenceNumber : Reception → Nat
  | .mpdu item => item.sequenceNumber
  | .bar startingSequenceNumber => startingSequenceNumber

/-- Any frames in any order; a sequence number has 12 bits. -/
def machine : Machine RecipientBlockAckAgreement Reception where
  step
    | self, .mpdu item => self.notifyReceivedMpdu item
    | self, .bar startingSequenceNumber => self.notifyReceivedBar startingSequenceNumber
  Enabled _ reception := reception.sequenceNumber < 4096

instance (self : RecipientBlockAckAgreement) (reception : Reception) :
    Decidable (machine.Enabled self reception) :=
  inferInstanceAs (Decidable (reception.sequenceNumber < 4096))

/-- The frame is not an MPDU beyond the window whose sequence number is smaller
than the size of the window less one. -/
def Fits : RecipientBlockAckAgreement → Reception → Prop
  | self, .mpdu item => ¬ self.Underflows item
  | _, .bar _ => True

instance : ∀ self reception, Decidable (Fits self reception)
  | self, .mpdu item => inferInstanceAs (Decidable (¬ self.Underflows item))
  | _, .bar _ => inferInstanceAs (Decidable True)

/-- The reordering buffer does its work: the window starts at a sequence number,
every buffered MPDU is within it, the MPDUs were handed over in the order of
their numbers, and each of those accepted is buffered or was handed over once. -/
def Reorders (startingSeq : Nat) (self : RecipientBlockAckAgreement) : Prop :=
  self.winStartB < 4096 ∧ self.InOrder startingSeq self.winSizeB

theorem winSizeB_step (reception : Reception) :
    (machine.step self reception).winSizeB = self.winSizeB := by
  cases reception with
  | mpdu item => exact winSizeB_reorderMpdu
  | bar ssn => exact winSizeB_reorderBar

theorem InOrder.step {reception : Reception} (order : self.InOrder startingSeq self.winSizeB)
    (positive : 0 < self.winSizeB) (enabled : machine.Enabled self reception)
    (fits : Fits self reception) :
    (machine.step self reception).InOrder startingSeq self.winSizeB := by
  cases reception with
  | mpdu item =>
      exact @InOrder.reorderMpdu
        { self with scoreboard := scoreMpdu self.scoreboard item.sequenceNumber } _ _
        (order.withScoreboard _) enabled positive fits
  | bar ssn => exact (order.withScoreboard _).reorderBar enabled

theorem Reorders.fits {reception : Reception} (before : Reorders startingSeq self)
    (enabled : machine.Enabled self reception)
    (after : Reorders startingSeq (machine.step self reception)) : Fits self reception := by
  cases reception with
  | mpdu item =>
      intro underflows
      have outside := @InOrder.winStartB_of_underflows
        { self with scoreboard := scoreMpdu self.scoreboard item.sequenceNumber } _ _
        (before.2.withScoreboard _) enabled underflows
      exact absurd after.1 (Nat.not_lt.mpr outside)
  | bar ssn => trivial

theorem recipientBlockAckAgreement_reorders_iff {bufferSize startingSeq : Nat}
    (positive : 0 < bufferSize) (small : startingSeq < 4096) {receptions : List Reception}
    (legal : machine.Legal (create bufferSize startingSeq) receptions) :
    machine.Always (Reorders startingSeq) (create bufferSize startingSeq) receptions ↔
      machine.Along Fits (create bufferSize startingSeq) receptions := by
  constructor
  · intro always
    have necessary : ∀ (self : RecipientBlockAckAgreement) reception,
        (fun _ : RecipientBlockAckAgreement => True) self → Reorders startingSeq self →
        machine.Enabled self reception → Reorders startingSeq (machine.step self reception) →
        Fits self reception :=
      fun self reception _ before enabled after => before.fits enabled after
    exact legal.along_of_always (fun _ _ _ _ => trivial) necessary trivial always
  · intro along
    have preserved : ∀ (self : RecipientBlockAckAgreement) reception,
        self.InOrder startingSeq self.winSizeB ∧ 0 < self.winSizeB →
        machine.Enabled self reception → Fits self reception →
        (machine.step self reception).InOrder startingSeq
          (machine.step self reception).winSizeB ∧ 0 < (machine.step self reception).winSizeB := by
      intro self reception before enabled fits
      rw [winSizeB_step]
      exact ⟨before.1.step before.2 enabled fits, before.2⟩
    have always := legal.always_of_along preserved ⟨InOrder.create bufferSize small, positive⟩ along
    exact always.mono fun _ order => ⟨order.1.winStartB_lt, order.1⟩

/-- A data frame of one agreement. -/
def dataFrame (packet sequenceNumber : Nat) : WifiMacQueueItem :=
  ⟨packet, 1, true, 0, sequenceNumber, 0, false⟩

/-- MPDUs out of order, a repeated one, one beyond the window and a request. -/
def shortRun : List Reception :=
  [.mpdu (dataFrame 1 11), .mpdu (dataFrame 2 10), .mpdu (dataFrame 3 11), .mpdu (dataFrame 4 17),
    .bar 16, .mpdu (dataFrame 5 16)]

theorem recipientBlockAckAgreement_reorders_short_run :
    machine.Always (Reorders 10) (create 4 10) shortRun ∧
      (machine.run (create 4 10) shortRun).history.passed.map Prod.fst = [0, 1, 6, 7] :=
  ⟨(recipientBlockAckAgreement_reorders_iff (by decide) (by decide) (by decide)).mpr (by decide),
    by decide⟩

/-- The sequence numbers wrap while an MPDU arrives beyond the window. -/
theorem recipientBlockAckAgreement_underflows :
    machine.Legal (create 4 4090) [.mpdu (dataFrame 1 1)] ∧
      (machine.run (create 4 4090) [.mpdu (dataFrame 1 1)]).winStartB = 65534 ∧
      ¬ machine.Always (Reorders 4090) (create 4 4090) [.mpdu (dataFrame 1 1)] :=
  ⟨by decide, by decide, fun always => absurd always.last.1 (by decide)⟩

end RecipientBlockAckAgreement

end Ns3.Wifi
