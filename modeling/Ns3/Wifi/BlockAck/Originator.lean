import Ns3.Wifi.BlockAck.Window

/-!
`ns3::OriginatorBlockAckAgreement`: the transmit window of the originator of a
Block Ack agreement.

Beside the window, `advanced` counts the sequence numbers that it has moved on
since the agreement was made. The loop of `AdvanceTxWindow` is run for at most as
many tests as the window has bits and one more, and fails if it has not ended by
then; it never fails on a window in use.
-/

namespace Ns3.Wifi

open Library

/-- The transmit window of `ns3::OriginatorBlockAckAgreement`. -/
structure OriginatorBlockAckAgreement where
  txWindow : BlockAckWindow
  advanced : Nat
  deriving DecidableEq, Repr

namespace OriginatorBlockAckAgreement

/-- `InitTxWindow`. -/
def initTxWindow (startingSeq bufferSize : Nat) : OriginatorBlockAckAgreement :=
  ⟨.init startingSeq bufferSize, 0⟩

/-- `GetDistance`, converted to `uint16_t` by its callers. -/
def distance (self : OriginatorBlockAckAgreement) (mpdu : WifiMacQueueItem) : Nat :=
  wrap 16 (getDistance mpdu.sequenceNumber self.txWindow.winStart)

/-- `m_txWindow.Advance`. -/
def advance (self : OriginatorBlockAckAgreement) (count : Nat) : OriginatorBlockAckAgreement :=
  ⟨self.txWindow.advance count, self.advanced + count⟩

/-- `m_txWindow.At (distance) = true`. -/
def mark (self : OriginatorBlockAckAgreement) (distance : Nat) : OriginatorBlockAckAgreement :=
  { self with txWindow := self.txWindow.mark distance }

/-- The loop of `AdvanceTxWindow`; the number bounds the tests of its condition. -/
def advanceWhile : Nat → OriginatorBlockAckAgreement → Option OriginatorBlockAckAgreement
  | 0, _ => none
  | tests + 1, self =>
      if self.txWindow.at' 0 then advanceWhile tests (self.advance 1) else some self

/-- `AdvanceTxWindow`. -/
def advanceTxWindow (self : OriginatorBlockAckAgreement) : Option OriginatorBlockAckAgreement :=
  advanceWhile (self.txWindow.getWinSize + 1) self

/-- `NotifyTransmittedMpdu`. -/
def notifyTransmittedMpdu (self : OriginatorBlockAckAgreement) (mpdu : WifiMacQueueItem) :
    Option OriginatorBlockAckAgreement :=
  if self.distance mpdu ≥ 2048 then some self
  else if self.distance mpdu ≥ self.txWindow.getWinSize then
    (self.advance (self.distance mpdu - self.txWindow.getWinSize + 1)).advanceTxWindow
  else some self

/-- `NotifyAckedMpdu`. -/
def notifyAckedMpdu (self : OriginatorBlockAckAgreement) (mpdu : WifiMacQueueItem) :
    Option OriginatorBlockAckAgreement :=
  if self.distance mpdu ≥ 2048 then some self
  else (self.mark (self.distance mpdu)).advanceTxWindow

/-- `NotifyDiscardedMpdu`. -/
def notifyDiscardedMpdu (self : OriginatorBlockAckAgreement) (mpdu : WifiMacQueueItem) :
    Option OriginatorBlockAckAgreement :=
  if self.distance mpdu ≥ 2048 then some self
  else (self.advance (self.distance mpdu + 1)).advanceTxWindow

/-- The index at which `NotifyAckedMpdu` writes to the window. -/
def ackedIndex (self : OriginatorBlockAckAgreement) (mpdu : WifiMacQueueItem) : Option Nat :=
  if self.distance mpdu ≥ 2048 then none else some (self.distance mpdu)

/-- A transmit window in use; its first position is not marked. -/
structure Valid (startingSeq winSize : Nat) (agreement : OriginatorBlockAckAgreement) :
    Prop where
  window : agreement.txWindow.Valid
  size : agreement.txWindow.getWinSize = winSize
  start : agreement.txWindow.winStart = (startingSeq + agreement.advanced) % 4096
  first : agreement.txWindow.at' 0 = false

/-- The second agreement is the first one with the window moved on, and nothing
but acknowledged and excused positions has left it. -/
structure Slid (Excused : Nat → Prop) (before after : OriginatorBlockAckAgreement) : Prop where
  advanced : before.advanced ≤ after.advanced
  moved : before.txWindow.Moved (after.advanced - before.advanced) after.txWindow
  first : after.txWindow.at' 0 = false
  reasons : ∀ i < after.advanced - before.advanced,
    before.txWindow.bits.getD i false ∨ Excused i

variable {self : OriginatorBlockAckAgreement} {mpdu : WifiMacQueueItem}
  {startingSeq winSize : Nat}

theorem Valid.distance_eq (valid : self.Valid startingSeq winSize)
    (small : mpdu.sequenceNumber < 4096) :
    self.distance mpdu = getDistance mpdu.sequenceNumber self.txWindow.winStart :=
  wrap_getDistance small valid.window.start

theorem Valid.initTxWindow (small : startingSeq < 4096) (positive : 0 < winSize) :
    (initTxWindow startingSeq winSize).Valid startingSeq winSize where
  window := .init small positive
  size := BlockAckWindow.getWinSize_init
  start := (Nat.mod_eq_of_lt small).symm
  first := by
    change (BlockAckWindow.init startingSeq winSize).at' 0 = false
    rw [BlockAckWindow.at'_eq _ (positive.trans_eq BlockAckWindow.getWinSize_init.symm), BlockAckWindow.bits_init, List.getD_eq_getElem?_getD, List.getElem?_replicate]
    split <;> rfl

/-- The loop ends at the latest at the first position that is not marked. -/
theorem advanceWhile_ends {tests clear : Nat} (valid : self.txWindow.Valid)
    (unmarked : self.txWindow.bits.getD clear false = false) (enough : clear < tests) :
    ∃ after, advanceWhile tests self = some after ∧ Slid (fun _ => False) self after := by
  induction tests generalizing self clear with
  | zero => omega
  | succ tests inductionHypothesis =>
      rw [advanceWhile]
      split
      next marked =>
        rw [BlockAckWindow.at'_eq _ valid.positive] at marked
        have notFirst : clear ≠ 0 := fun first => by
          rw [first, marked] at unmarked
          exact nomatch unmarked
        have moved := valid.moved 1
        have closer : (self.advance 1).txWindow.bits.getD (clear - 1) false = false := by
          rw [advance, moved.bits, show clear - 1 + 1 = clear by omega]
          exact unmarked
        obtain ⟨after, ended, slid⟩ := inductionHypothesis moved.valid closer (by omega)
        have further : self.advanced + 1 ≤ after.advanced := slid.advanced
        have count : after.advanced - self.advanced =
            1 + (after.advanced - (self.advance 1).advanced) := by
          change _ = 1 + (after.advanced - (self.advanced + 1))
          omega
        refine ⟨after, ended, by omega, ?_, slid.first, fun i inside => ?_⟩
        · rw [count]
          exact moved.trans slid.moved
        · left
          by_cases atFirst : i = 0
          · exact atFirst ▸ marked
          · have left := (slid.reasons (i - 1) (by omega)).resolve_right id
            rw [advance, moved.bits, show i - 1 + 1 = i by omega] at left
            exact left
      next notMarked =>
        refine ⟨self, rfl, le_refl _, ?_, Bool.eq_false_iff.mpr notMarked, fun i inside => ?_⟩
        · rw [Nat.sub_self]
          exact .refl valid
        · omega

/-- `AdvanceTxWindow` terminates on every window in use. -/
theorem advanceTxWindow_ends (valid : self.txWindow.Valid) :
    ∃ after, self.advanceTxWindow = some after ∧ Slid (fun _ => False) self after := by
  have outside : self.txWindow.bits.getD self.txWindow.getWinSize false = false := by
    rw [List.getD_eq_getElem?_getD, List.getElem?_eq_none (le_of_eq (BlockAckWindow.length_bits _))]
    rfl
  exact advanceWhile_ends valid outside (Nat.lt_succ_self _)

/-- Moving the window on by hand, and then as far as it goes. -/
theorem advance_advanceTxWindow_ends (valid : self.txWindow.Valid) (count : Nat) :
    ∃ after, (self.advance count).advanceTxWindow = some after ∧ Slid (· < count) self after ∧
      self.advanced + count ≤ after.advanced := by
  have moved := valid.moved count
  obtain ⟨after, ended, slid⟩ :=
    advanceTxWindow_ends (show (self.advance count).txWindow.Valid from moved.valid)
  have further : self.advanced + count ≤ after.advanced := slid.advanced
  have total : after.advanced - self.advanced =
      count + (after.advanced - (self.advance count).advanced) := by
    change _ = count + (after.advanced - (self.advanced + count))
    omega
  refine ⟨after, ended, ⟨by omega, ?_, slid.first, fun i inside => ?_⟩, further⟩
  · rw [total]
    exact moved.trans slid.moved
  · by_cases pushed : i < count
    · exact .inr pushed
    · have left := (slid.reasons (i - count) (by omega)).resolve_right id
      rw [advance, moved.bits, Nat.sub_add_cancel (Nat.not_lt.mp pushed)] at left
      exact .inl left

theorem Slid.refl {Excused : Nat → Prop} (valid : self.Valid startingSeq winSize) :
    Slid Excused self self where
  advanced := le_refl _
  moved := by
    rw [Nat.sub_self]
    exact .refl valid.window
  first := valid.first
  reasons i inside := by omega

theorem Slid.mono {Excused Weaker : Nat → Prop} {before after : OriginatorBlockAckAgreement}
    (implies : ∀ i, Excused i → Weaker i) (slid : Slid Excused before after) :
    Slid Weaker before after :=
  ⟨slid.advanced, slid.moved, slid.first, fun i inside => (slid.reasons i inside).imp_right
    (implies i)⟩

theorem Slid.valid {Excused : Nat → Prop} {before after : OriginatorBlockAckAgreement}
    (slid : Slid Excused before after) (start : before.txWindow.winStart =
      (startingSeq + before.advanced) % 4096) (size : before.txWindow.getWinSize = winSize) :
    after.Valid startingSeq winSize where
  window := slid.moved.valid
  size := slid.moved.size.trans size
  start := by
    have further := slid.advanced
    rw [slid.moved.start, start]
    omega
  first := slid.first

/-- What a transmission does to the window. -/
theorem Valid.notifyTransmittedMpdu (valid : self.Valid startingSeq winSize)
    (mpdu : WifiMacQueueItem) :
    ∃ after, self.notifyTransmittedMpdu mpdu = some after ∧
      Slid (fun i => i + winSize ≤ self.distance mpdu ∧ self.distance mpdu < 2048) self after ∧
      (self.distance mpdu < 2048 → self.advanced + self.distance mpdu < after.advanced + winSize) := by
  unfold OriginatorBlockAckAgreement.notifyTransmittedMpdu
  split
  next old => exact ⟨self, rfl, .refl valid, fun recent => by omega⟩
  next =>
    split
    next beyond =>
      obtain ⟨after, ended, slid, further⟩ := advance_advanceTxWindow_ends valid.window
        (self.distance mpdu - self.txWindow.getWinSize + 1)
      have size := valid.size
      exact ⟨after, ended, slid.mono fun i pushed => ⟨by omega, by omega⟩, fun _ => by omega⟩
    next inside =>
      have size := valid.size
      exact ⟨self, rfl, .refl valid, fun _ => by omega⟩

/-- The window in which an acknowledgment is noted. -/
def acked (self : OriginatorBlockAckAgreement) (mpdu : WifiMacQueueItem) :
    OriginatorBlockAckAgreement :=
  if self.distance mpdu ≥ 2048 then self else self.mark (self.distance mpdu)

/-- What an acknowledgment does to the window. -/
theorem Valid.notifyAckedMpdu (valid : self.Valid startingSeq winSize)
    (mpdu : WifiMacQueueItem) :
    ∃ after, self.notifyAckedMpdu mpdu = some after ∧
      Slid (fun _ => False) (self.acked mpdu) after := by
  unfold OriginatorBlockAckAgreement.notifyAckedMpdu OriginatorBlockAckAgreement.acked
  split
  next => exact ⟨self, rfl, .refl valid⟩
  next =>
    exact advanceTxWindow_ends (show (self.mark _).txWindow.Valid from valid.window.mark)

/-- What a discarded MPDU does to the window. -/
theorem Valid.notifyDiscardedMpdu (valid : self.Valid startingSeq winSize)
    (mpdu : WifiMacQueueItem) :
    ∃ after, self.notifyDiscardedMpdu mpdu = some after ∧
      Slid (fun i => i ≤ self.distance mpdu ∧ self.distance mpdu < 2048) self after := by
  unfold OriginatorBlockAckAgreement.notifyDiscardedMpdu
  split
  next => exact ⟨self, rfl, .refl valid⟩
  next =>
    obtain ⟨after, ended, slid, further⟩ := advance_advanceTxWindow_ends valid.window
      (self.distance mpdu + 1)
    exact ⟨after, ended, slid.mono fun i pushed => ⟨by omega, by omega⟩⟩

/-- Only what moves past the start of the window leaves it. -/
theorem Slid.leaves {Excused : Nat → Prop} {after : OriginatorBlockAckAgreement}
    (slid : Slid Excused self after) {seq : Nat}
    (small : seq < 4096) (valid : self.txWindow.Valid) (covered : self.txWindow.Covers seq)
    (left : ¬ after.txWindow.Covers seq) :
    self.txWindow.Shows seq ∨ Excused (getDistance seq self.txWindow.winStart) := by
  have reached := add_getDistance small valid.start
  by_cases passed : getDistance seq self.txWindow.winStart < after.advanced - self.advanced
  · exact (slid.reasons _ passed).imp_left fun shown => ⟨_, shown, reached⟩
  · refine absurd ?_ left
    rw [BlockAckWindow.Covers] at *
    rw [slid.moved.start, getDistance_advance small valid.start (by omega), slid.moved.size]
    omega

theorem txWindow_acked_cases (self : OriginatorBlockAckAgreement) (mpdu : WifiMacQueueItem) :
    (self.acked mpdu).txWindow = self.txWindow ∨
      (self.acked mpdu).txWindow = self.txWindow.mark (self.distance mpdu) ∧
        self.ackedIndex mpdu = some (self.distance mpdu) := by
  unfold acked ackedIndex
  split
  · exact .inl rfl
  · exact .inr ⟨rfl, rfl⟩

theorem advanced_acked (self : OriginatorBlockAckAgreement) (mpdu : WifiMacQueueItem) :
    (self.acked mpdu).advanced = self.advanced := by
  unfold acked
  split <;> rfl

theorem winStart_acked (self : OriginatorBlockAckAgreement) (mpdu : WifiMacQueueItem) :
    (self.acked mpdu).txWindow.winStart = self.txWindow.winStart := by
  unfold acked
  split <;> rfl

theorem getWinSize_acked (self : OriginatorBlockAckAgreement) (mpdu : WifiMacQueueItem) :
    (self.acked mpdu).txWindow.getWinSize = self.txWindow.getWinSize := by
  rcases self.txWindow_acked_cases mpdu with same | ⟨marked, -⟩
  · rw [same]
  · rw [marked, BlockAckWindow.getWinSize_mark]

theorem Valid.acked_window (valid : self.Valid startingSeq winSize) :
    (self.acked mpdu).txWindow.Valid := by
  rcases self.txWindow_acked_cases mpdu with same | ⟨marked, -⟩
  · rw [same]
    exact valid.window
  · rw [marked]
    exact valid.window.mark

/-- An acknowledgment within the window marks no position but its own. -/
theorem Valid.shows_of_acked (valid : self.Valid startingSeq winSize)
    (small : mpdu.sequenceNumber < 4096)
    (inside : ∀ index, self.ackedIndex mpdu = some index → index < winSize) {seq : Nat}
    (shown : (self.acked mpdu).txWindow.Shows seq) :
    seq = mpdu.sequenceNumber ∨ self.txWindow.Shows seq := by
  rcases self.txWindow_acked_cases mpdu with same | ⟨marked, index⟩
  · exact .inr (same ▸ shown)
  · have within := inside _ index
    rw [marked, valid.distance_eq small] at shown
    rw [valid.distance_eq small, ← valid.size] at within
    exact BlockAckWindow.Shows.of_mark valid.window small within shown

end OriginatorBlockAckAgreement

end Ns3.Wifi
