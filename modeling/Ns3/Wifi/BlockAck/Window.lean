import Ns3.Library.Rotation
import Ns3.Library.Word

/-!
`ns3::BlockAckWindow`: a window of bits that slides over the sequence numbers.

Sequence numbers have 12 bits: `SEQNO_SPACE_SIZE` is 4096, and a distance of
`SEQNO_SPACE_HALF_SIZE`, 2048, or more from the start of a window is behind it.
The bits are kept in place and the head moves round; `bits` is what the window
shows, from its start on.
-/

namespace Ns3.Wifi

open Library

/-- The `int` that `GetDistance` and the order of the reordering buffer compute;
the remainder of C++ has the sign of the dividend. -/
def signedDistance (seqNumber startingSeqNumber : Nat) : Int :=
  Int.tmod ((seqNumber : Int) - startingSeqNumber + 4096) 4096

/-- `BlockAckAgreement::GetDistance`, a `size_t`. -/
def getDistance (seqNumber startingSeqNumber : Nat) : Nat :=
  wrapInt 64 (signedDistance seqNumber startingSeqNumber)

theorem signedDistance_eq {seq start : Nat} (seqSmall : seq < 4096) (startSmall : start < 4096) :
    signedDistance seq start = ((seq + (4096 - start)) % 4096 : Nat) := by
  rw [signedDistance, Int.tmod_eq_emod_of_nonneg (by omega)]
  omega

theorem getDistance_eq {seq start : Nat} (seqSmall : seq < 4096) (startSmall : start < 4096) :
    getDistance seq start = (seq + (4096 - start)) % 4096 := by
  rw [getDistance, signedDistance_eq seqSmall startSmall, wrapInt_natCast]
  exact wrap_of_lt (lt_trans (Nat.mod_lt _ (by decide)) (by decide))

theorem getDistance_lt {seq start : Nat} (seqSmall : seq < 4096) (startSmall : start < 4096) :
    getDistance seq start < 4096 := by
  rw [getDistance_eq seqSmall startSmall]
  exact Nat.mod_lt _ (by decide)

/-- The sequence number at a distance from the start. -/
theorem add_getDistance {seq start : Nat} (seqSmall : seq < 4096) (startSmall : start < 4096) :
    (start + getDistance seq start) % 4096 = seq := by
  rw [getDistance_eq seqSmall startSmall]
  omega

theorem wrap_getDistance {seq start : Nat} (seqSmall : seq < 4096) (startSmall : start < 4096) :
    wrap 16 (getDistance seq start) = getDistance seq start :=
  wrap_of_lt (lt_trans (getDistance_lt seqSmall startSmall) (by decide))

theorem getDistance_add {start count : Nat} (startSmall : start < 4096) (small : count < 4096) :
    getDistance ((start + count) % 4096) start = count := by
  rw [getDistance_eq (Nat.mod_lt _ (by decide)) startSmall]
  omega

theorem getDistance_self {start : Nat} (startSmall : start < 4096) : getDistance start start = 0 := by
  rw [getDistance_eq startSmall startSmall]
  omega

theorem getDistance_injective {seq other start : Nat} (seqSmall : seq < 4096)
    (otherSmall : other < 4096) (startSmall : start < 4096)
    (same : getDistance seq start = getDistance other start) : seq = other := by
  rw [← add_getDistance seqSmall startSmall, same, add_getDistance otherSmall startSmall]

/-- The distance from a start that has moved on, but not past the number. -/
theorem getDistance_advance {seq start count : Nat} (seqSmall : seq < 4096)
    (startSmall : start < 4096) (before : count ≤ getDistance seq start) :
    getDistance seq ((start + count) % 4096) = getDistance seq start - count := by
  have small := getDistance_lt seqSmall startSmall
  rw [getDistance_eq seqSmall startSmall] at *
  rw [getDistance_eq seqSmall (Nat.mod_lt _ (by decide))]
  omega

/-- `ns3::WifiMacQueueItem` with the fields of its header that Block Ack reads;
`packet` is the packet it holds. -/
structure WifiMacQueueItem where
  packet : Nat
  addr1 : Nat
  qosData : Bool
  qosTid : Nat
  sequenceNumber : Nat
  fragmentNumber : Nat
  retry : Bool
  deriving DecidableEq, Repr

/-- `ns3::BlockAckWindow`. -/
structure BlockAckWindow where
  winStart : Nat
  window : List Bool
  head : Nat
  deriving DecidableEq, Repr

namespace BlockAckWindow

/-- `Init`. -/
def init (winStart winSize : Nat) : BlockAckWindow := ⟨winStart, List.replicate winSize false, 0⟩

/-- `GetWinSize`. -/
def getWinSize (self : BlockAckWindow) : Nat := self.window.length

/-- `Reset`. -/
def reset (self : BlockAckWindow) (winStart : Nat) : BlockAckWindow :=
  init winStart self.getWinSize

/-- `At`, for reading. -/
def at' (self : BlockAckWindow) (distance : Nat) : Bool :=
  self.window.getD ((self.head + distance) % self.window.length) false

/-- `At (distance) = true`. -/
def mark (self : BlockAckWindow) (distance : Nat) : BlockAckWindow :=
  { self with window := self.window.set ((self.head + distance) % self.window.length) true }

/-- The body of the loop of `Advance`. -/
def shift (self : BlockAckWindow) : BlockAckWindow :=
  { self with
    window := self.window.set self.head false
    head := (self.head + 1) % self.window.length }

/-- The loop of `Advance`. -/
def shiftBy (self : BlockAckWindow) : Nat → BlockAckWindow
  | 0 => self
  | count + 1 => self.shift.shiftBy count

/-- `Advance`. -/
def advance (self : BlockAckWindow) (count : Nat) : BlockAckWindow :=
  if count ≥ self.getWinSize then self.reset ((self.winStart + count) % 4096)
  else { self.shiftBy count with winStart := (self.winStart + count) % 4096 }

/-- The bits from the start of the window on. -/
def bits (self : BlockAckWindow) : List Bool := self.window.rotate self.head

/-- A window in use. -/
structure Valid (used : BlockAckWindow) : Prop where
  start : used.winStart < 4096
  head : used.head < used.window.length

variable {self : BlockAckWindow} {winStart winSize distance count : Nat}

@[simp]
theorem length_bits (self : BlockAckWindow) : self.bits.length = self.getWinSize :=
  List.length_rotate _ _

theorem Valid.positive (valid : self.Valid) : 0 < self.getWinSize := Nat.zero_lt_of_lt valid.head

@[simp]
theorem bits_init : (init winStart winSize).bits = List.replicate winSize false :=
  List.rotate_zero _

@[simp]
theorem getWinSize_init : (init winStart winSize).getWinSize = winSize := List.length_replicate

theorem Valid.init (small : winStart < 4096) (positive : 0 < winSize) :
    (init winStart winSize).Valid :=
  ⟨small, by
    rw [BlockAckWindow.init, List.length_replicate]
    exact positive⟩

theorem at'_eq (self : BlockAckWindow) (inside : distance < self.getWinSize) :
    self.at' distance = self.bits.getD distance false :=
  getD_rotate self.window self.head false inside

@[simp]
theorem getWinSize_mark : (self.mark distance).getWinSize = self.getWinSize := List.length_set

theorem bits_mark (self : BlockAckWindow) (inside : distance < self.getWinSize) :
    (self.mark distance).bits = self.bits.set distance true :=
  rotate_set self.window self.head true inside

theorem Valid.mark (valid : self.Valid) : (self.mark distance).Valid :=
  ⟨valid.start, valid.head.trans_eq List.length_set.symm⟩

@[simp]
theorem getWinSize_shiftBy (self : BlockAckWindow) (count : Nat) :
    (self.shiftBy count).getWinSize = self.getWinSize := by
  induction count generalizing self with
  | zero => rfl
  | succ count inductionHypothesis =>
      rw [shiftBy, inductionHypothesis]
      exact List.length_set

theorem Valid.shift (valid : self.Valid) : self.shift.Valid :=
  ⟨valid.start, (Nat.mod_lt _ valid.positive).trans_eq List.length_set.symm⟩

theorem Valid.bits_shift (valid : self.Valid) : self.shift.bits = self.bits.drop 1 ++ [false] := by
  rw [List.drop_one]
  exact rotate_shift self.window false valid.head

theorem Valid.shiftBy (valid : self.Valid) (count : Nat) : (self.shiftBy count).Valid := by
  induction count generalizing self with
  | zero => exact valid
  | succ count inductionHypothesis => exact inductionHypothesis valid.shift

theorem Valid.bits_shiftBy (valid : self.Valid) (within : count ≤ self.getWinSize) :
    (self.shiftBy count).bits = self.bits.drop count ++ List.replicate count false := by
  induction count generalizing self with
  | zero => rw [BlockAckWindow.shiftBy, List.drop_zero, List.replicate_zero, List.append_nil]
  | succ count inductionHypothesis =>
      have rest : count ≤ (self.bits.drop 1).length := by
        rw [List.length_drop, length_bits]
        omega
      have shiftedWithin : count ≤ self.shift.getWinSize :=
        le_trans (by omega) (le_of_eq (getWinSize_shiftBy self 1).symm)
      rw [BlockAckWindow.shiftBy, inductionHypothesis valid.shift shiftedWithin, valid.bits_shift,
        List.drop_append_of_le_length rest, List.drop_drop, List.append_assoc,
        Nat.add_comm 1 count, List.replicate_succ, List.singleton_append]

@[simp]
theorem getWinSize_advance : (self.advance count).getWinSize = self.getWinSize := by
  unfold advance
  split
  next => exact getWinSize_init
  next => exact getWinSize_shiftBy self count

@[simp]
theorem winStart_advance : (self.advance count).winStart = (self.winStart + count) % 4096 := by
  unfold advance
  split <;> rfl

theorem Valid.advance (valid : self.Valid) (count : Nat) : (self.advance count).Valid := by
  unfold BlockAckWindow.advance
  split
  next => exact .init (Nat.mod_lt _ (by decide)) valid.positive
  next => exact ⟨Nat.mod_lt _ (by decide), (valid.shiftBy count).head⟩

/-- Advancing drops the bits at the start, and what is new at the end is clear. -/
theorem Valid.getD_bits_advance (valid : self.Valid) (count distance : Nat) :
    (self.advance count).bits.getD distance false = self.bits.getD (distance + count) false := by
  unfold BlockAckWindow.advance
  split
  next beyond =>
    have outside : self.bits.length ≤ distance + count := by
      rw [length_bits]
      omega
    rw [BlockAckWindow.reset, bits_init, List.getD_eq_getElem?_getD, List.getD_eq_getElem?_getD,
      List.getElem?_eq_none outside, List.getElem?_replicate]
    split <;> rfl
  next within =>
    change (self.shiftBy count).bits.getD distance false = _
    rw [valid.bits_shiftBy (by omega), List.getD_eq_getElem?_getD, List.getD_eq_getElem?_getD]
    by_cases kept : distance < (self.bits.drop count).length
    · rw [List.getElem?_append_left kept, List.getElem?_drop, Nat.add_comm count]
    · have outside : self.bits.length ≤ distance + count := by
        rw [List.length_drop] at kept
        omega
      rw [List.getElem?_append_right (by omega), List.getElem?_eq_none outside,
        List.getElem?_replicate]
      split <;> rfl

/-- The second window is the first one moved on. -/
structure Moved (before : BlockAckWindow) (count : Nat) (after : BlockAckWindow) : Prop where
  valid : after.Valid
  size : after.getWinSize = before.getWinSize
  start : after.winStart = (before.winStart + count) % 4096
  bits : ∀ i, after.bits.getD i false = before.bits.getD (i + count) false

theorem Moved.refl (valid : self.Valid) : self.Moved 0 self :=
  ⟨valid, rfl, (Nat.mod_eq_of_lt valid.start).symm, fun _ => rfl⟩

theorem Moved.trans {middle after : BlockAckWindow} {more : Nat} (first : self.Moved count middle)
    (second : middle.Moved more after) : self.Moved (count + more) after where
  valid := second.valid
  size := second.size.trans first.size
  start := by
    rw [second.start, first.start]
    omega
  bits i := by
    rw [second.bits, first.bits]
    exact congrArg (self.bits.getD · false) (by omega)

theorem Valid.moved (valid : self.Valid) (count : Nat) : self.Moved count (self.advance count) :=
  ⟨valid.advance count, getWinSize_advance, winStart_advance, valid.getD_bits_advance count⟩

/-- The bit of a sequence number in the window is set. -/
def Shows (self : BlockAckWindow) (seq : Nat) : Prop :=
  ∃ i, self.bits.getD i false ∧ (self.winStart + i) % 4096 = seq

/-- The window covers a sequence number. -/
def Covers (self : BlockAckWindow) (seq : Nat) : Prop :=
  getDistance seq self.winStart < self.getWinSize

theorem lt_getWinSize_of_bit {i : Nat} (set : self.bits.getD i false) : i < self.getWinSize := by
  by_contra outside
  rw [List.getD_eq_getElem?_getD, List.getElem?_eq_none (by rw [length_bits]; omega)] at set
  exact absurd set (by decide)

theorem Shows.covers {seq : Nat} (shown : self.Shows seq) (valid : self.Valid) :
    self.Covers seq := by
  obtain ⟨i, set, rfl⟩ := shown
  have inside := lt_getWinSize_of_bit set
  have start := valid.start
  rw [Covers, getDistance_eq (Nat.mod_lt _ (by decide)) start]
  exact lt_of_le_of_lt (by omega) inside

theorem Moved.shows {after : BlockAckWindow} {seq : Nat} (moved : self.Moved count after)
    (shown : after.Shows seq) : self.Shows seq := by
  obtain ⟨i, set, rfl⟩ := shown
  rw [moved.bits] at set
  rw [moved.start]
  exact ⟨i + count, set, by omega⟩

/-- Only the marked bit is new. -/
theorem Shows.of_mark {seq marked : Nat} (valid : self.Valid) (markedSmall : marked < 4096)
    (inside : self.Covers marked)
    (shown : (self.mark (getDistance marked self.winStart)).Shows seq) :
    seq = marked ∨ self.Shows seq := by
  obtain ⟨i, set, reached⟩ := shown
  rw [bits_mark self inside] at set
  by_cases same : getDistance marked self.winStart = i
  · left
    rw [← reached, ← same]
    exact add_getDistance markedSmall valid.start
  · right
    rw [List.getD_eq_getElem?_getD, List.getElem?_set_ne same] at set
    exact ⟨i, (List.getD_eq_getElem?_getD ..).trans set, reached⟩

theorem not_shows_init {seq : Nat} : ¬ (init winStart winSize).Shows seq := by
  rintro ⟨i, set, -⟩
  rw [bits_init, List.getD_eq_getElem?_getD, List.getElem?_replicate] at set
  split at set <;> exact absurd set (by decide)

end BlockAckWindow

end Ns3.Wifi
