import Ns3.Wifi.BlockAck.Recipient
import Mathlib.Data.Nat.Bitwise

/-!
`ns3::CtrlBAckResponseHeader`: the compressed Block Ack.

A bit of the bitmap stands for the sequence number that many after the starting
sequence number. `RecipientBlockAckAgreement::FillBlockAckBitmap` copies the
scoreboard into it, as far as it goes.
-/

namespace Ns3.Wifi

open Library

/-- `ns3::CtrlBAckResponseHeader` of the compressed variant; a byte of the bitmap
is a number below 256. -/
structure CtrlBAckResponseHeader where
  startingSeq : Nat
  bitmap : List Nat
  deriving DecidableEq, Repr

namespace CtrlBAckResponseHeader

/-- `SetType`, with the length of the bitmap in bytes. -/
def setType (bitmapLen : Nat) : CtrlBAckResponseHeader := ⟨0, List.replicate bitmapLen 0⟩

/-- `SetStartingSequence`. -/
def setStartingSequence (self : CtrlBAckResponseHeader) (seq : Nat) : CtrlBAckResponseHeader :=
  { self with startingSeq := seq }

/-- `ResetBitmap`. -/
def resetBitmap (self : CtrlBAckResponseHeader) : CtrlBAckResponseHeader :=
  { self with bitmap := List.replicate self.bitmap.length 0 }

/-- `IsInBitmap`. -/
def isInBitmap (self : CtrlBAckResponseHeader) (seq : Nat) : Bool :=
  decide (getDistance seq self.startingSeq < wrap 16 (self.bitmap.length * 8))

/-- `IndexInBitmap`. -/
def indexInBitmap (self : CtrlBAckResponseHeader) (seq : Nat) : Nat :=
  if seq ≥ self.startingSeq then seq - self.startingSeq
  else 4096 - self.startingSeq + seq

/-- `SetReceivedPacket`. -/
def setReceivedPacket (self : CtrlBAckResponseHeader) (seq : Nat) : CtrlBAckResponseHeader :=
  if self.isInBitmap seq then
    let i := self.indexInBitmap seq
    { self with bitmap := self.bitmap.modify (i / 8) (· ||| 1 <<< (i % 8)) }
  else self

/-- `IsPacketReceived`. -/
def isPacketReceived (self : CtrlBAckResponseHeader) (seq : Nat) : Bool :=
  if self.isInBitmap seq then
    let i := self.indexInBitmap seq
    decide (self.bitmap.getD (i / 8) 0 &&& 1 <<< (i % 8) ≠ 0)
  else false

end CtrlBAckResponseHeader

namespace RecipientBlockAckAgreement

/-- `BlockAckAgreement::GetBlockAckType` of an agreement with HT support: the
length of the bitmap of the compressed Block Ack. -/
def getBlockAckType (self : RecipientBlockAckAgreement) : Nat :=
  if self.winSizeB > 64 then 32 else 8

/-- The loop of `FillBlockAckBitmap`. -/
def fillFrom (scoreboard : BlockAckWindow) (ssn : Nat) (header : CtrlBAckResponseHeader) :
    Nat → CtrlBAckResponseHeader
  | 0 => header
  | i + 1 =>
      let filled := fillFrom scoreboard ssn header i
      if scoreboard.at' i then filled.setReceivedPacket ((ssn + i) % 4096) else filled

/-- `FillBlockAckBitmap`. -/
def fillBlockAckBitmap (self : RecipientBlockAckAgreement) (header : CtrlBAckResponseHeader) :
    CtrlBAckResponseHeader :=
  let ssn := self.scoreboard.winStart
  fillFrom self.scoreboard ssn (header.setStartingSequence ssn).resetBitmap
    self.scoreboard.getWinSize

/-- The Block Ack that the recipient answers with. -/
def blockAck (self : RecipientBlockAckAgreement) : CtrlBAckResponseHeader :=
  self.fillBlockAckBitmap (.setType self.getBlockAckType)

end RecipientBlockAckAgreement

namespace CtrlBAckResponseHeader

variable {self : CtrlBAckResponseHeader} {seq other : Nat}

theorem indexInBitmap_eq (seqSmall : seq < 4096) (startSmall : self.startingSeq < 4096) :
    self.indexInBitmap seq = getDistance seq self.startingSeq := by
  rw [getDistance_eq seqSmall startSmall, indexInBitmap]
  split <;> omega

/-- The bit that stands for the sequence number at a distance. -/
def bit (self : CtrlBAckResponseHeader) (i : Nat) : Bool :=
  (self.bitmap.getD (i / 8) 0).testBit (i % 8)

theorem and_shiftLeft_ne_zero (byte i : Nat) : byte &&& 1 <<< i ≠ 0 ↔ byte.testBit i := by
  rw [Nat.one_shiftLeft, Nat.and_two_pow]
  cases byte.testBit i <;> simp

theorem isPacketReceived_eq (seqSmall : seq < 4096) (startSmall : self.startingSeq < 4096) :
    self.isPacketReceived seq =
      (self.isInBitmap seq && self.bit (getDistance seq self.startingSeq)) := by
  unfold isPacketReceived
  rw [indexInBitmap_eq seqSmall startSmall]
  cases self.isInBitmap seq with
  | false => rfl
  | true =>
      simp only [if_true, Bool.true_and, and_shiftLeft_ne_zero, bit, Bool.decide_eq_true]

@[simp]
theorem startingSeq_setReceivedPacket :
    (self.setReceivedPacket seq).startingSeq = self.startingSeq := by
  unfold setReceivedPacket
  split <;> rfl

@[simp]
theorem length_bitmap_setReceivedPacket :
    (self.setReceivedPacket seq).bitmap.length = self.bitmap.length := by
  unfold setReceivedPacket
  split
  · exact List.length_modify ..
  · rfl

theorem bit_modify {bitmap : List Nat} {i j : Nat} (inside : j < bitmap.length * 8) :
    ((bitmap.modify (j / 8) (· ||| 1 <<< (j % 8))).getD (i / 8) 0).testBit (i % 8) =
      ((bitmap.getD (i / 8) 0).testBit (i % 8) || decide (i = j)) := by
  rw [List.getD_eq_getElem?_getD, List.getElem?_modify, List.getD_eq_getElem?_getD]
  cases byte : bitmap[i / 8]? with
  | none =>
      have outside := List.getElem?_eq_none_iff.mp byte
      have different : i ≠ j := by omega
      simp [different]
  | some value =>
      by_cases sameByte : j / 8 = i / 8
      · have sameBit : j % 8 = i % 8 ↔ i = j := by omega
        simp only [sameByte, if_true, Option.map_eq_map, Option.map_some, Option.getD_some,
          Nat.testBit_or, Nat.one_shiftLeft, Nat.testBit_two_pow, sameBit]
      · have different : i ≠ j := fun same => sameByte (by rw [same])
        simp [sameByte, different]

/-- Setting the bit of one sequence number. -/
theorem bit_setReceivedPacket (seqSmall : seq < 4096) (startSmall : self.startingSeq < 4096)
    (i : Nat) :
    (self.setReceivedPacket seq).bit i =
      (self.bit i || (self.isInBitmap seq && decide (i = getDistance seq self.startingSeq))) := by
  unfold setReceivedPacket
  rw [indexInBitmap_eq seqSmall startSmall]
  cases inBitmap : self.isInBitmap seq with
  | false => simp
  | true =>
      have inside : getDistance seq self.startingSeq < self.bitmap.length * 8 :=
        lt_of_lt_of_le (of_decide_eq_true inBitmap) (wrap_le 16 _)
      rw [if_pos rfl, Bool.true_and]
      exact bit_modify inside

end CtrlBAckResponseHeader

namespace RecipientBlockAckAgreement

open CtrlBAckResponseHeader

section Fill

variable {scoreboard : BlockAckWindow} {header : CtrlBAckResponseHeader} {count : Nat}

@[simp]
theorem startingSeq_fillFrom (ssn : Nat) :
    (fillFrom scoreboard ssn header count).startingSeq = header.startingSeq := by
  induction count with
  | zero => rfl
  | succ i inductionHypothesis =>
      rw [fillFrom]
      split
      · rw [startingSeq_setReceivedPacket, inductionHypothesis]
      · exact inductionHypothesis

@[simp]
theorem length_bitmap_fillFrom (ssn : Nat) :
    (fillFrom scoreboard ssn header count).bitmap.length = header.bitmap.length := by
  induction count with
  | zero => rfl
  | succ i inductionHypothesis =>
      rw [fillFrom]
      split
      · rw [length_bitmap_setReceivedPacket, inductionHypothesis]
      · exact inductionHypothesis

/-- A bit that is set after the loop was set before, or copied from the scoreboard. -/
theorem bit_fillFrom {ssn i : Nat} (start : header.startingSeq = ssn) (startSmall : ssn < 4096)
    (set : (fillFrom scoreboard ssn header count).bit i) :
    header.bit i ∨ ∃ k < count, scoreboard.at' k ∧ i = getDistance ((ssn + k) % 4096) ssn := by
  induction count with
  | zero => exact .inl set
  | succ k inductionHypothesis =>
      have earlier : (fillFrom scoreboard ssn header k).bit i → header.bit i ∨
          ∃ k' < k + 1, scoreboard.at' k' ∧ i = getDistance ((ssn + k') % 4096) ssn :=
        fun before => (inductionHypothesis before).imp_right fun ⟨k', inside, copied⟩ =>
          ⟨k', Nat.lt_succ_of_lt inside, copied⟩
      rw [fillFrom] at set
      split at set
      next marked =>
        rw [bit_setReceivedPacket (Nat.mod_lt _ (by decide))
          (by rw [startingSeq_fillFrom, start]; exact startSmall), startingSeq_fillFrom, start] at set
        simp only [Bool.or_eq_true, Bool.and_eq_true, decide_eq_true_eq] at set
        rcases set with before | ⟨-, same⟩
        · exact earlier before
        · exact .inr ⟨k, Nat.lt_succ_self k, marked, same⟩
      next => exact earlier set

end Fill

theorem bit_replicate (startingSeq length i : Nat) :
    (CtrlBAckResponseHeader.mk startingSeq (List.replicate length 0)).bit i = false := by
  rw [bit, List.getD_eq_getElem?_getD, List.getElem?_replicate]
  split <;> exact Nat.zero_testBit _

/-- A Block Ack acknowledges what the scoreboard shows. -/
theorem shows_of_isPacketReceived {self : RecipientBlockAckAgreement} {seq : Nat}
    (startSmall : self.scoreboard.winStart < 4096) (seqSmall : seq < 4096)
    (received : self.blockAck.isPacketReceived seq) : self.scoreboard.Shows seq := by
  have start : self.blockAck.startingSeq = self.scoreboard.winStart := startingSeq_fillFrom _
  rw [isPacketReceived_eq seqSmall (start ▸ startSmall), Bool.and_eq_true, start] at received
  have blank : (((setType self.getBlockAckType).setStartingSequence
      self.scoreboard.winStart).resetBitmap).startingSeq = self.scoreboard.winStart := rfl
  rcases bit_fillFrom blank startSmall received.2 with before | ⟨k, inside, copied, same⟩
  · exact absurd (before.symm.trans (bit_replicate _ _ _)) (by decide)
  · rw [BlockAckWindow.at'_eq _ inside] at copied
    exact ⟨k, copied, (getDistance_injective seqSmall (Nat.mod_lt _ (by decide)) startSmall
      same).symm⟩

end RecipientBlockAckAgreement

end Ns3.Wifi
