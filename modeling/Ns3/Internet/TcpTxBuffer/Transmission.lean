import Ns3.Library.Machine
import Ns3.Internet.TcpTxBuffer.Stream

/-!
The transmission buffer over whole runs.

A transmission keeps the bytes that were added to the buffer and the number of those
that were discarded; the two lists of the buffer hold what is between.
-/

namespace Ns3.Internet

open Library Network SequenceSpace

namespace TcpTxBuffer

/-- A buffer with the bytes that were added to it and the number of those that were
discarded. -/
structure Transmission where
  buffer : TcpTxBuffer
  added : List UInt8
  discarded : Nat

namespace Transmission

/-- A new buffer. -/
def create (n : SequenceNumber32) (maxBuffer dupAckThresh : Nat) : Transmission :=
  ⟨TcpTxBuffer.create n maxBuffer dupAckThresh, [], 0⟩

/-- What a call does; a call that stops the program is not made. -/
def step (self : Transmission) (made : Call) : Transmission :=
  match self.buffer.call made with
  | none => self
  | some after =>
      { buffer := after
        added :=
          match made with
          | .add p => if (self.buffer.add p).2 then self.added ++ p else self.added
          | _ => self.added
        discarded :=
          match made with
          | .discardUpTo seq => self.discarded + sub seq self.buffer.firstByteSeq
          | _ => self.discarded }

/-- `DiscardUpTo` is called for a sequence number in the buffer. -/
def InRange (self : Transmission) : Call → Prop
  | .discardUpTo seq => self.buffer.Within seq
  | _ => True

instance decidableInRange (self : Transmission) : (made : Call) → Decidable (self.InRange made)
  | .discardUpTo seq => inferInstanceAs (Decidable (self.buffer.Within seq))
  | .add _ => .isTrue trivial
  | .copyFromSequence _ _ => .isTrue trivial
  | .update _ => .isTrue trivial
  | .setSentListLost _ => .isTrue trivial
  | .markHeadAsLost => .isTrue trivial
  | .deleteRetransmittedFlagFromHead => .isTrue trivial
  | .addRenoSack => .isTrue trivial
  | .resetRenoSack => .isTrue trivial
  | .resetLastSegmentSent => .isTrue trivial
  | .resetSentList => .isTrue trivial

/-- The call returns, with an argument in range. -/
def Enabled (self : Transmission) (made : Call) : Prop :=
  (self.buffer.call made).isSome ∧ self.InRange made

instance (self : Transmission) (made : Call) : Decidable (self.Enabled made) :=
  inferInstanceAs (Decidable (_ ∧ _))

/-- A transmission buffer and its calls. -/
def machine : Machine Transmission Call where
  step := step
  Enabled := Enabled

instance (self : Transmission) (made : Call) : Decidable (machine.Enabled self made) :=
  inferInstanceAs (Decidable (self.Enabled made))

/-- The buffer holds the bytes that were added and not yet discarded, in order. -/
structure Preserves (initial : SequenceNumber32) (transmission : Transmission) : Prop where
  content : bytes transmission.buffer.sentList ++ bytes transmission.buffer.appList =
    transmission.added.drop transmission.discarded
  head : transmission.buffer.firstByteSeq = SequenceSpace.add initial transmission.discarded
  discarded : transmission.discarded ≤ transmission.added.length
  starts : Consecutive transmission.buffer.firstByteSeq transmission.buffer.sentList
  nonEmpty : Filled transmission.buffer.sentList ∧ Filled transmission.buffer.appList

/-- `DiscardUpTo` drops exactly the bytes below the sequence number. -/
def DiscardsExactly (transmission : Transmission) : Call → Prop
  | .discardUpTo seq => ∀ after, transmission.buffer.discardUpTo seq = some after →
      bytes after.sentList ++ bytes after.appList =
        (bytes transmission.buffer.sentList ++ bytes transmission.buffer.appList).drop
          (sub seq transmission.buffer.firstByteSeq) ∧
      after.firstByteSeq = seq
  | _ => True

/-- The invariant of the bytes. -/
structure Invariant (initial : SequenceNumber32) (transmission : Transmission) : Prop where
  coherent : Coherent (transmission.added.drop transmission.discarded) transmission.buffer
  head : transmission.buffer.firstByteSeq = SequenceSpace.add initial transmission.discarded
  discarded : transmission.discarded ≤ transmission.added.length

theorem Invariant.preserves {initial : SequenceNumber32} {transmission : Transmission}
    (invariant : Invariant initial transmission) : Preserves initial transmission :=
  ⟨invariant.coherent.holds, invariant.head, invariant.discarded, invariant.coherent.consecutive,
    invariant.coherent.sentFilled, invariant.coherent.appFilled⟩

variable {initial : SequenceNumber32} {transmission : Transmission}

theorem Invariant.step (invariant : Invariant initial transmission) {made : Call}
    (enabled : transmission.Enabled made) : Invariant initial (transmission.step made) := by
  obtain ⟨after, returned⟩ := Option.isSome_iff_exists.mp enabled.1
  have inRange := enabled.2
  have coherent := invariant.coherent
  have head := invariant.head
  have behind := invariant.discarded
  -- A call that neither adds nor discards bytes.
  have quiet : (∀ p, made ≠ .add p) → (∀ seq, made ≠ .discardUpTo seq) →
      Invariant initial ⟨after, transmission.added, transmission.discarded⟩ := by
    intro notAdd notDiscard
    obtain ⟨kept, same⟩ := coherent.call returned notAdd notDiscard
    exact ⟨kept, same.trans head, behind⟩
  unfold Transmission.step
  rw [returned]
  cases made with
  | add p =>
      cases returned
      have added := coherent.add p
      have sameHead : (transmission.buffer.add p).1.firstByteSeq =
          transmission.buffer.firstByteSeq := by
        unfold TcpTxBuffer.add
        split
        · split <;> rfl
        · rfl
      dsimp only
      split at added
      next accepted =>
        rw [if_pos accepted]
        refine ⟨?_, sameHead.trans head, ?_⟩
        · rw [List.drop_append_of_le_length behind]
          exact added
        · dsimp only
          rw [List.length_append]
          omega
      next rejected =>
        rw [if_neg rejected]
        exact ⟨added, sameHead.trans head, behind⟩
  | discardUpTo seq =>
      obtain ⟨kept, first⟩ := coherent.discardUpTo inRange returned
      have few := inRange.sub_le (Nat.lt_of_le_of_lt coherent.fits.1 coherent.fits.2)
      have size := coherent.size
      rw [List.length_drop] at size
      refine ⟨?_, first.trans ?_, ?_⟩
      · rw [List.drop_drop] at kept
        exact kept
      · dsimp only
        rw [← SequenceNumber32.add_add, ← head, SequenceNumber32.add_sub]
      · dsimp only
        omega
  | copyFromSequence numBytes seq => exact quiet nofun nofun
  | update list => exact quiet nofun nofun
  | setSentListLost resetSack => exact quiet nofun nofun
  | markHeadAsLost => exact quiet nofun nofun
  | deleteRetransmittedFlagFromHead => exact quiet nofun nofun
  | addRenoSack => exact quiet nofun nofun
  | resetRenoSack => exact quiet nofun nofun
  | resetLastSegmentSent => exact quiet nofun nofun
  | resetSentList => exact quiet nofun nofun

theorem Invariant.discardsExactly (invariant : Invariant initial transmission) {made : Call}
    (enabled : transmission.Enabled made) : DiscardsExactly transmission made := by
  have inRange := enabled.2
  cases made with
  | discardUpTo seq =>
      intro after returned
      obtain ⟨kept, first⟩ := invariant.coherent.discardUpTo inRange returned
      refine ⟨?_, first⟩
      rw [kept.holds, invariant.coherent.holds]
  | add p => trivial
  | copyFromSequence numBytes seq => trivial
  | update list => trivial
  | setSentListLost resetSack => trivial
  | markHeadAsLost => trivial
  | deleteRetransmittedFlagFromHead => trivial
  | addRenoSack => trivial
  | resetRenoSack => trivial
  | resetLastSegmentSent => trivial
  | resetSentList => trivial

/-- In every run the buffer holds the stream from the head sequence number on. -/
theorem preserves_always (initial : SequenceNumber32) (maxBuffer dupAckThresh : Nat)
    (small : maxBuffer < 2 ^ 32) (calls : List Call)
    (legal : machine.Legal (create initial maxBuffer dupAckThresh) calls) :
    machine.Always (Preserves initial) (create initial maxBuffer dupAckThresh) calls ∧
      machine.Along DiscardsExactly (create initial maxBuffer dupAckThresh) calls := by
  have start : Invariant initial (create initial maxBuffer dupAckThresh) :=
    ⟨coherent_create initial dupAckThresh small, (SequenceNumber32.add_zero initial).symm,
      Nat.le_refl 0⟩
  have always : machine.Always (Invariant initial) (create initial maxBuffer dupAckThresh) calls :=
    Machine.Legal.always (fun _ _ invariant enabled => invariant.step enabled) start legal
  exact ⟨always.mono fun _ invariant => invariant.preserves,
    always.along (fun _ _ invariant enabled => invariant.discardsExactly enabled) legal⟩

/-- Segments are sent, split for a retransmission across the end of the sequence number
space, acknowledged in part and moved back. -/
theorem preserves_always_wrapping :
    machine.Always (Preserves (SequenceNumber32.ofNat 4294967294))
        (create (SequenceNumber32.ofNat 4294967294) 16 3)
        [.add [1, 2, 3, 4], .add [5, 6], .copyFromSequence 3 (SequenceNumber32.ofNat 4294967294),
          .copyFromSequence 2 (SequenceNumber32.ofNat 1), .setSentListLost false,
          .copyFromSequence 1 (SequenceNumber32.ofNat 4294967295),
          .discardUpTo (SequenceNumber32.ofNat 0), .resetLastSegmentSent, .resetSentList] ∧
      machine.Along DiscardsExactly
        (create (SequenceNumber32.ofNat 4294967294) 16 3)
        [.add [1, 2, 3, 4], .add [5, 6], .copyFromSequence 3 (SequenceNumber32.ofNat 4294967294),
          .copyFromSequence 2 (SequenceNumber32.ofNat 1), .setSentListLost false,
          .copyFromSequence 1 (SequenceNumber32.ofNat 4294967295),
          .discardUpTo (SequenceNumber32.ofNat 0), .resetLastSegmentSent, .resetSentList] :=
  preserves_always (SequenceNumber32.ofNat 4294967294) 16 3 (by decide) _ (by decide)

end Transmission

end TcpTxBuffer

end Ns3.Internet
