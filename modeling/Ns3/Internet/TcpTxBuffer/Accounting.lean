import Ns3.Library.Machine
import Ns3.Internet.TcpTxBuffer.Counters

/-!
The counters of the transmission buffer over whole runs.

The counters may drift in five places: `CopyFromSequence` merges items with different
flags, `Update` marks a head that a block has sacked as lost, `AddRenoSack` and
`DiscardUpTo` sack an item that is lost, and `ResetLastSegmentSent` forgets the
flags of the item that it moves. `Careful` says that a call does none of that.
-/

namespace Ns3.Internet

open Library Network SequenceSpace

namespace TcpTxBuffer

variable {self after : TcpTxBuffer} {content : List UInt8}

theorem Tallied.removeFirst (tallied : Tallied self)
    (small : (bytes self.sentList).length < 2 ^ 32) {item : TcpTxItem} {rest : List TcpTxItem}
    (list : self.sentList = item :: rest) : Tallied (self.removeFirst item rest) := by
  have sums := tallied.headSums small list
  have without : ∀ (flag : Bool) (others : Nat),
      (if flag then item.packet.length - item.packet.length else 0) + others = others := by
    intro flag others
    simp
  refine ⟨?_, ?_, ?_, sums.exclusive, tallied.unflagged⟩
  · exact (wrapSub_counted sums.sacked (sums.fits_flagged _) (Nat.le_refl _)).trans
      (without item.sacked _)
  · exact (wrapSub_counted sums.lost (sums.fits_flagged _) (Nat.le_refl _)).trans
      (without item.lost _)
  · exact (wrapSub_counted sums.retrans (sums.fits_flagged _) (Nat.le_refl _)).trans
      (without item.retrans _)

theorem Tallied.fragmentFirst (tallied : Tallied self)
    (small : (bytes self.sentList).length < 2 ^ 32) {item : TcpTxItem} {rest : List TcpTxItem}
    (list : self.sentList = item :: rest) {offset : Nat} (shorter : offset < item.packet.length) :
    Tallied (self.fragmentFirst item rest offset) := by
  have sums := tallied.headSums small list
  have fits := sums.fits
  have less := Nat.le_of_lt shorter
  have length : ((item.packet.drop offset).take (item.packet.length - offset)).length =
      item.packet.length - offset := by simp
  refine tallied_of_headSums rfl tallied.unflagged ⟨?_, ?_, ?_, ?_, sums.one, sums.exclusive⟩
  · refine (wrapSub_counted sums.sacked (sums.fits_flagged _) less).trans ?_
    rw [counted, length]
  · refine (wrapSub_counted sums.lost (sums.fits_flagged _) less).trans ?_
    rw [counted, length]
  · refine (wrapSub_counted sums.retrans (sums.fits_flagged _) less).trans ?_
    rw [counted, length]
  · rw [length]
    omega

/-- The sent items that hold a byte behind the offset. -/
def remaining : Nat → List TcpTxItem → List TcpTxItem
  | _, [] => []
  | offset, item :: rest =>
      if offset ≥ item.packet.length then remaining (offset - item.packet.length) rest
      else item :: rest

theorem mem_of_mem_remaining {offset : Nat} {list : List TcpTxItem} {item : TcpTxItem}
    (member : item ∈ remaining offset list) : item ∈ list := by
  induction list generalizing offset with
  | nil => exact member
  | cons first rest inductionHypothesis =>
      rw [remaining] at member
      split at member
      · exact List.mem_cons_of_mem first (inductionHypothesis member)
      · exact member

theorem remaining_zero {list : List TcpTxItem} (filled : Filled list) :
    remaining 0 list = list := by
  cases list with
  | nil => rfl
  | cons item rest =>
      have some := List.length_pos_iff.mpr (filled item List.mem_cons_self)
      rw [remaining, if_neg (Nat.not_le_of_lt some)]

/-- The head can be unsacked: `AddRenoSack` would then not sack a lost item. -/
def Movable : List TcpTxItem → Prop
  | [] => True
  | head :: rest => head.sacked = true → Sackable rest

instance : (list : List TcpTxItem) → Decidable (Movable list)
  | [] => .isTrue trivial
  | head :: rest => inferInstanceAs (Decidable (head.sacked = true → Sackable rest))

theorem movable_of_unflagged {list : List TcpTxItem} (unflagged : Unflagged list) :
    Movable list := by
  cases list with
  | nil => trivial
  | cons head rest =>
      intro sacked
      exact absurd sacked (by simp [(unflagged head List.mem_cons_self).1])

/-- An empty sent list gets an item without flags. -/
theorem Tallied.moveFirst (coherent : Coherent content self) (tallied : Tallied self)
    {offset : Nat} {moved : TcpTxBuffer} (given : self.moveFirst offset = some moved) :
    Tallied moved ∧ (moved.sentList = self.sentList ∨
      self.sentList = [] ∧ Unflagged moved.sentList) := by
  unfold TcpTxBuffer.moveFirst at given
  split at given
  next none =>
    split at given
    next copied =>
      cases given
      have agrees : self.Agrees offset self.firstByteSeq := by
        unfold Agrees
        rw [none]
        exact fun _ member => nomatch member
      obtain ⟨done, -, unflagged⟩ := tallied.copyFromSequence coherent agrees copied
      exact ⟨done, .inr ⟨none, unflagged none⟩⟩
    next => exact nomatch given
  next =>
    cases given
    exact ⟨tallied, .inl rfl⟩

/-- The loop of `DiscardUpTo` keeps the counters, and the head that it leaves can be unsacked
if that was so for the remaining items. -/
theorem Tallied.discard (coherent : Coherent content self) (tallied : Tallied self)
    {turns offset : Nat} (movable : Movable (remaining offset self.sentList))
    (given : discard turns self offset = some after) :
    Tallied after ∧ Movable after.sentList := by
  induction turns generalizing self content offset with
  | zero => cases given
  | succ turns inductionHypothesis =>
      rw [TcpTxBuffer.discard] at given
      split at given
      next more =>
        split at given
        next => cases given
        next moved found =>
          obtain ⟨movedCoherent, -⟩ := coherent.moveFirst found
          obtain ⟨movedTallied, sent⟩ := tallied.moveFirst coherent found
          have total := movedCoherent.sent_le
          obtain ⟨sizeFits, maxFits⟩ := movedCoherent.fits
          have small : (bytes moved.sentList).length < 2 ^ 32 := by omega
          split at given
          next => cases given
          next item rest list =>
            have itemMovable : Movable (remaining offset (item :: rest)) := by
              rcases sent with same | ⟨-, unflagged⟩
              · rw [← same, list] at movable
                exact movable
              · rw [list] at unflagged
                exact movable_of_unflagged fun other member =>
                  unflagged other (mem_of_mem_remaining member)
            rw [remaining] at itemMovable
            split at given
            next whole =>
              rw [if_pos whole] at itemMovable
              exact inductionHypothesis (movedCoherent.removeFirst list)
                (movedTallied.removeFirst small list) itemMovable given
            next partly =>
              rw [if_neg partly] at itemMovable
              cases given
              exact ⟨movedTallied.fragmentFirst small list (Nat.lt_of_not_le partly), itemMovable⟩
      next stop =>
        have same : self = after := Option.some.inj given
        subst same
        refine ⟨tallied, ?_⟩
        have total := coherent.sent_le
        by_cases empty : self.size = 0
        · rw [eq_nil_of_bytes coherent.sentFilled (by omega)]
          trivial
        · have nothing : offset = 0 := by omega
          rw [nothing, remaining_zero coherent.sentFilled] at movable
          exact movable

theorem Tallied.unsackHead (tallied : Tallied self)
    (small : (bytes self.sentList).length < 2 ^ 32) (movable : Movable self.sentList)
    (given : self.unsackHead = some after) : Tallied after ∧ HeadUnsacked after.sentList := by
  unfold TcpTxBuffer.unsackHead at given
  split at given
  next list =>
    cases given
    refine ⟨tallied, ?_⟩
    rw [list]
    exact fun _ member => nomatch member
  next head rest list =>
    split at given
    next sacked =>
      obtain ⟨moved, added, same⟩ := Option.bind_eq_some_iff.mp given
      cases same
      have sums := tallied.headSums small list
      rw [list] at movable small
      have unsackedTallied : Tallied { self with
          sentList := { head with sacked := false } :: rest
          sackedOut := wrapSub 32 self.sackedOut head.packet.length } := by
        refine tallied_of_headSums rfl tallied.unflagged ⟨?_, sums.lost, sums.retrans, sums.fits,
          fun both => (nomatch both.1), sums.exclusive⟩
        have less := wrapSub_counted sums.sacked (sums.fits_flagged _) (Nat.le_refl _)
        rw [if_pos sacked] at less
        simpa [counted] using less
      have movedBytes := bytes_eq_of_shape (addRenoSack_flagsOnly added).shape
      have movedTallied := (unsackedTallied.addRenoSack small
        (fun first isFirst => by cases isFirst; rfl) (movable sacked) added).1
      exact movedTallied.markHeadAsLost (movedBytes ▸ small)
    next unsacked =>
      cases given
      refine ⟨tallied, fun first isFirst => ?_⟩
      rw [list] at isFirst
      cases isFirst
      exact Bool.not_eq_true _ ▸ unsacked

/-- The invariant of the counters. -/
structure Accounted (buffer : TcpTxBuffer) : Prop where
  coherent : ∃ content, Coherent content buffer
  tallied : Tallied buffer
  unsacked : HeadUnsacked buffer.sentList

theorem Coherent.small (coherent : Coherent content self) :
    (bytes self.sentList).length < 2 ^ 32 := by
  have total := coherent.sent_le
  obtain ⟨sizeFits, maxFits⟩ := coherent.fits
  omega

/-- A buffer without bytes may start anywhere. -/
theorem Coherent.restart (coherent : Coherent content self) (empty : self.size = 0)
    (seq : SequenceNumber32) : Coherent content { self with firstByteSeq := seq } := by
  have total := coherent.sent_le
  have none : self.sentList = [] := eq_nil_of_bytes coherent.sentFilled (by omega)
  refine ⟨coherent.holds, ?_, coherent.sentFilled, coherent.appFilled, coherent.size,
    coherent.sentSize, coherent.fits⟩
  dsimp only
  rw [none]
  trivial

theorem Tallied.frame (tallied : Tallied self) (sentList : after.sentList = self.sentList)
    (appList : after.appList = self.appList) (sackedOut : after.sackedOut = self.sackedOut)
    (lostOut : after.lostOut = self.lostOut) (retrans : after.retrans = self.retrans) :
    Tallied after := by
  refine ⟨?_, ?_, ?_, ?_, ?_⟩
  · rw [sackedOut, sentList]
    exact tallied.sacked
  · rw [lostOut, sentList]
    exact tallied.lost
  · rw [retrans, sentList]
    exact tallied.retrans
  · rw [sentList]
    exact tallied.exclusive
  · rw [appList]
    exact tallied.unflagged

theorem Accounted.discardUpTo (accounted : Accounted self) {seq : SequenceNumber32}
    (movable : ge self.firstByteSeq seq = true ∨
      Movable (remaining (sub seq self.firstByteSeq) self.sentList))
    (given : self.discardUpTo seq = some after) : Accounted after := by
  obtain ⟨⟨content, coherent⟩, tallied, unsacked⟩ := accounted
  unfold TcpTxBuffer.discardUpTo at given
  split at given
  · cases given
    exact ⟨⟨content, coherent⟩, tallied, unsacked⟩
  next ahead =>
    obtain ⟨discarded, dropped, rest⟩ := Option.bind_eq_some_iff.mp given
    obtain ⟨kept, -⟩ := coherent.discard dropped
    obtain ⟨keptTallied, keptMovable⟩ := tallied.discard coherent
      (movable.resolve_left ahead) dropped
    obtain ⟨unsackedBuffer, unsackedHead, last⟩ := Option.bind_eq_some_iff.mp rest
    generalize started : (if discarded.size = 0 then { discarded with firstByteSeq := seq }
      else discarded) = restarted at unsackedHead
    have restartedCoherent : Coherent (content.drop (sub seq self.firstByteSeq)) restarted := by
      rw [← started]
      split
      next empty => exact kept.restart empty seq
      next => exact kept
    have sameSent : restarted.sentList = discarded.sentList := by
      rw [← started]
      split <;> rfl
    have restartedTallied : Tallied restarted := by
      refine keptTallied.frame sameSent ?_ ?_ ?_ ?_ <;>
      · rw [← started]
        split <;> rfl
    have done := restartedTallied.unsackHead restartedCoherent.small (sameSent ▸ keptMovable)
      unsackedHead
    have doneCoherent := restartedCoherent.flagsOnly (unsackHead_flagsOnly unsackedHead)
    cases last
    split
    · exact ⟨⟨_, doneCoherent.flagsOnly ⟨rfl, rfl⟩⟩, done.1.frame rfl rfl rfl rfl rfl, done.2⟩
    · exact ⟨⟨_, doneCoherent⟩, done.1, done.2⟩

/-- The call reaches none of the places where the counters drift. -/
def Careful (self : TcpTxBuffer) : Call → Prop
  | .copyFromSequence numBytes seq => self.Agrees numBytes seq
  | .update list => ∀ block ∈ list, ¬ CoversHead self.firstByteSeq self.sentList block
  | .discardUpTo seq => ge self.firstByteSeq seq = true ∨
      Movable (remaining (sub seq self.firstByteSeq) self.sentList)
  | .addRenoSack => Sackable self.sentList.tail
  | .resetLastSegmentSent => Unflagged self.sentList.getLast?.toList
  | _ => True

instance decidableCareful (self : TcpTxBuffer) : (made : Call) → Decidable (self.Careful made)
  | .copyFromSequence numBytes seq => inferInstanceAs (Decidable (self.Agrees numBytes seq))
  | .update list => inferInstanceAs
      (Decidable (∀ block ∈ list, ¬ CoversHead self.firstByteSeq self.sentList block))
  | .discardUpTo seq => inferInstanceAs (Decidable (ge self.firstByteSeq seq = true ∨
      Movable (remaining (sub seq self.firstByteSeq) self.sentList)))
  | .addRenoSack => inferInstanceAs (Decidable (Sackable self.sentList.tail))
  | .resetLastSegmentSent =>
      inferInstanceAs (Decidable (Unflagged self.sentList.getLast?.toList))
  | .add _ => .isTrue trivial
  | .setSentListLost _ => .isTrue trivial
  | .markHeadAsLost => .isTrue trivial
  | .deleteRetransmittedFlagFromHead => .isTrue trivial
  | .resetRenoSack => .isTrue trivial
  | .resetSentList => .isTrue trivial

theorem Tallied.add (tallied : Tallied self) (p : List UInt8) :
    Tallied (self.add p).1 ∧ (self.add p).1.sentList = self.sentList := by
  unfold TcpTxBuffer.add
  split
  · split
    · refine ⟨⟨tallied.sacked, tallied.lost, tallied.retrans, tallied.exclusive,
        fun item member => ?_⟩, rfl⟩
      rcases List.mem_append.mp member with old | new
      · exact tallied.unflagged item old
      · obtain rfl := List.mem_singleton.mp new
        exact ⟨rfl, rfl, rfl⟩
    · exact ⟨tallied, rfl⟩
  · exact ⟨tallied, rfl⟩

theorem Accounted.call (accounted : Accounted self) {made : Call} (careful : self.Careful made)
    (returned : self.call made = some after) : Accounted after := by
  obtain ⟨⟨content, coherent⟩, tallied, unsacked⟩ := accounted
  have small := coherent.small
  -- A call that leaves the bytes.
  have quiet : (∀ p, made ≠ .add p) → (∀ seq, made ≠ .discardUpTo seq) →
      Tallied after ∧ HeadUnsacked after.sentList → Accounted after := fun notAdd notDiscard kept =>
    ⟨⟨content, (coherent.call returned notAdd notDiscard).1⟩, kept.1, kept.2⟩
  cases made with
  | add p =>
      cases returned
      obtain ⟨added, same⟩ := tallied.add p
      exact ⟨⟨_, coherent.add p⟩, added, same ▸ unsacked⟩
  | discardUpTo seq =>
      exact Accounted.discardUpTo ⟨⟨content, coherent⟩, tallied, unsacked⟩ careful returned
  | copyFromSequence numBytes seq =>
      obtain ⟨⟨_, copied⟩, given, same⟩ := Option.map_eq_some_iff.mp returned
      cases same
      obtain ⟨kept, head, -⟩ := tallied.copyFromSequence coherent careful given
      exact quiet nofun nofun ⟨kept, head unsacked⟩
  | update list =>
      obtain ⟨⟨_, bytesSacked⟩, given, same⟩ := Option.map_eq_some_iff.mp returned
      cases same
      exact quiet nofun nofun (tallied.update small unsacked careful given)
  | setSentListLost resetSack =>
      cases returned
      exact quiet nofun nofun
        (tallied.setSentListLost small unsacked coherent.sentSize resetSack)
  | markHeadAsLost =>
      cases returned
      exact quiet nofun nofun (tallied.markHeadAsLost small)
  | deleteRetransmittedFlagFromHead =>
      exact quiet nofun nofun (tallied.deleteRetransmittedFlagFromHead small unsacked returned)
  | addRenoSack => exact quiet nofun nofun (tallied.addRenoSack small unsacked careful returned)
  | resetRenoSack =>
      cases returned
      exact quiet nofun nofun tallied.resetRenoSack
  | resetLastSegmentSent =>
      cases returned
      exact quiet nofun nofun (tallied.resetLastSegmentSent unsacked careful)
  | resetSentList =>
      cases returned
      exact quiet nofun nofun tallied.resetSentList

/-- A transmission buffer and its calls; a call that stops the program is not made. -/
def machine : Machine TcpTxBuffer Call where
  step self made := (self.call made).getD self
  Enabled self made := (self.call made).isSome

instance (self : TcpTxBuffer) (made : Call) : Decidable (machine.Enabled self made) :=
  inferInstanceAs (Decidable ((self.call made).isSome = true))

/-- A sequence number outside of the buffer discards what there is. -/
theorem Coherent.discardUpTo_anywhere (coherent : Coherent content self) {seq : SequenceNumber32}
    (given : self.discardUpTo seq = some after) : ∃ kept, Coherent kept after := by
  unfold TcpTxBuffer.discardUpTo at given
  split at given
  · cases given
    exact ⟨content, coherent⟩
  next =>
    obtain ⟨discarded, dropped, rest⟩ := Option.bind_eq_some_iff.mp given
    obtain ⟨kept, -⟩ := coherent.discard dropped
    obtain ⟨unsackedBuffer, unsackedHead, last⟩ := Option.bind_eq_some_iff.mp rest
    have unsackedKept : Coherent (content.drop (sub seq self.firstByteSeq)) unsackedBuffer := by
      refine Coherent.flagsOnly ?_ (unsackHead_flagsOnly unsackedHead)
      split
      next empty => exact kept.restart empty seq
      next => exact kept
    cases last
    split
    · exact ⟨_, unsackedKept.flagsOnly ⟨rfl, rfl⟩⟩
    · exact ⟨_, unsackedKept⟩

theorem Coherent.call_anywhere (coherent : Coherent content self) {made : Call}
    (returned : self.call made = some after) : ∃ kept, Coherent kept after := by
  cases made with
  | add p =>
      cases returned
      exact ⟨_, coherent.add p⟩
  | discardUpTo seq => exact coherent.discardUpTo_anywhere returned
  | copyFromSequence numBytes seq => exact ⟨content, (coherent.call returned nofun nofun).1⟩
  | update list => exact ⟨content, (coherent.call returned nofun nofun).1⟩
  | setSentListLost resetSack => exact ⟨content, (coherent.call returned nofun nofun).1⟩
  | markHeadAsLost => exact ⟨content, (coherent.call returned nofun nofun).1⟩
  | deleteRetransmittedFlagFromHead =>
      exact ⟨content, (coherent.call returned nofun nofun).1⟩
  | addRenoSack => exact ⟨content, (coherent.call returned nofun nofun).1⟩
  | resetRenoSack => exact ⟨content, (coherent.call returned nofun nofun).1⟩
  | resetLastSegmentSent => exact ⟨content, (coherent.call returned nofun nofun).1⟩
  | resetSentList => exact ⟨content, (coherent.call returned nofun nofun).1⟩

/-- In every run the lists and the sizes of the buffer belong together. -/
theorem coherent_run (initial : SequenceNumber32) {maxBuffer : Nat} (dupAckThresh : Nat)
    (small : maxBuffer < 2 ^ 32) {calls : List Call}
    (legal : machine.Legal (create initial maxBuffer dupAckThresh) calls) :
    ∃ content, Coherent content (machine.run (create initial maxBuffer dupAckThresh) calls) := by
  have start : ∃ content, Coherent content (create initial maxBuffer dupAckThresh) :=
    ⟨[], coherent_create initial dupAckThresh small⟩
  have always : machine.Always (fun self => ∃ content, Coherent content self)
      (create initial maxBuffer dupAckThresh) calls := by
    refine Machine.Legal.always (fun self made invariant enabled => ?_) start legal
    obtain ⟨content, coherent⟩ := invariant
    obtain ⟨after, returned⟩ := Option.isSome_iff_exists.mp enabled
    have same : machine.step self made = after := by
      change (self.call made).getD self = after
      rw [returned, Option.getD_some]
    rw [same]
    exact coherent.call_anywhere returned
  exact always.last

/-- The sizes and the counters are the sums over the lists, and nothing underflows. -/
structure Consistent (buffer : TcpTxBuffer) : Prop where
  size : buffer.size = (bytes buffer.sentList).length + (bytes buffer.appList).length
  sentSize : buffer.sentSize = (bytes buffer.sentList).length
  sackedOut : buffer.sackedOut = flagged TcpTxItem.sacked buffer.sentList
  lostOut : buffer.lostOut = flagged TcpTxItem.lost buffer.sentList
  retrans : buffer.retrans = flagged TcpTxItem.retrans buffer.sentList
  exclusive : Exclusive buffer.sentList
  leftOut : buffer.sackedOut + buffer.lostOut ≤ buffer.sentSize
  inFlight : buffer.bytesInFlight =
    wrap 32 (buffer.sentSize - (buffer.sackedOut + buffer.lostOut) + buffer.retrans)

theorem Accounted.consistent (accounted : Accounted self) : Consistent self := by
  obtain ⟨⟨content, coherent⟩, tallied, -⟩ := accounted
  have few := tallied.exclusive.flagged_le
  have sentSize := coherent.sentSize
  have small := coherent.small
  have leftOut : self.sackedOut + self.lostOut ≤ self.sentSize := by
    rw [tallied.sacked, tallied.lost, sentSize]
    exact few
  refine ⟨coherent.sent_le.symm, sentSize, tallied.sacked, tallied.lost, tallied.retrans,
    tallied.exclusive, leftOut, ?_⟩
  have leftFits : wrap 32 (self.sackedOut + self.lostOut) = self.sackedOut + self.lostOut :=
    wrap_of_lt (by omega)
  unfold bytesInFlight
  dsimp only
  rw [leftFits, wrapSub_of_le leftOut (by omega)]

/-- In every run whose calls are careful, the counters are the sums over the lists. -/
theorem consistent_always (initial : SequenceNumber32) (maxBuffer dupAckThresh : Nat)
    (small : maxBuffer < 2 ^ 32) (calls : List Call)
    (legal : machine.Legal (create initial maxBuffer dupAckThresh) calls)
    (careful : machine.Along Careful (create initial maxBuffer dupAckThresh) calls) :
    machine.Always Consistent (create initial maxBuffer dupAckThresh) calls := by
  have start : Accounted (create initial maxBuffer dupAckThresh) :=
    ⟨⟨[], coherent_create initial dupAckThresh small⟩,
      ⟨rfl, rfl, rfl, fun _ member => (nomatch member), fun _ member => nomatch member⟩,
      fun _ member => nomatch member⟩
  have always : machine.Always Accounted (create initial maxBuffer dupAckThresh) calls := by
    refine Machine.Legal.always_of_along (fun self made accounted enabled careful => ?_) start
      legal careful
    obtain ⟨after, returned⟩ := Option.isSome_iff_exists.mp enabled
    have same : machine.step self made = after := by
      change (self.call made).getD self = after
      rw [returned, Option.getD_some]
    rw [same]
    exact accounted.call careful returned
  exact always.mono fun _ accounted => accounted.consistent

/-- Segments are sent, sacked, lost, retransmitted and acknowledged. -/
theorem consistent_always_recovery :
    machine.Always Consistent (create (SequenceNumber32.ofNat 4294967294) 16 1)
      [.add [1, 2, 3, 4, 5, 6], .copyFromSequence 2 (SequenceNumber32.ofNat 4294967294),
        .copyFromSequence 2 (SequenceNumber32.ofNat 0),
        .update [(SequenceNumber32.ofNat 0, SequenceNumber32.ofNat 2)],
        .copyFromSequence 2 (SequenceNumber32.ofNat 4294967294),
        .copyFromSequence 2 (SequenceNumber32.ofNat 2),
        .resetLastSegmentSent,
        .discardUpTo (SequenceNumber32.ofNat 2)] :=
  consistent_always (SequenceNumber32.ofNat 4294967294) 16 1 (by decide) _ (by decide) (by decide)

/-- A lost segment is moved back to the list of the application: it still counts as
lost. -/
theorem not_consistent_resetLastSegmentSent :
    machine.Legal (create (SequenceNumber32.ofNat 1) 16 3)
        [.add [1, 2], .copyFromSequence 2 (SequenceNumber32.ofNat 1), .setSentListLost false,
          .resetLastSegmentSent] ∧
      ¬ machine.Always Consistent (create (SequenceNumber32.ofNat 1) 16 3)
        [.add [1, 2], .copyFromSequence 2 (SequenceNumber32.ofNat 1), .setSentListLost false,
          .resetLastSegmentSent] ∧
      (machine.run (create (SequenceNumber32.ofNat 1) 16 3)
        [.add [1, 2], .copyFromSequence 2 (SequenceNumber32.ofNat 1), .setSentListLost false,
          .resetLastSegmentSent]).bytesInFlight = 2 ^ 32 - 2 := by
  refine ⟨by decide, fun always => ?_, by decide⟩
  exact absurd always.last.leftOut (by decide)

end TcpTxBuffer

end Ns3.Internet
