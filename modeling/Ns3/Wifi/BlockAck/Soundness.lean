import Ns3.Wifi.BlockAck.Header
import Ns3.Wifi.BlockAck.Originator
import Ns3.Wifi.BlockAck.Reordering

/-!
Block Ack from end to end.

An exchange joins the two sides of an agreement: the recipient, with any frames
arriving in any order, the Block Acks that it has answered with, and the originator
with its outstanding MPDUs. A Block Ack may be processed late or more than once.
An outstanding MPDU is numbered by counting the sequence numbers from the starting
sequence number on, without wrapping; an MPDU that is old when it is transmitted
has the number of its place behind the window.
-/

namespace Ns3.Wifi

open Library

/-- An outstanding MPDU. -/
structure Transmission where
  number : Int
  mpdu : WifiMacQueueItem
  deriving DecidableEq, Repr

/-- The two sides of a Block Ack agreement. -/
structure BlockAckExchange where
  recipient : RecipientBlockAckAgreement
  blockAcks : List CtrlBAckResponseHeader
  originator : OriginatorBlockAckAgreement
  outstanding : List Transmission
  deriving DecidableEq, Repr

namespace BlockAckExchange

/-- What happens to an exchange. -/
inductive Action where
  | receive (reception : RecipientBlockAckAgreement.Reception)
  | answer
  | transmit (mpdu : WifiMacQueueItem)
  | acknowledge (header : CtrlBAckResponseHeader) (transmission : Transmission)
  | discard (mpdu : WifiMacQueueItem)
  deriving DecidableEq, Repr

/-- A new agreement. -/
def create (bufferSize startingSeq : Nat) : BlockAckExchange where
  recipient := .create bufferSize startingSeq
  blockAcks := []
  originator := .initTxWindow startingSeq bufferSize
  outstanding := []

/-- The number of an MPDU that is transmitted. -/
def number (originator : OriginatorBlockAckAgreement) (mpdu : WifiMacQueueItem) : Int :=
  if originator.distance mpdu < 2048 then originator.advanced + originator.distance mpdu
  else (originator.advanced : Int) + originator.distance mpdu - 4096

/-- The notification of the originator, if it returns. -/
def notify (self : BlockAckExchange) : Action → Option OriginatorBlockAckAgreement
  | .receive _ => some self.originator
  | .answer => some self.originator
  | .transmit mpdu => self.originator.notifyTransmittedMpdu mpdu
  | .acknowledge _ transmission => self.originator.notifyAckedMpdu transmission.mpdu
  | .discard mpdu => self.originator.notifyDiscardedMpdu mpdu

/-- What an action does, the transmit window apart. -/
def perform (self : BlockAckExchange) : Action → BlockAckExchange
  | .receive reception =>
      { self with
        recipient := RecipientBlockAckAgreement.machine.step self.recipient reception }
  | .answer => { self with blockAcks := self.recipient.blockAck :: self.blockAcks }
  | .transmit mpdu =>
      { self with outstanding := ⟨number self.originator mpdu, mpdu⟩ :: self.outstanding }
  | .acknowledge _ transmission =>
      { self with outstanding := self.outstanding.erase transmission }
  | .discard mpdu =>
      { self with outstanding := self.outstanding.filter (·.mpdu ≠ mpdu) }

/-- Sequence numbers have 12 bits, and an acknowledgment takes an outstanding
MPDU and a Block Ack that the recipient has answered with. -/
def machine : Machine BlockAckExchange Action where
  step self action :=
    match self.notify action with
    | none => self
    | some originator => { self.perform action with originator := originator }
  Enabled
    | self, .receive reception =>
        RecipientBlockAckAgreement.machine.Enabled self.recipient reception
    | _, .answer => True
    | _, .transmit mpdu => mpdu.sequenceNumber < 4096
    | self, .acknowledge header transmission =>
        header ∈ self.blockAcks ∧ transmission ∈ self.outstanding ∧
          header.isPacketReceived transmission.mpdu.sequenceNumber
    | _, .discard mpdu => mpdu.sequenceNumber < 4096

instance : ∀ self action, Decidable (machine.Enabled self action)
  | self, .receive reception => inferInstanceAs (Decidable
      (RecipientBlockAckAgreement.machine.Enabled self.recipient reception))
  | _, .answer => inferInstanceAs (Decidable True)
  | _, .transmit mpdu => inferInstanceAs (Decidable (mpdu.sequenceNumber < 4096))
  | self, .acknowledge header transmission => inferInstanceAs (Decidable
      (header ∈ self.blockAcks ∧ transmission ∈ self.outstanding ∧
        header.isPacketReceived transmission.mpdu.sequenceNumber))
  | _, .discard mpdu => inferInstanceAs (Decidable (mpdu.sequenceNumber < 4096))

/-- The window has moved at most half the sequence number space past an MPDU
that is acknowledged. -/
def Recent : BlockAckExchange → Action → Prop
  | self, .acknowledge _ transmission => self.originator.advanced ≤ transmission.number + 2048
  | _, _ => True

instance : ∀ self action, Decidable (Recent self action)
  | self, .acknowledge _ transmission => inferInstanceAs (Decidable
      (self.originator.advanced ≤ transmission.number + 2048))
  | _, .receive _ => inferInstanceAs (Decidable True)
  | _, .answer => inferInstanceAs (Decidable True)
  | _, .transmit _ => inferInstanceAs (Decidable True)
  | _, .discard _ => inferInstanceAs (Decidable True)

/-- The action is the reception of an MPDU with the sequence number. -/
def Receives (seq : Nat) (_ : BlockAckExchange) (action : Action) : Prop :=
  ∃ mpdu, action = .receive (.mpdu mpdu) ∧ mpdu.sequenceNumber = seq

/-- The action is the acknowledgment of an MPDU with the sequence number. -/
def Acknowledges (seq : Nat) (_ : BlockAckExchange) (action : Action) : Prop :=
  ∃ header transmission, action = .acknowledge header transmission ∧
    transmission.mpdu.sequenceNumber = seq

/-- The index that the action writes to the transmit window. -/
def written (self : BlockAckExchange) : Action → Option Nat
  | .acknowledge _ transmission => self.originator.ackedIndex transmission.mpdu
  | _ => none

/-- The action acknowledges the sequence number, discards it with an MPDU, or
pushes it out of the window with an MPDU beyond it. -/
def Excuses (self : BlockAckExchange) (seq : Nat) : Action → Prop
  | .transmit mpdu =>
      getDistance seq self.originator.txWindow.winStart +
        self.originator.txWindow.getWinSize ≤ self.originator.distance mpdu ∧
      self.originator.distance mpdu < 2048
  | .acknowledge _ transmission => transmission.mpdu.sequenceNumber = seq
  | .discard mpdu =>
      getDistance seq self.originator.txWindow.winStart ≤ self.originator.distance mpdu ∧
      self.originator.distance mpdu < 2048
  | _ => False

/-- An action keeps the transmit window: it ends, it writes within the window, and
nothing leaves the window without a reason. -/
structure Keeps (exchange : BlockAckExchange) (action : Action) : Prop where
  ends : (exchange.notify action).isSome
  inside : ∀ index, exchange.written action = some index →
    index < exchange.originator.txWindow.getWinSize
  leaves : ∀ seq < 4096, exchange.originator.txWindow.Covers seq →
    ¬ (machine.step exchange action).originator.txWindow.Covers seq →
    exchange.originator.txWindow.Shows seq ∨ exchange.Excuses seq action

/-- The windows of both sides are in use, and every outstanding MPDU is in the
transmit window or behind it. -/
structure Sound (startingSeq bufferSize : Nat) (exchange : BlockAckExchange) : Prop where
  scoreboard : exchange.recipient.scoreboard.Valid
  originator : exchange.originator.Valid startingSeq bufferSize
  small : ∀ transmission ∈ exchange.outstanding, transmission.mpdu.sequenceNumber < 4096
  numbered : ∀ transmission ∈ exchange.outstanding,
    (startingSeq + transmission.number) % 4096 = transmission.mpdu.sequenceNumber
  within : ∀ transmission ∈ exchange.outstanding,
    transmission.number < exchange.originator.advanced + bufferSize ∧
      transmission.number < exchange.originator.advanced + 2048

end BlockAckExchange

namespace RecipientBlockAckAgreement

variable {scoreboard : BlockAckWindow} {seq shown : Nat}

/-- An MPDU sets no bit but its own. -/
theorem shows_of_scoreMpdu (valid : scoreboard.Valid) (small : seq < 4096)
    (after : (scoreMpdu scoreboard seq).Shows shown) : shown = seq ∨ scoreboard.Shows shown := by
  unfold scoreMpdu at after
  rw [wrap_getDistance small valid.start] at after
  dsimp only at after
  split at after
  next inside => exact BlockAckWindow.Shows.of_mark valid small inside after
  next beyond =>
    split at after
    next =>
      have moved := valid.moved (getDistance seq scoreboard.winStart - scoreboard.getWinSize + 1)
      have positive := valid.positive
      have last : getDistance seq (scoreboard.advance
          (getDistance seq scoreboard.winStart - scoreboard.getWinSize + 1)).winStart =
            scoreboard.getWinSize - 1 := by
        rw [moved.start, getDistance_advance small valid.start (by omega)]
        omega
      rw [← last] at after
      have covers : (scoreboard.advance
          (getDistance seq scoreboard.winStart - scoreboard.getWinSize + 1)).Covers seq := by
        rw [BlockAckWindow.Covers, last, moved.size]
        omega
      exact (BlockAckWindow.Shows.of_mark moved.valid small covers after).imp_right moved.shows
    next => exact .inr after

theorem valid_scoreMpdu (valid : scoreboard.Valid) : (scoreMpdu scoreboard seq).Valid := by
  unfold scoreMpdu
  dsimp only
  split
  · exact valid.mark
  · split
    · exact (valid.advance _).mark
    · exact valid

/-- A request sets no bit. -/
theorem shows_of_scoreBar (valid : scoreboard.Valid)
    (after : (scoreBar scoreboard seq).Shows shown) : scoreboard.Shows shown := by
  unfold scoreBar at after
  dsimp only at after
  split at after
  · exact (valid.moved _).shows after
  · split at after
    · exact absurd after BlockAckWindow.not_shows_init
    · exact after

theorem valid_scoreBar (valid : scoreboard.Valid) (small : seq < 4096) :
    (scoreBar scoreboard seq).Valid := by
  unfold scoreBar
  dsimp only
  split
  · exact valid.advance _
  · split
    · exact .init small valid.positive
    · exact valid

variable {self : RecipientBlockAckAgreement}

@[simp]
theorem scoreboard_passInSequence (buffered : List WifiMacQueueItem) :
    (passInSequence buffered self).scoreboard = self.scoreboard := by
  induction buffered generalizing self with
  | nil => rfl
  | cons first rest inductionHypothesis =>
      rw [passInSequence]
      split
      · exact inductionHypothesis
      · rfl

theorem scoreboard_store (mpdu : WifiMacQueueItem) :
    (self.store mpdu).scoreboard = self.scoreboard := by
  unfold store
  split <;> rfl

/-- Reordering leaves the scoreboard alone. -/
theorem scoreboard_step (reception : Reception) :
    (machine.step self reception).scoreboard = match reception with
      | .mpdu item => scoreMpdu self.scoreboard item.sequenceNumber
      | .bar startingSequenceNumber => scoreBar self.scoreboard startingSequenceNumber := by
  cases reception with
  | mpdu item =>
      change (reorderMpdu _ item).scoreboard = _
      unfold reorderMpdu
      dsimp only
      split
      · exact (scoreboard_passInSequence _).trans (scoreboard_store item)
      · split
        · exact (scoreboard_passInSequence _).trans (scoreboard_store item)
        · rfl
  | bar startingSequenceNumber =>
      change (reorderBar _ startingSequenceNumber).scoreboard = _
      unfold reorderBar
      dsimp only
      split
      · exact scoreboard_passInSequence _
      · rfl

end RecipientBlockAckAgreement

namespace BlockAckExchange

variable {self : BlockAckExchange} {action : Action} {startingSeq bufferSize : Nat}

theorem Sound.create (small : startingSeq < 4096) (positive : 0 < bufferSize) :
    (create bufferSize startingSeq).Sound startingSeq bufferSize where
  scoreboard := .init small positive
  originator := .initTxWindow small positive
  small _ outstanding := absurd outstanding List.not_mem_nil
  numbered _ outstanding := absurd outstanding List.not_mem_nil
  within _ outstanding := absurd outstanding List.not_mem_nil

/-- An MPDU that is acknowledged recently enough is in the window or old. -/
theorem Sound.written_lt (sound : self.Sound startingSeq bufferSize)
    (enabled : machine.Enabled self action) (recent : Recent self action) {index : Nat}
    (written : self.written action = some index) : index < bufferSize := by
  cases action with
  | acknowledge header transmission =>
      have small := sound.small transmission enabled.2.1
      have numbered := sound.numbered transmission enabled.2.1
      have within := sound.within transmission enabled.2.1
      have start := sound.originator.start
      have bound : (self.originator.advanced : Int) ≤ transmission.number + 2048 := recent
      change self.originator.ackedIndex transmission.mpdu = some index at written
      unfold OriginatorBlockAckAgreement.ackedIndex at written
      rw [sound.originator.distance_eq small, getDistance_eq small sound.originator.window.start]
        at written
      split at written
      next => exact nomatch written
      next ahead =>
        cases written
        omega
  | receive reception => exact nomatch written
  | answer => exact nomatch written
  | transmit mpdu => exact nomatch written
  | discard mpdu => exact nomatch written

/-- What the notification of the originator does to its window: the acknowledgment,
if any, is noted, and then the window moves on. -/
structure Notified (exchange : BlockAckExchange) (action : Action)
    (noted after : OriginatorBlockAckAgreement) : Prop where
  ends : exchange.notify action = some after
  advanced : noted.advanced = exchange.originator.advanced
  start : noted.txWindow.winStart = exchange.originator.txWindow.winStart
  size : noted.txWindow.getWinSize = exchange.originator.txWindow.getWinSize
  valid : noted.txWindow.Valid
  slid : noted.Slid (fun i => ∀ seq, getDistance seq exchange.originator.txWindow.winStart = i →
    exchange.Excuses seq action) after
  shows : ∀ seq, noted.txWindow.Shows seq →
    (Acknowledges seq exchange action ∧ exchange.Excuses seq action) ∨
      exchange.originator.txWindow.Shows seq

theorem Notified.of_slid {Excused : Nat → Prop} {after : OriginatorBlockAckAgreement}
    (valid : self.originator.Valid startingSeq bufferSize) (ends : self.notify action = some after)
    (slid : self.originator.Slid Excused after)
    (excuses : ∀ seq, Excused (getDistance seq self.originator.txWindow.winStart) →
      self.Excuses seq action) :
    Notified self action self.originator after where
  ends := ends
  advanced := rfl
  start := rfl
  size := rfl
  valid := valid.window
  slid := slid.mono fun _ excused seq same => excuses seq (same ▸ excused)
  shows _ := .inr

theorem Sound.notified (sound : self.Sound startingSeq bufferSize)
    (enabled : machine.Enabled self action) (recent : Recent self action) :
    ∃ noted after, Notified self action noted after := by
  have valid := sound.originator
  have still : self.originator.Slid (fun _ => False) self.originator := .refl valid
  cases action with
  | receive reception => exact ⟨_, _, .of_slid valid rfl still fun _ => False.elim⟩
  | answer => exact ⟨_, _, .of_slid valid rfl still fun _ => False.elim⟩
  | transmit mpdu =>
      obtain ⟨after, ended, slid, -⟩ := valid.notifyTransmittedMpdu mpdu
      rw [← valid.size] at slid
      exact ⟨_, after, .of_slid valid ended slid fun _ beyond => beyond⟩
  | discard mpdu =>
      obtain ⟨after, ended, slid⟩ := valid.notifyDiscardedMpdu mpdu
      exact ⟨_, after, .of_slid valid ended slid fun _ before => before⟩
  | acknowledge header transmission =>
      obtain ⟨after, ended, slid⟩ := valid.notifyAckedMpdu transmission.mpdu
      refine ⟨_, after, ended, OriginatorBlockAckAgreement.advanced_acked _ _,
        OriginatorBlockAckAgreement.winStart_acked _ _,
        OriginatorBlockAckAgreement.getWinSize_acked _ _, valid.acked_window,
        slid.mono (fun _ => False.elim), fun seq shown => ?_⟩
      have inside : ∀ index, self.originator.ackedIndex transmission.mpdu = some index →
          index < bufferSize := fun index written => sound.written_lt enabled recent written
      rcases valid.shows_of_acked (sound.small transmission enabled.2.1) inside shown with
        rfl | before
      · exact .inl ⟨⟨header, transmission, rfl, rfl⟩, rfl⟩
      · exact .inr before

variable {noted after : OriginatorBlockAckAgreement}

theorem Notified.step (notified : Notified self action noted after) :
    machine.step self action = { self.perform action with originator := after } := by
  change (match self.notify action with
    | none => self
    | some originator => { self.perform action with originator := originator }) = _
  rw [notified.ends]

theorem Notified.keeps (notified : Notified self action noted after)
    (sound : self.Sound startingSeq bufferSize) (enabled : machine.Enabled self action)
    (recent : Recent self action) : Keeps self action where
  ends := by
    rw [notified.ends]
    rfl
  inside index written := sound.originator.size.symm ▸ sound.written_lt enabled recent written
  leaves seq small covered left := by
    rw [notified.step] at left
    have coveredBefore : noted.txWindow.Covers seq := by
      rw [BlockAckWindow.Covers, notified.start, notified.size]
      exact covered
    rcases notified.slid.leaves small notified.valid coveredBefore left with shown | excused
    · exact (notified.shows seq shown).symm.imp_right And.right
    · exact .inr (excused seq (by rw [notified.start]))

/-- The number of an MPDU that is transmitted stands for its sequence number. -/
theorem Sound.number_mod (sound : self.Sound startingSeq bufferSize) {mpdu : WifiMacQueueItem}
    (small : mpdu.sequenceNumber < 4096) :
    (startingSeq + number self.originator mpdu) % 4096 = mpdu.sequenceNumber := by
  have start := sound.originator.start
  have reached := add_getDistance small sound.originator.window.start
  unfold number
  rw [sound.originator.distance_eq small]
  split <;> omega

theorem outstanding_perform {transmission : Transmission}
    (outstanding : transmission ∈ (self.perform action).outstanding) :
    transmission ∈ self.outstanding ∨
      ∃ mpdu, action = .transmit mpdu ∧ transmission = ⟨number self.originator mpdu, mpdu⟩ := by
  cases action with
  | receive reception => exact .inl outstanding
  | answer => exact .inl outstanding
  | transmit mpdu =>
      rcases List.mem_cons.mp outstanding with rfl | before
      · exact .inr ⟨mpdu, rfl, rfl⟩
      · exact .inl before
  | acknowledge header acknowledged => exact .inl (List.mem_of_mem_erase outstanding)
  | discard mpdu => exact .inl (List.mem_of_mem_filter outstanding)

theorem Notified.originator (notified : Notified self action noted after)
    (sound : self.Sound startingSeq bufferSize) : after.Valid startingSeq bufferSize :=
  notified.slid.valid (by rw [notified.start, notified.advanced, sound.originator.start])
    (notified.size.trans sound.originator.size)

theorem Sound.scoreboard_perform (sound : self.Sound startingSeq bufferSize)
    (enabled : machine.Enabled self action) : (self.perform action).recipient.scoreboard.Valid := by
  cases action with
  | receive reception =>
      change (RecipientBlockAckAgreement.machine.step self.recipient reception).scoreboard.Valid
      rw [RecipientBlockAckAgreement.scoreboard_step]
      cases reception with
      | mpdu item => exact RecipientBlockAckAgreement.valid_scoreMpdu sound.scoreboard
      | bar startingSequenceNumber =>
          exact RecipientBlockAckAgreement.valid_scoreBar sound.scoreboard enabled
  | answer => exact sound.scoreboard
  | transmit mpdu => exact sound.scoreboard
  | acknowledge header transmission => exact sound.scoreboard
  | discard mpdu => exact sound.scoreboard

/-- After a transmission the window has moved so that the MPDU is in it, or the
MPDU was old. -/
theorem Sound.number_lt (sound : self.Sound startingSeq bufferSize) {mpdu : WifiMacQueueItem}
    (small : mpdu.sequenceNumber < 4096) (ended : self.notify (.transmit mpdu) = some after) :
    number self.originator mpdu < after.advanced + bufferSize ∧
      number self.originator mpdu < after.advanced + 2048 := by
  obtain ⟨_, same, slid, within⟩ := sound.originator.notifyTransmittedMpdu mpdu
  obtain rfl := Option.some.inj (ended.symm.trans same)
  have further := slid.advanced
  have space : self.originator.distance mpdu < 4096 := by
    rw [sound.originator.distance_eq small]
    exact getDistance_lt small sound.originator.window.start
  unfold number
  split
  next recent =>
    have inside := within recent
    omega
  next => omega

theorem Sound.step (sound : self.Sound startingSeq bufferSize)
    (enabled : machine.Enabled self action) (recent : Recent self action) :
    (machine.step self action).Sound startingSeq bufferSize := by
  obtain ⟨noted, after, notified⟩ := sound.notified enabled recent
  have further : self.originator.advanced ≤ after.advanced :=
    notified.advanced ▸ notified.slid.advanced
  rw [notified.step]
  exact {
    scoreboard := sound.scoreboard_perform enabled
    originator := notified.originator sound
    small := fun transmission outstanding => by
      rcases outstanding_perform outstanding with before | ⟨mpdu, rfl, rfl⟩
      · exact sound.small transmission before
      · exact enabled
    numbered := fun transmission outstanding => by
      rcases outstanding_perform outstanding with before | ⟨mpdu, rfl, rfl⟩
      · exact sound.numbered transmission before
      · exact sound.number_mod enabled
    within := fun transmission outstanding => by
      rcases outstanding_perform outstanding with before | ⟨mpdu, rfl, rfl⟩
      · have within := sound.within transmission before
        change transmission.number < (after.advanced : Int) + bufferSize ∧
          transmission.number < (after.advanced : Int) + 2048
        omega
      · exact sound.number_lt enabled notified.ends }

/-- Only an acknowledgment marks a position of the transmit window. -/
theorem Sound.shows_originator (sound : self.Sound startingSeq bufferSize)
    (enabled : machine.Enabled self action) (recent : Recent self action) {seq : Nat}
    (shown : (machine.step self action).originator.txWindow.Shows seq) :
    Acknowledges seq self action ∨ self.originator.txWindow.Shows seq := by
  obtain ⟨noted, after, notified⟩ := sound.notified enabled recent
  rw [notified.step] at shown
  exact (notified.shows seq (notified.slid.moved.shows shown)).imp_left And.left

/-- Only the reception of an MPDU sets a bit of the scoreboard. -/
theorem Sound.shows_scoreboard (sound : self.Sound startingSeq bufferSize)
    (enabled : machine.Enabled self action) {seq : Nat}
    (shown : (machine.step self action).recipient.scoreboard.Shows seq) :
    Receives seq self action ∨ self.recipient.scoreboard.Shows seq := by
  have caused : (self.perform action).recipient.scoreboard.Shows seq →
      Receives seq self action ∨ self.recipient.scoreboard.Shows seq := by
    intro shown
    cases action with
    | receive reception =>
        change (RecipientBlockAckAgreement.machine.step self.recipient
          reception).scoreboard.Shows seq at shown
        rw [RecipientBlockAckAgreement.scoreboard_step] at shown
        cases reception with
        | mpdu item =>
            exact (RecipientBlockAckAgreement.shows_of_scoreMpdu sound.scoreboard enabled
              shown).imp_left fun same => ⟨item, rfl, same.symm⟩
        | bar startingSequenceNumber =>
            exact .inr (RecipientBlockAckAgreement.shows_of_scoreBar sound.scoreboard shown)
    | answer => exact .inr shown
    | transmit mpdu => exact .inr shown
    | acknowledge header transmission => exact .inr shown
    | discard mpdu => exact .inr shown
  change (match self.notify action with
    | none => self
    | some originator => { self.perform action with originator := originator
      }).recipient.scoreboard.Shows seq at shown
  split at shown
  · exact .inr shown
  · exact caused shown

/-- The Block Ack agreement is sound from end to end. -/
theorem blockAck_sound {bufferSize startingSeq : Nat} (positive : 0 < bufferSize)
    (small : startingSeq < 4096) {actions : List Action}
    (legal : machine.Legal (create bufferSize startingSeq) actions)
    (recent : machine.Along Recent (create bufferSize startingSeq) actions) :
    (∀ seq < 4096,
      (machine.run (create bufferSize startingSeq) actions).recipient.blockAck.isPacketReceived seq →
      machine.Since (·.recipient.scoreboard.Covers seq) (Receives seq)
        (create bufferSize startingSeq) actions) ∧
    (∀ seq, (machine.run (create bufferSize startingSeq) actions).originator.txWindow.Shows seq →
      machine.Since (·.originator.txWindow.Covers seq) (Acknowledges seq)
        (create bufferSize startingSeq) actions) ∧
    machine.Always (·.originator.txWindow.at' 0 = false) (create bufferSize startingSeq) actions ∧
    machine.Along Keeps (create bufferSize startingSeq) actions := by
  have always := legal.always_of_along
    (fun _ _ (sound : Sound startingSeq bufferSize _) => sound.step) (.create small positive) recent
  refine ⟨fun seq seqSmall received => ?_, fun seq shown => ?_,
    always.mono fun _ sound => sound.originator.first, ?_⟩
  · have shown := RecipientBlockAckAgreement.shows_of_isPacketReceived
      always.last.scoreboard.start seqSmall received
    exact (always.since (·.recipient.scoreboard.Shows seq)
      (fun _ sound shown => shown.covers sound.scoreboard)
      (fun _ _ sound enabled _ => sound.shows_scoreboard enabled) legal recent
      shown).resolve_right fun initial => BlockAckWindow.not_shows_init initial.1
  · exact (always.since (·.originator.txWindow.Shows seq)
      (fun _ sound shown => shown.covers sound.originator.window)
      (fun _ _ sound enabled guard => sound.shows_originator enabled guard) legal recent
      shown).resolve_right fun initial => BlockAckWindow.not_shows_init initial.1
  · refine recent.mono (fun _ _ sound enabled guard => ?_) always legal
    obtain ⟨noted, after, notified⟩ := sound.notified enabled guard
    exact notified.keeps sound enabled guard

/-- The third data frame of a run arrives before the second, and the Block Ack
acknowledges both that arrived. -/
def exchangeRun : List Action :=
  let frame := RecipientBlockAckAgreement.dataFrame
  let header : CtrlBAckResponseHeader := ⟨10, [5, 0, 0, 0, 0, 0, 0, 0]⟩
  [.transmit (frame 1 10), .transmit (frame 2 11), .transmit (frame 3 12),
    .receive (.mpdu (frame 3 12)), .receive (.mpdu (frame 1 10)), .answer,
    .acknowledge header ⟨2, frame 3 12⟩, .acknowledge header ⟨0, frame 1 10⟩,
    .transmit (frame 4 18), .discard (frame 2 11)]

theorem blockAck_sound_short_run :
    machine.Along Keeps (create 4 10) exchangeRun ∧
      (machine.run (create 4 10) exchangeRun).originator.txWindow.winStart = 15 :=
  ⟨(blockAck_sound (by decide) (by decide) (by decide) (by decide)).2.2.2, by decide⟩

/-- The window is pushed more than half the sequence number space past an MPDU
by transmissions beyond it, and then the MPDU is acknowledged. -/
def staleRun : List Action :=
  let frame := RecipientBlockAckAgreement.dataFrame
  [.transmit (frame 1 0), .receive (.mpdu (frame 1 0)), .answer, .transmit (frame 2 2047),
    .transmit (frame 3 2052), .acknowledge ⟨0, [1, 0, 0, 0, 0, 0, 0, 0]⟩ ⟨0, frame 1 0⟩]

theorem blockAck_writes_past_window :
    machine.Legal (create 4 0) staleRun ∧
      (machine.run (create 4 0) staleRun.dropLast).written (staleRun.getLast (by decide)) =
        some 2047 ∧
      ¬ machine.Along Keeps (create 4 0) staleRun := by
  refine ⟨by decide, by decide, ?_⟩
  rintro ⟨-, -, -, -, -, last, -⟩
  exact absurd (last.inside 2047 (by decide)) (by decide)

end BlockAckExchange

end Ns3.Wifi
