import Ns3.Lte.RlcUm.Lossless
import Ns3.Lte.RlcUm.Reception

/-!
Two entities in unacknowledged mode over a link that loses and reorders nothing.

Every PDU goes straight through the reception buffer, the reordering timer is never started, and
the upper layer gets the SDUs that were accepted, all of them and in their order.
-/

namespace Ns3.Lte.LteRlcUm

open Library

variable {receiver later : Receiver} {pdu : Pdu} {number : Nat}

/-- What reassembling reads and writes is the same. -/
structure SameProgress (receiver later : Receiver) : Prop where
  expected : later.expectedSeqNumber = receiver.expectedSeqNumber
  sdus : later.sdusBuffer = receiver.sdusBuffer
  state : later.reassemblingState = receiver.reassemblingState
  kept : later.keepS0 = receiver.keepS0
  delivered : later.delivered = receiver.delivered

theorem SameProgress.trans {last : Receiver} (first : SameProgress receiver later)
    (second : SameProgress later last) : SameProgress receiver last :=
  ⟨second.expected.trans first.expected, second.sdus.trans first.sdus,
    second.state.trans first.state, second.kept.trans first.kept,
    second.delivered.trans first.delivered⟩

theorem InOrder.of_same {fields : List (List Segment)} (inOrder : InOrder fields receiver)
    (same : SameProgress receiver later) : InOrder fields later := by
  refine ⟨?_, ?_, ?_⟩
  · rw [same.expected]
    exact inOrder.expected
  · rw [same.sdus]
    exact inOrder.emptied
  · obtain ⟨begun, assembled, awaits⟩ := inOrder.progress
    refine ⟨begun, by rwa [same.delivered], ?_⟩
    cases begun with
    | none => exact same.state.trans awaits
    | some front => exact ⟨same.state.trans awaits.1, same.kept.trans awaits.2⟩

/-- All PDUs before a number have come. -/
structure Synced (number : Nat) (receiver : Receiver) : Prop where
  vrUr : receiver.vrUr.value = number % 1024
  vrUh : receiver.vrUh.value = number % 1024
  emptied : receiver.rxBuffer.entries = []
  stopped : receiver.reorderingTimer = false

/-- The PDU with the number is in the buffer. -/
structure Placed (number high : Nat) (pdu : Pdu) (receiver : Receiver) : Prop where
  vrUr : receiver.vrUr = .at' (number + 1024) (number + 512)
  vrUh : receiver.vrUh.value = high % 1024
  entries : receiver.rxBuffer.entries = [(number % 1024, pdu)]
  stopped : receiver.reorderingTimer = false

namespace Placed

variable {high : Nat}

theorem find (placed : Placed number high pdu receiver) (sn : Nat) :
    receiver.rxBuffer.find sn = if sn = number % 1024 then some pdu else none := by
  rw [OrderedMap.find, placed.entries]
  split
  case isTrue same => simp [same]
  case isFalse other => simpa using Ne.symm other

theorem rebase (placed : Placed number high pdu receiver) :
    Placed number high pdu receiver.rebase :=
  ⟨placed.vrUr, placed.vrUh, placed.entries, placed.stopped⟩

/-- The number is inside the window that it has moved. -/
theorem inside (placed : Placed number (number + 1) pdu receiver) {seqNumber : SequenceNumber10}
    (value : seqNumber.value = number % 1024) :
    receiver.isInsideReorderingWindow seqNumber = true :=
  (isInside_iff placed.vrUh value (by omega) (by omega)).mpr ⟨by omega, by omega⟩

theorem reassembleOutsideWindow (placed : Placed number (number + 1) pdu receiver) :
    receiver.reassembleOutsideWindow = receiver.rebase := by
  rw [Receiver.reassembleOutsideWindow, placed.entries, Receiver.outsideLoop,
    if_pos (placed.inside (Nat.mod_mod _ _))]

theorem keepVrUrInside (placed : Placed number (number + 1) pdu receiver) :
    receiver.keepVrUrInside = receiver.rebase := by
  rw [Receiver.keepVrUrInside, if_pos (placed.inside (by simp [placed.vrUr]))]

/-- The window moves to the number, and nothing falls out of it. -/
theorem moveWindow {seqNumber : SequenceNumber10} (placed : Placed number number pdu receiver)
    (value : seqNumber.value = number % 1024) :
    Placed number (number + 1) pdu (receiver.moveWindow seqNumber) ∧
      SameProgress receiver (receiver.moveWindow seqNumber) := by
  have outside : receiver.isInsideReorderingWindow seqNumber = false := by
    rw [← Bool.not_eq_true, isInside_iff placed.vrUh value (by omega) (by omega)]
    omega
  have moved : Placed number (number + 1) pdu
      { receiver.rebase with vrUh := seqNumber.add 1 } :=
    ⟨placed.vrUr, by simp [SequenceNumber10.add, value], placed.entries, placed.stopped⟩
  rw [Receiver.moveWindow, outside, if_neg (by decide), moved.reassembleOutsideWindow,
    moved.rebase.keepVrUrInside]
  exact ⟨moved.rebase.rebase, rfl, rfl, rfl, rfl, rfl⟩

/-- The loop over the interval takes the PDU. -/
theorem reassembleSnInterval {before : Receiver}
    (here : before.rxBuffer.find (number % 1024) = some pdu) :
    before.reassembleSnInterval (.at' (number + 1024) (number + 512))
        (.at' (number + 1 + 1024) (number + 512)) =
      { before.reassembleAndDeliver pdu with
        rxBuffer := (before.reassembleAndDeliver pdu).rxBuffer.erase (number % 1024) } := by
  have next : number + 1024 + 1 = number + 1 + 1024 := by omega
  rw [Receiver.reassembleSnInterval, Receiver.intervalLoop,
    SequenceNumber10.lt_at (by omega) (by omega) (by omega) (by omega),
    if_pos (by simp), SequenceNumber10.value_at, Nat.add_mod_right, here,
    SequenceNumber10.increment_at, next]
  dsimp only
  rw [Receiver.intervalLoop, SequenceNumber10.lt_at (by omega) (by omega) (by omega) (by omega),
    if_neg (by simp)]

/-- VR(UR) moves past the number, and its PDU is reassembled. -/
theorem moveVrUr (placed : Placed number (number + 1) pdu receiver) :
    Synced (number + 1) receiver.moveVrUr ∧ ∃ before, SameProgress receiver before ∧
      SameProgress (before.reassembleAndDeliver pdu) receiver.moveVrUr := by
  have value : receiver.vrUr.value = number % 1024 := by
    rw [placed.vrUr, SequenceNumber10.value_at, Nat.add_mod_right]
  have here : receiver.rxBuffer.find (number % 1024) = some pdu := by rw [placed.find, if_pos rfl]
  have missing : Receiver.firstMissing receiver.rxBuffer 1024 (wrap 16 (number % 1024 + 1)) =
      number % 1024 + 1 := by
    have absent : receiver.rxBuffer.find (number % 1024 + 1) = none := by
      rw [placed.find]
      exact if_neg (by omega)
    rw [wrap_of_lt (by omega), Receiver.firstMissing, absent, if_neg (by decide)]
  have assigned : receiver.vrUr.assign (number % 1024 + 1) =
      .at' (number + 1 + 1024) (number + 512) := by
    apply SequenceNumber10.eq_at
    · show (number % 1024 + 1) % 1024 = _
      omega
    · show receiver.vrUr.modulusBase = _
      rw [placed.vrUr]
      rfl
  obtain ⟨before, isBefore⟩ : ∃ before : Receiver, before =
      { receiver with vrUr := .at' (number + 1 + 1024) (number + 512) } := ⟨_, rfl⟩
  have moves : receiver.moveVrUr = { before.reassembleAndDeliver pdu with
      rxBuffer := (before.reassembleAndDeliver pdu).rxBuffer.erase (number % 1024) } := by
    rw [Receiver.moveVrUr, value, here, Option.isSome_some, if_pos rfl, missing]
    dsimp only
    rw [assigned, placed.vrUr, ← isBefore]
    exact reassembleSnInterval (isBefore ▸ here)
  obtain ⟨unmoved, rxBuffer⟩ := reassembleAndDeliver_unmoved before pdu
  rw [moves]
  refine ⟨⟨?_, ?_, ?_, ?_⟩, before, isBefore ▸ ⟨rfl, rfl, rfl, rfl, rfl⟩,
    ⟨rfl, rfl, rfl, rfl, rfl⟩⟩
  · dsimp only
    rw [unmoved.vrUr, isBefore]
    exact Nat.add_mod_right ..
  · dsimp only
    rw [unmoved.vrUh, isBefore]
    exact placed.vrUh
  · dsimp only
    rw [rxBuffer, OrderedMap.erase, isBefore]
    simp [placed.entries]
  · dsimp only
    rw [unmoved.timer, isBefore]
    exact placed.stopped

end Placed

section Synced

variable (synced : Synced number receiver)
include synced

/-- The state variables, seen from the base of the window. -/
theorem Synced.positions :
    receiver.vrUr.setModulusBase receiver.windowBase = .at' (number + 1024) (number + 512) ∧
      receiver.vrUh.setModulusBase receiver.windowBase = .at' (number + 1024) (number + 512) :=
  ⟨setModulusBase_window synced.vrUh (synced.vrUr.trans (Nat.add_mod_right ..).symm),
    setModulusBase_window synced.vrUh (synced.vrUh.trans (Nat.add_mod_right ..).symm)⟩

/-- The timer is not needed. -/
theorem Synced.updateTimer :
    Synced number receiver.updateTimer ∧ SameProgress receiver receiver.updateTimer := by
  have idle : (SequenceNumber10.at' (number + 1024) (number + 512)).gt
      (.at' (number + 1024) (number + 512)) = false := by
    rw [SequenceNumber10.gt_at (by omega) (by omega) (by omega) (by omega)]
    simp
  rw [Receiver.updateTimer, synced.positions.1, synced.positions.2, synced.stopped]
  dsimp only [Bool.false_and]
  rw [idle, Bool.and_false, if_neg (by decide)]
  refine ⟨⟨?_, ?_, synced.emptied, rfl⟩, rfl, rfl, rfl, rfl, rfl⟩
  · exact Nat.add_mod_right ..
  · exact Nat.add_mod_right ..

/-- The next PDU is reassembled when it comes. -/
theorem Synced.doReceivePdu (isNext : pdu.header.sequenceNumber = number % 1024) :
    Synced (number + 1) (receiver.doReceivePdu pdu) ∧ ∃ before, SameProgress receiver before ∧
      SameProgress (before.reassembleAndDeliver pdu) (receiver.doReceivePdu pdu) := by
  obtain ⟨vrUr, vrUh⟩ := synced.positions
  have seqNumber : (SequenceNumber10.ofNat pdu.header.sequenceNumber).setModulusBase
      receiver.windowBase = .at' (number + 1024) (number + 512) := by
    apply setModulusBase_window synced.vrUh
    rw [isNext]
    exact (Nat.mod_mod _ _).trans (Nat.add_mod_right ..).symm
  have value : (SequenceNumber10.at' (number + 1024) (number + 512)).value = number % 1024 := by
    rw [SequenceNumber10.value_at, Nat.add_mod_right]
  rw [Receiver.doReceivePdu, vrUr, vrUh, seqNumber]
  dsimp only
  rw [if_neg]
  · have placed : Placed number number pdu
        { receiver with
          vrUr := .at' (number + 1024) (number + 512)
          vrUh := .at' (number + 1024) (number + 512)
          rxBuffer := receiver.rxBuffer.insert
            (SequenceNumber10.at' (number + 1024) (number + 512)).value pdu } := by
      refine ⟨rfl, value, ?_, synced.stopped⟩
      rw [OrderedMap.insert, value]
      simp only [synced.emptied]
      rfl
    obtain ⟨moved, same⟩ := placed.moveWindow value
    obtain ⟨advanced, before, sameBefore, reassembled⟩ := moved.moveVrUr
    obtain ⟨rests, sameAfter⟩ := advanced.updateTimer
    have reached : SameProgress receiver before :=
      ⟨sameBefore.expected.trans same.expected, sameBefore.sdus.trans same.sdus,
        sameBefore.state.trans same.state, sameBefore.kept.trans same.kept,
        sameBefore.delivered.trans same.delivered⟩
    exact ⟨rests, before, reached, reassembled.trans sameAfter⟩
  · rw [discards_iff (by omega) (by omega) le_rfl (by omega)]
    omega

end Synced

/-- An entity that has got the PDUs with these data fields, all of them and in turn. -/
structure InTurn (fields : List (List Segment)) (receiver : Receiver) : Prop where
  inOrder : InOrder fields receiver
  synced : Synced fields.length receiver

theorem InTurn.initial : InTurn [] {} := ⟨.initial, rfl, rfl, rfl, rfl⟩

theorem InTurn.doReceivePdu {fields : List (List Segment)} {segments : List Segment}
    (inTurn : InTurn fields receiver) (carries : Carries fields.length pdu segments)
    (coherent : ∃ sdus left, assemble none (fields ++ [segments]).flatten = some (sdus, left)) :
    InTurn (fields ++ [segments]) (receiver.doReceivePdu pdu) := by
  obtain ⟨synced, before, same, reassembled⟩ :=
    inTurn.synced.doReceivePdu carries.sequenceNumber
  refine ⟨((inTurn.inOrder.of_same same).next coherent carries).of_same reassembled, ?_⟩
  rw [List.length_append, List.length_singleton]
  exact synced

namespace Session

variable {session : Session}

/-- PDUs arrive in turn, the size of the transmission buffer does not overflow, and the length of
a header, which has 16 bits, does not. -/
def Orderly (session : Session) : Event → Prop
  | .transmitPdcpPdu p => session.transmitter.txBufferSize + p.length < 2 ^ 32
  | .notifyTxOpportunity bytes => bytes < 2 ^ 16
  | .receivePdu number => number = session.top
  | .expireReorderingTimer => True

instance (session : Session) : (event : Event) → Decidable (session.Orderly event)
  | .transmitPdcpPdu _ | .notifyTxOpportunity _ => inferInstanceAs (Decidable (_ < _))
  | .receivePdu _ => inferInstanceAs (Decidable (_ = _))
  | .expireReorderingTimer => inferInstanceAs (Decidable True)

/-- A PDU is written into an opportunity and is read back. -/
structure Written (bytes : Nat) (pdu : Pdu) : Prop where
  fits : pdu.header.getSerializedSize + pdu.data.length ≤ bytes
  size : pdu.header.serialize.length = pdu.header.getSerializedSize
  restores : LteRlcHeader.deserialize (pdu.header.serialize ++ pdu.data) =
    some (pdu.header, pdu.data)

/-- What a link without losses is for. Every opportunity of three bytes or more takes something
from a transmission buffer that is not empty. -/
structure Lossless (session : Session) : Prop where
  inOrder : session.receiver.delivered <+: session.accepted
  complete : session.top = session.sent.length → session.transmitter.txBuffer = [] →
    session.receiver.delivered = session.accepted
  straight : session.receiver.rxBuffer.entries = [] ∧ session.receiver.reorderingTimer = false
  counted : session.transmitter.txBufferSize = totalSize session.transmitter.txBuffer
  sends : ∀ bytes, 3 ≤ bytes → bytes < 2 ^ 16 → session.transmitter.txBuffer ≠ [] →
    ∃ later pdu, session.transmitter.doNotifyTxOpportunity bytes = (later, some pdu) ∧
      Written bytes pdu ∧ totalSize later.txBuffer < totalSize session.transmitter.txBuffer

/-- What such a session keeps. -/
structure Flowing (session : Session) : Prop where
  reached : session.top ≤ session.sent.length
  flows : ∃ fields, Sending session.transmitter session.accepted session.sent fields ∧
    InTurn (fields.take session.top) session.receiver
  counted : session.transmitter.txBufferSize = totalSize session.transmitter.txBuffer
  small : totalSize session.transmitter.txBuffer < 2 ^ 32

theorem Flowing.initial (maxTxBufferSize : Nat) :
    Flowing { transmitter := { maxTxBufferSize } } where
  reached := le_rfl
  flows := ⟨[], ⟨rfl, trivial, rfl, rfl, by simp⟩, .initial⟩
  counted := rfl
  small := Nat.two_pow_pos 32

theorem Flowing.transmit (flowing : Flowing session) {p : Bytes} (nonempty : p ≠ [])
    (fits : session.transmitter.txBufferSize + p.length < 2 ^ 32) :
    Flowing (session.step (.transmitPdcpPdu p)) := by
  obtain ⟨fields, sending, inTurn⟩ := flowing.flows
  have grown : (session.transmitter.doTransmitPdcpPdu p).txBufferSize =
      totalSize (session.transmitter.doTransmitPdcpPdu p).txBuffer ∧
      totalSize (session.transmitter.doTransmitPdcpPdu p).txBuffer < 2 ^ 32 := by
    rw [Transmitter.doTransmitPdcpPdu]
    split
    · dsimp only
      rw [wrap_of_lt fits, totalSize_append, flowing.counted]
      exact ⟨rfl, by rwa [flowing.counted] at fits⟩
    · exact ⟨flowing.counted, flowing.small⟩
  exact ⟨flowing.reached, ⟨fields, sending.transmit nonempty, inTurn⟩, grown.1, grown.2⟩

theorem Flowing.opportunity (flowing : Flowing session) (bytes : Nat) :
    Flowing (session.step (.notifyTxOpportunity bytes)) := by
  obtain ⟨fields, sending, inTurn⟩ := flowing.flows
  obtain ⟨more, sending'⟩ := sending.opportunity bytes
  have numbered : session.transmitter.sequenceNumber.value < 1024 := by
    rw [sending.numbered]
    exact Nat.mod_lt _ (by decide)
  have counted : (session.transmitter.doNotifyTxOpportunity bytes).1.txBufferSize =
      totalSize (session.transmitter.doNotifyTxOpportunity bytes).1.txBuffer ∧
      totalSize (session.transmitter.doNotifyTxOpportunity bytes).1.txBuffer < 2 ^ 32 := by
    rcases doNotifyTxOpportunity_cases sending.waiting numbered bytes with
      ⟨_, nothing⟩ | ⟨_, _, later, pdu, sends, _, shrinks, counts⟩
    · rw [nothing]
      exact ⟨flowing.counted, flowing.small⟩
    · rw [sends]
      exact ⟨counts flowing.counted flowing.small, shrinks.trans flowing.small⟩
  refine ⟨?_, ⟨fields ++ more, sending', ?_⟩, counted.1, counted.2⟩
  · simp only [Session.step, List.length_append]
    exact flowing.reached.trans (Nat.le_add_right _ _)
  · show InTurn ((fields ++ more).take session.top) session.receiver
    rwa [List.take_append_of_le_length (sending.length ▸ flowing.reached)]

theorem Flowing.receive (flowing : Flowing session) (inside : session.top < session.sent.length) :
    Flowing (session.step (.receivePdu session.top)) := by
  obtain ⟨fields, sending, inTurn⟩ := flowing.flows
  have isSent := List.getElem?_eq_getElem inside
  have insideFields : session.top < fields.length := sending.length ▸ inside
  have isField := List.getElem?_eq_getElem insideFields
  have taken : fields.take (session.top + 1) = fields.take session.top ++ [fields[session.top]] :=
    List.take_succ_eq_append_getElem insideFields
  have coherent : ∃ sdus left,
      assemble none (fields.take session.top ++ [fields[session.top]]).flatten =
        some (sdus, left) := by
    have whole := sending.assembled
    rw [← List.take_append_drop (session.top + 1) fields, List.flatten_append, List.append_assoc,
      taken] at whole
    obtain ⟨early, between, _, first, _, _⟩ := assemble_first whole
    exact ⟨early, between, first⟩
  have carries : Carries (fields.take session.top).length session.sent[session.top]
      fields[session.top] := by
    rw [List.length_take_of_le insideFields.le]
    exact sending.carries _ _ _ isSent isField
  have received := inTurn.doReceivePdu carries coherent
  simp only [Session.step, isSent]
  refine ⟨max_le flowing.reached inside, ⟨fields, sending, ?_⟩, flowing.counted, flowing.small⟩
  rw [max_eq_right (Nat.le_succ _)]
  exact taken ▸ received

theorem Flowing.step (flowing : Flowing session) {event : Event}
    (enabled : session.Enabled event) (orderly : session.Orderly event) :
    Flowing (session.step event) := by
  cases event with
  | transmitPdcpPdu p => exact flowing.transmit enabled orderly
  | notifyTxOpportunity bytes => exact flowing.opportunity bytes
  | receivePdu number =>
      obtain rfl : number = session.top := orderly
      exact flowing.receive enabled.1
  | expireReorderingTimer =>
      obtain ⟨fields, _, inTurn⟩ := flowing.flows
      have running : session.receiver.reorderingTimer = true := enabled
      rw [inTurn.synced.stopped] at running
      exact nomatch running

theorem Flowing.lossless (flowing : Flowing session) : Lossless session := by
  obtain ⟨fields, sending, inTurn⟩ := flowing.flows
  obtain ⟨begun, received, _⟩ := inTurn.inOrder.progress
  have whole := sending.assembled
  rw [← List.take_append_drop session.top fields, List.flatten_append, List.append_assoc] at whole
  obtain ⟨early, between, late, first, rest, accepted⟩ := assemble_first whole
  rw [received] at first
  cases first
  refine ⟨?_, ?_, ⟨inTurn.synced.emptied, inTurn.synced.stopped⟩, flowing.counted, ?_⟩
  · exact ⟨late, accepted.symm⟩
  · intro all empty
    rw [List.drop_of_length_le (by rw [sending.length, all]), empty] at rest
    obtain rfl : [] = late := (Prod.mk.inj (Option.some.inj rest)).1
    rw [accepted, List.append_nil]
  · intro bytes enough few waits
    have numbered : session.transmitter.sequenceNumber.value < 1024 := by
      rw [sending.numbered]
      exact Nat.mod_lt _ (by decide)
    rcases doNotifyTxOpportunity_cases sending.waiting numbered bytes with
      ⟨small | empty, _⟩ | ⟨_, _, later, pdu, sends, fits, shrinks, _⟩
    · exact absurd small (by omega)
    · exact absurd empty waits
    · have room := fits.room
      have size := LteRlcHeader.getSerializedSize_eq fits.marked (by omega)
      refine ⟨later, pdu, sends, ⟨?_, size.symm, ?_⟩, shrinks⟩
      · rw [size, LteRlcHeader.length_serialize fits.marked]
        exact room
      · exact LteRlcHeader.deserialize_serialize fits.marked fits.numbered fits.indicators _

/-- In every run over a link without losses the upper layer gets the SDUs that were accepted, with
any sizes of the SDUs, of the opportunities and of the transmission buffer. -/
theorem always_lossless {maxTxBufferSize : Nat} {events : List Event}
    (legal : sessions.Legal { transmitter := { maxTxBufferSize } } events)
    (orderly : sessions.Along Orderly { transmitter := { maxTxBufferSize } } events) :
    sessions.Always Lossless { transmitter := { maxTxBufferSize } } events := by
  have flows : sessions.Always Flowing { transmitter := { maxTxBufferSize } } events :=
    Machine.Legal.always_of_along (fun _ _ flowing enabled orderly => flowing.step enabled orderly)
      (Flowing.initial maxTxBufferSize) legal orderly
  exact flows.mono fun _ flowing => flowing.lossless

/-- Two SDUs in three PDUs. -/
theorem always_lossless_three :
    let events := [.transmitPdcpPdu [1, 2, 3, 4], .transmitPdcpPdu [5], .notifyTxOpportunity 4,
      .receivePdu 0, .notifyTxOpportunity 4, .notifyTxOpportunity 4, .receivePdu 1, .receivePdu 2]
    sessions.Always Lossless { transmitter := { maxTxBufferSize := 5 } } events := by
  intro events
  have legal : sessions.Legal { transmitter := { maxTxBufferSize := 5 } } events := by decide
  have orderly : sessions.Along Orderly { transmitter := { maxTxBufferSize := 5 } } events := by
    decide +kernel
  exact always_lossless legal orderly

end Session

end Ns3.Lte.LteRlcUm
