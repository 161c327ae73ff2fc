import Ns3.Lte.RlcUm.Reception

/-!
What the upper layer gets from a session of two entities.

Whatever is lost, sent twice or overtaken, and whenever the reordering timer expires, SDUs are
delivered as they were accepted and in this order. The receiving entity takes the numbers in the
buffer in the order of a `std::map`, and looks for the next VR(UR) with a counter that does not
come round. Both go wrong where the numbers of the buffer wrap, so `Smooth` leaves these arrivals
out.
-/

namespace Ns3.Lte.LteRlcUm

open Library

variable {fields : List (List Segment)} {sent : List Pdu} {next low timed high : Nat}
  {Held : Nat → Prop} {receiver : Receiver}

/-- What is sent later does not matter to what has arrived. -/
theorem Receiving.extend (receiving : Receiving fields sent next low timed high Held receiver)
    (length : fields.length = sent.length) (reached : high ≤ sent.length)
    (moreFields : List (List Segment)) (moreSent : List Pdu) :
    Receiving (fields ++ moreFields) (sent ++ moreSent) next low timed high Held receiver := by
  have done := receiving.done
  have below := receiving.below
  obtain ⟨assembled, pending, buffers⟩ := receiving.processing
  refine { receiving with processing := ⟨{ assembled with progress := ?_ }, pending, ?_⟩ }
  · rw [List.take_append_of_le_length (by omega)]
    exact assembled.progress
  · refine { buffers with find := fun sn pdu => ?_, held := fun number held => ?_ }
    · rw [buffers.find]
      refine exists_congr fun number => and_congr_right fun held => and_congr_right fun _ => ?_
      rw [List.getElem?_append_left (buffers.held number held)]
    · rw [List.length_append]
      exact (buffers.held number held).trans_le (Nat.le_add_right _ _)

namespace Session

variable {session : Session}

/-- The SDUs were delivered in order, VR(UR) is missing, and the buffer is within the window. -/
def InOrder (session : Session) : Prop :=
  session.receiver.delivered.Sublist session.accepted ∧
    session.receiver.rxBuffer.find session.receiver.vrUr.value = none ∧
    ∀ entry ∈ session.receiver.rxBuffer.entries,
      session.receiver.isInsideReorderingWindow (.ofNat entry.1) = true

/-- A PDU that arrives leaves no gap behind the wrap of the numbers. -/
def Smooth (session : Session) : Event → Prop
  | .receivePdu number =>
      session.receiver.Straight (number % 1024) ∧ session.receiver.Interrupted (number % 1024)
  | _ => True

instance (session : Session) : (event : Event) → Decidable (session.Smooth event)
  | .receivePdu _ => inferInstanceAs (Decidable (_ ∧ _))
  | .transmitPdcpPdu _ | .notifyTxOpportunity _ | .expireReorderingTimer =>
      inferInstanceAs (Decidable True)

/-- What a session keeps. -/
structure Invariant (session : Session) : Prop where
  reached : session.top ≤ session.sent.length
  flows : ∃ fields, Sending session.transmitter session.accepted session.sent fields ∧
    ∃ next low timed Held,
      Receiving fields session.sent next low timed session.top Held session.receiver

theorem invariant_initial : Invariant {} where
  reached := le_rfl
  flows := by
    refine ⟨[], .initial, 0, 0, 0, fun _ => False, ?_⟩
    refine ⟨⟨⟨rfl, rfl, [], none, rfl, .refl _, by simp⟩, ?_, ?_⟩, rfl, rfl, le_rfl, le_rfl,
      by simp, by simp, by simp⟩
    · exact ⟨by simp, by simp, .inl rfl⟩
    · exact ⟨by simp [OrderedMap.find_empty], by simp, by simp⟩

theorem Invariant.step (invariant : Invariant session) {event : Event}
    (enabled : session.Enabled event) (smooth : session.Smooth event) :
    Invariant (session.step event) := by
  obtain ⟨reached, fields, sending, next, low, timed, Held, receiving⟩ := invariant
  cases event with
  | transmitPdcpPdu p =>
      exact ⟨reached, fields, sending.transmit enabled, next, low, timed, Held, receiving⟩
  | notifyTxOpportunity bytes =>
      obtain ⟨more, sending'⟩ := sending.opportunity bytes
      refine ⟨?_, _, sending', next, low, timed, Held,
        receiving.extend sending.length reached _ _⟩
      simp only [Session.step, List.length_append]
      exact reached.trans (Nat.le_add_right _ _)
  | receivePdu number =>
      obtain ⟨inside, lower, upper⟩ := enabled
      have isSent := List.getElem?_eq_getElem inside
      have isField := List.getElem?_eq_getElem (sending.length ▸ inside)
      obtain ⟨next', low', timed', Held', receiving'⟩ := receiving.receive sending.stream isSent
        (sending.carries number _ _ isSent isField).sequenceNumber lower upper smooth.1 smooth.2
      simp only [Session.step, isSent]
      exact ⟨max_le reached inside, fields, sending, next', low', timed', Held', receiving'⟩
  | expireReorderingTimer =>
      obtain ⟨next', low', timed', Held', receiving'⟩ := receiving.expire sending.stream enabled
      exact ⟨reached, fields, sending, next', low', timed', Held', receiving'⟩

theorem Invariant.inOrder (invariant : Invariant session) : session.InOrder := by
  obtain ⟨reached, fields, sending, next, low, timed, Held, receiving⟩ := invariant
  have window := receiving.window
  have below := receiving.below
  refine ⟨?_, ?_, fun entry member => ?_⟩
  · obtain ⟨sdus, begun, assembled, delivered, _⟩ := receiving.processing.assembled.progress
    have whole := sending.assembled
    rw [← List.take_append_drop next fields, List.flatten_append, List.append_assoc] at whole
    obtain ⟨early, between, late, first, _, accepted⟩ := assemble_first whole
    rw [assembled] at first
    cases first
    rw [accepted]
    exact delivered.trans (List.sublist_append_left _ _)
  · rw [receiving.vrUr]
    have absent := receiving.processing.isSome_iff
      (fun number held => (receiving.above number held).le) window le_rfl (by omega)
    rw [Option.eq_none_iff_forall_ne_some]
    intro pdu found
    exact absurd (receiving.above low (absent.mp (by simp [found]))) (lt_irrefl _)
  · obtain ⟨number, held, isSn, _⟩ := (receiving.processing.buffers.find entry.1 entry.2).mp
      (OrderedMap.find_eq_some_iff.mpr member)
    have := receiving.above number held
    have := (receiving.processing.pending.ahead number held).2
    rw [isInside_iff receiving.vrUh (show _ = number % 1024 by simp [SequenceNumber10.ofNat, ← isSn])
      (by omega) (by omega)]
    omega

/-- In every run the SDUs are delivered in order, none twice and none changed, as long as the
numbers in the buffer do not wrap around a gap. -/
theorem always_inOrder {events : List Event} (legal : sessions.Legal {} events)
    (smooth : sessions.Along Smooth {} events) : sessions.Always InOrder {} events :=
  (Machine.Legal.always_of_along (fun _ _ invariant enabled smooth => invariant.step enabled smooth)
    invariant_initial legal smooth).mono fun _ invariant => invariant.inOrder

/-- Two SDUs are sent in three PDUs, the last of which comes first, and the second one is lost. -/
theorem always_inOrder_overtaken :
    let events := [.transmitPdcpPdu [1, 2, 3, 4], .transmitPdcpPdu [5], .notifyTxOpportunity 4,
      .notifyTxOpportunity 4, .notifyTxOpportunity 4, .receivePdu 2, .receivePdu 0,
      .expireReorderingTimer]
    sessions.Legal {} events ∧ sessions.Along Smooth {} events ∧
      sessions.Always InOrder {} events := by
  intro events
  have legal : sessions.Legal {} events := by decide
  have smooth : sessions.Along Smooth {} events := by decide +kernel
  exact ⟨legal, smooth, always_inOrder legal smooth⟩

/-- SDUs of one byte are accepted and sent at once. -/
def rounds : Nat → List Event
  | 0 => []
  | count + 1 => .transmitPdcpPdu [0] :: .notifyTxOpportunity 3 :: rounds count

/-- The PDU of such an SDU. -/
def roundPdu (number : Nat) : Pdu := ⟨⟨⟨false, false⟩, number % 1024, [false], []⟩, [0]⟩

/-- The session after rounds. -/
def afterRounds (count : Nat) : Session where
  transmitter := { sequenceNumber := ⟨count % 1024, 0⟩ }
  accepted := List.replicate count [0]
  sent := (List.range count).map roundPdu

theorem afterRounds_step (count : Nat) :
    ((afterRounds count).step (.transmitPdcpPdu [0])).step (.notifyTxOpportunity 3) =
      afterRounds (count + 1) := by
  have accepted : List.replicate count [(0 : UInt8)] ++ [[0]] = List.replicate (count + 1) [0] :=
    List.replicate_succ'.symm
  have sent : (List.range count).map roundPdu ++ [roundPdu count] =
      (List.range (count + 1)).map roundPdu := by
    rw [List.range_succ, List.map_append, List.map_singleton]
  rw [afterRounds, afterRounds, ← accepted, ← sent]
  simp [Session.step, Transmitter.doTransmitPdcpPdu, Transmitter.accepts,
    Transmitter.doNotifyTxOpportunity, Transmitter.buildPdu, Built.fill, Built.last, Segment.size,
    Segment.hasFirstByte, Segment.hasLastByte, SequenceNumber10.increment, roundPdu, wrap, wrapSub]

theorem rounds_run (count before : Nat) (events : List Event) :
    (sessions.Legal (afterRounds before) (rounds count ++ events) ↔
        sessions.Legal (afterRounds (before + count)) events) ∧
      sessions.run (afterRounds before) (rounds count ++ events) =
        sessions.run (afterRounds (before + count)) events := by
  induction count generalizing before with
  | zero => exact ⟨.rfl, rfl⟩
  | succ count inductionHypothesis =>
      have step : sessions.step (sessions.step (afterRounds before) (.transmitPdcpPdu [0]))
          (.notifyTxOpportunity 3) = afterRounds (before + 1) := afterRounds_step before
      obtain ⟨legal, run⟩ := inductionHypothesis (before + 1)
      rw [Nat.add_right_comm, Nat.add_assoc] at legal run
      simp only [rounds, List.cons_append, Machine.Legal, Machine.run_cons, step, legal, run]
      simp [sessions, Session.Enabled]

/-- A PDU that fell out of the window stays in the buffer, for a later one has the number 0. -/
theorem not_always_inOrder :
    ¬ ∀ events, sessions.Legal {} events → sessions.Always InOrder {} events := by
  intro always
  rw [show ({} : Session) = afterRounds 0 from rfl] at always
  obtain ⟨legal, run⟩ :=
    rounds_run 1025 0 [.receivePdu 500, .receivePdu 1000, .receivePdu 1024]
  have last := (always _ (legal.mpr (by decide +kernel))).last
  rw [run] at last
  exact absurd (last.2.2 (500, roundPdu 500) (by decide +kernel)) (by decide +kernel)

end Session

end Ns3.Lte.LteRlcUm
