import Ns3.Lte.RlcUm.Kernel

/-!
The transmitting entity cuts the SDUs into segments without losing anything.

`assemble` is what an entity that misses no segment would make of them. All segments that were
sent, followed by those that wait in the transmission buffer, are assembled to the SDUs that were
accepted.
-/

namespace Ns3.Lte.LteRlcUm

open Library

/-- The complete SDUs of the segments and the incomplete one at their end, after the incomplete
one that is given. Segments that do not follow each other are not assembled. -/
def assemble (begun : Option Bytes) : List Segment → Option (List Bytes × Option Bytes)
  | [] => some ([], begun)
  | segment :: rest =>
      match segment.status, begun with
      | .fullSdu, none => (assemble none rest).map fun (sdus, left) => (segment.bytes :: sdus, left)
      | .firstSegment, none => assemble (some segment.bytes) rest
      | .middleSegment, some front => assemble (some (front ++ segment.bytes)) rest
      | .lastSegment, some front =>
          (assemble none rest).map fun (sdus, left) => ((front ++ segment.bytes) :: sdus, left)
      | _, _ => none

theorem assemble_append (begun : Option Bytes) (first second : List Segment) :
    assemble begun (first ++ second) = (assemble begun first).bind fun (sdus, left) =>
      (assemble left second).map fun (more, left) => (sdus ++ more, left) := by
  induction first generalizing begun with
  | nil => simp [assemble]
  | cons segment rest inductionHypothesis =>
      obtain ⟨bytes, status⟩ := segment
      cases status <;> cases begun <;>
        simp [assemble, inductionHypothesis, Option.map_bind, Option.bind_map, Function.comp_def]

/-- Only the first part of what can be assembled counts for what it is assembled to. -/
theorem assemble_first {begun : Option Bytes} {first second : List Segment}
    {sdus : List Bytes} {left : Option Bytes}
    (assembled : assemble begun (first ++ second) = some (sdus, left)) :
    ∃ early between late, assemble begun first = some (early, between) ∧
      assemble between second = some (late, left) ∧ sdus = early ++ late := by
  rw [assemble_append] at assembled
  obtain ⟨⟨early, between⟩, before, assembled⟩ := Option.bind_eq_some_iff.mp assembled
  obtain ⟨⟨late, after⟩, rest, same⟩ := Option.map_eq_some_iff.mp assembled
  cases same
  exact ⟨early, between, late, before, rest, rfl⟩

/-- Segments that start with the first byte of an SDU: complete SDUs and perhaps the beginning of
another one. -/
def Fresh (segments : List Segment) : Prop :=
  ∃ front final, segments = front ++ [final] ∧ (∀ segment ∈ front, segment.status = .fullSdu) ∧
    (final.status = .fullSdu ∨ final.status = .firstSegment)

/-- The segments of a data field. -/
def Shaped (segments : List Segment) : Prop :=
  Fresh segments ∨
    (∃ only, segments = [only] ∧ (only.status = .middleSegment ∨ only.status = .lastSegment)) ∨
    ∃ first rest, segments = first :: rest ∧ first.status = .lastSegment ∧ Fresh rest

theorem Fresh.cons {first : Segment} {rest : List Segment} (full : first.status = .fullSdu)
    (fresh : Fresh rest) : Fresh (first :: rest) := by
  obtain ⟨front, final, rfl, fulls, end'⟩ := fresh
  exact ⟨first :: front, final, rfl, List.forall_mem_cons.mpr ⟨full, fulls⟩, end'⟩

theorem Fresh.single {only : Segment}
    (status : only.status = .fullSdu ∨ only.status = .firstSegment) : Fresh [only] :=
  ⟨[], only, rfl, by simp, status⟩

/-- A segment that can be at the front of the transmission buffer. -/
def Fronted (segment : Segment) : Prop :=
  segment.bytes ≠ [] ∧ (segment.status = .fullSdu ∨ segment.status = .lastSegment)

/-- A whole SDU that is not empty. -/
def Whole (segment : Segment) : Prop := segment.bytes ≠ [] ∧ segment.status = .fullSdu

/-- The segments of a transmission buffer. -/
def Waiting : List Segment → Prop
  | [] => True
  | first :: rest => Fronted first ∧ ∀ segment ∈ rest, Whole segment

theorem Whole.fronted {segment : Segment} (whole : Whole segment) : Fronted segment :=
  ⟨whole.1, .inl whole.2⟩

theorem waiting_of_whole {segments : List Segment} (whole : ∀ segment ∈ segments, Whole segment) :
    Waiting segments := by
  cases segments with
  | nil => trivial
  | cons first rest =>
      obtain ⟨front, others⟩ := List.forall_mem_cons.mp whole
      exact ⟨front.fronted, others⟩

theorem waiting_concat {segments : List Segment} {new : Segment} (waiting : Waiting segments)
    (whole : Whole new) : Waiting (segments ++ [new]) := by
  cases segments with
  | nil => exact ⟨whole.fronted, by simp⟩
  | cons first rest =>
      refine ⟨waiting.1, fun segment member => ?_⟩
      rcases List.mem_append.mp member with before | last
      · exact waiting.2 segment before
      · rw [List.mem_singleton.mp last]
        exact whole

/-- The header describes the data field: the length indicators cut it into its segments. -/
def Described (built : Built) : Prop :=
  Receiver.buildSdus built.extensionBits built.lengthIndicators
    (built.dataField.map (·.bytes)).flatten = built.dataField.map (·.bytes)

/-- What the data field and the transmission buffer are after an opportunity to transmit. -/
structure Filled (firstSegment : Segment) (txBuffer : List Segment) (built : Built) : Prop where
  kept : ∀ begun, assemble begun (built.dataField ++ built.txBuffer) =
    assemble begun (firstSegment :: txBuffer)
  shaped : Shaped built.dataField
  fresh : firstSegment.status = .fullSdu → Fresh built.dataField
  described : Described built
  waiting : Waiting built.txBuffer

variable {firstSegment next : Segment} {txBuffer : List Segment} {built : Built}
  {nextSegmentSize nextSegmentId txBufferSize : Nat}

theorem filled_last (fronted : Fronted firstSegment)
    (whole : ∀ segment ∈ txBuffer, Whole segment) :
    Filled firstSegment txBuffer (Built.last firstSegment txBuffer txBufferSize) where
  kept _ := rfl
  shaped := by
    rcases fronted.2 with full | last
    · exact .inl (Fresh.single (.inl full))
    · exact .inr (.inl ⟨firstSegment, rfl, .inr last⟩)
  fresh full := Fresh.single (.inl full)
  described := by simp [Described, Built.last, Receiver.buildSdus]
  waiting := waiting_of_whole whole

theorem filled_split (fronted : Fronted firstSegment)
    (whole : ∀ segment ∈ txBuffer, Whole segment) :
    Filled firstSegment txBuffer
      (Built.split firstSegment nextSegmentSize txBuffer txBufferSize) := by
  obtain ⟨bytes, status⟩ := firstSegment
  obtain ⟨nonempty, kind⟩ := fronted
  simp only [Built.split]
  split
  case isTrue remains =>
    refine ⟨fun begun => ?_, ?_, fun full => ?_, by simp [Described, Receiver.buildSdus], ?_⟩
    · rcases kind with rfl | rfl <;> cases begun <;>
        simp [assemble, Built.frontStatus, Built.restStatus]
    · rcases kind with rfl | rfl
      · exact .inl (Fresh.single (.inr rfl))
      · exact .inr (.inl ⟨_, rfl, .inl rfl⟩)
    · cases full
      exact Fresh.single (.inr rfl)
    · refine ⟨⟨List.ne_nil_of_length_pos remains, ?_⟩, whole⟩
      rcases kind with rfl | rfl <;> simp [Built.restStatus]
  case isFalse nothing =>
    have all : bytes.take (min bytes.length nextSegmentSize) = bytes := by
      simp only [Segment.size, List.length_drop] at nothing
      exact List.take_of_length_le (by omega)
    simp only [Segment.size, all]
    refine ⟨fun begun => ?_, ?_, fun full => ?_, by simp [Described, Receiver.buildSdus],
      waiting_of_whole whole⟩
    · rcases kind with rfl | rfl <;> rfl
    · rcases kind with rfl | rfl
      · exact .inl (Fresh.single (.inl rfl))
      · exact .inr (.inl ⟨_, rfl, .inr rfl⟩)
    · cases full
      exact Fresh.single (.inl rfl)

theorem filled_cons (fronted : Fronted firstSegment) (whole : next.status = .fullSdu)
    (filled : Filled next txBuffer built) :
    Filled firstSegment (next :: txBuffer) (Built.cons firstSegment built) where
  kept begun := by
    have same : ∀ begun, assemble begun (built.dataField ++ built.txBuffer) =
        assemble begun (next :: txBuffer) := filled.kept
    obtain ⟨bytes, status⟩ := firstSegment
    rcases fronted.2 with full | last
    · cases full
      cases begun <;> simp only [Built.cons, List.cons_append, assemble, same]
    · cases last
      cases begun <;> simp only [Built.cons, List.cons_append, assemble, same]
  shaped := by
    rcases fronted.2 with full | last
    · exact .inl (Fresh.cons full (filled.fresh whole))
    · exact .inr (.inr ⟨firstSegment, built.dataField, rfl, last, filled.fresh whole⟩)
  fresh full := Fresh.cons full (filled.fresh whole)
  described := by
    have described := filled.described
    rw [Described] at described
    simp [Described, Built.cons, Receiver.buildSdus, Segment.size, described]
  waiting := filled.waiting

/-- The loop fills the data field. -/
theorem filled_fill (fronted : Fronted firstSegment)
    (whole : ∀ segment ∈ txBuffer, Whole segment) (room : 0 < nextSegmentSize) :
    Filled firstSegment txBuffer
      (Built.fill firstSegment nextSegmentSize nextSegmentId txBufferSize txBuffer) := by
  have goes : ∀ {segment : Segment} {room : Nat}, Fronted segment → 0 < room →
      ¬ (segment.size = 0 ∨ room = 0) := by
    rintro segment room ⟨nonempty, _⟩ positive (zero | zero)
    · exact nonempty (List.eq_nil_of_length_eq_zero zero)
    · omega
  induction txBuffer generalizing firstSegment nextSegmentSize nextSegmentId txBufferSize with
  | nil =>
      rw [Built.fill, if_neg (goes fronted room)]
      split
      · exact filled_split fronted whole
      · exact filled_last fronted whole
  | cons next txBuffer inductionHypothesis =>
      obtain ⟨wholeNext, others⟩ := List.forall_mem_cons.mp whole
      rw [Built.fill, if_neg (goes fronted room)]
      split
      · exact filled_split fronted whole
      · split
        · exact filled_last fronted whole
        case isFalse notSplit more =>
          refine filled_cons fronted wholeNext.2
            (inductionHypothesis wholeNext.fronted others ?_)
          split <;> omega

/-- A PDU carries segments under its number. -/
structure Carries (number : Nat) (pdu : Pdu) (segments : List Segment) : Prop where
  sequenceNumber : pdu.header.sequenceNumber = number % 1024
  shaped : Shaped segments
  firstByte : ∀ first ∈ segments.head?,
    pdu.header.framingInfo.noFirstByte = !first.hasFirstByte
  lastByte : ∀ final ∈ segments.getLast?,
    pdu.header.framingInfo.noLastByte = !final.hasLastByte
  sdus : Receiver.buildSdus pdu.header.extensionBits pdu.header.lengthIndicators pdu.data =
    segments.map (·.bytes)

/-- The data fields that were sent and the transmission buffer have all that was accepted. -/
structure Sending (transmitter : Transmitter) (accepted : List Bytes) (sent : List Pdu)
    (fields : List (List Segment)) : Prop where
  assembled : assemble none (fields.flatten ++ transmitter.txBuffer) = some (accepted, none)
  waiting : Waiting transmitter.txBuffer
  numbered : transmitter.sequenceNumber.value = sent.length % 1024
  length : fields.length = sent.length
  carries : ∀ number pdu segments, sent[number]? = some pdu → fields[number]? = some segments →
    Carries number pdu segments

theorem Sending.initial : Sending {} [] [] [] where
  assembled := rfl
  waiting := trivial
  numbered := rfl
  length := rfl
  carries := by simp

variable {transmitter : Transmitter} {accepted : List Bytes} {sent : List Pdu}
  {fields : List (List Segment)}

theorem Sending.transmit (sending : Sending transmitter accepted sent fields) {p : Bytes}
    (nonempty : p ≠ []) :
    Sending (transmitter.doTransmitPdcpPdu p)
      (if transmitter.accepts p then accepted ++ [p] else accepted) sent fields := by
  rw [Transmitter.doTransmitPdcpPdu]
  split
  · refine { sending with assembled := ?_, waiting := ?_ }
    · rw [← List.append_assoc, assemble_append, sending.assembled]
      simp [assemble]
    · exact waiting_concat sending.waiting ⟨nonempty, rfl⟩
  · exact sending

/-- A PDU is sent, or nothing happens. -/
theorem Sending.opportunity (sending : Sending transmitter accepted sent fields) (bytes : Nat) :
    ∃ later, Sending (transmitter.doNotifyTxOpportunity bytes).1 accepted
      (sent ++ (transmitter.doNotifyTxOpportunity bytes).2.toList) (fields ++ later) := by
  have nothing : ∃ later, Sending transmitter accepted (sent ++ []) (fields ++ later) :=
    ⟨[], by simpa using sending⟩
  simp only [Transmitter.doNotifyTxOpportunity]
  split
  · exact nothing
  case isFalse enough =>
    split
    · exact nothing
    case h_2 firstSegment txBuffer buffered =>
      have waiting := sending.waiting
      rw [buffered] at waiting
      split
      case h_1 first final isFirst isFinal =>
        have filled : Filled firstSegment txBuffer _ :=
          @filled_fill firstSegment txBuffer (bytes - 2) 1
            (wrapSub 32 transmitter.txBufferSize firstSegment.size) waiting.1 waiting.2 (by omega)
        generalize Built.fill firstSegment (bytes - 2) 1
          (wrapSub 32 transmitter.txBufferSize firstSegment.size) txBuffer = built at *
        refine ⟨[built.dataField], ?_, filled.waiting, ?_, ?_, ?_⟩
        · have assembled := sending.assembled
          rw [buffered, assemble_append] at assembled
          rw [List.flatten_append, List.flatten_singleton, List.append_assoc, assemble_append]
          simp only [filled.kept]
          exact assembled
        · simp [SequenceNumber10.increment, sending.numbered]
        · simp [sending.length]
        · intro number pdu segments isSent isField
          rcases Nat.lt_trichotomy number sent.length with before | same | after
          · rw [List.getElem?_append_left before] at isSent
            rw [List.getElem?_append_left (sending.length ▸ before)] at isField
            exact sending.carries number pdu segments isSent isField
          · subst same
            obtain rfl : _ = pdu := by simpa using isSent
            rw [← sending.length] at isField
            obtain rfl : built.dataField = segments := by simpa using isField
            refine ⟨sending.numbered, filled.shaped, ?_, ?_, filled.described⟩
            · intro other isOther
              rw [isFirst] at isOther
              cases isOther
              rfl
            · intro other isOther
              rw [isFinal] at isOther
              cases isOther
              rfl
          · have beyond : (sent ++ [transmitter.buildPdu built first final]).length ≤ number := by
              rw [List.length_append]
              exact after
            exact absurd ((List.getElem?_eq_none beyond).symm.trans isSent) (by simp)
      · exact nothing

end Ns3.Lte.LteRlcUm
