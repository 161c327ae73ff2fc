import Ns3.Lte.RlcUm.Segmentation

/-!
The receiving entity reassembles only what belongs together.

PDUs that are taken from the buffer in the order of their numbers, fewer than 1024 apart, are
told to follow each other exactly if they do. So the SDU that is kept is the one that the next
segment continues, and what is delivered is among the SDUs that the PDUs so far complete, in
their order.
-/

namespace Ns3.Lte.LteRlcUm

open Library

section Fresh

variable {front : List Segment} {final : Segment}
  (fulls : ∀ segment ∈ front, segment.status = .fullSdu)
include fulls

theorem assemble_fulls : assemble none front = some (front.map (·.bytes), none) := by
  induction front with
  | nil => rfl
  | cons first rest inductionHypothesis =>
      obtain ⟨full, others⟩ := List.forall_mem_cons.mp fulls
      simp [assemble, full, inductionHypothesis others]

theorem assemble_fresh_full (full : final.status = .fullSdu) :
    assemble none (front ++ [final]) = some (front.map (·.bytes) ++ [final.bytes], none) := by
  rw [assemble_append, assemble_fulls fulls]
  simp [assemble, full]

theorem assemble_fresh_first (first : final.status = .firstSegment) :
    assemble none (front ++ [final]) = some (front.map (·.bytes), some final.bytes) := by
  rw [assemble_append, assemble_fulls fulls]
  simp [assemble, first]

theorem assemble_fresh_begun (kind : final.status = .fullSdu ∨ final.status = .firstSegment)
    (begun : Bytes) : assemble (some begun) (front ++ [final]) = none := by
  cases front with
  | nil => rcases kind with full | first <;> simp [assemble, *]
  | cons first rest => simp [assemble, fulls first List.mem_cons_self]

end Fresh

namespace Receiver

variable {receiver : Receiver} {segments : List Segment} {framingInfo : FramingInfo}
  {lost : Bool} {begun left : Option Bytes} {sdus : List Bytes}

/-- What reassembling does: it delivers some of the SDUs that are complete now, in their order,
and waits for more only with the beginning of the last one. -/
structure Reassembles (receiver later : Receiver) (sdus : List Bytes) (left : Option Bytes) :
    Prop where
  emptied : later.sdusBuffer = []
  expected : later.expectedSeqNumber = receiver.expectedSeqNumber
  delivers : ∃ extra, later.delivered = receiver.delivered ++ extra ∧ extra.Sublist sdus
  keeps : later.reassemblingState = .waitingSiSf → ∃ front, left = some front ∧
    later.keepS0 = some front

/-- The first segment of the data field starts an SDU. -/
theorem reassembles_fresh {front : List Segment} {final : Segment}
    (fulls : ∀ segment ∈ front, segment.status = .fullSdu)
    (kind : final.status = .fullSdu ∨ final.status = .firstSegment)
    (listed : receiver.sdusBuffer = (front ++ [final]).map (·.bytes))
    (firstByte : framingInfo.noFirstByte = false)
    (lastByte : framingInfo.noLastByte = !final.hasLastByte)
    (waits : lost = false → receiver.reassemblingState = .waitingSiSf →
      ∃ front, begun = some front ∧ receiver.keepS0 = some front)
    (assembled : assemble begun (front ++ [final]) = some (sdus, left)) :
    Reassembles receiver (receiver.reassemble framingInfo lost) sdus left := by
  cases begun with
  | some started =>
      rw [assemble_fresh_begun fulls kind] at assembled
      cases assembled
  | none =>
      have free : lost = false → receiver.reassemblingState = .waitingS0Full := by
        intro notLost
        cases state : receiver.reassemblingState with
        | waitingS0Full => rfl
        | waitingSiSf =>
            obtain ⟨_, impossible, _⟩ := waits notLost state
            cases impossible
      rcases kind with full | first
      · rw [assemble_fresh_full fulls full] at assembled
        cases assembled
        have ends : framingInfo.noLastByte = false := by
          simp [lastByte, Segment.hasLastByte, full]
        cases lost with
        | false =>
            simp only [reassemble, free rfl, firstByte, ends]
            exact ⟨rfl, rfl, ⟨_, rfl, by simp [listed]⟩, by simp⟩
        | true =>
            cases state : receiver.reassemblingState <;> simp only [reassemble, state, firstByte, ends]
            · exact ⟨rfl, rfl, ⟨_, rfl, by simp [listed]⟩, by simp⟩
            · exact ⟨rfl, rfl, ⟨_, rfl, by simp [listed]⟩, by simp⟩
      · rw [assemble_fresh_first fulls first] at assembled
        cases assembled
        have goesOn : framingInfo.noLastByte = true := by
          simp [lastByte, Segment.hasLastByte, first]
        cases lost with
        | false =>
            simp only [reassemble, free rfl, firstByte, goesOn]
            exact ⟨rfl, rfl, ⟨_, rfl, by simp [listed]⟩, by simp [keepLast, listed]⟩
        | true =>
            cases state : receiver.reassemblingState <;>
              simp only [reassemble, state, firstByte, goesOn]
            · exact ⟨rfl, rfl, ⟨_, rfl, by simp [listed]⟩, by simp [keepLast, listed]⟩
            · exact ⟨rfl, rfl, ⟨_, rfl, by simp [listed]⟩, by simp [keepLast, listed]⟩

/-- The first segment goes on with an SDU; nothing else is in the data field. -/
theorem reassembles_single {only : Segment}
    (kind : only.status = .middleSegment ∨ only.status = .lastSegment)
    (listed : receiver.sdusBuffer = [only.bytes]) (firstByte : framingInfo.noFirstByte = true)
    (lastByte : framingInfo.noLastByte = !only.hasLastByte)
    (waits : lost = false → receiver.reassemblingState = .waitingSiSf →
      ∃ front, begun = some front ∧ receiver.keepS0 = some front)
    (assembled : assemble begun [only] = some (sdus, left)) :
    Reassembles receiver (receiver.reassemble framingInfo lost) sdus left := by
  cases begun with
  | none => rcases kind with middle | last <;> simp [assemble, *] at assembled
  | some started =>
      rcases kind with middle | last
      · obtain ⟨rfl, rfl⟩ : sdus = [] ∧ left = some (started ++ only.bytes) := by
          simpa [assemble, middle, eq_comm] using assembled
        have goesOn : framingInfo.noLastByte = true := by
          simp [lastByte, Segment.hasLastByte, middle]
        cases lost <;> cases state : receiver.reassemblingState <;>
          simp only [reassemble, state, firstByte, goesOn, restartWithin, listed,
            List.length_singleton, if_true]
        · exact ⟨by simp [popFront, listed], rfl, ⟨[], by simp [popFront], .refl _⟩, by simp⟩
        · obtain ⟨_, same, kept⟩ := waits rfl state
          cases same
          exact ⟨by simp [extendS0, listed], rfl, ⟨[], by simp [extendS0], .refl _⟩,
            by simp [extendS0, listed, kept]⟩
        · exact ⟨by simp [popFront, listed], rfl, ⟨[], by simp [popFront], .refl _⟩, by simp⟩
        · exact ⟨by simp [popFront], rfl, ⟨[], by simp [popFront], .refl _⟩, by simp⟩
      · obtain ⟨rfl, rfl⟩ : sdus = [started ++ only.bytes] ∧ left = none := by
          simpa [assemble, last, eq_comm] using assembled
        have ends : framingInfo.noLastByte = false := by
          simp [lastByte, Segment.hasLastByte, last]
        cases lost <;> cases state : receiver.reassemblingState <;>
          simp only [reassemble, state, firstByte, ends]
        · exact ⟨rfl, rfl, ⟨_, rfl, by simp [popFront, listed]⟩, by simp⟩
        · obtain ⟨_, same, kept⟩ := waits rfl state
          cases same
          exact ⟨rfl, rfl, ⟨_, List.append_assoc _ _ _, by simp [deliverS0, extendS0, listed, kept]⟩,
            by simp⟩
        · exact ⟨rfl, rfl, ⟨_, rfl, by simp [popFront, listed]⟩, by simp⟩
        · exact ⟨rfl, rfl, ⟨_, rfl, by simp [popFront, listed]⟩, by simp⟩

/-- The first segment is the end of an SDU, and others follow. -/
theorem reassembles_last {first final : Segment} {front : List Segment}
    (last : first.status = .lastSegment)
    (fulls : ∀ segment ∈ front, segment.status = .fullSdu)
    (kind : final.status = .fullSdu ∨ final.status = .firstSegment)
    (listed : receiver.sdusBuffer = first.bytes :: (front ++ [final]).map (·.bytes))
    (firstByte : framingInfo.noFirstByte = true)
    (lastByte : framingInfo.noLastByte = !final.hasLastByte)
    (waits : lost = false → receiver.reassemblingState = .waitingSiSf →
      ∃ front, begun = some front ∧ receiver.keepS0 = some front)
    (assembled : assemble begun (first :: (front ++ [final])) = some (sdus, left)) :
    Reassembles receiver (receiver.reassemble framingInfo lost) sdus left := by
  cases begun with
  | none => simp [assemble, last] at assembled
  | some started =>
      have notSingle : receiver.sdusBuffer.length ≠ 1 := by simp [listed]
      rcases kind with full | begins
      · obtain ⟨rfl, rfl⟩ : sdus = (started ++ first.bytes) ::
            (front.map (·.bytes) ++ [final.bytes]) ∧ left = none := by
          simpa [assemble, last, assemble_fresh_full fulls full, eq_comm] using assembled
        have ends : framingInfo.noLastByte = false := by
          simp [lastByte, Segment.hasLastByte, full]
        cases lost <;> cases state : receiver.reassemblingState <;>
          simp only [reassemble, state, firstByte, ends]
        · exact ⟨rfl, rfl, ⟨_, rfl, by simp [popFront, listed]⟩, by simp⟩
        · obtain ⟨_, same, kept⟩ := waits rfl state
          cases same
          exact ⟨rfl, rfl, ⟨_, List.append_assoc _ _ _, by simp [deliverS0, extendS0, listed, kept]⟩,
            by simp⟩
        · exact ⟨rfl, rfl, ⟨_, rfl, by simp [popFront, listed]⟩, by simp⟩
        · exact ⟨rfl, rfl, ⟨_, rfl, by simp [popFront, listed]⟩, by simp⟩
      · obtain ⟨rfl, rfl⟩ : sdus = (started ++ first.bytes) :: front.map (·.bytes) ∧
            left = some final.bytes := by
          simpa [assemble, last, assemble_fresh_first fulls begins, eq_comm] using assembled
        have goesOn : framingInfo.noLastByte = true := by
          simp [lastByte, Segment.hasLastByte, begins]
        cases lost <;> cases state : receiver.reassemblingState <;>
          simp only [reassemble, state, firstByte, goesOn, restartWithin, if_neg notSingle]
        · exact ⟨rfl, rfl, ⟨_, rfl, by simp [popFront, listed]⟩,
            by simp [keepLast, popFront, listed]⟩
        · obtain ⟨_, same, kept⟩ := waits rfl state
          cases same
          exact ⟨rfl, rfl, ⟨_, List.append_assoc _ _ _, by simp [deliverS0, extendS0, listed, kept]⟩,
            by simp [keepLast, deliverS0, extendS0, listed]⟩
        · exact ⟨rfl, rfl, ⟨_, rfl, by simp [popFront, listed]⟩,
            by simp [keepLast, popFront, listed]⟩
        · exact ⟨rfl, rfl, ⟨_, rfl, by simp [popFront, listed]⟩,
            by simp [keepLast, popFront, listed]⟩

/-- A data field is reassembled. -/
theorem reassembles (shaped : Shaped segments)
    (listed : receiver.sdusBuffer = segments.map (·.bytes))
    (firstByte : ∀ first ∈ segments.head?, framingInfo.noFirstByte = !first.hasFirstByte)
    (lastByte : ∀ final ∈ segments.getLast?, framingInfo.noLastByte = !final.hasLastByte)
    (waits : lost = false → receiver.reassemblingState = .waitingSiSf →
      ∃ front, begun = some front ∧ receiver.keepS0 = some front)
    (assembled : assemble begun segments = some (sdus, left)) :
    Reassembles receiver (receiver.reassemble framingInfo lost) sdus left := by
  rcases shaped with ⟨front, final, rfl, fulls, kind⟩ | ⟨only, rfl, kind⟩ |
    ⟨first, rest, rfl, last, front, final, rfl, fulls, kind⟩
  · refine reassembles_fresh fulls kind listed ?_ (lastByte final (by simp)) waits assembled
    cases front with
    | nil =>
        rw [firstByte final (by simp)]
        rcases kind with full | begins <;> simp [Segment.hasFirstByte, *]
    | cons first rest =>
        rw [firstByte first (by simp)]
        simp [Segment.hasFirstByte, fulls first List.mem_cons_self]
  · refine reassembles_single kind listed ?_ (lastByte only (by simp)) waits assembled
    rw [firstByte only (by simp)]
    rcases kind with middle | last <;> simp [Segment.hasFirstByte, *]
  · have isFinal : final ∈ (first :: (front ++ [final])).getLast? := by
      rw [← List.cons_append, Option.mem_def, List.getLast?_concat]
    refine reassembles_last last fulls kind listed ?_ (lastByte final isFinal) waits assembled
    rw [firstByte first (by simp)]
    simp [Segment.hasFirstByte, last]

end Receiver

/-- The PDUs before a number have been reassembled, as far as they have come. -/
structure Assembled (fields : List (List Segment)) (number : Nat) (receiver : Receiver) : Prop where
  expected : receiver.expectedSeqNumber.value = number % 1024
  emptied : receiver.sdusBuffer = []
  progress : ∃ sdus begun, assemble none (fields.take number).flatten = some (sdus, begun) ∧
    receiver.delivered.Sublist sdus ∧
    (receiver.reassemblingState = .waitingSiSf → ∃ front, begun = some front ∧
      receiver.keepS0 = some front)

/-- The next PDU that is taken from the buffer. -/
theorem Assembled.take {fields : List (List Segment)} {number later : Nat} {receiver : Receiver}
    {pdu : Pdu} {segments : List Segment} (assembled : Assembled fields number receiver)
    (coherent : ∃ sdus left, assemble none fields.flatten = some (sdus, left))
    (carries : Carries later pdu segments) (field : fields[later]? = some segments)
    (ordered : number ≤ later) (near : later < number + 1024) :
    Assembled fields (later + 1) (receiver.reassembleAndDeliver pdu) := by
  obtain ⟨done, begun, before, delivered, keeps⟩ := assembled.progress
  obtain ⟨inside, isField⟩ := List.getElem?_eq_some_iff.mp field
  -- What the fields between the two numbers and the field itself are assembled to.
  have between : ∃ middle begun' sdus left,
      assemble none (fields.take later).flatten = some (done ++ middle, begun') ∧
      (later = number → begun' = begun) ∧ assemble begun' segments = some (sdus, left) ∧
      assemble none (fields.take (later + 1)).flatten = some (done ++ middle ++ sdus, left) := by
    obtain ⟨all, rest, coherent⟩ := coherent
    have front : (fields.take (later + 1)).flatten = (fields.take later).flatten ++ segments := by
      rw [List.take_succ_eq_append_getElem inside, List.flatten_append, List.flatten_singleton,
        isField]
    have whole : fields.flatten =
        (fields.take (later + 1)).flatten ++ (fields.drop (later + 1)).flatten := by
      rw [← List.flatten_append, List.take_append_drop]
    have early : (fields.take later).flatten =
        (fields.take number).flatten ++ ((fields.drop number).take (later - number)).flatten := by
      rw [← List.flatten_append, ← List.take_add]
      congr 2
      omega
    rw [whole] at coherent
    obtain ⟨_, _, _, upTo, _⟩ := assemble_first coherent
    have split := upTo
    rw [front] at split
    obtain ⟨sdus', begun', sdus, first, second, rfl⟩ := assemble_first split
    rw [early] at first
    obtain ⟨_, _, middle, start, further, rfl⟩ := assemble_first first
    rw [before] at start
    cases start
    refine ⟨middle, begun', sdus, _, early ▸ first, fun same => ?_, second, upTo⟩
    subst same
    rw [Nat.sub_self, List.take_zero, List.flatten_nil] at further
    cases further
    rfl
  obtain ⟨middle, begun', sdus, left, _, same, ends, upTo⟩ := between
  have follows : receiver.expectedSnLost pdu = false → later = number := by
    intro notLost
    have equal : pdu.header.sequenceNumber % 1024 = receiver.expectedSeqNumber.value := by
      simpa [Receiver.expectedSnLost, SequenceNumber10.ofNat] using notLost
    rw [assembled.expected, carries.sequenceNumber] at equal
    omega
  have expected : (receiver.buildList pdu).expectedSeqNumber.value = (later + 1) % 1024 := by
    cases isLost : receiver.expectedSnLost pdu with
    | false =>
        simp [Receiver.buildList, isLost, SequenceNumber10.increment, assembled.expected,
          follows isLost]
    | true =>
        simp [Receiver.buildList, isLost, SequenceNumber10.add, SequenceNumber10.ofNat,
          carries.sequenceNumber]
  have done' : Receiver.Reassembles (receiver.buildList pdu) (receiver.reassembleAndDeliver pdu)
      sdus left := by
    refine Receiver.reassembles carries.shaped ?_ carries.firstByte carries.lastByte
      (fun notLost state => ?_) ends
    · simp [Receiver.buildList, assembled.emptied, carries.sdus]
    · rw [same (follows notLost)]
      exact keeps state
  refine ⟨?_, done'.emptied, done ++ middle ++ sdus, left, upTo, ?_, done'.keeps⟩
  · rw [done'.expected]
    exact expected
  · obtain ⟨extra, isDelivered, part⟩ := done'.delivers
    rw [isDelivered]
    refine List.Sublist.append ?_ part
    exact delivered.trans (List.sublist_append_left _ _)

end Ns3.Lte.LteRlcUm
