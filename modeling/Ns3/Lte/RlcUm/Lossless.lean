import Ns3.Lte.RlcUm.Capacity
import Ns3.Lte.RlcUm.Reassembly

/-!
What the receiving entity makes of PDUs that come in order and without loss.

Nothing is discarded: the SDUs that are complete have been delivered, and the one that is kept is
the one that goes on.
-/

namespace Ns3.Lte.LteRlcUm

open Library

namespace Receiver

variable {receiver : Receiver} {segments : List Segment} {framingInfo : FramingInfo}
  {begun left : Option Bytes} {sdus : List Bytes}

/-- The entity waits for what comes after the incomplete SDU. -/
def Awaits (receiver : Receiver) : Option Bytes → Prop
  | none => receiver.reassemblingState = .waitingS0Full
  | some front => receiver.reassemblingState = .waitingSiSf ∧ receiver.keepS0 = some front

/-- What reassembling does if nothing was lost. -/
structure Joins (receiver later : Receiver) (sdus : List Bytes) (left : Option Bytes) : Prop where
  emptied : later.sdusBuffer = []
  expected : later.expectedSeqNumber = receiver.expectedSeqNumber
  delivered : later.delivered = receiver.delivered ++ sdus
  awaits : later.Awaits left

/-- The first segment of the data field starts an SDU. -/
theorem joins_fresh {front : List Segment} {final : Segment}
    (fulls : ∀ segment ∈ front, segment.status = .fullSdu)
    (kind : final.status = .fullSdu ∨ final.status = .firstSegment)
    (listed : receiver.sdusBuffer = (front ++ [final]).map (·.bytes))
    (firstByte : framingInfo.noFirstByte = false)
    (lastByte : framingInfo.noLastByte = !final.hasLastByte) (awaits : receiver.Awaits begun)
    (assembled : assemble begun (front ++ [final]) = some (sdus, left)) :
    Joins receiver (receiver.reassemble framingInfo false) sdus left := by
  cases begun with
  | some started =>
      rw [assemble_fresh_begun fulls kind] at assembled
      cases assembled
  | none =>
      have state : receiver.reassemblingState = .waitingS0Full := awaits
      rcases kind with full | first
      · rw [assemble_fresh_full fulls full] at assembled
        cases assembled
        have ends : framingInfo.noLastByte = false := by
          simp [lastByte, Segment.hasLastByte, full]
        simp only [reassemble, state, firstByte, ends]
        exact ⟨rfl, rfl, by simp [deliverAll, listed], rfl⟩
      · rw [assemble_fresh_first fulls first] at assembled
        cases assembled
        have goesOn : framingInfo.noLastByte = true := by
          simp [lastByte, Segment.hasLastByte, first]
        simp only [reassemble, state, firstByte, goesOn]
        exact ⟨rfl, rfl, by simp [keepLast, listed], rfl, by simp [keepLast, listed]⟩

/-- The first segment goes on with an SDU; nothing else is in the data field. -/
theorem joins_single {only : Segment}
    (kind : only.status = .middleSegment ∨ only.status = .lastSegment)
    (listed : receiver.sdusBuffer = [only.bytes]) (firstByte : framingInfo.noFirstByte = true)
    (lastByte : framingInfo.noLastByte = !only.hasLastByte) (awaits : receiver.Awaits begun)
    (assembled : assemble begun [only] = some (sdus, left)) :
    Joins receiver (receiver.reassemble framingInfo false) sdus left := by
  cases begun with
  | none => rcases kind with middle | last <;> simp [assemble, *] at assembled
  | some started =>
      obtain ⟨state, kept⟩ := awaits
      rcases kind with middle | last
      · obtain ⟨rfl, rfl⟩ : sdus = [] ∧ left = some (started ++ only.bytes) := by
          simpa [assemble, middle, eq_comm] using assembled
        have goesOn : framingInfo.noLastByte = true := by
          simp [lastByte, Segment.hasLastByte, middle]
        simp only [reassemble, state, firstByte, goesOn, listed, List.length_singleton, if_true]
        exact ⟨by simp [extendS0, listed], rfl, by simp [extendS0], rfl,
          by simp [extendS0, listed, kept]⟩
      · obtain ⟨rfl, rfl⟩ : sdus = [started ++ only.bytes] ∧ left = none := by
          simpa [assemble, last, eq_comm] using assembled
        have ends : framingInfo.noLastByte = false := by
          simp [lastByte, Segment.hasLastByte, last]
        simp only [reassemble, state, firstByte, ends]
        exact ⟨rfl, rfl, by simp [deliverAll, deliverS0, extendS0, listed, kept], rfl⟩

/-- The first segment is the end of an SDU, and others follow. -/
theorem joins_last {first final : Segment} {front : List Segment}
    (last : first.status = .lastSegment)
    (fulls : ∀ segment ∈ front, segment.status = .fullSdu)
    (kind : final.status = .fullSdu ∨ final.status = .firstSegment)
    (listed : receiver.sdusBuffer = first.bytes :: (front ++ [final]).map (·.bytes))
    (firstByte : framingInfo.noFirstByte = true)
    (lastByte : framingInfo.noLastByte = !final.hasLastByte) (awaits : receiver.Awaits begun)
    (assembled : assemble begun (first :: (front ++ [final])) = some (sdus, left)) :
    Joins receiver (receiver.reassemble framingInfo false) sdus left := by
  cases begun with
  | none => simp [assemble, last] at assembled
  | some started =>
      obtain ⟨state, kept⟩ := awaits
      have notSingle : receiver.sdusBuffer.length ≠ 1 := by simp [listed]
      rcases kind with full | begins
      · obtain ⟨rfl, rfl⟩ : sdus = (started ++ first.bytes) ::
            (front.map (·.bytes) ++ [final.bytes]) ∧ left = none := by
          simpa [assemble, last, assemble_fresh_full fulls full, eq_comm] using assembled
        have ends : framingInfo.noLastByte = false := by
          simp [lastByte, Segment.hasLastByte, full]
        simp only [reassemble, state, firstByte, ends]
        exact ⟨rfl, rfl, by simp [deliverAll, deliverS0, extendS0, listed, kept], rfl⟩
      · obtain ⟨rfl, rfl⟩ : sdus = (started ++ first.bytes) :: front.map (·.bytes) ∧
            left = some final.bytes := by
          simpa [assemble, last, assemble_fresh_first fulls begins, eq_comm] using assembled
        have goesOn : framingInfo.noLastByte = true := by
          simp [lastByte, Segment.hasLastByte, begins]
        simp only [reassemble, state, firstByte, goesOn, if_neg notSingle]
        exact ⟨rfl, rfl, by simp [keepLast, deliverS0, extendS0, listed, kept], rfl,
          by simp [keepLast, deliverS0, extendS0, listed]⟩

/-- A data field is joined to what came before. -/
theorem joins (shaped : Shaped segments)
    (listed : receiver.sdusBuffer = segments.map (·.bytes))
    (firstByte : ∀ first ∈ segments.head?, framingInfo.noFirstByte = !first.hasFirstByte)
    (lastByte : ∀ final ∈ segments.getLast?, framingInfo.noLastByte = !final.hasLastByte)
    (awaits : receiver.Awaits begun)
    (assembled : assemble begun segments = some (sdus, left)) :
    Joins receiver (receiver.reassemble framingInfo false) sdus left := by
  rcases shaped with ⟨front, final, rfl, fulls, kind⟩ | ⟨only, rfl, kind⟩ |
    ⟨first, rest, rfl, last, front, final, rfl, fulls, kind⟩
  · refine joins_fresh fulls kind listed ?_ (lastByte final (by simp)) awaits assembled
    cases front with
    | nil =>
        rw [firstByte final (by simp)]
        rcases kind with full | begins <;> simp [Segment.hasFirstByte, *]
    | cons first rest =>
        rw [firstByte first (by simp)]
        simp [Segment.hasFirstByte, fulls first List.mem_cons_self]
  · refine joins_single kind listed ?_ (lastByte only (by simp)) awaits assembled
    rw [firstByte only (by simp)]
    rcases kind with middle | last <;> simp [Segment.hasFirstByte, *]
  · have isFinal : final ∈ (first :: (front ++ [final])).getLast? := by
      rw [← List.cons_append, Option.mem_def, List.getLast?_concat]
    refine joins_last last fulls kind listed ?_ (lastByte final isFinal) awaits assembled
    rw [firstByte first (by simp)]
    simp [Segment.hasFirstByte, last]

end Receiver

/-- The PDUs with these data fields have come in order. -/
structure InOrder (fields : List (List Segment)) (receiver : Receiver) : Prop where
  expected : receiver.expectedSeqNumber.value = fields.length % 1024
  emptied : receiver.sdusBuffer = []
  progress : ∃ begun, assemble none fields.flatten = some (receiver.delivered, begun) ∧
    receiver.Awaits begun

theorem InOrder.initial : InOrder [] {} := ⟨rfl, rfl, none, rfl, rfl⟩

section InOrder

variable {fields : List (List Segment)} {receiver : Receiver} {pdu : Pdu}
  {segments : List Segment} (inOrder : InOrder fields receiver)
include inOrder

theorem InOrder.notLost (carries : Carries fields.length pdu segments) : receiver.expectedSnLost pdu = false := by
  simp [Receiver.expectedSnLost, SequenceNumber10.ofNat, carries.sequenceNumber, inOrder.expected]

variable (coherent : ∃ sdus left, assemble none (fields ++ [segments]).flatten = some (sdus, left))
include coherent

/-- The next data field goes on with what is there. -/
theorem InOrder.continues : ∃ begun sdus left, receiver.Awaits begun ∧
    assemble begun segments = some (sdus, left) ∧
    assemble none (fields ++ [segments]).flatten = some (receiver.delivered ++ sdus, left) := by
  obtain ⟨begun, before, awaits⟩ := inOrder.progress
  obtain ⟨all, left, coherent⟩ := coherent
  have whole := coherent
  rw [List.flatten_append, List.flatten_singleton] at whole
  obtain ⟨early, between, late, first, second, rfl⟩ := assemble_first whole
  rw [before] at first
  cases first
  exact ⟨begun, late, left, awaits, second, coherent⟩

/-- One PDU. -/
theorem InOrder.next (carries : Carries fields.length pdu segments) :
    InOrder (fields ++ [segments]) (receiver.reassembleAndDeliver pdu) := by
  obtain ⟨begun, sdus, left, awaits, assembled, whole⟩ := inOrder.continues coherent
  have notLost := inOrder.notLost carries
  have joins : Receiver.Joins (receiver.buildList pdu) (receiver.reassembleAndDeliver pdu)
      sdus left := by
    unfold Receiver.reassembleAndDeliver
    rw [notLost]
    apply Receiver.joins carries.shaped _ carries.firstByte carries.lastByte _ assembled
    · simp [Receiver.buildList, inOrder.emptied, carries.sdus]
    · cases begun <;> exact awaits
  refine ⟨?_, joins.emptied, left, ?_, joins.awaits⟩
  · rw [joins.expected]
    simp [Receiver.buildList, notLost, SequenceNumber10.increment, inOrder.expected]
  · rw [joins.delivered]
    exact whole

end InOrder

/-- A PDU that fits into an opportunity, and whose header can be written. -/
structure FitsInto (bytes : Nat) (pdu : Pdu) : Prop where
  marked : Marked pdu.header.extensionBits pdu.header.lengthIndicators
  indicators : ∀ lengthIndicator ∈ pdu.header.lengthIndicators, lengthIndicator < 2048
  numbered : pdu.header.sequenceNumber < 1024
  room : 2 + (3 * pdu.header.lengthIndicators.length + 1) / 2 + pdu.data.length ≤ bytes

/-- What an opportunity does to an entity: nothing if it is too small or there are no data, and
else a PDU is built that takes from the transmission buffer. -/
theorem doNotifyTxOpportunity_cases {transmitter : Transmitter}
    (waiting : Waiting transmitter.txBuffer)
    (numbered : transmitter.sequenceNumber.value < 1024) (bytes : Nat) :
    (bytes ≤ 2 ∨ transmitter.txBuffer = []) ∧
        transmitter.doNotifyTxOpportunity bytes = (transmitter, none) ∨
      3 ≤ bytes ∧ transmitter.txBuffer ≠ [] ∧ ∃ later pdu,
        transmitter.doNotifyTxOpportunity bytes = (later, some pdu) ∧ FitsInto bytes pdu ∧
        totalSize later.txBuffer < totalSize transmitter.txBuffer ∧
        (transmitter.txBufferSize = totalSize transmitter.txBuffer →
          totalSize transmitter.txBuffer < 2 ^ 32 →
          later.txBufferSize = totalSize later.txBuffer) := by
  unfold Transmitter.doNotifyTxOpportunity
  split
  case isTrue small => exact .inl ⟨.inl small, rfl⟩
  case isFalse enough =>
    cases buffered : transmitter.txBuffer with
    | nil => exact .inl ⟨.inr rfl, rfl⟩
    | cons firstSegment txBuffer =>
        right
        rw [buffered] at waiting
        have fitted : Fitted firstSegment txBuffer (bytes - 2) 1
            (wrapSub 32 transmitter.txBufferSize firstSegment.size) _ :=
          fitted_fill waiting.1 waiting.2 (by omega)
        dsimp only
        generalize Built.fill firstSegment (bytes - 2) 1
          (wrapSub 32 transmitter.txBufferSize firstSegment.size) txBuffer = built at *
        have taken := fitted.taken
        cases field : built.dataField with
        | nil => simp [field] at taken
        | cons first rest =>
            obtain ⟨final, isFinal⟩ : ∃ final, (first :: rest).getLast? = some final :=
              ⟨_, List.getLast?_eq_getLast_of_ne_nil (List.cons_ne_nil first rest)⟩
            have conserved := fitted.conserved
            rw [List.head?_cons, isFinal]
            refine ⟨by omega, List.cons_ne_nil _ _, _, _, rfl, ⟨fitted.marked, fitted.indicators,
              numbered, ?_⟩, ?_, ?_⟩
            · have room := fitted.room
              simp only [Transmitter.buildPdu, length_flatten]
              omega
            · show totalSize built.txBuffer < _
              rw [totalSize_cons]
              omega
            · intro counted small
              rw [totalSize_cons] at counted small
              refine fitted.counted ?_ small
              rw [counted, wrapSub_of_le (by omega) small]
              omega

end Ns3.Lte.LteRlcUm
