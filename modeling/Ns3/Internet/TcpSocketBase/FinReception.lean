import Ns3.Internet.TcpRxBuffer.Delivery

/-!
The FIN of the peer.

`ProcessEstablished` and `ProcessWait` are modelled as far as they use the receive buffer: the
arrival of data, the position of the FIN, and the reads of the application that the arrival of data
leads to. The state which the socket enters afterwards depends on `Finished`.
-/

namespace Ns3.Internet

open Library Network SequenceSpace

namespace TcpRxBuffer

variable {Seq : Type} [SequenceSpace Seq] [DecidableEq Seq]

/-- `MaxRxSequence`. -/
def maxRxSequence (self : TcpRxBuffer Seq) : Seq :=
  if self.gotFin then self.finSeq
  else
    match self.data with
    | [] => SequenceSpace.add self.nextRxSeq self.maxBuffer
    | first :: _ =>
        if gt self.nextRxSeq first.1 then SequenceSpace.add first.1 self.maxBuffer
        else SequenceSpace.add self.nextRxSeq self.maxBuffer

/-- `Finished`. -/
def finished (self : TcpRxBuffer Seq) : Bool := self.gotFin && lt self.finSeq self.nextRxSeq

/-- `Extract`, where the application drops the bytes. -/
def read (self : TcpRxBuffer Seq) (maxSize : Nat) : TcpRxBuffer Seq :=
  match self.extract maxSize with
  | some (_, after) => after
  | none => self

end TcpRxBuffer

namespace TcpSocketBase

open TcpRxBuffer

/-- The states of a socket in which `ProcessEstablished` or `ProcessWait` runs. -/
inductive TcpState
  | established
  | finWait1
  | finWait2
  | closeWait
  deriving DecidableEq, Repr

/-- `TcpHeader::Flags_t`. -/
def fin : UInt8 := 1
def syn : UInt8 := 2
def rst : UInt8 := 4
def psh : UInt8 := 8
def ack : UInt8 := 16
def urg : UInt8 := 32
def ece : UInt8 := 64
def cwr : UInt8 := 128

/-- A segment: what is read of its header, and its bytes. -/
structure Segment where
  sequenceNumber : SequenceNumber32
  ackNumber : SequenceNumber32
  flags : UInt8
  packet : List UInt8
  deriving DecidableEq

/-- The flags without PSH, URG, CWR and ECE, which are disregarded. -/
def Segment.tcpflags (segment : Segment) : UInt8 :=
  segment.flags &&& ~~~(psh ||| urg ||| cwr ||| ece)

/-- What is read of the sending side: `HeadSequence` of the transmit buffer and the highest
sequence number that was sent. -/
structure Sending where
  headSequence : SequenceNumber32
  highTxMark : SequenceNumber32

/-- `NotifyDataRecv`: the application reads these numbers of bytes. -/
def notifyDataRecv (rxBuffer : TcpRxBuffer SequenceNumber32) (reads : List Nat) :
    TcpRxBuffer SequenceNumber32 :=
  reads.foldl TcpRxBuffer.read rxBuffer

/-- `ReceivedData`. -/
def receivedData (rxBuffer : TcpRxBuffer SequenceNumber32) (segment : Segment)
    (reads : List Nat) : TcpRxBuffer SequenceNumber32 :=
  let added := rxBuffer.add segment.packet segment.sequenceNumber
  if added.2 && lt rxBuffer.nextRxSeq added.1.nextRxSeq then notifyDataRecv added.1 reads
  else added.1

/-- `ReceivedAck`: data that is piggybacked is stored, whatever is acknowledged. -/
def receivedAck (rxBuffer : TcpRxBuffer SequenceNumber32) (segment : Segment)
    (reads : List Nat) : TcpRxBuffer SequenceNumber32 :=
  if segment.packet.length > 0 then receivedData rxBuffer segment reads else rxBuffer

/-- `PeerClose`. -/
def peerClose (rxBuffer : TcpRxBuffer SequenceNumber32) (segment : Segment)
    (reads : List Nat) : TcpRxBuffer SequenceNumber32 :=
  if lt segment.sequenceNumber rxBuffer.nextRxSeq ||
      gt segment.sequenceNumber rxBuffer.maxRxSequence then rxBuffer
  else
    let rxBuffer := rxBuffer.setFinSequence
      (SequenceSpace.add segment.sequenceNumber segment.packet.length)
    if segment.packet.length > 0 then receivedData rxBuffer segment reads else rxBuffer

/-- `ProcessEstablished`. -/
def processEstablished (sending : Sending) (rxBuffer : TcpRxBuffer SequenceNumber32)
    (segment : Segment) (reads : List Nat) : TcpRxBuffer SequenceNumber32 :=
  if segment.tcpflags = ack then
    if lt segment.ackNumber sending.headSequence then rxBuffer
    else if gt segment.ackNumber sending.highTxMark then rxBuffer
    else receivedAck rxBuffer segment reads
  else if segment.tcpflags = syn then rxBuffer
  else if segment.tcpflags = syn ||| ack then rxBuffer
  else if segment.tcpflags = fin ∨ segment.tcpflags = fin ||| ack then
    peerClose rxBuffer segment reads
  else if segment.tcpflags = 0 then
    let received := receivedData rxBuffer segment reads
    if received.finished then peerClose received segment reads else received
  else rxBuffer

/-- `ProcessWait`. -/
def processWait (rxBuffer : TcpRxBuffer SequenceNumber32) (segment : Segment)
    (reads : List Nat) : TcpRxBuffer SequenceNumber32 :=
  if segment.packet.length > 0 ∧ segment.tcpflags &&& ack = 0 then
    receivedData rxBuffer segment reads
  else if segment.tcpflags = ack then receivedAck rxBuffer segment reads
  else if segment.tcpflags = fin ∨ segment.tcpflags = fin ||| ack then
    let rxBuffer :=
      if segment.tcpflags &&& ack ≠ 0 then receivedAck rxBuffer segment reads else rxBuffer
    rxBuffer.setFinSequence segment.sequenceNumber
  else rxBuffer

/-- The part of `DoForwardUp` that depends on the state. -/
def doForwardUp (state : TcpState) (sending : Sending)
    (rxBuffer : TcpRxBuffer SequenceNumber32) (segment : Segment) (reads : List Nat) :
    TcpRxBuffer SequenceNumber32 :=
  match state with
  | .established => processEstablished sending rxBuffer segment reads
  | .finWait1 => processWait rxBuffer segment reads
  | .finWait2 => processWait rxBuffer segment reads
  | .closeWait => processWait rxBuffer segment reads

/-- The segment carries a FIN. -/
def Segment.Closes (segment : Segment) : Prop :=
  segment.tcpflags = fin ∨ segment.tcpflags = fin ||| ack

/-- The branch which records the FIN where it belongs: an established socket does unless the
segment lies beyond the window; a half-closed one does where there are no bytes before the FIN, or
where it only stores the bytes, as the FIN was recorded earlier. -/
def Places (state : TcpState) (rxBuffer : TcpRxBuffer SequenceNumber32) (segment : Segment) :
    Prop :=
  match state with
  | .established => ¬ gt segment.sequenceNumber rxBuffer.maxRxSequence = true
  | _ => segment.packet = [] ∨ segment.tcpflags = fin ∧ rxBuffer.gotFin = true

/-- The FIN is recorded at the end of the stream, and the buffer is finished exactly where all the
bytes before it were received, and where the FIN is counted. -/
structure AtEnd (stream : List UInt8) (initial : Nat) (reception : Reception) : Prop where
  gotFin : reception.buffer.gotFin = true
  finSeq : reception.buffer.finSeq = SequenceNumber32.ofPosition initial stream.length
  received : reception.buffer.finished = true ↔
    ∀ position < stream.length, Received reception.received position
  next : reception.buffer.finished = true ↔
    reception.buffer.nextRxSeq = SequenceNumber32.ofPosition initial (stream.length + 1)

/-- The FIN was recorded, and the bytes that are missing are fewer than half the sequence number
space. -/
structure Closing (stream : List UInt8) (initial inOrder : Nat) (reception : Reception) :
    Prop where
  invariant : Reception.Invariant stream initial inOrder reception
  gotFin : reception.positions.gotFin = true
  near : stream.length < reception.positions.nextRxSeq + 2 ^ 31

section

variable {stream : List UInt8} {initial inOrder : Nat} {reception : Reception}

/-- No call takes back the FIN or a sequence number that was counted. -/
theorem step_grows (invariant : Reception.Invariant stream initial inOrder reception) {call : Call}
    (enabled : Reception.Enabled stream reception call) :
    (reception.positions.gotFin = true →
      (Reception.step stream initial reception call).positions.gotFin = true) ∧
    reception.positions.nextRxSeq ≤
      (Reception.step stream initial reception call).positions.nextRxSeq := by
  cases call with
  | add start length =>
      obtain ⟨newInOrder, outcome, -⟩ := invariant.add enabled
      refine ⟨fun known => (sameFin_add _ _ _).gotFin.trans known, ?_⟩
      rcases outcome.blocks with ⟨-, same⟩ | ⟨-, next, reached, further, -⟩
      · rw [same]
      · exact Nat.le_trans further reached
  | extract maxSize =>
      unfold Reception.step
      dsimp only
      split
      · rename_i found
        obtain ⟨extracted, -, same⟩ := Option.map_eq_some_iff.mp found
        cases same
        exact ⟨id, Nat.le_refl _⟩
      · exact ⟨id, Nat.le_refl _⟩
  | setFinSequence =>
      refine ⟨fun _ => rfl, ?_⟩
      change _ ≤ if reception.positions.nextRxSeq = stream.length then
        reception.positions.nextRxSeq + 1 else reception.positions.nextRxSeq
      split
      · exact Nat.le_succ _
      · exact Nat.le_refl _

theorem Closing.step (closing : Closing stream initial inOrder reception) {call : Call}
    (enabled : Reception.Enabled stream reception call) :
    ∃ newInOrder, Closing stream initial newInOrder
      (Reception.step stream initial reception call) := by
  obtain ⟨newInOrder, invariant⟩ := closing.invariant.step enabled
  obtain ⟨kept, further⟩ := step_grows closing.invariant enabled
  have near := closing.near
  exact ⟨newInOrder, invariant, kept closing.gotFin, by omega⟩

theorem Closing.atEnd (closing : Closing stream initial inOrder reception) :
    AtEnd stream initial reception := by
  have delivering := closing.invariant.delivering
  have near := closing.near
  have next := delivering.next
  have within := delivering.stored.within
  have bufferNext : reception.buffer.nextRxSeq =
      SequenceNumber32.ofPosition initial reception.positions.nextRxSeq := by
    rw [closing.invariant.numbered]
    rfl
  have gotFin : reception.buffer.gotFin = true := by
    rw [closing.invariant.numbered]
    exact closing.gotFin
  have finSeq : reception.buffer.finSeq = SequenceNumber32.ofPosition initial stream.length := by
    rw [closing.invariant.numbered, ← delivering.fin closing.gotFin]
    rfl
  have finished : reception.buffer.finished = true ↔ inOrder = stream.length := by
    rw [finished, gotFin, finSeq, bufferNext, Bool.true_and]
    rcases Nat.lt_or_eq_of_le within with missing | complete
    · rw [if_neg fun ended => absurd ended.2 (Nat.ne_of_lt missing)] at next
      rw [(SequenceNumber32.faithful_ofPosition initial inOrder).lt (by omega) (by omega),
        decide_eq_true_iff]
      omega
    · rw [if_pos ⟨closing.gotFin, complete⟩] at next
      rw [(SequenceNumber32.faithful_ofPosition initial inOrder).lt (by omega) (by omega),
        decide_eq_true_iff]
      omega
  refine ⟨gotFin, finSeq, ?_, ?_⟩
  · rw [finished]
    constructor
    · rintro complete position before
      exact (closing.invariant.received position).mpr (.inl (by omega))
    · intro all
      by_contra missing
      rcases (closing.invariant.received inOrder).mp (all inOrder (by omega)) with before | covers
      · exact Nat.lt_irrefl _ before
      · exact delivering.stored.gap covers
  · rw [finished, bufferNext, next]
    constructor
    · intro complete
      rw [if_pos ⟨closing.gotFin, complete⟩, complete]
    · intro same
      by_contra missing
      rw [if_neg fun ended => missing ended.2] at same next
      have sameValue : (initial + inOrder) % 2 ^ 32 = (initial + (stream.length + 1)) % 2 ^ 32 :=
        congrArg SequenceNumber32.value same
      omega

theorem Closing.always (closing : Closing stream initial inOrder reception) {calls : List Call}
    (legal : (Reception.machine stream initial).Legal reception calls) :
    (Reception.machine stream initial).Always
      (fun reception => ∃ inOrder, Closing stream initial inOrder reception) reception calls :=
  Machine.Legal.always (fun _ _ ⟨_, closing⟩ enabled => closing.step enabled)
    ⟨inOrder, closing⟩ legal

/-- A FIN that is recorded where the stream ends. -/
theorem closing_setFinSequence
    (invariant : Reception.Invariant stream initial inOrder reception)
    (enabled : Reception.Enabled stream reception .setFinSequence) :
    Closing stream initial inOrder (Reception.step stream initial reception .setFinSequence) := by
  have further := (step_grows invariant enabled).2
  have recorded := invariant.setFinSequence enabled
  obtain ⟨lowest, live, high⟩ := enabled
  have low := live.next
  unfold InUse at low high
  exact ⟨recorded, rfl, by omega⟩

end

/-- The segment in order that carries the rest of the stream and the FIN. -/
def finSegment (stream : List UInt8) (initial : Nat) (reception : Reception)
    (ackNumber : SequenceNumber32) (flags : UInt8) : Segment where
  sequenceNumber := SequenceNumber32.ofPosition initial reception.positions.nextRxSeq
  ackNumber := ackNumber
  flags := flags
  packet := stream.drop reception.positions.nextRxSeq

/-- The calls by which the bytes of the segment reach the buffer and the application. -/
def dataCalls (stream : List UInt8) (initial start : Nat) (reception : Reception)
    (reads : List Nat) : List Call :=
  if start < stream.length then
    let added := reception.buffer.add (stream.drop start)
      (SequenceNumber32.ofPosition initial start)
    .add start (stream.length - start) ::
      if added.2 && lt reception.buffer.nextRxSeq added.1.nextRxSeq then reads.map .extract
      else []
  else []

/-- The calls of a socket which records the FIN and stores the bytes. -/
def finCalls (stream : List UInt8) (initial : Nat) (reception : Reception) (reads : List Nat) :
    List Call :=
  .setFinSequence ::
    dataCalls stream initial reception.positions.nextRxSeq
      (Reception.step stream initial reception .setFinSequence) reads

/-- The receiver after the segment: the buffer is that of the socket, and the rest says what
arrived. -/
def arrive (stream : List UInt8) (initial : Nat) (state : TcpState) (sending : Sending)
    (reception : Reception) (ackNumber : SequenceNumber32) (flags : UInt8) (reads : List Nat) :
    Reception :=
  { (Reception.machine stream initial).run reception
      (finCalls stream initial reception reads) with
    buffer := doForwardUp state sending reception.buffer
      (finSegment stream initial reception ackNumber flags) reads }

/-- The FIN is at the end of the stream when the segment was processed, and ever after. -/
def RecordsFin (stream : List UInt8) (initial : Nat) (reception : Reception) : Prop :=
  ∀ calls, (Reception.machine stream initial).Legal reception calls →
    (Reception.machine stream initial).Always (AtEnd stream initial) reception calls

section

variable {stream : List UInt8} {initial inOrder start : Nat} {reception : Reception}
  {segment : Segment} {reads : List Nat}

theorem step_extract_buffer (invariant : Reception.Invariant stream initial inOrder reception)
    {maxSize : Nat} (enabled : Reception.Enabled stream reception (.extract maxSize)) :
    (Reception.step stream initial reception (.extract maxSize)).buffer =
      reception.buffer.read maxSize := by
  obtain ⟨lowest, live⟩ := enabled
  obtain ⟨after, found, -⟩ := invariant.delivering.extract live maxSize
  have same := extract_numbered (SequenceNumber32.faithful_ofPosition initial lowest) live maxSize
  rw [found, Option.map_some, ← invariant.numbered] at same
  rw [Reception.step, TcpRxBuffer.read, same, found]

/-- The reads of the application are calls of the run. -/
theorem notifyDataRecv_run (invariant : Reception.Invariant stream initial inOrder reception)
    (legal : (Reception.machine stream initial).Legal reception (reads.map .extract)) :
    notifyDataRecv reception.buffer reads =
      ((Reception.machine stream initial).run reception (reads.map .extract)).buffer := by
  induction reads generalizing reception with
  | nil => rfl
  | cons maxSize reads inductionHypothesis =>
      have enabled : Reception.Enabled stream reception (.extract maxSize) := legal.1
      have legal := legal.2
      have first := step_extract_buffer invariant enabled
      have rest := inductionHypothesis (invariant.extract enabled) legal
      rw [first] at rest
      exact rest

theorem receivedData_run (invariant : Reception.Invariant stream initial inOrder reception)
    (some : start < stream.length)
    (sameNumber : segment.sequenceNumber = SequenceNumber32.ofPosition initial start)
    (samePacket : segment.packet = stream.drop start)
    (legal : (Reception.machine stream initial).Legal reception
      (dataCalls stream initial start reception reads)) :
    receivedData reception.buffer segment reads =
      ((Reception.machine stream initial).run reception
        (dataCalls stream initial start reception reads)).buffer := by
  have whole : (stream.drop start).take (stream.length - start) = stream.drop start := by
    rw [← List.length_drop, List.take_length]
  rw [dataCalls, if_pos some] at legal ⊢
  obtain ⟨enabled, legal⟩ := legal
  obtain ⟨newInOrder, -, added⟩ := invariant.add enabled
  have buffer : (Reception.step stream initial reception (.add start (stream.length - start))).buffer
      = (reception.buffer.add (stream.drop start)
          (SequenceNumber32.ofPosition initial start)).1 := by
    rw [Reception.step, whole]
  rw [receivedData, samePacket, sameNumber, Machine.run_cons]
  split
  · rename_i notified
    rw [if_pos notified] at legal
    rw [← buffer]
    exact notifyDataRecv_run added legal
  · exact buffer.symm

theorem sameFin_read (rxBuffer : TcpRxBuffer SequenceNumber32) (maxSize : Nat) :
    SameFin rxBuffer (rxBuffer.read maxSize) := by
  unfold TcpRxBuffer.read
  split
  · rename_i found
    obtain ⟨extracted, -, same⟩ := Option.map_eq_some_iff.mp found
    cases same
    exact ⟨rfl, rfl, rfl⟩
  · exact ⟨rfl, rfl, rfl⟩

theorem notifyDataRecv_gotFin (rxBuffer : TcpRxBuffer SequenceNumber32) (reads : List Nat) :
    (notifyDataRecv rxBuffer reads).gotFin = rxBuffer.gotFin := by
  induction reads generalizing rxBuffer with
  | nil => rfl
  | cons maxSize reads inductionHypothesis =>
      exact (inductionHypothesis _).trans (sameFin_read rxBuffer maxSize).gotFin

/-- Data alone does not record a FIN. -/
theorem receivedData_gotFin (rxBuffer : TcpRxBuffer SequenceNumber32) (segment : Segment)
    (reads : List Nat) : (receivedData rxBuffer segment reads).gotFin = rxBuffer.gotFin := by
  have added := (sameFin_add rxBuffer segment.packet segment.sequenceNumber).gotFin
  unfold receivedData
  dsimp only
  split
  · exact (notifyDataRecv_gotFin _ reads).trans added
  · exact added

theorem processEstablished_closes (closes : segment.Closes) (sending : Sending)
    (rxBuffer : TcpRxBuffer SequenceNumber32) :
    processEstablished sending rxBuffer segment reads = peerClose rxBuffer segment reads := by
  unfold processEstablished
  rcases closes with same | same
  · rw [same]
    rfl
  · rw [same]
    rfl

/-- A half-closed socket by the flags and the bytes of a segment with a FIN. -/
theorem processWait_closes (closes : segment.Closes) (rxBuffer : TcpRxBuffer SequenceNumber32) :
    processWait rxBuffer segment reads =
      if segment.packet = [] then rxBuffer.setFinSequence segment.sequenceNumber
      else if segment.tcpflags = fin then receivedData rxBuffer segment reads
      else (receivedData rxBuffer segment reads).setFinSequence segment.sequenceNumber := by
  have positive : segment.packet.length > 0 ↔ segment.packet ≠ [] := List.length_pos_iff
  unfold processWait receivedAck
  rcases closes with same | same
  · rw [same]
    by_cases empty : segment.packet = []
    · rw [if_neg fun bare => positive.mp bare.1 empty, if_pos empty]
      rfl
    · rw [if_pos ⟨positive.mpr empty, rfl⟩, if_neg empty]
      rfl
  · rw [same]
    by_cases empty : segment.packet = []
    · rw [if_neg fun bare => positive.mp bare.1 empty, if_pos empty,
        if_neg fun some => positive.mp some empty]
      rfl
    · rw [if_neg (fun bare => absurd bare.2 (by decide)), if_pos (positive.mpr empty), if_neg empty]
      rfl

end

/-- A segment arrives that starts at the next byte and carries the rest of the stream and the
FIN. -/
structure Arrives (stream : List UInt8) (initial : Nat) (reception : Reception)
    (ackNumber : SequenceNumber32) (flags : UInt8) (reads : List Nat) : Prop where
  within : reception.positions.nextRxSeq ≤ stream.length
  closes : (finSegment stream initial reception ackNumber flags).Closes
  legal : (Reception.machine stream initial).Legal reception
    (finCalls stream initial reception reads)

section

variable {stream : List UInt8} {initial inOrder : Nat} {reception : Reception}
  {ackNumber : SequenceNumber32} {flags : UInt8} {reads : List Nat}

theorem nextRxSeq_eq (invariant : Reception.Invariant stream initial inOrder reception) :
    reception.buffer.nextRxSeq =
      SequenceNumber32.ofPosition initial reception.positions.nextRxSeq := by
  rw [invariant.numbered]
  rfl

/-- The end of the segment is the end of the stream. -/
theorem finSegment_end (within : reception.positions.nextRxSeq ≤ stream.length) :
    SequenceSpace.add (SequenceNumber32.ofPosition initial reception.positions.nextRxSeq)
      (stream.drop reception.positions.nextRxSeq).length =
      SequenceNumber32.ofPosition initial stream.length := by
  rw [SequenceNumber32.ofPosition_add, List.length_drop, Nat.add_sub_cancel' within]

/-- The bytes of the segment are stored, if there are any, when the FIN is recorded. -/
theorem Arrives.data_run (arrives : Arrives stream initial reception ackNumber flags reads)
    (invariant : Reception.Invariant stream initial inOrder reception) :
    (if (stream.drop reception.positions.nextRxSeq).length > 0 then
      receivedData (Reception.step stream initial reception .setFinSequence).buffer
        (finSegment stream initial reception ackNumber flags) reads
    else (Reception.step stream initial reception .setFinSequence).buffer) =
      ((Reception.machine stream initial).run reception
        (finCalls stream initial reception reads)).buffer := by
  obtain ⟨enabled, legal⟩ := arrives.legal
  rw [finCalls, Machine.run_cons, List.length_drop]
  split
  · exact receivedData_run (invariant.setFinSequence enabled) (by omega) rfl rfl legal
  · rw [dataCalls, if_neg (by omega)]
    rfl

/-- The FIN that was recorded is recorded again. -/
theorem setFinSequence_again (invariant : Reception.Invariant stream initial inOrder reception)
    (known : reception.buffer.gotFin = true)
    (missing : reception.positions.nextRxSeq < stream.length)
    (enabled : Reception.Enabled stream reception .setFinSequence) :
    (Reception.step stream initial reception .setFinSequence).buffer = reception.buffer := by
  obtain ⟨lowest, live, inUse⟩ := enabled
  have knownPositions : reception.positions.gotFin = true := by
    rw [invariant.numbered] at known
    exact known
  have finSeq := invariant.delivering.fin knownPositions
  have same : reception.positions.setFinSequence stream.length = reception.positions := by
    rw [TcpRxBuffer.setFinSequence, if_neg (by omega), ← finSeq, ← knownPositions]
  have numbered := setFinSequence_numbered (SequenceNumber32.faithful_ofPosition initial lowest)
    live.next inUse
  rw [same, ← invariant.numbered] at numbered
  exact numbered

/-- A socket that places the FIN makes the calls of a run. -/
theorem Arrives.run (arrives : Arrives stream initial reception ackNumber flags reads)
    (invariant : Reception.Invariant stream initial inOrder reception) {state : TcpState}
    {sending : Sending}
    (places : Places state reception.buffer
      (finSegment stream initial reception ackNumber flags)) :
    doForwardUp state sending reception.buffer
        (finSegment stream initial reception ackNumber flags) reads =
      ((Reception.machine stream initial).run reception
        (finCalls stream initial reception reads)).buffer := by
  have data := arrives.data_run invariant
  have closes := arrives.closes
  have recorded : (Reception.step stream initial reception .setFinSequence).buffer =
      reception.buffer.setFinSequence
        (SequenceNumber32.ofPosition initial stream.length) := rfl
  have waits : (finSegment stream initial reception ackNumber flags).packet = [] ∨
        (finSegment stream initial reception ackNumber flags).tcpflags = fin ∧
          reception.buffer.gotFin = true →
      processWait reception.buffer (finSegment stream initial reception ackNumber flags) reads =
        ((Reception.machine stream initial).run reception
          (finCalls stream initial reception reads)).buffer := by
    rw [processWait_closes closes]
    intro places
    split
    next empty =>
      change stream.drop reception.positions.nextRxSeq = [] at empty
      rw [if_neg fun positive => List.length_pos_iff.mp positive empty] at data
      rw [← data, recorded, ← finSegment_end arrives.within, empty, List.length_nil,
        SequenceNumber32.add_zero]
      rfl
    next some =>
      obtain ⟨bare, known⟩ := places.resolve_left some
      have missing : reception.positions.nextRxSeq < stream.length :=
        Nat.lt_of_not_le fun ended => some (List.drop_eq_nil_iff.mpr ended)
      have positive : (stream.drop reception.positions.nextRxSeq).length > 0 :=
        List.length_pos_iff.mpr some
      rw [if_pos positive, setFinSequence_again invariant known missing arrives.legal.1] at data
      rw [if_pos bare]
      exact data
  cases state with
  | established =>
      have inRange : (lt (finSegment stream initial reception ackNumber flags).sequenceNumber
            reception.buffer.nextRxSeq ||
          gt (finSegment stream initial reception ackNumber flags).sequenceNumber
            reception.buffer.maxRxSequence) = false := by
        rw [nextRxSeq_eq invariant, Bool.or_eq_false_iff]
        refine ⟨?_, Bool.not_eq_true _ ▸ places⟩
        simp [SequenceSpace.lt, finSegment]
      change processEstablished sending _ _ _ = _
      rw [processEstablished_closes closes, peerClose, inRange, ← data, recorded,
        ← finSegment_end arrives.within]
      rfl
  | finWait1 => exact waits places
  | finWait2 => exact waits places
  | closeWait => exact waits places

/-- The position of the FIN is kept from then on. -/
theorem Arrives.recordsFin (arrives : Arrives stream initial reception ackNumber flags reads)
    (invariant : Reception.Invariant stream initial inOrder reception) {state : TcpState}
    {sending : Sending}
    (places : Places state reception.buffer
      (finSegment stream initial reception ackNumber flags)) :
    RecordsFin stream initial
      (arrive stream initial state sending reception ackNumber flags reads) := by
  have recorded := closing_setFinSequence invariant arrives.legal.1
  obtain ⟨newInOrder, closing⟩ := (recorded.always arrives.legal.2).last
  have same : arrive stream initial state sending reception ackNumber flags reads =
      (Reception.machine stream initial).run reception
        (finCalls stream initial reception reads) := by
    rw [arrive, arrives.run invariant places]
  intro calls legal
  rw [same] at legal ⊢
  exact (closing.always legal).mono fun _ ⟨_, closing⟩ => closing.atEnd

/-- The FIN ends up elsewhere, or nowhere, on the other branches. -/
theorem Arrives.places (arrives : Arrives stream initial reception ackNumber flags reads)
    (invariant : Reception.Invariant stream initial inOrder reception) {state : TcpState}
    {sending : Sending}
    (atEnd : AtEnd stream initial
      (arrive stream initial state sending reception ackNumber flags reads)) :
    Places state reception.buffer (finSegment stream initial reception ackNumber flags) := by
  have closes := arrives.closes
  have within := arrives.within
  obtain ⟨lowest, live, inUse⟩ := arrives.legal.1
  have faithful := SequenceNumber32.faithful_ofPosition initial lowest
  have gotFin : (doForwardUp state sending reception.buffer
    (finSegment stream initial reception ackNumber flags) reads).gotFin = true := atEnd.gotFin
  have finSeq : (doForwardUp state sending reception.buffer
      (finSegment stream initial reception ackNumber flags) reads).finSeq =
    SequenceNumber32.ofPosition initial stream.length := atEnd.finSeq
  have waits : (processWait reception.buffer
        (finSegment stream initial reception ackNumber flags) reads).gotFin = true →
      (processWait reception.buffer
        (finSegment stream initial reception ackNumber flags) reads).finSeq =
        SequenceNumber32.ofPosition initial stream.length →
      (finSegment stream initial reception ackNumber flags).packet = [] ∨
        (finSegment stream initial reception ackNumber flags).tcpflags = fin ∧
          reception.buffer.gotFin = true := by
    rw [processWait_closes closes]
    intro gotFin finSeq
    rw [or_iff_not_imp_left]
    intro some
    rw [if_neg some] at gotFin finSeq
    by_cases bare : (finSegment stream initial reception ackNumber flags).tcpflags = fin
    · rw [if_pos bare, receivedData_gotFin] at gotFin
      exact ⟨bare, gotFin⟩
    · -- The FIN is recorded where the bytes begin.
      rw [if_neg bare] at finSeq
      have ended := faithful.injective _ _ live.next inUse finSeq
      exact absurd (List.drop_eq_nil_iff.mpr (Nat.le_of_eq ended.symm)) some
  cases state with
  | established =>
      intro beyond
      have ignored : peerClose reception.buffer
          (finSegment stream initial reception ackNumber flags) reads = reception.buffer := by
        rw [peerClose, beyond, Bool.or_true]
        rfl
      change (processEstablished sending _ _ _).gotFin = true at gotFin
      rw [processEstablished_closes closes, ignored] at gotFin
      rw [maxRxSequence, if_pos gotFin, invariant.numbered] at beyond
      rw [invariant.numbered] at gotFin
      rw [TcpRxBuffer.numbered, invariant.delivering.fin gotFin, finSegment] at beyond
      dsimp only at beyond
      rw [faithful.gt _ _ live.next inUse, decide_eq_true_iff] at beyond
      omega
  | finWait1 => exact waits gotFin finSeq
  | finWait2 => exact waits gotFin finSeq
  | closeWait => exact waits gotFin finSeq

end

/-- The FIN of a segment in order is recorded where the stream ends exactly where the socket is on
a branch that places it. -/
theorem recordsFin_iff (stream : List UInt8) (initial maxBuffer : Nat) (calls : List Call)
    (state : TcpState) (sending : Sending) (ackNumber : SequenceNumber32) (flags : UInt8)
    (reads : List Nat)
    (legal : (Reception.machine stream initial).Legal (Reception.create initial maxBuffer) calls)
    (arrives : Arrives stream initial ((Reception.machine stream initial).run
      (Reception.create initial maxBuffer) calls) ackNumber flags reads) :
    RecordsFin stream initial (arrive stream initial state sending
        ((Reception.machine stream initial).run (Reception.create initial maxBuffer) calls)
        ackNumber flags reads) ↔
      Places state
        ((Reception.machine stream initial).run (Reception.create initial maxBuffer) calls).buffer
        (finSegment stream initial
          ((Reception.machine stream initial).run (Reception.create initial maxBuffer) calls)
          ackNumber flags) := by
  have always : (Reception.machine stream initial).Always
      (fun reception => ∃ inOrder, Reception.Invariant stream initial inOrder reception)
      (Reception.create initial maxBuffer) calls :=
    Machine.Legal.always (fun _ _ ⟨_, invariant⟩ enabled => invariant.step enabled)
      ⟨0, Reception.invariant_create stream initial maxBuffer⟩ legal
  obtain ⟨inOrder, invariant⟩ := always.last
  constructor
  · intro records
    exact arrives.places invariant (records [] trivial)
  · intro places
    exact arrives.recordsFin invariant places

/-- The last two bytes of a stream arrive with the FIN at an established socket, and the
application reads. -/
theorem recordsFin_iff_established :
    RecordsFin [1, 2, 3] 4294967295 (arrive [1, 2, 3] 4294967295 .established
        ⟨SequenceNumber32.ofNat 0, SequenceNumber32.ofNat 0⟩
        ((Reception.machine [1, 2, 3] 4294967295).run (Reception.create 4294967295 8) [.add 0 1])
        (SequenceNumber32.ofNat 0) 17 [3]) ↔
      Places .established
        ((Reception.machine [1, 2, 3] 4294967295).run (Reception.create 4294967295 8)
          [.add 0 1]).buffer
        (finSegment [1, 2, 3] 4294967295
          ((Reception.machine [1, 2, 3] 4294967295).run (Reception.create 4294967295 8) [.add 0 1])
          (SequenceNumber32.ofNat 0) 17) :=
  recordsFin_iff [1, 2, 3] 4294967295 8 [.add 0 1] .established _ _ 17 [3]
    ⟨⟨by decide, 0, by decide⟩, trivial⟩
    ⟨by decide, .inr (by decide),
      ⟨0, by decide⟩, ⟨by decide, 0, by decide⟩, ⟨0, by decide⟩, trivial⟩

/-- A half-closed socket receives the one byte of a stream together with the FIN. -/
theorem not_recordsFin : ¬ ∀ (stream : List UInt8) (initial maxBuffer : Nat) (calls : List Call)
    (state : TcpState) (sending : Sending) (ackNumber : SequenceNumber32) (flags : UInt8)
    (reads : List Nat),
    (Reception.machine stream initial).Legal (Reception.create initial maxBuffer) calls →
    Arrives stream initial ((Reception.machine stream initial).run
      (Reception.create initial maxBuffer) calls) ackNumber flags reads →
    RecordsFin stream initial (arrive stream initial state sending
      ((Reception.machine stream initial).run (Reception.create initial maxBuffer) calls)
      ackNumber flags reads) := by
  intro records
  have atEnd := records [7] 0 8 [] .finWait2 ⟨SequenceNumber32.ofNat 0, SequenceNumber32.ofNat 0⟩
    (SequenceNumber32.ofNat 0) 17 [] trivial
    ⟨by decide, .inr (by decide), ⟨0, by decide⟩, ⟨by decide, 0, by decide⟩, trivial⟩ [] trivial
  exact absurd atEnd.finSeq (by decide)

end TcpSocketBase

end Ns3.Internet
