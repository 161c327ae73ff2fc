import Ns3.Lte.RlcUm.Reassembly

/-!
The reception buffer hands out the PDUs in the order of their numbers.

The numbers of PDUs do not wrap here: a PDU has its place among those sent, and the buffer has it
under this number modulo 1024. `Processing` says that the PDUs before `next` are done with, and
that those in the buffer and the highest one that has come leave no gap of 512 numbers.
-/

namespace Ns3.Lte.LteRlcUm

open Library

/-- The PDUs that were sent carry the data fields. -/
structure Stream (fields : List (List Segment)) (sent : List Pdu) : Prop where
  coherent : ∃ sdus left, assemble none fields.flatten = some (sdus, left)
  length : fields.length = sent.length
  carries : ∀ number pdu segments, sent[number]? = some pdu → fields[number]? = some segments →
    Carries number pdu segments

theorem Sending.stream {transmitter : Transmitter} {accepted : List Bytes} {sent : List Pdu}
    {fields : List (List Segment)} (sending : Sending transmitter accepted sent fields) :
    Stream fields sent := by
  obtain ⟨early, between, _, assembled, _⟩ := assemble_first sending.assembled
  exact ⟨⟨early, between, assembled⟩, sending.length, sending.carries⟩

/-- The PDUs that are held are to be reassembled next, and there is always one among 512. -/
structure Pending (next high : Nat) (Held : Nat → Prop) : Prop where
  ahead : ∀ number, Held number → next ≤ number ∧ number < high
  dense : ∀ number, next ≤ number → number + 512 ≤ high →
    ∃ held, Held held ∧ number ≤ held ∧ held < number + 512
  top : high = next ∨ 0 < high ∧ Held (high - 1)

namespace Pending

variable {next high number : Nat} {Held : Nat → Prop}

/-- The first PDU that is held is near. -/
theorem near (pending : Pending next high Held) (held : Held number)
    (first : ∀ other, Held other → number ≤ other) : number < next + 512 := by
  by_cases far : next + 512 ≤ high
  · obtain ⟨other, isHeld, _, bound⟩ := pending.dense next le_rfl far
    exact (first other isHeld).trans_lt bound
  · have := pending.ahead number held
    omega

/-- The first PDU that is held is taken. -/
theorem pop (pending : Pending next high Held) (held : Held number)
    (first : ∀ other, Held other → number ≤ other) :
    Pending (number + 1) high fun other => Held other ∧ other ≠ number where
  ahead := by
    rintro other ⟨isHeld, different⟩
    exact ⟨lt_of_le_of_ne (first other isHeld) (Ne.symm different), (pending.ahead other isHeld).2⟩
  dense := by
    intro lower above room
    have := pending.ahead number held
    obtain ⟨other, isHeld, least, bound⟩ := pending.dense lower (by omega) room
    exact ⟨other, ⟨isHeld, by omega⟩, least, bound⟩
  top := by
    have := pending.ahead number held
    rcases pending.top with same | ⟨positive, isHeld⟩
    · omega
    · by_cases last : high = number + 1
      · exact .inl last
      · exact .inr ⟨positive, isHeld, by omega⟩

/-- A PDU comes in: one below the highest, or one that is less than 512 above it. -/
theorem place (pending : Pending next high Held) (after : next ≤ number)
    (near : number < high + 512) :
    Pending next (max high (number + 1)) fun other => Held other ∨ other = number where
  ahead := by
    rintro other (isHeld | rfl)
    · have := pending.ahead other isHeld
      omega
    · omega
  dense := by
    intro lower above room
    by_cases before : lower + 512 ≤ high
    · obtain ⟨other, isHeld, bounds⟩ := pending.dense lower above before
      exact ⟨other, .inl isHeld, bounds⟩
    · by_cases here : lower ≤ number ∧ number < lower + 512
      · exact ⟨number, .inr rfl, here⟩
      · rcases pending.top with same | ⟨positive, isHeld⟩
        · omega
        · exact ⟨high - 1, .inl isHeld, by omega, by omega⟩
  top := by
    by_cases higher : high ≤ number
    · exact .inr ⟨by omega, .inr (by omega)⟩
    · rcases pending.top with same | ⟨positive, isHeld⟩
      · omega
      · exact .inr ⟨by omega, .inl (by rwa [max_eq_left (by omega)])⟩

end Pending

/-- The reception buffer has the PDUs that are held. -/
structure Buffers (sent : List Pdu) (Held : Nat → Prop) (rxBuffer : OrderedMap Pdu) : Prop where
  find : ∀ sn pdu, rxBuffer.find sn = some pdu ↔
    ∃ number, Held number ∧ number % 1024 = sn ∧ sent[number]? = some pdu
  held : ∀ number, Held number → number < sent.length
  apart : ∀ number other, Held number → Held other → number < other + 1024

namespace Buffers

variable {sent : List Pdu} {Held : Nat → Prop} {rxBuffer : OrderedMap Pdu} {number : Nat}

theorem eq_of_mod (buffers : Buffers sent Held rxBuffer) {other : Nat} (held : Held number)
    (otherHeld : Held other) (same : number % 1024 = other % 1024) : number = other := by
  have := buffers.apart number other held otherHeld
  have := buffers.apart other number otherHeld held
  omega

theorem find_held (buffers : Buffers sent Held rxBuffer) (held : Held number) :
    ∃ pdu, sent[number]? = some pdu ∧ rxBuffer.find (number % 1024) = some pdu := by
  have inside := buffers.held number held
  exact ⟨sent[number], List.getElem?_eq_getElem inside,
    (buffers.find _ _).mpr ⟨number, held, rfl, List.getElem?_eq_getElem inside⟩⟩

theorem erase (buffers : Buffers sent Held rxBuffer) (held : Held number) :
    Buffers sent (fun other => Held other ∧ other ≠ number) (rxBuffer.erase (number % 1024)) where
  find := by
    intro sn pdu
    rw [OrderedMap.find_erase]
    split
    case isTrue same =>
      simp only [reduceCtorEq, false_iff, not_exists]
      rintro other ⟨⟨isHeld, different⟩, isSn, _⟩
      exact different (buffers.eq_of_mod isHeld held (isSn.trans same))
    case isFalse different =>
      rw [buffers.find]
      refine exists_congr fun other => ?_
      constructor
      · rintro ⟨isHeld, isSn, isSent⟩
        refine ⟨⟨isHeld, ?_⟩, isSn, isSent⟩
        rintro rfl
        exact different isSn.symm
      · rintro ⟨⟨isHeld, _⟩, rest⟩
        exact ⟨isHeld, rest⟩
  held other isHeld := buffers.held other isHeld.1
  apart other third isHeld isHeld' := buffers.apart other third isHeld.1 isHeld'.1

theorem insert (buffers : Buffers sent Held rxBuffer) {pdu : Pdu} (isSent : sent[number]? = some pdu)
    (near : ∀ other, Held other → number < other + 1024 ∧ other < number + 1024) :
    Buffers sent (fun other => Held other ∨ other = number)
      (rxBuffer.insert (number % 1024) pdu) where
  find := by
    intro sn found
    rw [OrderedMap.find_insert]
    split
    case isTrue same =>
      subst same
      constructor
      · rintro ⟨⟩
        exact ⟨number, .inr rfl, rfl, isSent⟩
      · rintro ⟨other, isHeld | rfl, isSn, isSent'⟩
        · have := near other isHeld
          obtain rfl : other = number := by omega
          rw [← isSent, isSent']
        · rw [← isSent, isSent']
    case isFalse different =>
      rw [buffers.find]
      refine exists_congr fun other => ?_
      constructor
      · rintro ⟨isHeld, rest⟩
        exact ⟨.inl isHeld, rest⟩
      · rintro ⟨isHeld | rfl, isSn, isSent'⟩
        · exact ⟨isHeld, isSn, isSent'⟩
        · exact absurd isSn.symm different
  held := by
    rintro other (isHeld | rfl)
    · exact buffers.held other isHeld
    · exact (List.getElem?_eq_some_iff.mp isSent).1
  apart := by
    rintro other third (isHeld | rfl) (isHeld' | rfl)
    · exact buffers.apart other third isHeld isHeld'
    · exact (near other isHeld).2
    · exact (near third isHeld').1
    · omega

end Buffers

/-- The state variables and the timer are the same. -/
structure Unmoved (receiver later : Receiver) : Prop where
  vrUr : later.vrUr = receiver.vrUr
  vrUx : later.vrUx = receiver.vrUx
  vrUh : later.vrUh = receiver.vrUh
  timer : later.reorderingTimer = receiver.reorderingTimer

theorem Unmoved.refl (receiver : Receiver) : Unmoved receiver receiver := ⟨rfl, rfl, rfl, rfl⟩

theorem Unmoved.trans {receiver later last : Receiver} (first : Unmoved receiver later)
    (second : Unmoved later last) : Unmoved receiver last :=
  ⟨second.vrUr.trans first.vrUr, second.vrUx.trans first.vrUx, second.vrUh.trans first.vrUh,
    second.timer.trans first.timer⟩

/-- Reassembling touches neither the state variables nor the buffer. -/
theorem reassembleAndDeliver_unmoved (receiver : Receiver) (pdu : Pdu) :
    Unmoved receiver (receiver.reassembleAndDeliver pdu) ∧
      (receiver.reassembleAndDeliver pdu).rxBuffer = receiver.rxBuffer := by
  have restart : ∀ receiver : Receiver, Unmoved receiver receiver.restartWithin ∧
      receiver.restartWithin.rxBuffer = receiver.rxBuffer := by
    intro receiver
    rw [Receiver.restartWithin]
    split <;> exact ⟨⟨rfl, rfl, rfl, rfl⟩, rfl⟩
  have table : ∀ (receiver : Receiver) framingInfo lost,
      Unmoved receiver (receiver.reassemble framingInfo lost) ∧
        (receiver.reassemble framingInfo lost).rxBuffer = receiver.rxBuffer := by
    intro receiver framingInfo lost
    unfold Receiver.reassemble
    split
    case h_4 => exact restart receiver
    case h_6 => split <;> exact ⟨⟨rfl, rfl, rfl, rfl⟩, rfl⟩
    case h_11 => exact restart receiver
    case h_15 =>
      obtain ⟨⟨vrUr, vrUx, vrUh, timer⟩, rxBuffer⟩ := restart { receiver with keepS0 := none }
      exact ⟨⟨vrUr, vrUx, vrUh, timer⟩, rxBuffer⟩
    all_goals exact ⟨⟨rfl, rfl, rfl, rfl⟩, rfl⟩
  obtain ⟨⟨vrUr, vrUx, vrUh, timer⟩, rxBuffer⟩ := table (receiver.buildList pdu)
    pdu.header.framingInfo (receiver.expectedSnLost pdu)
  exact ⟨⟨vrUr, vrUx, vrUh, timer⟩, rxBuffer⟩

/-- Everything before a number is reassembled, and the rest is in the buffer. -/
structure Processing (fields : List (List Segment)) (sent : List Pdu) (next high : Nat)
    (Held : Nat → Prop) (receiver : Receiver) : Prop where
  assembled : Assembled fields next receiver
  pending : Pending next high Held
  buffers : Buffers sent Held receiver.rxBuffer

namespace Processing

variable {fields : List (List Segment)} {sent : List Pdu} {next high number : Nat}
  {Held : Nat → Prop} {receiver : Receiver}

/-- The state variables do not matter. -/
theorem of_eq (processing : Processing fields sent next high Held receiver) {later : Receiver}
    (expected : later.expectedSeqNumber = receiver.expectedSeqNumber)
    (sdus : later.sdusBuffer = receiver.sdusBuffer)
    (state : later.reassemblingState = receiver.reassemblingState)
    (kept : later.keepS0 = receiver.keepS0) (delivered : later.delivered = receiver.delivered)
    (rxBuffer : later.rxBuffer = receiver.rxBuffer) :
    Processing fields sent next high Held later := by
  refine ⟨⟨?_, ?_, ?_⟩, processing.pending, rxBuffer ▸ processing.buffers⟩
  · rw [expected]
    exact processing.assembled.expected
  · rw [sdus]
    exact processing.assembled.emptied
  · rw [state, kept, delivered]
    exact processing.assembled.progress

theorem congr (processing : Processing fields sent next high Held receiver) {Held' : Nat → Prop}
    (same : ∀ number, Held number ↔ Held' number) :
    Processing fields sent next high Held' receiver := by
  obtain rfl : Held = Held' := funext fun number => propext (same number)
  exact processing

/-- The first PDU that is held is reassembled and leaves the buffer. -/
theorem pop (stream : Stream fields sent)
    (processing : Processing fields sent next high Held receiver) (held : Held number)
    (first : ∀ other, Held other → number ≤ other) {pdu : Pdu}
    (found : sent[number]? = some pdu) :
    Processing fields sent (number + 1) high (fun other => Held other ∧ other ≠ number)
      { receiver.reassembleAndDeliver pdu with
        rxBuffer := (receiver.reassembleAndDeliver pdu).rxBuffer.erase (number % 1024) } := by
  have inside : number < fields.length := by
    rw [stream.length]
    exact processing.buffers.held number held
  have field := List.getElem?_eq_getElem inside
  have ordered := (processing.pending.ahead number held).1
  have near := processing.pending.near held first
  have done := processing.assembled.take stream.coherent (stream.carries _ _ _ found field) field
    ordered (by omega)
  refine ⟨⟨done.expected, done.emptied, done.progress⟩, processing.pending.pop held first, ?_⟩
  rw [(reassembleAndDeliver_unmoved receiver pdu).2]
  exact processing.buffers.erase held

/-- The loop over an interval of numbers takes the PDUs in it. -/
theorem interval (stream : Stream fields sent) {base low stop steps : Nat}
    (processing : Processing fields sent next high Held receiver)
    (above : ∀ number, Held number → low ≤ number) (span : high ≤ low + 1024)
    (before : next ≤ stop) (lowBehind : base ≤ low + 1024) (stopAhead : stop < base) (up : low ≤ stop)
    (enough : stop ≤ low + steps) :
    ∃ next', next' ≤ stop ∧
      Unmoved receiver (Receiver.intervalLoop (.at' (stop + 1024) base) steps
        (.at' (low + 1024) base) receiver) ∧
      Processing fields sent next' high (fun number => Held number ∧ stop ≤ number)
        (Receiver.intervalLoop (.at' (stop + 1024) base) steps (.at' (low + 1024) base) receiver) := by
  induction steps generalizing low next Held receiver with
  | zero =>
      refine ⟨next, before, .refl receiver, processing.congr fun number => ?_⟩
      exact (and_iff_left_of_imp fun held => (show stop ≤ low by omega).trans (above number held)).symm
  | succ steps inductionHypothesis =>
      have order := SequenceNumber10.lt_at lowBehind (show low + 1024 < base + 1024 by omega)
        (show base ≤ stop + 1024 by omega) (show stop + 1024 < base + 1024 by omega)
      rw [Receiver.intervalLoop, order, SequenceNumber10.increment_at, SequenceNumber10.value_at,
        Nat.add_mod_right]
      by_cases isEnd : low = stop
      · subst isEnd
        rw [if_neg (by simp)]
        refine ⟨next, before, .refl receiver, processing.congr fun number => ?_⟩
        exact (and_iff_left_of_imp (above number)).symm
      · rw [if_pos (by simpa using lt_of_le_of_ne up isEnd), show low + 1024 + 1 = low + 1 + 1024 by omega]
        have onlyHere : ∀ other, Held other → other % 1024 = low % 1024 → other = low := by
          intro other held same
          have := above other held
          have := (processing.pending.ahead other held).2
          omega
        split
        case h_1 pdu found =>
          obtain ⟨other, held, same, isSent⟩ := (processing.buffers.find _ _).mp found
          obtain rfl := onlyHere other held same
          have popped := processing.pop stream held above isSent
          obtain ⟨next', bound, unmoved, later⟩ := inductionHypothesis popped
            (fun number both => lt_of_le_of_ne (above number both.1) (Ne.symm both.2)) (by omega)
            (by omega) (by omega) (by omega) (by omega)
          refine ⟨next', bound, Unmoved.trans ?_ unmoved, later.congr fun number => ?_⟩
          · obtain ⟨⟨vrUr, vrUx, vrUh, timer⟩, _⟩ := reassembleAndDeliver_unmoved receiver pdu
            exact ⟨vrUr, vrUx, vrUh, timer⟩
          · constructor
            · rintro ⟨⟨held, _⟩, bound⟩
              exact ⟨held, bound⟩
            · rintro ⟨held, bound⟩
              exact ⟨⟨held, by omega⟩, bound⟩
        case h_2 absent =>
          refine inductionHypothesis processing (fun number held => ?_) (by omega) before (by omega)
            (by omega) (by omega)
          refine lt_of_le_of_ne (above number held) ?_
          rintro rfl
          obtain ⟨pdu, _, found⟩ := processing.buffers.find_held held
          rw [absent] at found
          cases found

end Processing

section Window

variable {receiver : Receiver} {high : Nat} (vrUh : receiver.vrUh.value = high % 1024)
include vrUh

theorem windowBase_value : receiver.windowBase.value = (high + 512) % 1024 := by
  have same : receiver.vrUh.sub Receiver.windowSize =
      { (SequenceNumber10.at' (high + 1024) 0).sub 512 with
        modulusBase := receiver.vrUh.modulusBase } := by
    simp [SequenceNumber10.sub, vrUh, Receiver.windowSize]
  rw [Receiver.windowBase, same, SequenceNumber10.sub_at (by omega) (by omega)]
  simp

theorem setModulusBase_window {number : SequenceNumber10} {position : Nat}
    (value : number.value = position % 1024) :
    number.setModulusBase receiver.windowBase = .at' position (high + 512) :=
  SequenceNumber10.eq_at _ value (windowBase_value vrUh)

/-- The window has the 512 numbers below the highest one. -/
theorem isInside_iff {seqNumber : SequenceNumber10} {number : Nat}
    (value : seqNumber.value = number % 1024) (lower : high ≤ number + 1024)
    (upper : number < high + 512) :
    receiver.isInsideReorderingWindow seqNumber = true ↔ high ≤ number + 512 ∧ number < high := by
  have top : receiver.vrUh.setModulusBase receiver.windowBase =
      .at' (high + 1024) (high + 512) := setModulusBase_window vrUh (by simp [vrUh])
  have bottom : (SequenceNumber10.at' (high + 1024) (high + 512)).sub 512 =
      .at' (high + 512) (high + 512) := by
    rw [SequenceNumber10.sub_at (by omega) (by omega), show high + 1024 - 512 = high + 512 by omega]
  simp only [Receiver.isInsideReorderingWindow, top, Receiver.windowSize, bottom,
    SequenceNumber10.setModulusBase_at, Bool.and_eq_true]
  by_cases recent : high ≤ number + 512
  · have position : (⟨seqNumber.value, (high + 512) % 1024⟩ : SequenceNumber10) =
        .at' (number + 1024) (high + 512) := by simp [SequenceNumber10.at', value]
    rw [position, SequenceNumber10.le_at (by omega) (by omega) (by omega) (by omega),
      SequenceNumber10.lt_at (by omega) (by omega) (by omega) (by omega)]
    simp only [decide_eq_true_eq]
    omega
  · have position : (⟨seqNumber.value, (high + 512) % 1024⟩ : SequenceNumber10) =
        .at' (number + 2048) (high + 512) := SequenceNumber10.eq_at _ (by simp only [value]; omega) rfl
    rw [position, SequenceNumber10.le_at (by omega) (by omega) (by omega) (by omega),
      SequenceNumber10.lt_at (by omega) (by omega) (by omega) (by omega)]
    simp only [decide_eq_true_eq]
    omega

end Window

namespace Processing

variable {fields : List (List Segment)} {sent : List Pdu} {next high : Nat}
  {Held : Nat → Prop} {receiver : Receiver}

/-- The walk over the buffer takes what has fallen out of the window, if the numbers in the
buffer have not come round between. -/
theorem outside (stream : Stream fields sent) {entries : List (Nat × Pdu)}
    (processing : Processing fields sent next high Held receiver)
    (vrUh : receiver.vrUh.value = high % 1024)
    (listed : ∀ sn pdu, (sn, pdu) ∈ entries ↔ receiver.rxBuffer.find sn = some pdu)
    (ascending : entries.Pairwise (·.1 < ·.1)) (span : ∀ number, Held number → high ≤ number + 1024)
    (straight : ∀ number other, Held number → Held other → number + 512 < high → number < other →
      number % 1024 < other % 1024) :
    ∃ next', (next' = next ∨ next' + 512 ≤ high) ∧
      (Receiver.outsideLoop entries receiver).vrUh.value = receiver.vrUh.value ∧
      Unmoved { receiver with vrUh := (Receiver.outsideLoop entries receiver).vrUh }
        (Receiver.outsideLoop entries receiver) ∧
      Processing fields sent next' high (fun number => Held number ∧ high ≤ number + 512)
        (Receiver.outsideLoop entries receiver) := by
  induction entries generalizing next Held receiver with
  | nil =>
      refine ⟨next, .inl rfl, rfl, .refl receiver, processing.congr fun number => ?_⟩
      refine ⟨fun held => ?_, fun both => both.1⟩
      obtain ⟨pdu, _, found⟩ := processing.buffers.find_held held
      exact absurd ((listed _ _).mpr found) List.not_mem_nil
  | cons entry entries inductionHypothesis =>
      obtain ⟨sn, pdu⟩ := entry
      obtain ⟨less, ascendingRest⟩ := List.pairwise_cons.mp ascending
      obtain ⟨number, held, rfl, isSent⟩ :=
        (processing.buffers.find _ _).mp ((listed sn pdu).mp List.mem_cons_self)
      -- The numbers of the other entries are higher, wrapped as they are.
      have lowest : ∀ other, Held other → number % 1024 ≤ other % 1024 := by
        intro other isHeld
        obtain ⟨pdu', _, found⟩ := processing.buffers.find_held isHeld
        rcases List.mem_cons.mp ((listed _ _).mpr found) with same | further
        · exact (congrArg Prod.fst same).ge
        · exact (less _ further).le
      have value : (SequenceNumber10.ofNat (number % 1024)).value = number % 1024 := by
        simp [SequenceNumber10.ofNat]
      have bounds := processing.pending.ahead number held
      have window := isInside_iff vrUh value (span number held) (by omega)
      have rebased : Processing fields sent next high Held receiver.rebase :=
        processing.of_eq rfl rfl rfl rfl rfl rfl
      rw [Receiver.outsideLoop]
      split
      case isTrue inside =>
        refine ⟨next, .inl rfl, rfl, ⟨rfl, rfl, rfl, rfl⟩, rebased.congr fun other => ?_⟩
        refine ⟨fun isHeld => ⟨isHeld, ?_⟩, fun both => both.1⟩
        by_contra out
        have := straight other number isHeld held (by omega)
          (by have := window.mp inside; omega)
        have := lowest other isHeld
        omega
      case isFalse notInside =>
        have isOut : number + 512 < high := by
          by_contra recent
          exact notInside (window.mpr ⟨by omega, bounds.2⟩)
        have first : ∀ other, Held other → number ≤ other := by
          intro other isHeld
          by_contra before
          have := straight other number isHeld held (by omega) (by omega)
          have := lowest other isHeld
          omega
        have popped := rebased.pop stream held first isSent
        obtain ⟨⟨vrUr, vrUx, vrUh', timer⟩, rxBuffer⟩ :=
          reassembleAndDeliver_unmoved receiver.rebase pdu
        have listedRest : ∀ sn pdu', (sn, pdu') ∈ entries ↔
            ((receiver.rebase.reassembleAndDeliver pdu).rxBuffer.erase (number % 1024)).find sn =
              some pdu' := by
          intro sn pdu'
          have before := listed sn pdu'
          rw [List.mem_cons] at before
          rw [rxBuffer, OrderedMap.find_erase]
          split
          case isTrue same =>
            simp only [reduceCtorEq, iff_false]
            intro further
            exact (less _ further).ne same.symm
          case isFalse different =>
            rw [show receiver.rebase.rxBuffer = receiver.rxBuffer from rfl, ← before]
            simp [different]
        have same : (receiver.rebase.reassembleAndDeliver pdu).vrUh.value = receiver.vrUh.value :=
          congrArg (·.value) vrUh'
        obtain ⟨next', bound, highest, unmoved, later⟩ := inductionHypothesis popped
          (same.trans vrUh) listedRest ascendingRest (fun other both => span other both.1)
          fun other third isHeld isHeld' => straight other third isHeld.1 isHeld'.1
        refine ⟨next', .inr (by omega), highest.trans same, ?_, later.congr fun other => ?_⟩
        · exact ⟨unmoved.vrUr.trans vrUr, unmoved.vrUx.trans vrUx, rfl, unmoved.timer.trans timer⟩
        · constructor
          · rintro ⟨⟨isHeld, _⟩, recent⟩
            exact ⟨isHeld, recent⟩
          · rintro ⟨isHeld, recent⟩
            exact ⟨⟨isHeld, by omega⟩, recent⟩

end Processing

end Ns3.Lte.LteRlcUm
