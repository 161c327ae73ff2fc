import Ns3.Lte.RlcUm.Reordering

/-!
What the receiving entity keeps from one PDU to the next.

`Receiving` names the state variables by numbers that do not wrap. VR(UR) is below all PDUs in
the buffer, and these are within the reordering window.
-/

namespace Ns3.Lte.LteRlcUm

open Library

/-- The state variables at rest. -/
structure Receiving (fields : List (List Segment)) (sent : List Pdu) (next low timed high : Nat)
    (Held : Nat → Prop) (receiver : Receiver) : Prop where
  processing : Processing fields sent next high Held receiver
  vrUr : receiver.vrUr.value = low % 1024
  vrUh : receiver.vrUh.value = high % 1024
  done : next ≤ low
  below : low ≤ high
  window : high ≤ low + 512
  above : ∀ number, Held number → low < number
  running : receiver.reorderingTimer = true → low < timed ∧ timed ≤ high ∧
    receiver.vrUr = .at' (low + 1024) (high + 512) ∧
    receiver.vrUx = .at' (timed + 1024) (high + 512) ∧
    receiver.vrUh = .at' (high + 1024) (high + 512)

section Missing

variable {rxBuffer : OrderedMap Pdu}

/-- The first number that is missing, up to 1024 where no number is. -/
theorem firstMissing_spec {steps start : Nat} (none : rxBuffer.find 1024 = none)
    (small : start ≤ 1024) (enough : 1024 ≤ start + steps) :
    start ≤ Receiver.firstMissing rxBuffer steps start ∧
      Receiver.firstMissing rxBuffer steps start ≤ 1024 ∧
      rxBuffer.find (Receiver.firstMissing rxBuffer steps start) = .none ∧
      ∀ sn, start ≤ sn → sn < Receiver.firstMissing rxBuffer steps start →
        (rxBuffer.find sn).isSome := by
  induction steps generalizing start with
  | zero =>
      obtain rfl : start = 1024 := by omega
      exact ⟨le_rfl, le_rfl, none, fun sn above below => absurd (above.trans_lt below) (lt_irrefl _)⟩
  | succ steps inductionHypothesis =>
      rw [Receiver.firstMissing]
      split
      case isTrue present =>
        have before : start ≠ 1024 := by
          rintro rfl
          simp [none] at present
        rw [wrap_of_lt (by omega)]
        obtain ⟨above, below, absent, run⟩ :=
          @inductionHypothesis (start + 1) (by omega) (by omega)
        refine ⟨by omega, below, absent, fun sn after before => ?_⟩
        rcases Nat.eq_or_lt_of_le after with rfl | later
        · exact present
        · exact run sn later before
      case isFalse absent =>
        refine ⟨le_rfl, small, by simpa using absent, fun sn above below => ?_⟩
        exact absurd (above.trans_lt below) (lt_irrefl _)

/-- The first number from a position on that is not held. -/
theorem firstAbsent_spec {Held : Nat → Prop} {steps start base limit : Nat}
    (found : ∀ number, start ≤ number → number ≤ limit →
      ((rxBuffer.find (number % 1024)).isSome ↔ Held number))
    (free : ¬ Held limit) (up : start ≤ limit) (enough : limit ≤ start + steps) :
    ∃ stop, start ≤ stop ∧ stop ≤ limit ∧ ¬ Held stop ∧
      (∀ number, start ≤ number → number < stop → Held number) ∧
      Receiver.firstAbsent rxBuffer steps (.at' (start + 1024) base) = .at' (stop + 1024) base := by
  induction steps generalizing start with
  | zero =>
      obtain rfl : start = limit := by omega
      exact ⟨start, le_rfl, le_rfl, free,
        fun number above below => absurd (above.trans_lt below) (lt_irrefl _), rfl⟩
  | succ steps inductionHypothesis =>
      rw [Receiver.firstAbsent, SequenceNumber10.value_at, Nat.add_mod_right,
        SequenceNumber10.increment_at]
      split
      case isTrue present =>
        have held := (found start le_rfl up).mp present
        have before : start ≠ limit := by
          rintro rfl
          exact free held
        obtain ⟨stop, above, below, absent, run, result⟩ := @inductionHypothesis (start + 1)
          (fun number after => found number (by omega)) (by omega) (by omega)
        refine ⟨stop, by omega, below, absent, fun number after before => ?_, ?_⟩
        · rcases Nat.eq_or_lt_of_le after with rfl | later
          · exact held
          · exact run number later before
        · rw [show start + 1024 + 1 = start + 1 + 1024 by omega]
          exact result
      case isFalse absent =>
        refine ⟨start, le_rfl, up, fun held => absent ((found start le_rfl up).mpr held),
          fun number above below => absurd (above.trans_lt below) (lt_irrefl _), rfl⟩

end Missing

/-- The window has moved, and VR(UR) is at its old place or at the lower edge. -/
structure Moved (fields : List (List Segment)) (sent : List Pdu) (next low high base : Nat)
    (Held : Nat → Prop) (receiver : Receiver) : Prop where
  processing : Processing fields sent next high Held receiver
  vrUr : receiver.vrUr = .at' (low + 1024) base
  vrUh : receiver.vrUh.value = high % 1024
  done : next ≤ low
  below : low ≤ high
  window : high ≤ low + 512
  above : ∀ number, Held number → low ≤ number
  behind : base ≤ low + 1024
  reach : ∀ stop, (∀ number, low ≤ number → number < stop → Held number) → stop < base

/-- VR(UR) has moved past the PDUs in the buffer. -/
structure Advanced (fields : List (List Segment)) (sent : List Pdu) (next low high : Nat)
    (Held : Nat → Prop) (receiver : Receiver) : Prop where
  processing : Processing fields sent next high Held receiver
  vrUr : receiver.vrUr.value = low % 1024
  vrUh : receiver.vrUh.value = high % 1024
  done : next ≤ low
  below : low ≤ high
  window : high ≤ low + 512
  above : ∀ number, Held number → low < number

variable {fields : List (List Segment)} {sent : List Pdu} {next low timed high base : Nat}
  {Held : Nat → Prop} {receiver : Receiver}

/-- Whether a number is in the buffer. -/
theorem Processing.isSome_iff (processing : Processing fields sent next high Held receiver)
    (above : ∀ number, Held number → low ≤ number) (span : high ≤ low + 512) {number : Nat}
    (lower : low ≤ number) (upper : number ≤ low + 512) :
    (receiver.rxBuffer.find (number % 1024)).isSome ↔ Held number := by
  rw [Option.isSome_iff_exists]
  constructor
  · rintro ⟨pdu, found⟩
    obtain ⟨other, held, same, _⟩ := (processing.buffers.find _ _).mp found
    have := above other held
    have := (processing.pending.ahead other held).2
    obtain rfl : other = number := by omega
    exact held
  · intro held
    obtain ⟨pdu, _, found⟩ := processing.buffers.find_held held
    exact ⟨pdu, found⟩

/-- VR(UR) moves to the first number that is missing, unless the run of numbers goes round. -/
theorem Moved.moveVrUr (stream : Stream fields sent)
    (moved : Moved fields sent next low high base Held receiver)
    (unbroken : ¬ ((receiver.rxBuffer.find 0).isSome ∧
      ∀ sn, low % 1024 ≤ sn → sn < 1024 → (receiver.rxBuffer.find sn).isSome)) :
    ∃ next' low' Held', Advanced fields sent next' low' high Held' receiver.moveVrUr ∧
      receiver.moveVrUr.vrUx = receiver.vrUx ∧
      receiver.moveVrUr.reorderingTimer = receiver.reorderingTimer := by
  have found := fun number lower upper =>
    @Processing.isSome_iff _ _ _ low _ _ _ moved.processing moved.above moved.window number lower
      upper
  have value : receiver.vrUr.value = low % 1024 := by simp [moved.vrUr]
  have none : receiver.rxBuffer.find 1024 = none := by
    rw [Option.eq_none_iff_forall_ne_some]
    intro pdu present
    obtain ⟨number, _, same, _⟩ := (moved.processing.buffers.find _ _).mp present
    omega
  rw [Receiver.moveVrUr, value]
  split
  case isFalse absent =>
    refine ⟨next, low, Held, ⟨moved.processing, value, moved.vrUh, moved.done, moved.below,
      moved.window, fun number held => ?_⟩, rfl, rfl⟩
    refine lt_of_le_of_ne (moved.above number held) ?_
    rintro rfl
    exact absent ((found low le_rfl (by omega)).mpr held)
  case isTrue present =>
    rw [wrap_of_lt (by omega)]
    obtain ⟨above, below, absent, run⟩ :=
      @firstMissing_spec receiver.rxBuffer 1024 (low % 1024 + 1) none (by omega) (by omega)
    generalize Receiver.firstMissing receiver.rxBuffer 1024 (low % 1024 + 1) = newVrUr at *
    -- The numbers up to `newVrUr` are those of a run of PDUs that are held.
    have present' : ∀ sn, low % 1024 ≤ sn → sn < newVrUr → (receiver.rxBuffer.find sn).isSome := by
      intro sn lower upper
      rcases Nat.eq_or_lt_of_le lower with rfl | later
      · exact present
      · exact run sn later upper
    have short : newVrUr ≤ low % 1024 + 512 := by
      by_contra long
      have held := (found (low + 512) (by omega) le_rfl).mp
        (present' ((low + 512) % 1024) (by omega) (by omega))
      have := (moved.processing.pending.ahead _ held).2
      have := moved.window
      omega
    obtain ⟨stop, isStop⟩ : ∃ stop, stop = low + (newVrUr - low % 1024) := ⟨_, rfl⟩
    have held : ∀ number, low ≤ number → number < stop → Held number := by
      intro number lower upper
      exact (found number lower (by omega)).mp (present' (number % 1024) (by omega) (by omega))
    have free : ¬ Held stop := by
      intro isHeld
      have isSome := (found stop (by omega) (by omega)).mpr isHeld
      by_cases round : newVrUr = 1024
      · rw [show stop % 1024 = 0 by omega] at isSome
        exact unbroken ⟨isSome, fun sn lower upper => present' sn lower (by omega)⟩
      · rw [show stop % 1024 = newVrUr by omega, absent] at isSome
        simp at isSome
    have last := (moved.processing.pending.ahead _ (held (stop - 1) (by omega) (by omega))).2
    have assigned : receiver.vrUr.assign newVrUr = .at' (stop + 1024) base := by
      refine SequenceNumber10.eq_at _ ?_ ?_
      · simp only [SequenceNumber10.assign]
        omega
      · simp [SequenceNumber10.assign, moved.vrUr, SequenceNumber10.at']
    have start : Processing fields sent next high Held
        { receiver with vrUr := .at' (stop + 1024) base } :=
      moved.processing.of_eq rfl rfl rfl rfl rfl rfl
    have := moved.window
    have := moved.done
    obtain ⟨next', bound, unmoved, processing⟩ := @Processing.interval _ _ next high Held _ stream
      base low stop 1024 start moved.above (by omega) (by omega) moved.behind (moved.reach stop held)
      (by omega) (by omega)
    simp only [assigned, Receiver.reassembleSnInterval]
    rw [moved.vrUr]
    refine ⟨next', stop, _, ⟨processing, ?_, ?_, bound, by omega, by omega, ?_⟩, unmoved.vrUx,
      unmoved.timer⟩
    · rw [unmoved.vrUr]
      simp
    · rw [unmoved.vrUh]
      exact moved.vrUh
    · rintro number ⟨isHeld, lower⟩
      refine lt_of_le_of_ne lower ?_
      rintro rfl
      exact free isHeld

/-- The timer runs only for a number above VR(UR). -/
theorem Advanced.updateTimer (advanced : Advanced fields sent next low high Held receiver)
    (running : receiver.reorderingTimer = true → receiver.vrUx.value = timed % 1024 ∧
      timed ≤ high ∧ high < timed + 1024) :
    ∃ timed', Receiving fields sent next low timed' high Held receiver.updateTimer := by
  have below := advanced.below
  have window := advanced.window
  have vrUr : receiver.vrUr.setModulusBase receiver.windowBase =
      .at' (low + 1024) (high + 512) :=
    setModulusBase_window advanced.vrUh (by simp [advanced.vrUr])
  have vrUh : receiver.vrUh.setModulusBase receiver.windowBase =
      .at' (high + 1024) (high + 512) :=
    setModulusBase_window advanced.vrUh (by simp [advanced.vrUh])
  have keeps : ∀ later : Receiver, later.expectedSeqNumber = receiver.expectedSeqNumber →
      later.sdusBuffer = receiver.sdusBuffer →
      later.reassemblingState = receiver.reassemblingState → later.keepS0 = receiver.keepS0 →
      later.delivered = receiver.delivered → later.rxBuffer = receiver.rxBuffer →
      Processing fields sent next high Held later :=
    fun later => advanced.processing.of_eq
  simp only [Receiver.updateTimer, vrUr, vrUh]
  have greater : (SequenceNumber10.at' (high + 1024) (high + 512)).gt
      (.at' (low + 1024) (high + 512)) = decide (low < high) := by
    rw [SequenceNumber10.gt_at (by omega) (by omega) (by omega) (by omega), decide_eq_decide]
    omega
  split
  case isTrue starts =>
    rw [greater] at starts
    have less : low < high := by simp_all
    refine ⟨high, ⟨keeps _ rfl rfl rfl rfl rfl rfl, by simp, by simp, advanced.done, below, window,
      advanced.above, fun _ => ⟨less, le_rfl, rfl, rfl, rfl⟩⟩⟩
  case isFalse notStarts =>
    refine ⟨timed, ⟨keeps _ rfl rfl rfl rfl rfl rfl, by simp, by simp, advanced.done, below, window,
      advanced.above, fun stillRuns => ?_⟩⟩
    simp only [Bool.and_eq_true, Bool.not_eq_true', Bool.and_eq_false_imp, Bool.or_eq_false_iff]
      at stillRuns
    obtain ⟨runs, goesOn⟩ := stillRuns
    obtain ⟨value, upper, lower⟩ := running runs
    obtain ⟨notLe, notStops⟩ := goesOn runs
    have vrUx : receiver.vrUx.setModulusBase receiver.windowBase =
        .at' (timed + 1024) (high + 512) := setModulusBase_window advanced.vrUh (by simp [value])
    rw [vrUx] at notLe notStops
    -- A number that has fallen out of the window is not that of VR(UH).
    have recent : high ≤ timed + 512 := by
      by_contra old
      have same := notStops (by
        rw [Bool.eq_false_iff, ne_eq,
          isInside_iff (show _ = high % 1024 by simp) (show _ = timed % 1024 by simp) (by omega)
            (by omega)]
        omega)
      have congruent : timed % 1024 = high % 1024 := by simpa using same
      omega
    rw [SequenceNumber10.le_at (by omega) (by omega) (by omega) (by omega)] at notLe
    have less : low < timed := by simpa using notLe
    exact ⟨less, upper, rfl, vrUx, rfl⟩

/-- The window moves to a number above it, and the PDUs that fall out of it are taken. -/
theorem Processing.moveWindow (stream : Stream fields sent) {number : Nat}
    (processing : Processing fields sent next (number + 1)
      (fun other => Held other ∨ other = number) receiver)
    (vrUr : receiver.vrUr = .at' (low + 1024) (high + 512))
    (vrUh : receiver.vrUh.value = high % 1024) (done : next ≤ low) (below : low ≤ high)
    (window : high ≤ low + 512) (above : ∀ other, Held other → low < other)
    (inside : ∀ other, Held other → other < high) (higher : high ≤ number)
    (near : number < high + 512)
    (straight : ∀ other, Held other → other + 512 ≤ number → other % 1024 < number % 1024) :
    ∃ next' low' base Held', (low' = low ∨ low' + 511 = number) ∧ low ≤ low' ∧
      number < low' + 512 ∧ (∀ other, Held' other → Held other ∨ other = number) ∧
      Moved fields sent next' low' (number + 1) base Held'
        (receiver.moveWindow (.at' (number + 1024) (high + 512))) ∧
      (receiver.moveWindow (.at' (number + 1024) (high + 512))).vrUx = receiver.vrUx ∧
      (receiver.moveWindow (.at' (number + 1024) (high + 512))).reorderingTimer =
        receiver.reorderingTimer := by
  have notInside : ¬ receiver.isInsideReorderingWindow (.at' (number + 1024) (high + 512)) = true := by
    rw [isInside_iff vrUh (show _ = number % 1024 by simp) (by omega) near]
    omega
  have start : Processing fields sent next (number + 1) (fun other => Held other ∨ other = number)
      { receiver.rebase with vrUh := .at' (number + 1024 + 1) (high + 512) } :=
    processing.of_eq rfl rfl rfl rfl rfl rfl
  have all : ∀ other, Held other ∨ other = number → low ≤ other ∧ other ≤ number := by
    rintro other (held | rfl)
    · have := above other held
      have := inside other held
      omega
    · omega
  have highest : (SequenceNumber10.at' (number + 1024 + 1) (high + 512)).value =
      (number + 1) % 1024 := by
    simp only [SequenceNumber10.value_at]
    omega
  obtain ⟨next', bound, same, unmoved, taken⟩ := start.outside stream highest
    (fun sn pdu => OrderedMap.find_eq_some_iff.symm) receiver.rxBuffer.ascending
    (fun other held => by have := all other held; omega) fun first second held held' out less => by
      -- The numbers from the first one up to the highest do not go round.
      have bounds := all first held
      have bounds' := all second held'
      rcases held with isHeld | rfl
      · have := straight first isHeld (by omega)
        omega
      · omega
  rw [Receiver.moveWindow, if_neg notInside, SequenceNumber10.add_at,
    Receiver.reassembleOutsideWindow]
  generalize Receiver.outsideLoop _ _ = later at same unmoved taken ⊢
  have vrUh' : later.vrUh.value = (number + 1) % 1024 := same.trans highest
  have vrUr' : later.vrUr = .at' (low + 1024) (high + 512) := unmoved.vrUr.trans vrUr
  have rebased : later.vrUh.setModulusBase later.windowBase =
      .at' (number + 1 + 1024) (number + 1 + 512) :=
    setModulusBase_window vrUh' (by simp [vrUh'])
  have edge := isInside_iff vrUh' (show later.vrUr.value = low % 1024 by simp [vrUr']) (by omega)
    (by omega)
  rw [Receiver.keepVrUrInside]
  split
  case isTrue stays =>
    have recent := edge.mp stays
    refine ⟨next', low, high + 512, _, .inl rfl, le_rfl, by omega, fun other both => both.1,
      ⟨taken.of_eq rfl rfl rfl rfl rfl rfl, vrUr', ?_, by omega, by omega, by omega,
        fun other both => (all other both.1).1, by omega, fun stop run => ?_⟩, unmoved.vrUx,
      unmoved.timer⟩
    · exact vrUh'
    · by_contra far
      have first := (run high (by omega) (by omega)).1
      have second := (run (high + 1) (by omega) (by omega)).1
      rcases first with held | rfl
      · exact absurd (inside _ held) (lt_irrefl _)
      · rcases second with held | same
        · have := inside _ held
          omega
        · omega
  case isFalse falls =>
    have old : low + 512 < number + 1 := by
      by_contra recent
      exact falls (edge.mpr ⟨by omega, by omega⟩)
    refine ⟨next', number - 511, number + 1 + 512, _, .inr (by omega), by omega, by omega,
      fun other both => both.1,
      ⟨taken.of_eq rfl rfl rfl rfl rfl rfl, ?_, ?_, by omega, by omega, by omega,
        fun other both => by have := both.2; omega, by omega, fun stop run => ?_⟩, unmoved.vrUx,
      unmoved.timer⟩
    · rw [Receiver.rebase, rebased, Receiver.windowSize,
        SequenceNumber10.sub_at (by omega) (by omega),
        show number + 1 + 1024 - 512 = number - 511 + 1024 by omega]
    · exact vrUh'
    · by_contra far
      have := (all _ (run (number + 1) (by omega) (by omega)).1).2
      omega

namespace Receiver

/-- The PDUs in the buffer that fall out of the window with a number have lower numbers than it. -/
def Straight (receiver : Receiver) (sn : Nat) : Prop :=
  receiver.isInsideReorderingWindow (.ofNat sn) = false →
    ∀ entry ∈ receiver.rxBuffer.entries, 512 ≤ (sn + 1024 - entry.1) % 1024 → entry.1 < sn

/-- VR(UR) once a number has moved the window. -/
def lowerEdge (receiver : Receiver) (sn : Nat) : Nat :=
  if receiver.isInsideReorderingWindow (.ofNat sn) = false ∧
      512 ≤ (sn + 1024 - receiver.vrUr.value) % 1024 then (sn + 513) % 1024
  else receiver.vrUr.value

/-- A number is that of the PDU that arrives or of one in the buffer. -/
def Present (receiver : Receiver) (sn other : Nat) : Prop :=
  other = sn ∨ (receiver.rxBuffer.find other).isSome

/-- The numbers from VR(UR) on are not all there beyond 1023. -/
def Interrupted (receiver : Receiver) (sn : Nat) : Prop :=
  ¬ (receiver.Present sn 0 ∧
    ∀ other < 1024, receiver.lowerEdge sn ≤ other → receiver.Present sn other)

instance (receiver : Receiver) (sn : Nat) : Decidable (receiver.Straight sn) :=
  inferInstanceAs (Decidable (_ → _))

instance (receiver : Receiver) (sn other : Nat) : Decidable (receiver.Present sn other) :=
  inferInstanceAs (Decidable (_ ∨ _))

instance (receiver : Receiver) (sn : Nat) : Decidable (receiver.Interrupted sn) :=
  inferInstanceAs (Decidable (¬ _))

end Receiver

section Receive

variable {number : Nat} {pdu : Pdu}

/-- The numbers of a receiver at rest, seen from the base of the window. -/
theorem Receiving.positions (receiving : Receiving fields sent next low timed high Held receiver) :
    receiver.vrUr.setModulusBase receiver.windowBase = .at' (low + 1024) (high + 512) ∧
      receiver.vrUh.setModulusBase receiver.windowBase = .at' (high + 1024) (high + 512) :=
  ⟨setModulusBase_window receiving.vrUh (by simp [receiving.vrUr]),
    setModulusBase_window receiving.vrUh (by simp [receiving.vrUh])⟩

/-- A PDU is discarded if VR(UR) has passed it or if it is in the buffer. -/
theorem discards_iff (lower : high ≤ number + 512) (upper : number < high + 512)
    (below : low ≤ high) (window : high ≤ low + 512) {present : Bool} :
    ((SequenceNumber10.at' (low + 1024) (high + 512)).lt (.at' (number + 1024) (high + 512)) &&
        (SequenceNumber10.at' (number + 1024) (high + 512)).lt (.at' (high + 1024) (high + 512)) &&
        present ||
      ((SequenceNumber10.at' (high + 1024) (high + 512)).sub Receiver.windowSize).le
          (.at' (number + 1024) (high + 512)) &&
        (SequenceNumber10.at' (number + 1024) (high + 512)).lt (.at' (low + 1024) (high + 512))) =
      true ↔ low < number ∧ number < high ∧ present = true ∨ number < low := by
  rw [SequenceNumber10.lt_at (by omega) (by omega) (by omega) (by omega),
    SequenceNumber10.lt_at (by omega) (by omega) (by omega) (by omega),
    SequenceNumber10.lt_at (by omega) (by omega) (by omega) (by omega), Receiver.windowSize,
    SequenceNumber10.sub_at (by omega) (by omega),
    SequenceNumber10.le_at (by omega) (by omega) (by omega) (by omega)]
  cases present <;> simp <;> omega

/-- The PDU that arrives is placed in the buffer. -/
theorem Receiving.placed (receiving : Receiving fields sent next low timed high Held receiver)
    (isSent : sent[number]? = some pdu) (lower : high ≤ number + 512)
    (upper : number < high + 512) (after : low ≤ number) (vrUr vrUh : SequenceNumber10) :
    Processing fields sent next (max high (number + 1)) (fun other => Held other ∨ other = number)
      { receiver with vrUr, vrUh, rxBuffer := receiver.rxBuffer.insert (number % 1024) pdu } := by
  have window := receiving.window
  have assembled := receiving.processing.assembled
  refine ⟨⟨assembled.expected, assembled.emptied, assembled.progress⟩,
    receiving.processing.pending.place (receiving.done.trans after) upper, ?_⟩
  refine receiving.processing.buffers.insert isSent fun other held => ?_
  have := receiving.above other held
  have := (receiving.processing.pending.ahead other held).2
  omega

/-- The window is where the PDU belongs. -/
theorem Receiving.moved (stream : Stream fields sent)
    (receiving : Receiving fields sent next low timed high Held receiver)
    (isSent : sent[number]? = some pdu) (lower : high ≤ number + 512)
    (upper : number < high + 512) (after : low ≤ number)
    (straight : receiver.Straight (number % 1024)) {placed : Receiver}
    (isPlaced : placed = { receiver with
      vrUr := .at' (low + 1024) (high + 512)
      vrUh := .at' (high + 1024) (high + 512)
      rxBuffer := receiver.rxBuffer.insert (number % 1024) pdu }) :
    ∃ next' low' base Held', receiver.lowerEdge (number % 1024) = low' % 1024 ∧
      (∀ other, Held' other → Held other ∨ other = number) ∧
      Moved fields sent next' low' (max high (number + 1)) base Held'
        (placed.moveWindow (.at' (number + 1024) (high + 512))) ∧
      (placed.moveWindow (.at' (number + 1024) (high + 512))).vrUx = receiver.vrUx ∧
      (placed.moveWindow (.at' (number + 1024) (high + 512))).reorderingTimer =
        receiver.reorderingTimer := by
  have window := receiving.window
  have below := receiving.below
  have value : (SequenceNumber10.ofNat (number % 1024)).value = number % 1024 := by
    simp [SequenceNumber10.ofNat]
  have inside := isInside_iff receiving.vrUh value (by omega) upper
  have processing := receiving.placed isSent lower upper after (.at' (low + 1024) (high + 512))
    (.at' (high + 1024) (high + 512))
  rw [← isPlaced] at processing
  have vrUr : placed.vrUr = .at' (low + 1024) (high + 512) := by rw [isPlaced]
  have vrUh : placed.vrUh.value = high % 1024 := by simp [isPlaced]
  have vrUx : placed.vrUx = receiver.vrUx := by rw [isPlaced]
  have timer : placed.reorderingTimer = receiver.reorderingTimer := by rw [isPlaced]
  by_cases within : number < high
  · have isInside : placed.isInsideReorderingWindow (.at' (number + 1024) (high + 512)) = true := by
      rw [isInside_iff vrUh (show _ = number % 1024 by simp) (by omega) upper]
      exact ⟨lower, within⟩
    have edge : receiver.lowerEdge (number % 1024) = low % 1024 := by
      rw [Receiver.lowerEdge, inside.mpr ⟨lower, within⟩, if_neg (by simp), receiving.vrUr]
    rw [max_eq_left within] at processing ⊢
    rw [Receiver.moveWindow, if_pos isInside]
    refine ⟨next, low, high + 512, _, edge, fun other held => held,
      ⟨processing.of_eq rfl rfl rfl rfl rfl rfl, vrUr, vrUh, receiving.done, below, window, ?_,
        by omega, fun stop run => ?_⟩, vrUx, timer⟩
    · rintro other (held | rfl)
      · exact (receiving.above other held).le
      · exact after
    · by_contra far
      have := (processing.pending.ahead high (run high below (by omega))).2
      omega
  · have outside : receiver.isInsideReorderingWindow (.ofNat (number % 1024)) = false := by
      rw [Bool.eq_false_iff, ne_eq, inside]
      omega
    rw [max_eq_right (by omega)] at processing ⊢
    obtain ⟨next', low', base, Held', place, up, near, part, moved, vrUx', timer'⟩ :=
      processing.moveWindow stream vrUr vrUh receiving.done below window receiving.above
        (fun other held => (receiving.processing.pending.ahead other held).2) (by omega) upper
        fun other held old => by
          obtain ⟨pdu', _, found⟩ := receiving.processing.buffers.find_held held
          have := receiving.above other held
          exact straight outside _ (OrderedMap.find_eq_some_iff.mp found) (by simp only; omega)
    refine ⟨next', low', base, Held', ?_, part, moved, vrUx'.trans vrUx, timer'.trans timer⟩
    rw [Receiver.lowerEdge, receiving.vrUr]
    simp only [outside, true_and]
    split <;> omega

/-- What a PDU does to a receiver, unless its number comes round between those in the buffer. -/
theorem Receiving.receive (stream : Stream fields sent)
    (receiving : Receiving fields sent next low timed high Held receiver)
    (isSent : sent[number]? = some pdu) (sequenceNumber : pdu.header.sequenceNumber = number % 1024)
    (lower : high ≤ number + 512) (upper : number < high + 512)
    (straight : receiver.Straight (number % 1024))
    (interrupted : receiver.Interrupted (number % 1024)) :
    ∃ next' low' timed' Held', Receiving fields sent next' low' timed' (max high (number + 1)) Held'
      (receiver.doReceivePdu pdu) := by
  have window := receiving.window
  have below := receiving.below
  obtain ⟨vrUr, vrUh⟩ := receiving.positions
  have arriving : (SequenceNumber10.ofNat pdu.header.sequenceNumber).setModulusBase
      receiver.windowBase = .at' (number + 1024) (high + 512) :=
    setModulusBase_window receiving.vrUh (by simp [SequenceNumber10.ofNat, sequenceNumber])
  simp only [Receiver.doReceivePdu, vrUr, vrUh, arriving, SequenceNumber10.value_at,
    Nat.add_mod_right, discards_iff lower upper below window]
  split
  case isTrue discarded =>
    rw [max_eq_left (by omega)]
    refine ⟨next, low, timed, Held, receiving.processing.of_eq rfl rfl rfl rfl rfl rfl, by simp,
      by simp, receiving.done, below, window, receiving.above, fun runs => ?_⟩
    obtain ⟨less, upTo, _, vrUx, _⟩ := receiving.running runs
    exact ⟨less, upTo, rfl, vrUx, rfl⟩
  case isFalse kept =>
    obtain ⟨next', low', base, Held', edge, part, moved, vrUx, timer⟩ :=
      receiving.moved stream isSent lower upper (by omega) straight rfl
    generalize Receiver.moveWindow _ _ = later at moved vrUx timer ⊢
    have there : ∀ sn, (later.rxBuffer.find sn).isSome → receiver.Present (number % 1024) sn := by
      intro sn isSome
      obtain ⟨pdu', found⟩ := Option.isSome_iff_exists.mp isSome
      obtain ⟨other, held, rfl, _⟩ := (moved.processing.buffers.find _ _).mp found
      rcases part other held with before | rfl
      · obtain ⟨pdu', _, found⟩ := receiving.processing.buffers.find_held before
        exact .inr (by simp [found])
      · exact .inl rfl
    obtain ⟨next'', low'', Held'', advanced, vrUx', timer'⟩ := moved.moveVrUr stream (by
      rintro ⟨zero, all⟩
      exact interrupted ⟨there 0 zero, fun sn bound above => there sn (all sn (edge ▸ above) bound)⟩)
    obtain ⟨timed', receiving'⟩ := @Advanced.updateTimer _ _ _ _ timed _ _ _ advanced fun runs => by
      rw [timer', timer] at runs
      obtain ⟨less, upTo, _, isUx, _⟩ := receiving.running runs
      rw [vrUx', vrUx, isUx]
      exact ⟨by simp, by omega, by omega⟩
    exact ⟨next'', low'', timed', Held'', receiving'⟩

/-- The timer gives up the PDUs that are missing. -/
theorem Receiving.expire (stream : Stream fields sent)
    (receiving : Receiving fields sent next low timed high Held receiver)
    (running : receiver.reorderingTimer = true) :
    ∃ next' low' timed' Held', Receiving fields sent next' low' timed' high Held'
      receiver.expireReorderingTimer := by
  have window := receiving.window
  obtain ⟨less, upTo, vrUr, vrUx, vrUh⟩ := receiving.running running
  have free : ¬ Held high := fun held =>
    absurd (receiving.processing.pending.ahead high held).2 (lt_irrefl _)
  have found : ∀ number, timed ≤ number → number ≤ high →
      ((receiver.rxBuffer.find (number % 1024)).isSome ↔ Held number) := by
    intro number lower upper
    exact receiving.processing.isSome_iff (fun other held => (receiving.above other held).le)
      window (by omega) (by omega)
  obtain ⟨stop, above, bound, absent, _, isStop⟩ :=
    @firstAbsent_spec receiver.rxBuffer Held 1024 timed (high + 512) high found free upTo (by omega)
  have start : Processing fields sent next high Held
      { receiver with vrUr := .at' (stop + 1024) (high + 512), reorderingTimer := false } :=
    receiving.processing.of_eq rfl rfl rfl rfl rfl rfl
  have done := receiving.done
  obtain ⟨next', reached, unmoved, processing⟩ := @Processing.interval _ _ next high Held _ stream
    (high + 512) low stop 1024 start (fun other held => (receiving.above other held).le) (by omega)
    (by omega) (by omega) (by omega) (by omega) (by omega)
  rw [← vrUx] at isStop
  simp only [Receiver.expireReorderingTimer, isStop, Receiver.reassembleSnInterval, vrUr]
  generalize Receiver.intervalLoop _ _ _ _ = later at unmoved processing ⊢
  have vrUr' : later.vrUr = .at' (stop + 1024) (high + 512) := unmoved.vrUr
  have vrUh' : later.vrUh = .at' (high + 1024) (high + 512) := unmoved.vrUh.trans vrUh
  have rest : ∀ number, Held number ∧ stop ≤ number → stop < number := by
    rintro number ⟨held, lower⟩
    refine lt_of_le_of_ne lower ?_
    rintro rfl
    exact absent held
  have greater : later.vrUh.gt later.vrUr = decide (stop < high) := by
    rw [vrUr', vrUh', SequenceNumber10.gt_at (by omega) (by omega) (by omega) (by omega),
      decide_eq_decide]
    omega
  simp only [greater]
  split
  case isTrue restarts =>
    have more : stop < high := by simpa using restarts
    refine ⟨next', stop, high, _, processing.of_eq rfl rfl rfl rfl rfl rfl, by simp [vrUr'],
      by simp [vrUh'], reached, bound, by omega, rest, fun _ => ?_⟩
    exact ⟨more, le_rfl, vrUr', vrUh', vrUh'⟩
  case isFalse ends =>
    refine ⟨next', stop, high, _, processing, by simp [vrUr'], by simp [vrUh'], reached, bound,
      by omega, rest, fun runs => ?_⟩
    rw [unmoved.timer] at runs
    cases runs

end Receive

end Ns3.Lte.LteRlcUm
