import Ns3.Internet.TcpHeader.Kernel

/-!
Where `Deserialize` puts the end of a TCP header.
-/

namespace Ns3.Internet

open Library

namespace TcpOption

theorem getKind_of_deserialize {kind : UInt8} {bytes : List UInt8} {size : Nat} {op : TcpOption}
    (read : deserialize (kind :: bytes) = some (size, op)) : op.getKind = kind := by
  unfold deserialize at read
  dsimp only at read
  split at read
  · cases read
    rfl
  · cases read
    rfl
  all_goals
    simp only [deserializeMss, deserializeWinScale, deserializeSackPermitted, deserializeSack,
      deserializeTs, deserializeUnknown, Option.bind_eq_bind, Option.bind_eq_some_iff,
      Option.pure_def] at read
    grind [getKind, Option.bind_eq_some_iff]

theorem head?_of_deserialize {bytes : List UInt8} {size : Nat} {op : TcpOption}
    (read : deserialize bytes = some (size, op)) : bytes.head? = some op.getKind := by
  cases bytes with
  | nil => cases read
  | cons kind bytes => rw [getKind_of_deserialize read, List.head?_cons]

theorem deserialize_of_head? {bytes : List UInt8} (first : bytes.head? = some 0) :
    deserialize bytes = some (1, optionEnd) := by
  obtain ⟨rest, rfl⟩ := List.head?_eq_some_iff.mp first
  rfl

end TcpOption

namespace TcpHeader

/-- The data offset field. -/
def dataOffset (bytes : List UInt8) : Nat := (bytes[12]?.getD 0).toNat / 16

/-- From the bytes on, the loop keeps all but at most three bytes of the area. The options have
their lengths, and the loop stops at the end of the area, at an END option, or at an option that is
malformed or too long. -/
inductive Fills : List UInt8 → Nat → Prop
  | done {bytes} : Fills bytes 0
  | option {bytes left size op} : TcpOption.deserialize bytes = some (size, op) →
      size = op.getSerializedSize → op.getKind ≠ 0 → 0 < size → size ≤ left →
      Fills (bytes.drop size) (left - size) → Fills bytes left
  | padding {bytes left} : bytes.head? = some 0 → 0 < left → left ≤ 4 → Fills bytes left
  | stop {bytes left size op} : TcpOption.deserialize bytes = some (size, op) →
      size ≠ op.getSerializedSize ∨ left < size → 0 < left → left < 4 → Fills bytes left

section Fills

variable {bytes : List UInt8} {left size : Nat} {op : TcpOption}

theorem not_fills_of_failed (some : left ≠ 0) (fails : TcpOption.deserialize bytes = none) :
    ¬ Fills bytes left := by
  intro fills
  cases fills with
  | done => exact some rfl
  | option read => cases fails.symm.trans read
  | padding first => cases fails.symm.trans (TcpOption.deserialize_of_head? first)
  | stop read => cases fails.symm.trans read

theorem fills_of_stop (some : left ≠ 0)
    (read : TcpOption.deserialize bytes = .some (size, op))
    (stops : size ≠ op.getSerializedSize ∨ left < size) : Fills bytes left ↔ left < 4 := by
  constructor
  · intro fills
    cases fills with
    | done => exact absurd rfl some
    | option other announced _ _ fits =>
        cases read.symm.trans other
        rcases stops with malformed | long
        · exact absurd announced malformed
        · omega
    | padding first =>
        cases read.symm.trans (TcpOption.deserialize_of_head? first)
        rcases stops with malformed | long
        · exact absurd rfl malformed
        · omega
    | stop _ _ _ few => exact few
  · exact .stop read stops (Nat.pos_of_ne_zero some)

theorem fills_of_padding (some : left ≠ 0) (first : bytes.head? = .some 0) :
    Fills bytes left ↔ left ≤ 4 := by
  have ended := TcpOption.deserialize_of_head? first
  constructor
  · intro fills
    cases fills with
    | done => exact absurd rfl some
    | option other _ kind =>
        cases ended.symm.trans other
        exact absurd rfl kind
    | padding _ _ few => exact few
    | stop _ _ _ few => exact few.le
  · exact .padding first (Nat.pos_of_ne_zero some)

theorem fills_of_kept (some : left ≠ 0)
    (read : TcpOption.deserialize bytes = .some (size, op))
    (announced : size = op.getSerializedSize) (fits : size ≤ left) (kind : op.getKind ≠ 0) :
    Fills bytes left ↔ 0 < size ∧ Fills (bytes.drop size) (left - size) := by
  constructor
  · intro fills
    cases fills with
    | done => exact absurd rfl some
    | option other _ _ positive _ rest =>
        cases read.symm.trans other
        exact ⟨positive, rest⟩
    | padding first =>
        cases read.symm.trans (TcpOption.deserialize_of_head? first)
        exact absurd rfl kind
    | stop other stops =>
        cases read.symm.trans other
        rcases stops with malformed | long
        · exact absurd announced malformed
        · omega
  · rintro ⟨positive, rest⟩
    exact .option read announced kind positive fits rest

end Fills

/-- The bytes of the options that the loop has kept. -/
def sizes (options : List TcpOption) : Nat := (options.map TcpOption.getSerializedSize).sum

namespace OptionsLoop

variable {state next last : OptionsLoop} {size : Nat} {op : TcpOption}

theorem turn_of_end (done : state.optionLen = 0) : turn state = .exit state := if_pos done

theorem turn_of_failed (left : state.optionLen ≠ 0)
    (fails : TcpOption.deserialize state.bytes = none) : turn state = .failed := by
  rw [turn, if_neg left, fails]

theorem turn_of_stop (left : state.optionLen ≠ 0)
    (read : TcpOption.deserialize state.bytes = some (size, op))
    (stops : size ≠ op.getSerializedSize ∨ state.optionLen < size) : turn state = .exit state := by
  rw [turn, if_neg left, read]
  dsimp only
  by_cases malformed : size ≠ op.getSerializedSize
  · rw [if_pos malformed]
  · rw [if_neg malformed, if_pos (stops.resolve_left malformed)]

theorem turn_of_kept (left : state.optionLen ≠ 0)
    (read : TcpOption.deserialize state.bytes = some (size, op))
    (announced : size = op.getSerializedSize) (fits : size ≤ state.optionLen)
    (kind : op.getKind ≠ 0) : turn state = .again (state.keep size op) := by
  rw [turn, if_neg left, read]
  dsimp only
  rw [if_neg (not_not_intro announced), if_neg (Nat.not_lt.mpr fits), if_pos kind]

theorem turn_of_padding (left : state.optionLen ≠ 0)
    (available : state.optionLen ≤ state.bytes.length) (first : state.bytes.head? = some 0) :
    turn state = .again (state.keep 1 .optionEnd).skipPadding := by
  have read := TcpOption.deserialize_of_head? first
  have announced : ¬ 1 ≠ TcpOption.optionEnd.getSerializedSize := by decide
  have fits : ¬ state.optionLen < 1 := by omega
  have kind : ¬ TcpOption.optionEnd.getKind ≠ 0 := by decide
  rw [turn, if_neg left, read]
  dsimp only
  rw [if_neg announced, if_neg fits, if_neg kind, if_neg (Nat.not_lt.mpr available)]

theorem keep_bytes : (state.keep size op).bytes = state.bytes.drop size := rfl

theorem keep_optionLen : (state.keep size op).optionLen = state.optionLen - size := rfl

theorem sizes_keep :
    sizes (state.keep size op).options = sizes state.options + op.getSerializedSize := by
  rw [keep, sizes, sizes, List.map_append, List.sum_append, List.map_singleton,
    List.sum_singleton]

theorem exit_eq (leads : turn state = .exit last) : last = state := by
  rw [turn] at leads
  grind

/-- Every turn keeps an option of the area. -/
theorem sizes_of_again (leads : turn state = .again next) :
    sizes next.options + next.optionLen ≤ sizes state.options + state.optionLen := by
  have kept : ∀ {size op}, size = op.getSerializedSize → size ≤ state.optionLen →
      sizes (state.keep size op).options + (state.keep size op).optionLen =
        sizes state.options + state.optionLen := by
    intro size op announced fits
    rw [sizes_keep, ← announced, keep_optionLen]
    omega
  rw [turn] at leads
  split at leads
  next => cases leads
  next =>
    split at leads
    next => cases leads
    next size op read =>
      split at leads
      next => cases leads
      next announced =>
        split at leads
        next => cases leads
        next fits =>
          have kept := kept (not_not.mp announced) (Nat.not_lt.mp fits)
          split at leads
          next =>
            obtain rfl := Turn.again.inj leads
            exact kept.le
          next =>
            split at leads
            next => cases leads
            next =>
              obtain rfl := Turn.again.inj leads
              exact (Nat.le_add_right _ _).trans kept.le

/-- The loop never keeps more than the area. -/
theorem sizes_le_of_returns (returns : Returns turn state last) :
    sizes last.options ≤ sizes state.options + state.optionLen := by
  have preserved : ∀ other next : OptionsLoop,
      sizes other.options + other.optionLen ≤ sizes state.options + state.optionLen →
        turn other = .again next →
          sizes next.options + next.optionLen ≤ sizes state.options + state.optionLen :=
    fun other next bound leads => (sizes_of_again leads).trans bound
  obtain ⟨reached, bound, leads⟩ := returns.invariant preserved le_rfl
  rw [exit_eq leads]
  exact (Nat.le_add_right _ _).trans bound

/-- The loop ends, and has kept all but at most three bytes of an area. -/
def Ends (state : OptionsLoop) (area : Nat) : Prop :=
  ∃ last, Returns turn state last ∧ area < sizes last.options + 4

theorem ends_of_exit {area : Nat} (leads : turn state = .exit state) :
    state.Ends area ↔ area < sizes state.options + 4 := by
  constructor
  · rintro ⟨last, returns, kept⟩
    rwa [(returns_exit_iff leads).mp returns] at kept
  · intro kept
    exact ⟨state, returns_of_exit leads, kept⟩

theorem ends_of_again {area : Nat} (leads : turn state = .again next) :
    state.Ends area ↔ next.Ends area :=
  exists_congr fun _ => and_congr_left fun _ => returns_again_iff leads

/-- An option without a length is read for ever. -/
theorem not_returns_of_empty (left : state.optionLen ≠ 0)
    (read : TcpOption.deserialize state.bytes = some (0, op))
    (announced : 0 = op.getSerializedSize) (kind : op.getKind ≠ 0) :
    ¬ Returns turn state last := by
  have goesOn : ∀ other : OptionsLoop,
      other.bytes = state.bytes ∧ other.optionLen = state.optionLen →
        ∃ next, turn other = .again next ∧
          next.bytes = state.bytes ∧ next.optionLen = state.optionLen := by
    rintro other ⟨bytes, length⟩
    rw [← bytes] at read
    rw [← length] at left
    exact ⟨_, turn_of_kept left read announced (Nat.zero_le _) kind, bytes, length⟩
  exact not_returns_of_forever goesOn ⟨rfl, rfl⟩

/-- The loop ends near the end of the area if and only if the options fill it. -/
theorem ends_iff_fills {area : Nat} (whole : sizes state.options + state.optionLen = area)
    (available : state.optionLen ≤ state.bytes.length) :
    state.Ends area ↔ Fills state.bytes state.optionLen := by
  induction room : state.optionLen using Nat.strong_induction_on generalizing state with
  | _ room inductionHypothesis =>
      by_cases left : state.optionLen = 0
      · rw [ends_of_exit (turn_of_end left), ← room, left]
        have kept : area < sizes state.options + 4 := by omega
        simp [kept, Fills.done]
      subst room
      cases read : TcpOption.deserialize state.bytes with
      | none =>
          have fails := turn_of_failed left read
          refine iff_of_false ?_ (not_fills_of_failed left read)
          rintro ⟨last, returns, -⟩
          exact not_returns_of_failed fails returns
      | some result =>
          obtain ⟨size, op⟩ := result
          by_cases stops : size ≠ op.getSerializedSize ∨ state.optionLen < size
          · rw [ends_of_exit (turn_of_stop left read stops), fills_of_stop left read stops]
            omega
          rw [not_or, not_not, Nat.not_lt] at stops
          obtain ⟨announced, fits⟩ := stops
          by_cases kind : op.getKind = 0
          · have first := kind ▸ TcpOption.head?_of_deserialize read
            rw [ends_of_again (turn_of_padding left available first), fills_of_padding left first,
              ends_of_exit (turn_of_end rfl)]
            change area < sizes (state.keep 1 .optionEnd).options + 4 ↔ _
            rw [sizes_keep]
            change area < _ + 1 + 4 ↔ _
            omega
          · rw [fills_of_kept left read announced fits kind]
            rcases Nat.eq_zero_or_pos size with rfl | positive
            · refine iff_of_false ?_ fun fills => Nat.lt_irrefl 0 fills.1
              rintro ⟨last, returns, -⟩
              exact not_returns_of_empty left read announced kind returns
            · have whole : sizes (state.keep size op).options + (state.keep size op).optionLen =
                  area := by
                rw [sizes_keep, keep_optionLen]
                omega
              have available : (state.keep size op).optionLen ≤
                  (state.keep size op).bytes.length := by
                rw [keep_bytes, keep_optionLen, List.length_drop]
                omega
              have rest := inductionHypothesis _ (by rw [keep_optionLen]; omega) whole available rfl
              rw [ends_of_again (turn_of_kept left read announced fits kind), rest]
              exact (and_iff_right positive).symm

end OptionsLoop

variable {self after header : TcpHeader} {bytes rest : List UInt8} {fuel size optionLen : Nat}

theorem getSerializedSize_of_le (fits : sizes self.options ≤ maxOptionsLen) :
    self.getSerializedSize = (23 + sizes self.options) / 4 * 4 := by
  rw [maxOptionsLen] at fits
  have length : wrap 32 (20 + sizes self.options) = 20 + sizes self.options :=
    wrap_of_lt (by omega)
  rw [getSerializedSize, calculateHeaderLength, ← sizes, length]
  by_cases aligned : (20 + sizes self.options) % 4 ≠ 0
  · rw [if_pos aligned, wrap, wrap]
    omega
  · rw [if_neg aligned, wrap]
    omega

theorem readNtohU16_of_length (bytes : List UInt8) (enough : 2 ≤ bytes.length) :
    ∃ data, readNtohU16 bytes = some (data, bytes.drop 2) ∧
      data.toNat = 256 * (bytes[0]?.getD 0).toNat + (bytes[1]?.getD 0).toNat := by
  obtain ⟨high, low, rest, rfl⟩ : ∃ high low rest, bytes = high :: low :: rest := by
    rcases bytes with _ | ⟨high, _ | ⟨low, rest⟩⟩
    · cases enough
    · simp at enough
    · exact ⟨high, low, rest, rfl⟩
  refine ⟨_, rfl, ?_⟩
  have highSmall := high.toNat_lt
  have lowSmall := low.toNat_lt
  rw [UInt16.toNat_ofNat', ofBytes, ofBytes, ofBytes]
  dsimp only [List.getElem?_cons_zero, List.getElem?_cons_succ, Option.getD_some]
  omega

theorem readNtohU32_of_length (bytes : List UInt8) (enough : 4 ≤ bytes.length) :
    ∃ data, readNtohU32 bytes = some (data, bytes.drop 4) := by
  rcases bytes with _ | ⟨_, _ | ⟨_, _ | ⟨_, _ | ⟨_, _⟩⟩⟩⟩
  · cases enough
  · simp at enough
  · simp at enough
  · simp at enough
  · exact ⟨_, rfl⟩

theorem readFixedPart_of_length (self : TcpHeader) (enough : 20 ≤ bytes.length) :
    ∃ after, self.readFixedPart bytes = some (after, bytes.drop 20) ∧
      after.length = dataOffset bytes := by
  have room : ∀ count, (bytes.drop count).length = bytes.length - count :=
    fun count => List.length_drop
  obtain ⟨sourcePort, read0, -⟩ := readNtohU16_of_length bytes (by omega)
  obtain ⟨destinationPort, read2, -⟩ := readNtohU16_of_length (bytes.drop 2) (by grind)
  obtain ⟨sequenceNumber, read4⟩ := readNtohU32_of_length (bytes.drop 4) (by grind)
  obtain ⟨ackNumber, read8⟩ := readNtohU32_of_length (bytes.drop 8) (by grind)
  obtain ⟨field, read12, value⟩ := readNtohU16_of_length (bytes.drop 12) (by grind)
  obtain ⟨windowSize, read14, -⟩ := readNtohU16_of_length (bytes.drop 14) (by grind)
  obtain ⟨checksum, read16, -⟩ := readNtohU16_of_length (bytes.drop 16) (by grind)
  obtain ⟨urgentPointer, read18, -⟩ := readNtohU16_of_length (bytes.drop 18) (by grind)
  rw [List.drop_drop] at read2 read4 read8 read12 read14 read16 read18
  refine ⟨{ self with
      sourcePort := sourcePort
      destinationPort := destinationPort
      sequenceNumber := sequenceNumber
      ackNumber := ackNumber
      flags := UInt8.ofNat (field.toNat % 2 ^ 8)
      length := field.toNat / 2 ^ 12
      windowSize := windowSize
      urgentPointer := urgentPointer
      options := []
      optionsLen := 0 }, ?_, ?_⟩
  · rw [readFixedPart, read0]
    simp only [Option.bind_eq_bind, Option.bind_some, read2, read4, read8, read12, read14, read16,
      read18]
    rfl
  · have low := (bytes[13]?.getD 0).toNat_lt
    rw [List.getElem?_drop, List.getElem?_drop] at value
    change field.toNat = 256 * (bytes[12]?.getD 0).toNat + (bytes[13]?.getD 0).toNat at value
    change field.toNat / 2 ^ 12 = _
    rw [value, dataOffset]
    omega

/-- What `Deserialize` returns if there is room for the options. -/
theorem deserialize_eq_returned_iff (read : self.readFixedPart bytes = some (after, rest))
    (announced : wrapInt 32 (((after.length : Int) - 5) * 4) = optionLen)
    (fits : optionLen ≤ maxOptionsLen) :
    self.deserialize fuel bytes = .returned (size, header) ↔
      ∃ last, loop OptionsLoop.turn fuel { bytes := rest, optionLen := optionLen } =
          .returned last ∧
        size = getSerializedSize
          { after with options := last.options, optionsLen := last.optionsLen } ∧
        header = checkChecksum
          { after with options := last.options, optionsLen := last.optionsLen } bytes := by
  rw [deserialize, read]
  dsimp only
  rw [announced, if_neg (Nat.not_lt.mpr fits)]
  cases loop OptionsLoop.turn fuel { bytes := rest, optionLen := optionLen } with
  | returned last =>
      constructor
      · intro same
        obtain ⟨rfl, rfl⟩ := Prod.mk.inj (Outcome.returned.inj same)
        exact ⟨last, rfl, rfl, rfl⟩
      · rintro ⟨other, same, rfl, rfl⟩
        rw [Outcome.returned.inj same]
  | failed => simp
  | running => simp

/-- `Deserialize` ends, and returns the length that the data offset announces. -/
structure Announces (self : TcpHeader) (bytes : List UInt8) : Prop where
  returns : ∃ fuel size header, self.deserialize fuel bytes = .returned (size, header) ∧
    (5 ≤ dataOffset bytes → size = 4 * dataOffset bytes)

/-- The announced length is returned if and only if the options fill their area. -/
theorem announces_iff (self : TcpHeader) {bytes : List UInt8} (enough : 20 ≤ bytes.length)
    (available : 4 * dataOffset bytes ≤ bytes.length) :
    self.Announces bytes ↔
      dataOffset bytes < 5 ∨ Fills (bytes.drop 20) (4 * (dataOffset bytes - 5)) := by
  obtain ⟨after, read, length⟩ := self.readFixedPart_of_length enough
  have small : dataOffset bytes ≤ 15 := by
    have byte := (bytes[12]?.getD 0).toNat_lt
    rw [dataOffset]
    omega
  by_cases short : dataOffset bytes < 5
  · refine iff_of_true ⟨0, 20, after, ?_, fun long => absurd short (Nat.not_lt.mpr long)⟩
      (.inl short)
    have large : wrapInt 32 (((after.length : Int) - 5) * 4) > maxOptionsLen := by
      rw [wrapInt, maxOptionsLen, length]
      omega
    rw [deserialize, read]
    exact if_pos large
  · have announced : wrapInt 32 (((after.length : Int) - 5) * 4) = 4 * (dataOffset bytes - 5) := by
      rw [wrapInt, length]
      omega
    have fits : 4 * (dataOffset bytes - 5) ≤ maxOptionsLen := by
      rw [maxOptionsLen]
      omega
    have room : 4 * (dataOffset bytes - 5) ≤ (bytes.drop 20).length := by
      rw [List.length_drop]
      omega
    have ends : OptionsLoop.Ends
          { bytes := bytes.drop 20, optionLen := 4 * (dataOffset bytes - 5) }
          (4 * (dataOffset bytes - 5)) ↔
        Fills (bytes.drop 20) (4 * (dataOffset bytes - 5)) :=
      OptionsLoop.ends_iff_fills (Nat.zero_add _) room
    have size : ∀ last, Returns OptionsLoop.turn
        { bytes := bytes.drop 20, optionLen := 4 * (dataOffset bytes - 5) } last →
          (getSerializedSize
              { after with options := last.options, optionsLen := last.optionsLen } =
            4 * dataOffset bytes ↔ 4 * (dataOffset bytes - 5) < sizes last.options + 4) := by
      intro last returns
      have kept : sizes last.options ≤ 4 * (dataOffset bytes - 5) := by
        simpa [sizes] using OptionsLoop.sizes_le_of_returns returns
      rw [getSerializedSize_of_le (kept.trans fits)]
      dsimp only
      omega
    rw [or_iff_right short, ← ends]
    constructor
    · rintro ⟨fuel, _, header, returned, announces⟩
      obtain ⟨last, ran, rfl, -⟩ := (deserialize_eq_returned_iff read announced fits).mp returned
      exact ⟨last, ⟨fuel, ran⟩, (size last ⟨fuel, ran⟩).mp (announces (Nat.not_lt.mp short))⟩
    · rintro ⟨last, ⟨fuel, ran⟩, kept⟩
      exact ⟨fuel, _, _, (deserialize_eq_returned_iff read announced fits).mpr
        ⟨last, ran, rfl, rfl⟩, fun _ => (size last ⟨fuel, ran⟩).mpr kept⟩

/-- The bytes of a header without ports and numbers. -/
def plainBytes (offset : UInt8) (area : List UInt8) : List UInt8 :=
  [0, 80, 4, 0, 0, 0, 0, 1, 0, 0, 0, 0, offset, 2, 0xff, 0xff, 0, 0, 0, 0] ++ area

theorem announces_iff_mss :
    20 ≤ (plainBytes 0x60 [2, 4, 5, 0xb4]).length ∧
      Announces { protocol := 6 } (plainBytes 0x60 [2, 4, 5, 0xb4]) :=
  ⟨by decide, (announces_iff { protocol := 6 } (by decide) (by decide)).mpr
    (.inr (.option rfl rfl (by decide) (by decide) (by decide) .done))⟩

/-- An unknown option with the length zero is read for ever. -/
theorem not_announces :
    20 ≤ (plainBytes 0x60 [254, 0, 0, 0]).length ∧
      4 * dataOffset (plainBytes 0x60 [254, 0, 0, 0]) ≤ (plainBytes 0x60 [254, 0, 0, 0]).length ∧
      ¬ Announces { protocol := 6 } (plainBytes 0x60 [254, 0, 0, 0]) := by
  refine ⟨by decide, by decide, ?_⟩
  rintro ⟨fuel, size, header, returned, -⟩
  have announced : wrapInt 32 (((6 : Nat) - 5 : Int) * 4) = 4 := by decide
  obtain ⟨last, ran, -⟩ := (deserialize_eq_returned_iff rfl announced (by decide)).mp returned
  have empty : ¬ Returns OptionsLoop.turn { bytes := [254, 0, 0, 0], optionLen := 4 } last :=
    OptionsLoop.not_returns_of_empty (by decide) rfl rfl (by decide)
  exact empty ⟨fuel, ran⟩

end TcpHeader

end Ns3.Internet
