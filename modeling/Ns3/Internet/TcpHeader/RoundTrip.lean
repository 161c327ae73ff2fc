import Ns3.Internet.TcpHeader.Boundary

/-!
TCP headers that are written and read again.
-/

namespace Ns3.Internet.TcpHeader

open Library

/-- The calls that make a header. -/
inductive Call
  | setSourcePort (port : UInt16)
  | setDestinationPort (port : UInt16)
  | setSequenceNumber (sequenceNumber : UInt32)
  | setAckNumber (ackNumber : UInt32)
  | setFlags (flags : UInt8)
  | setWindowSize (windowSize : UInt16)
  | setUrgentPointer (urgentPointer : UInt16)
  | enableChecksums
  | initializeChecksum (source destination : Address) (protocol : UInt8)
  | appendOption (option : TcpOption)
  deriving DecidableEq, Repr

/-- What a call makes of the header. -/
def apply (self : TcpHeader) : Call → TcpHeader
  | .setSourcePort port => { self with sourcePort := port }
  | .setDestinationPort port => { self with destinationPort := port }
  | .setSequenceNumber sequenceNumber => { self with sequenceNumber := sequenceNumber }
  | .setAckNumber ackNumber => { self with ackNumber := ackNumber }
  | .setFlags flags => { self with flags := flags }
  | .setWindowSize windowSize => { self with windowSize := windowSize }
  | .setUrgentPointer urgentPointer => { self with urgentPointer := urgentPointer }
  | .enableChecksums => { self with calcChecksum := true }
  | .initializeChecksum source destination protocol =>
      { self with source := source, destination := destination, protocol := protocol }
  | .appendOption option => (self.appendOption option).2

/-- The header after the calls. -/
def build (protocol : UInt8) (calls : List Call) : TcpHeader :=
  calls.foldl apply { protocol := protocol }

/-- The option, if any, is one of a known class. -/
def Call.Known : Call → Prop
  | .appendOption option => option.Known
  | _ => True

/-- The bytes of the options. -/
def octets (options : List TcpOption) : Nat := (options.map TcpOption.octets).sum

/-- The options are shorter than the space for options. -/
def Small (self : TcpHeader) : Prop := ∀ option ∈ self.options, option.octets ≤ maxOptionsLen

/-- The lengths are those of the options, if no option is longer than the space for options. An
option that was let in is so or longer by almost `2 ^ 32`. -/
structure Built (header : TcpHeader) : Prop where
  known : ∀ option ∈ header.options, option.Known ∧ option.getKind ≠ 0
  narrow : header.optionsLen < 2 ^ 8
  accepted : ∀ option ∈ header.options,
    option.octets ≤ maxOptionsLen ∨ 2 ^ 32 - 2 ^ 8 ≤ option.octets
  counted : header.Small → header.optionsLen = octets header.options ∧
    octets header.options ≤ maxOptionsLen ∧ header.length = (23 + octets header.options) / 4

variable {self : TcpHeader}

theorem octets_append (options : List TcpOption) (option : TcpOption) :
    octets (options ++ [option]) = octets options + option.octets := by
  rw [octets, octets, List.map_append, List.sum_append, List.map_singleton, List.sum_singleton]

theorem built_new (protocol : UInt8) : Built { protocol := protocol } :=
  ⟨by simp, Nat.two_pow_pos 8, by simp, fun _ => ⟨rfl, Nat.zero_le _, by simp [octets]⟩⟩

theorem Built.append (built : self.Built) {option : TcpOption} (known : option.Known)
    (kind : option.getKind ≠ 0)
    (fits : wrap 32 (self.optionsLen + option.getSerializedSize) ≤ maxOptionsLen) :
    Built { self with
      options := self.options ++ [option]
      optionsLen := wrap 8 (self.optionsLen + option.getSerializedSize)
      length := wrap 8 ((20 + 3 + wrap 8 (self.optionsLen + option.getSerializedSize)) / 4) } := by
  have narrow := built.narrow
  have size := TcpOption.getSerializedSize_eq known
  refine ⟨?_, wrap_lt 8 _, ?_, ?_⟩
  · rw [List.forall_mem_append]
    exact ⟨built.known, List.forall_mem_singleton.mpr ⟨known, kind⟩⟩
  · rw [List.forall_mem_append]
    refine ⟨built.accepted, List.forall_mem_singleton.mpr ?_⟩
    rcases Nat.lt_or_ge (self.optionsLen + option.octets) (2 ^ 32) with inside | wraps
    · left
      have alone : option.octets < 2 ^ 32 := lt_of_le_of_lt (Nat.le_add_left _ _) inside
      rw [size, wrap_of_lt alone, wrap_of_lt inside] at fits
      exact le_trans (Nat.le_add_left _ _) fits
    · right
      omega
  · intro small
    obtain ⟨others, short⟩ := List.forall_mem_append.mp small
    have short := List.forall_mem_singleton.mp short
    obtain ⟨counted, bound, length⟩ := built.counted others
    rw [maxOptionsLen] at fits short bound
    rw [size, wrap_of_lt (show option.octets < 2 ^ 32 by omega),
      wrap_of_lt (show self.optionsLen + option.octets < 2 ^ 32 by omega), counted] at fits
    dsimp only
    rw [octets_append, size, wrap_of_lt (show option.octets < 2 ^ 32 by omega), counted,
      wrap_of_lt (show octets self.options + option.octets < 2 ^ 8 by omega),
      wrap_of_lt (show (20 + 3 + (octets self.options + option.octets)) / 4 < 2 ^ 8 by omega)]
    exact ⟨rfl, fits, rfl⟩

theorem Built.appendOption (built : self.Built) {option : TcpOption} (known : option.Known) :
    (self.appendOption option).2.Built := by
  rw [TcpHeader.appendOption]
  split
  next fits =>
    split
    next => exact built
    next =>
      split
      next kind => exact built.append known kind fits
      next => exact built
  next => exact built

theorem Built.apply (built : self.Built) {call : Call} (known : call.Known) :
    (self.apply call).Built := by
  cases call with
  | appendOption option => exact built.appendOption known
  | _ => exact ⟨built.known, built.narrow, built.accepted, built.counted⟩

theorem built_build (protocol : UInt8) {calls : List Call} (known : ∀ call ∈ calls, call.Known) :
    (build protocol calls).Built := by
  have run : ∀ self : TcpHeader, self.Built → (calls.foldl TcpHeader.apply self).Built := by
    induction calls with
    | nil => exact fun self built => built
    | cons call calls inductionHypothesis =>
        obtain ⟨knownCall, knownCalls⟩ := List.forall_mem_cons.mp known
        exact fun self built => inductionHypothesis knownCalls _ (built.apply knownCall)
  exact run _ (built_new protocol)

section Writing

variable {buffer front rest bytes : List UInt8} {options : List TcpOption}

theorem writeAt_append (fits : bytes.length ≤ rest.length) :
    writeAt (front ++ rest) front.length bytes =
      some (front ++ bytes ++ rest.drop bytes.length) := by
  have room : front.length + bytes.length ≤ (front ++ rest).length := by
    rw [List.length_append]
    omega
  rw [writeAt, if_pos room, List.take_left, List.drop_append, Nat.add_sub_cancel_left,
    List.drop_of_length_le (Nat.le_add_right _ _), List.nil_append]

theorem length_of_writeAt {position : Nat} {after : List UInt8}
    (written : writeAt buffer position bytes = some after) :
    bytes.length ≤ buffer.length ∧ after.length = buffer.length := by
  rw [writeAt] at written
  split at written
  next fits =>
    obtain rfl := Option.some.inj written
    rw [List.length_append, List.length_append, List.length_take, List.length_drop]
    omega
  next => cases written

/-- The bytes of the options. -/
def body (options : List TcpOption) : List UInt8 := options.flatMap TcpOption.serialize

theorem length_body (known : ∀ option ∈ options, option.Known ∧ option.getKind ≠ 0) :
    (body options).length = octets options := by
  rw [body, List.length_flatMap, octets]
  exact congrArg List.sum (List.map_congr_left fun option member =>
    TcpOption.length_serialize (known option member).1)

/-- The options are written behind the front. -/
theorem writeOptions_append (known : ∀ option ∈ options, option.Known ∧ option.getKind ≠ 0)
    (small : ∀ option ∈ options, option.octets ≤ maxOptionsLen) {optionLen : Nat}
    (room : octets options ≤ rest.length) (bound : optionLen + octets options < 2 ^ 32) :
    writeOptions options (front ++ rest) front.length optionLen =
      some (front ++ body options ++ rest.drop (octets options),
        (front ++ body options).length, optionLen + octets options) := by
  induction options generalizing front rest optionLen with
  | nil => simp [writeOptions, body, octets]
  | cons option options inductionHypothesis =>
      obtain ⟨⟨knownOption, _⟩, knownOptions⟩ := List.forall_mem_cons.mp known
      obtain ⟨smallOption, smallOptions⟩ := List.forall_mem_cons.mp small
      have length := TcpOption.length_serialize knownOption
      have size := TcpOption.getSerializedSize_of_small knownOption smallOption
      have sum : octets (option :: options) = option.octets + octets options := rfl
      rw [sum] at room bound ⊢
      have behind : (rest.drop option.octets).length = rest.length - option.octets :=
        List.length_drop
      have others : writeOptions options (front ++ option.serialize ++ rest.drop option.octets)
          (front ++ option.serialize).length (optionLen + option.octets) =
            some (front ++ option.serialize ++ body options ++
                (rest.drop option.octets).drop (octets options),
              (front ++ option.serialize ++ body options).length,
              optionLen + option.octets + octets options) :=
        inductionHypothesis knownOptions smallOptions (by omega) (by omega)
      rw [List.length_append, length] at others
      have fits : front.length + option.octets ≤
          (front ++ option.serialize ++ rest.drop option.octets).length := by
        rw [List.length_append, List.length_append, length]
        omega
      rw [writeOptions, writeAt_append (by omega)]
      simp only [Option.bind_eq_bind, Option.bind_some]
      rw [length, size, if_pos fits, wrap_of_lt (by omega), others, List.drop_drop, body, body,
        List.flatMap_cons, Nat.add_assoc optionLen]
      simp only [List.append_assoc]

/-- Every option that was written fits into the buffer. -/
theorem length_le_of_writeOptions {i optionLen : Nat} {result : List UInt8 × Nat × Nat}
    (written : writeOptions options buffer i optionLen = some result) :
    ∀ option ∈ options, option.serialize.length ≤ buffer.length := by
  induction options generalizing buffer i optionLen with
  | nil => simp
  | cons option options inductionHypothesis =>
      rw [writeOptions, Option.bind_eq_bind, Option.bind_eq_some_iff] at written
      obtain ⟨after, first, written⟩ := written
      obtain ⟨fits, length⟩ := length_of_writeAt first
      split at written
      next =>
        have others := inductionHypothesis written
        rw [length] at others
        exact List.forall_mem_cons.mpr ⟨fits, others⟩
      next => cases written

/-- The fixed part up to the checksum. -/
def beforeChecksum (self : TcpHeader) : List UInt8 :=
  writeHtonU16 self.sourcePort ++ writeHtonU16 self.destinationPort ++
    writeHtonU32 self.sequenceNumber ++ writeHtonU32 self.ackNumber ++
    writeHtonU16 (UInt16.ofNat (self.length <<< 12 ||| self.flags.toNat)) ++
    writeHtonU16 self.windowSize

/-- The number of END bytes behind the options. -/
def padding (options : List TcpOption) : Nat := (4 - octets options % 4) % 4

/-- The header with a checksum. -/
def bytesWith (self : TcpHeader) (checksum : List UInt8) : List UInt8 :=
  self.beforeChecksum ++ checksum ++ (writeHtonU16 self.urgentPointer ++ body self.options ++
    List.replicate (padding self.options) 0)

/-- The checksum that is written in front of a payload. -/
def checksumOf (self : TcpHeader) (payload : List UInt8) : List UInt8 :=
  if self.calcChecksum then
    let size := wrap 16 (self.bytesWith [0, 0] ++ payload).length
    toBytes 2 (calculateIpChecksum (self.bytesWith [0, 0] ++ payload) size
      (self.calculateHeaderChecksum size))
  else [0, 0]

theorem length_beforeChecksum (self : TcpHeader) : self.beforeChecksum.length = 16 := by
  simp [beforeChecksum]

theorem length_fixedPart (self : TcpHeader) : self.fixedPart.length = 20 := by
  simp [fixedPart]

theorem fixedPart_append (self : TcpHeader) :
    self.fixedPart ++ body self.options ++ List.replicate (padding self.options) 0 =
      self.bytesWith [0, 0] := by
  simp only [fixedPart, bytesWith, beforeChecksum, List.append_assoc]
  rfl

theorem sizes_eq_octets (known : ∀ option ∈ options, option.Known ∧ option.getKind ≠ 0)
    (small : ∀ option ∈ options, option.octets ≤ maxOptionsLen) :
    sizes options = octets options :=
  congrArg List.sum (List.map_congr_left fun option member =>
    TcpOption.getSerializedSize_of_small (known option member).1 (small option member))

/-- The size that the header announces. -/
theorem Built.getSerializedSize (built : self.Built) (small : self.Small) :
    self.getSerializedSize = 20 + octets self.options + padding self.options := by
  obtain ⟨-, bound, -⟩ := built.counted small
  have same := sizes_eq_octets built.known small
  rw [getSerializedSize_of_le (same ▸ bound), same, padding]
  omega

theorem writeAt_checksum (self : TcpHeader) {checksum : List UInt8} (two : checksum.length = 2)
    (payload : List UInt8) :
    writeAt (self.bytesWith [0, 0] ++ payload) 16 checksum =
      some (self.bytesWith checksum ++ payload) := by
  rw [bytesWith, bytesWith, List.append_assoc, List.append_assoc, ← self.length_beforeChecksum,
    writeAt_append (by simp [two]), two]
  simp

theorem writeChecksum_eq (self : TcpHeader) (payload : List UInt8) :
    self.writeChecksum (self.bytesWith [0, 0] ++ payload) =
      some (self.bytesWith (self.checksumOf payload) ++ payload) := by
  rw [writeChecksum, checksumOf]
  by_cases enabled : self.calcChecksum
  · rw [if_pos enabled, if_pos enabled]
    exact self.writeAt_checksum (length_toBytes 2 _) payload
  · rw [if_neg enabled, if_neg enabled]

theorem serialize_eq (built : self.Built) (small : self.Small) {space : List UInt8}
    (size : space.length = self.getSerializedSize) (payload : List UInt8) :
    self.serialize (space ++ payload) =
      some (self.bytesWith (self.checksumOf payload) ++ payload) := by
  rw [built.getSerializedSize small] at size
  obtain ⟨-, bound, -⟩ := built.counted small
  have fixed : writeAt (space ++ payload) 0 self.fixedPart =
      some (self.fixedPart ++ (space ++ payload).drop 20) := by
    have written := @writeAt_append [] (space ++ payload) self.fixedPart (by
      rw [length_fixedPart, List.length_append]
      omega)
    rwa [length_fixedPart] at written
  have options : writeOptions self.options (self.fixedPart ++ (space ++ payload).drop 20) 20 0 =
      some (self.fixedPart ++ body self.options ++
          ((space ++ payload).drop 20).drop (octets self.options),
        (self.fixedPart ++ body self.options).length, 0 + octets self.options) := by
    have room : octets self.options ≤ ((space ++ payload).drop 20).length := by
      rw [List.length_drop, List.length_append]
      omega
    rw [← self.length_fixedPart]
    exact writeOptions_append built.known small room (by rw [maxOptionsLen] at bound; omega)
  have padded : writeAt (self.fixedPart ++ body self.options ++
      ((space ++ payload).drop 20).drop (octets self.options))
        (self.fixedPart ++ body self.options).length
        (List.replicate (padding self.options) 0) = some (self.bytesWith [0, 0] ++ payload) := by
    have after : 20 + octets self.options + padding self.options = space.length := size.symm
    have room : (List.replicate (padding self.options) (0 : UInt8)).length ≤
        (((space ++ payload).drop 20).drop (octets self.options)).length := by
      rw [List.length_replicate, List.length_drop, List.length_drop, List.length_append]
      omega
    rw [writeAt_append room, List.length_replicate, List.drop_drop, List.drop_drop,
      ← Nat.add_assoc, after, List.drop_left, fixedPart_append]
  rw [serialize, fixed]
  simp only [Option.bind_eq_bind, Option.bind_some]
  rw [options]
  simp only [Option.bind_some]
  rw [Nat.zero_add, ← padding, padded, Option.bind_some, writeChecksum_eq]

end Writing

section Reading

variable {options : List TcpOption} {rest : List UInt8}

theorem field_toNat {length : Nat} (fits : length < 16) (flags : UInt8) :
    (UInt16.ofNat (length <<< 12 ||| flags.toNat)).toNat = length * 2 ^ 12 + flags.toNat := by
  have small := flags.toNat_lt
  rw [← Nat.shiftLeft_add_eq_or_of_lt (by omega), Nat.shiftLeft_eq, UInt16.toNat_ofNat']
  omega

/-- The header as it is read, before its options. -/
def readFrom (self receiver : TcpHeader) : TcpHeader :=
  { receiver with
    sourcePort := self.sourcePort
    destinationPort := self.destinationPort
    sequenceNumber := self.sequenceNumber
    ackNumber := self.ackNumber
    length := self.length
    flags := self.flags
    windowSize := self.windowSize
    urgentPointer := self.urgentPointer
    options := []
    optionsLen := 0 }

theorem readFixedPart_bytesWith (receiver : TcpHeader) (fits : self.length < 16)
    (low high : UInt8) (payload : List UInt8) :
    receiver.readFixedPart (self.bytesWith [low, high] ++ payload) =
      some (self.readFrom receiver,
        body self.options ++ (List.replicate (padding self.options) 0 ++ payload)) := by
  have field := field_toNat fits self.flags
  have flags : UInt8.ofNat ((UInt16.ofNat (self.length <<< 12 ||| self.flags.toNat)).toNat % 2 ^ 8) =
      self.flags := by
    have small := self.flags.toNat_lt
    apply UInt8.toNat_inj.mp
    rw [field, UInt8.toNat_ofNat']
    omega
  have length : (UInt16.ofNat (self.length <<< 12 ||| self.flags.toNat)).toNat / 2 ^ 12 =
      self.length := by
    have small := self.flags.toNat_lt
    rw [field]
    omega
  have skipped : ∀ bytes, readNtohU16 (low :: high :: bytes) =
      some (UInt16.ofNat (ofBytes [high, low]), bytes) := fun _ => rfl
  rw [bytesWith, beforeChecksum, readFixedPart]
  simp only [List.append_assoc, readNtohU16_writeHtonU16, readNtohU32_writeHtonU32,
    Option.bind_eq_bind, Option.bind_some, List.cons_append, List.nil_append, skipped, flags,
    length]
  rfl

/-- The options are kept as they were written. -/
theorem returns_body (known : ∀ option ∈ options, option.Known ∧ option.getKind ≠ 0)
    (small : ∀ option ∈ options, option.octets ≤ maxOptionsLen) {left optionsLen : Nat}
    {kept : List TcpOption} {last : OptionsLoop}
    (bound : optionsLen + octets options < 2 ^ 8) :
    Returns OptionsLoop.turn
        ⟨body options ++ rest, octets options + left, kept, optionsLen⟩ last ↔
      Returns OptionsLoop.turn ⟨rest, left, kept ++ options, optionsLen + octets options⟩ last := by
  induction options generalizing kept optionsLen with
  | nil => simp [body, octets]
  | cons option options inductionHypothesis =>
      obtain ⟨⟨knownOption, kind⟩, knownOptions⟩ := List.forall_mem_cons.mp known
      obtain ⟨smallOption, smallOptions⟩ := List.forall_mem_cons.mp small
      have sum : octets (option :: options) = option.octets + octets options := rfl
      have positive := TcpOption.octets_pos knownOption
      have size := TcpOption.getSerializedSize_of_small knownOption smallOption
      have bytes : body (option :: options) ++ rest =
          option.serialize ++ (body options ++ rest) := by
        rw [body, List.flatMap_cons, ← body, List.append_assoc]
      rw [sum] at bound ⊢
      rw [bytes]
      have leads : OptionsLoop.turn ⟨option.serialize ++ (body options ++ rest),
          option.octets + octets options + left, kept, optionsLen⟩ =
            .again ⟨body options ++ rest, octets options + left, kept ++ [option],
              optionsLen + option.octets⟩ := by
        have dropped : (option.serialize ++ (body options ++ rest)).drop option.octets =
            body options ++ rest := by
          rw [← TcpOption.length_serialize knownOption, List.drop_left]
        have narrow : wrap 8 (optionsLen + option.octets) = optionsLen + option.octets :=
          wrap_of_lt (by omega)
        rw [OptionsLoop.turn_of_kept (by dsimp only; omega)
          (TcpOption.deserialize_serialize knownOption smallOption (body options ++ rest))
          size.symm (by dsimp only; omega) kind, OptionsLoop.keep]
        dsimp only
        rw [dropped, narrow, Nat.add_assoc, Nat.add_sub_cancel_left]
      rw [returns_again_iff leads, inductionHypothesis knownOptions smallOptions (by omega),
        List.append_assoc, List.singleton_append, Nat.add_assoc]

/-- The padding is one END option, and its bytes are skipped. -/
theorem returns_padding {count optionsLen : Nat} (few : count < 4) (payload : List UInt8)
    (kept : List TcpOption) (bound : optionsLen + count < 2 ^ 8) :
    ∃ bytes, Returns OptionsLoop.turn
      ⟨List.replicate count 0 ++ payload, count, kept, optionsLen⟩
      ⟨bytes, 0, if count = 0 then kept else kept ++ [.optionEnd], optionsLen + count⟩ := by
  cases count with
  | zero => exact ⟨_, returns_of_exit (OptionsLoop.turn_of_end rfl)⟩
  | succ count =>
      have leads : OptionsLoop.turn
          ⟨List.replicate (count + 1) 0 ++ payload, count + 1, kept, optionsLen⟩ =
            .again ⟨((List.replicate (count + 1) 0 ++ payload).drop 1).drop (count + 1 - 1), 0,
              kept ++ [.optionEnd], optionsLen + (count + 1)⟩ := by
        have narrow : wrap 8 (wrap 8 (optionsLen + 1) + (count + 1 - 1)) =
            optionsLen + (count + 1) := by
          rw [wrap, wrap]
          omega
        rw [OptionsLoop.turn_of_padding (Nat.succ_ne_zero count) (by simp) rfl,
          OptionsLoop.skipPadding, OptionsLoop.keep]
        dsimp only
        rw [narrow]
      exact ⟨_, (returns_again_iff leads).mpr (returns_of_exit (OptionsLoop.turn_of_end rfl))⟩

end Reading

theorem length_checksumOf (self : TcpHeader) (payload : List UInt8) :
    (self.checksumOf payload).length = 2 := by
  rw [checksumOf]
  split
  · exact length_toBytes 2 _
  · rfl

theorem length_bytesWith (self : TcpHeader) {checksum : List UInt8} (two : checksum.length = 2) :
    (self.bytesWith checksum).length =
      20 + (body self.options).length + padding self.options := by
  rw [bytesWith, List.length_append, List.length_append, List.length_append, List.length_append,
    two, length_beforeChecksum, length_writeHtonU16, List.length_replicate]
  omega

theorem sumLoop_eq {bytes : List UInt8} {sum : Nat} (fits : sum + sumWords bytes < 2 ^ 32) :
    sumLoop bytes sum = sum + sumWords bytes := by
  induction bytes using sumWords.induct generalizing sum with
  | case1 low high rest inductionHypothesis =>
      rw [sumWords] at fits ⊢
      rw [sumLoop, wrap_of_lt (by omega), inductionHypothesis (by omega), Nat.add_assoc]
  | case2 last =>
      rw [sumWords] at fits ⊢
      rw [sumLoop, wrap_of_lt fits]
  | case3 => rfl

theorem calculateIpChecksum_eq {bytes : List UInt8} {initial : Nat} (small : initial < 2 ^ 16)
    (fits : bytes.length < 2 ^ 16) :
    calculateIpChecksum bytes (wrap 16 bytes.length) initial =
      2 ^ 16 - 1 - foldCarries (initial + sumWords bytes) := by
  have bound := sumWords_le bytes
  rw [calculateIpChecksum, wrap_of_lt fits, List.take_length, sumLoop_eq (by omega)]

theorem calculateHeaderChecksum_lt (self : TcpHeader) (size : Nat) :
    self.calculateHeaderChecksum size < 2 ^ 16 := by
  rw [calculateHeaderChecksum]
  exact Nat.lt_succ_of_le (Nat.sub_le _ _)

/-- The checksum that is written is the right one. -/
theorem calculateIpChecksum_checksumOf (enabled : self.calcChecksum = true) {payload : List UInt8}
    (fits : (self.bytesWith [0, 0] ++ payload).length < 2 ^ 16) :
    calculateIpChecksum (self.bytesWith (self.checksumOf payload) ++ payload)
      (wrap 16 (self.bytesWith (self.checksumOf payload) ++ payload).length)
      (self.calculateHeaderChecksum
        (wrap 16 (self.bytesWith (self.checksumOf payload) ++ payload).length)) = 0 := by
  have even : self.beforeChecksum.length % 2 = 0 := by rw [length_beforeChecksum]
  have same : (self.bytesWith (self.checksumOf payload) ++ payload).length =
      (self.bytesWith [0, 0] ++ payload).length := by
    rw [List.length_append, List.length_append, length_bytesWith _ (length_checksumOf self payload),
      length_bytesWith _ rfl]
  have small := self.calculateHeaderChecksum_lt
    (wrap 16 (self.bytesWith [0, 0] ++ payload).length)
  have split : ∀ checksum, self.bytesWith checksum ++ payload = self.beforeChecksum ++ checksum ++
      (writeHtonU16 self.urgentPointer ++ body self.options ++
        List.replicate (padding self.options) 0 ++ payload) := fun checksum =>
    List.append_assoc _ _ _
  have checked := calculateIpChecksum_eq small (same.trans_lt fits)
  rw [same] at checked ⊢
  rw [checked, checksumOf, if_pos enabled]
  dsimp only
  rw [calculateIpChecksum_eq small fits, split, split, foldCarries_sumWords _ even, Nat.sub_self]

/-- The checksums of two headers are about the same addresses. -/
structure SameChecksum (sender receiver : TcpHeader) : Prop where
  calcChecksum : receiver.calcChecksum = sender.calcChecksum
  source : receiver.source = sender.source
  destination : receiver.destination = sender.destination
  protocol : receiver.protocol = sender.protocol

/-- What is read of a header: all its fields, and the options with an END option for the
padding. -/
def received (self receiver : TcpHeader) : TcpHeader :=
  { self.readFrom receiver with
    goodChecksum := receiver.calcChecksum || receiver.goodChecksum
    options := if padding self.options = 0 then self.options
      else self.options ++ [.optionEnd]
    optionsLen := octets self.options + padding self.options }

/-- The header is written into its size, and read again. -/
structure RoundTrips (header : TcpHeader) : Prop where
  size : header.getSerializedSize = 4 * header.length
  restores : ∀ space payload, space.length = header.getSerializedSize →
    (space ++ payload).length < 2 ^ 16 →
      ∃ written, header.serialize (space ++ payload) = some (written ++ payload) ∧
        written.length = header.getSerializedSize ∧
        ∀ receiver, SameChecksum header receiver → ∃ fuel,
          receiver.deserialize fuel (written ++ payload) =
            .returned (header.getSerializedSize, header.received receiver)

/-- The options as they are read. -/
theorem Built.sizes_received (built : self.Built) (small : self.Small) (receiver : TcpHeader) :
    sizes (self.received receiver).options =
      octets self.options + if padding self.options = 0 then 0 else 1 := by
  have same := sizes_eq_octets built.known small
  change sizes (if padding self.options = 0 then _ else _) = _
  split
  · exact same
  · rw [sizes, List.map_append, List.sum_append, ← sizes, same]
    rfl

theorem Built.getSerializedSize_received (built : self.Built) (small : self.Small)
    (receiver : TcpHeader) :
    (self.received receiver).getSerializedSize = self.getSerializedSize := by
  obtain ⟨-, bound, -⟩ := built.counted small
  have kept := built.sizes_received small receiver
  rw [maxOptionsLen] at bound
  rw [built.getSerializedSize small, getSerializedSize_of_le, kept, padding]
  · split <;> omega
  · rw [kept, maxOptionsLen, padding]
    split <;> omega

/-- The checksum is right if there is one. -/
theorem checkChecksum_bytesWith {receiver : TcpHeader} (sameChecksum : SameChecksum self receiver)
    {payload : List UInt8} (fits : (self.bytesWith [0, 0] ++ payload).length < 2 ^ 16) :
    checkChecksum { self.readFrom receiver with
        options := if padding self.options = 0 then self.options
          else self.options ++ [.optionEnd]
        optionsLen := octets self.options + padding self.options }
      (self.bytesWith (self.checksumOf payload) ++ payload) = self.received receiver := by
  rw [checkChecksum, received]
  cases enabled : receiver.calcChecksum with
  | false => simp [readFrom, enabled]
  | true =>
      have sender : self.calcChecksum = true := sameChecksum.calcChecksum.symm.trans enabled
      have header : ∀ options optionsLen size,
          calculateHeaderChecksum { self.readFrom receiver with
            options := options, optionsLen := optionsLen } size =
              self.calculateHeaderChecksum size := by
        intro options optionsLen size
        simp only [calculateHeaderChecksum, pseudoHeader, readFrom, sameChecksum.source,
          sameChecksum.destination, sameChecksum.protocol]
      have correct := calculateIpChecksum_checksumOf sender fits
      have reads : (self.readFrom receiver).calcChecksum = true := enabled
      dsimp only
      rw [header, correct, if_pos reads]
      rfl

theorem Built.roundTrips (built : self.Built) (small : self.Small) : self.RoundTrips := by
  have size := built.getSerializedSize small
  obtain ⟨counted, bound, length⟩ := built.counted small
  rw [maxOptionsLen] at bound
  have words : octets self.options + padding self.options = 4 * (self.length - 5) := by
    rw [length, padding]
    omega
  refine ⟨by rw [size, padding]; omega, ?_⟩
  intro space payload fits whole
  have written := self.length_bytesWith (length_checksumOf self payload)
  rw [length_body built.known, ← size] at written
  refine ⟨_, serialize_eq built small fits payload, written, ?_⟩
  intro receiver sameChecksum
  have total : (self.bytesWith [0, 0] ++ payload).length < 2 ^ 16 := by
    rw [List.length_append, fits] at whole
    rwa [List.length_append, length_bytesWith _ rfl, length_body built.known, ← size]
  have few : padding self.options < 4 := Nat.mod_lt _ (by decide)
  have read : receiver.readFixedPart (self.bytesWith (self.checksumOf payload) ++ payload) =
      some (self.readFrom receiver,
        body self.options ++ (List.replicate (padding self.options) 0 ++ payload)) := by
    obtain ⟨low, high, two⟩ := List.length_eq_two.mp (length_checksumOf self payload)
    rw [two]
    exact readFixedPart_bytesWith receiver (by omega) low high payload
  obtain ⟨bytes, ended⟩ := returns_padding few payload self.options
    (show octets self.options + padding self.options < 2 ^ 8 by omega)
  have returns : Returns OptionsLoop.turn
      { bytes := body self.options ++ (List.replicate (padding self.options) 0 ++ payload)
        optionLen := octets self.options + padding self.options }
      ⟨bytes, 0, if padding self.options = 0 then self.options
        else self.options ++ [.optionEnd], octets self.options + padding self.options⟩ := by
    rw [returns_body built.known small (by omega), List.nil_append, Nat.zero_add]
    exact ended
  obtain ⟨fuel, ran⟩ := returns
  have announced : wrapInt 32 ((((self.readFrom receiver).length : Int) - 5) * 4) =
      octets self.options + padding self.options := by
    change wrapInt 32 (((self.length : Int) - 5) * 4) = _
    rw [wrapInt]
    omega
  refine ⟨fuel, (deserialize_eq_returned_iff read announced (by rw [maxOptionsLen]; omega)).mpr
    ⟨_, ran, ?_, ?_⟩⟩
  · exact (built.getSerializedSize_received small receiver).symm
  · exact (checkChecksum_bytesWith sameChecksum total).symm

/-- A header that can be written has no option that is longer than the space for options. -/
theorem Built.small_of_roundTrips (built : self.Built) (trips : self.RoundTrips) : self.Small := by
  have narrow : self.calculateHeaderLength < 2 ^ 8 := wrap_lt 8 _
  have bound : self.getSerializedSize ≤ 1020 := by
    rw [TcpHeader.getSerializedSize]
    omega
  obtain ⟨written, serialized, -⟩ := trips.restores (List.replicate self.getSerializedSize 0) []
    List.length_replicate (by rw [List.append_nil, List.length_replicate]; omega)
  rw [List.append_nil, serialize, Option.bind_eq_bind, Option.bind_eq_some_iff] at serialized
  obtain ⟨buffer, fixed, serialized⟩ := serialized
  rw [Option.bind_eq_bind, Option.bind_eq_some_iff] at serialized
  obtain ⟨result, options, -⟩ := serialized
  intro option member
  have fits := length_le_of_writeOptions options option member
  rw [(length_of_writeAt fixed).2, List.length_replicate,
    TcpOption.length_serialize (built.known option member).1] at fits
  have accepted := built.accepted option member
  omega

/-- The calls for a segment with a timestamp and two SACK blocks. -/
def sackCalls : List Call :=
  [.setSourcePort 1024, .setDestinationPort 80, .setSequenceNumber 7, .setFlags 0x12,
    .initializeChecksum ⟨true, [10, 0, 0, 1]⟩ ⟨true, [10, 0, 0, 2]⟩ 6, .enableChecksums,
    .appendOption (.ts 3 4), .appendOption (.sack [(1, 5), (9, 12)]), .appendOption (.mss 1460),
    .appendOption .optionEnd, .appendOption (.ts 5 6), .appendOption .nop]

/-- The size of so many blocks is two in 32 bits. -/
theorem not_roundTrips_of_wrapped {sackList : List (UInt32 × UInt32)}
    (many : sackList.length = 2 ^ 29) :
    ¬ (build 6 [.appendOption (.sack sackList)]).RoundTrips := by
  intro trips
  have known : ∀ call ∈ [Call.appendOption (.sack sackList)], call.Known := by
    simp [Call.Known, TcpOption.Known]
  have size : (TcpOption.sack sackList).getSerializedSize = 2 := by
    rw [TcpOption.getSerializedSize, many]
    rfl
  have options : (build 6 [.appendOption (.sack sackList)]).options = [.sack sackList] := by
    change (TcpHeader.appendOption _ _).2.options = _
    rw [TcpHeader.appendOption, size]
    rfl
  have small := (built_build 6 known).small_of_roundTrips trips (.sack sackList) (by simp [options])
  rw [TcpOption.octets, many] at small
  exact absurd small (by decide)

end Ns3.Internet.TcpHeader
