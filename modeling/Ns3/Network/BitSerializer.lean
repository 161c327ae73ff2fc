import Ns3.Library.BitList
import Mathlib.Data.BitVec
import Mathlib.Tactic.Ring

/-!
`ns3::BitSerializer` and `ns3::BitDeserializer`: fields of some bits, packed into bytes.
-/

namespace Ns3.Network

open Library

/-- How a call fails: `NS_ABORT_MSG_IF`, or a write behind the end of the buffer. -/
inductive BitFailure
  | aborted
  | overrun
  deriving DecidableEq, Repr

/-- `ns3::BitSerializer`. -/
structure BitSerializer where
  blob : List Bool := []
  padAtEnd : Bool := true
  deriving DecidableEq, Repr

namespace BitSerializer

variable (self : BitSerializer)

/-- `PadAtStart`. -/
def padStart : BitSerializer :=
  { self with blob := List.replicate (8 - self.blob.length % 8) false ++ self.blob }

/-- `PadAtEnd`. -/
def padEnd : BitSerializer :=
  { self with blob := self.blob ++ List.replicate (8 - self.blob.length % 8) false }

/-- The loop of `PushBits`. -/
def pushLoop (value : BitVec 64) : Nat → BitVec 64 → List Bool → List Bool
  | 0, _, blob => blob
  | left + 1, mask, blob => pushLoop value left (mask >>> 1) (blob ++ [decide (value &&& mask ≠ 0)])

/-- `PushBits`. -/
def pushBits (value : BitVec 64) (significantBits : Nat) : BitSerializer :=
  { self with blob := pushLoop value significantBits (1#64 <<< (significantBits - 1)) self.blob }

/-- The inner loop of `GetBytes`. -/
def byteOf (bits : List Bool) : UInt8 := bits.foldl (fun tmp bit => tmp <<< 1 ||| bit.toUInt8) 0

/-- The loop of `GetBytes`. There are never less than eight bits left. -/
def bytesOf : List Bool → List UInt8
  | b0 :: b1 :: b2 :: b3 :: b4 :: b5 :: b6 :: b7 :: rest =>
      byteOf [b0, b1, b2, b3, b4, b5, b6, b7] :: bytesOf rest
  | _ => []

/-- The blob with the padding. -/
def padded : BitSerializer := if self.padAtEnd then self.padEnd else self.padStart

/-- `GetBytes`. -/
def getBytes : List UInt8 × BitSerializer := (bytesOf self.padded.blob, { self with blob := [] })

/-- The loop of the other `GetBytes`, that writes into the buffer. -/
def fill : List UInt8 → UInt8 → List UInt8 → Except BitFailure (List UInt8 × UInt8)
  | [], resultLen, buffer => .ok (buffer, resultLen)
  | byte :: rest, resultLen, buffer =>
      if resultLen.toNat < buffer.length then
        fill rest (resultLen + 1) (buffer.set resultLen.toNat byte)
      else .error .overrun

/-- The other `GetBytes`, for a buffer of as many bytes as it is told. -/
def getBytesInto (buffer : List UInt8) : Except BitFailure (List UInt8 × UInt8) :=
  if self.padded.blob.length ≤ 8 * buffer.length % 2 ^ 32 then .error .aborted
  else fill (bytesOf self.padded.blob) 0 buffer

end BitSerializer

/-- `ns3::BitDeserializer`. -/
structure BitDeserializer where
  bytesBlob : List UInt8 := []
  blob : List Bool := []
  deserializing : Bool := false
  deriving DecidableEq, Repr

namespace BitDeserializer

variable (self : BitDeserializer)

/-- `PushBytes`. -/
def pushBytes (bytes : List UInt8) : Except BitFailure BitDeserializer :=
  if self.deserializing then .error .aborted
  else .ok { self with bytesBlob := self.bytesBlob ++ bytes }

/-- The bits that `PrepareDeserialization` finds in a byte. -/
def bitsOfByte (byte : UInt8) : List Bool :=
  [byte &&& 0x80 ≠ 0, byte &&& 0x40 ≠ 0, byte &&& 0x20 ≠ 0, byte &&& 0x10 ≠ 0, byte &&& 0x8 ≠ 0,
    byte &&& 0x4 ≠ 0, byte &&& 0x2 ≠ 0, byte &&& 0x1 ≠ 0]

/-- `PrepareDeserialization`. -/
def prepareDeserialization : BitDeserializer :=
  if self.deserializing then self
  else
    { self with deserializing := true, blob := self.blob ++ self.bytesBlob.flatMap bitsOfByte }

/-- The loop of `GetBits`. The result has eight bits. -/
def takeBits : Nat → UInt8 → List Bool → UInt8 × List Bool
  | left + 1, result, bit :: rest => takeBits left (result <<< 1 ||| bit.toUInt8) rest
  | _, result, blob => (result, blob)

/-- `GetBits`. -/
def getBits (size : Nat) : Except BitFailure (BitVec 64 × BitDeserializer) :=
  let self := self.prepareDeserialization
  if size > 64 ∨ size > self.blob.length then .error .aborted
  else
    let (result, blob) := takeBits size 0 self.blob
    .ok (result.toBitVec.setWidth 64, { self with blob := blob })

/-- One `GetBits` after the other. -/
def getAll : List Nat → BitDeserializer → Except BitFailure (List (BitVec 64))
  | [], _ => .ok []
  | size :: sizes, self => do
      let (value, self) ← self.getBits size
      let values ← getAll sizes self
      .ok (value :: values)

end BitDeserializer

namespace BitSerializer

/-- The mask of `PushBits` meets the bits one after the other. -/
theorem pushLoop_eq (value : BitVec 64) {left : Nat} (fits : left ≤ 64) (blob : List Bool) :
    pushLoop value left (1#64 <<< (left - 1)) blob = blob ++ bitsOf left value.toNat := by
  induction left generalizing blob with
  | zero => exact (List.append_nil blob).symm
  | succ left inductionHypothesis =>
      have bit : decide (value &&& 1#64 <<< left ≠ 0) = value.toNat.testBit left := by
        rw [← BitVec.twoPow_eq, BitVec.and_twoPow, BitVec.testBit_toNat]
        cases value.getLsbD left with
        | false => simp
        | true =>
            have positive : BitVec.twoPow 64 left ≠ 0 := by
              intro zero
              have number := congrArg BitVec.toNat zero
              rw [BitVec.toNat_twoPow_of_lt (by omega)] at number
              exact absurd number (Nat.ne_of_gt (Nat.two_pow_pos left))
            simpa using positive
      rw [pushLoop, Nat.add_sub_cancel, bit, bitsOf]
      cases left with
      | zero => rfl
      | succ left =>
          have next : (1#64 <<< (left + 1)) >>> 1 = 1#64 <<< left := by
            apply BitVec.eq_of_toNat_eq
            rw [← BitVec.twoPow_eq, ← BitVec.twoPow_eq, BitVec.toNat_ushiftRight,
              BitVec.toNat_twoPow_of_lt (by omega), BitVec.toNat_twoPow_of_lt (by omega),
              Nat.shiftRight_eq_div_pow, Nat.pow_succ, Nat.pow_one, Nat.mul_div_cancel _ (by decide)]
          have rest := inductionHypothesis (by omega) (blob ++ [value.toNat.testBit (left + 1)])
          rw [Nat.add_sub_cancel] at rest
          rw [next, rest, List.append_assoc]
          rfl

theorem pushBits_blob (self : BitSerializer) (value : BitVec 64) {significantBits : Nat}
    (fits : significantBits ≤ 64) :
    (self.pushBits value significantBits).blob =
      self.blob ++ bitsOf significantBits value.toNat := pushLoop_eq value fits self.blob

theorem length_lt_of_short {bits : List Bool}
    (short : ∀ b0 b1 b2 b3 b4 b5 b6 b7 rest,
      bits = b0 :: b1 :: b2 :: b3 :: b4 :: b5 :: b6 :: b7 :: rest → False) : bits.length < 8 := by
  apply Nat.lt_of_not_le
  intro long
  rcases bits with _ | ⟨b0, _ | ⟨b1, _ | ⟨b2, _ | ⟨b3, _ | ⟨b4, _ | ⟨b5, _ | ⟨b6, _ | ⟨b7, rest⟩⟩⟩⟩⟩⟩⟩⟩
  case cons.cons.cons.cons.cons.cons.cons.cons =>
    exact short b0 b1 b2 b3 b4 b5 b6 b7 rest rfl
  all_goals exact absurd long (by simp)

theorem length_bytesOf (bits : List Bool) : (bytesOf bits).length = bits.length / 8 := by
  fun_induction bytesOf bits with
  | case1 b0 b1 b2 b3 b4 b5 b6 b7 rest inductionHypothesis =>
      simp only [List.length_cons, inductionHypothesis]
      omega
  | case2 bits short => rw [List.length_nil, Nat.div_eq_of_lt (length_lt_of_short short)]

theorem and_twoPow_ne_zero (byte : UInt8) {i : Nat} (inside : i < 8) :
    decide (byte &&& UInt8.ofNat (2 ^ i) ≠ 0) = byte.toBitVec.getLsbD i := by
  have mask : ∀ i : Fin 8, (UInt8.ofNat (2 ^ (i : Nat))).toBitVec = BitVec.twoPow 8 i := by decide
  have some : ∀ i : Fin 8, BitVec.twoPow 8 i ≠ 0#8 := by decide
  have masked : byte &&& UInt8.ofNat (2 ^ i) ≠ 0 ↔ byte.toBitVec.getLsbD i := by
    rw [ne_eq, ← UInt8.toBitVec_inj, UInt8.toBitVec_and, mask ⟨i, inside⟩, BitVec.and_twoPow]
    split
    next set => exact iff_of_true (some ⟨i, inside⟩) set
    next clear => exact iff_of_false (not_not_intro rfl) clear
  rw [Bool.eq_iff_iff, decide_eq_true_iff]
  exact masked

theorem toBitVec_push (tmp : UInt8) (bit : Bool) :
    (tmp <<< 1 ||| bit.toUInt8).toBitVec = tmp.toBitVec <<< 1 ||| (BitVec.ofBool bit).setWidth 8 := by
  cases bit <;> rfl

theorem getLsbD_push_zero (tmp : UInt8) (bit : Bool) :
    (tmp <<< 1 ||| bit.toUInt8).toBitVec.getLsbD 0 = bit := by
  rw [toBitVec_push, BitVec.getLsbD_or]
  cases bit <;> simp

theorem getLsbD_push_succ (tmp : UInt8) (bit : Bool) {i : Nat} (inside : i + 1 < 8) :
    (tmp <<< 1 ||| bit.toUInt8).toBitVec.getLsbD (i + 1) = tmp.toBitVec.getLsbD i := by
  rw [toBitVec_push, BitVec.getLsbD_or, BitVec.getLsbD_setWidth, BitVec.getLsbD_ofBool,
    BitVec.getLsbD_shiftLeft]
  simp [inside]

theorem bitsOfByte_eq (byte : UInt8) :
    BitDeserializer.bitsOfByte byte =
      (List.range 8).reverse.map byte.toBitVec.getLsbD := by
  change [decide (byte &&& UInt8.ofNat (2 ^ 7) ≠ 0), decide (byte &&& UInt8.ofNat (2 ^ 6) ≠ 0),
    decide (byte &&& UInt8.ofNat (2 ^ 5) ≠ 0), decide (byte &&& UInt8.ofNat (2 ^ 4) ≠ 0),
    decide (byte &&& UInt8.ofNat (2 ^ 3) ≠ 0), decide (byte &&& UInt8.ofNat (2 ^ 2) ≠ 0),
    decide (byte &&& UInt8.ofNat (2 ^ 1) ≠ 0), decide (byte &&& UInt8.ofNat (2 ^ 0) ≠ 0)] = _
  simp (disch := decide) only [and_twoPow_ne_zero]
  rfl

theorem bitsOfByte_byteOf (b0 b1 b2 b3 b4 b5 b6 b7 : Bool) :
    BitDeserializer.bitsOfByte (byteOf [b0, b1, b2, b3, b4, b5, b6, b7]) =
      [b0, b1, b2, b3, b4, b5, b6, b7] := by
  rw [bitsOfByte_eq]
  change [_, _, _, _, _, _, _, _] = _
  unfold byteOf
  simp (disch := decide) only [List.foldl_cons, List.foldl_nil, getLsbD_push_succ,
    getLsbD_push_zero]

/-- The deserializer finds the bits that the serializer had. -/
theorem flatMap_bytesOf {bits : List Bool} (whole : bits.length % 8 = 0) :
    (bytesOf bits).flatMap BitDeserializer.bitsOfByte = bits := by
  fun_induction bytesOf bits with
  | case1 b0 b1 b2 b3 b4 b5 b6 b7 rest inductionHypothesis =>
      have wholeRest : rest.length % 8 = 0 := by
        simp only [List.length_cons] at whole
        omega
      rw [List.flatMap_cons, bitsOfByte_byteOf, inductionHypothesis wholeRest]
      rfl
  | case2 bits short =>
      have few := length_lt_of_short short
      rw [Nat.mod_eq_of_lt few, List.length_eq_zero_iff] at whole
      rw [whole]
      rfl

end BitSerializer

namespace BitDeserializer

theorem toNat_push (result : UInt8) (bit : Bool) :
    (result <<< 1 ||| bit.toUInt8).toNat = (2 * result.toNat + bit.toNat) % 256 := by
  have small : bit.toNat < 2 ^ 1 := Bool.toNat_lt bit
  have isBit : bit.toUInt8.toNat = bit.toNat := by cases bit <;> rfl
  have even : result.toNat <<< 1 % 2 ^ 8 = (result.toNat % 128) <<< 1 := by
    rw [Nat.shiftLeft_eq, Nat.shiftLeft_eq]
    omega
  rw [UInt8.toNat_or, UInt8.toNat_shiftLeft, isBit]
  change (result.toNat <<< 1 % 2 ^ 8 ||| bit.toNat) = _
  rw [even, ← Nat.shiftLeft_add_eq_or_of_lt small, Nat.shiftLeft_eq]
  omega

/-- The result of `GetBits` has the lowest eight bits. -/
theorem takeBits_append (bits rest : List Bool) (result : UInt8) :
    ∃ taken, takeBits bits.length result (bits ++ rest) = (taken, rest) ∧
      taken.toNat = (result.toNat * 2 ^ bits.length + ofBits bits) % 256 := by
  induction bits generalizing result with
  | nil =>
      refine ⟨result, by cases rest <;> rfl, ?_⟩
      have small := result.toNat_lt
      simp only [List.length_nil, Nat.pow_zero, Nat.mul_one, ofBits, List.foldl_nil, Nat.add_zero]
      exact (Nat.mod_eq_of_lt small).symm
  | cons bit bits inductionHypothesis =>
      obtain ⟨taken, isTaken, number⟩ := inductionHypothesis (result <<< 1 ||| bit.toUInt8)
      refine ⟨taken, isTaken, ?_⟩
      rw [number, toNat_push, ofBits_cons, List.length_cons, Nat.pow_succ, Nat.add_mod,
        Nat.mul_mod, Nat.mod_mod, ← Nat.mul_mod, ← Nat.add_mod]
      congr 1
      ring

end BitDeserializer

/-- A value with the number of bits that it is pushed with. -/
structure BitField where
  value : BitVec 64
  width : Nat
  width_pos : 0 < width
  width_le : width ≤ 64
  value_lt : value.toNat < 2 ^ width
  deriving DecidableEq, Repr

/-- The bits of the fields. -/
def fieldBits (fields : List BitField) : List Bool :=
  fields.flatMap fun field => bitsOf field.width field.value.toNat

/-- The number of bits of the fields. -/
def totalBits (fields : List BitField) : Nat := (fields.map BitField.width).sum

theorem length_fieldBits (fields : List BitField) :
    (fieldBits fields).length = totalBits fields := by
  simp [fieldBits, totalBits, List.length_flatMap]

/-- `PushBits` of one field after the other. -/
def BitSerializer.push (self : BitSerializer) (fields : List BitField) : BitSerializer :=
  fields.foldl (fun self field => self.pushBits field.value field.width) self

theorem BitSerializer.push_eq (self : BitSerializer) (fields : List BitField) :
    self.push fields = { self with blob := self.blob ++ fieldBits fields } := by
  induction fields generalizing self with
  | nil => simp [push, fieldBits]
  | cons field fields inductionHypothesis =>
      have rest := inductionHypothesis (self.pushBits field.value field.width)
      unfold push at rest ⊢
      rw [List.foldl_cons, rest, pushBits_blob self field.value field.width_le, List.append_assoc]
      rfl

/-- `GetBits` of the fields gives the lowest eight bits of each value. -/
theorem BitDeserializer.getAll_eq (fields : List BitField) (self : BitDeserializer)
    (started : self.deserializing = true) (rest : List Bool)
    (isBlob : self.blob = fieldBits fields ++ rest) :
    self.getAll (fields.map BitField.width) =
      .ok (fields.map fun field => BitVec.ofNat 64 (field.value.toNat % 256)) := by
  induction fields generalizing self with
  | nil => rfl
  | cons field fields inductionHypothesis =>
      have bits : self.blob =
          bitsOf field.width field.value.toNat ++ (fieldBits fields ++ rest) := by
        rw [isBlob, fieldBits, List.flatMap_cons, List.append_assoc]
        rfl
      have enough : field.width ≤ self.blob.length := by
        rw [bits, List.length_append, length_bitsOf]
        exact Nat.le_add_right _ _
      obtain ⟨taken, isTaken, number⟩ :=
        takeBits_append (bitsOf field.width field.value.toNat) (fieldBits fields ++ rest) 0
      rw [length_bitsOf, ← bits] at isTaken
      have value : taken.toBitVec.setWidth 64 = BitVec.ofNat 64 (field.value.toNat % 256) := by
        apply BitVec.eq_of_toNat_eq
        rw [BitVec.toNat_setWidth, BitVec.toNat_ofNat]
        change taken.toNat % _ = _
        rw [number, ofBits_bitsOf, Nat.mod_eq_of_lt field.value_lt]
        simp
      have got : self.getBits field.width =
          .ok (BitVec.ofNat 64 (field.value.toNat % 256),
            { self with blob := fieldBits fields ++ rest }) := by
        unfold getBits prepareDeserialization
        have inside : ¬ (field.width > 64 ∨ field.width > self.blob.length) := by
          have := field.width_le
          omega
        rw [if_pos started]
        dsimp only
        rw [if_neg inside, isTaken, value]
      rw [List.map_cons, getAll, got]
      have others := inductionHypothesis { self with blob := fieldBits fields ++ rest } started rfl
      simp only [bind, Except.bind, others]
      rfl

namespace BitSerializer

theorem fill_ok {bytes buffer filled : List UInt8} {resultLen count : UInt8}
    (given : fill bytes resultLen buffer = .ok (filled, count)) :
    filled.length = buffer.length ∧
      count.toNat = (resultLen.toNat + bytes.length) % 256 := by
  induction bytes generalizing resultLen buffer with
  | nil =>
      cases given
      exact ⟨rfl, (Nat.mod_eq_of_lt count.toNat_lt).symm⟩
  | cons byte bytes inductionHypothesis =>
      rw [fill] at given
      split at given
      · obtain ⟨sameLength, number⟩ := inductionHypothesis given
        rw [UInt8.toNat_add] at number
        refine ⟨by rw [sameLength, List.length_set], ?_⟩
        rw [number, List.length_cons]
        change ((resultLen.toNat + 1) % 256 + _) % 256 = _
        omega
      · cases given

/-- The bytes are written one behind the other, as long as their number fits eight bits. -/
theorem fill_eq {bytes buffer : List UInt8} {resultLen : UInt8}
    (inside : resultLen.toNat + bytes.length ≤ buffer.length)
    (few : resultLen.toNat + bytes.length < 256) :
    ∃ count, fill bytes resultLen buffer =
        .ok (buffer.take resultLen.toNat ++ bytes ++
          buffer.drop (resultLen.toNat + bytes.length), count) ∧
      count.toNat = resultLen.toNat + bytes.length := by
  induction bytes generalizing resultLen buffer with
  | nil => exact ⟨resultLen, by simp [fill], rfl⟩
  | cons byte bytes inductionHypothesis =>
      rw [List.length_cons] at inside few
      have next : (resultLen + 1).toNat = resultLen.toNat + 1 := by
        rw [UInt8.toNat_add]
        exact Nat.mod_eq_of_lt (by change resultLen.toNat + 1 < 256; omega)
      obtain ⟨count, isFilled, number⟩ := @inductionHypothesis
        (buffer.set resultLen.toNat byte) (resultLen + 1) (by rw [List.length_set]; omega)
        (by omega)
      refine ⟨count, ?_, by rw [number, next, List.length_cons]; omega⟩
      rw [fill, if_pos (by omega), isFilled, next]
      have start : (buffer.set resultLen.toNat byte).take (resultLen.toNat + 1) =
          buffer.take resultLen.toNat ++ [byte] := by
        rw [List.take_add_one, List.take_set_of_le (Nat.le_refl _), List.getElem?_set_self (by omega)]
        rfl
      have behind : (buffer.set resultLen.toNat byte).drop (resultLen.toNat + 1 + bytes.length) =
          buffer.drop (resultLen.toNat + (byte :: bytes).length) := by
        rw [List.drop_set_of_lt (by omega), List.length_cons, Nat.add_right_comm, Nat.add_assoc]
      rw [start, behind]
      simp

/-- The bytes of the fields. -/
def bytes (fields : List BitField) : List UInt8 := (({} : BitSerializer).push fields).getBytes.1

theorem padded_push (fields : List BitField) :
    (({} : BitSerializer).push fields).padded.blob =
      fieldBits fields ++ List.replicate (8 - totalBits fields % 8) false := by
  rw [push_eq, ← length_fieldBits]
  rfl

theorem length_padded (fields : List BitField) :
    (({} : BitSerializer).push fields).padded.blob.length = 8 * (totalBits fields / 8 + 1) := by
  rw [padded_push, List.length_append, length_fieldBits, List.length_replicate]
  omega

theorem length_bytes (fields : List BitField) :
    (bytes fields).length = totalBits fields / 8 + 1 := by
  change (bytesOf _).length = _
  rw [length_bytesOf, length_padded]
  omega

/-- `GetBytes(buffer, size)` succeeds, and gives the bytes of the other `GetBytes`. -/
def Yields (fields : List BitField) (buffer : List UInt8) : Prop :=
  ∃ filled count, (({} : BitSerializer).push fields).getBytesInto buffer = .ok (filled, count) ∧
    count.toNat = (bytes fields).length ∧ filled.take (bytes fields).length = bytes fields

/-- What the deserializer gives, which is fed with the bytes. -/
def readBack (fields : List BitField) : Except BitFailure (List (BitVec 64)) := do
  let deserializer ← ({} : BitDeserializer).pushBytes (bytes fields)
  deserializer.getAll (fields.map BitField.width)

/-- The fields come back, in as few bytes as they need, and a buffer is filled if it has so
many. -/
structure RoundTrips (fields : List BitField) (buffer : List UInt8) : Prop where
  values : readBack fields = .ok (fields.map BitField.value)
  length : (bytes fields).length = (totalBits fields + 7) / 8
  bounded : Yields fields buffer ↔ (totalBits fields + 7) / 8 ≤ buffer.length

theorem getAll_prepareDeserialization (sizes : List Nat) (deserializer : BitDeserializer) :
    deserializer.prepareDeserialization.getAll sizes = deserializer.getAll sizes := by
  have again : deserializer.prepareDeserialization.prepareDeserialization =
      deserializer.prepareDeserialization := by
    unfold BitDeserializer.prepareDeserialization
    split <;> simp_all
  cases sizes with
  | nil => rfl
  | cons size sizes =>
      unfold BitDeserializer.getAll BitDeserializer.getBits
      rw [again]

theorem readBack_eq (fields : List BitField) :
    readBack fields = .ok (fields.map fun field => BitVec.ofNat 64 (field.value.toNat % 256)) := by
  have whole : (({} : BitSerializer).push fields).padded.blob.length % 8 = 0 := by
    rw [length_padded, Nat.mul_mod_right]
  have blob : (bytes fields).flatMap BitDeserializer.bitsOfByte =
      fieldBits fields ++ List.replicate (8 - totalBits fields % 8) false := by
    rw [← padded_push]
    exact flatMap_bytesOf whole
  have given := BitDeserializer.getAll_eq fields
    ({ bytesBlob := bytes fields } : BitDeserializer).prepareDeserialization rfl _ blob
  rw [getAll_prepareDeserialization] at given
  exact given

theorem values_iff (fields : List BitField) :
    readBack fields = .ok (fields.map BitField.value) ↔
      ∀ field ∈ fields, field.value.toNat < 256 := by
  rw [readBack_eq, Except.ok.injEq, List.map_inj_left]
  refine forall_congr' fun field => imp_congr_right fun _ => ?_
  have small := field.value.isLt
  rw [← BitVec.toNat_inj, BitVec.toNat_ofNat, Nat.mod_eq_of_lt (by omega)]
  omega

/-- The test for the length of the buffer is the wrong way round: the call succeeds only if its
length in bits overflows. -/
theorem yields_iff (fields : List BitField) (buffer : List UInt8) :
    Yields fields buffer ↔
      (bytes fields).length ≤ buffer.length ∧
        8 * buffer.length % 2 ^ 32 < 8 * (bytes fields).length ∧ (bytes fields).length < 256 := by
  have length : (({} : BitSerializer).push fields).padded.blob.length =
      8 * (bytes fields).length := by rw [length_padded, length_bytes]
  unfold Yields getBytesInto
  rw [length]
  constructor
  · rintro ⟨filled, count, given, number, same⟩
    split at given
    · cases given
    · next long =>
        obtain ⟨sameLength, isCount⟩ := fill_ok given
        have taken := congrArg List.length same
        rw [List.length_take] at taken
        have small := count.toNat_lt
        exact ⟨by omega, by omega, by omega⟩
  · rintro ⟨enough, wraps, few⟩
    obtain ⟨count, isFilled, number⟩ := @fill_eq (bytes fields) buffer 0
      (by rw [UInt8.toNat_zero]; omega) (by rw [UInt8.toNat_zero]; omega)
    rw [UInt8.toNat_zero, Nat.zero_add] at number
    rw [UInt8.toNat_zero, Nat.zero_add, List.take_zero, List.nil_append] at isFilled
    refine ⟨bytes fields ++ buffer.drop (bytes fields).length, count, ?_, number, List.take_left⟩
    rw [if_neg (by omega)]
    exact isFilled

end BitSerializer

end Ns3.Network
