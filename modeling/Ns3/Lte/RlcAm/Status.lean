import Ns3.Lte.RlcHeader

/-!
The bytes of `ns3::LteRlcAmHeader` for a STATUS PDU.

Behind ACK_SN stand the NACK_SN fields of ten bits, each with an E1 bit that tells whether another
one follows, and all but the first with an E2 bit that is always clear; two of them take three
bytes. `PushNack` counts them as `PushExtensionBit` counts the fields of a data PDU.
-/

namespace Ns3.Lte

open Library

/-- `ns3::LteRlcAmHeader` of a STATUS PDU. -/
structure LteRlcAmStatus where
  controlPduType : Nat
  ackSn : Nat
  nackSnList : List Nat
  deriving DecidableEq, Repr

namespace LteRlcAmStatus

/-- D/C, which is clear, CPT and the first bits of ACK_SN. -/
def statusByte1 (controlPduType ackSn : Nat) : UInt8 :=
  .ofNat (((0 <<< 7) &&& 0x80) ||| ((controlPduType <<< 4) &&& 0x70) ||| ((ackSn >>> 6) &&& 0x0f))

/-- The rest of ACK_SN, and E1 without a NACK. -/
def ackByte (ackSn : Nat) : UInt8 := .ofNat ((ackSn <<< 2) &&& 0xfc)

/-- The rest of ACK_SN, E1 and the first bit of a NACK. -/
def ackNackByte (ackSn nack : Nat) : UInt8 :=
  .ofNat (((ackSn <<< 2) &&& 0xfc) ||| 0x02 ||| ((nack >>> 9) &&& 0x01))

/-- The bits 2 to 9 of a NACK. -/
def middleByte (oddNack : Nat) : UInt8 := .ofNat ((oddNack >>> 1) &&& 0xff)

/-- The last bit of a NACK, and another one after it. -/
def oddEvenByte (oddNack evenNack : Nat) : UInt8 :=
  .ofNat (((oddNack <<< 7) &&& 0x80) ||| 0x40 ||| ((evenNack >>> 5) &&& 0x1f))

/-- The last bit of the last NACK. -/
def oddByte (oddNack : Nat) : UInt8 := .ofNat ((oddNack <<< 7) &&& 0x80)

/-- The rest of a NACK, and the first bit of another one. -/
def evenOddByte (evenNack oddNack : Nat) : UInt8 :=
  .ofNat (((evenNack <<< 3) &&& 0xf8) ||| 0x04 ||| ((oddNack >>> 9) &&& 0x01))

/-- The rest of the last NACK. -/
def evenByte (evenNack : Nat) : UInt8 := .ofNat ((evenNack <<< 3) &&& 0xf8)

/-- The loop of `Serialize` over the NACKs; the first bit of the current one is written. -/
def serializeNacks (oddNack : Nat) : List Nat → Bytes
  | [] => [middleByte oddNack, oddByte oddNack]
  | [evenNack] => [middleByte oddNack, oddEvenByte oddNack evenNack, evenByte evenNack]
  | evenNack :: nextNack :: nacks =>
      middleByte oddNack :: oddEvenByte oddNack evenNack :: evenOddByte evenNack nextNack ::
        serializeNacks nextNack nacks

/-- A NACK whose first bit is the last one of a byte. -/
def getOddNack (byte nextByte finalByte : UInt8) : Nat :=
  ((byte.toNat &&& 0x01) <<< 9) ||| (nextByte.toNat <<< 1) ||| ((finalByte.toNat &&& 0x80) >>> 7)

/-- A NACK that two bytes share. -/
def getEvenNack (byte nextByte : UInt8) : Nat :=
  ((byte.toNat &&& 0x1f) <<< 5) ||| ((nextByte.toNat &&& 0xf8) >>> 3)

/-- The loop of `Deserialize` over the NACKs behind the first one, with the last byte that has been
read: the NACKs, `m_headerLength` and what follows. -/
def deserializeNacks (headerLength : Nat) (byte : UInt8) (rest : Bytes) :
    Option (List Nat × Nat × Bytes) :=
  if (byte.toNat &&& 0x40) >>> 6 = 1 then
    match rest with
    | [] => none
    | nextByte :: rest =>
        if (nextByte.toNat &&& 0x04) >>> 2 = 1 then
          match rest with
          | oddByte :: finalByte :: rest =>
              (deserializeNacks (wrap 16 (headerLength + 3)) finalByte rest).map
                fun (nacks, headerLength, data) =>
                  (getEvenNack byte nextByte :: getOddNack nextByte oddByte finalByte :: nacks,
                    headerLength, data)
          | _ => none
        else some ([getEvenNack byte nextByte], wrap 16 (headerLength + 1), rest)
  else some ([], headerLength, rest)

variable (header : LteRlcAmStatus)

/-- `GetSerializedSize`. -/
def getSerializedSize : Nat := headerLength 2 header.nackSnList.length

/-- `Serialize`. -/
def serialize : Bytes :=
  statusByte1 header.controlPduType header.ackSn ::
    match header.nackSnList with
    | [] => [ackByte header.ackSn]
    | nack :: nacks => ackNackByte header.ackSn nack :: serializeNacks nack nacks

/-- `Deserialize` of a control PDU: the header, `m_headerLength` and what follows. -/
def deserialize : Bytes → Option (LteRlcAmStatus × Nat × Bytes)
  | byte1 :: byte2 :: rest =>
      if (byte1.toNat &&& 0x80) >>> 7 = 0 then
        let controlPduType := (byte1.toNat &&& 0x70) >>> 4
        let ackSn := ((byte1.toNat &&& 0x0f) <<< 6) ||| ((byte2.toNat &&& 0xfc) >>> 2)
        if (byte2.toNat &&& 0x02) >>> 1 = 1 then
          match rest with
          | byte3 :: byte4 :: rest =>
              (deserializeNacks 4 byte4 rest).map fun (nacks, headerLength, data) =>
                (⟨controlPduType, ackSn, getOddNack byte2 byte3 byte4 :: nacks⟩, headerLength, data)
          | _ => none
        else some (⟨controlPduType, ackSn, []⟩, 2, rest)
      else none
  | _ => none

section Bytes

/-- Low bits, moved up and masked. -/
theorem shiftLeft_and_mask (n shift width : Nat) :
    (n <<< shift) &&& ((2 ^ width - 1) <<< shift) = (n % 2 ^ width) <<< shift := by
  rw [← Nat.shiftLeft_and_distrib, Nat.and_two_pow_sub_one_eq_mod]

/-- Higher bits, moved down and masked. -/
theorem shiftRight_and_mask (n shift width : Nat) :
    (n >>> shift) &&& (2 ^ width - 1) = n / 2 ^ shift % 2 ^ width := by
  rw [Nat.shiftRight_eq_div_pow, Nat.and_two_pow_sub_one_eq_mod]

theorem read_statusByte1 (controlPduType ackSn : Nat) :
    ((statusByte1 controlPduType ackSn).toNat &&& 0x80) >>> 7 = 0 ∧
      ((statusByte1 controlPduType ackSn).toNat &&& 0x70) >>> 4 = controlPduType % 8 ∧
      (statusByte1 controlPduType ackSn).toNat &&& 0x0f = ackSn / 64 % 16 := by
  have all : ∀ (type : Fin 8) (ack : Fin 16),
      ((UInt8.ofNat (((0 <<< 7) &&& 0x80) ||| (type.val <<< 4) ||| ack)).toNat &&& 0x80) >>> 7 = 0 ∧
        ((UInt8.ofNat (((0 <<< 7) &&& 0x80) ||| (type.val <<< 4) ||| ack)).toNat &&& 0x70) >>> 4 =
          type ∧
        (UInt8.ofNat (((0 <<< 7) &&& 0x80) ||| (type.val <<< 4) ||| ack)).toNat &&& 0x0f = ack := by
    decide
  have type : (controlPduType <<< 4) &&& 0x70 = (controlPduType % 8) <<< 4 :=
    shiftLeft_and_mask controlPduType 4 3
  have ack : (ackSn >>> 6) &&& 0x0f = ackSn / 64 % 16 := shiftRight_and_mask ackSn 6 4
  rw [statusByte1, type, ack]
  exact all ⟨controlPduType % 8, by omega⟩ ⟨ackSn / 64 % 16, by omega⟩

theorem read_ackByte (ackSn : Nat) :
    ((ackByte ackSn).toNat &&& 0xfc) >>> 2 = ackSn % 64 ∧
      ((ackByte ackSn).toNat &&& 0x02) >>> 1 = 0 := by
  have all : ∀ ack : Fin 64, ((UInt8.ofNat (ack.val <<< 2)).toNat &&& 0xfc) >>> 2 = ack ∧
      ((UInt8.ofNat (ack.val <<< 2)).toNat &&& 0x02) >>> 1 = 0 := by
    decide
  have ack : (ackSn <<< 2) &&& 0xfc = (ackSn % 64) <<< 2 := shiftLeft_and_mask ackSn 2 6
  rw [ackByte, ack]
  exact all ⟨ackSn % 64, by omega⟩

theorem read_ackNackByte (ackSn nack : Nat) :
    ((ackNackByte ackSn nack).toNat &&& 0xfc) >>> 2 = ackSn % 64 ∧
      ((ackNackByte ackSn nack).toNat &&& 0x02) >>> 1 = 1 ∧
      (ackNackByte ackSn nack).toNat &&& 0x01 = nack / 512 % 2 := by
  have all : ∀ (ack : Fin 64) (bit : Fin 2),
      ((UInt8.ofNat ((ack.val <<< 2) ||| 0x02 ||| bit)).toNat &&& 0xfc) >>> 2 = ack ∧
        ((UInt8.ofNat ((ack.val <<< 2) ||| 0x02 ||| bit)).toNat &&& 0x02) >>> 1 = 1 ∧
        (UInt8.ofNat ((ack.val <<< 2) ||| 0x02 ||| bit)).toNat &&& 0x01 = bit := by
    decide
  have ack : (ackSn <<< 2) &&& 0xfc = (ackSn % 64) <<< 2 := shiftLeft_and_mask ackSn 2 6
  have bit : (nack >>> 9) &&& 0x01 = nack / 512 % 2 := shiftRight_and_mask nack 9 1
  rw [ackNackByte, ack, bit]
  exact all ⟨ackSn % 64, by omega⟩ ⟨nack / 512 % 2, by omega⟩

theorem toNat_middleByte (nack : Nat) : (middleByte nack).toNat = nack / 2 % 256 := by
  have bits : (nack >>> 1) &&& 0xff = nack / 2 % 256 := shiftRight_and_mask nack 1 8
  rw [middleByte, bits, UInt8.toNat_ofNat']
  exact Nat.mod_mod _ _

theorem read_oddEvenByte (oddNack evenNack : Nat) :
    ((oddEvenByte oddNack evenNack).toNat &&& 0x80) >>> 7 = oddNack % 2 ∧
      ((oddEvenByte oddNack evenNack).toNat &&& 0x40) >>> 6 = 1 ∧
      (oddEvenByte oddNack evenNack).toNat &&& 0x1f = evenNack / 32 % 32 := by
  have all : ∀ (bit : Fin 2) (high : Fin 32),
      ((UInt8.ofNat ((bit.val <<< 7) ||| 0x40 ||| high)).toNat &&& 0x80) >>> 7 = bit ∧
        ((UInt8.ofNat ((bit.val <<< 7) ||| 0x40 ||| high)).toNat &&& 0x40) >>> 6 = 1 ∧
        (UInt8.ofNat ((bit.val <<< 7) ||| 0x40 ||| high)).toNat &&& 0x1f = high := by
    decide
  have bit : (oddNack <<< 7) &&& 0x80 = (oddNack % 2) <<< 7 := shiftLeft_and_mask oddNack 7 1
  have high : (evenNack >>> 5) &&& 0x1f = evenNack / 32 % 32 := shiftRight_and_mask evenNack 5 5
  rw [oddEvenByte, bit, high]
  exact all ⟨oddNack % 2, by omega⟩ ⟨evenNack / 32 % 32, by omega⟩

theorem read_oddByte (oddNack : Nat) :
    ((oddByte oddNack).toNat &&& 0x80) >>> 7 = oddNack % 2 ∧
      ((oddByte oddNack).toNat &&& 0x40) >>> 6 = 0 := by
  have all : ∀ bit : Fin 2, ((UInt8.ofNat (bit.val <<< 7)).toNat &&& 0x80) >>> 7 = bit ∧
      ((UInt8.ofNat (bit.val <<< 7)).toNat &&& 0x40) >>> 6 = 0 := by
    decide
  have bit : (oddNack <<< 7) &&& 0x80 = (oddNack % 2) <<< 7 := shiftLeft_and_mask oddNack 7 1
  rw [oddByte, bit]
  exact all ⟨oddNack % 2, by omega⟩

theorem read_evenOddByte (evenNack oddNack : Nat) :
    ((evenOddByte evenNack oddNack).toNat &&& 0xf8) >>> 3 = evenNack % 32 ∧
      ((evenOddByte evenNack oddNack).toNat &&& 0x04) >>> 2 = 1 ∧
      (evenOddByte evenNack oddNack).toNat &&& 0x01 = oddNack / 512 % 2 := by
  have all : ∀ (low : Fin 32) (bit : Fin 2),
      ((UInt8.ofNat ((low.val <<< 3) ||| 0x04 ||| bit)).toNat &&& 0xf8) >>> 3 = low ∧
        ((UInt8.ofNat ((low.val <<< 3) ||| 0x04 ||| bit)).toNat &&& 0x04) >>> 2 = 1 ∧
        (UInt8.ofNat ((low.val <<< 3) ||| 0x04 ||| bit)).toNat &&& 0x01 = bit := by
    decide
  have low : (evenNack <<< 3) &&& 0xf8 = (evenNack % 32) <<< 3 := shiftLeft_and_mask evenNack 3 5
  have bit : (oddNack >>> 9) &&& 0x01 = oddNack / 512 % 2 := shiftRight_and_mask oddNack 9 1
  rw [evenOddByte, low, bit]
  exact all ⟨evenNack % 32, by omega⟩ ⟨oddNack / 512 % 2, by omega⟩

theorem read_evenByte (evenNack : Nat) :
    ((evenByte evenNack).toNat &&& 0xf8) >>> 3 = evenNack % 32 ∧
      ((evenByte evenNack).toNat &&& 0x04) >>> 2 = 0 := by
  have all : ∀ low : Fin 32, ((UInt8.ofNat (low.val <<< 3)).toNat &&& 0xf8) >>> 3 = low ∧
      ((UInt8.ofNat (low.val <<< 3)).toNat &&& 0x04) >>> 2 = 0 := by
    decide
  have low : (evenNack <<< 3) &&& 0xf8 = (evenNack % 32) <<< 3 := shiftLeft_and_mask evenNack 3 5
  rw [evenByte, low]
  exact all ⟨evenNack % 32, by omega⟩

/-- The three parts of a NACK that starts with the last bit of a byte. -/
theorem getOddNack_eq {byte finalByte : UInt8} {nack : Nat} (fits : nack < 1024)
    (first : byte.toNat &&& 0x01 = nack / 512 % 2)
    (last : (finalByte.toNat &&& 0x80) >>> 7 = nack % 2) :
    getOddNack byte (middleByte nack) finalByte = nack := by
  rw [getOddNack, first, last, toNat_middleByte, Nat.or_assoc,
    ← Nat.shiftLeft_add_eq_or_of_lt (show nack % 2 < 2 ^ 1 by omega),
    ← Nat.shiftLeft_add_eq_or_of_lt (by rw [Nat.shiftLeft_eq]; omega),
    Nat.shiftLeft_eq, Nat.shiftLeft_eq]
  omega

theorem getEvenNack_eq {byte nextByte : UInt8} {nack : Nat} (fits : nack < 1024)
    (high : byte.toNat &&& 0x1f = nack / 32 % 32)
    (low : (nextByte.toNat &&& 0xf8) >>> 3 = nack % 32) : getEvenNack byte nextByte = nack := by
  rw [getEvenNack, high, low, ← Nat.shiftLeft_add_eq_or_of_lt (show nack % 32 < 2 ^ 5 by omega),
    Nat.shiftLeft_eq]
  omega

end Bytes

/-- An even number of NACKs more. -/
theorem headerLength_add_two {count : Nat} (odd : count % 2 = 1) :
    headerLength 2 (count + 2) = wrap 16 (headerLength 2 count + 3) := by
  rw [headerLength, headerLength, if_neg (by omega), if_pos (by omega), wrap, wrap, Nat.mod_add_mod]
  rfl

theorem headerLength_add_one {count : Nat} (odd : count % 2 = 1) :
    headerLength 2 (count + 1) = wrap 16 (headerLength 2 count + 1) := by
  rw [headerLength, if_neg (by omega)]

/-- The first NACK of the list is read behind a byte that ends with its first bit, and the others
behind that one. -/
theorem exists_read {oddNack : Nat} {nacks : List Nat} (fits : oddNack < 1024)
    (fit : ∀ nack ∈ nacks, nack < 1024) {count : Nat} (odd : count % 2 = 1) {byte : UInt8}
    (first : byte.toNat &&& 0x01 = oddNack / 512 % 2) (data : Bytes) :
    ∃ byte3 byte4 rest, serializeNacks oddNack nacks ++ data = byte3 :: byte4 :: rest ∧
      getOddNack byte byte3 byte4 = oddNack ∧
      deserializeNacks (headerLength 2 count) byte4 rest =
        some (nacks, headerLength 2 (count + nacks.length), data) := by
  induction oddNack, nacks using serializeNacks.induct generalizing count byte with
  | case1 oddNack =>
      obtain ⟨last, done⟩ := read_oddByte oddNack
      refine ⟨middleByte oddNack, oddByte oddNack, data, rfl, getOddNack_eq fits first last, ?_⟩
      unfold deserializeNacks
      rw [done]
      rfl
  | case2 oddNack evenNack =>
      obtain ⟨last, more, high⟩ := read_oddEvenByte oddNack evenNack
      obtain ⟨low, done⟩ := read_evenByte evenNack
      have small := fit evenNack List.mem_cons_self
      refine ⟨middleByte oddNack, oddEvenByte oddNack evenNack, evenByte evenNack :: data, rfl,
        getOddNack_eq fits first last, ?_⟩
      unfold deserializeNacks
      dsimp only
      rw [more, if_pos rfl, done, if_neg (by decide), getEvenNack_eq small high low]
      exact congrArg (fun length => some ([evenNack], length, data)) (headerLength_add_one odd).symm
  | case3 oddNack evenNack nextNack nacks inductionHypothesis =>
      obtain ⟨last, more, high⟩ := read_oddEvenByte oddNack evenNack
      obtain ⟨low, another, nextFirst⟩ := read_evenOddByte evenNack nextNack
      have small := fit evenNack List.mem_cons_self
      have nextSmall := fit nextNack (List.mem_cons_of_mem _ List.mem_cons_self)
      have later := fun nack member =>
        fit nack (List.mem_cons_of_mem _ (List.mem_cons_of_mem _ member))
      obtain ⟨byte3, byte4, rest, bytes, isNext, others⟩ := inductionHypothesis nextSmall later
        (show (count + 2) % 2 = 1 by omega) nextFirst
      refine ⟨middleByte oddNack, oddEvenByte oddNack evenNack,
        evenOddByte evenNack nextNack :: byte3 :: byte4 :: rest, ?_, getOddNack_eq fits first last, ?_⟩
      · rw [serializeNacks, List.cons_append, List.cons_append, List.cons_append, bytes]
      · rw [deserializeNacks, more, if_pos rfl]
        dsimp only
        rw [another, if_pos rfl, ← headerLength_add_two odd, others, isNext,
          getEvenNack_eq small high low]
        dsimp only [Option.map_some, List.length_cons]
        rw [show count + 2 + nacks.length = count + (nacks.length + 1 + 1) by omega]

variable {header : LteRlcAmStatus}

/-- A header whose fields fit is read back, and its length is counted in the same way. -/
theorem deserialize_serialize (typed : header.controlPduType < 8) (numbered : header.ackSn < 1024)
    (fit : ∀ nack ∈ header.nackSnList, nack < 1024) (data : Bytes) :
    deserialize (header.serialize ++ data) = some (header, header.getSerializedSize, data) := by
  obtain ⟨controlPduType, ackSn, nackSnList⟩ := header
  obtain ⟨control, type, ackHigh⟩ := read_statusByte1 controlPduType ackSn
  dsimp only at typed numbered fit
  have isType : controlPduType % 8 = controlPduType := Nat.mod_eq_of_lt typed
  have isAck : (ackSn / 64 % 16) <<< 6 ||| ackSn % 64 = ackSn := by
    rw [← Nat.shiftLeft_add_eq_or_of_lt (show ackSn % 64 < 2 ^ 6 by omega), Nat.shiftLeft_eq]
    omega
  cases nackSnList with
  | nil =>
      obtain ⟨ackLow, none⟩ := read_ackByte ackSn
      simp only [serialize, List.cons_append, List.nil_append, deserialize, control, type, ackHigh,
        ackLow, none, isType, isAck, if_true]
      rfl
  | cons nack nacks =>
      obtain ⟨ackLow, some, first⟩ := read_ackNackByte ackSn nack
      obtain ⟨byte3, byte4, rest, bytes, isFirst, others⟩ := exists_read
        (fit nack List.mem_cons_self) (fun other member => fit other (List.mem_cons_of_mem _ member))
        (show 1 % 2 = 1 from rfl) first data
      have four : headerLength 2 1 = 4 := by decide
      simp only [serialize, List.cons_append, deserialize, control, type, ackHigh, ackLow, some,
        isType, isAck, if_true]
      rw [bytes]
      dsimp only
      rw [← four, others, isFirst, Nat.add_comm 1]
      rfl

theorem length_serializeNacks (oddNack : Nat) (nacks : List Nat) :
    (serializeNacks oddNack nacks).length = (3 * (nacks.length + 1) + 1) / 2 := by
  induction oddNack, nacks using serializeNacks.induct with
  | case1 => simp [serializeNacks]
  | case2 => simp [serializeNacks]
  | case3 oddNack evenNack nextNack nacks inductionHypothesis =>
      rw [serializeNacks, List.length_cons, List.length_cons, List.length_cons, inductionHypothesis,
        List.length_cons, List.length_cons]
      omega

theorem length_serialize (header : LteRlcAmStatus) :
    header.serialize.length = 2 + (3 * header.nackSnList.length + 1) / 2 := by
  rw [serialize]
  cases header.nackSnList with
  | nil => rfl
  | cons nack nacks =>
      rw [List.length_cons, List.length_cons, length_serializeNacks, List.length_cons]
      omega

end LteRlcAmStatus

end Ns3.Lte
