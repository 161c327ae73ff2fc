import Ns3.Lte.RlcUm.Kernel

/-!
The bytes of `ns3::LteRlcHeader`, and of `ns3::LteRlcAmHeader` for a data PDU.

Behind the fixed part there is an E field and an LI field of 11 bits for every segment but the
last one; two pairs of them take three bytes. A header whose indicators fit is read back.
-/

namespace Ns3.Lte

open Library

/-- `m_headerLength` once extension bits have been pushed behind the one of the fixed part. -/
def headerLength (fixed : Nat) : Nat → Nat
  | 0 => fixed
  | fields + 1 => wrap 16 (headerLength fixed fields + if fields % 2 = 0 then 2 else 1)

theorem headerLength_eq {fixed fields : Nat} (fits : fixed + (3 * fields + 1) / 2 < 2 ^ 16) :
    headerLength fixed fields = fixed + (3 * fields + 1) / 2 := by
  induction fields with
  | zero => rfl
  | succ fields inductionHypothesis =>
      have grown : headerLength fixed fields + (if fields % 2 = 0 then 2 else 1) =
          fixed + (3 * (fields + 1) + 1) / 2 := by
        rw [inductionHypothesis (by omega)]
        split <;> omega
      rw [headerLength, grown, wrap_of_lt fits]

/-- An extension bit for every segment, which is set for all but the last one, and an indicator
for each of these. -/
inductive Marked : List Bool → List Nat → Prop
  | last : Marked [false] []
  | more {extensionBits lengthIndicators} (lengthIndicator : Nat) :
      Marked extensionBits lengthIndicators →
      Marked (true :: extensionBits) (lengthIndicator :: lengthIndicators)

theorem Marked.length {extensionBits : List Bool} {lengthIndicators : List Nat}
    (marked : Marked extensionBits lengthIndicators) :
    extensionBits.length = lengthIndicators.length + 1 := by
  induction marked with
  | last => rfl
  | more _ _ inductionHypothesis => rw [List.length_cons, List.length_cons, inductionHypothesis]

/-- The first byte of an E and an LI field, or of two of each. -/
def byte1 (oddE : Bool) (oddLi : Nat) : UInt8 :=
  .ofNat (((oddE.toNat <<< 7) &&& 0x80) ||| ((oddLi >>> 4) &&& 0x7f))

/-- The byte that two LI fields share. -/
def byte2 (oddLi : Nat) (evenE : Bool) (evenLi : Nat) : UInt8 :=
  .ofNat (((oddLi <<< 4) &&& 0xf0) ||| ((evenE.toNat <<< 3) &&& 0x08) ||| ((evenLi >>> 8) &&& 0x07))

def byte3 (evenLi : Nat) : UInt8 := .ofNat (evenLi &&& 0xff)

/-- The second byte of a last LI field. Padding is implicit. -/
def lastByte2 (oddLi : Nat) : UInt8 := .ofNat ((oddLi <<< 4) &&& 0xf0)

/-- The E and LI fields. -/
def serializeFields : List Bool → List Nat → Bytes
  | oddE :: evenE :: extensionBits, oddLi :: evenLi :: lengthIndicators =>
      byte1 oddE oddLi :: byte2 oddLi evenE evenLi :: byte3 evenLi ::
        serializeFields extensionBits lengthIndicators
  | oddE :: _, oddLi :: _ => [byte1 oddE oddLi, lastByte2 oddLi]
  | _, _ => []

def getOddE (byte1 : UInt8) : Bool := (byte1.toNat &&& 0x80) >>> 7 = 1

def getOddLi (byte1 byte2 : UInt8) : Nat :=
  ((byte1.toNat &&& 0x7f) <<< 4) ||| ((byte2.toNat &&& 0xf0) >>> 4)

def getEvenE (byte2 : UInt8) : Bool := (byte2.toNat &&& 0x08) >>> 3 = 1

def getEvenLi (byte2 byte3 : UInt8) : Nat :=
  ((byte2.toNat &&& 0x07) <<< 8) ||| (byte3.toNat &&& 0xff)

/-- The E and LI fields that are read, and what follows them. -/
def deserializeFields : Bytes → Option (List Bool × List Nat × Bytes)
  | byte1 :: byte2 :: byte3 :: rest =>
      if getOddE byte1 then
        if getEvenE byte2 then
          (deserializeFields rest).map fun (extensionBits, lengthIndicators, data) =>
            (true :: true :: extensionBits,
              getOddLi byte1 byte2 :: getEvenLi byte2 byte3 :: lengthIndicators, data)
        else some ([true, false], [getOddLi byte1 byte2, getEvenLi byte2 byte3], rest)
      else some ([false], [getOddLi byte1 byte2], byte3 :: rest)
  | [byte1, byte2] => if getOddE byte1 then none else some ([false], [getOddLi byte1 byte2], [])
  | _ => none

section Equations

variable (oddE evenE : Bool) (oddLi evenLi : Nat) (extensionBits : List Bool)
  (lengthIndicators : List Nat) (byte1 byte2 byte3 : UInt8) (rest : Bytes)

theorem serializeFields_two :
    serializeFields (oddE :: evenE :: extensionBits) (oddLi :: evenLi :: lengthIndicators) =
      Lte.byte1 oddE oddLi :: Lte.byte2 oddLi evenE evenLi :: Lte.byte3 evenLi ::
        serializeFields extensionBits lengthIndicators := rfl

theorem serializeFields_nil : serializeFields [] [] = [] := rfl

theorem serializeFields_one :
    serializeFields [oddE] [oddLi] = [Lte.byte1 oddE oddLi, lastByte2 oddLi] := rfl

theorem deserializeFields_three :
    deserializeFields (byte1 :: byte2 :: byte3 :: rest) =
      if getOddE byte1 then
        if getEvenE byte2 then
          (deserializeFields rest).map fun (extensionBits, lengthIndicators, data) =>
            (true :: true :: extensionBits,
              getOddLi byte1 byte2 :: getEvenLi byte2 byte3 :: lengthIndicators, data)
        else some ([true, false], [getOddLi byte1 byte2, getEvenLi byte2 byte3], rest)
      else some ([false], [getOddLi byte1 byte2], byte3 :: rest) := rfl

theorem deserializeFields_two :
    deserializeFields [byte1, byte2] =
      if getOddE byte1 then none else some ([false], [getOddLi byte1 byte2], []) := rfl

end Equations

section Bytes

variable {oddE evenE : Bool} {oddLi evenLi : Nat}

/-- The seven high bits of an indicator are in the first byte. -/
theorem read_byte1 (oddE : Bool) (oddLi : Nat) :
    getOddE (byte1 oddE oddLi) = oddE ∧
      (byte1 oddE oddLi).toNat &&& 0x7f = oddLi / 16 % 128 := by
  have all : ∀ (e : Bool) (high : Fin 128),
      getOddE (.ofNat (((e.toNat <<< 7) &&& 0x80) ||| high)) = e ∧
        (UInt8.ofNat (((e.toNat <<< 7) &&& 0x80) ||| high)).toNat &&& 0x7f = high := by
    decide
  have high : (oddLi >>> 4) &&& 0x7f = oddLi / 16 % 128 := by
    rw [Nat.shiftRight_eq_div_pow]
    exact Nat.and_two_pow_sub_one_eq_mod _ 7
  have read := all oddE ⟨oddLi / 16 % 128, by omega⟩
  rw [byte1, high]
  exact read

/-- The four low bits of the first indicator and the three high ones of the second are in the
second byte. -/
theorem read_byte2 (oddLi : Nat) (evenE : Bool) (evenLi : Nat) :
    ((byte2 oddLi evenE evenLi).toNat &&& 0xf0) >>> 4 = oddLi % 16 ∧
      getEvenE (byte2 oddLi evenE evenLi) = evenE ∧
      (byte2 oddLi evenE evenLi).toNat &&& 0x07 = evenLi / 256 % 8 := by
  have all : ∀ (low : Fin 16) (e : Bool) (high : Fin 8),
      ((UInt8.ofNat ((low.val <<< 4) ||| ((e.toNat <<< 3) &&& 0x08) ||| high)).toNat &&& 0xf0) >>> 4 =
          low ∧
        getEvenE (.ofNat ((low.val <<< 4) ||| ((e.toNat <<< 3) &&& 0x08) ||| high)) = e ∧
        (UInt8.ofNat ((low.val <<< 4) ||| ((e.toNat <<< 3) &&& 0x08) ||| high)).toNat &&& 0x07 =
          high := by
    decide +kernel
  have low : (oddLi <<< 4) &&& 0xf0 = (oddLi % 16) <<< 4 := by
    rw [← Nat.and_two_pow_sub_one_eq_mod oddLi 4, Nat.shiftLeft_and_distrib]
    rfl
  have high : (evenLi >>> 8) &&& 0x07 = evenLi / 256 % 8 := by
    rw [Nat.shiftRight_eq_div_pow]
    exact Nat.and_two_pow_sub_one_eq_mod _ 3
  have read := all ⟨oddLi % 16, by omega⟩ evenE ⟨evenLi / 256 % 8, by omega⟩
  rw [byte2, low, high]
  exact read

theorem lastByte2_eq (oddLi : Nat) : lastByte2 oddLi = byte2 oddLi false 0 := by
  simp [lastByte2, byte2]

/-- An indicator of 11 bits is read back. -/
theorem getOddLi_eq (fits : oddLi < 2048) :
    getOddLi (byte1 oddE oddLi) (byte2 oddLi evenE evenLi) = oddLi := by
  rw [getOddLi, (read_byte1 oddE oddLi).2, (read_byte2 oddLi evenE evenLi).1,
    ← Nat.shiftLeft_add_eq_or_of_lt (Nat.mod_lt oddLi (by decide)), Nat.shiftLeft_eq]
  omega

theorem getEvenLi_eq (fits : evenLi < 2048) :
    getEvenLi (byte2 oddLi evenE evenLi) (byte3 evenLi) = evenLi := by
  have low : (byte3 evenLi).toNat &&& 0xff = evenLi % 2 ^ 8 := by
    have masked : evenLi &&& 0xff = evenLi % 2 ^ 8 := Nat.and_two_pow_sub_one_eq_mod evenLi 8
    rw [byte3, masked, UInt8.toNat_ofNat', Nat.mod_mod]
    exact (Nat.and_two_pow_sub_one_eq_mod _ 8).trans (Nat.mod_mod _ _)
  rw [getEvenLi, (read_byte2 oddLi evenE evenLi).2.2, low,
    ← Nat.shiftLeft_add_eq_or_of_lt (Nat.mod_lt evenLi (by decide)), Nat.shiftLeft_eq]
  omega

end Bytes

/-- The fields are read back. -/
def ReadBack (extensionBits : List Bool) (lengthIndicators : List Nat) : Prop :=
  (∀ lengthIndicator ∈ lengthIndicators, lengthIndicator < 2048) → ∀ data,
    deserializeFields (serializeFields extensionBits lengthIndicators ++ data) =
      some (extensionBits, lengthIndicators, data)

theorem readBack_one (lengthIndicator : Nat) : ReadBack [false] [lengthIndicator] := by
  intro fits data
  have small := fits lengthIndicator List.mem_cons_self
  have last := (read_byte1 false lengthIndicator).1
  cases data <;>
    simp [serializeFields_one, deserializeFields_two, deserializeFields_three, last, lastByte2_eq,
      getOddLi_eq small]

theorem readBack_two (oddLi evenLi : Nat) : ReadBack [true, false] [oddLi, evenLi] := by
  intro fits data
  have oddSmall := fits oddLi (by simp)
  have evenSmall := fits evenLi (by simp)
  simp [serializeFields_two, serializeFields_nil, deserializeFields_three, (read_byte1 true oddLi).1,
    (read_byte2 oddLi false evenLi).2.1, getOddLi_eq oddSmall, getEvenLi_eq evenSmall]

theorem ReadBack.more {extensionBits : List Bool} {lengthIndicators : List Nat}
    (readBack : ReadBack extensionBits lengthIndicators) (oddLi evenLi : Nat) :
    ReadBack (true :: true :: extensionBits) (oddLi :: evenLi :: lengthIndicators) := by
  intro fits data
  have oddSmall := fits oddLi (by simp)
  have evenSmall := fits evenLi (by simp)
  have rest := readBack (fun li member => fits li (by simp [member])) data
  simp [serializeFields_two, deserializeFields_three, (read_byte1 true oddLi).1,
    (read_byte2 oddLi true evenLi).2.1, getOddLi_eq oddSmall, getEvenLi_eq evenSmall, rest]

/-- Two fields are read at a time, so that the induction carries the fields behind one indicator
and behind two. -/
theorem Marked.readBack {extensionBits : List Bool} {lengthIndicators : List Nat}
    (marked : Marked extensionBits lengthIndicators) :
    (∀ oddLi, ReadBack extensionBits (oddLi :: lengthIndicators)) ∧
      ∀ oddLi evenLi, ReadBack (true :: extensionBits) (oddLi :: evenLi :: lengthIndicators) := by
  induction marked with
  | last => exact ⟨readBack_one, readBack_two⟩
  | more lengthIndicator _ inductionHypothesis =>
      constructor
      · intro oddLi
        exact inductionHypothesis.2 oddLi lengthIndicator
      · intro oddLi evenLi
        exact (inductionHypothesis.1 lengthIndicator).more oddLi evenLi

/-- The fields take three bytes for two indicators. -/
theorem Marked.length_serializeFields {extensionBits : List Bool} {lengthIndicators : List Nat}
    (marked : Marked extensionBits lengthIndicators) :
    (∀ oddLi, (serializeFields extensionBits (oddLi :: lengthIndicators)).length =
      (3 * (lengthIndicators.length + 1) + 1) / 2) ∧
    ∀ oddLi evenLi,
      (serializeFields (true :: extensionBits) (oddLi :: evenLi :: lengthIndicators)).length =
        (3 * (lengthIndicators.length + 2) + 1) / 2 := by
  induction marked with
  | last => simp [serializeFields_one, serializeFields_two, serializeFields_nil]
  | @more extensionBits lengthIndicators lengthIndicator _ inductionHypothesis =>
      constructor
      · intro oddLi
        exact inductionHypothesis.2 oddLi lengthIndicator
      · intro oddLi evenLi
        have rest := inductionHypothesis.1 lengthIndicator
        rw [serializeFields_two, List.length_cons, List.length_cons, List.length_cons, rest,
          List.length_cons]
        omega

/-- The E and LI fields behind the fixed part, whose last field is the first extension bit. -/
def deserializeExtension (extensionBit : Bool) (rest : Bytes) :
    Option (List Bool × List Nat × Bytes) :=
  if extensionBit then
    (deserializeFields rest).map fun (extensionBits, lengthIndicators, data) =>
      (true :: extensionBits, lengthIndicators, data)
  else some ([false], [], rest)

section Marked

variable {extensionBits : List Bool} {lengthIndicators : List Nat}
  (marked : Marked extensionBits lengthIndicators)
include marked

theorem Marked.deserializeExtension
    (fit : ∀ lengthIndicator ∈ lengthIndicators, lengthIndicator < 2048) (data : Bytes) :
    deserializeExtension (extensionBits.headD false)
      (serializeFields extensionBits.tail lengthIndicators ++ data) =
        some (extensionBits, lengthIndicators, data) := by
  cases marked with
  | last => rfl
  | more lengthIndicator rest =>
      simp [Lte.deserializeExtension, rest.readBack.1 lengthIndicator fit data]

theorem Marked.length_fields :
    (serializeFields extensionBits.tail lengthIndicators).length =
      (3 * lengthIndicators.length + 1) / 2 := by
  cases marked with
  | last => rfl
  | more lengthIndicator rest => exact rest.length_serializeFields.1 lengthIndicator

end Marked

/-- The two bits, as the flags are set together. -/
def FramingInfo.value (framingInfo : FramingInfo) : Nat :=
  (if framingInfo.noFirstByte then 0x02 else 0x00) |||
    if framingInfo.noLastByte then 0x01 else 0x00

/-- The last fields of the first byte: FI, the first E field and two bits of SN. -/
def fixedByte1 (flags : Nat) (framingInfo : FramingInfo) (extensionBit : Bool)
    (sequenceNumber : Nat) : UInt8 :=
  .ofNat (flags ||| ((framingInfo.value <<< 3) &&& 0x18) |||
    ((extensionBit.toNat <<< 2) &&& 0x04) ||| ((sequenceNumber >>> 8) &&& 0x0003))

def fixedByte2 (sequenceNumber : Nat) : UInt8 := .ofNat (sequenceNumber &&& 0x00ff)

def getFramingInfo (byte1 : UInt8) : FramingInfo where
  noFirstByte := ((byte1.toNat &&& 0x18) >>> 3) &&& 0x02 ≠ 0
  noLastByte := ((byte1.toNat &&& 0x18) >>> 3) &&& 0x01 ≠ 0

def getExtensionBit (byte1 : UInt8) : Bool := (byte1.toNat &&& 0x04) >>> 2 = 1

def getSequenceNumber (byte1 byte2 : UInt8) : Nat :=
  ((byte1.toNat &&& 0x03) <<< 8) ||| byte2.toNat

/-- What the first byte has, whatever the three flags in front are. -/
theorem read_fixedByte1 (flags : Fin 8) (framingInfo : FramingInfo) (extensionBit : Bool)
    (sequenceNumber : Nat) :
    getFramingInfo (fixedByte1 (flags.val <<< 5) framingInfo extensionBit sequenceNumber) =
        framingInfo ∧
      getExtensionBit (fixedByte1 (flags.val <<< 5) framingInfo extensionBit sequenceNumber) =
        extensionBit ∧
      (fixedByte1 (flags.val <<< 5) framingInfo extensionBit sequenceNumber).toNat &&& 0x03 =
        sequenceNumber / 256 % 4 ∧
      (fixedByte1 (flags.val <<< 5) framingInfo extensionBit sequenceNumber).toNat >>> 5 =
        flags := by
  have all : ∀ (flags : Fin 8) (first last e : Bool) (high : Fin 4),
      getFramingInfo (fixedByte1 (flags.val <<< 5) ⟨first, last⟩ e (high.val <<< 8)) =
          ⟨first, last⟩ ∧
        getExtensionBit (fixedByte1 (flags.val <<< 5) ⟨first, last⟩ e (high.val <<< 8)) = e ∧
        (fixedByte1 (flags.val <<< 5) ⟨first, last⟩ e (high.val <<< 8)).toNat &&& 0x03 = high ∧
        (fixedByte1 (flags.val <<< 5) ⟨first, last⟩ e (high.val <<< 8)).toNat >>> 5 = flags := by
    decide
  have high : fixedByte1 (flags.val <<< 5) framingInfo extensionBit sequenceNumber =
      fixedByte1 (flags.val <<< 5) framingInfo extensionBit
        ((sequenceNumber / 256 % 4) <<< 8) := by
    have masked (n : Nat) : (n >>> 8) &&& 0x0003 = n / 256 % 4 := by
      rw [Nat.shiftRight_eq_div_pow]
      exact Nat.and_two_pow_sub_one_eq_mod _ 2
    have same : (sequenceNumber / 256 % 4) <<< 8 / 256 % 4 = sequenceNumber / 256 % 4 := by
      rw [Nat.shiftLeft_eq]
      omega
    rw [fixedByte1, fixedByte1, masked, masked, same]
  rw [high]
  exact all flags _ _ extensionBit ⟨sequenceNumber / 256 % 4, by omega⟩

theorem getSequenceNumber_eq (flags : Fin 8) (framingInfo : FramingInfo) (extensionBit : Bool)
    {sequenceNumber : Nat} (fits : sequenceNumber < 1024) :
    getSequenceNumber (fixedByte1 (flags.val <<< 5) framingInfo extensionBit sequenceNumber)
      (fixedByte2 sequenceNumber) = sequenceNumber := by
  have low : (fixedByte2 sequenceNumber).toNat = sequenceNumber % 2 ^ 8 := by
    have masked : sequenceNumber &&& 0x00ff = sequenceNumber % 2 ^ 8 :=
      Nat.and_two_pow_sub_one_eq_mod sequenceNumber 8
    rw [fixedByte2, masked, UInt8.toNat_ofNat', Nat.mod_mod]
  rw [getSequenceNumber, (read_fixedByte1 flags framingInfo extensionBit sequenceNumber).2.2.1, low,
    ← Nat.shiftLeft_add_eq_or_of_lt (Nat.mod_lt sequenceNumber (by decide)), Nat.shiftLeft_eq]
  omega

namespace LteRlcHeader

variable (header : LteRlcHeader)

/-- `GetSerializedSize`. -/
def getSerializedSize : Nat :=
  match header.extensionBits with
  | [] => 0
  | _ :: extensionBits => headerLength 2 extensionBits.length

/-- `Serialize`. -/
def serialize : Bytes :=
  fixedByte1 0 header.framingInfo (header.extensionBits.headD false) header.sequenceNumber ::
    fixedByte2 header.sequenceNumber ::
    serializeFields header.extensionBits.tail header.lengthIndicators

/-- `Deserialize`, with what follows the header. -/
def deserialize : Bytes → Option (LteRlcHeader × Bytes)
  | byte1 :: byte2 :: rest =>
      (deserializeExtension (getExtensionBit byte1) rest).map
        fun (extensionBits, lengthIndicators, data) =>
          ({ framingInfo := getFramingInfo byte1
             sequenceNumber := getSequenceNumber byte1 byte2
             extensionBits, lengthIndicators }, data)
  | _ => none

variable {header}

/-- A header whose indicators have 11 bits is read back. -/
theorem deserialize_serialize (marked : Marked header.extensionBits header.lengthIndicators)
    (numbered : header.sequenceNumber < 1024)
    (fit : ∀ lengthIndicator ∈ header.lengthIndicators, lengthIndicator < 2048) (data : Bytes) :
    deserialize (header.serialize ++ data) = some (header, data) := by
  have fixed := read_fixedByte1 0 header.framingInfo (header.extensionBits.headD false)
    header.sequenceNumber
  have number := getSequenceNumber_eq 0 header.framingInfo (header.extensionBits.headD false)
    numbered
  simp only [serialize, List.cons_append, deserialize]
  rw [show (0 : Nat) = (0 : Fin 8).val <<< 5 from rfl, fixed.1, fixed.2.1, number,
    marked.deserializeExtension fit data]
  rfl

theorem length_serialize (marked : Marked header.extensionBits header.lengthIndicators) :
    header.serialize.length = 2 + (3 * header.lengthIndicators.length + 1) / 2 := by
  rw [serialize, List.length_cons, List.length_cons, marked.length_fields]
  omega

/-- The length that has been counted is the one of the bytes, unless it overflows. -/
theorem getSerializedSize_eq (marked : Marked header.extensionBits header.lengthIndicators)
    (fits : 2 + (3 * header.lengthIndicators.length + 1) / 2 < 2 ^ 16) :
    header.getSerializedSize = header.serialize.length := by
  have length := marked.length
  rw [length_serialize marked, getSerializedSize]
  cases bits : header.extensionBits with
  | nil => simp [bits] at length
  | cons first rest =>
      have same : rest.length = header.lengthIndicators.length := by
        rw [bits, List.length_cons] at length
        omega
      dsimp only
      rw [same, headerLength_eq fits]

end LteRlcHeader

/-- `ns3::LteRlcAmHeader` of a data PDU. -/
structure LteRlcAmHeader extends LteRlcHeader where
  resegmentationFlag : Bool
  pollingBit : Bool
  lastSegmentFlag : Bool
  segmentOffset : Nat
  deriving DecidableEq, Repr

namespace LteRlcAmHeader

variable (header : LteRlcAmHeader)

/-- `GetSerializedSize`. -/
def getSerializedSize : Nat := headerLength 4 (header.extensionBits.length - 1)

/-- D/C, which is set, RF and P. -/
def flags : Nat :=
  ((1 <<< 7) &&& 0x80) ||| ((header.resegmentationFlag.toNat <<< 6) &&& 0x40) |||
    ((header.pollingBit.toNat <<< 5) &&& 0x20)

/-- `Serialize`. -/
def serialize : Bytes :=
  fixedByte1 header.flags header.framingInfo (header.extensionBits.headD false)
      header.sequenceNumber ::
    fixedByte2 header.sequenceNumber ::
    .ofNat (((header.lastSegmentFlag.toNat <<< 7) &&& 0x80) |||
      ((header.segmentOffset >>> 8) &&& 0x7f)) ::
    .ofNat (header.segmentOffset &&& 0xff) ::
    serializeFields header.extensionBits.tail header.lengthIndicators

/-- `Deserialize` of a data PDU, with what follows the header. The offset of a segment is read
without the shift of its high byte. -/
def deserialize : Bytes → Option (LteRlcAmHeader × Bytes)
  | byte1 :: byte2 :: byte3 :: byte4 :: rest =>
      if (byte1.toNat &&& 0x80) >>> 7 = 1 then
        (deserializeExtension (getExtensionBit byte1) rest).map
          fun (extensionBits, lengthIndicators, data) =>
            ({ framingInfo := getFramingInfo byte1
               sequenceNumber := getSequenceNumber byte1 byte2
               extensionBits, lengthIndicators
               resegmentationFlag := (byte1.toNat &&& 0x40) >>> 6 = 1
               pollingBit := (byte1.toNat &&& 0x20) >>> 5 = 1
               lastSegmentFlag := (byte3.toNat &&& 0x80) >>> 7 = 1
               segmentOffset := (byte3.toNat &&& 0x7f) ||| byte4.toNat }, data)
      else none
  | _ => none

variable {header}

/-- The three flags as they are read. -/
theorem exists_flags : ∃ flags : Fin 8, header.flags = flags.val <<< 5 ∧
    flags.val >>> 2 &&& 1 = 1 ∧ decide (flags.val >>> 1 &&& 1 = 1) = header.resegmentationFlag ∧
    decide (flags.val &&& 1 = 1) = header.pollingBit := by
  unfold flags
  cases header.resegmentationFlag <;> cases header.pollingBit
  · exact ⟨4, by decide⟩
  · exact ⟨5, by decide⟩
  · exact ⟨6, by decide⟩
  · exact ⟨7, by decide⟩

/-- The offset of a segment as it is read: the two bytes are joined in their place. -/
def joinedOffset (segmentOffset : Nat) : Nat := segmentOffset / 256 % 128 ||| segmentOffset % 256

theorem read_offset (lastSegmentFlag : Bool) (segmentOffset : Nat) :
    decide (((UInt8.ofNat (((lastSegmentFlag.toNat <<< 7) &&& 0x80) |||
        ((segmentOffset >>> 8) &&& 0x7f))).toNat &&& 0x80) >>> 7 = 1) = lastSegmentFlag ∧
      ((UInt8.ofNat (((lastSegmentFlag.toNat <<< 7) &&& 0x80) |||
          ((segmentOffset >>> 8) &&& 0x7f))).toNat &&& 0x7f) |||
        (UInt8.ofNat (segmentOffset &&& 0xff)).toNat = joinedOffset segmentOffset := by
  have all : ∀ (flag : Bool) (high : Fin 128),
      decide (((UInt8.ofNat (((flag.toNat <<< 7) &&& 0x80) ||| high)).toNat &&& 0x80) >>> 7 = 1) =
          flag ∧
        (UInt8.ofNat (((flag.toNat <<< 7) &&& 0x80) ||| high)).toNat &&& 0x7f = high := by
    decide
  have high : (segmentOffset >>> 8) &&& 0x7f = segmentOffset / 256 % 128 := by
    rw [Nat.shiftRight_eq_div_pow]
    exact Nat.and_two_pow_sub_one_eq_mod _ 7
  have low : segmentOffset &&& 0xff = segmentOffset % 256 := Nat.and_two_pow_sub_one_eq_mod _ 8
  obtain ⟨flag, bits⟩ := all lastSegmentFlag ⟨segmentOffset / 256 % 128, by omega⟩
  rw [high, low]
  refine ⟨flag, ?_⟩
  rw [bits, UInt8.toNat_ofNat', joinedOffset]
  exact congrArg _ (Nat.mod_mod _ _)

/-- A header whose indicators have 11 bits is read back, all but the offset of a segment. -/
theorem deserialize_serialize_joined
    (marked : Marked header.extensionBits header.lengthIndicators)
    (numbered : header.sequenceNumber < 1024)
    (fit : ∀ lengthIndicator ∈ header.lengthIndicators, lengthIndicator < 2048) (data : Bytes) :
    deserialize (header.serialize ++ data) =
      some ({ header with segmentOffset := joinedOffset header.segmentOffset }, data) := by
  obtain ⟨flags, isFlags, control, resegmentation, polling⟩ := @exists_flags header
  have fixed := read_fixedByte1 flags header.framingInfo (header.extensionBits.headD false)
    header.sequenceNumber
  have number := getSequenceNumber_eq flags header.framingInfo (header.extensionBits.headD false)
    numbered
  have bit (byte : Nat) : (byte &&& 0x80) >>> 7 = (byte >>> 5) >>> 2 &&& 1 ∧
      (byte &&& 0x40) >>> 6 = (byte >>> 5) >>> 1 &&& 1 ∧
      (byte &&& 0x20) >>> 5 = (byte >>> 5) &&& 1 := by
    simp only [Nat.shiftRight_and_distrib, ← Nat.shiftRight_add]
    exact ⟨rfl, rfl, rfl⟩
  obtain ⟨last, offset⟩ := read_offset header.lastSegmentFlag header.segmentOffset
  simp only [serialize, List.cons_append, deserialize, isFlags, last, offset]
  simp only [(bit _).1, (bit _).2.1, (bit _).2.2, fixed.1, fixed.2.1, fixed.2.2.2, number,
    control, resegmentation, polling, marked.deserializeExtension fit data, Option.map_some, if_true]

/-- A header of a whole PDU whose indicators have 11 bits is read back. -/
theorem deserialize_serialize (marked : Marked header.extensionBits header.lengthIndicators)
    (numbered : header.sequenceNumber < 1024) (offset : header.segmentOffset = 0)
    (fit : ∀ lengthIndicator ∈ header.lengthIndicators, lengthIndicator < 2048) (data : Bytes) :
    deserialize (header.serialize ++ data) = some (header, data) := by
  have same : joinedOffset header.segmentOffset = header.segmentOffset := by
    rw [offset]
    rfl
  rw [deserialize_serialize_joined marked numbered fit data, same]

theorem length_serialize (marked : Marked header.extensionBits header.lengthIndicators) :
    header.serialize.length = 4 + (3 * header.lengthIndicators.length + 1) / 2 := by
  rw [serialize, List.length_cons, List.length_cons, List.length_cons, List.length_cons,
    marked.length_fields]
  omega

/-- The length that has been counted is the one of the bytes, unless it overflows. -/
theorem getSerializedSize_eq (marked : Marked header.extensionBits header.lengthIndicators)
    (fits : 4 + (3 * header.lengthIndicators.length + 1) / 2 < 2 ^ 16) :
    header.getSerializedSize = header.serialize.length := by
  rw [length_serialize marked, getSerializedSize, marked.length, Nat.add_sub_cancel,
    headerLength_eq fits]

end LteRlcAmHeader

end Ns3.Lte
