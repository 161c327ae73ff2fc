import Ns3.Library.Word
import Mathlib.Data.UInt

/-!
`ns3::TcpOption`: the options of a TCP header.

An iterator is the list of the bytes from it on.
-/

namespace Ns3.Internet

open Library

/-- `ReadU8`. -/
def readU8 : List UInt8 → Option (UInt8 × List UInt8)
  | byte :: rest => some (byte, rest)
  | [] => none

/-- `ReadNtohU16`. -/
def readNtohU16 : List UInt8 → Option (UInt16 × List UInt8)
  | high :: low :: rest => some (UInt16.ofNat (ofBytes [low, high]), rest)
  | _ => none

/-- `ReadNtohU32`. -/
def readNtohU32 : List UInt8 → Option (UInt32 × List UInt8)
  | b3 :: b2 :: b1 :: b0 :: rest => some (UInt32.ofNat (ofBytes [b0, b1, b2, b3]), rest)
  | _ => none

/-- `WriteHtonU16`. -/
def writeHtonU16 (data : UInt16) : List UInt8 := (toBytes 2 data.toNat).reverse

/-- `WriteHtonU32`. -/
def writeHtonU32 (data : UInt32) : List UInt8 := (toBytes 4 data.toNat).reverse

theorem readNtohU16_writeHtonU16 (data : UInt16) (rest : List UInt8) :
    readNtohU16 (writeHtonU16 data ++ rest) = some (data, rest) := by
  have back := @ofBytes_toBytes 2 data.toNat data.toNat_lt
  change some (UInt16.ofNat (ofBytes (toBytes 2 data.toNat)), rest) = _
  rw [back, UInt16.ofNat_toNat]

theorem readNtohU32_writeHtonU32 (data : UInt32) (rest : List UInt8) :
    readNtohU32 (writeHtonU32 data ++ rest) = some (data, rest) := by
  have back := @ofBytes_toBytes 4 data.toNat data.toNat_lt
  change some (UInt32.ofNat (ofBytes (toBytes 4 data.toNat)), rest) = _
  rw [back, UInt32.ofNat_toNat]

@[simp]
theorem length_writeHtonU16 (data : UInt16) : (writeHtonU16 data).length = 2 := by
  rw [writeHtonU16, List.length_reverse, length_toBytes]

@[simp]
theorem length_writeHtonU32 (data : UInt32) : (writeHtonU32 data).length = 4 := by
  rw [writeHtonU32, List.length_reverse, length_toBytes]

/-- The subclasses of `ns3::TcpOption`. -/
inductive TcpOption
  | optionEnd
  | nop
  | mss (value : UInt16)
  | winScale (scale : UInt8)
  | sackPermitted
  | sack (sackList : List (UInt32 × UInt32))
  | ts (timestamp echo : UInt32)
  | unknown (kind size : UInt8) (content : List UInt8)
  deriving DecidableEq, Repr

namespace TcpOption

/-- `GetKind`. -/
def getKind : TcpOption → UInt8
  | optionEnd => 0
  | nop => 1
  | mss _ => 2
  | winScale _ => 3
  | sackPermitted => 4
  | sack _ => 5
  | ts _ _ => 8
  | unknown kind _ _ => kind

/-- `IsKindKnown`. -/
def isKindKnown (kind : UInt8) : Bool := kind ∈ [0, 1, 2, 3, 4, 5, 8]

/-- `GetSerializedSize`. The number of blocks and the size have 32 bits. -/
def getSerializedSize : TcpOption → Nat
  | optionEnd => 1
  | nop => 1
  | mss _ => 4
  | winScale _ => 3
  | sackPermitted => 2
  | sack sackList => wrap 32 (2 + wrap 32 sackList.length * 8)
  | ts _ _ => 10
  | unknown _ size _ => size.toNat

/-- A block of a SACK option. -/
def writeBlock (block : UInt32 × UInt32) : List UInt8 :=
  writeHtonU32 block.1 ++ writeHtonU32 block.2

/-- `Serialize`. An unknown option is only read, and then has the content that its size says. -/
def serialize : TcpOption → List UInt8
  | optionEnd => [0]
  | nop => [1]
  | mss value => 2 :: 4 :: writeHtonU16 value
  | winScale scale => [3, 3, scale]
  | sackPermitted => [4, 2]
  | sack sackList =>
      5 :: UInt8.ofNat (wrap 32 (wrap 32 sackList.length * 8 + 2)) :: sackList.flatMap writeBlock
  | ts timestamp echo => 8 :: 10 :: (writeHtonU32 timestamp ++ writeHtonU32 echo)
  | unknown kind size content => if size = 0 then [] else kind :: size :: content

/-- The loop of `TcpOptionSack::Deserialize`. -/
def readBlocks : Nat → List UInt8 → Option (List (UInt32 × UInt32))
  | 0, _ => some []
  | sackCount + 1, bytes => do
      let (leftEdge, bytes) ← readNtohU32 bytes
      let (rightEdge, bytes) ← readNtohU32 bytes
      let blocks ← readBlocks sackCount bytes
      return (leftEdge, rightEdge) :: blocks

/-- `TcpOptionMSS::Deserialize`, which aborts if the size is not 4. -/
def deserializeMss (bytes : List UInt8) : Option (Nat × TcpOption) := do
  let (size, bytes) ← readU8 bytes
  if size ≠ 4 then none
  else
    let (value, _) ← readNtohU16 bytes
    return (4, mss value)

/-- `TcpOptionWinScale::Deserialize`. -/
def deserializeWinScale (bytes : List UInt8) : Option (Nat × TcpOption) := do
  let (size, bytes) ← readU8 bytes
  if size ≠ 3 then return (0, winScale 0)
  else
    let (scale, _) ← readU8 bytes
    return (3, winScale scale)

/-- `TcpOptionSackPermitted::Deserialize`. -/
def deserializeSackPermitted (bytes : List UInt8) : Option (Nat × TcpOption) := do
  let (size, _) ← readU8 bytes
  return (if size ≠ 2 then 0 else 2, sackPermitted)

/-- `TcpOptionSack::Deserialize`. -/
def deserializeSack (bytes : List UInt8) : Option (Nat × TcpOption) := do
  let (size, bytes) ← readU8 bytes
  let sackList ← readBlocks ((size.toNat - 2) / 8) bytes
  return ((sack sackList).getSerializedSize, sack sackList)

/-- `TcpOptionTS::Deserialize`. -/
def deserializeTs (bytes : List UInt8) : Option (Nat × TcpOption) := do
  let (size, bytes) ← readU8 bytes
  if size ≠ 10 then return (0, ts 0 0)
  else
    let (timestamp, bytes) ← readNtohU32 bytes
    let (echo, _) ← readNtohU32 bytes
    return (10, ts timestamp echo)

/-- `TcpOptionUnknown::Deserialize`. -/
def deserializeUnknown (kind : UInt8) (bytes : List UInt8) : Option (Nat × TcpOption) := do
  let (size, bytes) ← readU8 bytes
  if size < 2 ∨ size > 40 then return (0, unknown kind size [])
  else if bytes.length < size.toNat - 2 then none
  else return (size.toNat, unknown kind size (bytes.take (size.toNat - 2)))

/-- `CreateOption` and the `Deserialize` of the option. The number is what the latter returns. There
is nothing if it aborts or reads behind the last byte. -/
def deserialize : List UInt8 → Option (Nat × TcpOption)
  | [] => none
  | kind :: bytes =>
      match kind with
      | 0 => some (1, optionEnd)
      | 1 => some (1, nop)
      | 2 => deserializeMss bytes
      | 3 => deserializeWinScale bytes
      | 4 => deserializeSackPermitted bytes
      | 5 => deserializeSack bytes
      | 8 => deserializeTs bytes
      | _ => deserializeUnknown kind bytes

/-- The bytes that `Serialize` writes. -/
def octets : TcpOption → Nat
  | sack sackList => 2 + 8 * sackList.length
  | option => option.getSerializedSize

/-- An option of one of the known classes. -/
def Known : TcpOption → Prop
  | unknown _ _ _ => False
  | _ => True

theorem readBlocks_writeBlock (sackList : List (UInt32 × UInt32)) (rest : List UInt8) :
    readBlocks sackList.length (sackList.flatMap writeBlock ++ rest) = some sackList := by
  induction sackList with
  | nil => rfl
  | cons block sackList inductionHypothesis =>
      rw [List.length_cons, readBlocks, List.flatMap_cons, writeBlock, List.append_assoc,
        List.append_assoc, readNtohU32_writeHtonU32]
      simp only [Option.bind_eq_bind, Option.bind_some]
      rw [readNtohU32_writeHtonU32]
      simp only [Option.bind_some]
      rw [inductionHypothesis]
      rfl

theorem length_flatMap_writeBlock (sackList : List (UInt32 × UInt32)) :
    (sackList.flatMap writeBlock).length = 8 * sackList.length := by
  induction sackList with
  | nil => rfl
  | cons block sackList inductionHypothesis =>
      rw [List.flatMap_cons, List.length_append, inductionHypothesis, writeBlock,
        List.length_append, length_writeHtonU32, length_writeHtonU32, List.length_cons]
      omega

variable {option : TcpOption}

theorem length_serialize (known : option.Known) : option.serialize.length = option.octets := by
  cases option with
  | sack sackList =>
      rw [serialize, List.length_cons, List.length_cons, length_flatMap_writeBlock, octets]
      omega
  | unknown => exact known.elim
  | _ => rfl

theorem octets_pos (known : option.Known) : 0 < option.octets := by
  cases option with
  | sack sackList =>
      rw [octets]
      omega
  | unknown => exact known.elim
  | _ => exact Nat.lt_of_sub_eq_succ rfl

theorem getSerializedSize_eq (known : option.Known) :
    option.getSerializedSize = wrap 32 option.octets := by
  cases option with
  | sack sackList =>
      rw [getSerializedSize, octets, wrap, wrap, wrap]
      omega
  | unknown => exact known.elim
  | _ => rfl

theorem getSerializedSize_of_small (known : option.Known) (small : option.octets ≤ 40) :
    option.getSerializedSize = option.octets := by
  rw [getSerializedSize_eq known, wrap_of_lt (by omega)]

/-- An option is read as it was written. -/
theorem deserialize_serialize (known : option.Known) (small : option.octets ≤ 40)
    (rest : List UInt8) :
    deserialize (option.serialize ++ rest) = some (option.octets, option) := by
  cases option with
  | optionEnd => rfl
  | nop => rfl
  | mss value =>
      simp only [serialize, List.cons_append, deserialize, deserializeMss, readU8,
        Option.bind_eq_bind, Option.bind_some, readNtohU16_writeHtonU16]
      rfl
  | winScale scale => rfl
  | sackPermitted => rfl
  | sack sackList =>
      have few : sackList.length ≤ 4 := by
        rw [octets] at small
        omega
      have size : wrap 32 (wrap 32 sackList.length * 8 + 2) = sackList.length * 8 + 2 := by
        rw [wrap, wrap]
        omega
      have count : ((UInt8.ofNat (sackList.length * 8 + 2)).toNat - 2) / 8 = sackList.length := by
        rw [UInt8.toNat_ofNat']
        omega
      have returned := getSerializedSize_of_small known small
      simp only [serialize, List.cons_append, deserialize, deserializeSack, readU8, size,
        Option.bind_eq_bind, Option.bind_some, count, readBlocks_writeBlock, returned]
      rfl
  | ts timestamp echo =>
      simp only [serialize, List.cons_append, List.append_assoc, deserialize, deserializeTs, readU8,
        Option.bind_eq_bind, Option.bind_some, readNtohU32_writeHtonU32]
      rfl
  | unknown => exact known.elim

end TcpOption

end Ns3.Internet
