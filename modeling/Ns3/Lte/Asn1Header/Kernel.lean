import Mathlib.Data.BitVec
import Mathlib.Data.Nat.Log

/-!
`ns3::Asn1Header`: the types of the RRC messages, packed as in X.691.
-/

namespace Ns3.Lte

/-- `ns3::Asn1Header`. -/
structure Asn1Header where
  serializationResult : List UInt8 := []
  serializationPendingBits : UInt8 := 0
  numSerializationPendingBits : Nat := 0
  deriving DecidableEq, Repr

namespace Asn1Header

variable (self : Asn1Header) {size : Nat}

/-- `WriteOctet`. -/
def writeOctet (octet : UInt8) : Asn1Header :=
  { self with serializationResult := self.serializationResult ++ [octet] }

/-- The loop of `SerializeBitset` that completes the pending octet. -/
def completeOctet (data : BitVec size) : Nat → UInt8 → UInt8 → Nat → Nat × UInt8 × Nat
  | 0, _, octet, number => (0, octet, number)
  | pendingBits + 1, mask, octet, number =>
      if number < 8 then
        completeOctet data pendingBits ((mask >>> 1) &&& ~~~mask)
          (octet ||| if data.getLsbD pendingBits then mask else 0) (number + 1)
      else (pendingBits + 1, octet, number)

/-- The loop of `SerializeBitset` that keeps the last bits for later. -/
def keepBits (data : BitVec size) : Nat → UInt8 → UInt8 → UInt8
  | 0, _, octet => octet
  | pendingBits + 1, mask, octet =>
      keepBits data pendingBits ((mask >>> 1) &&& ~~~mask)
        (octet ||| if data.getLsbD pendingBits then mask else 0)

/-- The loop of `SerializeBitset` that makes an octet, the lowest bit first. -/
def octetToWrite (data : BitVec size) (pendingBits : Nat) : Nat → UInt8 → UInt8 → UInt8
  | 0, _, octet => octet
  | j + 1, mask, octet =>
      octetToWrite data pendingBits j ((mask <<< 1) &&& ~~~mask)
        (octet ||| if data.getLsbD (pendingBits - (j + 1)) then mask else 0)

/-- `SerializeBitset`, where the bits go into the pending octet. -/
def fillPending (data : BitVec size) (pendingBits : Nat) : Nat × Asn1Header :=
  if self.numSerializationPendingBits > 0 then
    let (pendingBits, octet, number) := completeOctet data pendingBits
      (0x80 >>> UInt8.ofNat self.numSerializationPendingBits) self.serializationPendingBits
      self.numSerializationPendingBits
    if number ≥ 8 then
      (pendingBits, { self.writeOctet octet with
        numSerializationPendingBits := 0, serializationPendingBits := 0 })
    else
      (pendingBits, { self with
        numSerializationPendingBits := number, serializationPendingBits := octet })
  else (pendingBits, self)

/-- `SerializeBitset`, where the other bits are written. -/
def writeOctets (data : BitVec size) : Nat → Asn1Header → Asn1Header
  | 0, self => self
  | pendingBits + 8, self =>
      writeOctets data pendingBits
        (self.writeOctet (octetToWrite data (pendingBits + 8) 8 1 0))
  | pendingBits, self =>
      { self with
        numSerializationPendingBits := pendingBits
        serializationPendingBits := keepBits data pendingBits 0x80 self.serializationPendingBits }

/-- `SerializeBitset`. A bitset that needs fragments is not written at all. -/
def serializeBitset (data : BitVec size) : Asn1Header :=
  if size = 0 then self
  else if size ≤ 65536 then
    let (pendingBits, self) := self.fillPending data (size % 2 ^ 8)
    writeOctets data pendingBits self
  else self

/-- `SerializeBoolean`. -/
def serializeBoolean (value : Bool) : Asn1Header := self.serializeBitset (BitVec.ofBool value)

/-- `SerializeBitstring`. -/
def serializeBitstring (data : BitVec size) : Asn1Header := self.serializeBitset data

/-- `SerializeSequence`. -/
def serializeSequence (optionalOrDefaultMask : BitVec size) (isExtensionMarkerPresent : Bool) :
    Asn1Header :=
  let self := if isExtensionMarkerPresent then self.serializeBoolean false else self
  self.serializeBitstring optionalOrDefaultMask

/-- `ceil (log2 range)`, as if the floating point were exact. -/
def requiredBits (range : Int) : Nat := Nat.clog 2 range.toNat

/-- `SerializeInteger`. It exits if there are too many bits. -/
def serializeInteger (n nmin nmax : Int) : Option Asn1Header :=
  if nmin ≤ n ∧ n ≤ nmax then
    let range := nmax - nmin + 1
    if range ≤ 1 then some self
    else if requiredBits range ∈ List.range' 1 20 then
      some (self.serializeBitset (BitVec.ofInt (requiredBits range) (n - nmin)))
    else none
  else none

/-- `SerializeEnum`. -/
def serializeEnum (numElems selectedElem : Int) : Option Asn1Header :=
  self.serializeInteger selectedElem 0 (numElems - 1)

/-- `SerializeChoice`. -/
def serializeChoice (numOptions selectedOption : Int) (isExtensionMarkerPresent : Bool) :
    Option Asn1Header :=
  let self := if isExtensionMarkerPresent then self.serializeBoolean false else self
  if numOptions < 2 then some self else self.serializeInteger selectedOption 0 (numOptions - 1)

/-- `FinalizeSerialization`. -/
def finalizeSerialization : Asn1Header :=
  if self.numSerializationPendingBits > 0 then
    serializeBitset { self with numSerializationPendingBits := 0 }
      self.serializationPendingBits.toBitVec
  else self

/-- `std::bitset::set`. -/
def setBit (data : BitVec size) (position : Nat) (bit : Bool) : BitVec size :=
  if bit then data ||| BitVec.twoPow size position else data &&& ~~~BitVec.twoPow size position

/-- The loop of `DeserializeBitset` over the pending bits. -/
def readPending : Nat → BitVec size → UInt8 → Nat → Nat × BitVec size × UInt8 × Nat
  | bitsToRead + 1, data, octet, number + 1 =>
      readPending bitsToRead (setBit data bitsToRead (decide (octet &&& 0x80 ≠ 0))) (octet <<< 1)
        number
  | bitsToRead, data, octet, number => (bitsToRead, data, octet, number)

/-- The loops of `DeserializeBitset` over the highest bits of an octet. -/
def readBits (octet : UInt8) : Nat → Nat → UInt8 → BitVec size → BitVec size
  | count + 1, bitsToRead, mask, data =>
      readBits octet count (bitsToRead - 1) (mask >>> 1)
        (setBit data (bitsToRead - 1) (decide (octet &&& mask ≠ 0)))
  | 0, _, _, data => data

/-- The loop of `DeserializeBitset` over the octets. The last octet leaves bits for later. -/
def readOctets : Nat → BitVec size → Asn1Header → List UInt8 →
    Option (BitVec size × Asn1Header × List UInt8)
  | 0, data, self, input => some (data, self, input)
  | _ + 1, _, _, [] => none
  | bitsToRead + 8, data, self, octet :: input =>
      readOctets bitsToRead (readBits octet 8 (bitsToRead + 8) 0x80 data) self input
  | bitsToRead, data, self, octet :: input =>
      some (readBits octet bitsToRead bitsToRead 0x80 data,
        { self with
          numSerializationPendingBits := 8 - bitsToRead
          serializationPendingBits := octet <<< UInt8.ofNat bitsToRead }, input)

/-- `DeserializeBitset`. Nothing is returned if the octets end too early. -/
def deserializeBitset (data : BitVec size) (input : List UInt8) :
    Option (BitVec size × Asn1Header × List UInt8) :=
  let (bitsToRead, data, octet, number) :=
    readPending size data self.serializationPendingBits self.numSerializationPendingBits
  readOctets bitsToRead data
    { self with numSerializationPendingBits := number, serializationPendingBits := octet } input

/-- `DeserializeBoolean`. -/
def deserializeBoolean (input : List UInt8) : Option (Bool × Asn1Header × List UInt8) := do
  let (readBit, self, input) ← self.deserializeBitset (0 : BitVec 1) input
  return (readBit.getLsbD 0, self, input)

/-- `DeserializeBitstring`. -/
def deserializeBitstring (data : BitVec size) (input : List UInt8) :
    Option (BitVec size × Asn1Header × List UInt8) := self.deserializeBitset data input

/-- An extension marker, which is dropped. -/
def skipMarker (isExtensionMarkerPresent : Bool) (input : List UInt8) :
    Option (Asn1Header × List UInt8) :=
  if isExtensionMarkerPresent then (self.deserializeBoolean input).map Prod.snd
  else some (self, input)

/-- `DeserializeSequence`. -/
def deserializeSequence (optionalOrDefaultMask : BitVec size) (isExtensionMarkerPresent : Bool)
    (input : List UInt8) : Option (BitVec size × Asn1Header × List UInt8) := do
  let (self, input) ← self.skipMarker isExtensionMarkerPresent input
  self.deserializeBitset optionalOrDefaultMask input

/-- `DeserializeInteger`. The integer is not written if there is only one. -/
def deserializeInteger (n nmin nmax : Int) (input : List UInt8) :
    Option (Int × Asn1Header × List UInt8) :=
  let (nmin, nmax) := if nmin > nmax then (nmax, nmin) else (nmin, nmax)
  let range := nmax - nmin + 1
  if range = 1 then some (n, self, input)
  else if requiredBits range ∈ List.range' 1 20 then do
    let (bitsRead, self, input) ←
      self.deserializeBitset (0 : BitVec (requiredBits range)) input
    return (bitsRead.toNat + nmin, self, input)
  else none

/-- `DeserializeChoice`. -/
def deserializeChoice (numOptions : Int) (isExtensionMarkerPresent : Bool) (selectedOption : Int)
    (input : List UInt8) : Option (Int × Asn1Header × List UInt8) := do
  let (self, input) ← self.skipMarker isExtensionMarkerPresent input
  self.deserializeInteger selectedOption 0 (numOptions - 1) input

/-- `DeserializeEnum`. -/
def deserializeEnum (numElems selectedElem : Int) (input : List UInt8) :
    Option (Int × Asn1Header × List UInt8) :=
  self.deserializeInteger selectedElem 0 (numElems - 1) input

end Asn1Header

end Ns3.Lte
