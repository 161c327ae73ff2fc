import Ns3.Library.BitField
import Ns3.Library.Word
import Ns3.SixLowPan.Address

/-!
`ns3::SixLowPanIphc`: the header of a compressed packet.

The base format holds the choices that were made, and the fields that were not elided follow
it. A function that reads behind the end of a packet gives nothing. The bytes of the inline
parts that nobody has set hold garbage.
-/

namespace Ns3.SixLowPan

open Library

/-- `TrafficClassFlowLabel_e`. -/
inductive TrafficClassFlowLabel
  | tfFull
  | tfDscpElided
  | tfFlElided
  | tfElided
  deriving DecidableEq, Repr

/-- `Hlim_e`. -/
inductive Hlim
  | hlimInline
  | hlimCompr1
  | hlimCompr64
  | hlimCompr255
  deriving DecidableEq, Repr

/-- `HeaderCompression_e`. -/
inductive HeaderCompression
  | hcInline
  | hcCompr64
  | hcCompr16
  | hcCompr0
  deriving DecidableEq, Repr

namespace TrafficClassFlowLabel

def code : TrafficClassFlowLabel → BitVec 2
  | tfFull => 0
  | tfDscpElided => 1
  | tfFlElided => 2
  | tfElided => 3

def ofCode (code : BitVec 2) : TrafficClassFlowLabel :=
  if code = 0 then tfFull else if code = 1 then tfDscpElided else if code = 2 then tfFlElided
  else tfElided

@[simp]
theorem ofCode_code (field : TrafficClassFlowLabel) : ofCode field.code = field := by
  cases field <;> rfl

end TrafficClassFlowLabel

namespace Hlim

def code : Hlim → BitVec 2
  | hlimInline => 0
  | hlimCompr1 => 1
  | hlimCompr64 => 2
  | hlimCompr255 => 3

def ofCode (code : BitVec 2) : Hlim :=
  if code = 0 then hlimInline else if code = 1 then hlimCompr1 else if code = 2 then hlimCompr64
  else hlimCompr255

@[simp]
theorem ofCode_code (field : Hlim) : ofCode field.code = field := by
  cases field <;> rfl

end Hlim

namespace HeaderCompression

def code : HeaderCompression → BitVec 2
  | hcInline => 0
  | hcCompr64 => 1
  | hcCompr16 => 2
  | hcCompr0 => 3

def ofCode (code : BitVec 2) : HeaderCompression :=
  if code = 0 then hcInline else if code = 1 then hcCompr64 else if code = 2 then hcCompr16
  else hcCompr0

@[simp]
theorem ofCode_code (field : HeaderCompression) : ofCode field.code = field := by
  cases field <;> rfl

end HeaderCompression

/-- `ns3::SixLowPanIphc`. -/
structure SixLowPanIphc where
  baseFormat : BitVec 16
  srcdstContextId : UInt8
  ecn : UInt8
  dscp : UInt8
  flowLabel : BitVec 20
  nextHeader : UInt8
  hopLimit : UInt8
  srcInlinePart : List UInt8
  dstInlinePart : List UInt8
  deriving DecidableEq, Repr

namespace SixLowPanIphc

/-- The constructor. -/
def create (srcGarbage dstGarbage : List UInt8) : SixLowPanIphc :=
  ⟨0x6000, 0, 0, 0, 0, 0, 0, srcGarbage, dstGarbage⟩

/-- `GetTf`. -/
def getTf (self : SixLowPanIphc) : TrafficClassFlowLabel :=
  .ofCode (getField 11 2 self.baseFormat)

/-- `SetTf`. -/
def setTf (self : SixLowPanIphc) (tfField : TrafficClassFlowLabel) : SixLowPanIphc :=
  { self with baseFormat := setField 11 self.baseFormat tfField.code }

/-- `GetNh`. -/
def getNh (self : SixLowPanIphc) : Bool := getField 10 1 self.baseFormat = 1

/-- `SetNh`. -/
def setNh (self : SixLowPanIphc) (nhField : Bool) : SixLowPanIphc :=
  { self with baseFormat := setField 10 self.baseFormat (BitVec.ofBool nhField) }

/-- `GetHlim`. -/
def getHlim (self : SixLowPanIphc) : Hlim := .ofCode (getField 8 2 self.baseFormat)

/-- `SetHlim`. -/
def setHlim (self : SixLowPanIphc) (hlimField : Hlim) : SixLowPanIphc :=
  { self with baseFormat := setField 8 self.baseFormat hlimField.code }

/-- `GetCid`. -/
def getCid (self : SixLowPanIphc) : Bool := getField 7 1 self.baseFormat = 1

/-- `SetCid`. -/
def setCid (self : SixLowPanIphc) (cidField : Bool) : SixLowPanIphc :=
  { self with baseFormat := setField 7 self.baseFormat (BitVec.ofBool cidField) }

/-- `GetSac`. -/
def getSac (self : SixLowPanIphc) : Bool := getField 6 1 self.baseFormat = 1

/-- `SetSac`. -/
def setSac (self : SixLowPanIphc) (sacField : Bool) : SixLowPanIphc :=
  { self with baseFormat := setField 6 self.baseFormat (BitVec.ofBool sacField) }

/-- `GetSam`. -/
def getSam (self : SixLowPanIphc) : HeaderCompression := .ofCode (getField 4 2 self.baseFormat)

/-- `SetSam`. -/
def setSam (self : SixLowPanIphc) (samField : HeaderCompression) : SixLowPanIphc :=
  { self with baseFormat := setField 4 self.baseFormat samField.code }

/-- `GetM`. -/
def getM (self : SixLowPanIphc) : Bool := getField 3 1 self.baseFormat = 1

/-- `SetM`. -/
def setM (self : SixLowPanIphc) (mField : Bool) : SixLowPanIphc :=
  { self with baseFormat := setField 3 self.baseFormat (BitVec.ofBool mField) }

/-- `GetDac`. -/
def getDac (self : SixLowPanIphc) : Bool := getField 2 1 self.baseFormat = 1

/-- `SetDac`. -/
def setDac (self : SixLowPanIphc) (dacField : Bool) : SixLowPanIphc :=
  { self with baseFormat := setField 2 self.baseFormat (BitVec.ofBool dacField) }

/-- `GetDam`. -/
def getDam (self : SixLowPanIphc) : HeaderCompression := .ofCode (getField 0 2 self.baseFormat)

/-- `SetDam`. -/
def setDam (self : SixLowPanIphc) (damField : HeaderCompression) : SixLowPanIphc :=
  { self with baseFormat := setField 0 self.baseFormat damField.code }

/-- `SetSrcInlinePart`. -/
def setSrcInlinePart (self : SixLowPanIphc) (srcInlinePart : List UInt8) : SixLowPanIphc :=
  { self with srcInlinePart := srcInlinePart ++ self.srcInlinePart.drop srcInlinePart.length }

/-- `SetDstInlinePart`. -/
def setDstInlinePart (self : SixLowPanIphc) (dstInlinePart : List UInt8) : SixLowPanIphc :=
  { self with dstInlinePart := dstInlinePart ++ self.dstInlinePart.drop dstInlinePart.length }

/-- `SetSrcContextId`. -/
def setSrcContextId (self : SixLowPanIphc) (srcContextId : UInt8) : SixLowPanIphc :=
  { self with srcdstContextId := self.srcdstContextId ||| srcContextId <<< 4 }

/-- `GetSrcContextId`. -/
def getSrcContextId (self : SixLowPanIphc) : UInt8 := self.srcdstContextId >>> 4

/-- `SetDstContextId`. -/
def setDstContextId (self : SixLowPanIphc) (dstContextId : UInt8) : SixLowPanIphc :=
  { self with srcdstContextId := self.srcdstContextId ||| (dstContextId &&& 0xF) }

/-- `GetDstContextId`. -/
def getDstContextId (self : SixLowPanIphc) : UInt8 := self.srcdstContextId &&& 0xF

/-- The bytes of the source address in the packet. -/
def sourceSize (self : SixLowPanIphc) : Nat :=
  match self.getSam with
  | .hcInline => if self.getSac then 0 else 16
  | .hcCompr64 => 8
  | .hcCompr16 => 2
  | .hcCompr0 => 0

/-- The bytes that `GetSerializedSize` counts for the destination address. -/
def destinationSize (self : SixLowPanIphc) : Nat :=
  if self.getM then
    match self.getDam with
    | .hcInline => if self.getDac then 6 else 16
    | .hcCompr64 => if self.getDac then 0 else 6
    | .hcCompr16 => if self.getDac then 0 else 4
    | .hcCompr0 => if self.getDac then 0 else 1
  else
    match self.getDam with
    | .hcInline => if self.getDac then 0 else 16
    | .hcCompr64 => 8
    | .hcCompr16 => 2
    | .hcCompr0 => 0

/-- `GetSerializedSize`. -/
def getSerializedSize (self : SixLowPanIphc) : Nat :=
  2 + (if self.getCid then 1 else 0) +
    (match self.getTf with
    | .tfFull => 4
    | .tfDscpElided => 3
    | .tfFlElided => 1
    | .tfElided => 0) +
    (if self.getNh then 0 else 1) + (if self.getHlim = .hlimInline then 1 else 0) +
    self.sourceSize + self.destinationSize

/-- A byte of the flow label. -/
def flowByte (self : SixLowPanIphc) (position : Nat) : UInt8 :=
  .ofBitVec ((self.flowLabel >>> position).setWidth 8)

/-- What `Serialize` writes for the traffic class and the flow label. -/
def serializeTf (self : SixLowPanIphc) : List UInt8 :=
  match self.getTf with
  | .tfFull =>
      [self.ecn <<< 6 ||| self.dscp, self.flowByte 16, self.flowByte 8, self.flowByte 0]
  | .tfDscpElided => [self.ecn <<< 6 ||| self.flowByte 16, self.flowByte 8, self.flowByte 0]
  | .tfFlElided => [self.ecn <<< 6 ||| self.dscp]
  | .tfElided => []

/-- The bytes that `Serialize` and `Deserialize` take for the destination address. -/
def destinationWidth (self : SixLowPanIphc) : Nat :=
  if self.getM then
    match self.getDam with
    | .hcInline => 16
    | .hcCompr64 => 6
    | .hcCompr16 => 4
    | .hcCompr0 => 1
  else
    match self.getDam with
    | .hcInline => 16
    | .hcCompr64 => 8
    | .hcCompr16 => 2
    | .hcCompr0 => 0

/-- `Serialize`. -/
def serialize (self : SixLowPanIphc) : List UInt8 :=
  (toBytes 2 self.baseFormat.toNat).reverse ++
    ((if self.getCid then [self.srcdstContextId] else []) ++
      (self.serializeTf ++
        ((if self.getNh then [] else [self.nextHeader]) ++
          ((if self.getHlim = .hlimInline then [self.hopLimit] else []) ++
            (self.srcInlinePart.take self.sourceSize ++
              self.dstInlinePart.take self.destinationWidth)))))

/-- Read some bytes. -/
def readBytes (count : Nat) (bytes : List UInt8) : Option (List UInt8 × List UInt8) :=
  if count ≤ bytes.length then some (bytes.take count, bytes.drop count) else none

/-- Read a byte. -/
def readU8 : List UInt8 → Option (UInt8 × List UInt8)
  | [] => none
  | byte :: rest => some (byte, rest)

/-- The base format and the context. -/
def deserializeBase (bytes : List UInt8) : Option (SixLowPanIphc × List UInt8) :=
  match bytes with
  | high :: low :: rest =>
      let self : SixLowPanIphc :=
        { create [] [] with baseFormat := BitVec.ofNat 16 (ofBytes [low, high]) }
      if self.getCid then
        (readU8 rest).map fun (context, rest) => ({ self with srcdstContextId := context }, rest)
      else some (self, rest)
  | _ => none

/-- What `Deserialize` reads for the traffic class and the flow label. -/
def deserializeTf (self : SixLowPanIphc) (bytes : List UInt8) :
    Option (SixLowPanIphc × List UInt8) :=
  match self.getTf, bytes with
  | .tfFull, first :: a :: b :: c :: rest =>
      some ({ self with
        ecn := first >>> 6
        dscp := first &&& 0x3F
        flowLabel := ((a.toBitVec.setWidth 20 <<< 8 ||| b.toBitVec.setWidth 20) <<< 8) |||
          c.toBitVec.setWidth 20 }, rest)
  | .tfDscpElided, first :: b :: c :: rest =>
      some ({ self with
        ecn := first >>> 6
        flowLabel := (((first &&& 0x3F).toBitVec.setWidth 20 <<< 8 |||
          b.toBitVec.setWidth 20) <<< 8) ||| c.toBitVec.setWidth 20 }, rest)
  | .tfFlElided, first :: rest =>
      some ({ self with ecn := first >>> 6, dscp := first &&& 0x3F }, rest)
  | .tfElided, rest => some (self, rest)
  | _, _ => none

/-- What `Deserialize` reads for the next header. -/
def deserializeNh (self : SixLowPanIphc) (bytes : List UInt8) :
    Option (SixLowPanIphc × List UInt8) :=
  if self.getNh then some (self, bytes)
  else (readU8 bytes).map fun (next, rest) => ({ self with nextHeader := next }, rest)

/-- What `Deserialize` reads for the hop limit. -/
def deserializeHlim (self : SixLowPanIphc) (bytes : List UInt8) :
    Option (SixLowPanIphc × List UInt8) :=
  match self.getHlim with
  | .hlimInline => (readU8 bytes).map fun (limit, rest) => ({ self with hopLimit := limit }, rest)
  | .hlimCompr1 => some ({ self with hopLimit := 1 }, bytes)
  | .hlimCompr64 => some ({ self with hopLimit := 64 }, bytes)
  | .hlimCompr255 => some ({ self with hopLimit := 255 }, bytes)

/-- Where a part is read into, after it has been cleared. -/
def padded (part : List UInt8) : List UInt8 := part ++ List.replicate (16 - part.length) 0

/-- `Deserialize`. -/
def deserialize (bytes : List UInt8) : Option SixLowPanIphc := do
  let (self, bytes) ← deserializeBase bytes
  let (self, bytes) ← self.deserializeTf bytes
  let (self, bytes) ← self.deserializeNh bytes
  let (self, bytes) ← self.deserializeHlim bytes
  let (source, bytes) ← readBytes self.sourceSize bytes
  let (destination, _) ← readBytes self.destinationWidth bytes
  pure { self with srcInlinePart := padded source, dstInlinePart := padded destination }

/-- `AddHeader`: the header is written where `GetSerializedSize` has made room for it, over
what follows if it is longer. -/
def addHeader (self : SixLowPanIphc) (payload : List UInt8) : Option (List UInt8) :=
  let excess := self.serialize.length - self.getSerializedSize
  if excess ≤ payload.length then some (self.serialize ++ payload.drop excess) else none

/-- `RemoveHeader`: the header, and the packet without it. -/
def removeHeader (packet : List UInt8) : Option (SixLowPanIphc × List UInt8) :=
  (deserialize packet).map fun self => (self, packet.drop self.getSerializedSize)

end SixLowPanIphc

end Ns3.SixLowPan
