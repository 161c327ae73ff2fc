import Ns3.Library.Word

/-!
`ns3::Mac48Address`, and what the receiver reads of `ns3::WifiMacHeader`.
-/

namespace Ns3.Wifi

/-- `ns3::Mac48Address`. -/
structure Mac48Address where
  bytes : List UInt8
  length_bytes : bytes.length = 6
  deriving DecidableEq, Repr

/-- The address of six bytes whose last byte alone may be set. -/
def Mac48Address.ofLast (last : UInt8) : Mac48Address := ⟨[0, 0, 0, 0, 0, last], rfl⟩

/-- `IsGroup`. -/
def Mac48Address.isGroup (self : Mac48Address) : Bool := self.bytes.headD 0 &&& 0x01 = 0x01

/-- The fields of `ns3::WifiMacHeader` that are used here. The sequence control of a frame has
twelve bits for the sequence number and four for the fragment number. -/
structure WifiMacHeader where
  ctrlType : UInt8
  ctrlSubtype : UInt8
  ctrlToDs : Bool
  ctrlFromDs : Bool
  ctrlMoreFrag : Bool
  ctrlRetry : Bool
  addr1 : Mac48Address
  addr2 : Mac48Address
  addr3 : Mac48Address
  addr4 : Mac48Address
  seqSeq : Fin 4096
  seqFrag : Fin 16
  qosTid : Fin 16
  amsduPresent : Bool
  deriving DecidableEq, Repr

namespace WifiMacHeader

/-- `TYPE_DATA`. -/
def typeData : UInt8 := 2

/-- `IsQosData`. -/
def isQosData (self : WifiMacHeader) : Bool :=
  self.ctrlType = typeData && self.ctrlSubtype &&& 0x08 ≠ 0

/-- A data frame with no flags and the number zero. -/
def plainData : WifiMacHeader where
  ctrlType := typeData
  ctrlSubtype := 0
  ctrlToDs := false
  ctrlFromDs := false
  ctrlMoreFrag := false
  ctrlRetry := false
  addr1 := .ofLast 1
  addr2 := .ofLast 2
  addr3 := .ofLast 3
  addr4 := .ofLast 0
  seqSeq := 0
  seqFrag := 0
  qosTid := 0
  amsduPresent := false

/-- `GetSequenceControl`. -/
def getSequenceControl (self : WifiMacHeader) : Nat := self.seqSeq.val <<< 4 ||| self.seqFrag.val

theorem getSequenceControl_eq (self : WifiMacHeader) :
    self.getSequenceControl = self.seqSeq.val * 16 + self.seqFrag.val := by
  rw [getSequenceControl, ← Nat.shiftLeft_add_eq_or_of_lt self.seqFrag.isLt, Nat.shiftLeft_eq]

end WifiMacHeader

end Ns3.Wifi
