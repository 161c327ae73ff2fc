import Ns3.SixLowPan.Contexts

/-!
`SixLowPanIphc` on the wire.

The three functions of the class decide on their own which fields are there. They agree on all of
them but the destination address with a context.
-/

namespace Ns3.SixLowPan

open Library

namespace SixLowPanIphc

variable {self other : SixLowPanIphc}

/-- The fields that the base format says are present are the same. -/
structure Restored (header other : SixLowPanIphc) : Prop where
  baseFormat : other.baseFormat = header.baseFormat
  context : header.getCid = true → other.srcdstContextId = header.srcdstContextId
  ecn : header.getTf ≠ .tfElided → other.ecn = header.ecn
  dscp : header.getTf = .tfFull ∨ header.getTf = .tfFlElided → other.dscp = header.dscp
  flowLabel : header.getTf = .tfFull ∨ header.getTf = .tfDscpElided →
    other.flowLabel = header.flowLabel
  nextHeader : header.getNh = false → other.nextHeader = header.nextHeader
  hopLimit : header.getHlim = .hlimInline → other.hopLimit = header.hopLimit
  source : other.srcInlinePart.take header.sourceSize = header.srcInlinePart.take header.sourceSize
  destination : other.dstInlinePart.take header.destinationSize =
    header.dstInlinePart.take header.destinationSize

/-- The bytes that are written are counted, and they are read as they were written. -/
structure Coded (header : SixLowPanIphc) : Prop where
  written : header.serialize.length = header.getSerializedSize
  read : ∀ rest, ∃ other, deserializeFrom (header.serialize ++ rest) = some (other, rest) ∧
    other.getSerializedSize = header.getSerializedSize ∧ header.Restored other

theorem take_padded {part : List UInt8} {count : Nat} (inside : part.length = count) :
    (padded part).take count = part := by
  rw [padded, List.take_left' inside]

theorem restored_received (wellFormed : self.WellFormed)
    (agree : self.destinationSize = self.destinationWidth) : self.Restored self.received where
  baseFormat := self.baseFormat_received
  context := by
    intro present
    rw [srcdstContextId_received, if_pos present]
  ecn := by
    intro present
    unfold received receivedTf
    cases isTf : self.getTf with
    | tfElided => exact absurd isTf present
    | tfFull | tfDscpElided | tfFlElided => rfl
  dscp := by
    intro present
    unfold received receivedTf
    rcases present with isTf | isTf <;> rw [isTf]
  flowLabel := by
    intro present
    unfold received receivedTf
    rcases present with isTf | isTf <;> rw [isTf]
  nextHeader := by
    intro present
    simp [received, present]
  hopLimit := by
    intro present
    simp [received, receivedHopLimit, present]
  source := by
    apply take_padded
    rw [List.length_take, wellFormed.srcInlinePart]
    exact Nat.min_eq_left self.sourceSize_le
  destination := by
    rw [agree]
    apply take_padded
    rw [List.length_take, wellFormed.dstInlinePart]
    exact Nat.min_eq_left self.destinationWidth_le

/-- Where the counted size of the destination address is the written one. -/
theorem destinationSize_eq_iff : self.destinationSize = self.destinationWidth ↔
    self.getDac = false ∨ self.getM = false ∧ self.getDam ≠ .hcInline := by
  unfold destinationSize destinationWidth
  cases self.getM <;> cases self.getDac <;> cases self.getDam <;> decide

/-- A header goes over the wire as it is if and only if its destination address was not compressed
with a context, or is a unicast address of which a part is elided. -/
theorem coded_iff (wellFormed : self.WellFormed) :
    self.Coded ↔ self.getDac = false ∨ self.getM = false ∧ self.getDam ≠ .hcInline := by
  have length := length_serialize wellFormed
  rw [← destinationSize_eq_iff]
  constructor
  · intro coded
    have written := coded.written
    omega
  · intro agree
    refine ⟨by omega, fun rest => ?_⟩
    exact ⟨self.received, deserializeFrom_append wellFormed rest,
      getSerializedSize_congr self.baseFormat_received, restored_received wellFormed agree⟩

end SixLowPanIphc

namespace SixLowPanNetDevice

open SixLowPanIphc

/-- A header of `CompressLowPanIphc` with the base format and the inline parts. -/
def madeHeader (baseFormat : BitVec 16) (source destination : List UInt8) : SixLowPanIphc :=
  { create (padded source) (padded destination) with baseFormat, nextHeader := 59 }

/-- A header between two link-local addresses. -/
theorem coded_iff_plain :
    let header := madeHeader 0x7a11 [0, 0, 0, 0, 0, 0, 0, 1] [0, 0, 0, 0, 0, 0, 0, 2]
    plainDevice.compressHeader (plainHeader 0) [] (.mac16 0 1) (.mac16 0 2) = .ok (header, []) ∧
      header.WellFormed ∧ header.Coded := by
  intro header
  have wellFormed : header.WellFormed := ⟨by decide, by decide, by decide, by decide⟩
  exact ⟨by decide, wellFormed, (coded_iff wellFormed).mpr (by decide)⟩

/-- The multicast address `ff3e:20:2001:db8::1`, with the prefix of the context. -/
def groupAddress : Ipv6Address :=
  ⟨[0xff, 0x3e, 0, 0x20, 0x20, 0x01, 0x0d, 0xb8, 0, 0, 0, 0, 0, 0, 0, 1], rfl⟩

/-- `CompressLowPanIphc` makes a header that is written with ten bytes more than are counted. -/
theorem not_coded_groupAddress :
    let header := madeHeader 0x7a5c [0, 0, 0, 0, 0, 0, 0, 5] [62, 0, 0, 0, 0, 1]
    contextDevice.compressHeader { subnetHeader 0 with destinationAddress := groupAddress } []
        (.mac16 0 1) (.mac16 0 2) = .ok (header, []) ∧ header.WellFormed ∧
      ¬ header.Coded := by
  intro header
  have longer : header.serialize.length = header.getSerializedSize + 10 := by decide
  refine ⟨by decide, ⟨by decide, by decide, by decide, by decide⟩, fun coded => ?_⟩
  have written := coded.written
  omega

end SixLowPanNetDevice

end Ns3.SixLowPan
