import Ns3.Lte.RlcAm.Status

/-!
The round trips of the RLC headers.

`LteRlcAmHeader::Deserialize` joins the two bytes of the segment offset without the shift of the
first one, so that an offset of 256 or more is lost. The lengths are counted in 16 bits.
-/

namespace Ns3.Lte

open Library

/-- The counted length is right if and only if it fits. -/
theorem headerLength_eq_iff {fixed fields : Nat} (small : fixed < 2 ^ 16) :
    fixed + (3 * fields + 1) / 2 = headerLength fixed fields ↔
      fixed + (3 * fields + 1) / 2 < 2 ^ 16 := by
  refine ⟨fun same => ?_, fun fits => (headerLength_eq fits).symm⟩
  rw [same]
  cases fields with
  | zero => exact small
  | succ fields => exact wrap_lt _ _

/-- The joined offset is the offset only if it has one byte. -/
theorem joinedOffset_eq_iff {segmentOffset : Nat} (fits : segmentOffset < 2 ^ 15) :
    LteRlcAmHeader.joinedOffset segmentOffset = segmentOffset ↔ segmentOffset < 256 := by
  unfold LteRlcAmHeader.joinedOffset
  constructor
  · intro same
    have small : segmentOffset / 256 % 128 ||| segmentOffset % 256 < 2 ^ 8 :=
      Nat.or_lt_two_pow (by omega) (by omega)
    omega
  · intro small
    rw [Nat.div_eq_of_lt small, Nat.zero_mod, Nat.zero_or, Nat.mod_eq_of_lt small]

/-- The fields of a data PDU have their widths, and there is an indicator for every extension bit
that is set. -/
structure LteRlcHeader.WellFormed (header : LteRlcHeader) : Prop where
  marked : Marked header.extensionBits header.lengthIndicators
  numbered : header.sequenceNumber < 1024
  fit : ∀ lengthIndicator ∈ header.lengthIndicators, lengthIndicator < 2048

/-- `Serialize` writes as much as `GetSerializedSize` tells, and `Deserialize` restores it. -/
structure LteRlcHeader.RoundTrips (header : LteRlcHeader) : Prop where
  size : header.serialize.length = header.getSerializedSize
  restores : ∀ data, LteRlcHeader.deserialize (header.serialize ++ data) = some (header, data)

structure LteRlcAmHeader.WellFormed (header : LteRlcAmHeader) : Prop extends
    header.toLteRlcHeader.WellFormed where
  offset : header.segmentOffset < 2 ^ 15

structure LteRlcAmHeader.RoundTrips (header : LteRlcAmHeader) : Prop where
  size : header.serialize.length = header.getSerializedSize
  restores : ∀ data, LteRlcAmHeader.deserialize (header.serialize ++ data) = some (header, data)

/-- A STATUS PDU is the control PDU of type zero. -/
structure LteRlcAmStatus.WellFormed (header : LteRlcAmStatus) : Prop where
  typed : header.controlPduType = 0
  numbered : header.ackSn < 1024
  fit : ∀ nack ∈ header.nackSnList, nack < 1024

structure LteRlcAmStatus.RoundTrips (header : LteRlcAmStatus) : Prop where
  size : header.serialize.length = header.getSerializedSize
  restores : ∀ data, LteRlcAmStatus.deserialize (header.serialize ++ data) =
    some (header, header.getSerializedSize, data)

theorem LteRlcHeader.trips_iff {header : LteRlcHeader} (wellFormed : header.WellFormed) :
    header.RoundTrips ↔ 2 + (3 * header.lengthIndicators.length + 1) / 2 < 2 ^ 16 := by
  obtain ⟨marked, numbered, fit⟩ := wellFormed
  have length := marked.length
  have counted : header.getSerializedSize = headerLength 2 header.lengthIndicators.length := by
    rw [getSerializedSize]
    cases bits : header.extensionBits with
    | nil => simp [bits] at length
    | cons first rest =>
        rw [bits, List.length_cons, Nat.add_right_cancel_iff] at length
        dsimp only
        rw [length]
  rw [← headerLength_eq_iff (by decide), ← counted, ← length_serialize marked]
  exact ⟨fun trips => trips.size,
    fun size => ⟨size, fun data => deserialize_serialize marked numbered fit data⟩⟩

theorem LteRlcAmHeader.trips_iff {header : LteRlcAmHeader} (wellFormed : header.WellFormed) :
    header.RoundTrips ↔ header.segmentOffset < 256 ∧
      4 + (3 * header.lengthIndicators.length + 1) / 2 < 2 ^ 16 := by
  obtain ⟨⟨marked, numbered, fit⟩, offset⟩ := wellFormed
  have counted : header.getSerializedSize = headerLength 4 header.lengthIndicators.length := by
    rw [getSerializedSize, marked.length, Nat.add_sub_cancel]
  have joined := deserialize_serialize_joined marked numbered fit
  rw [← headerLength_eq_iff (by decide), ← counted, ← length_serialize marked,
    ← joinedOffset_eq_iff offset]
  constructor
  · intro trips
    refine ⟨?_, trips.size⟩
    have both := (joined []).symm.trans (trips.restores [])
    exact congrArg LteRlcAmHeader.segmentOffset (Prod.mk.inj (Option.some.inj both)).1
  · rintro ⟨same, size⟩
    refine ⟨size, fun data => ?_⟩
    rw [joined data, same]

theorem LteRlcAmStatus.trips_iff {header : LteRlcAmStatus} (wellFormed : header.WellFormed) :
    header.RoundTrips ↔ 2 + (3 * header.nackSnList.length + 1) / 2 < 2 ^ 16 := by
  obtain ⟨typed, numbered, fit⟩ := wellFormed
  rw [← headerLength_eq_iff (by decide), ← length_serialize]
  exact ⟨fun trips => trips.size,
    fun size => ⟨size, deserialize_serialize (by omega) numbered fit⟩⟩

/-- The headers round trip if and only if their lengths fit into 16 bits and the segment offset of
an AM header has one byte. -/
theorem headers_roundTrip_iff {header : LteRlcHeader} (wellFormed : header.WellFormed)
    {amHeader : LteRlcAmHeader} (amWellFormed : amHeader.WellFormed)
    {status : LteRlcAmStatus} (statusWellFormed : status.WellFormed) :
    (header.RoundTrips ↔ 2 + (3 * header.lengthIndicators.length + 1) / 2 < 2 ^ 16) ∧
    (amHeader.RoundTrips ↔ amHeader.segmentOffset < 256 ∧
      4 + (3 * amHeader.lengthIndicators.length + 1) / 2 < 2 ^ 16) ∧
    (status.RoundTrips ↔ 2 + (3 * status.nackSnList.length + 1) / 2 < 2 ^ 16) :=
  ⟨LteRlcHeader.trips_iff wellFormed, LteRlcAmHeader.trips_iff amWellFormed,
    LteRlcAmStatus.trips_iff statusWellFormed⟩

/-- A header with two indicators. -/
def twoIndicators : LteRlcHeader where
  framingInfo := ⟨true, false⟩
  sequenceNumber := 1000
  extensionBits := [true, true, false]
  lengthIndicators := [2000, 3]

theorem wellFormed_twoIndicators : twoIndicators.WellFormed :=
  ⟨.more 2000 (.more 3 .last), by decide, by decide⟩

/-- The header of a segment of a PDU. -/
def segmentHeader (segmentOffset : Nat) : LteRlcAmHeader where
  toLteRlcHeader := twoIndicators
  resegmentationFlag := true
  pollingBit := false
  lastSegmentFlag := true
  segmentOffset := segmentOffset

theorem wellFormed_segmentHeader {segmentOffset : Nat} (fits : segmentOffset < 2 ^ 15) :
    (segmentHeader segmentOffset).WellFormed := ⟨wellFormed_twoIndicators, fits⟩

theorem headers_roundTrip_iff_two :
    (twoIndicators.RoundTrips ↔ 2 + (3 * 2 + 1) / 2 < 2 ^ 16) ∧
    ((segmentHeader 100).RoundTrips ↔ 100 < 256 ∧ 4 + (3 * 2 + 1) / 2 < 2 ^ 16) ∧
    ((LteRlcAmStatus.mk 0 1000 [1, 513, 1023]).RoundTrips ↔ 2 + (3 * 3 + 1) / 2 < 2 ^ 16) :=
  headers_roundTrip_iff wellFormed_twoIndicators (wellFormed_segmentHeader (by decide))
    ⟨rfl, by decide, by decide⟩

/-- An offset of 256 is read as one. -/
theorem not_headers_roundTrip :
    ¬ ∀ header : LteRlcAmHeader, header.WellFormed → header.RoundTrips := by
  intro always
  have trips := always (segmentHeader 256) (wellFormed_segmentHeader (by decide))
  exact absurd (trips.restores []) (by decide)

end Ns3.Lte
