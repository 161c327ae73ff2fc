import Mathlib.Data.List.Induction
import Ns3.Library.Word
import Ns3.Wifi.MacHeader

/-!
`WifiMacQueueItem::Aggregate` and `MsduAggregator::Deaggregate`.

The sender pads the A-MSDU by its size so far before it adds a subframe. The receiver removes the
padding of each subframe by the length of that subframe. Both agree, since every subframe starts
at a multiple of four bytes.
-/

namespace Ns3.Wifi.Aggregation

open Library

/-- `ns3::AmsduSubframeHeader`. -/
structure AmsduSubframeHeader where
  da : Mac48Address
  sa : Mac48Address
  length : UInt16
  deriving DecidableEq, Repr

namespace AmsduSubframeHeader

/-- `GetSerializedSize`. -/
def serializedSize : Nat := 6 + 6 + 2

/-- `Serialize`, the length in network order. -/
def serialize (self : AmsduSubframeHeader) : List UInt8 :=
  self.da.bytes ++ self.sa.bytes ++ (toBytes 2 self.length.toNat).reverse

/-- `ReadFrom` of an address: the address, and the bytes behind it. -/
def readFrom (bytes : List UInt8) : Option (Mac48Address × List UInt8) :=
  if whole : (bytes.take 6).length = 6 then some (⟨bytes.take 6, whole⟩, bytes.drop 6) else none

/-- `RemoveHeader`: the header, and the packet without it. -/
def removeHeader (packet : List UInt8) : Option (AmsduSubframeHeader × List UInt8) := do
  let (da, packet) ← readFrom packet
  let (sa, packet) ← readFrom packet
  match packet with
  | high :: low :: rest => some (⟨da, sa, .ofNat (ofBytes [low, high])⟩, rest)
  | _ => none

end AmsduSubframeHeader

/-- The header that `Aggregate` makes of that of the first MSDU. -/
def setAmsdu (self : WifiMacHeader) : WifiMacHeader :=
  let self := { self with amsduPresent := true }
  if self.ctrlToDs && !self.ctrlFromDs then { self with addr3 := self.addr1 }
  else if !self.ctrlToDs && self.ctrlFromDs then { self with addr3 := self.addr2 }
  else self

namespace MsduAggregator

/-- `CalculatePadding`. -/
def calculatePadding (amsduSize : UInt16) : Nat := (4 - amsduSize.toNat % 4) % 4

/-- `GetSizeIfAggregated`. -/
def getSizeIfAggregated (msduSize amsduSize : UInt16) : UInt16 :=
  amsduSize + .ofNat (calculatePadding amsduSize) + 14 + msduSize

/-- `Packet::CreateFragment` from the start; a fragment that is longer than the packet is empty. -/
def createFragment (packet : List UInt8) (length : Nat) : List UInt8 :=
  if length ≤ packet.length then packet.take length else []

theorem readFrom_some {bytes rest : List UInt8} {address : Mac48Address}
    (read : AmsduSubframeHeader.readFrom bytes = some (address, rest)) : rest = bytes.drop 6 := by
  unfold AmsduSubframeHeader.readFrom at read
  split at read
  · cases read
    rfl
  · cases read

theorem length_of_removeHeader {packet rest : List UInt8} {hdr : AmsduSubframeHeader}
    (removed : AmsduSubframeHeader.removeHeader packet = some (hdr, rest)) :
    rest.length < packet.length := by
  simp only [AmsduSubframeHeader.removeHeader, Option.bind_eq_bind, Option.bind_eq_some_iff]
    at removed
  obtain ⟨⟨da, behindDa⟩, isDa, ⟨sa, behindSa⟩, isSa, removed⟩ := removed
  obtain rfl := readFrom_some isDa
  obtain rfl := readFrom_some isSa
  dsimp only at removed
  split at removed
  · next high low tail isTail =>
    cases removed
    have length := congrArg List.length isTail
    simp only [List.length_drop, List.length_cons] at length
    omega
  · cases removed

/-- The loop of `Deaggregate`; a packet that ends within a header aborts. -/
def deaggregateFrom (maxSize deserialized : Nat) (packet : List UInt8) :
    Option (List (List UInt8 × AmsduSubframeHeader)) :=
  if deserialized < maxSize then
    match _removed : AmsduSubframeHeader.removeHeader packet with
    | none => none
    | some (hdr, rest) =>
        let extractedLength := hdr.length.toNat
        let extractedMsdu := createFragment rest extractedLength
        let deserialized := deserialized + AmsduSubframeHeader.serializedSize + extractedLength
        let padding := (4 - (extractedLength + 14) % 4) % 4
        if padding > 0 ∧ deserialized < maxSize then
          (deaggregateFrom maxSize (deserialized + padding)
            ((rest.drop extractedLength).drop padding)).map ((extractedMsdu, hdr) :: ·)
        else
          (deaggregateFrom maxSize deserialized (rest.drop extractedLength)).map
            ((extractedMsdu, hdr) :: ·)
  else some []
termination_by packet.length
decreasing_by
  all_goals
    have shorter := length_of_removeHeader _removed
    simp only [List.length_drop]
    omega

/-- `Deaggregate`. -/
def deaggregate (aggregatedPacket : List UInt8) :
    Option (List (List UInt8 × AmsduSubframeHeader)) :=
  deaggregateFrom aggregatedPacket.length 0 aggregatedPacket

end MsduAggregator

/-- What `ns3::WifiMacQueueItem` has of a packet: its header, and the MSDUs if it is an A-MSDU. -/
structure WifiMacQueueItem where
  packet : List UInt8
  header : WifiMacHeader
  msduList : List (List UInt8 × AmsduSubframeHeader)
  deriving DecidableEq, Repr

namespace WifiMacQueueItem

open MsduAggregator

/-- The constructor, which takes an A-MSDU apart. -/
def create (packet : List UInt8) (header : WifiMacHeader) : Option WifiMacQueueItem :=
  if header.isQosData && header.amsduPresent then
    (deaggregate packet).map (⟨packet, header, ·⟩)
  else some ⟨packet, header, []⟩

/-- The subframe header that `DoAggregate` builds. -/
def subframeHeader (msdu : WifiMacQueueItem) : AmsduSubframeHeader where
  da := if msdu.header.ctrlToDs then msdu.header.addr3 else msdu.header.addr1
  sa :=
    if !msdu.header.ctrlFromDs then msdu.header.addr2
    else if !msdu.header.ctrlToDs then msdu.header.addr3
    else msdu.header.addr4
  length := .ofNat msdu.packet.length

/-- `DoAggregate`. -/
def doAggregate (self msdu : WifiMacQueueItem) : WifiMacQueueItem :=
  let hdr := msdu.subframeHeader
  let padding := if self.packet.length > 0 then calculatePadding (.ofNat self.packet.length) else 0
  { self with
    msduList := self.msduList ++ [(msdu.packet, hdr)]
    packet := self.packet ++ List.replicate padding 0 ++ (hdr.serialize ++ msdu.packet) }

/-- `Aggregate`, which aborts unless the MSDU is in a QoS data frame of its own. -/
def aggregate (self msdu : WifiMacQueueItem) : Option WifiMacQueueItem :=
  if !msdu.header.isQosData || msdu.header.amsduPresent then none
  else
    let amsdu :=
      if self.msduList.isEmpty then
        let amsdu := { self with packet := [] }.doAggregate self
        { amsdu with header := setAmsdu amsdu.header }
      else self
    some (amsdu.doAggregate msdu)

/-- `Aggregate` for one MSDU after the other. -/
def aggregateAll (self : WifiMacQueueItem) (msdus : List WifiMacQueueItem) :
    Option WifiMacQueueItem :=
  msdus.foldlM aggregate self

/-- The subframe of an MSDU. -/
def subframe (msdu : WifiMacQueueItem) : List UInt8 := msdu.subframeHeader.serialize ++ msdu.packet

/-- The zeros behind a packet. -/
def paddingOf (packet : List UInt8) : List UInt8 :=
  List.replicate ((4 - packet.length % 4) % 4) 0

/-- The packet of an A-MSDU: all subframes, and padding behind all but the last. -/
def subframes : List WifiMacQueueItem → List UInt8
  | [] => []
  | [msdu] => msdu.subframe
  | msdu :: next :: rest => msdu.subframe ++ paddingOf msdu.subframe ++ subframes (next :: rest)

/-- What is in the A-MSDU of an MSDU. -/
def contents (msdu : WifiMacQueueItem) : List UInt8 × AmsduSubframeHeader :=
  (msdu.packet, msdu.subframeHeader)

theorem length_serialize (hdr : AmsduSubframeHeader) : hdr.serialize.length = 14 := by
  simp [AmsduSubframeHeader.serialize, hdr.da.length_bytes, hdr.sa.length_bytes, length_toBytes]

theorem length_subframe (msdu : WifiMacQueueItem) :
    msdu.subframe.length = 14 + msdu.packet.length := by
  rw [subframe, List.length_append, length_serialize]

theorem calculatePadding_ofNat (size : Nat) :
    calculatePadding (.ofNat size) = (4 - size % 4) % 4 := by
  have same : (UInt16.ofNat size).toNat % 4 = size % 4 := by
    rw [UInt16.toNat_ofNat']
    omega
  rw [calculatePadding, same]

theorem length_paddingOf (packet : List UInt8) :
    (packet.length + (paddingOf packet).length) % 4 = 0 := by
  rw [paddingOf, List.length_replicate]
  omega

/-- Bytes in front that fill up to a multiple of four do not matter. -/
theorem paddingOf_append {aligned : List UInt8} (whole : aligned.length % 4 = 0)
    (packet : List UInt8) : paddingOf (aligned ++ packet) = paddingOf packet := by
  have same : (aligned ++ packet).length % 4 = packet.length % 4 := by
    rw [List.length_append]
    omega
  rw [paddingOf, same, paddingOf]

theorem subframes_concat {msdus : List WifiMacQueueItem} (some : msdus ≠ [])
    (msdu : WifiMacQueueItem) :
    subframes (msdus ++ [msdu]) = subframes msdus ++ paddingOf (subframes msdus) ++ msdu.subframe := by
  induction msdus using subframes.induct with
  | case1 => exact absurd rfl some
  | case2 last => rfl
  | case3 first next rest inductionHypothesis =>
      have whole : (first.subframe ++ paddingOf first.subframe).length % 4 = 0 := by
        rw [List.length_append]
        exact length_paddingOf first.subframe
      have behind := inductionHypothesis (by simp)
      simp only [List.cons_append] at behind ⊢
      rw [subframes, behind, subframes, paddingOf_append whole]
      simp only [List.append_assoc]

theorem length_subframes_pos {msdus : List WifiMacQueueItem} (some : msdus ≠ []) :
    0 < (subframes msdus).length := by
  cases msdus using subframes.induct with
  | case1 => exact absurd rfl some
  | case2 last =>
      rw [subframes, length_subframe]
      omega
  | case3 first next rest =>
      rw [subframes, List.length_append, List.length_append, length_subframe]
      omega

/-- Adding a subframe. -/
theorem doAggregate_packet {self msdu : WifiMacQueueItem} {msdus : List WifiMacQueueItem}
    (before : self.packet = subframes msdus) :
    (self.doAggregate msdu).packet = subframes (msdus ++ [msdu]) := by
  unfold doAggregate
  dsimp only
  by_cases empty : msdus = []
  · subst empty
    rw [before]
    rfl
  · have positive : self.packet.length > 0 := by
      rw [before]
      exact length_subframes_pos empty
    rw [if_pos positive, calculatePadding_ofNat, subframes_concat empty, before]
    rfl

theorem readFrom_append (address : Mac48Address) (rest : List UInt8) :
    AmsduSubframeHeader.readFrom (address.bytes ++ rest) = some (address, rest) := by
  have taken : (address.bytes ++ rest).take 6 = address.bytes :=
    List.take_left' address.length_bytes
  have dropped : (address.bytes ++ rest).drop 6 = rest := List.drop_left' address.length_bytes
  simp only [AmsduSubframeHeader.readFrom, taken, dropped, address.length_bytes, dif_pos]

/-- The header that is removed is the one that was added. -/
theorem removeHeader_append (hdr : AmsduSubframeHeader) (rest : List UInt8) :
    AmsduSubframeHeader.removeHeader (hdr.serialize ++ rest) = some (hdr, rest) := by
  have length : UInt16.ofNat (ofBytes (toBytes 2 hdr.length.toNat)) = hdr.length := by
    rw [ofBytes_toBytes hdr.length.toNat_lt, UInt16.ofNat_toNat]
  simp only [AmsduSubframeHeader.removeHeader, AmsduSubframeHeader.serialize, List.append_assoc,
    readFrom_append, Option.bind_eq_bind, Option.bind_some]
  exact congrArg (fun length => some (AmsduSubframeHeader.mk hdr.da hdr.sa length, rest)) length

/-- One turn of the loop. -/
theorem deaggregateFrom_subframe {msdu : WifiMacQueueItem} (short : msdu.packet.length < 65536)
    {maxSize deserialized : Nat} (more : deserialized < maxSize) (behind : List UInt8) :
    deaggregateFrom maxSize deserialized (msdu.subframe ++ behind) =
      if (paddingOf msdu.subframe).length > 0 ∧
          deserialized + msdu.subframe.length < maxSize then
        (deaggregateFrom maxSize
          (deserialized + msdu.subframe.length + (paddingOf msdu.subframe).length)
          (behind.drop (paddingOf msdu.subframe).length)).map (msdu.contents :: ·)
      else
        (deaggregateFrom maxSize (deserialized + msdu.subframe.length) behind).map
          (msdu.contents :: ·) := by
  have length : msdu.subframeHeader.length.toNat = msdu.packet.length :=
    UInt16.toNat_ofNat_of_lt' short
  have removed := removeHeader_append msdu.subframeHeader (msdu.packet ++ behind)
  have fragment : createFragment (msdu.packet ++ behind) msdu.packet.length = msdu.packet := by
    rw [createFragment, if_pos (by simp), List.take_left]
  rw [subframe, List.append_assoc, deaggregateFrom, if_pos more]
  split
  next none => cases none.symm.trans removed
  next hdr rest isRemoved =>
    cases isRemoved.symm.trans removed
    dsimp only
    rw [← subframe, length, fragment, List.drop_left, paddingOf, List.length_replicate,
      length_subframe, AmsduSubframeHeader.serializedSize, Nat.add_comm 14, Nat.add_assoc deserialized,
      Nat.add_comm (6 + 6 + 2)]
    rfl

/-- The loop reads all subframes, wherever the packet starts. -/
theorem deaggregateFrom_subframes {msdus : List WifiMacQueueItem}
    (short : ∀ msdu ∈ msdus, msdu.packet.length < 65536) {maxSize deserialized : Nat}
    (whole : deserialized + (subframes msdus).length = maxSize) :
    deaggregateFrom maxSize deserialized (subframes msdus) = some (msdus.map contents) := by
  induction msdus using subframes.induct generalizing deserialized with
  | case1 =>
      rw [subframes, List.length_nil] at whole
      rw [deaggregateFrom, if_neg (by omega)]
      rfl
  | case2 last =>
      have turn := @deaggregateFrom_subframe last (short last (by simp)) maxSize deserialized
      have finished : deaggregateFrom maxSize (deserialized + last.subframe.length) [] = some [] := by
        rw [subframes] at whole
        rw [deaggregateFrom, if_neg (by omega)]
      rw [subframes] at whole
      have positive := last.length_subframe
      rw [subframes, ← List.append_nil last.subframe, turn (by omega), if_neg (by omega), finished]
      rfl
  | case3 first next rest inductionHypothesis =>
      have turn := @deaggregateFrom_subframe first (short first (by simp)) maxSize deserialized
      have positive := first.length_subframe
      have nextPositive := @length_subframes_pos (next :: rest) (by simp)
      rw [subframes, List.length_append, List.length_append] at whole
      have behind : deaggregateFrom maxSize
          (deserialized + first.subframe.length + (paddingOf first.subframe).length)
          (subframes (next :: rest)) = some ((next :: rest).map contents) :=
        inductionHypothesis (fun msdu mem => short msdu (List.mem_cons_of_mem first mem))
          (by omega)
      rw [subframes, List.append_assoc, turn (by omega)]
      split
      · rw [List.drop_left, behind]
        rfl
      · next none =>
        have noPadding : (paddingOf first.subframe).length = 0 := by omega
        rw [noPadding, Nat.add_zero] at behind
        rw [List.eq_nil_of_length_eq_zero noPadding, List.nil_append, behind]
        rfl

/-- The item is the A-MSDU of the MSDUs. -/
structure Aggregates (amsdu : WifiMacQueueItem) (msdus : List WifiMacQueueItem) : Prop where
  packet : amsdu.packet = subframes msdus
  msduList : amsdu.msduList = msdus.map contents

/-- The MSDU is in a QoS data frame of its own. -/
def CanAggregate (msdu : WifiMacQueueItem) : Prop :=
  msdu.header.isQosData = true ∧ msdu.header.amsduPresent = false

instance (msdu : WifiMacQueueItem) : Decidable msdu.CanAggregate :=
  inferInstanceAs (Decidable (_ ∧ _))

theorem Aggregates.doAggregate {self msdu : WifiMacQueueItem} {msdus : List WifiMacQueueItem}
    (aggregates : self.Aggregates msdus) : (self.doAggregate msdu).Aggregates (msdus ++ [msdu]) := by
  constructor
  · exact doAggregate_packet aggregates.packet
  · rw [List.map_append, ← aggregates.msduList]
    rfl

/-- The first `Aggregate` makes an A-MSDU of two. -/
theorem aggregate_first {self msdu : WifiMacQueueItem} (single : self.msduList = [])
    (can : msdu.CanAggregate) :
    ∃ amsdu, self.aggregate msdu = some amsdu ∧ amsdu.Aggregates [self, msdu] := by
  have nothing : { self with packet := [] }.Aggregates [] := ⟨rfl, single⟩
  have first : ({ self with packet := [] }.doAggregate self).Aggregates [self] :=
    nothing.doAggregate
  have renamed : { { self with packet := [] }.doAggregate self with
      header := setAmsdu ({ self with packet := [] }.doAggregate self).header }.Aggregates [self] :=
    ⟨first.packet, first.msduList⟩
  refine ⟨_, ?_, renamed.doAggregate⟩
  simp [aggregate, can.1, can.2, single]

theorem aggregate_next {self msdu : WifiMacQueueItem} {msdus : List WifiMacQueueItem}
    (aggregates : self.Aggregates msdus) (some : msdus ≠ []) (can : msdu.CanAggregate) :
    self.aggregate msdu = .some (self.doAggregate msdu) := by
  have several : self.msduList.isEmpty = false := by
    rw [aggregates.msduList, List.isEmpty_eq_false_iff]
    simpa using some
  simp [aggregate, can.1, can.2, several]

/-- The A-MSDU grows by one MSDU after the other. -/
theorem aggregateAll_next {self : WifiMacQueueItem} {msdus : List WifiMacQueueItem}
    (aggregates : self.Aggregates msdus) (some : msdus ≠ []) {more : List WifiMacQueueItem}
    (can : ∀ msdu ∈ more, msdu.CanAggregate) :
    ∃ amsdu, self.aggregateAll more = .some amsdu ∧ amsdu.Aggregates (msdus ++ more) := by
  induction more generalizing self msdus with
  | nil => exact ⟨self, rfl, by rwa [List.append_nil]⟩
  | cons msdu more inductionHypothesis =>
      have next := aggregate_next aggregates some (can msdu List.mem_cons_self)
      obtain ⟨amsdu, isAmsdu, whole⟩ := inductionHypothesis aggregates.doAggregate (by simp)
        (fun other mem => can other (List.mem_cons_of_mem msdu mem))
      refine ⟨amsdu, ?_, ?_⟩
      · rw [aggregateAll, List.foldlM_cons, next]
        exact isAmsdu
      · simpa using whole

theorem aggregateAll_aggregates {self : WifiMacQueueItem} (single : self.msduList = [])
    {more : List WifiMacQueueItem} (several : more ≠ [])
    (can : ∀ msdu ∈ more, msdu.CanAggregate) :
    ∃ amsdu, self.aggregateAll more = some amsdu ∧ amsdu.Aggregates (self :: more) := by
  cases more with
  | nil => exact absurd rfl several
  | cons msdu more =>
      obtain ⟨pair, isPair, aggregates⟩ := aggregate_first single (can msdu List.mem_cons_self)
      obtain ⟨amsdu, isAmsdu, whole⟩ := aggregateAll_next aggregates (by simp)
        (fun other mem => can other (List.mem_cons_of_mem msdu mem))
      refine ⟨amsdu, ?_, whole⟩
      rw [aggregateAll, List.foldlM_cons, isPair]
      exact isAmsdu

/-- `GetSizeIfAggregated` for one MSDU after the other, from an empty A-MSDU. -/
def sizeIfAggregated (msdus : List WifiMacQueueItem) : UInt16 :=
  msdus.foldl (fun size msdu => getSizeIfAggregated (.ofNat msdu.packet.length) size) 0

theorem length_subframes_concat (msdus : List WifiMacQueueItem) (msdu : WifiMacQueueItem) :
    (subframes (msdus ++ [msdu])).length = (subframes msdus).length +
      (4 - (subframes msdus).length % 4) % 4 + 14 + msdu.packet.length := by
  by_cases empty : msdus = []
  · subst empty
    simp [subframes, length_subframe]
  · rw [subframes_concat empty, List.length_append, List.length_append, length_subframe, paddingOf,
      List.length_replicate]
    omega

/-- The size is the one that is told in advance. -/
theorem toNat_sizeIfAggregated (msdus : List WifiMacQueueItem)
    (small : (subframes msdus).length < 65536) :
    (sizeIfAggregated msdus).toNat = (subframes msdus).length := by
  induction msdus using List.reverseRecOn with
  | nil => rfl
  | append_singleton msdus msdu inductionHypothesis =>
      rw [length_subframes_concat] at small ⊢
      have before := inductionHypothesis (by omega)
      have size : sizeIfAggregated (msdus ++ [msdu]) =
          getSizeIfAggregated (.ofNat msdu.packet.length) (sizeIfAggregated msdus) := by
        rw [sizeIfAggregated, List.foldl_append]
        rfl
      rw [size, getSizeIfAggregated, calculatePadding, before]
      simp only [UInt16.toNat_add, UInt16.toNat_ofNat', before, UInt16.reduceToNat]
      omega

theorem length_subframes_le (msdus more : List WifiMacQueueItem) :
    (subframes msdus).length ≤ (subframes (msdus ++ more)).length := by
  induction more generalizing msdus with
  | nil => simp
  | cons msdu more inductionHypothesis =>
      have longer := inductionHypothesis (msdus ++ [msdu])
      rw [length_subframes_concat, List.append_assoc, List.singleton_append] at longer
      omega

theorem length_packet_le {msdus : List WifiMacQueueItem} {msdu : WifiMacQueueItem}
    (mem : msdu ∈ msdus) : msdu.packet.length ≤ (subframes msdus).length := by
  obtain ⟨before, after, rfl⟩ := List.append_of_mem mem
  have longer := length_subframes_le (before ++ [msdu]) after
  rw [length_subframes_concat, List.append_assoc, List.singleton_append] at longer
  omega

/-- An A-MSDU of any MSDUs is taken apart into them, and has the size that was told in advance at
every step. -/
theorem deaggregate_aggregateAll {first : WifiMacQueueItem} (single : first.msduList = [])
    {rest : List WifiMacQueueItem} (several : rest ≠ [])
    (can : ∀ msdu ∈ rest, msdu.CanAggregate) :
    ∃ amsdu, first.aggregateAll rest = some amsdu ∧
      (amsdu.packet.length < 65536 →
        deaggregate amsdu.packet = some ((first :: rest).map contents) ∧
          (∀ msdu ∈ first :: rest, msdu.subframeHeader.length.toNat = msdu.packet.length) ∧
          ∀ part, part ≠ [] → part <+: rest →
            ∃ step, first.aggregateAll part = some step ∧
              step.packet.length = (sizeIfAggregated (first :: part)).toNat) := by
  obtain ⟨amsdu, isAmsdu, aggregates⟩ := aggregateAll_aggregates single several can
  refine ⟨amsdu, isAmsdu, ?_⟩
  rw [aggregates.packet]
  intro small
  have short : ∀ msdu ∈ first :: rest, msdu.packet.length < 65536 :=
    fun msdu mem => Nat.lt_of_le_of_lt (length_packet_le mem) small
  refine ⟨?_, ?_, ?_⟩
  · exact deaggregateFrom_subframes short (Nat.zero_add _)
  · exact fun msdu mem => UInt16.toNat_ofNat_of_lt' (short msdu mem)
  · rintro part some ⟨more, rfl⟩
    obtain ⟨step, isStep, stepAggregates⟩ := aggregateAll_aggregates single some
      (fun msdu mem => can msdu (List.mem_append_left more mem))
    have less := length_subframes_le (first :: part) more
    rw [List.cons_append] at less
    refine ⟨step, isStep, ?_⟩
    rw [stepAggregates.packet, toNat_sizeIfAggregated _ (by omega)]

/-- A QoS data frame to the distribution system. -/
def qosData (packet : List UInt8) : WifiMacQueueItem where
  packet := packet
  header := { WifiMacHeader.plainData with ctrlSubtype := 8, ctrlToDs := true }
  msduList := []

/-- An empty MSDU between two others. -/
theorem deaggregate_aggregateAll_three :
    ∃ amsdu, (qosData [7, 8]).aggregateAll [qosData [], qosData [9]] = some amsdu ∧
      amsdu.packet.length = 47 ∧
      deaggregate amsdu.packet =
        some ([qosData [7, 8], qosData [], qosData [9]].map contents) := by
  have can : ∀ msdu ∈ [qosData [], qosData [9]], msdu.CanAggregate := by decide
  obtain ⟨amsdu, isAmsdu, back⟩ :=
    @deaggregate_aggregateAll (qosData [7, 8]) rfl [qosData [], qosData [9]] (by decide) can
  have length : ((qosData [7, 8]).aggregateAll [qosData [], qosData [9]]).map
      (·.packet.length) = some 47 := by
    decide
  rw [isAmsdu, Option.map_some, Option.some_inj] at length
  exact ⟨amsdu, isAmsdu, length, (back (by omega)).1⟩

end WifiMacQueueItem

end Ns3.Wifi.Aggregation
