import Ns3.SixLowPan.Encoding

/-!
What the receiver finds of a header that `CompressLowPanIphc` has added.

The header is as long as `GetSerializedSize` says, unless a multicast address was compressed
with a context: `Serialize` writes sixteen bytes for it where six were counted, over the first
ten bytes of what follows.
-/

namespace Ns3.SixLowPan

open Library

namespace SixLowPanIphc

theorem length_serialize {self : SixLowPanIphc} (wellFormed : self.WellFormed) :
    self.serialize.length + self.destinationSize =
      self.getSerializedSize + self.destinationWidth := by
  have source : (self.srcInlinePart.take self.sourceSize).length = self.sourceSize := by
    rw [List.length_take, wellFormed.srcInlinePart]
    exact Nat.min_eq_left self.sourceSize_le
  have destination :
      (self.dstInlinePart.take self.destinationWidth).length = self.destinationWidth := by
    rw [List.length_take, wellFormed.dstInlinePart]
    exact Nat.min_eq_left self.destinationWidth_le
  have cid : (if self.getCid then [self.srcdstContextId] else []).length =
      if self.getCid then 1 else 0 := by
    split <;> rfl
  have nh : (if self.getNh then [] else [self.nextHeader]).length =
      if self.getNh then 0 else 1 := by
    split <;> rfl
  have hlim : (if self.getHlim = .hlimInline then [self.hopLimit] else []).length =
      if self.getHlim = .hlimInline then 1 else 0 := by
    split <;> rfl
  have base : (toBytes 2 self.baseFormat.toNat).reverse.length = 2 := by
    rw [List.length_reverse]
    rfl
  unfold serialize getSerializedSize
  simp only [List.length_append, base, cid, nh, hlim, source, destination]
  unfold serializeTf
  cases self.getTf <;> simp only [List.length_cons, List.length_nil] <;> omega

/-- Parts in front of what is read are in front of what was read. -/
theorem padded_take {part : List UInt8} {count : Nat} (inside : part.length ≤ count)
    (rest : List UInt8) : ∃ tail, padded ((part ++ rest).take count) = part ++ tail := by
  unfold padded
  rw [List.take_append, List.take_of_length_le inside, List.append_assoc]
  exact ⟨_, rfl⟩

theorem choices_received (self : SixLowPanIphc) : self.received.choices = self.choices :=
  choices_congr self.baseFormat_received

theorem srcdstContextId_received (self : SixLowPanIphc) :
    self.received.srcdstContextId = if self.getCid then self.srcdstContextId else 0 := by
  unfold received receivedTf
  cases self.getTf <;> rfl

theorem decompressTf_congr {a b : SixLowPanIphc} (tf : a.getTf = b.getTf) (ecn : a.ecn = b.ecn)
    (dscp : a.dscp = b.dscp) (flowLabel : a.flowLabel = b.flowLabel) :
    SixLowPanNetDevice.decompressTf a = SixLowPanNetDevice.decompressTf b := by
  unfold SixLowPanNetDevice.decompressTf
  rw [tf, ecn, dscp, flowLabel]

/-- The receiver has the fields that its mode uses. -/
theorem decompressTf_received (self : SixLowPanIphc) :
    SixLowPanNetDevice.decompressTf self.received = SixLowPanNetDevice.decompressTf self := by
  have same : self.received.getTf = self.getTf := congrArg Choices.tf self.choices_received
  unfold SixLowPanNetDevice.decompressTf
  rw [same]
  unfold received receivedTf
  cases self.getTf <;> rfl

theorem receivedHopLimit_congr {a b : SixLowPanIphc} (hlim : a.getHlim = b.getHlim)
    (hopLimit : a.hopLimit = b.hopLimit) : a.receivedHopLimit = b.receivedHopLimit := by
  unfold receivedHopLimit
  rw [hlim, hopLimit]

end SixLowPanIphc

namespace SixLowPanNetDevice

open SixLowPanIphc

/-- A header to which the two addresses can be added. -/
structure Told (iphcHeader : SixLowPanIphc) (multicast : Bool)
    (source destination : AddressCode) : Prop where
  plain : ∃ tf nh hlim, iphcHeader.choices =
    ⟨tf, nh, hlim, false, false, .hcInline, false, false, .hcInline⟩
  srcdstContextId : iphcHeader.srcdstContextId = 0
  wellFormed : iphcHeader.WellFormed
  sourceLength : source.compressed.inlinePart.length = source.unicastSize
  destinationLength :
    destination.compressed.inlinePart.length = destinationSize multicast destination
  stateful : destination.stateful = true →
    (destination.compressed.mode = .hcInline ↔ multicast = true)

namespace Told

variable {iphcHeader : SixLowPanIphc} {multicast : Bool} {source destination : AddressCode}

/-- The bytes of the packet that the header overwrites. -/
def excess (multicast : Bool) (destination : AddressCode) : Nat :=
  if multicast && destination.stateful then 10 else 0

theorem encoded_eq (iphcHeader : SixLowPanIphc) (multicast : Bool)
    (source destination : AddressCode) :
    encoded iphcHeader multicast source destination =
      { iphcHeader with
        baseFormat := (encoded iphcHeader multicast source destination).baseFormat
        srcdstContextId := iphcHeader.srcdstContextId ||| source.number <<< 4 |||
          (destination.number &&& 0xF)
        srcInlinePart := source.compressed.inlinePart ++
          iphcHeader.srcInlinePart.drop source.compressed.inlinePart.length
        dstInlinePart := destination.compressed.inlinePart ++
          iphcHeader.dstInlinePart.drop destination.compressed.inlinePart.length } := by
  unfold encoded
  rw [withDestination_eq, withSource_eq]
  rfl

theorem unicastSize_le (code : AddressCode) : code.unicastSize ≤ 16 := by
  unfold AddressCode.unicastSize
  cases code.stateful <;> cases code.compressed.mode <;> decide

theorem destinationSize_le (multicast : Bool) (code : AddressCode) :
    SixLowPanNetDevice.destinationSize multicast code ≤ 16 := by
  unfold SixLowPanNetDevice.destinationSize AddressCode.multicastSize AddressCode.unicastSize
  cases multicast <;> cases code.stateful <;> cases code.compressed.mode <;> decide

theorem wellFormed_encoded (told : Told iphcHeader multicast source destination) :
    (encoded iphcHeader multicast source destination).WellFormed := by
  have sourceSize := unicastSize_le source
  have destinationSize := destinationSize_le multicast destination
  rw [encoded_eq]
  constructor
  · exact told.wellFormed.ecn
  · exact told.wellFormed.dscp
  · rw [List.length_append, List.length_drop, told.wellFormed.srcInlinePart, told.sourceLength]
    omega
  · rw [List.length_append, List.length_drop, told.wellFormed.dstInlinePart, told.destinationLength]
    omega

theorem choices_encoded (told : Told iphcHeader multicast source destination) :
    ∃ tf nh hlim, (encoded iphcHeader multicast source destination).choices =
      ⟨tf, nh, hlim, decide (source.context ≠ 0) || decide (destination.context ≠ 0),
        source.stateful, source.compressed.mode, multicast, destination.stateful,
        destination.compressed.mode⟩ := by
  obtain ⟨tf, nh, hlim, plain⟩ := told.plain
  exact ⟨tf, nh, hlim, SixLowPanNetDevice.choices_encoded plain multicast source destination⟩

theorem getCid_encoded (told : Told iphcHeader multicast source destination) :
    (encoded iphcHeader multicast source destination).getCid =
      (decide (source.context ≠ 0) || decide (destination.context ≠ 0)) := by
  obtain ⟨_, _, _, choices⟩ := told.choices_encoded
  exact congrArg Choices.cid choices

theorem getSac_encoded (told : Told iphcHeader multicast source destination) :
    (encoded iphcHeader multicast source destination).getSac = source.stateful := by
  obtain ⟨_, _, _, choices⟩ := told.choices_encoded
  exact congrArg Choices.sac choices

theorem getSam_encoded (told : Told iphcHeader multicast source destination) :
    (encoded iphcHeader multicast source destination).getSam = source.compressed.mode := by
  obtain ⟨_, _, _, choices⟩ := told.choices_encoded
  exact congrArg Choices.sam choices

theorem getM_encoded (told : Told iphcHeader multicast source destination) :
    (encoded iphcHeader multicast source destination).getM = multicast := by
  obtain ⟨_, _, _, choices⟩ := told.choices_encoded
  exact congrArg Choices.m choices

theorem getDac_encoded (told : Told iphcHeader multicast source destination) :
    (encoded iphcHeader multicast source destination).getDac = destination.stateful := by
  obtain ⟨_, _, _, choices⟩ := told.choices_encoded
  exact congrArg Choices.dac choices

theorem getDam_encoded (told : Told iphcHeader multicast source destination) :
    (encoded iphcHeader multicast source destination).getDam = destination.compressed.mode := by
  obtain ⟨_, _, _, choices⟩ := told.choices_encoded
  exact congrArg Choices.dam choices

theorem sourceSize_encoded (told : Told iphcHeader multicast source destination) :
    (encoded iphcHeader multicast source destination).sourceSize =
      source.compressed.inlinePart.length := by
  rw [told.sourceLength]
  unfold SixLowPanIphc.sourceSize AddressCode.unicastSize
  rw [told.getSac_encoded, told.getSam_encoded]
  all_goals cases source.compressed.mode <;> rfl

theorem destinationSize_encoded (told : Told iphcHeader multicast source destination) :
    (encoded iphcHeader multicast source destination).destinationSize =
      destination.compressed.inlinePart.length := by
  rw [told.destinationLength]
  unfold SixLowPanIphc.destinationSize SixLowPanNetDevice.destinationSize
    AddressCode.multicastSize AddressCode.unicastSize
  rw [told.getM_encoded, told.getDac_encoded, told.getDam_encoded]
  all_goals cases destination.compressed.mode <;> rfl

theorem destinationWidth_encoded (told : Told iphcHeader multicast source destination) :
    (encoded iphcHeader multicast source destination).destinationWidth =
      destination.compressed.inlinePart.length + excess multicast destination := by
  have stateful := told.stateful
  rw [told.destinationLength]
  unfold SixLowPanIphc.destinationWidth SixLowPanNetDevice.destinationSize
    AddressCode.multicastSize AddressCode.unicastSize excess
  rw [told.getM_encoded, told.getDam_encoded]
  cases multicast <;> cases isStateful : destination.stateful <;>
    cases mode : destination.compressed.mode <;> simp_all

theorem length_serialize_encoded (told : Told iphcHeader multicast source destination) :
    (encoded iphcHeader multicast source destination).serialize.length =
      (encoded iphcHeader multicast source destination).getSerializedSize +
        excess multicast destination := by
  have length := length_serialize told.wellFormed_encoded
  rw [told.destinationSize_encoded, told.destinationWidth_encoded] at length
  omega

/-- The receiver finds the inline part of the source. -/
theorem srcInlinePart_received (told : Told iphcHeader multicast source destination) :
    ∃ tail, (encoded iphcHeader multicast source destination).received.srcInlinePart =
      source.compressed.inlinePart ++ tail := by
  have part : (encoded iphcHeader multicast source destination).srcInlinePart =
      source.compressed.inlinePart ++
        iphcHeader.srcInlinePart.drop source.compressed.inlinePart.length := by
    rw [encoded_eq]
  obtain ⟨tail, read⟩ := padded_take (Nat.le_of_eq told.sourceSize_encoded.symm)
    (iphcHeader.srcInlinePart.drop source.compressed.inlinePart.length)
  refine ⟨tail, ?_⟩
  rw [← read, ← part]
  rfl

theorem dstInlinePart_received (told : Told iphcHeader multicast source destination) :
    ∃ tail, (encoded iphcHeader multicast source destination).received.dstInlinePart =
      destination.compressed.inlinePart ++ tail := by
  have part : (encoded iphcHeader multicast source destination).dstInlinePart =
      destination.compressed.inlinePart ++
        iphcHeader.dstInlinePart.drop destination.compressed.inlinePart.length := by
    rw [encoded_eq]
  have inside : destination.compressed.inlinePart.length ≤
      (encoded iphcHeader multicast source destination).destinationWidth := by
    rw [told.destinationWidth_encoded]
    exact Nat.le_add_right _ _
  obtain ⟨tail, read⟩ := padded_take inside
    (iphcHeader.dstInlinePart.drop destination.compressed.inlinePart.length)
  refine ⟨tail, ?_⟩
  rw [← read, ← part]
  rfl

/-- The two numbers in one byte. -/
theorem contexts_of_byte (source destination : AddressCode) :
    (source.number <<< 4 ||| (destination.number &&& 0xF)) >>> 4 = source.number ∧
      (source.number <<< 4 ||| (destination.number &&& 0xF)) &&& 0xF = destination.number := by
  have all : ∀ a b : Fin 16,
      (UInt8.ofNat a <<< 4 ||| (UInt8.ofNat b &&& 0xF)) >>> 4 = UInt8.ofNat a ∧
        (UInt8.ofNat a <<< 4 ||| (UInt8.ofNat b &&& 0xF)) &&& 0xF = UInt8.ofNat b := by
    decide
  exact all source.context destination.context

/-- The receiver finds the contexts, the default one where there is none in the packet. -/
theorem contexts_received (told : Told iphcHeader multicast source destination) :
    (encoded iphcHeader multicast source destination).received.getSrcContextId = source.number ∧
      (encoded iphcHeader multicast source destination).received.getDstContextId =
        destination.number := by
  have byte : (encoded iphcHeader multicast source destination).srcdstContextId =
      source.number <<< 4 ||| (destination.number &&& 0xF) := by
    rw [encoded_eq, told.srcdstContextId, UInt8.zero_or]
  unfold getSrcContextId getDstContextId
  rw [srcdstContextId_received, told.getCid_encoded, byte]
  by_cases elided : source.context = 0 ∧ destination.context = 0
  · have sourceZero := AddressCode.number_eq_zero.mpr elided.1
    have destinationZero := AddressCode.number_eq_zero.mpr elided.2
    rw [sourceZero, destinationZero]
    simp [elided.1, elided.2]
  · have present : (decide (source.context ≠ 0) || decide (destination.context ≠ 0)) = true := by
      by_contra absent
      simp at absent
      exact elided absent
    rw [present, if_pos rfl]
    exact contexts_of_byte source destination

theorem addHeader_encoded (told : Told iphcHeader multicast source destination)
    (rest : List UInt8) :
    (encoded iphcHeader multicast source destination).addHeader rest =
      if excess multicast destination ≤ rest.length then
        some ((encoded iphcHeader multicast source destination).serialize ++
          rest.drop (excess multicast destination))
      else none := by
  unfold addHeader
  rw [told.length_serialize_encoded, Nat.add_sub_cancel_left]

theorem removeHeader_encoded (told : Told iphcHeader multicast source destination)
    (rest : List UInt8) :
    removeHeader ((encoded iphcHeader multicast source destination).serialize ++ rest) =
      some ((encoded iphcHeader multicast source destination).received,
        ((encoded iphcHeader multicast source destination).serialize ++ rest).drop
          (encoded iphcHeader multicast source destination).getSerializedSize) := by
  unfold removeHeader
  rw [deserialize_append told.wellFormed_encoded, Option.map_some,
    getSerializedSize_congr (baseFormat_received _)]

end Told

/-- A unicast address from its code. -/
def decodeUnicast (self : SixLowPanNetDevice) (code : AddressCode) (tail : List UInt8)
    (link : LinkAddress) : Except Failure Ipv6Address :=
  if code.stateful then do
    let contextPrefix ← self.namedContext code.number
    decompressStateful code.compressed.mode (code.compressed.inlinePart ++ tail) link
      contextPrefix
  else decompressStateless code.compressed.mode (code.compressed.inlinePart ++ tail) link

/-- A source address from its code. -/
def decodeSource (self : SixLowPanNetDevice) (code : AddressCode) (tail : List UInt8)
    (link : LinkAddress) : Except Failure Ipv6Address :=
  if code.stateful ∧ code.compressed.mode = .hcInline then .ok Ipv6Address.any
  else self.decodeUnicast code tail link

/-- A multicast address from its code. -/
def decodeMulticast (self : SixLowPanNetDevice) (code : AddressCode) (tail : List UInt8) :
    Except Failure Ipv6Address :=
  let inlinePart := code.compressed.inlinePart ++ tail
  if code.stateful then do
    let contextPrefix ← self.namedContext code.number
    toAddress (0xff :: inlinePart.take 2 ++
      UInt8.ofNat contextPrefix.prefixLength :: contextPrefix.bytes.take 8 ++
      (inlinePart.drop 2).take 4)
  else decompressMulticast code.compressed.mode inlinePart

/-- A destination address from its code. -/
def decodeDestination (self : SixLowPanNetDevice) (multicast : Bool) (code : AddressCode)
    (tail : List UInt8) (link : LinkAddress) : Except Failure Ipv6Address :=
  if multicast then self.decodeMulticast code tail else self.decodeUnicast code tail link

namespace Told

variable {iphcHeader : SixLowPanIphc} {multicast : Bool} {source destination : AddressCode}

/-- The source address only depends on its code. -/
theorem decompressSource_received (told : Told iphcHeader multicast source destination)
    (self : SixLowPanNetDevice) (src : LinkAddress) :
    ∃ tail, self.decompressSource
        (encoded iphcHeader multicast source destination).received src =
      self.decodeSource source tail src := by
  obtain ⟨tail, part⟩ := told.srcInlinePart_received
  have choices := choices_received (encoded iphcHeader multicast source destination)
  have sac := (congrArg Choices.sac choices).trans told.getSac_encoded
  have sam := (congrArg Choices.sam choices).trans told.getSam_encoded
  dsimp only [SixLowPanIphc.choices] at sac sam
  refine ⟨tail, ?_⟩
  unfold decompressSource decodeSource decodeUnicast
  rw [sac, sam, part, told.contexts_received.1]
  cases source.stateful <;> simp

theorem decompressDestination_received (told : Told iphcHeader multicast source destination)
    (self : SixLowPanNetDevice) (dst : LinkAddress) :
    ∃ tail, self.decompressDestination
        (encoded iphcHeader multicast source destination).received dst =
      self.decodeDestination multicast destination tail dst := by
  obtain ⟨tail, part⟩ := told.dstInlinePart_received
  have choices := choices_received (encoded iphcHeader multicast source destination)
  have m := (congrArg Choices.m choices).trans told.getM_encoded
  have dac := (congrArg Choices.dac choices).trans told.getDac_encoded
  have dam := (congrArg Choices.dam choices).trans told.getDam_encoded
  dsimp only [SixLowPanIphc.choices] at m dac dam
  refine ⟨tail, ?_⟩
  have stateful := told.stateful
  unfold decompressDestination decodeDestination decodeUnicast decodeMulticast
  rw [m, dac, dam, part, told.contexts_received.2]
  cases isStateful : destination.stateful with
  | false => cases multicast <;> simp
  | true =>
      have mode := stateful isStateful
      cases multicast with
      | false => simp_all
      | true => simp_all

end Told

theorem compressNh_eq (self : SixLowPanNetDevice) (nextHeader : UInt8) (payload : List UInt8)
    (src dst : LinkAddress) (iphcHeader : SixLowPanIphc) :
    (self.compressNh nextHeader payload src dst iphcHeader).1 =
      { iphcHeader with
        baseFormat := (self.compressNh nextHeader payload src dst iphcHeader).1.baseFormat
        nextHeader := (self.compressNh nextHeader payload src dst iphcHeader).1.nextHeader } := by
  unfold compressNh
  split
  · split <;> rfl
  · rfl

theorem compressHlim_eq (hopLimit : UInt8) (iphcHeader : SixLowPanIphc) :
    compressHlim hopLimit iphcHeader =
      { iphcHeader with
        baseFormat := (compressHlim hopLimit iphcHeader).baseFormat
        hopLimit := (compressHlim hopLimit iphcHeader).hopLimit } := by
  unfold compressHlim
  split
  · rfl
  · split
    · rfl
    · split <;> rfl

theorem compressTf_eq (ipHeader : Ipv6Header) (iphcHeader : SixLowPanIphc) :
    compressTf ipHeader iphcHeader =
      { iphcHeader with
        baseFormat := (compressTf ipHeader iphcHeader).baseFormat
        ecn := (compressTf ipHeader iphcHeader).ecn
        dscp := (compressTf ipHeader iphcHeader).dscp
        flowLabel := (compressTf ipHeader iphcHeader).flowLabel } := by
  unfold compressTf
  split
  · rfl
  · split
    · rfl
    · split <;> rfl

/-- What the parts before the addresses change. -/
theorem prepared_eq (self : SixLowPanNetDevice) (ipHeader : Ipv6Header) (payload : List UInt8)
    (src dst : LinkAddress) :
    self.prepared ipHeader payload src dst =
      { create self.srcGarbage self.dstGarbage with
        baseFormat := (self.prepared ipHeader payload src dst).baseFormat
        ecn := (compressTf ipHeader (.create self.srcGarbage self.dstGarbage)).ecn
        dscp := (compressTf ipHeader (.create self.srcGarbage self.dstGarbage)).dscp
        flowLabel := (compressTf ipHeader (.create self.srcGarbage self.dstGarbage)).flowLabel
        nextHeader := (self.prepared ipHeader payload src dst).nextHeader
        hopLimit := (self.prepared ipHeader payload src dst).hopLimit } := by
  unfold prepared
  rw [compressHlim_eq, compressNh_eq, compressTf_eq]
  rfl

theorem ecn_lt (trafficClass : UInt8) : (trafficClass &&& 0xC0) >>> 6 < 4 := by
  have all : ∀ byte : Fin 256, (UInt8.ofNat byte &&& 0xC0) >>> 6 < 4 := by decide +kernel
  have result := all ⟨trafficClass.toNat, trafficClass.toNat_lt⟩
  simpa using result

theorem dscp_lt (trafficClass : UInt8) : trafficClass &&& 0x3F < 64 := by
  have all : ∀ byte : Fin 256, UInt8.ofNat byte &&& 0x3F < 64 := by decide +kernel
  have result := all ⟨trafficClass.toNat, trafficClass.toNat_lt⟩
  simpa using result

theorem ecn_compressTf (ipHeader : Ipv6Header) {iphcHeader : SixLowPanIphc}
    (small : iphcHeader.ecn < 4) : (compressTf ipHeader iphcHeader).ecn < 4 := by
  have ecn := ecn_lt ipHeader.trafficClass
  unfold compressTf
  split
  · exact small
  · split
    · exact ecn
    · split
      · exact ecn
      · exact ecn

theorem dscp_compressTf (ipHeader : Ipv6Header) {iphcHeader : SixLowPanIphc}
    (small : iphcHeader.dscp < 64) : (compressTf ipHeader iphcHeader).dscp < 64 := by
  have dscp := dscp_lt ipHeader.trafficClass
  unfold compressTf
  split
  · exact small
  · split
    · exact dscp
    · split
      · exact dscp
      · exact small

theorem wellFormed_prepared (self : SixLowPanNetDevice) (ipHeader : Ipv6Header)
    (payload : List UInt8) (src dst : LinkAddress) :
    (self.prepared ipHeader payload src dst).WellFormed := by
  have ecn : (0 : UInt8) < 4 := by decide
  have dscp : (0 : UInt8) < 64 := by decide
  rw [prepared_eq]
  constructor
  · exact ecn_compressTf ipHeader ecn
  · exact dscp_compressTf ipHeader dscp
  · exact self.length_srcGarbage
  · exact self.length_dstGarbage

/-- With a context, exactly a multicast address is told in full. -/
theorem mode_destinationCode {self : SixLowPanNetDevice} {address : Ipv6Address}
    {link : LinkAddress} {code : AddressCode}
    (told : self.destinationCode address link = .ok code) (stateful : code.stateful = true) :
    code.compressed.mode = .hcInline ↔ address.isMulticast = true := by
  unfold destinationCode at told
  cases multicast : address.isMulticast with
  | true =>
      rw [multicast, if_pos rfl] at told
      cases told
      unfold multicastCode at stateful ⊢
      split at stateful
      · simp
      · cases stateful
  | false =>
      rw [multicast] at told
      simpa using mode_unicastCode told stateful

/-- The header before the addresses and the codes of the addresses fit together. -/
theorem told_prepared {self : SixLowPanNetDevice} {ipHeader : Ipv6Header} {src dst : LinkAddress}
    {source destination : AddressCode} (payload : List UInt8)
    (isSource : self.sourceCode ipHeader.sourceAddress src = .ok source)
    (isDestination : self.destinationCode ipHeader.destinationAddress dst = .ok destination) :
    Told (self.prepared ipHeader payload src dst) ipHeader.destinationAddress.isMulticast source
      destination := by
  constructor
  · exact ⟨_, _, _, self.choices_prepared ipHeader payload src dst⟩
  · rw [prepared_eq]
    rfl
  · exact self.wellFormed_prepared ipHeader payload src dst
  · exact length_sourceCode isSource
  · exact length_destinationCode isDestination
  · exact mode_destinationCode isDestination

variable (self : SixLowPanNetDevice) (ipHeader : Ipv6Header) (payload : List UInt8)
  (src dst : LinkAddress) (multicast : Bool) (source destination : AddressCode)

/-- The traffic class and the flow label come from the part that compresses them. -/
theorem decompressTf_encoded :
    decompressTf
        (encoded (self.prepared ipHeader payload src dst) multicast source destination).received =
      decompressTf (compressTf ipHeader (.create self.srcGarbage self.dstGarbage)) := by
  have choices := choices_encoded (self.choices_prepared ipHeader payload src dst) multicast
    source destination
  rw [decompressTf_received]
  apply decompressTf_congr (congrArg Choices.tf choices)
  · rw [Told.encoded_eq, prepared_eq]
  · rw [Told.encoded_eq, prepared_eq]
  · rw [Told.encoded_eq, prepared_eq]

theorem receivedHopLimit_compressHlim (hopLimit : UInt8) {iphcHeader : SixLowPanIphc}
    (clear : iphcHeader.getHlim = .hlimInline) :
    (compressHlim hopLimit iphcHeader).receivedHopLimit = hopLimit := by
  have set (field : Hlim) : (iphcHeader.setHlim field).getHlim = field :=
    congrArg Choices.hlim (choices_setHlim clear field)
  unfold compressHlim
  split
  · next one =>
    unfold receivedHopLimit
    rw [set, one]
  · split
    · next sixtyFour =>
      unfold receivedHopLimit
      rw [set, sixtyFour]
    · split
      · next most =>
        unfold receivedHopLimit
        rw [set, most]
      · have inline : ({ iphcHeader.setHlim .hlimInline with hopLimit := hopLimit } :
            SixLowPanIphc).getHlim = .hlimInline :=
          set .hlimInline
        unfold receivedHopLimit
        rw [inline]

theorem hopLimit_encoded :
    (encoded (self.prepared ipHeader payload src dst) multicast source destination).received.hopLimit =
      ipHeader.hopLimit := by
  have choices := choices_encoded (self.choices_prepared ipHeader payload src dst) multicast
    source destination
  obtain ⟨tf, isTf⟩ := choices_compressTf ipHeader self.srcGarbage self.dstGarbage
  obtain ⟨nh, isNh⟩ := self.choices_compressNh ipHeader.nextHeader payload src dst
    (compressTf ipHeader (.create self.srcGarbage self.dstGarbage))
  rw [isTf, choices_create] at isNh
  have same : (encoded (self.prepared ipHeader payload src dst) multicast source
      destination).hopLimit = (self.prepared ipHeader payload src dst).hopLimit := by
    rw [Told.encoded_eq]
  exact (receivedHopLimit_congr (congrArg Choices.hlim choices) same).trans
    (receivedHopLimit_compressHlim ipHeader.hopLimit (congrArg Choices.hlim isNh))

/-- The header tells whether the next one is compressed. -/
theorem getNh_encoded :
    (encoded (self.prepared ipHeader payload src dst) multicast source
        destination).received.getNh =
      (canCompressLowPanNhc ipHeader.nextHeader &&
        (self.nextHeaders.compress ipHeader.nextHeader payload src dst).isSome) := by
  have choices := choices_encoded (self.choices_prepared ipHeader payload src dst) multicast
    source destination
  obtain ⟨tf, isTf⟩ := choices_compressTf ipHeader self.srcGarbage self.dstGarbage
  have set (field : Bool) :
      ((compressTf ipHeader (.create self.srcGarbage self.dstGarbage)).setNh field).getNh =
        field := by
    have same := choices_setNh (compressTf ipHeader (.create self.srcGarbage self.dstGarbage)) field
    rw [isTf, choices_create] at same
    exact congrArg Choices.nh same
  have same := (congrArg Choices.nh (choices_received _)).trans (congrArg Choices.nh choices)
  refine same.trans ?_
  unfold compressNh
  cases canCompressLowPanNhc ipHeader.nextHeader with
  | false => exact set false
  | true =>
      cases self.nextHeaders.compress ipHeader.nextHeader payload src dst with
      | none => exact set false
      | some compressed => exact set true

/-- A next header that is not compressed is in the header. -/
theorem nextHeader_encoded
    (plain : (encoded (self.prepared ipHeader payload src dst) multicast source
      destination).received.getNh = false) :
    (encoded (self.prepared ipHeader payload src dst) multicast source
      destination).received.nextHeader = ipHeader.nextHeader := by
  have whole : (canCompressLowPanNhc ipHeader.nextHeader &&
      (self.nextHeaders.compress ipHeader.nextHeader payload src dst).isSome) = false :=
    (self.getNh_encoded ipHeader payload src dst multicast source destination).symm.trans plain
  have next : (encoded (self.prepared ipHeader payload src dst) multicast source
      destination).nextHeader = ipHeader.nextHeader := by
    rw [Told.encoded_eq]
    dsimp only
    unfold prepared
    rw [compressHlim_eq]
    unfold compressNh
    cases allowed : canCompressLowPanNhc ipHeader.nextHeader with
    | false => rfl
    | true =>
        rw [allowed, Bool.true_and, Option.isSome_eq_false_iff, Option.isNone_iff_eq_none] at whole
        rw [whole]
        rfl
  have nh : (encoded (self.prepared ipHeader payload src dst) multicast source
      destination).getNh = false :=
    (congrArg Choices.nh (choices_received _)).symm.trans plain
  unfold received
  dsimp only
  rw [nh]
  exact next

theorem decompressNh_encoded (other : canCompressLowPanNhc ipHeader.nextHeader = false)
    (rest : List UInt8) (sourceAddress destinationAddress : Ipv6Address) :
    self.decompressNh
        (encoded (self.prepared ipHeader payload src dst) multicast source destination).received
        rest src dst sourceAddress destinationAddress =
      .ok (ipHeader.nextHeader, rest) := by
  have plain := self.getNh_encoded ipHeader payload src dst multicast source destination
  rw [other, Bool.false_and] at plain
  unfold decompressNh
  rw [plain, self.nextHeader_encoded ipHeader payload src dst multicast source destination plain]
  rfl

end SixLowPanNetDevice

end Ns3.SixLowPan
