import Ns3.SixLowPan.Decoding

/-!
Compression without contexts.

Every encoding of an address leaves out bytes that its test has seen. The flow label does not
reach the compression: `Ipv6Header::Deserialize` keeps the wrong bits of the first word.
-/

namespace Ns3.SixLowPan

open Library

namespace Ipv6Header

theorem vTcFl_shiftRight (self : Ipv6Header) : self.vTcFl >>> 28 = 6 := by
  apply BitVec.eq_of_getLsbD_eq
  intro i small
  have version : ∀ j : Fin 32, ((6 : BitVec 32) <<< 28).getLsbD (28 + j) =
      (6 : BitVec 32).getLsbD j := by decide
  unfold vTcFl
  rw [BitVec.getLsbD_ushiftRight, BitVec.getLsbD_or, BitVec.getLsbD_or, version ⟨i, small⟩,
    BitVec.getLsbD_shiftLeft, BitVec.getLsbD_setWidth, BitVec.getLsbD_setWidth,
    BitVec.getLsbD_of_ge self.trafficClass.toBitVec _ (by omega),
    BitVec.getLsbD_of_ge self.flowLabel _ (by omega)]
  simp

theorem vTcFl_trafficClass (self : Ipv6Header) :
    UInt8.ofBitVec ((self.vTcFl >>> 20).setWidth 8) = self.trafficClass := by
  have bits : (self.vTcFl >>> 20).setWidth 8 = self.trafficClass.toBitVec := by
    apply BitVec.eq_of_getLsbD_eq
    intro i small
    have version : ∀ j : Fin 8, ((6 : BitVec 32) <<< 28).getLsbD (20 + j) = false := by decide
    unfold vTcFl
    rw [BitVec.getLsbD_setWidth, BitVec.getLsbD_ushiftRight, BitVec.getLsbD_or,
      BitVec.getLsbD_or, version ⟨i, small⟩, BitVec.getLsbD_shiftLeft, BitVec.getLsbD_setWidth,
      BitVec.getLsbD_setWidth, BitVec.getLsbD_of_ge self.flowLabel _ (by omega)]
    have inside : 20 + i < 32 := by omega
    have behind : 20 + i - 20 = i := by omega
    have word : i < 32 := by omega
    simp [small, inside, behind, word]
  rw [bits]

/-- The mask leaves nothing of the flow label. -/
theorem vTcFl_flowLabel (self : Ipv6Header) :
    (self.vTcFl &&& 0xfff00000).setWidth 20 = 0 := by
  apply BitVec.eq_of_getLsbD_eq
  intro i small
  have mask : ∀ j : Fin 20, (0xfff00000 : BitVec 32).getLsbD j = false := by decide
  rw [BitVec.getLsbD_setWidth, BitVec.getLsbD_and, mask ⟨i, small⟩]
  simp

theorem readFrom_append (address : Ipv6Address) (rest : List UInt8) :
    readFrom (address.bytes ++ rest) = some address := by
  have part : (address.bytes ++ rest).take 16 = address.bytes :=
    List.take_left' address.length_bytes
  unfold readFrom
  simp only [part, address.length_bytes, dif_pos]

/-- The words of a header, and what is behind them. -/
theorem deserialize_words (vTcFl payloadLength : Nat) (next limit : UInt8)
    (rest : List UInt8) :
    deserialize ((toBytes 4 vTcFl).reverse ++ ((toBytes 2 payloadLength).reverse ++
        (next :: limit :: rest))) = (do
      let word := BitVec.ofNat 32 (ofBytes (toBytes 4 vTcFl))
      let source ← readFrom rest
      let destination ← readFrom (rest.drop 16)
      if word >>> 28 = 6 then
        pure
          { trafficClass := .ofBitVec ((word >>> 20).setWidth 8)
            flowLabel := (word &&& 0xfff00000).setWidth 20
            payloadLength := .ofNat (ofBytes (toBytes 2 payloadLength))
            nextHeader := next
            hopLimit := limit
            sourceAddress := source
            destinationAddress := destination }
      else none) :=
  rfl

/-- The header that the compression sees. -/
theorem deserialize_serialize (self : Ipv6Header) (payload : List UInt8) :
    deserialize (self.serialize ++ payload) = some { self with flowLabel := 0 } := by
  have word : BitVec.ofNat 32 (ofBytes (toBytes 4 self.vTcFl.toNat)) = self.vTcFl := by
    rw [ofBytes_toBytes self.vTcFl.isLt, BitVec.ofNat_toNat, BitVec.setWidth_eq]
  have length : UInt16.ofNat (ofBytes (toBytes 2 self.payloadLength.toNat)) =
      self.payloadLength := by
    rw [ofBytes_toBytes self.payloadLength.toNat_lt, UInt16.ofNat_toNat]
  have behind : (self.sourceAddress.bytes ++ (self.destinationAddress.bytes ++ payload)).drop 16 =
      self.destinationAddress.bytes ++ payload :=
    List.drop_left' self.sourceAddress.length_bytes
  have bytes : self.serialize ++ payload =
      (toBytes 4 self.vTcFl.toNat).reverse ++ ((toBytes 2 self.payloadLength.toNat).reverse ++
        (self.nextHeader :: self.hopLimit ::
          (self.sourceAddress.bytes ++ (self.destinationAddress.bytes ++ payload)))) := by
    simp [serialize]
  rw [bytes, deserialize_words, word, length, behind]
  simp only [readFrom_append, vTcFl_shiftRight, vTcFl_trafficClass, vTcFl_flowLabel]
  rfl

@[simp]
theorem length_serialize (self : Ipv6Header) : self.serialize.length = serializedSize := by
  simp [serialize, self.sourceAddress.length_bytes, self.destinationAddress.length_bytes,
    serializedSize]

theorem vTcFl_setWidth (self : Ipv6Header) : self.vTcFl.setWidth 20 = self.flowLabel := by
  apply BitVec.eq_of_getLsbD_eq
  intro i small
  have version : ∀ j : Fin 20, ((6 : BitVec 32) <<< 28).getLsbD j = false := by decide
  unfold vTcFl
  rw [BitVec.getLsbD_setWidth, BitVec.getLsbD_or, BitVec.getLsbD_or, version ⟨i, small⟩,
    BitVec.getLsbD_shiftLeft, BitVec.getLsbD_setWidth]
  have word : i < 32 := by omega
  simp [small, word]

/-- The flow label is in the bytes although `Deserialize` does not find it. -/
theorem flowLabel_of_serialize {a b : Ipv6Header} (same : a.serialize = b.serialize) :
    a.flowLabel = b.flowLabel := by
  have words : (toBytes 4 a.vTcFl.toNat).reverse = (toBytes 4 b.vTcFl.toNat).reverse :=
    List.append_inj_left same (by simp)
  have small : a.vTcFl.toNat < 256 ^ 4 := a.vTcFl.isLt
  have numbers : a.vTcFl.toNat = b.vTcFl.toNat := by
    rw [← ofBytes_toBytes small, List.reverse_inj.mp words, ofBytes_toBytes b.vTcFl.isLt]
  rw [← vTcFl_setWidth, ← vTcFl_setWidth, BitVec.eq_of_toNat_eq numbers]

/-- Headers with the same bytes. -/
theorem serialize_inj {a b : Ipv6Header} (same : a.serialize = b.serialize) : a = b := by
  have flow := flowLabel_of_serialize same
  have read := a.deserialize_serialize []
  rw [same, b.deserialize_serialize, Option.some_inj] at read
  cases a
  cases b
  simp only [Ipv6Header.mk.injEq] at read flow ⊢
  simp [read, flow]

end Ipv6Header

namespace SixLowPanNetDevice

theorem ok_bind {α β : Type} (value : α) (next : α → Except Failure β) :
    (Except.ok value >>= next) = next value :=
  rfl

theorem toAddress_bytes (address : Ipv6Address) : toAddress address.bytes = .ok address := by
  unfold toAddress
  rw [dif_pos address.length_bytes]

/-- The stateless encoding of a unicast address keeps it. -/
theorem decompressStateless_compressStateless (address : Ipv6Address) (link : LinkAddress)
    (tail : List UInt8) :
    decompressStateless (compressStateless address link).mode
      ((compressStateless address link).inlinePart ++ tail) link = .ok address := by
  unfold compressStateless
  split
  · next configured => exact congrArg Except.ok configured.symm
  · split
    · next short =>
      have part : (address.bytes.drop 14 ++ tail).take 2 = address.bytes.drop 14 :=
        List.take_left' (by rw [List.length_drop, address.length_bytes])
      unfold decompressStateless
      dsimp only
      rw [part, ← short, List.take_append_drop, toAddress_bytes]
    · split
      · next linkLocal =>
        have part : (address.bytes.drop 8 ++ tail).take 8 = address.bytes.drop 8 :=
          List.take_left' (by rw [List.length_drop, address.length_bytes])
        have half := (Ipv6Address.isLinkLocal_iff address).mp linkLocal
        unfold decompressStateless
        dsimp only
        rw [part, ← half, List.take_append_drop, toAddress_bytes]
      · have part : (address.bytes ++ tail).take 16 = address.bytes :=
          List.take_left' address.length_bytes
        unfold decompressStateless
        dsimp only
        rw [part, toAddress_bytes]

/-- The stateless encoding of a multicast address keeps it. -/
theorem decompressMulticast_compressMulticast {address : Ipv6Address}
    (multicast : address.isMulticast = true) (tail : List UInt8) :
    decompressMulticast (compressMulticast address).mode
      ((compressMulticast address).inlinePart ++ tail) = .ok address := by
  obtain ⟨bytes, whole⟩ := address
  match bytes, whole with
  | [a, b, c, d, e, f, g, h, i, j, k, l, m, n, o, p], _ =>
    have first : a = 0xff := by simpa [Ipv6Address.isMulticast] using multicast
    subst first
    unfold compressMulticast
    dsimp only
    split
    · next short =>
      simp only [List.take_succ_cons, List.take_zero, List.cons.injEq, List.replicate] at short
      simp [decompressMulticast, toAddress, List.replicate, short]
    · split
      · next short =>
        simp only [List.drop_succ_cons, List.drop_zero, List.take_succ_cons, List.take_zero,
          List.cons.injEq, List.replicate] at short
        simp [decompressMulticast, toAddress, List.replicate, short]
      · split
        · next short =>
          simp only [List.drop_succ_cons, List.drop_zero, List.take_succ_cons, List.take_zero,
            List.cons.injEq, List.replicate] at short
          simp [decompressMulticast, toAddress, List.replicate, short]
        · simp [decompressMulticast, toAddress]

/-- The traffic class is kept where there is no flow label. -/
theorem decompressTf_compressTf {ipHeader : Ipv6Header} (unlabelled : ipHeader.flowLabel = 0)
    (srcGarbage dstGarbage : List UInt8) :
    decompressTf (compressTf ipHeader (.create srcGarbage dstGarbage)) =
      (ipHeader.trafficClass, 0) := by
  have joined : (ipHeader.trafficClass &&& 0xC0) >>> 6 <<< 6 |||
      (ipHeader.trafficClass &&& 0x3F) = ipHeader.trafficClass := by
    have all : ∀ byte : Fin 256, (UInt8.ofNat byte &&& 0xC0) >>> 6 <<< 6 |||
        (UInt8.ofNat byte &&& 0x3F) = UInt8.ofNat byte := by
      decide +kernel
    have result := all ⟨ipHeader.trafficClass.toNat, ipHeader.trafficClass.toNat_lt⟩
    simpa using result
  have set (field : TrafficClassFlowLabel) :
      ((SixLowPanIphc.create srcGarbage dstGarbage).setTf field).getTf = field :=
    congrArg Choices.tf (SixLowPanIphc.choices_setTf
      (congrArg Choices.tf (SixLowPanIphc.choices_create srcGarbage dstGarbage)) field)
  unfold compressTf
  by_cases zero : ipHeader.trafficClass = 0
  · rw [if_pos ⟨unlabelled, zero⟩]
    unfold decompressTf
    rw [set, zero]
  · have elided (ecn dscp : UInt8) : ({ (SixLowPanIphc.create srcGarbage dstGarbage).setTf
        .tfFlElided with ecn := ecn, dscp := dscp } : SixLowPanIphc).getTf = .tfFlElided :=
      set .tfFlElided
    simp only [unlabelled, zero, and_false, if_false, not_true, false_and, ne_eq, not_false_iff,
      true_and, if_true]
    unfold decompressTf
    rw [elided]
    dsimp only
    rw [joined]

/-- Compression of a packet with an IPv6 header. -/
theorem compressLowPanIphc_serialize (self : SixLowPanNetDevice) (ipHeader : Ipv6Header)
    (payload : List UInt8) (src dst : LinkAddress) :
    self.compressLowPanIphc (ipHeader.serialize ++ payload) src dst = (do
      let source ← self.sourceCode ipHeader.sourceAddress src
      let destination ← self.destinationCode ipHeader.destinationAddress dst
      orAborted ((encoded (self.prepared { ipHeader with flowLabel := 0 } payload src dst)
        ipHeader.destinationAddress.isMulticast source destination).addHeader
          (self.remaining { ipHeader with flowLabel := 0 } payload src dst))) := by
  have long : ¬ (ipHeader.serialize ++ payload).length < Ipv6Header.serializedSize := by
    rw [List.length_append, ipHeader.length_serialize]
    omega
  have behind : (ipHeader.serialize ++ payload).drop Ipv6Header.serializedSize = payload :=
    List.drop_left' ipHeader.length_serialize
  unfold compressLowPanIphc
  rw [if_neg long, ipHeader.deserialize_serialize]
  dsimp only
  rw [behind, compressHeader_eq]
  simp only [bind_assoc, pure_bind]

/-- The packet that comes back. -/
def restored (ipHeader : Ipv6Header) (payload : List UInt8) : List UInt8 :=
  { ipHeader with flowLabel := 0, payloadLength := UInt16.ofNat payload.length }.serialize ++
    payload

section Empty

variable {self : SixLowPanNetDevice} (empty : ∀ contextId, self.contextTable contextId = none)
include empty

theorem findContext_empty (accepts : Ipv6Prefix → Bool) : self.findContext accepts = none := by
  unfold findContext
  simp [empty]

theorem unicastCode_empty (address : Ipv6Address) (link : LinkAddress) :
    self.unicastCode address link = .ok ⟨false, 0, compressStateless address link⟩ := by
  unfold unicastCode findUnicastCompressionContext
  rw [findContext_empty empty]

theorem decodeSource_empty (address : Ipv6Address) (link : LinkAddress) :
    ∃ code, self.sourceCode address link = .ok code ∧
      ∀ tail, self.decodeSource code tail link = .ok address := by
  unfold sourceCode
  by_cases any : address = Ipv6Address.any
  · refine ⟨_, if_pos any, ?_⟩
    intro tail
    rw [any]
    rfl
  · refine ⟨⟨false, 0, compressStateless address link⟩, ?_, ?_⟩
    · rw [if_neg any, unicastCode_empty empty]
    · intro tail
      exact decompressStateless_compressStateless address link tail

theorem decodeDestination_empty (address : Ipv6Address) (link : LinkAddress) :
    ∃ code, self.destinationCode address link = .ok code ∧ code.stateful = false ∧
      ∀ tail, self.decodeDestination address.isMulticast code tail link = .ok address := by
  unfold destinationCode decodeDestination
  cases multicast : address.isMulticast with
  | true =>
      refine ⟨⟨false, 0, compressMulticast address⟩, ?_, rfl, ?_⟩
      · unfold multicastCode findMulticastCompressionContext
        rw [findContext_empty empty]
        rfl
      · intro tail
        exact decompressMulticast_compressMulticast multicast tail
  | false =>
      refine ⟨⟨false, 0, compressStateless address link⟩, ?_, rfl, ?_⟩
      · rw [unicastCode_empty empty]
        rfl
      · intro tail
        exact decompressStateless_compressStateless address link tail

/-- Everything comes back but the flow label and the length that the header had. -/
theorem decompress_compress_empty (ipHeader : Ipv6Header)
    (other : canCompressLowPanNhc ipHeader.nextHeader = false) (payload : List UInt8)
    (src dst : LinkAddress) :
    (do let packet ← self.compressLowPanIphc (ipHeader.serialize ++ payload) src dst
        self.decompressLowPanIphc packet src dst) = .ok (restored ipHeader payload) := by
  obtain ⟨source, isSource, sourceBack⟩ := decodeSource_empty empty ipHeader.sourceAddress src
  obtain ⟨destination, isDestination, stateless, destinationBack⟩ :=
    decodeDestination_empty empty ipHeader.destinationAddress dst
  have told := @told_prepared self { ipHeader with flowLabel := 0 } src dst source destination
    payload isSource isDestination
  have noExcess : Told.excess ipHeader.destinationAddress.isMulticast destination = 0 := by
    simp [Told.excess, stateless]
  have rest : self.remaining { ipHeader with flowLabel := 0 } payload src dst = payload := by
    unfold remaining compressNh
    simp [other]
  have fits := told.addHeader_encoded payload
  rw [noExcess, if_pos (Nat.zero_le _), List.drop_zero] at fits
  have length := told.length_serialize_encoded
  rw [noExcess, Nat.add_zero] at length
  have removed := told.removeHeader_encoded payload
  rw [List.drop_left' length] at removed
  obtain ⟨sourceTail, sourceFound⟩ := told.decompressSource_received self src
  obtain ⟨destinationTail, destinationFound⟩ := told.decompressDestination_received self dst
  rw [sourceBack] at sourceFound
  rw [destinationBack] at destinationFound
  have next := decompressNh_encoded self { ipHeader with flowLabel := 0 } payload src dst
    ipHeader.destinationAddress.isMulticast source destination other payload
    ipHeader.sourceAddress ipHeader.destinationAddress
  have tf := decompressTf_encoded self { ipHeader with flowLabel := 0 } payload src dst
    ipHeader.destinationAddress.isMulticast source destination
  rw [decompressTf_compressTf rfl] at tf
  have limit := hopLimit_encoded self { ipHeader with flowLabel := 0 } payload src dst
    ipHeader.destinationAddress.isMulticast source destination
  rw [compressLowPanIphc_serialize, isSource, isDestination, rest]
  dsimp only at fits removed sourceFound destinationFound next tf limit
  simp only [ok_bind, fits, orAborted]
  unfold decompressLowPanIphc decompressAddresses
  simp only [removed, ok_bind, orAborted, sourceFound, destinationFound, pure_bind, next, tf, limit]
  rfl

/-- A packet that was compressed and decompressed is what it was. -/
def Restores (self : SixLowPanNetDevice) (ipHeader : Ipv6Header) (payload : List UInt8)
    (src dst : LinkAddress) : Prop :=
  (do let packet ← self.compressLowPanIphc (ipHeader.serialize ++ payload) src dst
      self.decompressLowPanIphc packet src dst) = .ok (ipHeader.serialize ++ payload)

end Empty

/-- Without contexts, the packet comes back if and only if it has no flow label and its header
has the length of its payload. -/
theorem restores_iff_flowLabel {self : SixLowPanNetDevice}
    (empty : ∀ contextId, self.contextTable contextId = none) (ipHeader : Ipv6Header)
    (other : canCompressLowPanNhc ipHeader.nextHeader = false) (payload : List UInt8)
    (src dst : LinkAddress) :
    self.Restores ipHeader payload src dst ↔
      ipHeader.flowLabel = 0 ∧ ipHeader.payloadLength = UInt16.ofNat payload.length := by
  unfold Restores
  rw [decompress_compress_empty empty ipHeader other]
  constructor
  · intro same
    have bytes := List.append_cancel_right (Except.ok.inj same)
    have header := Ipv6Header.serialize_inj bytes
    exact ⟨congrArg Ipv6Header.flowLabel header.symm,
      congrArg Ipv6Header.payloadLength header.symm⟩
  · rintro ⟨unlabelled, length⟩
    unfold restored
    rw [← unlabelled, ← length]

/-- A device without contexts that compresses no next header. -/
def plainDevice : SixLowPanNetDevice :=
  { contextTable := fun _ => none
    now := 0
    srcGarbage := List.replicate 16 0
    dstGarbage := List.replicate 16 0
    length_srcGarbage := List.length_replicate
    length_dstGarbage := List.length_replicate
    nextHeaders := ⟨fun _ _ _ _ => none, fun _ _ _ _ _ => none⟩ }

/-- A header with no next header, from `fe80::1` to `fe80::2`. -/
def plainHeader (flowLabel : BitVec 20) : Ipv6Header :=
  { trafficClass := 0
    flowLabel := flowLabel
    payloadLength := 0
    nextHeader := 59
    hopLimit := 64
    sourceAddress := .makeAutoconfiguredLinkLocalAddress (.mac64 0 0 0 0 0 0 0 1)
    destinationAddress := .makeAutoconfiguredLinkLocalAddress (.mac64 0 0 0 0 0 0 0 2) }

theorem restores_iff_flowLabel_plain :
    canCompressLowPanNhc (plainHeader 0).nextHeader = false ∧
      plainDevice.Restores (plainHeader 0) [] (.mac16 0 1) (.mac16 0 2) :=
  ⟨by decide, (restores_iff_flowLabel (fun _ => rfl) (plainHeader 0) (by decide) []
    (.mac16 0 1) (.mac16 0 2)).mpr ⟨rfl, rfl⟩⟩

/-- The flow label that a new `Ipv6Header` has is lost. -/
theorem not_restores_labelled :
    ¬ plainDevice.Restores (plainHeader 1) [] (.mac16 0 1) (.mac16 0 2) := by
  unfold Restores
  rw [decompress_compress_empty (fun _ => rfl) (plainHeader 1) (by decide)]
  intro same
  have bytes := Except.ok.inj same
  exact absurd bytes (by decide)

end SixLowPanNetDevice

end Ns3.SixLowPan
