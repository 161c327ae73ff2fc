import Ns3.SixLowPan.Chains

/-!
Whole packets: an IPv6 header with a chain of extension headers behind it.

The header itself comes back where its flow label is zero, its length is the right one, and both
addresses can be rebuilt from the contexts of the device.
-/

namespace Ns3.SixLowPan

open Library SixLowPanNetDevice SixLowPanIphc

namespace SixLowPanNetDevice

variable (self : SixLowPanNetDevice) (ipHeader : Ipv6Header) (payload : List UInt8)
  (next : Option (List UInt8)) (src dst : LinkAddress) (source destination : AddressCode)

/-- The packet when its addresses and what is behind the header are compressed. -/
def compressedPacket : List UInt8 :=
  (encoded ((self.knowing next none).prepared { ipHeader with flowLabel := 0 } payload src dst)
    ipHeader.destinationAddress.isMulticast source destination).serialize ++ next.getD payload

/-- The packet that is made of what was rebuilt. -/
def rebuiltPacket (sourceAddress destinationAddress : Ipv6Address) (nextHeader : UInt8)
    (behind : List UInt8) : List UInt8 :=
  { ipHeader with
    flowLabel := 0
    payloadLength := .ofNat behind.length
    nextHeader := nextHeader
    sourceAddress := sourceAddress
    destinationAddress := destinationAddress }.serialize ++ behind

/-- What the receiver makes of the packet once it has the addresses. -/
def putTogether (sourceAddress destinationAddress : Ipv6Address)
    (decompress : List UInt8 → Except Failure (UInt8 × Bool × List UInt8)) :
    Except Failure (Bool × List UInt8) :=
  match next with
  | none =>
      .ok (false, rebuiltPacket ipHeader sourceAddress destinationAddress ipHeader.nextHeader
        payload)
  | some compressed => do
      let (nextHeader, dropped, behind) ← decompress compressed
      if dropped then pure (true, behind)
      else
        pure (false, rebuiltPacket ipHeader sourceAddress destinationAddress nextHeader behind)

theorem rebuiltPacket_eq_iff {sourceAddress destinationAddress : Ipv6Address} {nextHeader : UInt8}
    {behind : List UInt8} :
    rebuiltPacket ipHeader sourceAddress destinationAddress nextHeader behind =
        ipHeader.serialize ++ payload ↔
      ipHeader.flowLabel = 0 ∧ ipHeader.payloadLength = .ofNat payload.length ∧
        sourceAddress = ipHeader.sourceAddress ∧ destinationAddress = ipHeader.destinationAddress ∧
        nextHeader = ipHeader.nextHeader ∧ behind = payload := by
  constructor
  · intro same
    obtain ⟨bytes, rfl⟩ := List.append_inj same
      ((Ipv6Header.length_serialize _).trans ipHeader.length_serialize.symm)
    have header := Ipv6Header.serialize_inj bytes
    exact ⟨(congrArg Ipv6Header.flowLabel header).symm,
      (congrArg Ipv6Header.payloadLength header).symm, congrArg Ipv6Header.sourceAddress header,
      congrArg Ipv6Header.destinationAddress header, congrArg Ipv6Header.nextHeader header, rfl⟩
  · rintro ⟨unlabelled, length, rfl, rfl, rfl, rfl⟩
    rw [rebuiltPacket, ← unlabelled, ← length]

variable {self ipHeader payload next src dst source destination}

theorem remaining_knowing
    (allowed : next.isSome = true → canCompressLowPanNhc ipHeader.nextHeader = true) :
    (self.knowing next none).remaining ipHeader payload src dst = next.getD payload := by
  unfold remaining compressNh knowing
  cases next with
  | none => simp
  | some compressed => simp [allowed rfl]

/-- The sender, where no byte is overwritten. -/
theorem compressLowPanIphc_knowing
    (allowed : next.isSome = true → canCompressLowPanNhc ipHeader.nextHeader = true)
    (isSource : self.sourceCode ipHeader.sourceAddress src = .ok source)
    (isDestination : self.destinationCode ipHeader.destinationAddress dst = .ok destination)
    (noExcess : Told.excess ipHeader.destinationAddress.isMulticast destination = 0) :
    (self.knowing next none).compressLowPanIphc (ipHeader.serialize ++ payload) src dst =
      .ok (self.compressedPacket ipHeader payload next src dst source destination) := by
  have told := @told_prepared (self.knowing next none) { ipHeader with flowLabel := 0 } src dst
    source destination payload isSource isDestination
  have fits := told.addHeader_encoded (next.getD payload)
  dsimp only at fits
  rw [noExcess, if_pos (Nat.zero_le _), List.drop_zero] at fits
  have rest := @remaining_knowing self { ipHeader with flowLabel := 0 } payload next src dst allowed
  have sameSource : (self.knowing next none).sourceCode ipHeader.sourceAddress src = .ok source :=
    isSource
  have sameDestination : (self.knowing next none).destinationCode ipHeader.destinationAddress dst =
      .ok destination :=
    isDestination
  rw [compressLowPanIphc_serialize, sameSource, sameDestination, rest, ok_bind, ok_bind, fits]
  rfl

/-- What the receiver reads of the packet. -/
theorem removeHeader_compressedPacket
    (isSource : self.sourceCode ipHeader.sourceAddress src = .ok source)
    (isDestination : self.destinationCode ipHeader.destinationAddress dst = .ok destination)
    (noExcess : Told.excess ipHeader.destinationAddress.isMulticast destination = 0) :
    removeHeader (self.compressedPacket ipHeader payload next src dst source destination) =
      some ((encoded ((self.knowing next none).prepared { ipHeader with flowLabel := 0 } payload
        src dst) ipHeader.destinationAddress.isMulticast source destination).received,
        next.getD payload) := by
  have told := @told_prepared (self.knowing next none) { ipHeader with flowLabel := 0 } src dst
    source destination payload isSource isDestination
  have length := told.length_serialize_encoded
  dsimp only at length
  rw [noExcess, Nat.add_zero] at length
  have removed := told.removeHeader_encoded (next.getD payload)
  rw [List.drop_left' length] at removed
  exact removed

/-- The receiver with what it knows of the next header puts the packet together. -/
theorem decompressLowPanIphc_compressedPacket {receiver : SixLowPanNetDevice}
    (isSource : self.sourceCode ipHeader.sourceAddress src = .ok source)
    (isDestination : self.destinationCode ipHeader.destinationAddress dst = .ok destination)
    (noExcess : Told.excess ipHeader.destinationAddress.isMulticast destination = 0)
    {sourceAddress destinationAddress : Ipv6Address}
    (addresses : receiver.decompressAddresses
      (encoded ((self.knowing next none).prepared { ipHeader with flowLabel := 0 } payload src dst)
        ipHeader.destinationAddress.isMulticast source destination).received src dst =
        .ok (sourceAddress, destinationAddress))
    {nextHeader : UInt8} {behind : List UInt8}
    (isNext : receiver.decompressNh
      (encoded ((self.knowing next none).prepared { ipHeader with flowLabel := 0 } payload src dst)
        ipHeader.destinationAddress.isMulticast source destination).received (next.getD payload)
        src dst sourceAddress destinationAddress = .ok (nextHeader, behind)) :
    receiver.decompressLowPanIphc
        (self.compressedPacket ipHeader payload next src dst source destination) src dst =
      .ok (rebuiltPacket ipHeader sourceAddress destinationAddress nextHeader behind) := by
  have tf := decompressTf_encoded (self.knowing next none) { ipHeader with flowLabel := 0 } payload
    src dst ipHeader.destinationAddress.isMulticast source destination
  rw [decompressTf_compressTf rfl] at tf
  have limit := hopLimit_encoded (self.knowing next none) { ipHeader with flowLabel := 0 } payload
    src dst ipHeader.destinationAddress.isMulticast source destination
  dsimp only at tf limit
  unfold decompressLowPanIphc
  rw [removeHeader_compressedPacket isSource isDestination noExcess]
  simp only [orAborted, ok_bind, addresses, isNext, tf, limit]
  rfl

theorem getNh_compressedPacket
    (allowed : next.isSome = true → canCompressLowPanNhc ipHeader.nextHeader = true) :
    (encoded ((self.knowing next none).prepared { ipHeader with flowLabel := 0 } payload src dst)
      ipHeader.destinationAddress.isMulticast source destination).received.getNh =
      next.isSome := by
  refine (getNh_encoded (self.knowing next none) { ipHeader with flowLabel := 0 } payload src dst
    ipHeader.destinationAddress.isMulticast source destination).trans ?_
  cases next with
  | none => exact Bool.and_false _
  | some compressed => exact congrArg (· && true) (allowed rfl)

/-- The receiver puts the packet together. -/
theorem decompressWith_compressedPacket
    (allowed : next.isSome = true → canCompressLowPanNhc ipHeader.nextHeader = true)
    (isSource : self.sourceCode ipHeader.sourceAddress src = .ok source)
    (isDestination : self.destinationCode ipHeader.destinationAddress dst = .ok destination)
    (noExcess : Told.excess ipHeader.destinationAddress.isMulticast destination = 0)
    {sourceAddress destinationAddress : Ipv6Address}
    (addresses : self.decompressAddresses
      (encoded ((self.knowing next none).prepared { ipHeader with flowLabel := 0 } payload src dst)
        ipHeader.destinationAddress.isMulticast source destination).received src dst =
        .ok (sourceAddress, destinationAddress))
    (decompress : Ipv6Address → Ipv6Address → List UInt8 →
      Except Failure (UInt8 × Bool × List UInt8)) :
    self.decompressWith decompress
        (self.compressedPacket ipHeader payload next src dst source destination) src dst =
      putTogether ipHeader payload next sourceAddress destinationAddress
        (decompress sourceAddress destinationAddress) := by
  have nh := @getNh_compressedPacket self ipHeader payload next src dst source destination allowed
  have put := fun (receiver : SixLowPanNetDevice) =>
    @decompressLowPanIphc_compressedPacket self ipHeader payload next src dst source destination
      receiver isSource isDestination noExcess sourceAddress destinationAddress
  unfold decompressWith putTogether
  simp only [removeHeader_compressedPacket isSource isDestination noExcess, orAborted, ok_bind,
    addresses, nh]
  cases next with
  | none =>
      have plain := nextHeader_encoded (self.knowing none none) { ipHeader with flowLabel := 0 }
        payload src dst ipHeader.destinationAddress.isMulticast source destination nh
      have isNext : (self.knowing none none).decompressNh
          (encoded ((self.knowing none none).prepared { ipHeader with flowLabel := 0 } payload src
            dst) ipHeader.destinationAddress.isMulticast source destination).received payload
            src dst sourceAddress destinationAddress = .ok (ipHeader.nextHeader, payload) := by
        unfold decompressNh
        rw [nh, plain]
        rfl
      have whole := put (self.knowing none none) addresses isNext
      simp only [Option.isSome_none, Bool.false_eq_true, if_false, whole]
      rfl
  | some compressed =>
      simp only [Option.isSome_some, if_true, Option.getD_some]
      refine bind_congr ?_
      rintro ⟨nextHeader, dropped, behind⟩
      cases dropped with
      | true => rfl
      | false =>
          have isNext : (self.knowing none (some (nextHeader, behind))).decompressNh
              (encoded ((self.knowing (some compressed) none).prepared
                { ipHeader with flowLabel := 0 } payload src dst)
                ipHeader.destinationAddress.isMulticast source destination).received compressed
                src dst sourceAddress destinationAddress = .ok (nextHeader, behind) := by
            unfold decompressNh
            rw [nh]
            rfl
          have whole := put (self.knowing none (some (nextHeader, behind))) addresses isNext
          simp only [Bool.false_eq_true, if_false, whole]
          rfl

/-- A packet that is not dropped has both addresses. -/
theorem decompressWith_ok
    {decompress : Ipv6Address → Ipv6Address → List UInt8 →
      Except Failure (UInt8 × Bool × List UInt8)} {packet result : List UInt8}
    {encoding : SixLowPanIphc} {rest : List UInt8}
    (removed : removeHeader packet = some (encoding, rest))
    (decompressed : self.decompressWith decompress packet src dst = .ok (false, result)) :
    ∃ sourceAddress destinationAddress,
      self.decompressAddresses encoding src dst = .ok (sourceAddress, destinationAddress) := by
  unfold decompressWith at decompressed
  rw [removed, orAborted, ok_bind] at decompressed
  dsimp only at decompressed
  cases isOk : self.decompressAddresses encoding src dst with
  | ok addresses => exact ⟨addresses.1, addresses.2, rfl⟩
  | error failure =>
      rw [isOk] at decompressed
      cases failure <;> cases decompressed

theorem compressWith_serialize
    (compress : UInt8 → List UInt8 → Except Failure (Option (List UInt8))) :
    self.compressWith compress (ipHeader.serialize ++ payload) src dst = (do
      let next ← compressRest compress ipHeader.nextHeader payload
      (self.knowing next none).compressLowPanIphc (ipHeader.serialize ++ payload) src dst) := by
  have long : ¬ (ipHeader.serialize ++ payload).length < Ipv6Header.serializedSize := by
    rw [List.length_append, ipHeader.length_serialize]
    omega
  have behind : (ipHeader.serialize ++ payload).drop Ipv6Header.serializedSize = payload :=
    List.drop_left' ipHeader.length_serialize
  unfold compressWith
  rw [if_neg long, ipHeader.deserialize_serialize]
  dsimp only
  rw [behind]

theorem compressRest_isSome
    {compress : UInt8 → List UInt8 → Except Failure (Option (List UInt8))} {nextHeader : UInt8}
    (isNext : compressRest compress nextHeader payload = .ok next) :
    next.isSome = true → canCompressLowPanNhc nextHeader = true := by
  intro isSome
  unfold compressRest at isNext
  split at isNext
  · assumption
  · cases isNext
    cases isSome

/-- A packet that is compressed at all has a code for each address. -/
theorem compressLowPanIphc_codes {packet : List UInt8}
    (compressed : self.compressLowPanIphc (ipHeader.serialize ++ payload) src dst = .ok packet) :
    ∃ source destination, self.sourceCode ipHeader.sourceAddress src = .ok source ∧
      self.destinationCode ipHeader.destinationAddress dst = .ok destination := by
  rw [compressLowPanIphc_serialize] at compressed
  cases isSource : self.sourceCode ipHeader.sourceAddress src with
  | error failure =>
      rw [isSource] at compressed
      cases compressed
  | ok source =>
      rw [isSource, ok_bind] at compressed
      cases isDestination : self.destinationCode ipHeader.destinationAddress dst with
      | error failure =>
          rw [isDestination] at compressed
          cases compressed
      | ok destination => exact ⟨source, destination, rfl, rfl⟩

/-- The addresses that the receiver finds are those that were compressed. -/
theorem decompressAddresses_eq_iff
    (isSource : self.sourceCode ipHeader.sourceAddress src = .ok source)
    (isDestination : self.destinationCode ipHeader.destinationAddress dst = .ok destination)
    (noExcess : Told.excess ipHeader.destinationAddress.isMulticast destination = 0) :
    self.decompressAddresses
        (encoded ((self.knowing next none).prepared { ipHeader with flowLabel := 0 } payload src
          dst) ipHeader.destinationAddress.isMulticast source destination).received src dst =
        .ok (ipHeader.sourceAddress, ipHeader.destinationAddress) ↔
      self.SourceRestorable ipHeader.sourceAddress src ∧
        self.DestinationRestorable ipHeader.destinationAddress dst 0 := by
  have told := @told_prepared (self.knowing next none) { ipHeader with flowLabel := 0 } src dst
    source destination payload isSource isDestination
  obtain ⟨sourceTail, sourceFound⟩ := told.decompressSource_received self src
  obtain ⟨destinationTail, destinationFound⟩ := told.decompressDestination_received self dst
  have usable : ∀ contextId context, self.contextTable contextId = some context →
      self.now < context.validLifetime → self.now < context.validLifetime :=
    fun _ _ _ valid => valid
  have sourceBack := decodeSource_eq_iff rfl usable isSource sourceTail
  have destinationBack := decodeDestination_eq_iff rfl usable isDestination destinationTail 0
  rw [noExcess] at destinationBack
  simp only [Nat.le_refl, true_and] at destinationBack
  dsimp only at sourceFound destinationFound
  rw [← sourceBack, ← destinationBack]
  unfold decompressAddresses
  rw [sourceFound, destinationFound]
  cases self.decodeSource source sourceTail src with
  | error failure => simp [error_bind]
  | ok sourceAddress =>
      cases self.decodeDestination ipHeader.destinationAddress.isMulticast destination
          destinationTail dst with
      | error failure => simp [ok_bind]
      | ok destinationAddress => simp [ok_bind, pure, Except.pure]

/-- Bytes are overwritten only where a multicast address has a context. -/
theorem excess_eq_zero {address : Ipv6Address}
    (isDestination : self.destinationCode address dst = .ok destination)
    (plain : address.isMulticast = true → self.findMulticastCompressionContext address = none) :
    Told.excess address.isMulticast destination = 0 := by
  unfold Told.excess
  unfold destinationCode at isDestination
  cases multicast : address.isMulticast with
  | false => rfl
  | true =>
      rw [multicast, if_pos rfl, multicastCode, plain multicast] at isDestination
      cases isDestination
      rfl

end SixLowPanNetDevice

namespace SixLowPanNode

variable (self : SixLowPanNode) (ipHeader : Ipv6Header) (chain : Chain) (src dst : LinkAddress)

/-- The packet with a chain behind its header. -/
def packetOf : List UInt8 :=
  { ipHeader with nextHeader := chain.headerType }.serialize ++ chain.bytes

/-- The packet that was compressed and decompressed is what it was. -/
def RestoresPacket : Prop :=
  (do let compressed ← self.compressPacket src dst (packetOf ipHeader chain)
      self.decompressPacket src dst compressed) = .ok (packetOf ipHeader chain)

/-- The header and the chain behind it come back, and no byte is overwritten. -/
def Keeps : Prop :=
  ipHeader.flowLabel = 0 ∧ ipHeader.payloadLength = .ofNat chain.bytes.length ∧
    self.SourceRestorable ipHeader.sourceAddress src ∧
    self.DestinationRestorable ipHeader.destinationAddress dst 0 ∧ chain.Kept

variable {self ipHeader chain src dst}

theorem compressPacket_packetOf : self.compressPacket src dst (packetOf ipHeader chain) = (do
    let next ← compressRest (self.compressNext src dst (packetOf ipHeader chain).length)
      chain.headerType chain.bytes
    (self.knowing next none).compressLowPanIphc (packetOf ipHeader chain) src dst) := by
  unfold compressPacket packetOf
  rw [compressWith_serialize]

theorem length_packetOf : (packetOf ipHeader chain).length = 40 + chain.bytes.length := by
  rw [packetOf, List.length_append, Ipv6Header.length_serialize]
  rfl

theorem decompressPacket_ok {packet result : List UInt8} :
    self.decompressPacket src dst packet = .ok result ↔
      self.decompressWith (self.decompressNext src dst packet.length) packet src dst =
        .ok (false, result) := by
  unfold decompressPacket
  split
  case h_1 failure isError => simp [isError]
  case h_2 rest isDropped => simp [isDropped]
  case h_3 whole isOk => simp [isOk]

/-- A packet that is kept comes back. -/
theorem restoresPacket_of_keeps (keeps : self.Keeps ipHeader chain src dst) :
    self.RestoresPacket ipHeader chain src dst := by
  obtain ⟨unlabelled, length, sourceBack, destinationBack, kept⟩ := keeps
  have enough : chain.bytes.length < (packetOf ipHeader chain).length := by
    rw [length_packetOf]
    omega
  obtain ⟨next, isNext, back⟩ := self.restores_of_kept src dst kept enough
  have allowed := compressRest_isSome isNext
  -- Both addresses have a code, since they come back.
  cases isSource : self.sourceCode ipHeader.sourceAddress src with
  | error failure => exact absurd sourceBack (sourceCode_aborts isSource)
  | ok source =>
    cases isDestination : self.destinationCode ipHeader.destinationAddress dst with
    | error failure => exact absurd destinationBack (destinationCode_aborts isDestination 0)
    | ok destination =>
      have usable : ∀ contextId context, self.contextTable contextId = some context →
          self.now < context.validLifetime → self.now < context.validLifetime :=
        fun _ _ _ valid => valid
      have noExcess : Told.excess ipHeader.destinationAddress.isMulticast destination = 0 :=
        Nat.le_zero.mp ((decodeDestination_eq_iff rfl usable isDestination [] 0).mpr
          destinationBack).1
      have compressed := @compressLowPanIphc_knowing self.toSixLowPanNetDevice
        { ipHeader with nextHeader := chain.headerType } chain.bytes next src dst source destination
        allowed isSource isDestination noExcess
      have addresses := (@decompressAddresses_eq_iff self.toSixLowPanNetDevice
        { ipHeader with nextHeader := chain.headerType } chain.bytes next src dst source destination
        isSource isDestination noExcess).mpr ⟨sourceBack, destinationBack⟩
      have decompressed := @decompressWith_compressedPacket self.toSixLowPanNetDevice
        { ipHeader with nextHeader := chain.headerType } chain.bytes next src dst source destination
        allowed isSource isDestination noExcess _ _ addresses
      have whole : rebuiltPacket { ipHeader with nextHeader := chain.headerType }
          ipHeader.sourceAddress ipHeader.destinationAddress chain.headerType chain.bytes =
          packetOf ipHeader chain :=
        (@rebuiltPacket_eq_iff { ipHeader with nextHeader := chain.headerType } chain.bytes
          _ _ _ _).mpr ⟨unlabelled, length, rfl, rfl, rfl, rfl⟩
      unfold RestoresPacket
      rw [compressPacket_packetOf, isNext, ok_bind]
      rw [← packetOf] at compressed
      rw [compressed, ok_bind, decompressPacket_ok, decompressed]
      cases next with
      | none => exact congrArg (fun packet => Except.ok (false, packet)) whole
      | some part =>
          have few : part.length ≤ (self.compressedPacket
              { ipHeader with nextHeader := chain.headerType } chain.bytes (some part) src dst
              source destination).length := by
            rw [compressedPacket, List.length_append]
            exact Nat.le_add_left _ _
          rw [putTogether, back part rfl _ _ _ few]
          exact congrArg (fun packet => Except.ok (false, packet)) whole

/-- What the receiver has found where it has put the packet together again. -/
theorem putTogether_ok {payload : List UInt8} {next : Option (List UInt8)}
    {decompress : List UInt8 → Except Failure (UInt8 × Bool × List UInt8)}
    {sourceAddress destinationAddress : Ipv6Address}
    (rebuilt : putTogether ipHeader payload next sourceAddress destinationAddress decompress =
      .ok (false, ipHeader.serialize ++ payload)) :
    ipHeader.flowLabel = 0 ∧ ipHeader.payloadLength = .ofNat payload.length ∧
      sourceAddress = ipHeader.sourceAddress ∧ destinationAddress = ipHeader.destinationAddress ∧
      ∀ compressed, next = some compressed →
        decompress compressed = .ok (ipHeader.nextHeader, false, payload) := by
  unfold putTogether at rebuilt
  cases next with
  | none =>
      obtain ⟨unlabelled, length, isSource, isDestination, _, _⟩ :=
        (rebuiltPacket_eq_iff ipHeader payload).mp (congrArg Prod.snd (Except.ok.inj rebuilt))
      exact ⟨unlabelled, length, isSource, isDestination, by simp⟩
  | some compressed =>
      dsimp only at rebuilt
      cases isRest : decompress compressed with
      | error failure =>
          rw [isRest] at rebuilt
          cases rebuilt
      | ok rest =>
          obtain ⟨nextHeader, dropped, behind⟩ := rest
          rw [isRest, ok_bind] at rebuilt
          cases dropped with
          | true => cases rebuilt
          | false =>
              obtain ⟨unlabelled, length, isSource, isDestination, rfl, rfl⟩ :=
                (rebuiltPacket_eq_iff ipHeader payload).mp
                  (congrArg Prod.snd (Except.ok.inj rebuilt))
              refine ⟨unlabelled, length, isSource, isDestination, ?_⟩
              rintro part ⟨⟩
              exact isRest

/-- A packet that comes back is kept, or it has a packet in it. -/
theorem keeps_of_restoresPacket
    (plain : ipHeader.destinationAddress.isMulticast = true →
      self.findMulticastCompressionContext ipHeader.destinationAddress = none)
    (restores : self.RestoresPacket ipHeader chain src dst) :
    self.Keeps ipHeader chain src dst ∨ chain.Tunnels := by
  unfold RestoresPacket at restores
  rw [compressPacket_packetOf] at restores
  cases isNext : compressRest (self.compressNext src dst (packetOf ipHeader chain).length)
      chain.headerType chain.bytes with
  | error failure =>
      rw [isNext] at restores
      cases restores
  | ok next =>
    rw [isNext, ok_bind] at restores
    cases isCompressed : (self.knowing next none).compressLowPanIphc (packetOf ipHeader chain) src
        dst with
    | error failure =>
        rw [isCompressed] at restores
        cases restores
    | ok compressed =>
      rw [isCompressed, ok_bind, decompressPacket_ok] at restores
      have allowed := compressRest_isSome isNext
      obtain ⟨source, destination, isSource, isDestination⟩ := compressLowPanIphc_codes isCompressed
      have noExcess := excess_eq_zero isDestination plain
      have sent := @compressLowPanIphc_knowing self.toSixLowPanNetDevice
        { ipHeader with nextHeader := chain.headerType } chain.bytes next src dst source destination
        allowed isSource isDestination noExcess
      obtain rfl := Except.ok.inj (sent.symm.trans isCompressed)
      have removed := @removeHeader_compressedPacket self.toSixLowPanNetDevice
        { ipHeader with nextHeader := chain.headerType } chain.bytes next src dst source destination
        isSource isDestination noExcess
      obtain ⟨sourceAddress, destinationAddress, addresses⟩ := decompressWith_ok removed restores
      have decompressed := @decompressWith_compressedPacket self.toSixLowPanNetDevice
        { ipHeader with nextHeader := chain.headerType } chain.bytes next src dst source destination
        allowed isSource isDestination noExcess _ _ addresses
      replace restores := (decompressed _).symm.trans restores
      obtain ⟨unlabelled, length, isSame, isSame', back⟩ :=
        @putTogether_ok { ipHeader with nextHeader := chain.headerType } _ _ _ _ _ restores
      subst isSame isSame'
      obtain ⟨sourceBack, destinationBack⟩ := (@decompressAddresses_eq_iff
        self.toSixLowPanNetDevice { ipHeader with nextHeader := chain.headerType } chain.bytes next
        src dst source destination isSource isDestination noExcess).mp addresses
      by_cases tunnels : chain.Tunnels
      · exact .inr tunnels
      · refine .inl ⟨unlabelled, length, sourceBack, destinationBack, ?_⟩
        by_contra lost
        obtain ⟨part, isPart, never⟩ := self.not_restores_of_lost src dst lost tunnels isNext
        exact never _ _ _ _ (back part isPart)

/-- A packet comes back if its header and all headers behind it are kept. Only one with another
packet in it, or one to a multicast address with a context, may come back otherwise. -/
theorem restoresPacket_iff_keeps (self : SixLowPanNode) (ipHeader : Ipv6Header) (chain : Chain)
    (src dst : LinkAddress) :
    (self.Keeps ipHeader chain src dst → self.RestoresPacket ipHeader chain src dst) ∧
      (self.RestoresPacket ipHeader chain src dst →
        self.Keeps ipHeader chain src dst ∨ chain.Tunnels ∨
          ipHeader.destinationAddress.isMulticast = true ∧
            self.findMulticastCompressionContext ipHeader.destinationAddress ≠ none) := by
  constructor
  · exact restoresPacket_of_keeps
  · intro restores
    by_cases plain : ipHeader.destinationAddress.isMulticast = true →
        self.findMulticastCompressionContext ipHeader.destinationAddress = none
    · rcases keeps_of_restoresPacket plain restores with keeps | tunnels
      · exact .inl keeps
      · exact .inr (.inl tunnels)
    · simp only [Classical.not_imp] at plain
      exact .inr (.inr plain)

/-- A node whose device has no context. -/
def plainNode : SixLowPanNode :=
  { plainDevice with omitUdpChecksum := false, checksumEnabled := false }

/-- A routing header without addresses. -/
def routingHeader : ExtensionHeader :=
  { kind := .routing
    length := 0
    contents := [0, 0, 0, 0, 0, 0]
    supported := by decide
    length_contents := by decide }

/-- A chain of the routing header alone. -/
def routingChain : Chain := .extension routingHeader (.payload 59 (by decide) [])

/-- The length of the routing header comes back as 255. -/
theorem not_restoresPacket_routing :
    ¬ plainNode.RestoresPacket { plainHeader 0 with payloadLength := 8 } routingChain (.mac16 0 1)
      (.mac16 0 2) := by
  unfold RestoresPacket
  decide

end SixLowPanNode

end Ns3.SixLowPan
