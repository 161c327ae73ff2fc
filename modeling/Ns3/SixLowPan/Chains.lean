import Ns3.SixLowPan.Contexts
import Ns3.SixLowPan.Nhc

/-!
Chains of extension headers.

A chain comes back through the two functions for next headers unless it has a routing header that
is compressed, a fragment header with its reserved byte set, or a compressed IPv6 packet in it. A
header that is too long stays as it is, with all that is behind it.
-/

namespace Ns3.SixLowPan

open Library SixLowPanNetDevice

/-- An extension header of the format of IPv6. The second byte is the length, and it is reserved in
a fragment header. -/
structure ExtensionHeader where
  kind : ExtensionKind
  length : UInt8
  contents : List UInt8
  supported : kind ≠ .destination
  length_contents : contents.length =
    if kind = .fragmentation then 6 else (length.toNat + 1) * 8 - 2

namespace ExtensionHeader

/-- The header in front of one of the type. -/
def bytes (self : ExtensionHeader) (nextHeader : UInt8) : List UInt8 :=
  nextHeader :: self.length :: self.contents

/-- The header has more bytes than can be compressed. -/
def TooLong (self : ExtensionHeader) : Prop := self.kind ≠ .fragmentation ∧ 31 ≤ self.length.toNat

/-- The header comes back once it is compressed. -/
def Lossless (self : ExtensionHeader) : Prop :=
  self.kind = .hopByHop ∨ self.kind = .fragmentation ∧ self.length = 0

theorem Lossless.notRouting {self : ExtensionHeader} (lossless : self.Lossless) :
    self.kind ≠ .routing := by
  rcases lossless with kind | ⟨kind, _⟩
  · simp [kind]
  · simp [kind]

end ExtensionHeader

/-- What is behind an IPv6 header. -/
inductive Chain
  | payload (headerType : UInt8) (other : canCompressLowPanNhc headerType = false)
      (bytes : List UInt8)
  | extension (header : ExtensionHeader) (rest : Chain)
  | encapsulated (ipHeader : Ipv6Header) (rest : Chain)

namespace Chain

/-- The type of the first header. -/
def headerType : Chain → UInt8
  | payload headerType _ _ => headerType
  | extension header _ => header.kind.headerType
  | encapsulated _ _ => Ipv6Header.ipv6

/-- The bytes of the packet. -/
def bytes : Chain → List UInt8
  | payload _ _ bytes => bytes
  | extension header rest => header.bytes rest.headerType ++ rest.bytes
  | encapsulated ipHeader rest =>
      { ipHeader with
        nextHeader := rest.headerType
        payloadLength := .ofNat rest.bytes.length }.serialize ++ rest.bytes

/-- All headers that are compressed come back. -/
def Kept : Chain → Prop
  | payload _ _ _ => True
  | extension header rest => header.TooLong ∨ header.Lossless ∧ rest.Kept
  | encapsulated _ _ => False

/-- The first header that is not sure to come back is an encapsulated packet. -/
def Tunnels : Chain → Prop
  | payload _ _ _ => False
  | extension header rest => ¬ header.TooLong ∧ header.Lossless ∧ rest.Tunnels
  | encapsulated _ _ => True

end Chain

namespace ExtensionHeader

variable {self : ExtensionHeader}

theorem calculatePad_contents (kind : self.kind = .hopByHop) :
    Ipv6Extension.calculatePad self.contents = 0 := by
  have whole := self.length_contents
  rw [kind, if_neg (by decide)] at whole
  rw [Ipv6Extension.calculatePad]
  omega

/-- The header that is removed from a packet, unless it is a routing header. -/
theorem removeHeader_bytes (notRouting : self.kind ≠ .routing) (nextHeader : UInt8)
    (rest : List UInt8) :
    Ipv6Extension.removeHeader self.kind (self.bytes nextHeader ++ rest) =
      some (⟨nextHeader, if self.kind = .fragmentation then 0 else self.length, self.contents⟩,
        rest) := by
  have whole := self.length_contents
  cases kind : self.kind with
  | routing => exact absurd kind notRouting
  | destination => exact absurd kind self.supported
  | hopByHop =>
      rw [kind, if_neg (by decide)] at whole
      have size : Ipv6Extension.contentsSize .hopByHop self.length = self.contents.length := whole.symm
      simp only [Ipv6Extension.removeHeader, bytes, List.cons_append, Ipv6Extension.deserialize, size,
        List.length_append, Nat.le_add_right, if_true, List.take_left', Option.map_some,
        Ipv6Extension.getSerializedSize, calculatePad_contents kind, Nat.add_zero]
      rw [if_neg (by decide), Nat.add_comm 2, List.drop_succ_cons, List.drop_succ_cons,
        List.drop_left]
  | fragmentation =>
      rw [kind, if_pos rfl] at whole
      have size : Ipv6Extension.contentsSize .fragmentation self.length = self.contents.length :=
        whole.symm
      simp only [Ipv6Extension.removeHeader, bytes, List.cons_append, Ipv6Extension.deserialize, size,
        List.length_append, Nat.le_add_right, if_true, List.take_left', Option.map_some,
        Ipv6Extension.getSerializedSize]
      rw [List.drop_succ_cons, List.drop_succ_cons, List.drop_left' whole]

/-- Only four bytes of a routing header are removed. -/
theorem removeHeader_routing (routing : self.kind = .routing) (nextHeader : UInt8)
    (rest : List UInt8) :
    Ipv6Extension.removeHeader .routing (self.bytes nextHeader ++ rest) =
      some (⟨nextHeader, self.length, self.contents.take 2⟩, self.contents.drop 2 ++ rest) := by
  have whole := self.length_contents
  rw [routing, if_neg (by decide)] at whole
  have long : 2 ≤ self.contents.length := by omega
  have enough : 2 ≤ (self.contents ++ rest).length := by
    rw [List.length_append]
    omega
  simp only [Ipv6Extension.removeHeader, bytes, List.cons_append, Ipv6Extension.deserialize,
    Ipv6Extension.contentsSize, enough, if_true, Option.map_some, Ipv6Extension.getSerializedSize]
  rw [List.drop_succ_cons, List.drop_succ_cons, List.drop_append_of_le_length long,
    List.take_append_of_le_length long, if_neg (by decide)]

/-- The contents of a header that is removed. -/
theorem drop_serialize (notRouting : self.kind ≠ .routing) (nextHeader length : UInt8) :
    ((⟨nextHeader, length, self.contents⟩ : Ipv6Extension).serialize self.kind).drop 2 =
      self.contents := by
  cases kind : self.kind with
  | routing => exact absurd kind notRouting
  | destination => exact absurd kind self.supported
  | hopByHop =>
      simp [Ipv6Extension.serialize, calculatePad_contents kind, Ipv6Extension.optionPadding]
  | fragmentation => simp [Ipv6Extension.serialize]

/-- The contents of a header that is not too long are short. -/
theorem length_contents_lt (short : ¬ self.TooLong) : self.contents.length < 256 := by
  have whole := self.length_contents
  split at whole
  · omega
  case isFalse other =>
    have : ¬ 31 ≤ self.length.toNat := fun long => short ⟨other, long⟩
    omega

/-- Every header is removed with the length that it has, and with at most its contents. -/
theorem removed (self : ExtensionHeader) (nextHeader : UInt8) (rest : List UInt8) :
    ∃ removed behind, Ipv6Extension.removeHeader self.kind (self.bytes nextHeader ++ rest) =
        some (removed, behind) ∧
      (removed.length = if self.kind = .fragmentation then 0 else self.length) ∧
      (¬ self.TooLong → ((removed.serialize self.kind).drop 2).length < 256) ∧
      (self.kind = .routing → ((removed.serialize self.kind).drop 2).length = 2) := by
  by_cases routing : self.kind = .routing
  · have whole := self.length_contents
    rw [routing, if_neg (by decide)] at whole
    have two : ((⟨nextHeader, self.length, self.contents.take 2⟩ : Ipv6Extension).serialize
        .routing).drop 2 = self.contents.take 2 := rfl
    refine ⟨_, _, routing ▸ removeHeader_routing routing nextHeader rest, ?_⟩
    rw [routing, if_neg (by decide), two, List.length_take]
    exact ⟨rfl, fun _ => by omega, fun _ => by omega⟩
  · refine ⟨_, _, removeHeader_bytes routing nextHeader rest, rfl, fun short => ?_,
      fun isRouting => absurd isRouting routing⟩
    rw [drop_serialize routing]
    exact length_contents_lt short

end ExtensionHeader

namespace SixLowPanNetDevice

/-- The first byte of a compressed header tells its kind. -/
theorem nhcHeader_bits (kind : ExtensionKind) (header : Ipv6Extension) (nh : Bool) :
    (nhcHeader kind header nh).getNh = nh ∧ (nhcHeader kind header nh).getEid = kind.eid ∧
      (nhcHeader kind header nh).nhcExtensionHeader < 0xF0 := by
  have format : (nhcHeader kind header nh).nhcExtensionHeader =
      (0xE0 : UInt8) ||| kind.eid <<< 1 ||| (if nh then 1 else 0) := rfl
  rw [SixLowPanNhcExtension.getNh, SixLowPanNhcExtension.getEid, format]
  cases kind <;> cases nh <;> decide

/-- A compressed header is not taken for a UDP header. -/
theorem isUdpNhcDispatch_nhcHeader (kind : ExtensionKind) (header : Ipv6Extension) (nh : Bool)
    (rest : List UInt8) :
    isUdpNhcDispatch ((nhcHeader kind header nh).serialize ++ rest) = false := by
  have below := (nhcHeader_bits kind header nh).2.2
  rw [isUdpNhcDispatch, SixLowPanNhcExtension.serialize, List.cons_append, List.headD_cons,
    decide_eq_false (UInt8.not_le.mpr below), Bool.false_and]

/-- The blob has the contents of the header. -/
theorem nhcBlob_nhcHeader {header : ExtensionHeader} (notRouting : header.kind ≠ .routing)
    (nextHeader length : UInt8) (nh : Bool) :
    (nhcHeader header.kind ⟨nextHeader, length, header.contents⟩ nh).nhcBlob = header.contents :=
  header.drop_serialize notRouting nextHeader length

theorem removeHeader_nhcHeader {kind : ExtensionKind} {header : Ipv6Extension}
    (short : ((header.serialize kind).drop 2).length < 256) (nh : Bool) (rest : List UInt8) :
    SixLowPanNhcExtension.removeHeader ((nhcHeader kind header nh).serialize ++ rest) =
      some (nhcHeader kind header nh, rest) := by
  have bits := (nhcHeader_bits kind header nh).1
  have format : ∀ next, (⟨(nhcHeader kind header nh).nhcExtensionHeader, next, []⟩ :
      SixLowPanNhcExtension).getNh = nh := fun _ => bits
  have blob : ∀ self : SixLowPanNhcExtension, self.deserializeBlob
      (UInt8.ofNat ((header.serialize kind).drop 2).length ::
        ((header.serialize kind).drop 2 ++ rest)) =
      some ({ self with nhcBlob := (header.serialize kind).drop 2 }, rest) := by
    intro self
    have length : (UInt8.ofNat ((header.serialize kind).drop 2).length).toNat =
        ((header.serialize kind).drop 2).length := UInt8.toNat_ofNat_of_lt' short
    simp only [SixLowPanNhcExtension.deserializeBlob, length, List.length_append, Nat.le_add_right,
      if_true, List.take_left, List.drop_left]
  rw [SixLowPanNhcExtension.serialize, bits]
  cases nh with
  | true =>
      simp only [if_true, List.nil_append, List.cons_append, SixLowPanNhcExtension.removeHeader,
        format]
      exact blob _
  | false =>
      simp only [Bool.false_eq_true, if_false, List.cons_append, List.nil_append,
        SixLowPanNhcExtension.removeHeader, format]
      exact blob _

end SixLowPanNetDevice

namespace SixLowPanNode

variable (self : SixLowPanNode) (src dst : LinkAddress)

/-- A compressed header is rebuilt by its kind. -/
theorem decompressNext_nhcHeader {kind : ExtensionKind} {header : Ipv6Extension}
    (short : ((header.serialize kind).drop 2).length < 256) (nh : Bool) (rest : List UInt8)
    (steps : Nat) (sourceAddress destinationAddress : Ipv6Address) :
    self.decompressNext src dst (steps + 1) sourceAddress destinationAddress
        ((nhcHeader kind header nh).serialize ++ rest) =
      rebuildHeader (self.decompressNext src dst steps sourceAddress destinationAddress) kind
        (nhcHeader kind header nh) rest := by
  have eid := (nhcHeader_bits kind header nh).2.1
  rw [decompressNext, isUdpNhcDispatch_nhcHeader, if_neg (by decide), decompressLowPanNhc,
    removeHeader_nhcHeader short, orAborted, ok_bind]
  dsimp only
  rw [eid]
  cases kind <;> rfl

theorem canCompress_extension (header : ExtensionHeader) :
    canCompressLowPanNhc header.kind.headerType = true := by
  cases kind : header.kind with
  | destination => exact absurd kind header.supported
  | hopByHop | routing | fragmentation => decide

/-- An extension header is removed and compressed. -/
theorem compressRest_extension {header : ExtensionHeader} {removed : Ipv6Extension}
    {rest behind : List UInt8} {nextHeader : UInt8}
    (isRemoved : Ipv6Extension.removeHeader header.kind (header.bytes nextHeader ++ rest) =
      some (removed, behind)) (steps : Nat) :
    compressRest (self.compressNext src dst (steps + 1)) header.kind.headerType
        (header.bytes nextHeader ++ rest) =
      if removed.getLength ≥ 0xff then .ok none
      else (do
        let next ← compressRest (self.compressNext src dst steps) removed.nextHeader behind
        pure (some ((nhcHeader header.kind removed next.isSome).serialize ++ next.getD behind))) := by
  have isKind : ExtensionKind.ofHeaderType header.kind.headerType = some header.kind := by
    cases kind : header.kind <;> decide
  have notUdp : header.kind.headerType ≠ Ipv6Header.udp := by
    cases header.kind <;> decide
  have notIpv6 : header.kind.headerType ≠ Ipv6Header.ipv6 := by
    cases header.kind <;> decide
  rw [compressRest, if_pos (canCompress_extension header), compressNext, if_neg notUdp,
    if_neg notIpv6, compressLowPanNhc, isKind]
  simp only [isRemoved]

end SixLowPanNode

namespace ExtensionHeader

variable {self : ExtensionHeader}

/-- The test of `CompressLowPanNhc`. -/
theorem getLength_iff {removed : Ipv6Extension}
    (length : removed.length = if self.kind = .fragmentation then 0 else self.length) :
    removed.getLength ≥ 0xff ↔ self.TooLong := by
  rw [Ipv6Extension.getLength, length, TooLong]
  split
  case isTrue fragment => simp [fragment]
  case isFalse other =>
    simp only [ne_eq, other, not_false_eq_true, true_and]
    omega

/-- The header that is made of the contents, in front of any type. -/
theorem rebuilt_bytes (lossless : self.Lossless) (nextHeader : UInt8) :
    (Ipv6Extension.deserialize self.kind (blobData self.kind nextHeader self.contents)).map
        (Ipv6Extension.serialize · self.kind) = some (self.bytes nextHeader) := by
  have whole := self.length_contents
  rcases lossless with kind | ⟨kind, zero⟩
  · have aligned : (self.contents.length + 2) % 8 = 0 := by
      rw [kind, if_neg (by decide)] at whole
      omega
    have size : self.contents.length = (self.length.toNat + 1) * 8 - 2 := by
      rwa [kind, if_neg (by decide)] at whole
    have length : UInt8.ofNat ((self.contents.length + 2) / 8 - 1) = self.length := by
      rw [show (self.contents.length + 2) / 8 - 1 = self.length.toNat by omega, UInt8.ofNat_toNat]
    have pad := calculatePad_contents kind
    rw [kind]
    simp [blobData, aligned, length, Ipv6Extension.optionPadding, Ipv6Extension.deserialize,
      Ipv6Extension.contentsSize, ← size, Ipv6Extension.serialize, pad,
      Ipv6Extension.getSerializedSize, Nat.add_comm 2, bytes]
  · rw [kind, if_pos rfl] at whole
    rw [kind]
    simp [blobData, Ipv6Extension.deserialize, Ipv6Extension.contentsSize, whole,
      Ipv6Extension.serialize, bytes, zero, List.take_of_length_le]

end ExtensionHeader

namespace SixLowPanNode

variable (self : SixLowPanNode) (src dst : LinkAddress)

/-- A header in front of what comes back comes back with it. -/
theorem rebuildHeader_bytes {header : ExtensionHeader} (lossless : header.Lossless)
    {nextHeader length : UInt8} {next : Option (List UInt8)}
    {behind rest : List UInt8}
    {decompress : List UInt8 → Except Failure (UInt8 × Bool × List UInt8)}
    (plain : next = none → behind = rest)
    (back : ∀ compressed, next = some compressed →
      decompress compressed = .ok (nextHeader, false, rest)) :
    rebuildHeader decompress header.kind
        (nhcHeader header.kind ⟨nextHeader, length, header.contents⟩ next.isSome)
        (next.getD behind) =
      .ok (header.kind.headerType, false, header.bytes nextHeader ++ rest) := by
  have notRouting := lossless.notRouting
  obtain ⟨rebuilt, isRebuilt, isBytes⟩ :=
    Option.map_eq_some_iff.mp (header.rebuilt_bytes lossless nextHeader)
  rw [rebuildHeader, (nhcHeader_bits _ _ _).1, nhcBlob_nhcHeader notRouting]
  cases next with
  | none =>
      have told : (nhcHeader header.kind ⟨nextHeader, length, header.contents⟩ false).nhcNextHeader =
          nextHeader := rfl
      simp only [Option.isSome_none, Bool.false_eq_true, if_false, pure_bind, told, isRebuilt,
        orAborted, ok_bind, isBytes, Option.getD_none, plain rfl]
      rfl
  | some compressed =>
      simp only [Option.isSome_some, if_true, Option.getD_some, back compressed rfl, Except.map,
        ok_bind, isRebuilt, orAborted, isBytes]
      rfl

/-- A chain that is kept is compressed and decompressed to itself. -/
theorem restores_of_kept {chain : Chain} (kept : chain.Kept) {steps : Nat}
    (enough : chain.bytes.length < steps) :
    ∃ next, compressRest (self.compressNext src dst steps) chain.headerType chain.bytes = .ok next ∧
      ∀ compressed, next = some compressed → ∀ sourceAddress destinationAddress steps',
        compressed.length ≤ steps' →
        self.decompressNext src dst steps' sourceAddress destinationAddress compressed =
          .ok (chain.headerType, false, chain.bytes) := by
  induction chain generalizing steps with
  | payload headerType other bytes =>
      refine ⟨none, ?_, by simp⟩
      rw [Chain.headerType, compressRest, other, if_neg (by decide)]
  | encapsulated ipHeader rest => exact kept.elim
  | extension header rest inductionHypothesis =>
      obtain ⟨steps, rfl⟩ : ∃ before, steps = before + 1 := ⟨steps - 1, by omega⟩
      obtain ⟨removed, behind, isRemoved, length, bound, two⟩ :=
        header.removed rest.headerType rest.bytes
      have compressed := self.compressRest_extension src dst isRemoved steps
      by_cases long : header.TooLong
      · rw [if_pos ((header.getLength_iff length).mpr long)] at compressed
        exact ⟨none, compressed, by simp⟩
      · obtain ⟨lossless, keptRest⟩ := kept.resolve_left long
        have notRouting := lossless.notRouting
        rw [header.removeHeader_bytes notRouting] at isRemoved
        cases isRemoved
        rw [if_neg (fun test => long ((header.getLength_iff length).mp test))] at compressed
        have shorter : rest.bytes.length < steps := by
          simp only [Chain.bytes, ExtensionHeader.bytes, List.length_append, List.length_cons]
            at enough
          omega
        obtain ⟨next, isNext, back⟩ := inductionHypothesis keptRest shorter
        dsimp only at compressed
        rw [isNext, ok_bind] at compressed
        refine ⟨_, compressed, ?_⟩
        rintro result ⟨⟩ sourceAddress destinationAddress steps' few
        rw [SixLowPanNhcExtension.serialize, List.length_append, List.length_cons] at few
        obtain ⟨steps', rfl⟩ : ∃ before, steps' = before + 1 := ⟨steps' - 1, by omega⟩
        rw [self.decompressNext_nhcHeader src dst (bound long)]
        refine rebuildHeader_bytes lossless (fun _ => rfl) fun part isPart => ?_
        subst isPart
        exact back part rfl sourceAddress destinationAddress steps' (by
          rw [Option.getD_some] at few
          omega)

/-- What is rebuilt of a compressed header: its kind, and its first two bytes. -/
theorem rebuildHeader_ok {decompress : List UInt8 → Except Failure (UInt8 × Bool × List UInt8)}
    {kind : ExtensionKind} {encoding : SixLowPanNhcExtension} {packet : List UInt8}
    {result : UInt8 × Bool × List UInt8}
    (rebuilt : rebuildHeader decompress kind encoding packet = .ok result) :
    ∃ nextHeader behind header,
      (encoding.getNh = true → ∃ dropped, decompress packet = .ok (nextHeader, dropped, behind)) ∧
      Ipv6Extension.deserialize kind (blobData kind nextHeader encoding.nhcBlob) = some header ∧
      result = (kind.headerType, false, header.serialize kind ++ behind) := by
  have finish : ∀ nextHeader behind, (do
      let header ← orAborted
        (Ipv6Extension.deserialize kind (blobData kind nextHeader encoding.nhcBlob))
      pure (kind.headerType, false, header.serialize kind ++ behind)) = Except.ok result →
      ∃ header, Ipv6Extension.deserialize kind (blobData kind nextHeader encoding.nhcBlob) =
          some header ∧ result = (kind.headerType, false, header.serialize kind ++ behind) := by
    intro nextHeader behind isOk
    cases isHeader : Ipv6Extension.deserialize kind (blobData kind nextHeader encoding.nhcBlob) with
    | none =>
        rw [isHeader] at isOk
        cases isOk
    | some header =>
        rw [isHeader] at isOk
        cases isOk
        exact ⟨header, rfl, rfl⟩
  rw [rebuildHeader] at rebuilt
  cases isNh : encoding.getNh with
  | false =>
      rw [isNh] at rebuilt
      obtain ⟨header, found⟩ := finish encoding.nhcNextHeader packet rebuilt
      exact ⟨_, _, header, by simp, found⟩
  | true =>
      rw [isNh, if_pos rfl] at rebuilt
      cases isNext : decompress packet with
      | error failure =>
          rw [isNext] at rebuilt
          cases rebuilt
      | ok next =>
          obtain ⟨nextHeader, dropped, behind⟩ := next
          rw [isNext] at rebuilt
          obtain ⟨header, found⟩ := finish nextHeader behind rebuilt
          exact ⟨_, _, header, fun _ => ⟨dropped, rfl⟩, found⟩

/-- The second byte of a header that is lost is another one. -/
theorem second_byte_ne {header : ExtensionHeader} (lossy : ¬ header.Lossless)
    (short : ¬ header.TooLong) {nextHeader : UInt8} {blob rest : List UInt8}
    (two : header.kind = .routing → blob.length = 2) {rebuilt : Ipv6Extension}
    (isRebuilt : Ipv6Extension.deserialize header.kind (blobData header.kind nextHeader blob) =
      some rebuilt) (behind : List UInt8) (other : UInt8) :
    header.bytes other ++ rest ≠ rebuilt.serialize header.kind ++ behind := by
  intro same
  have second := congrArg (·[1]?) same
  cases kind : header.kind with
  | destination => exact header.supported kind
  | hopByHop => exact lossy (.inl kind)
  | fragmentation =>
      have zero : header.length = 0 := by
        simpa [kind, ExtensionHeader.bytes, Ipv6Extension.serialize] using second
      exact lossy (.inr ⟨kind, zero⟩)
  | routing =>
      rw [kind, blobData, two kind] at isRebuilt
      rw [Ipv6Extension.deserialize, Ipv6Extension.contentsSize, two kind, if_pos (Nat.le_refl _),
        Option.some_inj] at isRebuilt
      subst isRebuilt
      have most : header.length = -1 := by
        simpa [kind, ExtensionHeader.bytes, Ipv6Extension.serialize] using second
      refine short ⟨by simp [kind], ?_⟩
      rw [most]
      decide

/-- A chain with a header that is lost does not come back. -/
theorem not_restores_of_lost {chain : Chain} (lost : ¬ chain.Kept) (noTunnel : ¬ chain.Tunnels)
    {steps : Nat} {next : Option (List UInt8)}
    (isNext : compressRest (self.compressNext src dst steps) chain.headerType chain.bytes =
      .ok next) :
    ∃ compressed, next = some compressed ∧
      ∀ sourceAddress destinationAddress steps' dropped,
        self.decompressNext src dst steps' sourceAddress destinationAddress compressed ≠
          .ok (chain.headerType, dropped, chain.bytes) := by
  induction chain generalizing steps next with
  | payload headerType other bytes => exact absurd trivial lost
  | encapsulated ipHeader rest => exact absurd trivial noTunnel
  | extension header rest inductionHypothesis =>
      have short : ¬ header.TooLong := fun long => lost (.inl long)
      cases steps with
      | zero =>
          rw [Chain.headerType, compressRest, if_pos (canCompress_extension header)] at isNext
          cases isNext
      | succ steps =>
          obtain ⟨removed, behind, isRemoved, length, bound, two⟩ :=
            header.removed rest.headerType rest.bytes
          have compressed := self.compressRest_extension src dst isRemoved steps
          rw [if_neg (fun test => short ((header.getLength_iff length).mp test))] at compressed
          replace isNext := compressed.symm.trans isNext
          cases isRest : compressRest (self.compressNext src dst steps) removed.nextHeader behind with
          | error failure =>
              rw [isRest] at isNext
              cases isNext
          | ok nextRest =>
              rw [isRest] at isNext
              cases isNext
              refine ⟨_, rfl, fun sourceAddress destinationAddress steps' dropped restored => ?_⟩
              cases steps' with
              | zero => cases restored
              | succ steps' =>
                  rw [self.decompressNext_nhcHeader src dst (bound short)] at restored
                  obtain ⟨nextHeader, packet, rebuilt, isPacket, isRebuilt, same⟩ :=
                    rebuildHeader_ok restored
                  have bytes := congrArg (·.2.2) same
                  by_cases lossless : header.Lossless
                  · have notRouting := lossless.notRouting
                    rw [header.removeHeader_bytes notRouting] at isRemoved
                    cases isRemoved
                    -- The header itself comes back, so the rest of the chain has to.
                    rw [nhcBlob_nhcHeader notRouting] at isRebuilt
                    have whole := header.rebuilt_bytes lossless nextHeader
                    rw [isRebuilt, Option.map_some, Option.some_inj] at whole
                    rw [whole] at bytes
                    obtain ⟨front, rfl⟩ := List.append_inj bytes rfl
                    obtain rfl : rest.headerType = nextHeader := (List.cons.inj front).1
                    obtain ⟨compressedRest, rfl, never⟩ := inductionHypothesis
                      (fun keptRest => lost (.inr ⟨lossless, keptRest⟩))
                      (fun tunnels => noTunnel ⟨short, lossless, tunnels⟩) isRest
                    obtain ⟨droppedRest, restored⟩ := isPacket (nhcHeader_bits _ _ _).1
                    exact never _ _ _ _ restored
                  · exact second_byte_ne lossless short two isRebuilt packet _ bytes

end SixLowPanNode

end Ns3.SixLowPan
