import Ns3.SixLowPan.RoundTrip

/-!
The header that `CompressLowPanIphc` adds.

Every choice is made once, in a field of the base format that was clear before. So the
receiver finds each of them, the inline parts in front of whatever follows them, and the two
contexts where they were not elided.
-/

namespace Ns3.SixLowPan

open Library

/-- The choices that a base format holds. -/
@[ext]
structure Choices where
  tf : TrafficClassFlowLabel
  nh : Bool
  hlim : Hlim
  cid : Bool
  sac : Bool
  sam : HeaderCompression
  m : Bool
  dac : Bool
  dam : HeaderCompression
  deriving DecidableEq, Repr

theorem TrafficClassFlowLabel.code_of_ofCode :
    ∀ {bits : BitVec 2}, ofCode bits = tfFull → bits = 0 := by
  decide

theorem Hlim.code_of_ofCode : ∀ {bits : BitVec 2}, ofCode bits = hlimInline → bits = 0 := by
  decide

theorem HeaderCompression.code_of_ofCode :
    ∀ {bits : BitVec 2}, ofCode bits = hcInline → bits = 0 := by
  decide

theorem bit_or_ofBool : ∀ (bit : BitVec 1) (value : Bool),
    decide (bit ||| BitVec.ofBool value = 1#1) = (decide (bit = 1#1) || value) := by
  decide

namespace SixLowPanIphc

/-- The choices of a header. -/
def choices (self : SixLowPanIphc) : Choices :=
  ⟨self.getTf, self.getNh, self.getHlim, self.getCid, self.getSac, self.getSam, self.getM,
    self.getDac, self.getDam⟩

/-- The choices only depend on the base format. -/
theorem choices_congr {a b : SixLowPanIphc} (same : a.baseFormat = b.baseFormat) :
    a.choices = b.choices := by
  unfold choices getTf getNh getHlim getCid getSac getSam getM getDac getDam
  rw [same]

theorem choices_create (srcGarbage dstGarbage : List UInt8) :
    (create srcGarbage dstGarbage).choices =
      ⟨.tfFull, false, .hlimInline, false, false, .hcInline, false, false, .hcInline⟩ := by
  rw [@choices_congr (create srcGarbage dstGarbage) (create [] []) rfl]
  decide

theorem choices_setTf {self : SixLowPanIphc} (clear : self.getTf = .tfFull)
    (field : TrafficClassFlowLabel) :
    (self.setTf field).choices = { self.choices with tf := field } := by
  have zero := TrafficClassFlowLabel.code_of_ofCode clear
  simp (disch := decide) [choices, setTf, getTf, getNh, getHlim, getCid, getSac, getSam, getM,
    getDac, getDam, getField_setField, getField_setField_of_disjoint, zero]

theorem choices_setHlim {self : SixLowPanIphc} (clear : self.getHlim = .hlimInline)
    (field : Hlim) :
    (self.setHlim field).choices = { self.choices with hlim := field } := by
  have zero := Hlim.code_of_ofCode clear
  simp (disch := decide) [choices, setHlim, getTf, getNh, getHlim, getCid, getSac, getSam, getM,
    getDac, getDam, getField_setField, getField_setField_of_disjoint, zero]

theorem choices_setSam {self : SixLowPanIphc} (clear : self.getSam = .hcInline)
    (field : HeaderCompression) :
    (self.setSam field).choices = { self.choices with sam := field } := by
  have zero := HeaderCompression.code_of_ofCode clear
  simp (disch := decide) [choices, setSam, getTf, getNh, getHlim, getCid, getSac, getSam, getM,
    getDac, getDam, getField_setField, getField_setField_of_disjoint, zero]

theorem choices_setDam {self : SixLowPanIphc} (clear : self.getDam = .hcInline)
    (field : HeaderCompression) :
    (self.setDam field).choices = { self.choices with dam := field } := by
  have zero := HeaderCompression.code_of_ofCode clear
  simp (disch := decide) [choices, setDam, getTf, getNh, getHlim, getCid, getSac, getSam, getM,
    getDac, getDam, getField_setField, getField_setField_of_disjoint, zero]

theorem choices_setNh (self : SixLowPanIphc) (field : Bool) :
    (self.setNh field).choices = { self.choices with nh := self.choices.nh || field } := by
  simp (disch := decide) [choices, setNh, getTf, getNh, getHlim, getCid, getSac, getSam, getM,
    getDac, getDam, getField_setField, getField_setField_of_disjoint, bit_or_ofBool]

theorem choices_setCid (self : SixLowPanIphc) (field : Bool) :
    (self.setCid field).choices = { self.choices with cid := self.choices.cid || field } := by
  simp (disch := decide) [choices, setCid, getTf, getNh, getHlim, getCid, getSac, getSam, getM,
    getDac, getDam, getField_setField, getField_setField_of_disjoint, bit_or_ofBool]

theorem choices_setSac (self : SixLowPanIphc) (field : Bool) :
    (self.setSac field).choices = { self.choices with sac := self.choices.sac || field } := by
  simp (disch := decide) [choices, setSac, getTf, getNh, getHlim, getCid, getSac, getSam, getM,
    getDac, getDam, getField_setField, getField_setField_of_disjoint, bit_or_ofBool]

theorem choices_setM (self : SixLowPanIphc) (field : Bool) :
    (self.setM field).choices = { self.choices with m := self.choices.m || field } := by
  simp (disch := decide) [choices, setM, getTf, getNh, getHlim, getCid, getSac, getSam, getM,
    getDac, getDam, getField_setField, getField_setField_of_disjoint, bit_or_ofBool]

theorem choices_setDac (self : SixLowPanIphc) (field : Bool) :
    (self.setDac field).choices = { self.choices with dac := self.choices.dac || field } := by
  simp (disch := decide) [choices, setDac, getTf, getNh, getHlim, getCid, getSac, getSam, getM,
    getDac, getDam, getField_setField, getField_setField_of_disjoint, bit_or_ofBool]

@[simp]
theorem choices_setSrcInlinePart (self : SixLowPanIphc) (part : List UInt8) :
    (self.setSrcInlinePart part).choices = self.choices :=
  choices_congr rfl

@[simp]
theorem choices_setDstInlinePart (self : SixLowPanIphc) (part : List UInt8) :
    (self.setDstInlinePart part).choices = self.choices :=
  choices_congr rfl

@[simp]
theorem setSac_false (self : SixLowPanIphc) : self.setSac false = self := by
  simp [setSac, setField]

@[simp]
theorem setDac_false (self : SixLowPanIphc) : self.setDac false = self := by
  simp [setDac, setField]

@[simp]
theorem setSam_hcInline (self : SixLowPanIphc) : self.setSam .hcInline = self := by
  simp [setSam, setField, HeaderCompression.code]

end SixLowPanIphc

/-- How an address is told: with a context or without one, with the context of that number,
and with what is left of the address. -/
structure AddressCode where
  stateful : Bool
  context : Fin 16
  compressed : SixLowPanNetDevice.CompressedAddress
  deriving DecidableEq, Repr

namespace AddressCode

/-- The number of the context in a header. -/
def number (self : AddressCode) : UInt8 := UInt8.ofNat self.context

/-- The bytes that a unicast address takes. -/
def unicastSize (self : AddressCode) : Nat :=
  match self.compressed.mode with
  | .hcInline => if self.stateful then 0 else 16
  | .hcCompr64 => 8
  | .hcCompr16 => 2
  | .hcCompr0 => 0

/-- The bytes that a multicast address takes. -/
def multicastSize (self : AddressCode) : Nat :=
  match self.compressed.mode with
  | .hcInline => if self.stateful then 6 else 16
  | .hcCompr64 => if self.stateful then 0 else 6
  | .hcCompr16 => if self.stateful then 0 else 4
  | .hcCompr0 => if self.stateful then 0 else 1

theorem number_lt (self : AddressCode) : self.number < 16 := by
  have all : ∀ context : Fin 16, UInt8.ofNat context < 16 := by decide
  exact all self.context

theorem number_eq_zero {self : AddressCode} : self.number = 0 ↔ self.context = 0 := by
  have all : ∀ context : Fin 16, UInt8.ofNat context = 0 ↔ context = 0 := by decide
  exact all self.context

end AddressCode

namespace SixLowPanNetDevice

open SixLowPanIphc

/-- The source address as the header tells it. -/
def withSource (code : AddressCode) (iphcHeader : SixLowPanIphc) : SixLowPanIphc :=
  setSrcAddress code.compressed (setSrcContext code.context (iphcHeader.setSac code.stateful))

/-- The destination address as the header tells it. -/
def withDestination (code : AddressCode) (iphcHeader : SixLowPanIphc) : SixLowPanIphc :=
  setDstAddress code.compressed (setDstContext code.context (iphcHeader.setDac code.stateful))

/-- The code of a unicast address. -/
def unicastCode (self : SixLowPanNetDevice) (address : Ipv6Address) (link : LinkAddress) :
    Except Failure AddressCode :=
  match self.findUnicastCompressionContext address with
  | some contextId =>
      match self.contextPrefix? contextId with
      | none => .error .aborted
      | some contextPrefix =>
          (compressStateful address link contextPrefix).map (⟨true, contextId, ·⟩)
  | none => .ok ⟨false, 0, compressStateless address link⟩

/-- The code of a source address. -/
def sourceCode (self : SixLowPanNetDevice) (srcAddr : Ipv6Address) (src : LinkAddress) :
    Except Failure AddressCode :=
  if srcAddr = Ipv6Address.any then .ok ⟨true, 0, ⟨.hcInline, []⟩⟩
  else self.unicastCode srcAddr src

/-- The code of a multicast address. -/
def multicastCode (self : SixLowPanNetDevice) (dstAddr : Ipv6Address) : AddressCode :=
  match self.findMulticastCompressionContext dstAddr with
  | some contextId =>
      ⟨true, contextId, ⟨.hcInline, (dstAddr.bytes.drop 1).take 2 ++ dstAddr.bytes.drop 12⟩⟩
  | none => ⟨false, 0, compressMulticast dstAddr⟩

/-- The code of a destination address. -/
def destinationCode (self : SixLowPanNetDevice) (dstAddr : Ipv6Address) (dst : LinkAddress) :
    Except Failure AddressCode :=
  if dstAddr.isMulticast then .ok (self.multicastCode dstAddr)
  else self.unicastCode dstAddr dst

theorem compressSource_eq (self : SixLowPanNetDevice) (srcAddr : Ipv6Address)
    (src : LinkAddress) (iphcHeader : SixLowPanIphc) :
    self.compressSource srcAddr src iphcHeader =
      (self.sourceCode srcAddr src).map (withSource · iphcHeader) := by
  unfold compressSource sourceCode unicastCode
  by_cases any : srcAddr = Ipv6Address.any
  · rw [if_pos any, if_pos any]
    simp [Except.map, withSource, setSrcAddress, setSrcContext, setSrcInlinePart]
  · rw [if_neg any, if_neg any]
    cases self.findUnicastCompressionContext srcAddr with
    | none => simp [Except.map, withSource, setSrcContext]
    | some contextId =>
        dsimp only
        cases self.contextPrefix? contextId with
        | none => rfl
        | some contextPrefix =>
            dsimp only
            cases compressStateful srcAddr src contextPrefix <;> rfl

theorem compressDestination_eq (self : SixLowPanNetDevice) (dstAddr : Ipv6Address)
    (dst : LinkAddress) (iphcHeader : SixLowPanIphc) :
    self.compressDestination dstAddr dst iphcHeader =
      (self.destinationCode dstAddr dst).map
        (withDestination · (iphcHeader.setM dstAddr.isMulticast)) := by
  unfold compressDestination destinationCode
  cases dstAddr.isMulticast with
  | true =>
      simp only [if_true, compressMulticastDestination, multicastCode, Except.map]
      cases self.findMulticastCompressionContext dstAddr with
      | none => simp [withDestination, setDstContext]
      | some contextId => rfl
  | false =>
      simp only [Bool.false_eq_true, if_false, compressUnicastDestination, unicastCode]
      cases self.findUnicastCompressionContext dstAddr with
      | none => simp [Except.map, withDestination, setDstContext]
      | some contextId =>
          dsimp only
          cases self.contextPrefix? contextId with
          | none => rfl
          | some contextPrefix =>
              dsimp only
              cases compressStateful dstAddr dst contextPrefix <;> rfl

theorem choices_setSrcContext (contextId : Fin 16) (iphcHeader : SixLowPanIphc) :
    (setSrcContext contextId iphcHeader).choices =
      { iphcHeader.choices with
        cid := iphcHeader.choices.cid || decide (contextId ≠ 0) } := by
  unfold setSrcContext
  by_cases default : contextId = 0
  · simp [default]
  · rw [if_pos default, choices_setCid]
    simp [default, @choices_congr (iphcHeader.setSrcContextId _) iphcHeader rfl]

theorem choices_setDstContext (contextId : Fin 16) (iphcHeader : SixLowPanIphc) :
    (setDstContext contextId iphcHeader).choices =
      { iphcHeader.choices with
        cid := iphcHeader.choices.cid || decide (contextId ≠ 0) } := by
  unfold setDstContext
  by_cases default : contextId = 0
  · simp [default]
  · rw [if_pos default, choices_setCid]
    simp [default, @choices_congr (iphcHeader.setDstContextId _) iphcHeader rfl]

theorem choices_withSource {iphcHeader : SixLowPanIphc} (clear : iphcHeader.getSam = .hcInline)
    (code : AddressCode) :
    (withSource code iphcHeader).choices =
      { iphcHeader.choices with
        cid := iphcHeader.choices.cid || decide (code.context ≠ 0)
        sac := iphcHeader.choices.sac || code.stateful
        sam := code.compressed.mode } := by
  have context := choices_setSrcContext code.context (iphcHeader.setSac code.stateful)
  rw [choices_setSac] at context
  have still : (setSrcContext code.context (iphcHeader.setSac code.stateful)).getSam =
      .hcInline := by
    change (setSrcContext code.context (iphcHeader.setSac code.stateful)).choices.sam = _
    rw [context]
    exact clear
  unfold withSource setSrcAddress
  rw [choices_setSrcInlinePart, choices_setSam still, context]

theorem choices_withDestination {iphcHeader : SixLowPanIphc}
    (clear : iphcHeader.getDam = .hcInline) (code : AddressCode) :
    (withDestination code iphcHeader).choices =
      { iphcHeader.choices with
        cid := iphcHeader.choices.cid || decide (code.context ≠ 0)
        dac := iphcHeader.choices.dac || code.stateful
        dam := code.compressed.mode } := by
  have context := choices_setDstContext code.context (iphcHeader.setDac code.stateful)
  rw [choices_setDac] at context
  have still : (setDstContext code.context (iphcHeader.setDac code.stateful)).getDam =
      .hcInline := by
    change (setDstContext code.context (iphcHeader.setDac code.stateful)).choices.dam = _
    rw [context]
    exact clear
  unfold withDestination setDstAddress
  rw [choices_setDstInlinePart, choices_setDam still, context]

/-- What `withSource` changes. -/
theorem withSource_eq (code : AddressCode) (iphcHeader : SixLowPanIphc) :
    withSource code iphcHeader =
      { iphcHeader with
        baseFormat := (withSource code iphcHeader).baseFormat
        srcdstContextId := iphcHeader.srcdstContextId ||| code.number <<< 4
        srcInlinePart := code.compressed.inlinePart ++
          iphcHeader.srcInlinePart.drop code.compressed.inlinePart.length } := by
  by_cases default : code.context = 0
  · have zero : code.number = 0 := AddressCode.number_eq_zero.mpr default
    simp [withSource, setSrcAddress, setSrcContext, setSrcInlinePart, setSam, setSac, default, zero]
  · simp [withSource, setSrcAddress, setSrcContext, setSrcInlinePart, setSam, setSac,
      setSrcContextId, setCid, default, AddressCode.number]

theorem withDestination_eq (code : AddressCode) (iphcHeader : SixLowPanIphc) :
    withDestination code iphcHeader =
      { iphcHeader with
        baseFormat := (withDestination code iphcHeader).baseFormat
        srcdstContextId := iphcHeader.srcdstContextId ||| (code.number &&& 0xF)
        dstInlinePart := code.compressed.inlinePart ++
          iphcHeader.dstInlinePart.drop code.compressed.inlinePart.length } := by
  by_cases default : code.context = 0
  · have zero : code.number = 0 := AddressCode.number_eq_zero.mpr default
    simp [withDestination, setDstAddress, setDstContext, setDstInlinePart, setDam, setDac, default,
      zero]
  · simp [withDestination, setDstAddress, setDstContext, setDstInlinePart, setDam, setDac,
      setDstContextId, setCid, default, AddressCode.number]

/-- The header before the addresses are in it. -/
def prepared (self : SixLowPanNetDevice) (ipHeader : Ipv6Header) (payload : List UInt8)
    (src dst : LinkAddress) : SixLowPanIphc :=
  (compressHlim ipHeader.hopLimit
    (self.compressNh ipHeader.nextHeader payload src dst
      (compressTf ipHeader (.create self.srcGarbage self.dstGarbage))).1).setCid false

/-- What is left of the packet behind the header. -/
def remaining (self : SixLowPanNetDevice) (ipHeader : Ipv6Header) (payload : List UInt8)
    (src dst : LinkAddress) : List UInt8 :=
  (self.compressNh ipHeader.nextHeader payload src dst
    (compressTf ipHeader (.create self.srcGarbage self.dstGarbage))).2

/-- The header with the addresses. -/
def encoded (iphcHeader : SixLowPanIphc) (multicast : Bool) (source destination : AddressCode) :
    SixLowPanIphc :=
  withDestination destination ((withSource source iphcHeader).setM multicast)

theorem compressHeader_eq (self : SixLowPanNetDevice) (ipHeader : Ipv6Header)
    (payload : List UInt8) (src dst : LinkAddress) :
    self.compressHeader ipHeader payload src dst = (do
      let source ← self.sourceCode ipHeader.sourceAddress src
      let destination ← self.destinationCode ipHeader.destinationAddress dst
      pure (encoded (self.prepared ipHeader payload src dst)
        ipHeader.destinationAddress.isMulticast source destination,
        self.remaining ipHeader payload src dst)) := by
  unfold compressHeader
  simp only [compressSource_eq, compressDestination_eq, setSac_false, setDac_false]
  cases self.sourceCode ipHeader.sourceAddress src with
  | error failure => rfl
  | ok source =>
      change ((self.destinationCode ipHeader.destinationAddress dst).map _ >>= _) =
        (self.destinationCode ipHeader.destinationAddress dst >>= _)
      cases self.destinationCode ipHeader.destinationAddress dst <;> rfl

theorem choices_compressTf (ipHeader : Ipv6Header) (srcGarbage dstGarbage : List UInt8) :
    ∃ tf, (compressTf ipHeader (.create srcGarbage dstGarbage)).choices =
      { (create srcGarbage dstGarbage).choices with tf := tf } := by
  have set := @choices_setTf (create srcGarbage dstGarbage)
    (congrArg Choices.tf (choices_create srcGarbage dstGarbage))
  unfold compressTf
  split
  · exact ⟨_, set _⟩
  · split
    · exact ⟨_, (choices_congr rfl).trans (set .tfFull)⟩
    · split
      · exact ⟨_, (choices_congr rfl).trans (set .tfFlElided)⟩
      · exact ⟨_, (choices_congr rfl).trans (set .tfDscpElided)⟩

theorem choices_compressNh (self : SixLowPanNetDevice) (nextHeader : UInt8)
    (payload : List UInt8) (src dst : LinkAddress) (iphcHeader : SixLowPanIphc) :
    ∃ nh, (self.compressNh nextHeader payload src dst iphcHeader).1.choices =
      { iphcHeader.choices with nh := nh } := by
  unfold compressNh
  split
  · split
    · exact ⟨_, choices_setNh iphcHeader true⟩
    · exact ⟨_, (choices_congr rfl).trans (choices_setNh iphcHeader false)⟩
  · exact ⟨_, (choices_congr rfl).trans (choices_setNh iphcHeader false)⟩

theorem choices_compressHlim (hopLimit : UInt8) {iphcHeader : SixLowPanIphc}
    (clear : iphcHeader.getHlim = .hlimInline) :
    ∃ hlim, (compressHlim hopLimit iphcHeader).choices =
      { iphcHeader.choices with hlim := hlim } := by
  have set := choices_setHlim clear
  unfold compressHlim
  split
  · exact ⟨_, set _⟩
  · split
    · exact ⟨_, set _⟩
    · split
      · exact ⟨_, set _⟩
      · exact ⟨_, (choices_congr rfl).trans (set .hlimInline)⟩

/-- The addresses are not told yet. -/
theorem choices_prepared (self : SixLowPanNetDevice) (ipHeader : Ipv6Header)
    (payload : List UInt8) (src dst : LinkAddress) :
    (self.prepared ipHeader payload src dst).choices =
      ⟨(compressTf ipHeader (.create self.srcGarbage self.dstGarbage)).getTf,
        (self.compressNh ipHeader.nextHeader payload src dst
          (compressTf ipHeader (.create self.srcGarbage self.dstGarbage))).1.getNh,
        (compressHlim ipHeader.hopLimit
          (self.compressNh ipHeader.nextHeader payload src dst
            (compressTf ipHeader (.create self.srcGarbage self.dstGarbage))).1).getHlim,
        false, false, .hcInline, false, false, .hcInline⟩ := by
  obtain ⟨tf, isTf⟩ := choices_compressTf ipHeader self.srcGarbage self.dstGarbage
  have sameTf := congrArg Choices.tf isTf
  obtain ⟨nh, isNh⟩ := self.choices_compressNh ipHeader.nextHeader payload src dst
    (compressTf ipHeader (.create self.srcGarbage self.dstGarbage))
  have sameNh := congrArg Choices.nh isNh
  rw [isTf, choices_create] at isNh
  obtain ⟨hlim, isHlim⟩ := choices_compressHlim ipHeader.hopLimit (congrArg Choices.hlim isNh)
  have sameHlim := congrArg Choices.hlim isHlim
  rw [isNh] at isHlim
  dsimp only [SixLowPanIphc.choices] at sameTf sameNh sameHlim
  unfold prepared
  rw [choices_setCid, isHlim, sameTf, sameNh, sameHlim]
  rfl

/-- What the header tells. -/
theorem choices_encoded {iphcHeader : SixLowPanIphc} {tf : TrafficClassFlowLabel} {nh : Bool}
    {hlim : Hlim}
    (plain : iphcHeader.choices =
      ⟨tf, nh, hlim, false, false, .hcInline, false, false, .hcInline⟩)
    (multicast : Bool) (source destination : AddressCode) :
    (encoded iphcHeader multicast source destination).choices =
      ⟨tf, nh, hlim, decide (source.context ≠ 0) || decide (destination.context ≠ 0),
        source.stateful, source.compressed.mode, multicast, destination.stateful,
        destination.compressed.mode⟩ := by
  have withSource := choices_withSource (congrArg Choices.sam plain) source
  rw [plain] at withSource
  have withM := choices_setM (SixLowPanNetDevice.withSource source iphcHeader) multicast
  rw [withSource] at withM
  unfold encoded
  rw [choices_withDestination (congrArg Choices.dam withM), withM]
  simp

theorem length_cleanPrefix (address : Ipv6Address) (contextPrefix : Ipv6Prefix) :
    (cleanPrefix address contextPrefix).length = 16 := by
  unfold cleanPrefix
  rw [List.length_mapIdx, address.length_bytes]

theorem length_unicastCode {self : SixLowPanNetDevice} {address : Ipv6Address}
    {link : LinkAddress} {code : AddressCode} (told : self.unicastCode address link = .ok code) :
    code.compressed.inlinePart.length = code.unicastSize := by
  unfold unicastCode at told
  split at told
  · split at told
    · cases told
    · next contextPrefix _ =>
      unfold compressStateful at told
      split at told
      · cases told
      · split at told
        · cases told
          rfl
        · dsimp only at told
          split at told
          · cases told
            simp [AddressCode.unicastSize, length_cleanPrefix]
          · cases told
            simp [AddressCode.unicastSize, length_cleanPrefix]
  · cases told
    unfold AddressCode.unicastSize compressStateless
    split
    · rfl
    · split
      · simp [address.length_bytes]
      · split
        · simp [address.length_bytes]
        · simp [address.length_bytes]

theorem length_sourceCode {self : SixLowPanNetDevice} {address : Ipv6Address}
    {link : LinkAddress} {code : AddressCode} (told : self.sourceCode address link = .ok code) :
    code.compressed.inlinePart.length = code.unicastSize := by
  unfold sourceCode at told
  split at told
  · cases told
    rfl
  · exact length_unicastCode told

theorem length_multicastCode (self : SixLowPanNetDevice) (address : Ipv6Address) :
    (self.multicastCode address).compressed.inlinePart.length =
      (self.multicastCode address).multicastSize := by
  unfold multicastCode
  split
  · simp [AddressCode.multicastSize, address.length_bytes]
  · unfold AddressCode.multicastSize compressMulticast
    dsimp only
    split
    · simp [address.length_bytes]
    · split
      · simp [address.length_bytes]
      · split
        · simp [address.length_bytes]
        · simp [address.length_bytes]

/-- Where the context is needed, a unicast address is not told in full. -/
theorem mode_unicastCode {self : SixLowPanNetDevice} {address : Ipv6Address}
    {link : LinkAddress} {code : AddressCode} (told : self.unicastCode address link = .ok code)
    (stateful : code.stateful = true) : code.compressed.mode ≠ .hcInline := by
  unfold unicastCode at told
  split at told
  · split at told
    · cases told
    · unfold compressStateful at told
      split at told
      · cases told
      · split at told
        · cases told
          simp
        · dsimp only at told
          split at told
          · cases told
            simp
          · cases told
            simp
  · cases told
    cases stateful

/-- The size that `GetSerializedSize` counts for the destination. -/
def destinationSize (multicast : Bool) (code : AddressCode) : Nat :=
  if multicast then code.multicastSize else code.unicastSize

theorem length_destinationCode {self : SixLowPanNetDevice} {address : Ipv6Address}
    {link : LinkAddress} {code : AddressCode}
    (told : self.destinationCode address link = .ok code) :
    code.compressed.inlinePart.length = destinationSize address.isMulticast code := by
  unfold destinationCode at told
  unfold destinationSize
  cases multicast : address.isMulticast with
  | true =>
      rw [multicast, if_pos rfl] at told
      cases told
      exact self.length_multicastCode address
  | false =>
      rw [multicast] at told
      exact length_unicastCode told

end SixLowPanNetDevice

end Ns3.SixLowPan
