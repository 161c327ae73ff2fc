import Ns3.SixLowPan.Compression

/-!
What the receiver reads from the header that the sender has written.
-/

namespace Ns3.SixLowPan

open Library

/-- The two fields of a byte, the upper one with two bits. -/
theorem join_shiftRight {upper lower : UInt8} (small : upper < 4) (short : lower < 64) :
    (upper <<< 6 ||| lower) >>> 6 = upper := by
  have all : ∀ a : Fin 4, ∀ b : Fin 64,
      (UInt8.ofNat a <<< 6 ||| UInt8.ofNat b) >>> 6 = UInt8.ofNat a := by
    decide
  have result := all ⟨upper.toNat, small⟩ ⟨lower.toNat, short⟩
  simpa using result

theorem join_and {upper lower : UInt8} (small : upper < 4) (short : lower < 64) :
    (upper <<< 6 ||| lower) &&& 0x3F = lower := by
  have all : ∀ a : Fin 4, ∀ b : Fin 64,
      (UInt8.ofNat a <<< 6 ||| UInt8.ofNat b) &&& 0x3F = UInt8.ofNat b := by
    decide
  have result := all ⟨upper.toNat, small⟩ ⟨lower.toNat, short⟩
  simpa using result

namespace SixLowPanIphc

/-- The sizes that the fields of the class have. -/
structure WellFormed (header : SixLowPanIphc) : Prop where
  ecn : header.ecn < 4
  dscp : header.dscp < 64
  srcInlinePart : header.srcInlinePart.length = 16
  dstInlinePart : header.dstInlinePart.length = 16

/-- The traffic class and the flow label that the receiver reads. -/
def receivedTf (self into : SixLowPanIphc) : SixLowPanIphc :=
  match self.getTf with
  | .tfFull => { into with ecn := self.ecn, dscp := self.dscp, flowLabel := self.flowLabel }
  | .tfDscpElided => { into with ecn := self.ecn, flowLabel := self.flowLabel }
  | .tfFlElided => { into with ecn := self.ecn, dscp := self.dscp }
  | .tfElided => into

/-- The hop limit that the receiver reads. -/
def receivedHopLimit (self : SixLowPanIphc) : UInt8 :=
  match self.getHlim with
  | .hlimInline => self.hopLimit
  | .hlimCompr1 => 1
  | .hlimCompr64 => 64
  | .hlimCompr255 => 255

/-- The header that the receiver reads. -/
def received (self : SixLowPanIphc) : SixLowPanIphc :=
  { self.receivedTf
      { create [] [] with
        baseFormat := self.baseFormat
        srcdstContextId := if self.getCid then self.srcdstContextId else 0 } with
    nextHeader := if self.getNh then 0 else self.nextHeader
    hopLimit := self.receivedHopLimit
    srcInlinePart := padded (self.srcInlinePart.take self.sourceSize)
    dstInlinePart := padded (self.dstInlinePart.take self.destinationWidth) }

theorem flowByte_lt (self : SixLowPanIphc) : self.flowByte 16 < 64 := by
  have small : self.flowLabel.toNat / 65536 < 64 := by
    have := self.flowLabel.isLt
    omega
  change (self.flowByte 16).toNat < 64
  unfold flowByte
  simp only [UInt8.toNat_ofBitVec, BitVec.toNat_setWidth, BitVec.toNat_ushiftRight,
    Nat.shiftRight_eq_div_pow]
  omega

/-- The flow label from its bytes. -/
theorem flowLabel_bytes (self : SixLowPanIphc) :
    (((self.flowByte 16).toBitVec.setWidth 20 <<< 8 ||| (self.flowByte 8).toBitVec.setWidth 20) <<<
        8) ||| (self.flowByte 0).toBitVec.setWidth 20 = self.flowLabel := by
  apply BitVec.eq_of_getLsbD_eq
  intro i small
  have inside : i - 8 < 20 := by omega
  have within : i - 8 - 8 < 20 := by omega
  unfold flowByte
  simp only [BitVec.getLsbD_or, BitVec.getLsbD_shiftLeft, BitVec.getLsbD_setWidth,
    BitVec.getLsbD_ushiftRight]
  by_cases low : i < 8
  · simp [low, small]
  · by_cases middle : i - 8 < 8
    · have shifted : 8 + (i - 8) = i := by omega
      simp [low, small, middle, shifted, inside]
    · have shifted : 16 + (i - 8 - 8) = i := by omega
      have last : i - 8 - 8 < 8 := by omega
      simp [low, small, middle, last, shifted, inside, within]

theorem deserializeBase_append (self : SixLowPanIphc) (rest : List UInt8) :
    deserializeBase ((toBytes 2 self.baseFormat.toNat).reverse ++
        ((if self.getCid then [self.srcdstContextId] else []) ++ rest)) =
      some ({ create [] [] with
        baseFormat := self.baseFormat
        srcdstContextId := if self.getCid then self.srcdstContextId else 0 }, rest) := by
  have word : BitVec.ofNat 16 (ofBytes (toBytes 2 self.baseFormat.toNat)) = self.baseFormat := by
    rw [ofBytes_toBytes self.baseFormat.isLt, BitVec.ofNat_toNat, BitVec.setWidth_eq]
  have same : ({ create [] [] with baseFormat := self.baseFormat } : SixLowPanIphc).getCid =
      self.getCid := rfl
  change (let header : SixLowPanIphc := { create [] [] with
      baseFormat := BitVec.ofNat 16 (ofBytes (toBytes 2 self.baseFormat.toNat)) }
    if header.getCid then
      (readU8 ((if self.getCid then [self.srcdstContextId] else []) ++ rest)).map
        fun read => ({ header with srcdstContextId := read.1 }, read.2)
    else some (header, (if self.getCid then [self.srcdstContextId] else []) ++ rest)) = _
  rw [word]
  dsimp only
  rw [same]
  cases self.getCid <;> rfl

theorem deserializeTf_append {self into : SixLowPanIphc} (wellFormed : self.WellFormed)
    (sameFormat : into.baseFormat = self.baseFormat) (rest : List UInt8) :
    into.deserializeTf (self.serializeTf ++ rest) = some (self.receivedTf into, rest) := by
  have same : into.getTf = self.getTf := by
    unfold getTf
    rw [sameFormat]
  have flow := self.flowLabel_bytes
  have small := self.flowByte_lt
  unfold deserializeTf serializeTf receivedTf
  rw [same]
  cases self.getTf with
  | tfFull =>
      simp only [List.cons_append, List.nil_append]
      rw [flow, join_shiftRight wellFormed.ecn wellFormed.dscp,
        join_and wellFormed.ecn wellFormed.dscp]
  | tfDscpElided =>
      simp only [List.cons_append, List.nil_append]
      rw [join_shiftRight wellFormed.ecn small, join_and wellFormed.ecn small, flow]
  | tfFlElided =>
      simp only [List.cons_append, List.nil_append]
      rw [join_shiftRight wellFormed.ecn wellFormed.dscp,
        join_and wellFormed.ecn wellFormed.dscp]
  | tfElided => rfl

theorem readBytes_append {part : List UInt8} {count : Nat} (whole : part.length = count)
    (rest : List UInt8) : readBytes count (part ++ rest) = some (part, rest) := by
  subst whole
  simp [readBytes]

theorem baseFormat_receivedTf (self into : SixLowPanIphc) :
    (self.receivedTf into).baseFormat = into.baseFormat := by
  unfold receivedTf
  cases self.getTf <;> rfl

theorem deserializeNh_append {self into : SixLowPanIphc}
    (sameFormat : into.baseFormat = self.baseFormat) (rest : List UInt8) :
    into.deserializeNh ((if self.getNh then [] else [self.nextHeader]) ++ rest) =
      some ({ into with nextHeader := if self.getNh then into.nextHeader else self.nextHeader },
        rest) := by
  have same : into.getNh = self.getNh := by
    unfold getNh
    rw [sameFormat]
  unfold deserializeNh
  rw [same]
  cases self.getNh <;> rfl

theorem deserializeHlim_append {self into : SixLowPanIphc}
    (sameFormat : into.baseFormat = self.baseFormat) (rest : List UInt8) :
    into.deserializeHlim ((if self.getHlim = .hlimInline then [self.hopLimit] else []) ++ rest) =
      some ({ into with hopLimit := self.receivedHopLimit }, rest) := by
  have same : into.getHlim = self.getHlim := by
    unfold getHlim
    rw [sameFormat]
  unfold deserializeHlim receivedHopLimit
  rw [same]
  cases self.getHlim <;> rfl

theorem sourceSize_le (self : SixLowPanIphc) : self.sourceSize ≤ 16 := by
  unfold sourceSize
  cases self.getSac <;> cases self.getSam <;> decide

theorem destinationWidth_le (self : SixLowPanIphc) : self.destinationWidth ≤ 16 := by
  unfold destinationWidth
  cases self.getM <;> cases self.getDam <;> decide

/-- The sizes only depend on the base format. -/
theorem sourceSize_congr {a b : SixLowPanIphc} (same : a.baseFormat = b.baseFormat) :
    a.sourceSize = b.sourceSize := by
  unfold sourceSize getSam getSac
  rw [same]

theorem destinationWidth_congr {a b : SixLowPanIphc} (same : a.baseFormat = b.baseFormat) :
    a.destinationWidth = b.destinationWidth := by
  unfold destinationWidth getM getDam
  rw [same]

theorem getSerializedSize_congr {a b : SixLowPanIphc} (same : a.baseFormat = b.baseFormat) :
    a.getSerializedSize = b.getSerializedSize := by
  unfold getSerializedSize sourceSize destinationSize getCid getTf getNh getHlim getSam getSac
    getM getDam getDac
  rw [same]

/-- `Deserialize`, with the bytes behind the last one that it reads. -/
def deserializeFrom (bytes : List UInt8) : Option (SixLowPanIphc × List UInt8) := do
  let (self, bytes) ← deserializeBase bytes
  let (self, bytes) ← self.deserializeTf bytes
  let (self, bytes) ← self.deserializeNh bytes
  let (self, bytes) ← self.deserializeHlim bytes
  let (source, bytes) ← readBytes self.sourceSize bytes
  let (destination, bytes) ← readBytes self.destinationWidth bytes
  pure ({ self with srcInlinePart := padded source, dstInlinePart := padded destination }, bytes)

theorem deserialize_eq (bytes : List UInt8) :
    deserialize bytes = (deserializeFrom bytes).map Prod.fst := by
  simp only [deserialize, deserializeFrom, Option.bind_eq_bind, Option.map_bind, Option.pure_def,
    Function.comp_def, Option.map_some]

/-- Reading ends where the header ends. -/
theorem deserializeFrom_append {self : SixLowPanIphc} (wellFormed : self.WellFormed)
    (rest : List UInt8) :
    deserializeFrom (self.serialize ++ rest) = some (self.received, rest) := by
  have source : (self.srcInlinePart.take self.sourceSize).length = self.sourceSize := by
    rw [List.length_take, wellFormed.srcInlinePart]
    exact Nat.min_eq_left self.sourceSize_le
  have destination :
      (self.dstInlinePart.take self.destinationWidth).length = self.destinationWidth := by
    rw [List.length_take, wellFormed.dstInlinePart]
    exact Nat.min_eq_left self.destinationWidth_le
  have tf := @deserializeTf_append self
    { create [] [] with
      baseFormat := self.baseFormat
      srcdstContextId := if self.getCid then self.srcdstContextId else 0 } wellFormed rfl
  unfold deserializeFrom serialize
  simp only [List.append_assoc, Option.bind_eq_bind, deserializeBase_append, Option.bind_some]
  rw [tf, Option.bind_some]
  -- From here on the fields are read one by one into a header with the same base format.
  generalize isTf : self.receivedTf _ = readTf
  have sameTf : readTf.baseFormat = self.baseFormat := by
    rw [← isTf, baseFormat_receivedTf]
  have zero : readTf.nextHeader = 0 := by
    rw [← isTf]
    unfold receivedTf
    cases self.getTf <;> rfl
  rw [deserializeNh_append sameTf, Option.bind_some, zero]
  dsimp only
  generalize isNh : ({ readTf with
    nextHeader := if self.getNh then 0 else self.nextHeader } : SixLowPanIphc) = readNh
  have sameNh : readNh.baseFormat = self.baseFormat := by
    rw [← isNh, sameTf]
  rw [deserializeHlim_append sameNh, Option.bind_some]
  dsimp only
  generalize isHlim : ({ readNh with
    hopLimit := self.receivedHopLimit } : SixLowPanIphc) = readHlim
  have sameHlim : readHlim.baseFormat = self.baseFormat := by
    rw [← isHlim, sameNh]
  rw [sourceSize_congr sameHlim, readBytes_append source, Option.bind_some,
    destinationWidth_congr sameHlim]
  dsimp only
  rw [readBytes_append destination, Option.bind_some]
  unfold received
  rw [isTf, ← isNh]
  rfl

theorem deserialize_append {self : SixLowPanIphc} (wellFormed : self.WellFormed)
    (rest : List UInt8) : deserialize (self.serialize ++ rest) = some self.received := by
  rw [deserialize_eq, deserializeFrom_append wellFormed, Option.map_some]

theorem baseFormat_received (self : SixLowPanIphc) :
    self.received.baseFormat = self.baseFormat :=
  baseFormat_receivedTf self _

end SixLowPanIphc

end Ns3.SixLowPan
