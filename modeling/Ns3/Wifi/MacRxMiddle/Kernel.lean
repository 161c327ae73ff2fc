import Ns3.Wifi.MacHeader

/-!
`ns3::MacRxMiddle`: duplicates are filtered, and fragments are put together.

There is one status for each originator, and for each TID of one that sends QoS data.
-/

namespace Ns3.Wifi

/-- `ns3::OriginatorRxStatus`. -/
structure OriginatorRxStatus where
  defragmenting : Bool := false
  lastSequenceControl : Nat := 0xffff
  fragments : List (List UInt8) := []
  deriving DecidableEq, Repr

namespace OriginatorRxStatus

variable (self : OriginatorRxStatus)

/-- `AccumulateFirstFragment`. -/
def accumulateFirstFragment (packet : List UInt8) : OriginatorRxStatus :=
  { self with defragmenting := true, fragments := self.fragments ++ [packet] }

/-- `AccumulateLastFragment`, with the full packet. -/
def accumulateLastFragment (packet : List UInt8) : OriginatorRxStatus × List UInt8 :=
  ({ self with defragmenting := false, fragments := [] }, (self.fragments ++ [packet]).flatten)

/-- `AccumulateFragment`. -/
def accumulateFragment (packet : List UInt8) : OriginatorRxStatus :=
  { self with fragments := self.fragments ++ [packet] }

/-- `IsNextFragment`. -/
def isNextFragment (sequenceControl : Nat) : Bool :=
  sequenceControl >>> 4 = self.lastSequenceControl >>> 4 &&
    sequenceControl &&& 0x0f = (self.lastSequenceControl &&& 0x0f) + 1

/-- `SetSequenceControl`. -/
def setSequenceControl (sequenceControl : Nat) : OriginatorRxStatus :=
  { self with lastSequenceControl := sequenceControl }

end OriginatorRxStatus

/-- `ns3::MacRxMiddle`. A status that is not in the maps yet is a new one. -/
structure MacRxMiddle where
  originatorStatus : Mac48Address → OriginatorRxStatus := fun _ => {}
  qosOriginatorStatus : Mac48Address × Fin 16 → OriginatorRxStatus := fun _ => {}

namespace MacRxMiddle

/-- The frames for which `Lookup` takes the TID into account. -/
def usesTid (hdr : WifiMacHeader) : Bool := hdr.isQosData && !hdr.addr2.isGroup

/-- `Lookup`. -/
def lookup (self : MacRxMiddle) (hdr : WifiMacHeader) : OriginatorRxStatus :=
  if usesTid hdr then self.qosOriginatorStatus (hdr.addr2, hdr.qosTid)
  else self.originatorStatus hdr.addr2

/-- The status that `Lookup` has found is changed. -/
def store (self : MacRxMiddle) (hdr : WifiMacHeader) (originator : OriginatorRxStatus) :
    MacRxMiddle :=
  if usesTid hdr then
    { self with qosOriginatorStatus := fun key =>
        if key = (hdr.addr2, hdr.qosTid) then originator else self.qosOriginatorStatus key }
  else
    { self with originatorStatus := fun source =>
        if source = hdr.addr2 then originator else self.originatorStatus source }

/-- `IsDuplicate`. -/
def isDuplicate (hdr : WifiMacHeader) (originator : OriginatorRxStatus) : Bool :=
  hdr.ctrlRetry && originator.lastSequenceControl = hdr.getSequenceControl

/-- `HandleFragments`. -/
def handleFragments (packet : List UInt8) (hdr : WifiMacHeader) (originator : OriginatorRxStatus) :
    OriginatorRxStatus × Option (List UInt8) :=
  if originator.defragmenting then
    if hdr.ctrlMoreFrag then
      if originator.isNextFragment hdr.getSequenceControl then
        ((originator.accumulateFragment packet).setSequenceControl hdr.getSequenceControl, none)
      else (originator, none)
    else
      if originator.isNextFragment hdr.getSequenceControl then
        let (originator, full) := originator.accumulateLastFragment packet
        (originator.setSequenceControl hdr.getSequenceControl, some full)
      else (originator, none)
  else
    if hdr.ctrlMoreFrag then
      ((originator.accumulateFirstFragment packet).setSequenceControl hdr.getSequenceControl, none)
    else (originator, some packet)

/-- What `Receive` does to the status of the originator, and the packet that it passes up. -/
def receiveFrom (packet : List UInt8) (hdr : WifiMacHeader) (originator : OriginatorRxStatus) :
    OriginatorRxStatus × Option (List UInt8) :=
  if isDuplicate hdr originator then (originator, none)
  else
    match handleFragments packet hdr originator with
    | (originator, none) => (originator, none)
    | (originator, some aggregate) =>
        if !hdr.addr1.isGroup then
          (originator.setSequenceControl hdr.getSequenceControl, some aggregate)
        else (originator, some aggregate)

/-- `Receive`, with the packet that is passed up. -/
def receive (self : MacRxMiddle) (packet : List UInt8) (hdr : WifiMacHeader) :
    MacRxMiddle × Option (List UInt8) :=
  let (originator, aggregate) := receiveFrom packet hdr (self.lookup hdr)
  (self.store hdr originator, aggregate)

/-- Both headers have the same status. -/
def SameStatus (hdr other : WifiMacHeader) : Prop :=
  usesTid hdr = usesTid other ∧ hdr.addr2 = other.addr2 ∧
    (usesTid hdr = true → hdr.qosTid = other.qosTid)

instance (hdr other : WifiMacHeader) : Decidable (SameStatus hdr other) :=
  inferInstanceAs (Decidable (_ ∧ _ ∧ (_ → _)))

theorem lookup_congr {hdr other : WifiMacHeader} (same : SameStatus hdr other)
    (self : MacRxMiddle) : self.lookup hdr = self.lookup other := by
  obtain ⟨uses, source, tid⟩ := same
  unfold lookup
  rw [← uses, ← source]
  split
  · next usesTid => rw [tid usesTid]
  · rfl

theorem lookup_store_same {hdr other : WifiMacHeader} (same : SameStatus hdr other)
    (self : MacRxMiddle) (originator : OriginatorRxStatus) :
    (self.store hdr originator).lookup other = originator := by
  rw [← lookup_congr same]
  unfold lookup store
  split <;> simp

theorem lookup_store_other {hdr other : WifiMacHeader} (differs : ¬ SameStatus hdr other)
    (self : MacRxMiddle) (originator : OriginatorRxStatus) :
    (self.store hdr originator).lookup other = self.lookup other := by
  unfold lookup store
  cases uses : usesTid hdr with
  | false =>
      cases usesOther : usesTid other with
      | true => simp
      | false =>
          have source : other.addr2 ≠ hdr.addr2 := fun source =>
            differs ⟨uses.trans usesOther.symm, source.symm, by simp [uses]⟩
          simp [source]
  | true =>
      cases usesOther : usesTid other with
      | false => simp
      | true =>
          have key : (other.addr2, other.qosTid) ≠ (hdr.addr2, hdr.qosTid) := fun key =>
            differs ⟨uses.trans usesOther.symm, (congrArg Prod.fst key).symm,
              fun _ => (congrArg Prod.snd key).symm⟩
          simp only [if_true]
          rw [if_neg key]

end MacRxMiddle

end Ns3.Wifi
