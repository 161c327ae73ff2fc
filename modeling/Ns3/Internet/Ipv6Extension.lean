import Ns3.Library.Loop
import Mathlib.Data.UInt

/-!
`ns3::Ipv6Extension`: the options of a hop-by-hop or destination header.
-/

namespace Ns3.Internet

open Library

/-- The options that `Ipv6L3Protocol::RegisterOptions` registers. -/
inductive Ipv6Option
  | pad1
  | padn
  | jumbogram
  | routerAlert
  deriving DecidableEq, Repr

namespace Ipv6Option

/-- `GetOptionNumber`. -/
def getOptionNumber : Ipv6Option → UInt8
  | pad1 => 0
  | padn => 60
  | jumbogram => 44
  | routerAlert => 43

/-- The `Deserialize` of the option's header, which returns its serialized size. There is none if
the packet ends before. -/
def deserialize : Ipv6Option → List UInt8 → Option Nat
  | pad1, _ :: _ => some 1
  | padn, _ :: length :: _ => some (length.toNat + 2)
  | jumbogram, _ :: length :: _ :: _ :: _ => some (length.toNat + 2)
  | routerAlert, _ :: length :: _ :: _ :: _ => some (length.toNat + 2)
  | _, _ => none

/-- `Process`: the size, and `isDropped`. -/
def process (self : Ipv6Option) (packet : List UInt8) (offset : UInt8) : Option (UInt8 × Bool) :=
  (self.deserialize (packet.drop offset.toNat)).map fun size => (UInt8.ofNat size, false)

end Ipv6Option

/-- `Ipv6OptionDemux::GetOption`. -/
def Ipv6OptionDemux.getOption (optionNumber : UInt8) : Option Ipv6Option :=
  [Ipv6Option.pad1, .padn, .jumbogram, .routerAlert].find? fun option =>
    option.getOptionNumber == optionNumber

/-- `Ipv6L3Protocol::DropReason`. -/
inductive DropReason
  | ttlExpired
  | noRoute
  | interfaceDown
  | routeError
  | unknownProtocol
  | unknownOption
  | malformedHeader
  | fragmentTimeout
  deriving DecidableEq, Repr

namespace Ipv6Extension

/-- What `ProcessOptions` is called with. -/
structure Call where
  packet : List UInt8
  offset : UInt8
  length : UInt8
  /-- Whether the destination of the IPv6 header is a multicast address. -/
  isMulticast : Bool

/-- The variables of `ProcessOptions`, and the pointers of the ICMPv6 errors it sent. -/
structure OptionsState where
  processedSize : UInt8 := 0
  stopProcessing : Bool := false
  isDropped : Bool := false
  dropReason : DropReason
  parameterErrors : List Nat := []
  deriving DecidableEq, Repr

namespace OptionsState

/-- The packet is dropped for an unknown option. -/
def drop (state : OptionsState) : OptionsState :=
  { state with isDropped := true, stopProcessing := true, dropReason := .unknownOption }

/-- `SendErrorParameterError`. -/
def sendError (state : OptionsState) (offset : UInt8) : OptionsState :=
  { state with
    parameterErrors := state.parameterErrors ++ [offset.toNat + state.processedSize.toNat] }

end OptionsState

namespace Call

variable (call : Call)

/-- The bytes that `ProcessOptions` copies. -/
def data : List UInt8 := call.packet.drop call.offset.toNat

/-- An option that is not registered. -/
def processUnknown (optionType : UInt8) (state : OptionsState) : Option OptionsState :=
  match (optionType >>> 6).toNat with
  | 0 => call.data[state.processedSize.toNat + 1]?.map fun length =>
      { state with processedSize := state.processedSize + (length + 2) }
  | 1 => some state.drop
  | 2 => some (state.sendError call.offset).drop
  | _ =>
      if call.isMulticast then some state.drop else some (state.sendError call.offset).drop

/-- The option at the position. There is none if bytes behind the end would be read. -/
def processOption (state : OptionsState) : Option OptionsState := do
  let optionType ← call.data[state.processedSize.toNat]?
  match Ipv6OptionDemux.getOption optionType with
  | none => call.processUnknown optionType state
  | some option =>
      let (optionLength, isDropped) ←
        option.process call.packet (call.offset + state.processedSize)
      return { state with
        processedSize := state.processedSize + optionLength
        isDropped := isDropped }

/-- A turn of the loop. -/
def turn (state : OptionsState) : Turn OptionsState OptionsState :=
  if call.length > state.processedSize ∧ state.isDropped = false then
    match call.processOption state with
    | some next => .again next
    | none => .failed
  else .exit state

/-- `ProcessOptions`, for at most so many turns. The size that is returned is in the state. -/
def processOptions (fuel : Nat) (state : OptionsState) : Outcome OptionsState :=
  loop call.turn fuel state

end Call

/-- `Ipv6ExtensionHopByHopHeader` and `Ipv6ExtensionDestinationHeader`. -/
structure OptionsHeader where
  nextHeader : UInt8
  length : UInt8
  optionData : List UInt8
  deriving DecidableEq, Repr

namespace OptionsHeader

/-- `GetLength`. -/
def getLength (length : UInt8) : Nat := (length.toNat + 1) <<< 3

/-- `Deserialize`. -/
def deserialize : List UInt8 → Option OptionsHeader
  | nextHeader :: length :: rest =>
      if getLength length - 2 ≤ rest.length then
        some ⟨nextHeader, length, rest.take (getLength length - 2)⟩
      else none
  | _ => none

theorem deserialize_cons (nextHeader length : UInt8) {optionData : List UInt8}
    (fits : optionData.length = getLength length - 2) :
    deserialize (nextHeader :: length :: optionData) = some ⟨nextHeader, length, optionData⟩ := by
  rw [deserialize, ← fits, if_pos le_rfl, List.take_length]

/-- The call of `ProcessOptions` in `Process`, which the hop-by-hop and the destination header
share. -/
def call (self : OptionsHeader) (packet : List UInt8) (offset : UInt8) (isMulticast : Bool) :
    Call where
  packet := packet
  offset := offset + 2
  length := UInt8.ofNat (getLength self.length - 2)
  isMulticast := isMulticast

end OptionsHeader

namespace Call

variable (call : Call)

/-- The loop ends, no turn reads behind the data, every turn drops the packet or comes closer to the
end, and the length of the area is returned if the packet is not dropped. -/
structure Completes (area : Nat) (state : OptionsState) : Prop where
  returns : ∃ last, Returns call.turn state last ∧
    (last.isDropped = false → last.processedSize.toNat = area)
  inside : ∀ reached, Reaches call.turn state reached → call.turn reached ≠ .failed
  progresses : ∀ reached next, Reaches call.turn state reached →
    call.turn reached = .again next →
      next.isDropped = true ∨ reached.processedSize < next.processedSize

/-- The length that an option has for the loop, where it is not one that drops the packet. -/
def optionSize (position : Nat) : Option Nat := do
  let optionType ← call.data[position]?
  match Ipv6OptionDemux.getOption optionType with
  | none =>
      if (optionType >>> 6).toNat = 0 then
        call.data[position + 1]?.map fun length => (length.toNat + 2) % 2 ^ 8
      else none
  | some option =>
      (option.deserialize (call.packet.drop ((call.offset.toNat + position) % 2 ^ 8))).map
        (· % 2 ^ 8)

/-- The option is not registered, and has a type that drops the packet. -/
def Dropping (position : Nat) : Prop :=
  ∃ optionType, call.data[position]? = some optionType ∧
    Ipv6OptionDemux.getOption optionType = none ∧ (optionType >>> 6).toNat ≠ 0

/-- From the position on there are options up to the end of the area, or up to one that drops the
packet. -/
inductive Options : Nat → Bool → Prop
  | done : Options call.length.toNat false
  | drop {position} : position < call.length.toNat → call.Dropping position →
      Options position true
  | option {position size dropped} : position < call.length.toNat →
      call.optionSize position = some size → 0 < size → Options (position + size) dropped →
      Options position dropped

variable {call : Call} {area : Nat} {state next : OptionsState}

theorem completes_of_exit (leads : call.turn state = .exit state) :
    call.Completes area state ↔ (state.isDropped = false → state.processedSize.toNat = area) := by
  have only : ∀ reached, Reaches call.turn state reached → reached = state := by
    intro reached reaches
    apply reaches.cases_exit
    intro next again
    rw [leads] at again
    cases again
  constructor
  · intro completes
    obtain ⟨last, returns, whole⟩ := completes.returns
    rwa [(returns_exit_iff leads).mp returns] at whole
  · intro whole
    refine ⟨⟨state, returns_of_exit leads, whole⟩, ?_, ?_⟩
    · intro reached reaches
      rw [only reached reaches, leads]
      nofun
    · intro reached next reaches again
      rw [only reached reaches, leads] at again
      cases again

theorem not_completes_of_failed (leads : call.turn state = .failed) :
    ¬ call.Completes area state := fun completes => completes.inside state .refl leads

theorem completes_of_again (leads : call.turn state = .again next) :
    call.Completes area state ↔
      (next.isDropped = true ∨ state.processedSize < next.processedSize) ∧
        call.Completes area next := by
  constructor
  · intro completes
    obtain ⟨last, returns, whole⟩ := completes.returns
    exact ⟨completes.progresses state next .refl leads,
      ⟨last, (returns_again_iff leads).mp returns, whole⟩,
      fun reached reaches => completes.inside reached (.again leads reaches),
      fun reached other reaches => completes.progresses reached other (.again leads reaches)⟩
  · rintro ⟨progress, completes⟩
    obtain ⟨last, returns, whole⟩ := completes.returns
    refine ⟨⟨last, (returns_again_iff leads).mpr returns, whole⟩, ?_, ?_⟩
    · intro reached reaches
      rcases reaches.cases_again leads with rfl | reaches
      · rw [leads]
        nofun
      · exact completes.inside reached reaches
    · intro reached other reaches again
      rcases reaches.cases_again leads with rfl | reaches
      · rw [leads] at again
        obtain rfl := Turn.again.inj again
        exact progress
      · exact completes.progresses reached other reaches again

/-- What the loop does with an option. -/
inductive Handles (call : Call) (state : OptionsState) : Prop
  | dropped (next : OptionsState) : call.Dropping state.processedSize.toNat →
      call.turn state = .again next → next.isDropped = true → Handles call state
  | passed (next : OptionsState) (size : Nat) : ¬ call.Dropping state.processedSize.toNat →
      call.optionSize state.processedSize.toNat = some size → size < 2 ^ 8 →
      call.turn state = .again next → next.isDropped = false →
      next.processedSize = state.processedSize + UInt8.ofNat size → Handles call state
  | failed : ¬ call.Dropping state.processedSize.toNat →
      call.optionSize state.processedSize.toNat = none → call.turn state = .failed →
      Handles call state

theorem dropping_iff {position : Nat} {optionType : UInt8}
    (first : call.data[position]? = some optionType) :
    call.Dropping position ↔
      Ipv6OptionDemux.getOption optionType = none ∧ (optionType >>> 6).toNat ≠ 0 := by
  constructor
  · rintro ⟨other, same, dropping⟩
    rw [first] at same
    rwa [Option.some.inj same]
  · intro dropping
    exact ⟨optionType, first, dropping⟩

theorem processUnknown_of_dropping (call : Call) (state : OptionsState) {optionType : UInt8}
    (dropping : (optionType >>> 6).toNat ≠ 0) :
    ∃ next, call.processUnknown optionType state = some next ∧ next.isDropped = true := by
  unfold processUnknown
  split
  · contradiction
  · exact ⟨_, rfl, rfl⟩
  · exact ⟨_, rfl, rfl⟩
  · split <;> exact ⟨_, rfl, rfl⟩

theorem turn_of_below (kept : state.isDropped = false)
    (below : state.processedSize < call.length) :
    call.turn state = match call.processOption state with
      | some next => .again next
      | none => .failed := if_pos ⟨below, kept⟩

theorem handles (kept : state.isDropped = false) (below : state.processedSize < call.length) :
    Handles call state := by
  have turns := turn_of_below kept below
  rw [processOption] at turns
  cases first : call.data[state.processedSize.toNat]? with
  | none =>
      rw [first] at turns
      refine .failed ?_ ?_ turns
      · rintro ⟨optionType, same, -⟩
        rw [first] at same
        cases same
      · rw [optionSize, first]
        rfl
  | some optionType =>
      have dropping := dropping_iff first
      rw [first] at turns
      cases known : Ipv6OptionDemux.getOption optionType with
      | none =>
          simp only [Option.bind_eq_bind, Option.bind_some, known] at turns
          by_cases skipped : (optionType >>> 6).toNat = 0
          · have kind : ¬ call.Dropping state.processedSize.toNat := fun drops =>
              (dropping.mp drops).2 skipped
            rw [processUnknown, skipped] at turns
            cases second : call.data[state.processedSize.toNat + 1]? with
            | none =>
                rw [second] at turns
                refine .failed kind ?_ turns
                simp [optionSize, first, known, second]
            | some length =>
                rw [second] at turns
                refine .passed _ ((length.toNat + 2) % 2 ^ 8) kind ?_
                  (Nat.mod_lt _ (by decide)) turns kept ?_
                · simp only [optionSize, first, Option.bind_eq_bind, Option.bind_some, known,
                    if_pos skipped, second]
                  rfl
                · apply UInt8.toNat_inj.mp
                  simp
          · obtain ⟨next, drops, dropped⟩ :=
              processUnknown_of_dropping call state skipped
            rw [drops] at turns
            exact .dropped next (dropping.mpr ⟨known, skipped⟩) turns dropped
      | some option =>
          have kind : ¬ call.Dropping state.processedSize.toNat := by
            rw [dropping, known]
            nofun
          have position : (call.offset + state.processedSize).toNat =
              (call.offset.toNat + state.processedSize.toNat) % 2 ^ 8 := UInt8.toNat_add _ _
          simp only [Option.bind_eq_bind, Option.bind_some, known, Ipv6Option.process,
            position] at turns
          cases read : option.deserialize (call.packet.drop
              ((call.offset.toNat + state.processedSize.toNat) % 2 ^ 8)) with
          | none =>
              rw [read] at turns
              refine .failed kind ?_ turns
              simp only [optionSize, first, Option.bind_eq_bind, Option.bind_some, known, read]
              rfl
          | some size =>
              rw [read] at turns
              refine .passed _ (size % 2 ^ 8) kind ?_ (Nat.mod_lt _ (by decide)) turns rfl ?_
              · simp only [optionSize, first, Option.bind_eq_bind, Option.bind_some, known, read]
                rfl
              · apply UInt8.toNat_inj.mp
                simp

variable {position size : Nat} {dropped : Bool}

theorem Options.le (options : call.Options position dropped) : position ≤ call.length.toNat := by
  cases options with
  | done => exact le_rfl
  | drop below => exact below.le
  | option below => exact below.le

theorem options_of_end (beyond : call.length.toNat ≤ position) :
    call.Options position dropped ↔ position = call.length.toNat ∧ dropped = false := by
  constructor
  · intro options
    cases options with
    | done => exact ⟨rfl, rfl⟩
    | drop below => exact absurd below (Nat.not_lt.mpr beyond)
    | option below => exact absurd below (Nat.not_lt.mpr beyond)
  · rintro ⟨rfl, rfl⟩
    exact .done

theorem options_of_passed (below : position < call.length.toNat)
    (kind : ¬ call.Dropping position) (sized : call.optionSize position = some size) :
    call.Options position dropped ↔ 0 < size ∧ call.Options (position + size) dropped := by
  constructor
  · intro options
    cases options with
    | done => exact absurd below (Nat.lt_irrefl _)
    | drop _ dropping => exact absurd dropping kind
    | option _ other positive rest =>
        rw [sized] at other
        obtain rfl := Option.some.inj other
        exact ⟨positive, rest⟩
  · rintro ⟨positive, rest⟩
    exact .option below sized positive rest

theorem not_options_of_failed (below : position < call.length.toNat)
    (kind : ¬ call.Dropping position) (unsized : call.optionSize position = none) :
    ¬ call.Options position dropped := by
  intro options
  cases options with
  | done => exact Nat.lt_irrefl _ below
  | drop _ dropping => exact kind dropping
  | option _ other =>
      rw [unsized] at other
      cases other

/-- The loop does what it should if and only if it meets options that fill the area, or one that
drops the packet. -/
theorem completes_iff_options (told : call.length = UInt8.ofNat area)
    (kept : state.isDropped = false) :
    call.Completes area state ↔
      call.Options state.processedSize.toNat true ∨
        call.Options state.processedSize.toNat false ∧ call.length.toNat = area := by
  induction room : 2 ^ 8 - state.processedSize.toNat using Nat.strong_induction_on
    generalizing state with
  | _ room inductionHypothesis =>
      have fits := state.processedSize.toNat_lt
      by_cases below : state.processedSize < call.length
      · have before : state.processedSize.toNat < call.length.toNat :=
          UInt8.lt_iff_toNat_lt.mp below
        cases handles kept below with
        | dropped next dropping leads drops =>
            have ends : call.turn next = .exit next := if_neg fun goesOn => by
              rw [drops] at goesOn
              cases goesOn.2
            rw [completes_of_again leads, completes_of_exit ends, drops]
            have options : call.Options state.processedSize.toNat true := .drop before dropping
            simp [options]
        | failed kind unsized leads =>
            have none : ∀ dropped, ¬ call.Options state.processedSize.toNat dropped :=
              fun dropped => not_options_of_failed before kind unsized
            simp [none, not_completes_of_failed leads]
        | passed next size kind sized small leads remains moved =>
            rw [completes_of_again leads, remains, options_of_passed before kind sized,
              options_of_passed before kind sized]
            have place : next.processedSize.toNat = (state.processedSize.toNat + size) % 2 ^ 8 := by
              rw [moved, UInt8.toNat_add, UInt8.toNat_ofNat', Nat.mod_eq_of_lt small]
            by_cases further : state.processedSize.toNat < next.processedSize.toNat
            · have sum : next.processedSize.toNat = state.processedSize.toNat + size := by omega
              have positive : 0 < size := by omega
              have rest := inductionHypothesis (2 ^ 8 - next.processedSize.toNat) (by omega)
                remains rfl
              have progress : state.processedSize < next.processedSize :=
                UInt8.lt_iff_toNat_lt.mpr further
              rw [rest, sum]
              simp [positive, progress]
            · -- No progress is made, so the option has no length, or is too long for the area.
              have stays : ¬ state.processedSize < next.processedSize := fun progress =>
                further (UInt8.lt_iff_toNat_lt.mp progress)
              have none : ∀ dropped, ¬ (0 < size ∧
                  call.Options (state.processedSize.toNat + size) dropped) := by
                rintro dropped ⟨positive, options⟩
                have inside := options.le
                have short := call.length.toNat_lt
                omega
              simp [none, stays]
      · have beyond : call.length.toNat ≤ state.processedSize.toNat := by
          rwa [UInt8.lt_iff_toNat_lt, Nat.not_lt] at below
        have ends : call.turn state = .exit state := if_neg fun goesOn => below goesOn.1
        have length : call.length.toNat = area % 2 ^ 8 := by rw [told, UInt8.toNat_ofNat']
        rw [completes_of_exit ends, kept, options_of_end beyond, options_of_end beyond]
        simp only [forall_const, Bool.true_eq_false, and_false, and_true, false_or]
        omega

end Call

theorem getLength_sub_lt_iff (length : UInt8) :
    OptionsHeader.getLength length - 2 < 2 ^ 8 ↔ length.toNat ≤ 31 := by
  rw [OptionsHeader.getLength, Nat.shiftLeft_eq]
  omega

/-- The variables of `ProcessOptions` at its beginning. -/
def entered (stopProcessing : Bool) (dropReason : DropReason) : OptionsState where
  stopProcessing := stopProcessing
  dropReason := dropReason

/-- The loop does what it should if and only if the options fill the area, or one of them drops the
packet. In a header of more than 256 bytes one of them has to. -/
theorem completes_iff (packet : List UInt8) (offset : UInt8) (isMulticast stopProcessing : Bool)
    (dropReason : DropReason) :
    (∀ length, (Call.mk packet offset length isMulticast).Completes length.toNat
        (entered stopProcessing dropReason) ↔
      (Call.mk packet offset length isMulticast).Options 0 true ∨
        (Call.mk packet offset length isMulticast).Options 0 false) ∧
    (∀ header, OptionsHeader.deserialize (packet.drop offset.toNat) = some header →
      ((header.call packet offset isMulticast).Completes
          (OptionsHeader.getLength header.length - 2) (entered stopProcessing dropReason) ↔
        (header.call packet offset isMulticast).Options 0 true ∨
          (header.call packet offset isMulticast).Options 0 false ∧ header.length.toNat ≤ 31)) := by
  constructor
  · intro length
    rw [Call.completes_iff_options UInt8.ofNat_toNat.symm rfl]
    exact or_congr Iff.rfl (and_iff_left rfl)
  · intro header _
    rw [Call.completes_iff_options rfl rfl, ← getLength_sub_lt_iff]
    refine or_congr Iff.rfl (and_congr_right fun _ => ?_)
    change (UInt8.ofNat _).toNat = _ ↔ _
    rw [UInt8.toNat_ofNat']
    exact ⟨fun same => same ▸ Nat.mod_lt _ (by decide), Nat.mod_eq_of_lt⟩

/-- A header with a router alert and padding. -/
def routerAlertPacket : List UInt8 := [59, 0, 5, 2, 0, 0, 1, 0, 0xaa]

theorem completes_iff_routerAlert :
    OptionsHeader.deserialize (routerAlertPacket.drop (0 : UInt8).toNat) =
        some ⟨59, 0, [5, 2, 0, 0, 1, 0]⟩ ∧
      (OptionsHeader.call ⟨59, 0, [5, 2, 0, 0, 1, 0]⟩ routerAlertPacket 0 false).Completes 6
        (entered false .malformedHeader) :=
  ⟨rfl, ((completes_iff routerAlertPacket 0 false false .malformedHeader).2 _ rfl).mpr
    (.inr ⟨.option (by decide) rfl (by decide) (.option (by decide) rfl (by decide) .done),
      by decide⟩)⟩

/-- A header of 264 bytes, with a padding of 256 bytes and one of six. -/
def paddedPacket : List UInt8 :=
  59 :: 32 :: 1 :: 254 :: (List.replicate 254 0 ++ [1, 4, 0, 0, 0, 0])

/-- The loop is stuck at the first option. -/
theorem not_completes :
    OptionsHeader.deserialize (paddedPacket.drop (0 : UInt8).toNat) =
        some ⟨59, 32, paddedPacket.drop 2⟩ ∧
      ¬ (OptionsHeader.call ⟨59, 32, paddedPacket.drop 2⟩ paddedPacket 0 false).Completes 262
        (entered false .malformedHeader) := by
  refine ⟨OptionsHeader.deserialize_cons 59 32 ?_, fun completes => ?_⟩
  · change (List.replicate 254 _ ++ _).length + 1 + 1 = _
    rw [List.length_append, List.length_replicate]
    rfl
  obtain ⟨last, returns, -⟩ := completes.returns
  have stuck : (OptionsHeader.call ⟨59, 32, paddedPacket.drop 2⟩ paddedPacket 0 false).turn
      (entered false .malformedHeader) = .again (entered false .malformedHeader) := rfl
  exact not_returns_of_stuck stuck returns

end Ipv6Extension

end Ns3.Internet
