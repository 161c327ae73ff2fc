import Ns3.Library.Machine
import Ns3.Wifi.MacRxMiddle.Kernel

/-!
One originator that sends MSDUs to a receiver.

A frame is sent until it is acknowledged or given up, and the fragments behind a frame that is
given up are not sent at all. The receiver passes up the MSDUs of which it has received every
frame, unless it still waits for a fragment of an MSDU that was given up: `m_defragmenting` stays
set then, and every frame of the next MSDUs is taken for a fragment out of order.
-/

namespace Ns3.Wifi.MacRxMiddle

open Library

/-- What the originator sends: one frame, or fragments if it is not for a group. -/
structure Msdu where
  addr1 : Mac48Address
  fragments : List (List UInt8)
  nonempty : 0 < fragments.length
  few : fragments.length ≤ 16
  whole : addr1.isGroup = true → fragments.length = 1
  deriving DecidableEq, Repr

/-- The packet that the upper layer has given. -/
def Msdu.packet (self : Msdu) : List UInt8 := self.fragments.flatten

/-- An originator with all that it is going to send. The header has what its frames share. -/
structure Originator where
  hdr : WifiMacHeader
  firstSeq : Nat
  msdus : Nat → Msdu

namespace Originator

variable (self : Originator)

/-- The sequence numbers go up by one, and come round. -/
def sequenceNumber (number : Nat) : Fin 4096 :=
  ⟨(self.firstSeq + number) % 4096, Nat.mod_lt _ (by decide)⟩

/-- The header of a fragment. -/
def frameHeader (number fragment : Nat) (retry : Bool) : WifiMacHeader :=
  { self.hdr with
    addr1 := (self.msdus number).addr1
    ctrlMoreFrag := decide (fragment + 1 < (self.msdus number).fragments.length)
    ctrlRetry := retry
    seqSeq := self.sequenceNumber number
    seqFrag := ⟨fragment % 16, Nat.mod_lt _ (by decide)⟩ }

end Originator

/-- The originator is at a fragment of an MSDU. All frames that the receiver has got are listed,
and all packets that it has passed up. -/
structure Session where
  number : Nat := 0
  fragment : Nat := 0
  attempted : Bool := false
  heard : List (Nat × Nat) := []
  receiver : MacRxMiddle := {}
  passedUp : List (List UInt8) := []

/-- What happens on the medium. -/
inductive Event
  | transmit (received : Bool)
  | acknowledge
  | discard
  | other (packet : List UInt8) (hdr : WifiMacHeader)
  deriving DecidableEq, Repr

namespace Session

variable (originator : Originator) (session : Session)

/-- The MSDU that is sent. -/
def msdu : Msdu := originator.msdus session.number

/-- The header of the frame that is sent. -/
def header : WifiMacHeader :=
  originator.frameHeader session.number session.fragment session.attempted

/-- The status that the receiver has for the originator. -/
def status : OriginatorRxStatus := session.receiver.lookup originator.hdr

/-- The originator goes on to the next MSDU. -/
def nextMsdu : Session :=
  { session with number := session.number + 1, fragment := 0, attempted := false }

/-- The frame arrives at the receiver. -/
def arrive : Session :=
  let (receiver, aggregate) := session.receiver.receive
    ((session.msdu originator).fragments.getD session.fragment []) (session.header originator)
  { session with
    attempted := true
    heard := session.heard ++ [(session.number, session.fragment)]
    receiver := receiver
    passedUp := session.passedUp ++ aggregate.toList }

/-- One event. -/
def step (session : Session) : Event → Session
  | .transmit true => session.arrive originator
  | .transmit false => { session with attempted := true }
  | .acknowledge =>
      if session.fragment + 1 < (session.msdu originator).fragments.length then
        { session with fragment := session.fragment + 1, attempted := false }
      else session.nextMsdu
  | .discard => session.nextMsdu
  | .other packet hdr => { session with receiver := (session.receiver.receive packet hdr).1 }

/-- A frame to a group is sent once. Only a frame that was received is acknowledged. -/
def Enabled (session : Session) : Event → Prop
  | .transmit _ => (session.msdu originator).addr1.isGroup = true → session.attempted = false
  | .acknowledge => (session.msdu originator).addr1.isGroup = false ∧
      (session.number, session.fragment) ∈ session.heard
  | .discard => True
  | .other _ hdr => ¬ SameStatus hdr originator.hdr

instance (session : Session) : (event : Event) → Decidable (session.Enabled originator event)
  | .transmit _ => inferInstanceAs (Decidable (_ → _))
  | .acknowledge => inferInstanceAs (Decidable (_ ∧ _))
  | .discard => inferInstanceAs (Decidable True)
  | .other _ _ => inferInstanceAs (Decidable (¬ _))

/-- The receiver has got every frame of the MSDU. -/
def Received (number : Nat) : Prop :=
  ∀ fragment < (originator.msdus number).fragments.length, (number, fragment) ∈ session.heard

/-- The MSDUs of which every frame was received were passed up, in order. -/
def PassesUp : Prop :=
  ∃ numbers : List Nat, numbers.Pairwise (· < ·) ∧
    (∀ number, number ∈ numbers ↔ session.Received originator number) ∧
    session.passedUp = numbers.map fun number => (originator.msdus number).packet

/-- The receiver does not wait for a fragment of an older MSDU when the first frame of one arrives,
and a frame that arrives for the first time does not look like one that was received. -/
def Ready (session : Session) : Event → Prop
  | .transmit true => (session.number, session.fragment) ∉ session.heard →
      (session.fragment = 0 → (session.status originator).defragmenting = false) ∧
        isDuplicate (session.header originator) (session.status originator) = false
  | _ => True

instance (session : Session) : (event : Event) → Decidable (session.Ready originator event)
  | .transmit true => inferInstanceAs (Decidable (_ → _ ∧ _))
  | .transmit false | .acknowledge | .discard | .other _ _ => inferInstanceAs (Decidable True)

end Session

/-- Sessions of an originator. -/
def sessions (originator : Originator) : Machine Session Event where
  step := Session.step originator
  Enabled := Session.Enabled originator

instance (originator : Originator) (session : Session) (event : Event) :
    Decidable ((sessions originator).Enabled session event) :=
  inferInstanceAs (Decidable (session.Enabled originator event))

/-- The status once so many fragments of an MSDU were received. Before the first one, the receiver
may still wait for a fragment of an older one. -/
structure Collects (msdu : Msdu) (seq count : Nat) (status : OriginatorRxStatus) : Prop where
  idle : status.defragmenting = false → status.fragments = []
  begun : 0 < count → count < msdu.fragments.length →
    status.defragmenting = true ∧ status.fragments = msdu.fragments.take count ∧
      status.lastSequenceControl = seq * 16 + (count - 1)
  finished : count = msdu.fragments.length →
    status.defragmenting = false ∧
      (msdu.addr1.isGroup = false → status.lastSequenceControl = seq * 16 + (count - 1))

theorem isNextFragment_of_last {status : OriginatorRxStatus} {seq fragment : Nat}
    (last : status.lastSequenceControl = seq * 16 + (fragment - 1)) (later : 0 < fragment)
    (few : fragment < 16) : status.isNextFragment (seq * 16 + fragment) = true := by
  have mask (control : Nat) : control &&& 0x0f = control % 16 :=
    Nat.and_two_pow_sub_one_eq_mod control 4
  unfold OriginatorRxStatus.isNextFragment
  rw [last, Nat.shiftRight_eq_div_pow, Nat.shiftRight_eq_div_pow, mask, mask]
  simp only [Bool.and_eq_true, decide_eq_true_eq]
  omega

namespace Originator

variable {originator : Originator} {number fragment : Nat}

theorem sequenceControl_frameHeader
    (inside : fragment < (originator.msdus number).fragments.length) (retry : Bool) :
    (originator.frameHeader number fragment retry).getSequenceControl =
      (originator.sequenceNumber number).val * 16 + fragment := by
  have few := (originator.msdus number).few
  rw [WifiMacHeader.getSequenceControl_eq]
  change _ * 16 + fragment % 16 = _
  rw [Nat.mod_eq_of_lt (by omega)]
  rfl

theorem sameStatus_frameHeader (originator : Originator) (number fragment : Nat) (retry : Bool) :
    SameStatus (originator.frameHeader number fragment retry) originator.hdr :=
  ⟨rfl, rfl, fun _ => rfl⟩

end Originator

section Frame

variable {originator : Originator} {number fragment : Nat} {retry : Bool}
  {status : OriginatorRxStatus}

/-- A fragment that is not a duplicate is collected, and the last one completes the MSDU. -/
theorem Collects.receive
    (collects : Collects (originator.msdus number) (originator.sequenceNumber number) fragment
      status)
    (inside : fragment < (originator.msdus number).fragments.length)
    (ready : fragment = 0 → status.defragmenting = false)
    (fresh : isDuplicate (originator.frameHeader number fragment retry) status = false) :
    Collects (originator.msdus number) (originator.sequenceNumber number) (fragment + 1)
        (receiveFrom ((originator.msdus number).fragments.getD fragment [])
          (originator.frameHeader number fragment retry) status).1 ∧
      (receiveFrom ((originator.msdus number).fragments.getD fragment [])
          (originator.frameHeader number fragment retry) status).2 =
        if fragment + 1 = (originator.msdus number).fragments.length then
          some (originator.msdus number).packet
        else none := by
  have control := Originator.sequenceControl_frameHeader inside retry
  have more : (originator.frameHeader number fragment retry).ctrlMoreFrag =
      decide (fragment + 1 < (originator.msdus number).fragments.length) := rfl
  have address : (originator.frameHeader number fragment retry).addr1 =
      (originator.msdus number).addr1 := rfl
  have few := (originator.msdus number).few
  have isFragment : (originator.msdus number).fragments.getD fragment [] =
      (originator.msdus number).fragments[fragment] := by
    rw [List.getD_eq_getElem?_getD, List.getElem?_eq_getElem inside, Option.getD_some]
  have grown := List.take_append_getElem inside
  rw [receiveFrom, fresh, if_neg (by decide), handleFragments, control, more, address, isFragment]
  by_cases last : fragment + 1 = (originator.msdus number).fragments.length
  · have none : decide (fragment + 1 < (originator.msdus number).fragments.length) = false :=
      decide_eq_false (by omega)
    rw [none, if_pos last]
    have whole : (originator.msdus number).fragments.take fragment ++
        [(originator.msdus number).fragments[fragment]] = (originator.msdus number).fragments :=
      grown.trans (List.take_of_length_le (by omega))
    by_cases first : fragment = 0
    · subst first
      have idle := ready rfl
      have packet : (originator.msdus number).fragments[0] = (originator.msdus number).packet := by
        rw [Msdu.packet, ← congrArg List.flatten whole]
        simp
      simp only [idle, Bool.false_eq_true, if_false, packet]
      cases group : (originator.msdus number).addr1.isGroup with
      | true =>
          refine ⟨⟨collects.idle, by omega, fun _ => ⟨idle, ?_⟩⟩, rfl⟩
          exact fun unicast => absurd (group.symm.trans unicast) (by decide)
      | false => exact ⟨⟨collects.idle, by omega, fun _ => ⟨idle, fun _ => rfl⟩⟩, rfl⟩
    · obtain ⟨defragmenting, fragments, isLast⟩ := collects.begun (by omega) inside
      have next := isNextFragment_of_last isLast (by omega) (by omega)
      have packet : (status.accumulateLastFragment
          (originator.msdus number).fragments[fragment]).2 = (originator.msdus number).packet := by
        rw [OriginatorRxStatus.accumulateLastFragment, fragments, whole]
        rfl
      simp only [defragmenting, next, if_true, Bool.false_eq_true, if_false, packet]
      cases group : (originator.msdus number).addr1.isGroup with
      | true => exact ⟨⟨fun _ => rfl, by omega, fun _ => ⟨rfl, fun _ => rfl⟩⟩, rfl⟩
      | false => exact ⟨⟨fun _ => rfl, by omega, fun _ => ⟨rfl, fun _ => rfl⟩⟩, rfl⟩
  · have some : decide (fragment + 1 < (originator.msdus number).fragments.length) = true :=
      decide_eq_true (by omega)
    rw [some, if_neg last]
    by_cases first : fragment = 0
    · subst first
      have idle := ready rfl
      simp only [idle, Bool.false_eq_true, if_false, if_true, and_true]
      refine ⟨by simp [OriginatorRxStatus.setSequenceControl,
        OriginatorRxStatus.accumulateFirstFragment], fun _ _ => ⟨rfl, ?_, rfl⟩, by omega⟩
      rw [← grown]
      exact congrArg (· ++ _) (collects.idle idle)
    · obtain ⟨defragmenting, fragments, isLast⟩ := collects.begun (by omega) inside
      have next := isNextFragment_of_last isLast (by omega) (by omega)
      simp only [defragmenting, next, if_true, and_true]
      refine ⟨?_, fun _ _ => ⟨defragmenting, ?_, rfl⟩, by omega⟩
      · exact fun idle => absurd (defragmenting.symm.trans idle) (by decide)
      · rw [← grown, ← fragments]
        rfl

/-- A fragment that is sent again is a duplicate of the last one. -/
theorem Collects.duplicate
    (collects : Collects (originator.msdus number) (originator.sequenceNumber number)
      (fragment + 1) status)
    (inside : fragment < (originator.msdus number).fragments.length)
    (unicast : (originator.msdus number).addr1.isGroup = false) (packet : List UInt8) :
    receiveFrom packet (originator.frameHeader number fragment true) status = (status, none) := by
  have last : status.lastSequenceControl =
      (originator.sequenceNumber number).val * 16 + fragment := by
    by_cases finished : fragment + 1 = (originator.msdus number).fragments.length
    · exact (collects.finished finished).2 unicast
    · exact (collects.begun (by omega) (by omega)).2.2
  have duplicate : isDuplicate (originator.frameHeader number fragment true) status = true := by
    rw [isDuplicate, last, Originator.sequenceControl_frameHeader inside, decide_eq_true rfl]
    rfl
  rw [receiveFrom, duplicate, if_pos rfl]

end Frame

namespace Session

variable {originator : Originator} {session : Session}

/-- How many frames of the current MSDU were received. -/
def count (session : Session) : Nat :=
  if (session.number, session.fragment) ∈ session.heard then session.fragment + 1
  else session.fragment

/-- What a session keeps. -/
structure Invariant (originator : Originator) (session : Session) : Prop where
  inside : session.fragment < (session.msdu originator).fragments.length
  untried : session.attempted = false → (session.number, session.fragment) ∉ session.heard
  bound : ∀ number fragment, (number, fragment) ∈ session.heard →
    number < session.number ∨ number = session.number ∧ fragment ≤ session.fragment
  before : ∀ fragment < session.fragment, (session.number, fragment) ∈ session.heard
  collects : Collects (session.msdu originator) (originator.sequenceNumber session.number)
    session.count (session.status originator)
  passesUp : session.PassesUp originator

theorem invariant_initial (originator : Originator) : Invariant originator {} where
  inside := (originator.msdus 0).nonempty
  untried := by simp
  bound := by simp
  before := by simp
  collects := by
    have positive := (originator.msdus 0).nonempty
    have status : ({} : Session).status originator = {} := by
      simp [Session.status, lookup]
    rw [status]
    refine ⟨fun _ => rfl, fun begun => absurd begun (by simp [count]), fun finished => ?_⟩
    have zero : (0 : Nat) = (originator.msdus 0).fragments.length := finished
    omega
  passesUp := by
    refine ⟨[], .nil, fun number => ?_, rfl⟩
    simp only [List.not_mem_nil, false_iff]
    intro received
    exact absurd (received 0 (originator.msdus number).nonempty) (by simp)

/-- The status after a frame has arrived. -/
theorem status_arrive : (session.arrive originator).status originator =
    (receiveFrom ((session.msdu originator).fragments.getD session.fragment [])
      (session.header originator) (session.status originator)).1 := by
  have same := originator.sameStatus_frameHeader session.number session.fragment session.attempted
  unfold arrive receive status header
  rw [lookup_congr same, lookup_store_same same]

theorem passedUp_arrive : (session.arrive originator).passedUp =
    session.passedUp ++ (receiveFrom ((session.msdu originator).fragments.getD session.fragment [])
      (session.header originator) (session.status originator)).2.toList := by
  have same := originator.sameStatus_frameHeader session.number session.fragment session.attempted
  unfold arrive receive status header
  rw [lookup_congr same]

theorem heard_arrive : (session.arrive originator).heard =
    session.heard ++ [(session.number, session.fragment)] := rfl

/-- MSDUs that are received are not behind the current one. -/
theorem Invariant.le_of_received (invariant : Invariant originator session) {number : Nat}
    (received : session.Received originator number) : number ≤ session.number := by
  rcases invariant.bound number 0 (received 0 (originator.msdus number).nonempty) with less | same
  · omega
  · omega

/-- Another copy of a frame changes nothing. -/
theorem Invariant.arrive_again (invariant : Invariant originator session)
    (unicast : (session.msdu originator).addr1.isGroup = false)
    (again : (session.number, session.fragment) ∈ session.heard) :
    Invariant originator (session.arrive originator) := by
  have attempted : session.attempted = true := by
    by_contra first
    exact invariant.untried (by simpa using first) again
  have count : session.count = session.fragment + 1 := if_pos again
  have collects := invariant.collects
  rw [count] at collects
  have duplicate := collects.duplicate invariant.inside unicast
    ((session.msdu originator).fragments.getD session.fragment [])
  rw [← attempted] at duplicate
  have heard : ∀ entry, entry ∈ (session.arrive originator).heard ↔ entry ∈ session.heard := by
    intro entry
    rw [heard_arrive, List.mem_append, List.mem_singleton]
    exact ⟨fun mem => mem.elim id (fun same => same ▸ again), .inl⟩
  refine ⟨invariant.inside, ?_, ?_, ?_, ?_, ?_⟩
  · intro first
    cases first
  · intro number fragment mem
    exact invariant.bound number fragment ((heard _).mp mem)
  · intro fragment less
    exact (heard _).mpr (invariant.before fragment less)
  · have same : (session.arrive originator).count = session.fragment + 1 :=
      if_pos ((heard _).mpr again)
    rw [status_arrive, same]
    exact (congrArg Prod.fst duplicate) ▸ collects
  · obtain ⟨numbers, ordered, isNumbers, passedUp⟩ := invariant.passesUp
    refine ⟨numbers, ordered, fun number => ?_, ?_⟩
    · rw [isNumbers]
      exact forall₂_congr fun fragment _ => (heard _).symm
    · rw [passedUp_arrive, passedUp]
      exact (congrArg (fun result => _ ++ Option.toList (Prod.snd result)) duplicate).trans
        (List.append_nil _)

/-- What a frame adds to the MSDUs that are received. -/
theorem Invariant.received_arrive (invariant : Invariant originator session) (number : Nat) :
    (session.arrive originator).Received originator number ↔
      session.Received originator number ∨ number = session.number ∧
        session.fragment + 1 = (session.msdu originator).fragments.length := by
  have inside := invariant.inside
  have heard : ∀ entry, entry ∈ (session.arrive originator).heard ↔
      entry ∈ session.heard ∨ entry = (session.number, session.fragment) := by
    intro entry
    rw [heard_arrive, List.mem_append, List.mem_singleton]
  constructor
  · intro received
    by_cases current : number = session.number
    · subst current
      refine .inr ⟨rfl, ?_⟩
      by_contra more
      -- The fragment behind this one was not sent yet.
      have next := (heard _).mp (received (session.fragment + 1)
        (show _ < (session.msdu originator).fragments.length by omega))
      rcases next with old | same
      · rcases invariant.bound _ _ old with less | ⟨_, few⟩
        · omega
        · omega
      · simp at same
    · refine .inl fun fragment less => ?_
      rcases (heard _).mp (received fragment less) with old | same
      · exact old
      · exact absurd (congrArg Prod.fst same) current
  · rintro (received | ⟨rfl, last⟩)
    · exact fun fragment less => (heard _).mpr (.inl (received fragment less))
    · intro fragment less
      replace less : fragment < (session.msdu originator).fragments.length := less
      rw [heard]
      by_cases same : fragment = session.fragment
      · exact .inr (by rw [same])
      · exact .inl (invariant.before fragment (by omega))

/-- A frame that arrives for the first time. -/
theorem Invariant.arrive_fresh (invariant : Invariant originator session)
    (fresh : (session.number, session.fragment) ∉ session.heard)
    (ready : session.fragment = 0 → (session.status originator).defragmenting = false)
    (notDuplicate : isDuplicate (session.header originator) (session.status originator) = false) :
    Invariant originator (session.arrive originator) := by
  have count : session.count = session.fragment := if_neg fresh
  have collects := invariant.collects
  rw [count] at collects
  obtain ⟨collected, passed⟩ := Collects.receive collects invariant.inside ready notDuplicate
  have mem : (session.number, session.fragment) ∈ (session.arrive originator).heard := by
    simp [heard_arrive]
  refine ⟨invariant.inside, ?_, ?_, ?_, ?_, ?_⟩
  · intro first
    cases first
  · intro number fragment isHeard
    rw [heard_arrive, List.mem_append, List.mem_singleton] at isHeard
    rcases isHeard with old | same
    · exact invariant.bound number fragment old
    · cases same
      exact .inr ⟨rfl, Nat.le_refl _⟩
  · intro fragment less
    rw [heard_arrive]
    exact List.mem_append_left _ (invariant.before fragment less)
  · have same : (session.arrive originator).count = session.fragment + 1 := if_pos mem
    rw [status_arrive, same]
    exact collected
  · obtain ⟨numbers, ordered, isNumbers, passedUp⟩ := invariant.passesUp
    have isPassed := @passedUp_arrive originator session
    rw [header, msdu, passed, passedUp] at isPassed
    have unreceived : ¬ session.Received originator session.number :=
      fun received => fresh (received session.fragment invariant.inside)
    by_cases last : session.fragment + 1 = (session.msdu originator).fragments.length
    · refine ⟨numbers ++ [session.number], ?_, fun number => ?_, ?_⟩
      · rw [List.pairwise_append]
        refine ⟨ordered, List.pairwise_singleton _ _, fun number isNumber current isCurrent => ?_⟩
        cases List.mem_singleton.mp isCurrent
        have received := (isNumbers number).mp isNumber
        refine Nat.lt_of_le_of_ne (invariant.le_of_received received) fun same => ?_
        exact unreceived (same ▸ received)
      · rw [invariant.received_arrive, List.mem_append, List.mem_singleton, isNumbers]
        simp [last]
      · rw [isPassed]
        simp only [msdu] at last
        simp [last]
    · refine ⟨numbers, ordered, fun number => ?_, ?_⟩
      · rw [invariant.received_arrive, isNumbers]
        simp [last]
      · rw [isPassed]
        simp only [msdu] at last
        simp [last]

/-- Nothing of the next MSDU was received. -/
theorem Invariant.nextMsdu (invariant : Invariant originator session) :
    Invariant originator session.nextMsdu := by
  have unheard (fragment : Nat) : (session.number + 1, fragment) ∉ session.heard := by
    intro heard
    rcases invariant.bound _ _ heard with less | same <;> omega
  have count : session.nextMsdu.count = 0 := if_neg (unheard 0)
  refine ⟨(originator.msdus _).nonempty, fun _ => unheard 0, ?_, ?_, ?_, invariant.passesUp⟩
  · intro number fragment heard
    left
    rcases invariant.bound _ _ heard with less | ⟨same, _⟩
    · exact Nat.lt_succ_of_lt less
    · exact same ▸ Nat.lt_succ_self _
  · intro fragment less
    exact absurd less (Nat.not_lt_zero _)
  · rw [count]
    refine ⟨invariant.collects.idle, fun begun => absurd begun (by simp), fun finished => ?_⟩
    exact absurd finished.symm (Nat.ne_of_gt (originator.msdus (session.number + 1)).nonempty)

theorem Invariant.step (invariant : Invariant originator session) {event : Event}
    (enabled : session.Enabled originator event) (ready : session.Ready originator event) :
    Invariant originator (session.step originator event) := by
  cases event with
  | transmit received =>
      cases received with
      | true =>
          by_cases again : (session.number, session.fragment) ∈ session.heard
          · have unicast : (session.msdu originator).addr1.isGroup = false := by
              by_contra group
              exact invariant.untried (enabled (by simpa using group)) again
            exact invariant.arrive_again unicast again
          · exact invariant.arrive_fresh again (ready again).1 (ready again).2
      | false =>
          exact { invariant with
            untried := fun first => absurd first (by simp [Session.step])
            collects := invariant.collects
            passesUp := invariant.passesUp }
  | acknowledge =>
      dsimp only [Session.step]
      split
      case isFalse => exact invariant.nextMsdu
      case isTrue more =>
        have unheard : (session.number, session.fragment + 1) ∉ session.heard := by
          intro heard
          rcases invariant.bound _ _ heard with less | same <;> omega
        refine ⟨more, fun _ => unheard, ?_, ?_, ?_, invariant.passesUp⟩
        · intro number fragment heard
          rcases invariant.bound _ _ heard with less | ⟨same, few⟩
          · exact .inl less
          · exact .inr ⟨same, Nat.le_succ_of_le few⟩
        · intro fragment less
          by_cases same : fragment = session.fragment
          · exact same ▸ enabled.2
          · exact invariant.before fragment
              (Nat.lt_of_le_of_ne (Nat.lt_succ_iff.mp less) same)
        · have count : session.count = session.fragment + 1 := if_pos enabled.2
          have collects := invariant.collects
          rw [count] at collects
          have same : ({ session with fragment := session.fragment + 1, attempted := false } :
              Session).count = session.fragment + 1 := if_neg unheard
          rw [same]
          exact collects
  | discard => exact invariant.nextMsdu
  | other packet hdr =>
      have same : (session.step originator (.other packet hdr)).status originator =
          session.status originator :=
        lookup_store_other enabled _ _
      exact { invariant with
        collects := by
          rw [same]
          exact invariant.collects
        passesUp := invariant.passesUp }

end Session

/-- In every run the MSDUs that were received are passed up once, in full and in order, as long as
no frame arrives while the receiver waits for a fragment of an MSDU that was given up, and none
looks like a frame that was received before. -/
theorem always_passesUp (originator : Originator) {events : List Event}
    (legal : (sessions originator).Legal {} events)
    (ready : (sessions originator).Along (Session.Ready originator) {} events) :
    (sessions originator).Always (Session.PassesUp originator) {} events :=
  (Machine.Legal.always_of_along (fun _ _ invariant enabled ready => invariant.step enabled ready)
    (Session.invariant_initial originator) legal ready).mono fun _ invariant => invariant.passesUp

/-- An originator that sends two fragments, and then single frames. -/
def fragmenting : Originator where
  hdr := .plainData
  firstSeq := 0
  msdus number :=
    if number = 0 then ⟨.ofLast 1, [[1], [2]], by decide, by decide, by decide⟩
    else ⟨.ofLast 1, [[3]], by decide, by decide, by decide⟩

/-- The first fragment is received twice, and the second one only when it is sent again. -/
theorem always_passesUp_retransmitted :
    let events := [.transmit true, .transmit true, .acknowledge, .transmit false, .transmit true,
      .acknowledge, .transmit true]
    (sessions fragmenting).Along (Session.Ready fragmenting) {} events ∧
      (sessions fragmenting).Always (Session.PassesUp fragmenting) {} events :=
  ⟨by decide, always_passesUp fragmenting (by decide) (by decide)⟩

/-- The second fragment is given up, and the next MSDU is not passed up. -/
theorem not_always_passesUp :
    let events := [.transmit true, .acknowledge, .transmit false, .discard, .transmit true]
    (sessions fragmenting).Legal {} events ∧
      ¬ (sessions fragmenting).Always (Session.PassesUp fragmenting) {} events := by
  refine ⟨by decide, fun always => ?_⟩
  obtain ⟨numbers, _, isNumbers, passedUp⟩ := always.last
  have received := (isNumbers 1).mpr (by
    intro fragment less
    have zero : fragment = 0 := Nat.lt_one_iff.mp less
    rw [zero]
    decide)
  have nothing : numbers.map (fun number => (fragmenting.msdus number).packet) = [] := passedUp.symm
  rw [List.map_eq_nil_iff] at nothing
  rw [nothing] at received
  cases received

end Ns3.Wifi.MacRxMiddle
