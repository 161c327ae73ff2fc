import Ns3.Library.Machine
import Ns3.Internet.EndPointDemux.Resolution

/-!
The endpoints over runs of `Allocate` and `DeAllocate`.

The tests in `Allocate` compare the new endpoint with endpoints of the same device and with those
that are not bound. They do not see an endpoint of some device if the new one is not bound, nor that
two different local addresses may stand for one destination.
-/

namespace Ns3.Internet.EndPointDemux

open Library

/-- The calls of the sockets. The device is the one that the socket is bound to. -/
inductive Call
  | allocate (device : Option Nat)
  | allocateAddress (device : Option Nat) (address : UInt32)
  | allocatePort (device : Option Nat) (port : UInt16)
  | allocateLocal (device : Option Nat) (address : UInt32) (port : UInt16)
  | allocateConnection (device : Option Nat) (localAddress : UInt32) (localPort : UInt16)
      (peerAddress : UInt32) (peerPort : UInt16)
  | deAllocate (object : Nat)
  deriving DecidableEq, Repr

/-- The tests do not see that the new endpoint conflicts with one of the list. -/
def Ipv4EndPoint.Unseen (interfaces : Set Ipv4Interface) (endPoint new : Ipv4EndPoint) : Prop :=
  endPoint.localPort = new.localPort ∧ endPoint.peerAddr = new.peerAddr ∧
    endPoint.peerPort = new.peerPort ∧
    ∃ interface ∈ interfaces, endPoint.listensOn interface = true ∧
      new.listensOn interface = true ∧
      (endPoint.localAddr = new.localAddr ∧ endPoint.boundNetDevice ≠ none ∧
          new.boundNetDevice = none ∨
        endPoint.localAddr ≠ new.localAddr ∧
          ∃ daddr, endPoint.localAddressMatchesWildCard interface daddr = true ∧
            new.localAddressMatchesWildCard interface daddr = true)

namespace Ipv4EndPointDemux

variable (demux : Ipv4EndPointDemux)

/-- The socket binds an endpoint that it has got to its device. -/
def bound (device : Option Nat) : Ipv4EndPointDemux × Option Nat → Ipv4EndPointDemux
  | (demux, some object) => demux.bindToNetDevice object device
  | (demux, none) => demux

/-- One call. -/
def step (demux : Ipv4EndPointDemux) : Call → Ipv4EndPointDemux
  | .allocate device => bound device (demux.allocateAddress 0)
  | .allocateAddress device address => bound device (demux.allocateAddress address)
  | .allocatePort device port => bound device (demux.allocateLocal device 0 port)
  | .allocateLocal device address port => bound device (demux.allocateLocal device address port)
  | .allocateConnection device localAddress localPort peerAddress peerPort =>
      bound device
        (demux.allocateConnection device localAddress localPort peerAddress peerPort)
  | .deAllocate object => demux.deAllocate object

/-- An endpoint that `Allocate` accepts for its local address does not conflict unseen. -/
def SparesLocal (interfaces : Set Ipv4Interface) (device : Option Nat) (address : UInt32)
    (port : UInt16) : Prop :=
  demux.lookupLocal device address port = false → demux.lookupLocal none address port = false →
    ∀ endPoint ∈ demux.endPoints, ¬ endPoint.Unseen interfaces
      { object := demux.nextObject, localAddr := address, localPort := port,
        boundNetDevice := device }

/-- No endpoint that is accepted conflicts unseen. -/
def Spares (interfaces : Set Ipv4Interface) (demux : Ipv4EndPointDemux) : Call → Prop
  | .allocatePort device port => demux.SparesLocal interfaces device 0 port
  | .allocateLocal device address port => demux.SparesLocal interfaces device address port
  | .allocateConnection device localAddress localPort peerAddress peerPort =>
      demux.lookupConnection device localAddress localPort peerAddress peerPort = false →
        ∀ endPoint ∈ demux.endPoints, ¬ endPoint.Unseen interfaces
          { object := demux.nextObject, localAddr := localAddress, localPort := localPort,
            peerAddr := peerAddress, peerPort := peerPort, boundNetDevice := device }
  | .allocate _ | .allocateAddress _ _ | .deAllocate _ => True

/-- What the calls keep. -/
structure Separate (interfaces : Set Ipv4Interface) (demux : Ipv4EndPointDemux) : Prop where
  made : ∀ endPoint ∈ demux.endPoints, endPoint.object < demux.nextObject
  apart : Apart interfaces demux.endPoints

variable {demux} {interfaces : Set Ipv4Interface} {device : Option Nat}

/-- A conflict is one that the tests see, or one that they do not see. -/
theorem unseen_of_conflicts {endPoint new : Ipv4EndPoint}
    (conflicts : endPoint.Conflicts interfaces new)
    (admitted : endPoint.localAddr = new.localAddr →
      endPoint.boundNetDevice ≠ new.boundNetDevice ∧ endPoint.boundNetDevice ≠ none) :
    endPoint.Unseen interfaces new := by
  obtain ⟨port, peerAddr, peerPort, interface, attached, listens, alsoListens, together⟩ := conflicts
  refine ⟨port, peerAddr, peerPort, interface, attached, listens, alsoListens, ?_⟩
  by_cases same : endPoint.localAddr = new.localAddr
  · obtain ⟨otherDevice, isBound⟩ := admitted same
    refine .inl ⟨same, isBound, ?_⟩
    cases first : endPoint.boundNetDevice with
    | none => exact absurd first isBound
    | some device =>
        cases second : new.boundNetDevice with
        | none => rfl
        | some other =>
            simp only [Ipv4EndPoint.listensOn, first, second, decide_eq_true_eq] at listens alsoListens
            exact absurd (by rw [first, second, listens, alsoListens]) otherDevice
  · rcases together with equal | wildCards
    · exact absurd equal same
    · exact .inr ⟨same, wildCards⟩

/-- A new endpoint that conflicts with none of the list. -/
theorem Separate.push (separate : demux.Separate interfaces) {endPoint : Nat → Ipv4EndPoint}
    (object : ∀ number, (endPoint number).object = number)
    (apart : ∀ other ∈ demux.endPoints, ¬ other.Conflicts interfaces
      { endPoint demux.nextObject with boundNetDevice := device }) :
    (bound device (demux.push endPoint)).Separate interfaces := by
  have old : demux.endPoints.map (fun other =>
      if other.object = demux.nextObject then { other with boundNetDevice := device } else other) =
      demux.endPoints := by
    refine (List.map_congr_left ?_).trans (List.map_id _)
    intro other mem
    exact if_neg (Nat.ne_of_lt (separate.made other mem))
  have list : (bound device (demux.push endPoint)).endPoints =
      demux.endPoints ++ [{ endPoint demux.nextObject with boundNetDevice := device }] := by
    simp [bound, Ipv4EndPointDemux.push, bindToNetDevice, old, object]
  constructor
  · intro other mem
    rw [list] at mem
    rcases List.mem_append.mp mem with earlier | isNew
    · exact Nat.lt_succ_of_lt (separate.made other earlier)
    · rw [List.mem_singleton.mp isNew]
      exact (object _).symm ▸ Nat.lt_succ_self _
  · rw [list]
    apply List.pairwise_append.mpr
    refine ⟨separate.apart, List.pairwise_singleton _ _, ?_⟩
    intro other mem new isNew
    rw [List.mem_singleton.mp isNew]
    exact apart other mem

/-- The port of an endpoint that is given one is free. -/
theorem allocateEphemeralPort_free {count : Nat} {port : UInt16}
    (found : demux.allocateEphemeralPort count port ≠ 0) :
    demux.lookupPortLocal (demux.allocateEphemeralPort count port) = false := by
  induction count generalizing port with
  | zero => exact absurd rfl found
  | succ count inductionHypothesis =>
      unfold allocateEphemeralPort at found ⊢
      split
      · next used =>
          rw [if_pos used] at found
          exact inductionHypothesis found
      · next free => simpa using free

theorem Separate.allocateAddress (separate : demux.Separate interfaces) (address : UInt32) :
    (bound device (demux.allocateAddress address)).Separate interfaces := by
  unfold Ipv4EndPointDemux.allocateAddress
  dsimp only
  split
  · exact separate
  · next found =>
      have free := allocateEphemeralPort_free found
      have kept : ({ demux with ephemeral := demux.allocateEphemeralPort 16384 demux.ephemeral } :
          Ipv4EndPointDemux).Separate interfaces := ⟨separate.made, separate.apart⟩
      apply kept.push (fun _ => rfl)
      intro other mem conflicts
      have used := List.any_eq_false.mp free other mem
      simp only [decide_eq_true_eq] at used
      exact used conflicts.1

theorem Separate.allocateLocal (separate : demux.Separate interfaces) {address : UInt32}
    {port : UInt16} (spares : demux.SparesLocal interfaces device address port) :
    (bound device (demux.allocateLocal device address port)).Separate interfaces := by
  unfold Ipv4EndPointDemux.allocateLocal
  split
  · exact separate
  · next free =>
      simp only [Bool.or_eq_true, not_or, Bool.not_eq_true] at free
      obtain ⟨notSame, notAny⟩ := free
      apply separate.push (fun _ => rfl)
      intro other mem conflicts
      apply spares notSame notAny other mem
      apply unseen_of_conflicts conflicts
      intro sameAddress
      have different := List.any_eq_false.mp notSame other mem
      have isBound := List.any_eq_false.mp notAny other mem
      have samePort := conflicts.1
      simp only [Bool.and_eq_true, decide_eq_true_eq] at different isBound
      exact ⟨fun sameDevice => different ⟨⟨samePort, sameAddress⟩, sameDevice⟩,
        fun anyDevice => isBound ⟨⟨samePort, sameAddress⟩, anyDevice⟩⟩

theorem Separate.allocateConnection (separate : demux.Separate interfaces)
    {localAddress peerAddress : UInt32} {localPort peerPort : UInt16}
    (spares : demux.Spares interfaces
      (.allocateConnection device localAddress localPort peerAddress peerPort)) :
    (bound device (demux.allocateConnection device localAddress localPort peerAddress
      peerPort)).Separate interfaces := by
  unfold Ipv4EndPointDemux.allocateConnection
  split
  · exact separate
  · next free =>
      simp only [Bool.not_eq_true] at free
      apply separate.push (fun _ => rfl)
      intro other mem conflicts
      apply spares free other mem
      apply unseen_of_conflicts conflicts
      intro sameAddress
      have different := List.any_eq_false.mp free other mem
      obtain ⟨samePort, samePeer, samePeerPort, _⟩ := conflicts
      simp only [Bool.and_eq_true, Bool.or_eq_true, decide_eq_true_eq] at different
      exact ⟨fun sameDevice =>
          different ⟨⟨⟨⟨samePort, sameAddress⟩, samePeerPort⟩, samePeer⟩, .inl sameDevice⟩,
        fun anyDevice =>
          different ⟨⟨⟨⟨samePort, sameAddress⟩, samePeerPort⟩, samePeer⟩, .inr anyDevice⟩⟩

theorem Separate.deAllocate (separate : demux.Separate interfaces) (object : Nat) :
    (demux.deAllocate object).Separate interfaces := by
  have sublist : (demux.deAllocate object).endPoints.Sublist demux.endPoints :=
    List.eraseP_sublist
  exact ⟨fun endPoint mem => separate.made endPoint (sublist.subset mem),
    separate.apart.sublist sublist⟩

theorem Separate.step (separate : demux.Separate interfaces) {call : Call}
    (spares : demux.Spares interfaces call) : (demux.step call).Separate interfaces := by
  cases call with
  | allocate device => exact separate.allocateAddress 0
  | allocateAddress device address => exact separate.allocateAddress address
  | allocatePort device port => exact separate.allocateLocal spares
  | allocateLocal device address port => exact separate.allocateLocal spares
  | allocateConnection device localAddress localPort peerAddress peerPort =>
      exact separate.allocateConnection spares
  | deAllocate object => exact separate.deAllocate object

end Ipv4EndPointDemux

/-- Runs of the calls of sockets. All calls are allowed at any time. -/
def sockets : Machine Ipv4EndPointDemux Call where
  step := Ipv4EndPointDemux.step
  Enabled _ _ := True

/-- Every packet of these interfaces finds its endpoint. -/
def Ipv4EndPointDemux.ResolvesAll (interfaces : Set Ipv4Interface) (demux : Ipv4EndPointDemux) :
    Prop :=
  ∀ arrival : Arrival, arrival.incomingInterface ∈ interfaces → demux.Resolves arrival

/-- Every packet finds its endpoint in the runs in which no endpoint that is accepted conflicts
unseen. -/
theorem always_resolvesAll {interfaces : Set Ipv4Interface} {calls : List Call}
    (spares : sockets.Along (Ipv4EndPointDemux.Spares interfaces) {} calls) :
    sockets.Always (Ipv4EndPointDemux.ResolvesAll interfaces) {} calls := by
  have always : sockets.Always (Ipv4EndPointDemux.Separate interfaces) {} calls := by
    apply Machine.Legal.always_of_along _ ⟨by simp, List.Pairwise.nil⟩
      (Machine.legal_of_enabled (fun _ _ => trivial) _ calls) spares
    exact fun _ _ separate _ spared => separate.step spared
  exact always.mono fun _ separate arrival attached =>
    @Ipv4EndPointDemux.Apart.resolves _ arrival _ separate.apart attached

/-- Servers on two devices and on an address, and a connection. -/
theorem always_resolvesAll_servers :
    sockets.Always (Ipv4EndPointDemux.ResolvesAll fun interface =>
        interface = ⟨1, [⟨0x0a000001, 0xffffff00⟩]⟩ ∨ interface = ⟨2, [⟨0x0a000101, 0xffffff00⟩]⟩) {}
      [.allocatePort (some 1) 80, .allocatePort (some 2) 80, .allocateLocal none 0x0a000001 80,
        .allocateConnection none 0x0a000001 80 0x0a000102 49153, .deAllocate 0] := by
  apply always_resolvesAll
  refine ⟨?_, ?_, ?_, ?_, trivial, trivial⟩
  · intro _ _ endPoint mem
    cases mem
  · intro _ _ endPoint mem unseen
    cases List.mem_singleton.mp mem
    simp [Ipv4EndPoint.Unseen] at unseen
  · intro _ _ endPoint mem unseen
    have list : endPoint ∈ [(⟨0, 0, 80, 0, 0, some 1, true⟩ : Ipv4EndPoint),
        ⟨1, 0, 80, 0, 0, some 2, true⟩] := mem
    obtain ⟨_, _, _, interface, attached, _, _, together⟩ := unseen
    rcases together with same | ⟨_, daddr, _, wildCard⟩
    · rcases List.mem_pair.mp list with rfl | rfl
      · exact absurd same.1 (by decide)
      · exact absurd same.1 (by decide)
    · rcases attached with rfl | rfl
      · apply Bool.eq_false_iff.mp _ wildCard
        exact Ipv4EndPoint.localAddressMatchesWildCard_host (by decide) (by decide) daddr
      · apply Bool.eq_false_iff.mp _ wildCard
        exact Ipv4EndPoint.localAddressMatchesWildCard_host (by decide) (by decide) daddr
  · intro _ endPoint mem unseen
    have list : endPoint ∈ [(⟨0, 0, 80, 0, 0, some 1, true⟩ : Ipv4EndPoint),
        ⟨1, 0, 80, 0, 0, some 2, true⟩, ⟨2, 0x0a000001, 80, 0, 0, none, true⟩] := mem
    have samePeer := unseen.2.1
    simp only [List.mem_cons, List.not_mem_nil, or_false] at list
    rcases list with rfl | rfl | rfl
    · exact absurd samePeer (by decide)
    · exact absurd samePeer (by decide)
    · exact absurd samePeer (by decide)

/-- A socket of a device and then one that is not bound get the same port, and there are too many
endpoints for a packet of this device. -/
theorem not_always_resolvesAll :
    ¬ ∀ (interfaces : Set Ipv4Interface) (calls : List Call),
      sockets.Always (Ipv4EndPointDemux.ResolvesAll interfaces) {} calls := by
  intro always
  have resolves := (always (fun interface => interface = ⟨1, [⟨0x0a000001, 0xffffff00⟩]⟩)
    [.allocatePort (some 1) 80, .allocatePort none 80]).last
    ⟨0x0a000001, 80, 0x0a000002, 49153, ⟨1, [⟨0x0a000001, 0xffffff00⟩]⟩⟩ rfl
  have tooMany : (sockets.run {} [.allocatePort (some 1) 80, .allocatePort none 80]).lookup
      ⟨0x0a000001, 80, 0x0a000002, 49153, ⟨1, [⟨0x0a000001, 0xffffff00⟩]⟩⟩ = none := by decide
  rcases resolves with ⟨found, _⟩ | ⟨endPoint, _, found, _⟩
  · exact absurd (tooMany.symm.trans found) (by simp)
  · exact absurd (tooMany.symm.trans found) (by simp)

end Ns3.Internet.EndPointDemux
