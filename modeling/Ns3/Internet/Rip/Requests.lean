import Mathlib.Data.List.Forall2
import Ns3.Internet.Rip.Kernel

/-!
`Rip::HandleRequests`: the answers to requests.

A request for the whole table is answered in as many messages as are needed. Any other one should
be answered with the same list, and the metric and the tag of each network. Two slips are in the
way: a list of one entry is only looked at as a request for the whole table, and the addresses are
compared as they are written, since what `CombineMask` returns is not used.
-/

namespace Ns3.Internet.RipRouting

/-- `Rip::SplitHorizonType_e`. -/
inductive SplitHorizonStrategy
  | noSplitHorizon
  | splitHorizon
  | poisonReverse
  deriving DecidableEq, Repr

/-- A message that answers a request. It leaves through the socket of an interface, or through the
multicast one. -/
structure Response where
  socket : Option Nat
  destination : UInt32
  port : Nat
  ttl : Nat
  rtes : List RipRte
  deriving DecidableEq, Repr

/-- What `HandleRequests` finds: the attributes, the sockets and the devices, by interface. -/
structure Setting where
  strategy : SplitHorizonStrategy := .poisonReverse
  interfaceExclusions : List Nat := []
  unicastSocketList : List Nat := []
  mtu : Nat → Nat := fun _ => 1500

/-- A request as it was received. -/
structure Request where
  rtes : List RipRte
  senderAddress : UInt32
  senderPort : Nat
  incomingInterface : Nat
  deriving DecidableEq, Repr

/-- `RIP_ALL_NODE`. -/
def ripAllNode : UInt32 := 0xe0000009

/-- `RIP_PORT`. -/
def ripPort : Nat := 520

/-- `Ipv4Mask::GetPrefixLength`: how often the mask is shifted until nothing is left of it. -/
def getPrefixLength (mask : UInt32) : Nat :=
  ((List.range 33).find? fun shift => mask.toBitVec <<< shift = 0).getD 32

/-- The number of RTEs that a message may have. The difference is one of unsigned numbers. -/
def maxRte (mtu : Nat) : Nat := (mtu + 2 ^ 32 - (20 + 8 + 4)) % 2 ^ 32 / 20 % 2 ^ 16

namespace Request

variable (setting : Setting) (routes : List RipRoutingTableEntry) (request : Request)

/-- The hop limit of the answer. -/
def ttl : Nat := if request.senderAddress = ripAllNode then 1 else 255

/-- The one entry that asks for the whole table. -/
def isWholeTable : Bool :=
  match request.rtes with
  | [rte] => rte.address = 0 && getPrefixLength rte.subnetMask = 0 && rte.metric = linkDown
  | _ => false

/-- What a neighbour on the interface is told about a route. -/
def advertise (route : RipRoutingTableEntry) : Option RipRte :=
  let splitHorizoning : Bool := route.interface = request.incomingInterface
  let isDefaultRoute : Bool := route.dest = 0 && route.destNetworkMask = 0 &&
    route.interface ≠ request.incomingInterface
  if (route.isGlobal || isDefaultRoute) && route.status = .valid &&
      !(setting.strategy = .splitHorizon && splitHorizoning) then
    some
      { address := route.dest
        subnetMask := route.destNetworkMask
        metric :=
          if setting.strategy = .poisonReverse && splitHorizoning then linkDown else route.metric
        tag := route.tag }
  else none

/-- An answer that leaves through the socket of the interface. -/
def wholeTableResponse (rtes : List RipRte) : Response where
  socket := some request.incomingInterface
  destination := request.senderAddress
  port := ripPort
  ttl := request.ttl
  rtes := rtes

/-- The loop over the table: the RTEs of the next message, and the messages that were sent. -/
def wholeTableLoop (state : List RipRte × List Response) (route : RipRoutingTableEntry) :
    List RipRte × List Response :=
  let hdr := state.1 ++ (request.advertise setting route).toList
  if hdr.length = maxRte (setting.mtu request.incomingInterface) then
    ([], state.2 ++ [request.wholeTableResponse hdr])
  else (hdr, state.2)

/-- The answer to a request for the whole table. -/
def wholeTable : List Response :=
  let (hdr, sent) := routes.foldl (request.wholeTableLoop setting) ([], [])
  if 0 < hdr.length then sent ++ [request.wholeTableResponse hdr] else sent

/-- The route is compared with a requested network. -/
def isWritten (rte : RipRte) (route : RipRoutingTableEntry) : Bool :=
  route.isGlobal && route.status = .valid && rte.address = route.dest

/-- The entry of the answer for a requested network. -/
def answer (rte : RipRte) : RipRte :=
  match routes.find? (isWritten rte) with
  | some route => { rte with metric := route.metric, tag := route.tag }
  | none => { rte with metric := linkDown, tag := 0 }

/-- `HandleRequests`: the messages that are sent, or none if no socket is found and the assertion
fails. -/
def handleRequests : Option (List Response) :=
  if request.rtes = [] then some []
  else if request.rtes.length = 1 then
    if request.isWholeTable then
      if request.incomingInterface ∈ setting.interfaceExclusions then some []
      else if request.incomingInterface ∈ setting.unicastSocketList then
        some (request.wholeTable setting routes)
      else none
    else some []
  else
    some [{ socket := none, destination := request.senderAddress, port := request.senderPort,
            ttl := request.ttl, rtes := request.rtes.map (answer routes) }]

end Request

/-- The route is a valid one to exactly the network that is requested. -/
def isRequested (rte : RipRte) (route : RipRoutingTableEntry) : Bool :=
  route.isGlobal && route.status = .valid && route.dest = rte.address &&& rte.subnetMask &&
    route.destNetworkMask = rte.subnetMask

/-- The entry has the same prefix and mask as the requested one, and what a route to this network
has, or `m_linkDown` if there is none. -/
def IsAnswer (routes : List RipRoutingTableEntry) (rte entry : RipRte) : Prop :=
  entry.address = rte.address ∧ entry.subnetMask = rte.subnetMask ∧
    ((∃ route ∈ routes, isRequested rte route = true ∧ entry.metric = route.metric ∧
        entry.tag = route.tag) ∨
      (∀ route ∈ routes, isRequested rte route = false) ∧ entry.metric = linkDown)

/-- One message answers the whole request. -/
def Answers (routes : List RipRoutingTableEntry) (request : Request)
    (responses : Option (List Response)) : Prop :=
  ∃ response, responses = some [response] ∧
    List.Forall₂ (IsAnswer routes) request.rtes response.rtes

/-- The first route to the address as it is written does as well as one to the requested network.
-/
def Unambiguous (routes : List RipRoutingTableEntry) (rte : RipRte) : Prop :=
  match routes.find? (Request.isWritten rte) with
  | some written =>
      (∃ route ∈ routes, isRequested rte route = true ∧ written.metric = route.metric ∧
        written.tag = route.tag) ∨
      (∀ route ∈ routes, isRequested rte route = false) ∧ written.metric = linkDown
  | none =>
      (∃ route ∈ routes, isRequested rte route = true ∧ linkDown = route.metric ∧ 0 = route.tag) ∨
      (∀ route ∈ routes, isRequested rte route = false)

instance (routes : List RipRoutingTableEntry) (rte : RipRte) : Decidable (Unambiguous routes rte) :=
  match first : routes.find? (Request.isWritten rte) with
  | some written =>
      decidable_of_iff ((∃ route ∈ routes, isRequested rte route = true ∧
          written.metric = route.metric ∧ written.tag = route.tag) ∨
        (∀ route ∈ routes, isRequested rte route = false) ∧ written.metric = linkDown)
        (by simp only [Unambiguous, first])
  | none =>
      decidable_of_iff ((∃ route ∈ routes, isRequested rte route = true ∧ linkDown = route.metric ∧
          0 = route.tag) ∨ (∀ route ∈ routes, isRequested rte route = false))
        (by simp only [Unambiguous, first])

namespace Request

variable {setting : Setting} {routes : List RipRoutingTableEntry} {request : Request}

theorem isAnswer_answer_iff {rte : RipRte} :
    IsAnswer routes rte (answer routes rte) ↔ Unambiguous routes rte := by
  unfold IsAnswer Unambiguous answer
  split
  · simp
  · simp

end Request

end Ns3.Internet.RipRouting
