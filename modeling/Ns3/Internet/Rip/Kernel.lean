import Mathlib.Algebra.Order.Ring.Int
import Mathlib.Data.List.Basic

/-!
`ns3::Rip`: the routing table and its timers.

A route is an object of its own, which timers refer to: `InvalidateRoute` is scheduled for a route
that was learned, and `DeleteRoute` for one that is not valid any more. Each object has a number
here, and each event of the simulator has one.
-/

namespace Ns3.Internet.RipRouting

/-- The metric of a route that cannot be reached, `m_linkDown`. -/
def linkDown : Nat := 16

/-- `RipRoutingTableEntry::Status_e`. -/
inductive Status
  | valid
  | invalid
  deriving DecidableEq, Repr

/-- What an event of the simulator calls. -/
inductive Handler
  | invalidateRoute
  | deleteRoute
  deriving DecidableEq, Repr

/-- `ns3::EventId`: the number of the event, its time, and what it calls for which route. -/
structure EventId where
  uid : Nat
  time : Nat
  handler : Handler
  route : Nat
  deriving DecidableEq, Repr

/-- `ns3::RipRoutingTableEntry`, with the number of the object and the event that is stored beside
it. A route is learned once a response has set its timer. -/
structure RipRoutingTableEntry where
  object : Nat
  dest : UInt32
  destNetworkMask : UInt32
  gateway : UInt32
  interface : Nat
  tag : UInt16 := 0
  metric : Nat := 0
  status : Status := .invalid
  changed : Bool := false
  event : Option EventId := none
  learned : Bool := false
  deriving DecidableEq, Repr

namespace RipRoutingTableEntry

variable (entry : RipRoutingTableEntry)

/-- `SetRouteTag`. -/
def setRouteTag (routeTag : UInt16) : RipRoutingTableEntry :=
  if entry.tag ≠ routeTag then { entry with tag := routeTag, changed := true } else entry

/-- `SetRouteMetric`. -/
def setRouteMetric (routeMetric : Nat) : RipRoutingTableEntry :=
  if entry.metric ≠ routeMetric then { entry with metric := routeMetric, changed := true } else entry

/-- `SetRouteStatus`. -/
def setRouteStatus (status : Status) : RipRoutingTableEntry :=
  if entry.status ≠ status then { entry with status := status, changed := true } else entry

/-- `SetRouteChanged`. -/
def setRouteChanged (changed : Bool) : RipRoutingTableEntry := { entry with changed := changed }

section Setters

variable {entry} {routeTag : UInt16} {routeMetric : Nat} {status : Status} {changed : Bool}

@[simp]
theorem setRouteTag_object : (entry.setRouteTag routeTag).object = entry.object := by
  unfold setRouteTag
  split <;> rfl

@[simp]
theorem setRouteTag_learned : (entry.setRouteTag routeTag).learned = entry.learned := by
  unfold setRouteTag
  split <;> rfl

@[simp]
theorem setRouteTag_event : (entry.setRouteTag routeTag).event = entry.event := by
  unfold setRouteTag
  split <;> rfl

@[simp]
theorem setRouteTag_metric : (entry.setRouteTag routeTag).metric = entry.metric := by
  unfold setRouteTag
  split <;> rfl

@[simp]
theorem setRouteTag_status : (entry.setRouteTag routeTag).status = entry.status := by
  unfold setRouteTag
  split <;> rfl

@[simp]
theorem setRouteMetric_object : (entry.setRouteMetric routeMetric).object = entry.object := by
  unfold setRouteMetric
  split <;> rfl

@[simp]
theorem setRouteMetric_learned : (entry.setRouteMetric routeMetric).learned = entry.learned := by
  unfold setRouteMetric
  split <;> rfl

@[simp]
theorem setRouteMetric_event : (entry.setRouteMetric routeMetric).event = entry.event := by
  unfold setRouteMetric
  split <;> rfl

@[simp]
theorem setRouteMetric_metric : (entry.setRouteMetric routeMetric).metric = routeMetric := by
  unfold setRouteMetric
  split
  · rfl
  · next same => simpa using same

@[simp]
theorem setRouteMetric_status : (entry.setRouteMetric routeMetric).status = entry.status := by
  unfold setRouteMetric
  split <;> rfl

@[simp]
theorem setRouteStatus_object : (entry.setRouteStatus status).object = entry.object := by
  unfold setRouteStatus
  split <;> rfl

@[simp]
theorem setRouteStatus_learned : (entry.setRouteStatus status).learned = entry.learned := by
  unfold setRouteStatus
  split <;> rfl

@[simp]
theorem setRouteStatus_event : (entry.setRouteStatus status).event = entry.event := by
  unfold setRouteStatus
  split <;> rfl

@[simp]
theorem setRouteStatus_metric : (entry.setRouteStatus status).metric = entry.metric := by
  unfold setRouteStatus
  split <;> rfl

@[simp]
theorem setRouteStatus_status : (entry.setRouteStatus status).status = status := by
  unfold setRouteStatus
  split
  · rfl
  · next same => simpa using same

@[simp]
theorem setRouteChanged_object : (entry.setRouteChanged changed).object = entry.object := rfl

@[simp]
theorem setRouteChanged_learned : (entry.setRouteChanged changed).learned = entry.learned := rfl

@[simp]
theorem setRouteChanged_event : (entry.setRouteChanged changed).event = entry.event := rfl

@[simp]
theorem setRouteChanged_metric : (entry.setRouteChanged changed).metric = entry.metric := rfl

@[simp]
theorem setRouteChanged_status : (entry.setRouteChanged changed).status = entry.status := rfl

end Setters

/-- `IsHost`. -/
def isHost : Bool := entry.destNetworkMask = 0xffffffff

/-- The scope of the network is `Ipv4InterfaceAddress::GLOBAL`. -/
def isGlobal : Bool := entry.dest ≠ 0x7f000001

end RipRoutingTableEntry

/-- The simulator as the routing protocol uses it, and the objects that were made. -/
structure Simulation where
  now : Nat := 0
  nextUid : Nat := 0
  nextObject : Nat := 0
  pending : List EventId := []
  deriving DecidableEq, Repr

namespace Simulation

variable (simulation : Simulation)

/-- `EventId::Cancel`. -/
def cancel (event : Option EventId) : Simulation :=
  { simulation with pending := simulation.pending.filter fun other => some other ≠ event }

/-- The event that `Simulator::Schedule` makes. -/
def nextEvent (delay : Nat) (handler : Handler) (route : Nat) : EventId :=
  ⟨simulation.nextUid, simulation.now + delay, handler, route⟩

/-- `Simulator::Schedule`. -/
def schedule (delay : Nat) (handler : Handler) (route : Nat) : Simulation :=
  { simulation with
    nextUid := simulation.nextUid + 1
    pending := simulation.pending ++ [simulation.nextEvent delay handler route] }

/-- `EventId::IsRunning`. -/
def isRunning (event : Option EventId) : Bool :=
  simulation.pending.any fun other => some other = event

/-- `Simulator::GetDelayLeft`. -/
def getDelayLeft (event : Option EventId) : Nat :=
  match event with
  | none => 0
  | some id => if simulation.isRunning (some id) then id.time - simulation.now else 0

/-- An object is made, with the next number. -/
def allocate : Simulation := { simulation with nextObject := simulation.nextObject + 1 }

end Simulation

/-- The attributes of `ns3::Rip`. -/
structure Config where
  timeoutDelay : Nat
  garbageCollectionDelay : Nat
  interfaceExclusions : List Nat := []
  interfaceMetrics : Nat → Option Nat := fun _ => none

/-- `ns3::RipRte`. -/
structure RipRte where
  address : UInt32
  subnetMask : UInt32
  metric : Nat
  tag : UInt16 := 0
  deriving DecidableEq, Repr

/-- `Ipv4InterfaceAddress::InterfaceAddressScope_e`. -/
inductive Scope
  | host
  | link
  | global
  deriving DecidableEq, Repr

/-- `ns3::Ipv4InterfaceAddress`. -/
structure Ipv4InterfaceAddress where
  localAddress : UInt32
  mask : UInt32
  scope : Scope
  deriving DecidableEq, Repr

/-- `Ipv4Address::IsLocalhost`, `IsBroadcast` or `IsMulticast`: no route has such a prefix. -/
def isWrongPrefix (address : UInt32) : Bool :=
  address = 0x7f000001 || address = 0xffffffff || (0xe0000000 ≤ address && address ≤ 0xefffffff)

/-- `ns3::Rip`, with the simulator. -/
structure Rip where
  routes : List RipRoutingTableEntry := []
  simulation : Simulation := {}
  initialized : Bool := false
  triggeredUpdate : Bool := false
  aborted : Bool := false
  deriving DecidableEq, Repr

namespace Rip

variable (config : Config) (rip : Rip)

/-- `SendTriggeredRouteUpdate`. -/
def sendTriggeredRouteUpdate : Rip := { rip with triggeredUpdate := true }

/-- `DoSendRouteUpdate`, as far as the table is concerned: every route is up to date. -/
def doSendRouteUpdate : Rip :=
  { rip with
    routes := rip.routes.map fun route => route.setRouteChanged false
    triggeredUpdate := false }

/-- `AddNetworkRouteTo`. -/
def addNetworkRouteTo (network networkPrefix nextHop : UInt32) (interface : Nat) : Rip :=
  let route : RipRoutingTableEntry :=
    { object := rip.simulation.nextObject, dest := network, destNetworkMask := networkPrefix,
      gateway := nextHop, interface := interface }
  { rip with
    routes := rip.routes ++ [((route.setRouteMetric 1).setRouteStatus .valid).setRouteChanged true]
    simulation := rip.simulation.allocate }

/-- Put a route and a new event for it at a place of the table, instead of the event there. -/
def reschedule (place : Nat) (old : Option EventId) (route : RipRoutingTableEntry) (delay : Nat)
    (handler : Handler) : Rip :=
  let simulation := rip.simulation.cancel old
  { rip with
    routes := rip.routes.set place
      { route with event := some (simulation.nextEvent delay handler route.object) }
    simulation := simulation.schedule delay handler route.object }

/-- The place of a route in the table. -/
def placeOf (object : Nat) : Option Nat :=
  rip.routes.findIdx? fun route => route.object = object

/-- `InvalidateRoute`. -/
def invalidateRoute (object : Nat) : Rip :=
  match rip.placeOf object with
  | none => { rip with aborted := true }
  | some place =>
      match rip.routes[place]? with
      | none => rip
      | some route =>
          rip.reschedule place route.event
            (((route.setRouteStatus .invalid).setRouteMetric linkDown).setRouteChanged true)
            config.garbageCollectionDelay .deleteRoute

/-- `DeleteRoute`. -/
def deleteRoute (object : Nat) : Rip :=
  match rip.placeOf object with
  | none => { rip with aborted := true }
  | some place => { rip with routes := rip.routes.eraseIdx place }

end Rip

/-- An RTE of a response: the network, its metric through the sender, and where it came from. -/
structure Offer where
  rteAddr : UInt32
  rtePrefixMask : UInt32
  rteMetric : Nat
  tag : UInt16
  senderAddress : UInt32
  incomingInterface : Nat
  deriving DecidableEq, Repr

namespace Offer

variable (offer : Offer)

/-- The route is for the network of the offer. -/
def isFor (route : RipRoutingTableEntry) : Bool :=
  route.dest = offer.rteAddr && route.destNetworkMask = offer.rtePrefixMask

/-- A new route through the sender. -/
def newRoute (object : Nat) : RipRoutingTableEntry :=
  { object := object, dest := offer.rteAddr, destNetworkMask := offer.rtePrefixMask,
    gateway := offer.senderAddress, interface := offer.incomingInterface }

/-- The route gets what is offered. -/
def accept (route : RipRoutingTableEntry) : RipRoutingTableEntry :=
  (((route.setRouteMetric offer.rteMetric).setRouteStatus .valid).setRouteTag
    offer.tag).setRouteChanged true

end Offer

/-- The loop of `HandleResponses` over the table. -/
structure Handling where
  rip : Rip
  found : Bool := false
  changed : Bool := false
  deriving DecidableEq, Repr

namespace Rip

variable (config : Config) (rip : Rip)

/-- A route of a response, with a new `InvalidateRoute` event. -/
def learn (place : Nat) (old : Option EventId) (route : RipRoutingTableEntry) : Rip :=
  rip.reschedule place old { route with learned := true } config.timeoutDelay .invalidateRoute

/-- The route at a place is compared with an offer. -/
def handleRoute (offer : Offer) (handling : Handling) (place : Nat) : Handling :=
  let rip := handling.rip
  let object := rip.simulation.nextObject
  let allocated := { rip with simulation := rip.simulation.allocate }
  match rip.routes[place]? with
  | none => handling
  | some route =>
      if offer.isFor route = false then handling
      else if offer.rteMetric < route.metric then
        if offer.senderAddress ≠ route.gateway then
          ⟨allocated.learn config place route.event (offer.accept (offer.newRoute object)), true,
            true⟩
        else ⟨rip.learn config place route.event (offer.accept route), true, true⟩
      else if offer.rteMetric = route.metric then
        if offer.senderAddress = route.gateway then
          ⟨rip.learn config place route.event route, true, handling.changed⟩
        else if rip.simulation.getDelayLeft route.event < config.timeoutDelay / 2 then
          ⟨allocated.learn config place route.event (offer.accept (offer.newRoute object)), true,
            true⟩
        else { handling with found := true }
      else if offer.senderAddress = route.gateway then
        let cancelled := { rip with simulation := rip.simulation.cancel route.event }
        if offer.rteMetric < linkDown then
          ⟨cancelled.learn config place route.event (offer.accept route), true, true⟩
        else ⟨cancelled.invalidateRoute config route.object, true, true⟩
      else { handling with found := true }

/-- A route to a network that the table does not have is put in front. -/
def addLearnedRoute (offer : Offer) : Rip :=
  let object := rip.simulation.nextObject
  let route := (((offer.newRoute object).setRouteMetric offer.rteMetric).setRouteStatus
    .valid).setRouteChanged true
  let event := rip.simulation.nextEvent config.timeoutDelay .invalidateRoute object
  { rip with
    routes := { route with event := some event, learned := true } :: rip.routes
    simulation := rip.simulation.allocate.schedule config.timeoutDelay .invalidateRoute object }

/-- The metric of a route through an interface. -/
def offeredMetric (metric incomingInterface : Nat) : Nat :=
  min (metric + (config.interfaceMetrics incomingInterface).getD 1) linkDown

/-- What an RTE offers. -/
def offerOf (senderAddress : UInt32) (incomingInterface : Nat) (rte : RipRte) : Offer where
  rteAddr := rte.address &&& rte.subnetMask
  rtePrefixMask := rte.subnetMask
  rteMetric := offeredMetric config rte.metric incomingInterface
  tag := rte.tag
  senderAddress := senderAddress
  incomingInterface := incomingInterface

/-- The whole table is compared with an offer. The flag says that something has changed. -/
def handleRte (offer : Offer) (state : Rip × Bool) : Rip × Bool :=
  let handling := (List.range state.1.routes.length).foldl (handleRoute config offer)
    { rip := state.1, changed := state.2 }
  if handling.found = false ∧ offer.rteMetric ≠ linkDown then
    (handling.rip.addLearnedRoute config offer, true)
  else (handling.rip, handling.changed)

/-- The RTE makes the whole response invalid. -/
def isMalformed (rte : RipRte) : Bool :=
  rte.metric = 0 || linkDown < rte.metric || isWrongPrefix rte.address

/-- `HandleResponses`. -/
def handleResponses (rtes : List RipRte) (senderAddress : UInt32) (incomingInterface : Nat) : Rip :=
  if incomingInterface ∈ config.interfaceExclusions then rip
  else if rtes.any isMalformed then rip
  else
    let (rip, changed) := rtes.foldl
      (fun state rte => handleRte config (offerOf config senderAddress incomingInterface rte) state)
      (rip, false)
    if changed then rip.sendTriggeredRouteUpdate else rip

/-- `InvalidateRoute` for the routes of the table that are selected. -/
def invalidateRoutes (selected : RipRoutingTableEntry → Bool) : Rip :=
  (List.range rip.routes.length).foldl (fun rip place =>
    match rip.routes[place]? with
    | none => rip
    | some route => if selected route then rip.invalidateRoute config route.object else rip) rip

/-- `NotifyInterfaceUp`: the interface is the loopback one, or has these addresses. -/
def notifyInterfaceUp (i : Nat) (loopback : Bool) (addresses : List Ipv4InterfaceAddress) : Rip :=
  if loopback then rip
  else
    let rip := addresses.foldl (fun rip address =>
      if address.scope = .global then
        rip.addNetworkRouteTo (address.localAddress &&& address.mask) address.mask 0 i
      else rip) rip
    if rip.initialized ∧ ∃ address ∈ addresses, address.scope = .global then
      rip.sendTriggeredRouteUpdate
    else rip

/-- `NotifyInterfaceDown`. -/
def notifyInterfaceDown (interface : Nat) : Rip :=
  let rip := rip.invalidateRoutes config fun route => route.interface = interface
  if interface ∈ config.interfaceExclusions then rip else rip.sendTriggeredRouteUpdate

/-- `NotifyAddAddress`. -/
def notifyAddAddress (isUp : Bool) (interface : Nat) (address : Ipv4InterfaceAddress) : Rip :=
  if isUp = false ∨ interface ∈ config.interfaceExclusions then rip
  else if address.scope = .global then
    (rip.addNetworkRouteTo (address.localAddress &&& address.mask) address.mask 0
      interface).sendTriggeredRouteUpdate
  else rip.sendTriggeredRouteUpdate

/-- `NotifyRemoveAddress`. -/
def notifyRemoveAddress (isUp : Bool) (interface : Nat) (address : Ipv4InterfaceAddress) : Rip :=
  if isUp = false ∨ address.scope ≠ .global then rip
  else
    let rip := rip.invalidateRoutes config fun route =>
      route.interface = interface && !route.isHost &&
        route.dest = address.localAddress &&& address.mask && route.destNetworkMask = address.mask
    if interface ∈ config.interfaceExclusions then rip else rip.sendTriggeredRouteUpdate

/-- An event of the simulator takes place. -/
def invoke (event : EventId) : Rip :=
  let rip := { rip with simulation := rip.simulation.cancel (some event) }
  match event.handler with
  | .invalidateRoute => rip.invalidateRoute config event.route
  | .deleteRoute => rip.deleteRoute event.route

end Rip

end Ns3.Internet.RipRouting
