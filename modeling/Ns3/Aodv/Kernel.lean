import Ns3.Aodv.RoutingTable
import Ns3.Library.Machine

/-!
The handlers `RecvRequest` and `RecvReply` of `ns3::aodv::RoutingProtocol`, as far as the routing
table and what decides about it go. What a handler sends is left out.
-/

namespace Ns3.Aodv

/-- The difference `int32_t (a) - int32_t (b)` is positive. -/
def newer (a b : BitVec 32) : Bool := (0#32).slt (a - b)

/-- The difference `int32_t (a) - int32_t (b)` is not negative. -/
def notOlder (a b : BitVec 32) : Bool := (0#32).sle (a - b)

structure RreqHeader where
  gratuitousRrep : Bool
  destinationOnly : Bool
  unknownSeqno : Bool
  hopCount : BitVec 8
  id : BitVec 32
  dst : Address
  dstSeqno : BitVec 32
  origin : Address
  originSeqno : BitVec 32
deriving DecidableEq

structure RrepHeader where
  ackRequired : Bool
  hopCount : BitVec 8
  dst : Address
  dstSeqno : BitVec 32
  origin : Address
  /-- In milliseconds. -/
  lifeTime : BitVec 32
deriving DecidableEq

/-- The life time in nanoseconds. -/
def RrepHeader.getLifeTime (rrepHeader : RrepHeader) : Nat := 1000000 * rrepHeader.lifeTime.toNat

/-- The attributes of the protocol and the addresses of its sockets. -/
structure Config where
  socketAddresses : List Address
  activeRouteTimeout : Nat
  netTraversalTime : Nat
  nodeTraversalTime : Nat
  /-- How long the id of a request is remembered. -/
  pathDiscoveryTime : Nat
  allowedHelloLoss : Nat
  helloInterval : Nat
  enableHello : Bool

def Config.isMyOwnAddress (config : Config) (src : Address) : Bool :=
  config.socketAddresses.contains src

/-- An id of `aodv::IdCache`. -/
structure UniqueId where
  context : Address
  id : BitVec 32
  expire : Nat
deriving DecidableEq

/-- A neighbour of `aodv::Neighbors`. -/
structure Neighbor where
  neighborAddress : Address
  expireTime : Nat
  close : Bool
deriving DecidableEq

structure RoutingProtocol where
  routingTable : RoutingTable
  rreqIdCache : List UniqueId
  nb : List Neighbor

namespace IdCache

def purge (now : Nat) (idCache : List UniqueId) : List UniqueId :=
  idCache.filter fun uniqueId => ¬ uniqueId.expire < now

def isDuplicate (now lifetime : Nat) (addr : Address) (id : BitVec 32)
    (idCache : List UniqueId) : Bool × List UniqueId :=
  if (purge now idCache).any fun uniqueId => uniqueId.context = addr ∧ uniqueId.id = id then
    (true, purge now idCache)
  else
    (false, purge now idCache ++ [{ context := addr, id := id, expire := lifetime + now }])

end IdCache

/-- What the break of a link does to the routing table. -/
def sendRerrWhenBreaksLinkToNextHop (now : Nat) (nextHop : Address) (table : RoutingTable) :
    RoutingTable :=
  match table.lookupRoute now nextHop with
  | (none, table) => table
  | (some _, table) =>
      let unreachable := table.getListOfDestinationWithNextHop now nextHop
      table.invalidateRoutesWithDst now fun dst => unreachable dst || dst == nextHop

namespace Neighbors

/-- `CloseNeighbor`. -/
def closeNeighbor (now : Nat) (nb : Neighbor) : Bool := decide (nb.expireTime < now) || nb.close

/-- Close the links that have expired. -/
def purge (now : Nat) (table : RoutingTable) (nb : List Neighbor) :
    RoutingTable × List Neighbor :=
  ((nb.filter (closeNeighbor now)).foldl
    (fun table neighbor => sendRerrWhenBreaksLinkToNextHop now neighbor.neighborAddress table)
    table,
  nb.filter fun neighbor => !closeNeighbor now neighbor)

/-- Extend the first neighbour with the address. -/
def extend (now : Nat) (addr : Address) (expire : Nat) : List Neighbor → List Neighbor
  | [] => []
  | neighbor :: nb =>
      if neighbor.neighborAddress = addr then
        { neighbor with expireTime := max (expire + now) neighbor.expireTime } :: nb
      else neighbor :: extend now addr expire nb

def update (now : Nat) (addr : Address) (expire : Nat) (table : RoutingTable)
    (nb : List Neighbor) : RoutingTable × List Neighbor :=
  if nb.any fun neighbor => neighbor.neighborAddress = addr then
    (table, extend now addr expire nb)
  else
    purge now table
      (nb ++ [{ neighborAddress := addr, expireTime := expire + now, close := false }])

end Neighbors

namespace RoutingProtocol

variable (config : Config) (now : Nat)

/-- `MinimalLifetime` of a reverse route. -/
def minimalLifetime (hop : BitVec 8) : Int :=
  2 * (config.netTraversalTime : Int) - 2 * hop.toNat * config.nodeTraversalTime

/-- Create or update the reverse route. The entry is what the variable `toOrigin` has then. -/
def updateReverseRoute (rreqHeader : RreqHeader) (hop : BitVec 8) (src : Address)
    (table : RoutingTable) : RoutingTableEntry × RoutingTable :=
  match table.lookupRoute now rreqHeader.origin with
  | (none, table) =>
      (.default now, table.addRoute now (.make now rreqHeader.origin true rreqHeader.originSeqno
        (hop.setWidth 16) src (minimalLifetime config hop)))
  | (some toOrigin, table) =>
      let seqNo :=
        if toOrigin.validSeqNo && !newer rreqHeader.originSeqno toOrigin.seqNo then toOrigin.seqNo
        else rreqHeader.originSeqno
      let toOrigin := { toOrigin with
        seqNo := seqNo
        validSeqNo := true
        nextHop := src
        hops := hop.setWidth 16
        lifeTime := max (minimalLifetime config hop) (toOrigin.getLifeTime now) + now }
      (toOrigin, table.update toOrigin)

/-- Create or update the route to the previous hop of a request. -/
def updatePreviousHop (rreqHeader : RreqHeader) (src : Address) (table : RoutingTable) :
    RoutingTable :=
  match table.lookupRoute now src with
  | (none, table) =>
      table.addRoute now (.make now src false rreqHeader.originSeqno 1 src
        config.activeRouteTimeout)
  | (some toNeighbor, table) =>
      table.update { toNeighbor with
        lifeTime := config.activeRouteTimeout + now
        validSeqNo := false
        seqNo := rreqHeader.originSeqno
        flag := .valid
        hops := 1
        nextHop := src }

/-- What an intermediate node does to its table when it replies. -/
def sendReplyByIntermediateNode (toDst toOrigin : RoutingTableEntry) (table : RoutingTable) :
    RoutingTable :=
  let table := if toDst.hops = 1 then (table.lookupRoute now toOrigin.nextHop).2 else table
  (table.update (toDst.insertPrecursor toOrigin.nextHop)).update
    (toOrigin.insertPrecursor toDst.nextHop)

/-- The answer to a request, or its forwarding. -/
def answerRequest (rreqHeader : RreqHeader) (src : Address) (toOrigin : RoutingTableEntry)
    (table : RoutingTable) : RoutingTable :=
  if config.isMyOwnAddress rreqHeader.dst then (table.lookupRoute now rreqHeader.origin).2
  else
    match table.lookupRoute now rreqHeader.dst with
    | (none, table) => table
    | (some toDst, table) =>
        if toDst.nextHop = src then table
        else if (rreqHeader.unknownSeqno || notOlder toDst.seqNo rreqHeader.dstSeqno) &&
            toDst.validSeqNo && (!rreqHeader.destinationOnly && toDst.flag = .valid) then
          match table.lookupRoute now rreqHeader.origin with
          | (none, table) => sendReplyByIntermediateNode now toDst toOrigin table
          | (some toOrigin, table) => sendReplyByIntermediateNode now toDst toOrigin table
        else table

/-- `RecvRequest`. -/
def recvRequest (rreqHeader : RreqHeader) (src : Address) (node : RoutingProtocol) :
    RoutingProtocol :=
  let (toPrev, table) := node.routingTable.lookupRoute now src
  if toPrev.any (·.blackListState) then { node with routingTable := table }
  else
    let (duplicate, rreqIdCache) :=
      IdCache.isDuplicate now config.pathDiscoveryTime rreqHeader.origin rreqHeader.id
        node.rreqIdCache
    if duplicate then { node with routingTable := table, rreqIdCache := rreqIdCache }
    else
      let hop := rreqHeader.hopCount + 1
      let (toOrigin, table) := updateReverseRoute config now rreqHeader hop src table
      let table := updatePreviousHop config now rreqHeader src table
      let (table, nb) :=
        Neighbors.update now src (config.allowedHelloLoss * config.helloInterval) table node.nb
      { routingTable := answerRequest config now rreqHeader src toOrigin table
        rreqIdCache := rreqIdCache
        nb := nb }

/-- Create or update the route to the neighbour that a hello comes from. -/
def updateHelloRoute (rrepHeader : RrepHeader) (table : RoutingTable) : RoutingTable :=
  match table.lookupRoute now rrepHeader.dst with
  | (none, table) =>
      table.addRoute now (.make now rrepHeader.dst true rrepHeader.dstSeqno 1 rrepHeader.dst
        rrepHeader.getLifeTime)
  | (some toNeighbor, table) =>
      table.update { toNeighbor with
        lifeTime := max (config.allowedHelloLoss * config.helloInterval : Int)
          (toNeighbor.getLifeTime now) + now
        seqNo := rrepHeader.dstSeqno
        validSeqNo := true
        flag := .valid
        hops := 1
        nextHop := rrepHeader.dst }

/-- `ProcessHello`. -/
def processHello (rrepHeader : RrepHeader) (node : RoutingProtocol) : RoutingProtocol :=
  let table := updateHelloRoute config now rrepHeader node.routingTable
  if config.enableHello then
    let (table, nb) :=
      Neighbors.update now rrepHeader.dst (config.allowedHelloLoss * config.helloInterval) table
        node.nb
    { node with routingTable := table, nb := nb }
  else { node with routingTable := table }

/-- The circumstances (i) to (iv) in which the existing entry is updated. -/
def replaces (rrepHeader : RrepHeader) (hop : BitVec 8) (toDst : RoutingTableEntry) : Bool :=
  if !toDst.validSeqNo then true
  else if newer rrepHeader.dstSeqno toDst.seqNo then true
  else if rrepHeader.dstSeqno = toDst.seqNo ∧ toDst.flag ≠ .valid then true
  else rrepHeader.dstSeqno = toDst.seqNo ∧ hop.setWidth 16 < toDst.hops

/-- Create or update the route to the destination of a reply. The entry is what the variable
`toDst` has then. -/
def updateForwardRoute (rrepHeader : RrepHeader) (hop : BitVec 8) (newEntry : RoutingTableEntry)
    (table : RoutingTable) : RoutingTableEntry × RoutingTable :=
  match table.lookupRoute now rrepHeader.dst with
  | (none, table) => (.default now, table.addRoute now newEntry)
  | (some toDst, table) =>
      (toDst, if replaces rrepHeader hop toDst then table.update newEntry else table)

/-- Insert a precursor into the entry of a next hop. A next hop without an entry leaves the
variable as it was declared. -/
def insertNextHopPrecursor (nextHop precursor : Address) (table : RoutingTable) : RoutingTable :=
  match table.lookupRoute now nextHop with
  | (none, table) => table.update ((RoutingTableEntry.default now).insertPrecursor precursor)
  | (some toNextHop, table) => table.update (toNextHop.insertPrecursor precursor)

/-- Update information about precursors. -/
def updatePrecursors (rrepHeader : RrepHeader) (toOrigin : RoutingTableEntry)
    (table : RoutingTable) : RoutingTable :=
  match table.lookupRoute now rrepHeader.dst with
  | (none, table) => table
  | (some toDst, table) =>
      if toDst.flag = .valid then
        let table := table.update (toDst.insertPrecursor toOrigin.nextHop)
        let table := insertNextHopPrecursor now toDst.nextHop toOrigin.nextHop table
        let table := table.update (toOrigin.insertPrecursor toDst.nextHop)
        insertNextHopPrecursor now toOrigin.nextHop toDst.nextHop table
      else table

/-- What follows the update of the route: the end of a search, or the way to the origin. -/
def deliverReply (rrepHeader : RrepHeader) (newEntry toDst : RoutingTableEntry)
    (table : RoutingTable) : RoutingTable :=
  if config.isMyOwnAddress rrepHeader.origin then
    let table := if toDst.flag = .inSearch then table.update newEntry else table
    (table.lookupRoute now rrepHeader.dst).2
  else
    match table.lookupRoute now rrepHeader.origin with
    | (none, table) => table
    | (some toOrigin, table) =>
        if toOrigin.flag = .inSearch then table
        else
          let toOrigin := toOrigin.setLifeTime now
            (max config.activeRouteTimeout (toOrigin.getLifeTime now))
          updatePrecursors now rrepHeader toOrigin (table.update toOrigin)

/-- `RecvReply`. -/
def recvReply (rrepHeader : RrepHeader) (sender : Address) (node : RoutingProtocol) :
    RoutingProtocol :=
  let hop := rrepHeader.hopCount + 1
  if rrepHeader.dst = rrepHeader.origin then processHello config now rrepHeader node
  else
    let newEntry : RoutingTableEntry :=
      .make now rrepHeader.dst true rrepHeader.dstSeqno (hop.setWidth 16) sender
        rrepHeader.getLifeTime
    let (toDst, table) := updateForwardRoute now rrepHeader hop newEntry node.routingTable
    let table := if rrepHeader.ackRequired then (table.lookupRoute now sender).2 else table
    { node with routingTable := deliverReply config now rrepHeader newEntry toDst table }

end RoutingProtocol

/-- A message and the node that it was received from. -/
inductive Message
  | request (rreqHeader : RreqHeader) (src : Address)
  | reply (rrepHeader : RrepHeader) (sender : Address)

/-- The call of a handler at a time. -/
structure Call where
  now : Nat
  message : Message

/-- One node and the messages that it receives. -/
def receive (config : Config) : Library.Machine RoutingProtocol Call where
  step node call :=
    match call.message with
    | .request rreqHeader src =>
        RoutingProtocol.recvRequest config call.now rreqHeader src node
    | .reply rrepHeader sender =>
        RoutingProtocol.recvReply config call.now rrepHeader sender node
  Enabled _ _ := True

end Ns3.Aodv
