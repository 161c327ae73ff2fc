import Mathlib.Algebra.Order.Ring.Int
import Mathlib.Data.List.Basic

/-!
`ns3::Ipv4EndPointDemux`: the endpoints of the sockets of a transport protocol.

An endpoint is an object of its own, which its socket refers to, and has a number here. An address
of zero is `Ipv4Address::GetAny ()`, which stands for any address.
-/

namespace Ns3.Internet.EndPointDemux

/-- `ns3::Ipv4EndPoint`. -/
structure Ipv4EndPoint where
  object : Nat
  localAddr : UInt32
  localPort : UInt16
  peerAddr : UInt32 := 0
  peerPort : UInt16 := 0
  boundNetDevice : Option Nat := none
  rxEnabled : Bool := true
  deriving DecidableEq, Repr

/-- An address of an interface. -/
structure Ipv4InterfaceAddress where
  localAddress : UInt32
  mask : UInt32
  deriving DecidableEq, Repr

/-- The network of an interface address. -/
def Ipv4InterfaceAddress.netpart (address : Ipv4InterfaceAddress) : UInt32 :=
  address.localAddress &&& address.mask

/-- `ns3::Ipv4Interface`. -/
structure Ipv4Interface where
  device : Nat
  addresses : List Ipv4InterfaceAddress
  deriving DecidableEq, Repr

/-- A packet that comes in. -/
structure Arrival where
  daddr : UInt32
  dport : UInt16
  saddr : UInt32
  sport : UInt16
  incomingInterface : Ipv4Interface
  deriving DecidableEq, Repr

namespace Ipv4EndPoint

variable (endPoint : Ipv4EndPoint)

/-- The endpoint is not bound to another device than that of the interface. -/
def listensOn (interface : Ipv4Interface) : Bool :=
  match endPoint.boundNetDevice with
  | none => true
  | some device => device = interface.device

/-- The endpoint is bound to any address, or to a network of the interface to which the destination
belongs, and not to the destination itself. -/
def localAddressMatchesWildCard (interface : Ipv4Interface) (daddr : UInt32) : Bool :=
  endPoint.localAddr ≠ daddr &&
    (endPoint.localAddr = 0 ||
      interface.addresses.any fun address =>
        endPoint.localAddr = address.netpart && address.netpart = daddr &&& address.mask)

/-- The endpoint is not skipped by the loop of `Lookup` for its port, its device, its local address
or its peer. -/
def isCandidate (arrival : Arrival) : Bool :=
  endPoint.rxEnabled && endPoint.localPort = arrival.dport &&
    endPoint.listensOn arrival.incomingInterface &&
    (endPoint.localAddr = arrival.daddr ||
      endPoint.localAddressMatchesWildCard arrival.incomingInterface arrival.daddr) &&
    (endPoint.peerPort = arrival.sport || endPoint.peerPort = 0) &&
    (endPoint.peerAddr = arrival.saddr || endPoint.peerAddr = 0)

/-- The local address of the packet is that of the endpoint. -/
def localExact (arrival : Arrival) : Bool := endPoint.localAddr = arrival.daddr

/-- The peer of the packet is that of the endpoint. -/
def remoteExact (arrival : Arrival) : Bool :=
  endPoint.peerAddr = arrival.saddr && endPoint.peerPort = arrival.sport

/-- The endpoint has no peer. -/
def remoteWildCard : Bool := endPoint.peerAddr = 0 && endPoint.peerPort = 0

/-- All four match. -/
def isCase4 (arrival : Arrival) : Bool :=
  endPoint.isCandidate arrival && endPoint.localExact arrival && endPoint.remoteExact arrival

/-- All but the local address match. -/
def isCase3 (arrival : Arrival) : Bool :=
  endPoint.isCandidate arrival && !endPoint.localExact arrival && endPoint.remoteExact arrival

/-- Only the local port and the local address match. -/
def isCase2 (arrival : Arrival) : Bool :=
  endPoint.isCandidate arrival && endPoint.localExact arrival && endPoint.remoteWildCard

/-- Only the local port matches. -/
def isCase1 (arrival : Arrival) : Bool :=
  endPoint.isCandidate arrival && !endPoint.localExact arrival && endPoint.remoteWildCard

end Ipv4EndPoint

/-- `ns3::Ipv4EndPointDemux`. -/
structure Ipv4EndPointDemux where
  endPoints : List Ipv4EndPoint := []
  ephemeral : UInt16 := 49152
  nextObject : Nat := 0
  deriving DecidableEq, Repr

namespace Ipv4EndPointDemux

variable (demux : Ipv4EndPointDemux)

/-- `m_portFirst`. -/
def portFirst : UInt16 := 49152

/-- `LookupPortLocal`. `m_portLast` is the largest port, so no port is beyond it. -/
def lookupPortLocal (port : UInt16) : Bool :=
  demux.endPoints.any fun endPoint => endPoint.localPort = port

/-- `LookupLocal`. -/
def lookupLocal (boundNetDevice : Option Nat) (addr : UInt32) (port : UInt16) : Bool :=
  demux.endPoints.any fun endPoint =>
    endPoint.localPort = port && endPoint.localAddr = addr &&
      endPoint.boundNetDevice = boundNetDevice

/-- The port behind a port. -/
def nextPort (port : UInt16) : UInt16 := if port + 1 < portFirst then portFirst else port + 1

/-- The loop of `AllocateEphemeralPort`, with the number of ports that may still be tried. -/
def allocateEphemeralPort : Nat → UInt16 → UInt16
  | 0, _ => 0
  | count + 1, port =>
      if demux.lookupPortLocal (nextPort port) then allocateEphemeralPort count (nextPort port)
      else nextPort port

/-- An endpoint is made and put at the end of the list. -/
def push (endPoint : Nat → Ipv4EndPoint) : Ipv4EndPointDemux × Option Nat :=
  ({ demux with
      endPoints := demux.endPoints ++ [endPoint demux.nextObject]
      nextObject := demux.nextObject + 1 },
    some demux.nextObject)

/-- `Allocate (address)`, and `Allocate ()` if the address is any. -/
def allocateAddress (address : UInt32) : Ipv4EndPointDemux × Option Nat :=
  let port := demux.allocateEphemeralPort 16384 demux.ephemeral
  if port = 0 then (demux, none)
  else { demux with ephemeral := port }.push fun object =>
    { object := object, localAddr := address, localPort := port }

/-- `Allocate (boundNetDevice, address, port)`, and `Allocate (boundNetDevice, port)` if the address
is any. -/
def allocateLocal (boundNetDevice : Option Nat) (address : UInt32) (port : UInt16) :
    Ipv4EndPointDemux × Option Nat :=
  if demux.lookupLocal boundNetDevice address port || demux.lookupLocal none address port then
    (demux, none)
  else demux.push fun object => { object := object, localAddr := address, localPort := port }

/-- The test for a duplicate of the whole connection. -/
def lookupConnection (boundNetDevice : Option Nat) (localAddress : UInt32) (localPort : UInt16)
    (peerAddress : UInt32) (peerPort : UInt16) : Bool :=
  demux.endPoints.any fun endPoint =>
    endPoint.localPort = localPort && endPoint.localAddr = localAddress &&
      endPoint.peerPort = peerPort && endPoint.peerAddr = peerAddress &&
      (endPoint.boundNetDevice = boundNetDevice || endPoint.boundNetDevice = none)

/-- `Allocate (boundNetDevice, localAddress, localPort, peerAddress, peerPort)`. -/
def allocateConnection (boundNetDevice : Option Nat) (localAddress : UInt32) (localPort : UInt16)
    (peerAddress : UInt32) (peerPort : UInt16) : Ipv4EndPointDemux × Option Nat :=
  if demux.lookupConnection boundNetDevice localAddress localPort peerAddress peerPort then
    (demux, none)
  else demux.push fun object =>
    { object := object, localAddr := localAddress, localPort := localPort, peerAddr := peerAddress,
      peerPort := peerPort }

/-- `DeAllocate`. -/
def deAllocate (object : Nat) : Ipv4EndPointDemux :=
  { demux with endPoints := demux.endPoints.eraseP fun endPoint => endPoint.object = object }

/-- `Ipv4EndPoint::BindToNetDevice`, which the socket calls for its endpoint. -/
def bindToNetDevice (object : Nat) (netdevice : Option Nat) : Ipv4EndPointDemux :=
  { demux with
    endPoints := demux.endPoints.map fun endPoint =>
      if endPoint.object = object then { endPoint with boundNetDevice := netdevice } else endPoint }

/-- `Lookup`: the endpoints with the most exact match, or none if there are too many of them. -/
def lookup (arrival : Arrival) : Option (List Ipv4EndPoint) :=
  let retval1 := demux.endPoints.filter fun endPoint => endPoint.isCase1 arrival
  let retval2 := demux.endPoints.filter fun endPoint => endPoint.isCase2 arrival
  let retval3 := demux.endPoints.filter fun endPoint => endPoint.isCase3 arrival
  let retval4 := demux.endPoints.filter fun endPoint => endPoint.isCase4 arrival
  let retval :=
    if retval4 ≠ [] then retval4
    else if retval3 ≠ [] then retval3
    else if retval2 ≠ [] then retval2
    else retval1
  if 1 < retval.length then none else some retval

end Ipv4EndPointDemux

end Ns3.Internet.EndPointDemux
