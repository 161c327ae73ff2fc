import Ns3.Library.ShortestPath
import Mathlib.Data.List.Sort
import Mathlib.Data.BitVec

/-!
The shortest path calculation of `ns3::GlobalRouteManagerImpl`.

A vertex is an object of its own in the source; here it is named by its id, which is the link
state id of its advertisement. `SPFNext` works on the vertex that entered the tree last and on
the queue of candidates, and an advertisement knows whether it is in either. An assertion that
fails, a null pointer and a loop without end are failures of the model.
-/

namespace Ns3.Internet

/-- An `Ipv4Address` or `Ipv4Mask`. -/
abbrev Ipv4Address := BitVec 32

namespace GlobalRouting

/-- `GlobalRoutingLinkRecord::LinkType`. -/
inductive LinkType where
  | unknown
  | pointToPoint
  | transitNetwork
  | stubNetwork
  | virtualLink
  deriving DecidableEq, Repr

/-- A `GlobalRoutingLinkRecord`. -/
structure LinkRecord where
  linkType : LinkType
  linkId : Ipv4Address
  linkData : Ipv4Address
  metric : BitVec 16
  deriving DecidableEq, Repr

/-- `GlobalRoutingLSA::LSType`, of the advertisements that are vertices. -/
inductive LSType where
  | routerLSA
  | networkLSA
  deriving DecidableEq, Repr

/-- A `GlobalRoutingLSA`. -/
structure LSA where
  lsType : LSType
  linkStateId : Ipv4Address
  linkRecords : List LinkRecord := []
  networkLSANetworkMask : Ipv4Address := 0
  attachedRouters : List Ipv4Address := []
  deriving DecidableEq, Repr

/-- A `GlobalRouteManagerLSDB`: a map from link state ids, in their order. -/
structure LSDB where
  database : List LSA
  ascending : database.Pairwise (·.linkStateId < ·.linkStateId)

namespace LSDB

/-- `GetLSA`. -/
def getLSA (lsdb : LSDB) (addr : Ipv4Address) : Option LSA :=
  lsdb.database.find? (·.linkStateId == addr)

/-- `GetLSAByLinkData`. -/
def getLSAByLinkData (lsdb : LSDB) (addr : Ipv4Address) : Option LSA :=
  lsdb.database.find? fun lsa =>
    lsa.linkRecords.any fun lr => lr.linkType == .transitNetwork && lr.linkData == addr

end LSDB

/-- `GlobalRoutingLSA::SPFStatus`. -/
inductive SPFStatus where
  | notExplored
  | candidate
  | inSPFTree
  deriving DecidableEq, Repr

/-- `SPFVertex::NodeExit_t`: a next hop and an outgoing interface. -/
abbrev NodeExit := Ipv4Address × Int

/-- The order of pairs. -/
def NodeExit.le (first second : NodeExit) : Bool :=
  first.1 < second.1 || (first.1 == second.1 && first.2 ≤ second.2)

/-- `std::list::unique`. -/
def unique {Element : Type} [DecidableEq Element] : List Element → List Element
  | [] => []
  | [only] => [only]
  | first :: second :: rest =>
      if first = second then unique (second :: rest) else first :: unique (second :: rest)

/-- Why a calculation does not return; the assertion of `GetRootExitDirection ()` is told apart
from the others. `fuel` is that of the model, which is enough. -/
inductive Failure where
  | assertion
  | rootExit
  | nullPointer
  | endlessLoop
  | fuel
  deriving DecidableEq, Repr

/-- An `SPFVertex`. Parents are named by their ids. -/
structure SPFVertex where
  lsa : LSA
  distanceFromRoot : BitVec 32 := BitVec.allOnes 32
  parents : List Ipv4Address := []
  ecmpRootExits : List NodeExit := []
  deriving DecidableEq, Repr

namespace SPFVertex

/-- `m_vertexId`. -/
def vertexId (vertex : SPFVertex) : Ipv4Address := vertex.lsa.linkStateId

/-- `m_vertexType`. -/
def vertexType (vertex : SPFVertex) : LSType := vertex.lsa.lsType

/-- `SetRootExitDirection`. -/
def setRootExitDirection (vertex : SPFVertex) (exit : NodeExit) : SPFVertex :=
  { vertex with ecmpRootExits := [exit] }

/-- `GetRootExitDirection ()`, with its assertion and that of the indexed one it calls. -/
def getRootExitDirection (vertex : SPFVertex) : Except Failure NodeExit :=
  match vertex.ecmpRootExits with
  | [exit] => .ok exit
  | _ => .error .rootExit

/-- `InheritAllRootExitDirections`. -/
def inheritAllRootExitDirections (vertex other : SPFVertex) : SPFVertex :=
  { vertex with ecmpRootExits := other.ecmpRootExits }

/-- `MergeRootExitDirections`. -/
def mergeRootExitDirections (vertex other : SPFVertex) : SPFVertex :=
  { vertex with
    ecmpRootExits := unique ((vertex.ecmpRootExits ++ other.ecmpRootExits).insertionSort
      (NodeExit.le · ·)) }

/-- `MergeParent`: the parents are sorted by where they are in memory. -/
def mergeParent (pointer : Ipv4Address → Nat) (vertex other : SPFVertex) : SPFVertex :=
  { vertex with
    parents := unique ((vertex.parents ++ other.parents).insertionSort
      (pointer · ≤ pointer ·)) }

/-- `SetDistanceFromRoot` and `SetParent`. -/
def reach (vertex parent : SPFVertex) (distance : BitVec 32) : SPFVertex :=
  { vertex with distanceFromRoot := distance, parents := [parent.vertexId] }

end SPFVertex

/-- `CandidateQueue`. -/
abbrev CandidateQueue := List SPFVertex

namespace CandidateQueue

/-- `CompareSPFVertex`. -/
def compareSPFVertex (v1 v2 : SPFVertex) : Bool :=
  v1.distanceFromRoot < v2.distanceFromRoot ||
    (v1.distanceFromRoot == v2.distanceFromRoot &&
      v1.vertexType == .networkLSA && v2.vertexType == .routerLSA)

/-- `Push`; the queue is in order, so the upper bound is where the first vertex is that comes
after the new one. -/
def push (queue : CandidateQueue) (vNew : SPFVertex) : CandidateQueue :=
  queue.takeWhile (!compareSPFVertex vNew ·) ++ vNew ::
    queue.dropWhile (!compareSPFVertex vNew ·)

/-- `Find`. -/
def find (queue : CandidateQueue) (addr : Ipv4Address) : Option SPFVertex :=
  List.find? (·.vertexId == addr) queue

/-- The vertex that `Find` returns is changed in its place. -/
def replace (queue : CandidateQueue) (addr : Ipv4Address) (changed : SPFVertex) : CandidateQueue :=
  queue.map fun vertex => if vertex.vertexId = addr then changed else vertex

/-- `Reorder`; the sort is stable. -/
def reorder (queue : CandidateQueue) : CandidateQueue :=
  List.insertionSort (fun v1 v2 => compareSPFVertex v2 v1 = false) queue

end CandidateQueue

/-- The links of a vertex that come next in `SPFGetNextLink`. -/
def nextLink (vertexId : Ipv4Address) : List LinkRecord → Bool → Bool → Option LinkRecord
  | [], _, _ => none
  | l :: rest, skip, foundPrevLink =>
      if l.linkId = vertexId then
        if foundPrevLink = false then nextLink vertexId rest skip true
        else if skip = false then some l
        else nextLink vertexId rest false foundPrevLink
      else nextLink vertexId rest skip foundPrevLink

/-- `SPFGetNextLink`; of the previous link it matters only whether there is one. -/
def spfGetNextLink (v w : SPFVertex) (prevLink : Option LinkRecord) : Option LinkRecord :=
  nextLink w.vertexId v.lsa.linkRecords prevLink.isSome prevLink.isNone

/-- The statuses of the advertisements and the candidates. -/
structure SPFState where
  status : Ipv4Address → SPFStatus
  candidate : CandidateQueue

/-- What a calculation reads: the database, for each router id the addresses of the interfaces
of its node, whether there are nodes at all, and where vertices are in memory. -/
structure Manager where
  lsdb : LSDB
  interfaces : Ipv4Address → Option (List (List Ipv4Address))
  hasNodes : Bool
  pointer : Ipv4Address → Nat

namespace Manager

variable (manager : Manager) (root : Ipv4Address)

/-- `Ipv4L3Protocol::GetInterfaceForPrefix`. -/
def getInterfaceForPrefix (address mask : Ipv4Address) : List (List Ipv4Address) → Int → Int
  | [], _ => -1
  | addresses :: rest, interface =>
      if addresses.any fun local' => local' &&& mask == address &&& mask then interface
      else getInterfaceForPrefix address mask rest (interface + 1)

/-- `FindOutgoingInterfaceId`. -/
def findOutgoingInterfaceId (a amask : Ipv4Address) : Int :=
  match manager.interfaces root with
  | none => -1
  | some interfaces => getInterfaceForPrefix a amask interfaces 0

/-- The loop over the links from `w` back to the network `v` next to the root. The third call
of `SPFGetNextLink` would return what the second one has returned, and so on. -/
def spfNexthopsThrough (v w : SPFVertex) : Except Failure SPFVertex :=
  match spfGetNextLink w v none with
  | none => .ok w
  | some linkRemote => do
      let exit ← v.getRootExitDirection
      match spfGetNextLink w v (some linkRemote) with
      | none => .ok (w.setRootExitDirection (linkRemote.linkData, exit.2))
      | some _ => .error .endlessLoop

/-- `SPFNexthopCalculation`, which changes `w`. -/
def spfNexthopCalculation (v w : SPFVertex) (l : Option LinkRecord) (distance : BitVec 32) :
    Except Failure SPFVertex :=
  if v.vertexId = root then
    match w.vertexType with
    | .routerLSA =>
        match l, spfGetNextLink w v none with
        | none, _ => .error .assertion
        | some _, none => .error .nullPointer
        | some l, some linkRemote =>
            .ok ((w.setRootExitDirection (linkRemote.linkData,
              manager.findOutgoingInterfaceId root l.linkData (BitVec.allOnes 32))).reach v
                distance)
    | .networkLSA =>
        .ok ((w.setRootExitDirection (0, manager.findOutgoingInterfaceId root w.lsa.linkStateId
          w.lsa.networkLSANetworkMask)).reach v distance)
  else
    match v.vertexType with
    | .networkLSA =>
        if v.parents.head? = some root then
          match w.vertexType with
          | .networkLSA => .error .assertion
          | .routerLSA => do
              let w ← spfNexthopsThrough v w
              .ok (w.reach v distance)
        else do
          let exit ← v.getRootExitDirection
          .ok ((w.setRootExitDirection exit).reach v distance)
    | .routerLSA => .ok ((w.inheritAllRootExitDirections v).reach v distance)

/-- The part of `SPFNext` after it has found `w`. -/
def consider (v : SPFVertex) (wLsa : LSA) (l : Option LinkRecord) (distance : BitVec 32)
    (state : SPFState) : Except Failure SPFState :=
  match state.status wLsa.linkStateId with
  | .inSPFTree => .ok state
  | .notExplored => do
      let w ← manager.spfNexthopCalculation root v { lsa := wLsa } l distance
      .ok ⟨Function.update state.status wLsa.linkStateId .candidate, state.candidate.push w⟩
  | .candidate =>
      match state.candidate.find wLsa.linkStateId with
      | none => .error .nullPointer
      | some cw =>
          if cw.distanceFromRoot < distance then .ok state
          else if cw.distanceFromRoot = distance then do
            let w ← manager.spfNexthopCalculation root v { lsa := wLsa } l distance
            .ok { state with
              candidate := state.candidate.replace wLsa.linkStateId
                ((cw.mergeRootExitDirections w).mergeParent manager.pointer w) }
          else do
            let w ← manager.spfNexthopCalculation root v cw l distance
            .ok { state with
              candidate := (state.candidate.replace wLsa.linkStateId w).reorder }

/-- The loop of `SPFNext` over the links of a router. -/
def spfNextLinks (v : SPFVertex) : List LinkRecord → SPFState → Except Failure SPFState
  | [], state => .ok state
  | l :: rest, state =>
      match l.linkType with
      | .stubNetwork => spfNextLinks v rest state
      | .unknown => .error .assertion
      | .virtualLink => .error .assertion
      | _ =>
          match manager.lsdb.getLSA l.linkId with
          | none => .error .assertion
          | some wLsa => do
              let state ← manager.consider root v wLsa (some l)
                (v.distanceFromRoot + l.metric.setWidth 32) state
              spfNextLinks v rest state

/-- The loop of `SPFNext` over the attached routers of a network. -/
def spfNextRouters (v : SPFVertex) : List Ipv4Address → SPFState → Except Failure SPFState
  | [], state => .ok state
  | attached :: rest, state =>
      match manager.lsdb.getLSAByLinkData attached with
      | none => spfNextRouters v rest state
      | some wLsa => do
          let state ← manager.consider root v wLsa none v.distanceFromRoot state
          spfNextRouters v rest state

/-- `SPFNext`. -/
def spfNext (v : SPFVertex) (state : SPFState) : Except Failure SPFState :=
  match v.vertexType with
  | .routerLSA => manager.spfNextLinks root v v.lsa.linkRecords state
  | .networkLSA => manager.spfNextRouters root v v.lsa.attachedRouters state

/-- The loop of `SPFCalculate`: the vertices that are popped, as they are then. -/
def spfLoop : Nat → SPFVertex → SPFState → Except Failure (List SPFVertex)
  | 0, _, _ => .error .fuel
  | fuel + 1, v, state => do
      let state ← manager.spfNext root v state
      match state.candidate with
      | [] => .ok []
      | w :: rest => do
          let later ← spfLoop fuel w ⟨Function.update state.status w.vertexId .inSPFTree, rest⟩
          .ok (w :: later)

/-- `CheckForStubNode`, without the default route it installs. -/
def checkForStubNode : Except Failure Bool :=
  match manager.lsdb.getLSA root with
  | none => .error .nullPointer
  | some rlsa =>
      match rlsa.linkRecords.filter fun l =>
          l.linkType == .transitNetwork || l.linkType == .pointToPoint with
      | [] => .ok true
      | [transitLink] =>
          if transitLink.linkType = .transitNetwork then .ok false
          else
            match manager.lsdb.getLSA transitLink.linkId with
            | none => .error .nullPointer
            | some wLsa => .ok (wLsa.linkRecords.any fun lr =>
                lr.linkType == .pointToPoint && lr.linkId == rlsa.linkStateId)
      | _ => .ok false

/-- The calculation is truncated for a stub node. -/
def isTruncated : Except Failure Bool :=
  if manager.hasNodes then manager.checkForStubNode root else .ok false

/-- `SPFCalculate` up to the end of its first stage; nothing is popped for a stub node. -/
def spfCalculate : Except Failure (Option (List SPFVertex)) :=
  match manager.lsdb.getLSA root with
  | none => .error .nullPointer
  | some lsa => do
      let truncated ← manager.isTruncated root
      if truncated then .ok none
      else do
        let popped ← manager.spfLoop root (manager.lsdb.database.length + 1)
          { lsa, distanceFromRoot := 0 }
          ⟨Function.update (fun _ => .notExplored) root .inSPFTree, []⟩
        .ok (some popped)

end Manager

end GlobalRouting

end Ns3.Internet
