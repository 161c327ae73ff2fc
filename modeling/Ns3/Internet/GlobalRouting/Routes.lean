import Ns3.Internet.GlobalRouting.Candidates
import Ns3.Internet.Ipv4GlobalRouting

/-!
The routes that a calculation installs at its root.

Each vertex that is popped brings routes over all its exits: host routes to the addresses of a
router, and a route to a network. In the second stage come the stub networks of the routers and
the external destinations that they advertise.
-/

namespace Ns3.Internet.GlobalRouting

/-- A `GlobalRoutingLSA` of type `ASExternalLSAs`, which is kept in `m_extdatabase`. -/
structure ASExternalLSA where
  linkStateId : Ipv4Address
  networkLSANetworkMask : Ipv4Address
  advertisingRouter : Ipv4Address
  deriving DecidableEq, Repr

namespace Manager

variable (manager : Manager) (root : Ipv4Address) (extdatabase : List ASExternalLSA)

/-- The loop over the root exits of a vertex, for one destination. It is only run at the node that
has the id of the root. -/
def addRoutes (add : Ipv4Address → BitVec 32 → Ipv4GlobalRouting → Ipv4GlobalRouting)
    (v : SPFVertex) (routing : Ipv4GlobalRouting) : Ipv4GlobalRouting :=
  match manager.interfaces root with
  | none => routing
  | some _ =>
      v.ecmpRootExits.foldl (fun routing exit =>
        if 0 ≤ exit.2 then add exit.1 (BitVec.ofInt 32 exit.2) routing else routing) routing

/-- `SPFIntraAddRouter`. -/
def spfIntraAddRouter (v : SPFVertex) (routing : Ipv4GlobalRouting) : Ipv4GlobalRouting :=
  v.lsa.linkRecords.foldl (fun routing lr =>
    if lr.linkType = .pointToPoint then
      manager.addRoutes root (.addHostRouteTo lr.linkData) v routing
    else routing) routing

/-- `SPFIntraAddTransit`. -/
def spfIntraAddTransit (v : SPFVertex) : Ipv4GlobalRouting → Ipv4GlobalRouting :=
  let tempmask := v.lsa.networkLSANetworkMask
  manager.addRoutes root (.addNetworkRouteTo (v.lsa.linkStateId &&& tempmask) tempmask) v

/-- The routes of a vertex that is popped. -/
def spfIntraAdd (v : SPFVertex) : Ipv4GlobalRouting → Ipv4GlobalRouting :=
  match v.vertexType with
  | .routerLSA => manager.spfIntraAddRouter root v
  | .networkLSA => manager.spfIntraAddTransit root v

/-- `SPFIntraAddStub`. -/
def spfIntraAddStub (l : LinkRecord) (v : SPFVertex) (routing : Ipv4GlobalRouting) :
    Ipv4GlobalRouting :=
  if v.vertexId = root then routing
  else manager.addRoutes root (.addNetworkRouteTo (l.linkId &&& l.linkData) l.linkData) v routing

/-- `SPFAddASExternal`. -/
def spfAddASExternal (extlsa : ASExternalLSA) (v : SPFVertex) (routing : Ipv4GlobalRouting) :
    Ipv4GlobalRouting :=
  let tempmask := extlsa.networkLSANetworkMask
  if v.vertexId = root then routing
  else manager.addRoutes root
    (.addASExternalRouteTo (extlsa.linkStateId &&& tempmask) tempmask) v routing

/-- What `SPFProcessStubs` does with a vertex before it goes on to its children. -/
def processStubs (v : SPFVertex) (routing : Ipv4GlobalRouting) : Ipv4GlobalRouting :=
  match v.vertexType with
  | .routerLSA =>
      v.lsa.linkRecords.foldl (fun routing l =>
        if l.linkType = .stubNetwork then manager.spfIntraAddStub root l v routing
        else routing) routing
  | .networkLSA => routing

/-- What `ProcessASExternals` does with a vertex before it goes on to its children. -/
def processASExternal (extlsa : ASExternalLSA) (v : SPFVertex) (routing : Ipv4GlobalRouting) :
    Ipv4GlobalRouting :=
  if v.vertexType = .routerLSA ∧ v.lsa.linkStateId = extlsa.advertisingRouter then
    manager.spfAddASExternal root extlsa v routing
  else routing

end Manager

/-- The loop over the children of a vertex that are not yet processed, with the calls for them and
the ids of what is processed. The children are popped after their parents. -/
def processChildren (process : SPFVertex → Ipv4GlobalRouting → Ipv4GlobalRouting) :
    SPFVertex → List SPFVertex → List Ipv4Address × Ipv4GlobalRouting →
      List Ipv4Address × Ipv4GlobalRouting
  | _, [], state => state
  | v, child :: later, (processed, routing) =>
      if v.vertexId ∈ child.parents ∧ child.vertexId ∉ processed then
        let below := processChildren process child later (processed, process child routing)
        processChildren process v later (child.vertexId :: below.1, below.2)
      else processChildren process v later (processed, routing)

namespace Manager

variable (manager : Manager) (root : Ipv4Address) (extdatabase : List ASExternalLSA)

/-- `SPFProcessStubs` from the root. -/
def spfProcessStubs (v : SPFVertex) (popped : List SPFVertex) (routing : Ipv4GlobalRouting) :
    Ipv4GlobalRouting :=
  (processChildren (manager.processStubs root) v popped
    ([], manager.processStubs root v routing)).2

/-- `ProcessASExternals` from the root, where no vertex is marked as processed. -/
def processASExternals (v : SPFVertex) (popped : List SPFVertex) (extlsa : ASExternalLSA)
    (routing : Ipv4GlobalRouting) : Ipv4GlobalRouting :=
  (processChildren (manager.processASExternal root extlsa) v popped
    ([], manager.processASExternal root extlsa v routing)).2

/-- The second stage of `SPFCalculate`. -/
def secondStage (v : SPFVertex) (popped : List SPFVertex) (routing : Ipv4GlobalRouting) :
    Ipv4GlobalRouting :=
  extdatabase.foldl (fun routing extlsa => manager.processASExternals root v popped extlsa routing)
    (manager.spfProcessStubs root v popped routing)

/-- `SPFCalculate` where it is not truncated: the routes at the root, which has none before. -/
def spfRoutes : Except Failure Ipv4GlobalRouting :=
  match manager.lsdb.getLSA root with
  | none => .error .nullPointer
  | some lsa => do
      let popped ← manager.spfLoop root (manager.lsdb.database.length + 1)
        { lsa, distanceFromRoot := 0 }
        ⟨Function.update (fun _ => .notExplored) root .inSPFTree, []⟩
      .ok (manager.secondStage root extdatabase { lsa, distanceFromRoot := 0 } popped
        (popped.foldl (fun routing v => manager.spfIntraAdd root v routing) .empty))

end Manager

/-- A property of tables that each route over an exit of some kind keeps. -/
structure Keeps (Exits : NodeExit → Prop) (Holds : Ipv4GlobalRouting → Prop) : Prop where
  host : ∀ dest exit routing, Exits exit → Holds routing →
    Holds (routing.addHostRouteTo dest exit.1 (BitVec.ofInt 32 exit.2))
  network : ∀ network mask exit routing, Exits exit → Holds routing →
    Holds (routing.addNetworkRouteTo network mask exit.1 (BitVec.ofInt 32 exit.2))
  asExternal : ∀ network mask exit routing, Exits exit → Holds routing →
    Holds (routing.addASExternalRouteTo network mask exit.1 (BitVec.ofInt 32 exit.2))

/-- The exits of a vertex over which routes are installed are of some kind. -/
def LeftBy (Exits : NodeExit → Prop) (v : SPFVertex) : Prop :=
  ∀ exit ∈ v.ecmpRootExits, 0 ≤ exit.2 → Exits exit

theorem processChildren_induction {Holds : Ipv4GlobalRouting → Prop}
    {process : SPFVertex → Ipv4GlobalRouting → Ipv4GlobalRouting} {v : SPFVertex}
    {popped : List SPFVertex} {state : List Ipv4Address × Ipv4GlobalRouting}
    (processes : ∀ child ∈ popped, ∀ routing, Holds routing → Holds (process child routing))
    (start : Holds state.2) : Holds (processChildren process v popped state).2 := by
  induction popped generalizing v state with
  | nil => exact start
  | cons child later inductionHypothesis =>
      obtain ⟨first, rest⟩ := List.forall_mem_cons.mp processes
      rw [processChildren]
      split
      · exact inductionHypothesis rest (inductionHypothesis rest (first _ start))
      · exact inductionHypothesis rest start

namespace Keeps

variable {manager : Manager} {root : Ipv4Address} {extdatabase : List ASExternalLSA}
  {Exits : NodeExit → Prop} {Holds : Ipv4GlobalRouting → Prop} {v : SPFVertex}
  {popped : List SPFVertex} {routing : Ipv4GlobalRouting}

theorem addRoutes {add : Ipv4Address → BitVec 32 → Ipv4GlobalRouting → Ipv4GlobalRouting}
    (adds : ∀ exit routing, Exits exit → Holds routing →
      Holds (add exit.1 (BitVec.ofInt 32 exit.2) routing))
    (left : LeftBy Exits v) (start : Holds routing) :
    Holds (manager.addRoutes root add v routing) := by
  unfold Manager.addRoutes
  split
  · exact start
  · refine List.foldlRecOn _ _ start fun routing holds exit member => ?_
    split
    case isTrue usable => exact adds exit routing (left exit member usable) holds
    case isFalse => exact holds

variable (keeps : Keeps Exits Holds)
include keeps

theorem spfIntraAddRouter (left : LeftBy Exits v) (start : Holds routing) :
    Holds (manager.spfIntraAddRouter root v routing) := by
  refine List.foldlRecOn _ _ start fun routing holds lr _ => ?_
  split
  · exact addRoutes (keeps.host lr.linkData) left holds
  · exact holds

theorem spfIntraAdd (left : LeftBy Exits v) (start : Holds routing) :
    Holds (manager.spfIntraAdd root v routing) := by
  unfold Manager.spfIntraAdd
  cases v.vertexType with
  | routerLSA => exact keeps.spfIntraAddRouter left start
  | networkLSA => exact addRoutes (keeps.network _ _) left start

theorem processStubs (left : v.vertexId ≠ root → LeftBy Exits v) (start : Holds routing) :
    Holds (manager.processStubs root v routing) := by
  unfold Manager.processStubs
  split
  · refine List.foldlRecOn _ _ start fun routing holds l _ => ?_
    split
    · unfold Manager.spfIntraAddStub
      split
      · exact holds
      case isFalse away => exact addRoutes (keeps.network _ _) (left away) holds
    · exact holds
  · exact start

theorem processASExternal {extlsa : ASExternalLSA} (left : v.vertexId ≠ root → LeftBy Exits v)
    (start : Holds routing) : Holds (manager.processASExternal root extlsa v routing) := by
  unfold Manager.processASExternal
  split
  · unfold Manager.spfAddASExternal
    split
    · exact start
    case isFalse away => exact addRoutes (keeps.asExternal _ _) (left away) start
  · exact start

/-- The second stage starts from the root, for which it installs nothing. -/
theorem secondStage (isRoot : v.vertexId = root) (left : ∀ vertex ∈ popped, LeftBy Exits vertex)
    (start : Holds routing) :
    Holds (manager.secondStage root extdatabase v popped routing) := by
  have nothing : v.vertexId ≠ root → LeftBy Exits v := fun away => absurd isRoot away
  have stubs : Holds (manager.spfProcessStubs root v popped routing) :=
    processChildren_induction
      (fun child member _ => keeps.processStubs fun _ => left child member)
      (keeps.processStubs nothing start)
  refine List.foldlRecOn _ _ stubs fun routing holds extlsa _ => ?_
  exact processChildren_induction
    (fun child member _ => keeps.processASExternal fun _ => left child member)
    (keeps.processASExternal nothing holds)

theorem firstStage (left : ∀ vertex ∈ popped, LeftBy Exits vertex) (start : Holds routing) :
    Holds (popped.foldl (fun routing v => manager.spfIntraAdd root v routing) routing) :=
  List.foldlRecOn _ _ start fun _ holds vertex member =>
    keeps.spfIntraAdd (left vertex member) holds

end Keeps

/-- The loop of the calculation ends. -/
theorem spfRoutes_ne_fuel (manager : Manager) (root : Ipv4Address)
    (extdatabase : List ASExternalLSA) : manager.spfRoutes root extdatabase ≠ .error .fuel := by
  have ends : Ends (· ≠ .fuel) (fun _ => True) (manager.spfRoutes root extdatabase) := by
    unfold Manager.spfRoutes
    split
    · simp [Ends]
    case h_2 lsa found =>
      exact (spfLoop_ends found).bind fun _ _ _ => trivial
  exact ends.ne (by simp)

end Ns3.Internet.GlobalRouting
