import Ns3.Internet.GlobalRouting.Exits
import Ns3.Internet.GlobalRouting.Routes

/-!
The default route of a stub node against the routes of a full calculation.

Behind a single point-to-point link every vertex has one exit, that of the peer. Its next hop is
taken from the first record of the peer that names the root, whatever kind it is of, while the
default route takes the first point-to-point record.
-/

namespace Ns3.Internet.GlobalRouting

/-- The links that `CheckForStubNode` counts. -/
def LSA.transits (lsa : LSA) : List LinkRecord :=
  lsa.linkRecords.filter fun l => l.linkType == .transitNetwork || l.linkType == .pointToPoint

/-- The record that `CheckForStubNode` looks for in the advertisement of the peer. -/
def LSA.pointToPointTo (wLsa : LSA) (myRouterId : Ipv4Address) : Option LinkRecord :=
  wLsa.linkRecords.find? fun lr => lr.linkType == .pointToPoint && lr.linkId == myRouterId

namespace Manager

variable (manager : Manager) (root : Ipv4Address)

/-- `CheckForStubNode`, with the table after it. -/
def checkForStubNodeRoute : Except Failure (Bool × Ipv4GlobalRouting) :=
  match manager.lsdb.getLSA root with
  | none => .error .nullPointer
  | some rlsa =>
      match rlsa.transits with
      | [] => .ok (true, .empty)
      | [transitLink] =>
          if transitLink.linkType = .transitNetwork then .ok (false, .empty)
          else
            match manager.lsdb.getLSA transitLink.linkId with
            | none => .error .nullPointer
            | some wLsa =>
                match wLsa.pointToPointTo rlsa.linkStateId with
                | none => .ok (false, .empty)
                | some lr => .ok (true, .addNetworkRouteTo 0 0 lr.linkData
                    (BitVec.ofInt 32 (manager.findOutgoingInterfaceId root transitLink.linkData
                      (BitVec.allOnes 32))) .empty)
      | _ => .ok (false, .empty)

end Manager

section Behind

variable {manager : Manager} {root : Ipv4Address}

/-- A vertex behind the peer: it has the exit of the peer, and no network is next to the root. -/
def Behind (root : Ipv4Address) (exit : NodeExit) (vertex : SPFVertex) : Prop :=
  vertex.ecmpRootExits = [exit] ∧ (vertex.vertexType = .networkLSA → root ∉ vertex.parents)

theorem unique_twice {exit : NodeExit} : unique (([exit] ++ [exit]).insertionSort
    (NodeExit.le · ·)) = [exit] := by
  by_cases order : NodeExit.le exit exit <;> simp [List.orderedInsert, order, unique]

theorem merges_behind {exit : NodeExit} : Merges manager (Behind root exit) := by
  rintro cw w same ⟨exits, parents⟩ ⟨exits', parents'⟩
  constructor
  · change unique ((cw.ecmpRootExits ++ w.ecmpRootExits).insertionSort _) = [exit]
    rw [exits, exits']
    exact unique_twice
  · intro network
    have network' : w.vertexType = .networkLSA := by rw [SPFVertex.vertexType, ← same]; exact network
    have neither : root ∉ cw.parents ++ w.parents := by
      rw [List.mem_append, not_or]
      exact ⟨parents network, parents' network'⟩
    simpa [SPFVertex.mergeParent, SPFVertex.mergeRootExitDirections, List.mem_insertionSort]
      using neither

/-- Whatever is reached over a vertex behind the peer is behind the peer. -/
theorem handsOn_behind {exit : NodeExit} {v : SPFVertex} (away : v.vertexId ≠ root)
    (behind : Behind root exit v) : HandsOn manager root (Behind root exit) v := by
  intro w l distance reached ok
  obtain ⟨exits, parents⟩ := behind
  have single : v.getRootExitDirection = .ok exit := by
    rw [SPFVertex.getRootExitDirection, exits]
  have others : reached.parents = [v.vertexId] := (Manager.spfNexthopCalculation_reach ok).2.2
  refine ⟨?_, fun _ => by simpa [others] using away.symm⟩
  simp only [Manager.spfNexthopCalculation, if_neg away] at ok
  cases kind : v.vertexType with
  | networkLSA =>
      have notNext : v.parents.head? ≠ some root :=
        fun next => parents kind (List.mem_of_mem_head? next)
      simp only [kind, if_neg notNext, single] at ok
      cases ok
      rfl
  | routerLSA =>
      simp only [kind] at ok
      cases ok
      exact exits

end Behind

section Peer

variable {manager : Manager} {root : Ipv4Address} {lsa wLsa : LSA} {transitLink : LinkRecord}

/-- The loop over the links only takes those into account that `CheckForStubNode` counts. -/
theorem spfNextLinks_transits {v : SPFVertex} {records : List LinkRecord} {state later : SPFState}
    (ok : manager.spfNextLinks root v records state = .ok later) :
    manager.spfNextLinks root v (records.filter fun l =>
      l.linkType == .transitNetwork || l.linkType == .pointToPoint) state = .ok later := by
  induction records generalizing state with
  | nil => exact ok
  | cons l rest inductionHypothesis =>
      rw [Manager.spfNextLinks] at ok
      cases kind : l.linkType
      case stubNetwork =>
          simp only [kind] at ok
          simpa [kind] using inductionHypothesis ok
      case unknown | virtualLink =>
          simp only [kind] at ok
          cases ok
      case pointToPoint | transitNetwork =>
          rw [List.filter_cons_of_pos (by simp [kind]), Manager.spfNextLinks]
          simp only [kind] at ok ⊢
          cases found : manager.lsdb.getLSA l.linkId with
          | none =>
              simp only [found] at ok
              cases ok
          | some wLsa =>
              simp only [found] at ok ⊢
              obtain ⟨next, considered, ok⟩ := bind_ok ok
              rw [considered]
              exact inductionHypothesis ok

/-- The advertisement of a router has exactly one transit or point-to-point link, and this is a
point-to-point link. Only the advertisements of routers have link records. -/
structure PointToPointStub (manager : Manager) (root : Ipv4Address) (lsa : LSA)
    (transitLink : LinkRecord) : Prop where
  present : manager.lsdb.getLSA root = some lsa
  single : lsa.transits = [transitLink]
  pointToPoint : transitLink.linkType = .pointToPoint
  routers : ∀ lsa ∈ manager.lsdb.database, lsa.linkRecords ≠ [] → lsa.lsType = .routerLSA

namespace PointToPointStub

variable (stub : PointToPointStub manager root lsa transitLink)
include stub

theorem isRouter : lsa.lsType = .routerLSA := by
  have counted : transitLink ∈ lsa.transits := by simp [stub.single]
  exact stub.routers lsa (LSDB.getLSA_spec stub.present).1
    (List.ne_nil_of_mem (List.mem_of_mem_filter counted))

/-- From the root the calculation takes the single link into account. -/
theorem spfNext_root {later : SPFState}
    (ok : manager.spfNext root { lsa, distanceFromRoot := 0 }
      ⟨Function.update (fun _ => .notExplored) root .inSPFTree, []⟩ = .ok later) :
    ∃ wLsa, manager.lsdb.getLSA transitLink.linkId = some wLsa ∧
      manager.consider root { lsa, distanceFromRoot := 0 } wLsa (some transitLink)
        (0 + transitLink.metric.setWidth 32)
        ⟨Function.update (fun _ => .notExplored) root .inSPFTree, []⟩ = .ok later := by
  simp only [Manager.spfNext, SPFVertex.vertexType, stub.isRouter] at ok
  replace ok := spfNextLinks_transits ok
  change manager.spfNextLinks root _ lsa.transits _ = _ at ok
  simp only [stub.single, Manager.spfNextLinks, stub.pointToPoint] at ok
  split at ok
  · cases ok
  case h_2 wLsa peer =>
    obtain ⟨considered, ok, done⟩ := bind_ok ok
    cases done
    exact ⟨wLsa, peer, ok⟩

/-- The peer is reached over its first record that names the root. -/
theorem spfNext_peer {later : SPFState} (away : transitLink.linkId ≠ root)
    (peer : manager.lsdb.getLSA transitLink.linkId = some wLsa)
    (peerRouter : wLsa.lsType = .routerLSA)
    (ok : manager.spfNext root { lsa, distanceFromRoot := 0 }
      ⟨Function.update (fun _ => .notExplored) root .inSPFTree, []⟩ = .ok later) :
    ∃ first w, wLsa.linkRecords.find? (·.linkId == root) = some first ∧ w.lsa = wLsa ∧
      w.ecmpRootExits = [(first.linkData, manager.findOutgoingInterfaceId root
        transitLink.linkData (BitVec.allOnes 32))] ∧
      later.candidate = [w] ∧
      Placed w ⟨Function.update (fun _ => .notExplored) root .inSPFTree, []⟩ later := by
  have isRoot : lsa.linkStateId = root := (LSDB.getLSA_spec stub.present).2
  have named : wLsa.linkStateId = transitLink.linkId := (LSDB.getLSA_spec peer).2
  obtain ⟨_, peer', ok⟩ := stub.spfNext_root ok
  obtain rfl := Option.some.inj (peer.symm.trans peer')
  simp only [Manager.consider, named, Function.update_of_ne away] at ok
  obtain ⟨w, reaches, ok⟩ := bind_ok ok
  cases ok
  obtain ⟨same, _, _⟩ := Manager.spfNexthopCalculation_reach reaches
  have wId : w.vertexId = transitLink.linkId := by rw [SPFVertex.vertexId, same, named]
  have placed : Placed w ⟨Function.update (fun _ => .notExplored) root .inSPFTree, []⟩ _ :=
    .push fun _ member => absurd member List.not_mem_nil
  rw [wId] at placed
  have link : spfGetNextLink { lsa := wLsa } { lsa, distanceFromRoot := 0 } none =
      wLsa.linkRecords.find? (·.linkId == root) := by
    rw [← isRoot]
    exact nextLink_find
  cases found : wLsa.linkRecords.find? (·.linkId == root) with
  | none =>
      simp only [Manager.spfNexthopCalculation, SPFVertex.vertexId, isRoot, if_true,
        SPFVertex.vertexType, peerRouter, link, found] at reaches
      cases reaches
  | some first =>
      simp only [Manager.spfNexthopCalculation, SPFVertex.vertexId, isRoot, if_true,
        SPFVertex.vertexType, peerRouter, link, found] at reaches
      cases reaches
      exact ⟨first, _, rfl, rfl, rfl, rfl, placed⟩

/-- All that is popped behind the peer has the exit of the peer, which is popped first. -/
theorem spfLoop_peer {popped : List SPFVertex} (away : transitLink.linkId ≠ root)
    (peer : manager.lsdb.getLSA transitLink.linkId = some wLsa)
    (peerRouter : wLsa.lsType = .routerLSA)
    (ok : manager.spfLoop root (manager.lsdb.database.length + 1) { lsa, distanceFromRoot := 0 }
      ⟨Function.update (fun _ => .notExplored) root .inSPFTree, []⟩ = .ok popped) :
    ∃ first w others, wLsa.linkRecords.find? (·.linkId == root) = some first ∧
      popped = w :: others ∧ w.lsa = wLsa ∧
      ∀ vertex ∈ popped, vertex.ecmpRootExits = [(first.linkData,
        manager.findOutgoingInterfaceId root transitLink.linkData (BitVec.allOnes 32))] := by
  obtain ⟨later, next, ok⟩ := bind_ok ok
  obtain ⟨first, w, names, same, exits, only, placed⟩ :=
    stub.spfNext_peer away peer peerRouter next
  obtain ⟨advertised, named⟩ := LSDB.getLSA_spec peer
  rw [only] at ok
  obtain ⟨others, loops, done⟩ := bind_ok ok
  cases done
  refine ⟨first, w, others, names, rfl, same, ?_⟩
  have away' : w.vertexId ≠ root := by rw [SPFVertex.vertexId, same, named]; exact away
  have behind : Behind root (first.linkData, manager.findOutgoingInterfaceId root
      transitLink.linkData (BitVec.allOnes 32)) w := by
    refine ⟨exits, fun network => ?_⟩
    rw [SPFVertex.vertexType, same, peerRouter] at network
    cases network
  have kept := (Kept.initial stub.present).place placed (same ▸ advertised) (by simp [away'])
    behind
  have ends := (kept.pop only).spfLoop (fun v => handsOn_behind) merges_behind
    (handsOn_behind away' behind) (List.mem_cons_of_mem _ (List.mem_singleton_self _))
    (Nat.lt_add_of_pos_right (Nat.succ_pos _))
  rw [loops] at ends
  exact List.forall_mem_cons.mpr ⟨exits, fun vertex member => (ends vertex member).2.1⟩

/-- A link of the root to itself leads nowhere. -/
theorem spfLoop_self {popped : List SPFVertex} (self : transitLink.linkId = root)
    (ok : manager.spfLoop root (manager.lsdb.database.length + 1) { lsa, distanceFromRoot := 0 }
      ⟨Function.update (fun _ => .notExplored) root .inSPFTree, []⟩ = .ok popped) :
    popped = [] := by
  obtain ⟨later, next, ok⟩ := bind_ok ok
  obtain ⟨wLsa, peer, considered⟩ := stub.spfNext_root next
  have named : wLsa.linkStateId = root := (LSDB.getLSA_spec peer).2.trans self
  simp only [Manager.consider, named, Function.update_self] at considered
  cases considered
  cases ok
  rfl

end PointToPointStub

end Peer

section Agreement

variable (manager : Manager) (root : Ipv4Address) (extdatabase : List ASExternalLSA)

/-- Every destination that the full calculation has a route for is sent out of the same interface
and to the same next hop by the default route, whichever routes are drawn. -/
def Agrees : Prop :=
  ∀ shortcut full, manager.checkForStubNodeRoute root = .ok (true, shortcut) →
    manager.spfRoutes root extdatabase = .ok full →
    ∀ (Device : Type) [DecidableEq Device] (ipv4 : Ipv4 Device) dest oif randomEcmpRouting
      getInteger,
      ∀ route ∈ full.lookupGlobal ipv4 dest oif randomEcmpRouting getInteger,
        ∃ other ∈ shortcut.lookupGlobal ipv4 dest oif randomEcmpRouting getInteger,
          other.outputDevice = route.outputDevice ∧ other.gateway = route.gateway

/-- The first record of the peer that names the root has the same address as its first
point-to-point record that does, unless no route leads over the link. -/
def PairsPointToPoint (transitLink : LinkRecord) : Prop :=
  transitLink.linkId ≠ root →
    0 ≤ manager.findOutgoingInterfaceId root transitLink.linkData (BitVec.allOnes 32) →
    ∀ wLsa, manager.lsdb.getLSA transitLink.linkId = some wLsa →
      ∀ lr ∈ wLsa.pointToPointTo root, ∀ first ∈ wLsa.linkRecords.find? (·.linkId == root),
        first.linkData = lr.linkData

variable {manager root extdatabase}

/-- All routes lead over one exit. -/
def Over (exit : NodeExit) (routing : Ipv4GlobalRouting) : Prop :=
  ∀ entry, routing.Has entry →
    entry.gateway = exit.1 ∧ entry.interface = BitVec.ofInt 32 exit.2 ∧ 0 ≤ exit.2

theorem keeps_over {exit : NodeExit} :
    Keeps (fun other => other = exit ∧ 0 ≤ exit.2) (Over exit) where
  host := by
    rintro dest _ routing ⟨rfl, usable⟩ holds entry has
    rcases Ipv4GlobalRouting.has_addHostRouteTo.mp has with before | rfl
    · exact holds entry before
    · exact ⟨rfl, rfl, usable⟩
  network := by
    rintro network mask _ routing ⟨rfl, usable⟩ holds entry has
    rcases Ipv4GlobalRouting.has_addNetworkRouteTo.mp has with before | rfl
    · exact holds entry before
    · exact ⟨rfl, rfl, usable⟩
  asExternal := by
    rintro network mask _ routing ⟨rfl, usable⟩ holds entry has
    rcases Ipv4GlobalRouting.has_addASExternalRouteTo.mp has with before | rfl
    · exact holds entry before
    · exact ⟨rfl, rfl, usable⟩

/-- The routes to the addresses of a router that is popped are kept. -/
theorem keeps_host {entry : Ipv4RoutingTableEntry} :
    Keeps (fun _ => True) (fun routing => entry ∈ routing.hostRoutes) := by
  constructor
  case host => exact fun _ _ _ _ member => List.mem_append_left _ member
  all_goals exact fun _ _ _ _ _ member => member

theorem mem_spfIntraAddRouter {v : SPFVertex} {lr : LinkRecord} {exit : NodeExit}
    {routing : Ipv4GlobalRouting} (node : manager.interfaces root ≠ none)
    (member : lr ∈ v.lsa.linkRecords) (pointToPoint : lr.linkType = .pointToPoint)
    (exits : v.ecmpRootExits = [exit]) (usable : 0 ≤ exit.2) :
    .createHostRouteTo lr.linkData exit.1 (BitVec.ofInt 32 exit.2) ∈
      (manager.spfIntraAddRouter root v routing).hostRoutes := by
  obtain ⟨before, after, records⟩ := List.append_of_mem member
  obtain ⟨interfaces, present⟩ := Option.ne_none_iff_exists'.mp node
  rw [Manager.spfIntraAddRouter, records, List.foldl_append, List.foldl_cons]
  -- The records behind this one only add further routes.
  refine List.foldlRecOn (motive := fun routing : Ipv4GlobalRouting =>
    .createHostRouteTo lr.linkData exit.1 (BitVec.ofInt 32 exit.2) ∈ routing.hostRoutes)
    _ _ ?_ fun routing host other _ => ?_
  · simp [pointToPoint, Manager.addRoutes, present, exits, usable,
      Ipv4GlobalRouting.addHostRouteTo]
  · split
    · exact Keeps.addRoutes (keeps_host.host other.linkData) (fun _ _ _ => trivial) host
    · exact host

variable {lsa : LSA} {transitLink : LinkRecord}

theorem checkForStubNodeRoute_spec (stub : PointToPointStub manager root lsa transitLink)
    {shortcut : Ipv4GlobalRouting} :
    manager.checkForStubNodeRoute root = .ok (true, shortcut) ↔
      ∃ wLsa lr, manager.lsdb.getLSA transitLink.linkId = some wLsa ∧
        wLsa.pointToPointTo root = some lr ∧
        shortcut = .addNetworkRouteTo 0 0 lr.linkData (BitVec.ofInt 32
          (manager.findOutgoingInterfaceId root transitLink.linkData (BitVec.allOnes 32)))
          .empty := by
  have isRoot : lsa.linkStateId = root := (LSDB.getLSA_spec stub.present).2
  simp only [Manager.checkForStubNodeRoute, stub.present, stub.single, stub.pointToPoint, isRoot]
  constructor
  · intro ok
    cases peer : manager.lsdb.getLSA transitLink.linkId with
    | none =>
        simp only [peer] at ok
        cases ok
    | some wLsa =>
        cases found : wLsa.pointToPointTo root with
        | none =>
            simp only [peer, found] at ok
            cases ok
        | some lr =>
            simp only [peer, found] at ok
            cases ok
            exact ⟨wLsa, lr, rfl, found, rfl⟩
  · rintro ⟨wLsa, lr, peer, found, rfl⟩
    simp only [peer, found]
    rfl

theorem pointToPointTo_spec {wLsa : LSA} {lr : LinkRecord}
    (found : wLsa.pointToPointTo root = some lr) :
    lr ∈ wLsa.linkRecords ∧ lr.linkType = .pointToPoint := by
  have matched := List.find?_some found
  rw [Bool.and_eq_true, beq_iff_eq] at matched
  exact ⟨List.mem_of_find?_eq_some found, matched.1⟩

theorem interfaces_ne_none {a amask : Ipv4Address}
    (usable : 0 ≤ manager.findOutgoingInterfaceId root a amask) :
    manager.interfaces root ≠ none := by
  intro none
  simp [Manager.findOutgoingInterfaceId, none] at usable

/-- All routes of the full calculation lead over the exit of the peer, and the address of the peer
on the link is among their destinations. -/
theorem spfRoutes_peer (stub : PointToPointStub manager root lsa transitLink) {wLsa : LSA}
    {lr : LinkRecord} {full : Ipv4GlobalRouting} (away : transitLink.linkId ≠ root)
    (peer : manager.lsdb.getLSA transitLink.linkId = some wLsa)
    (named : wLsa.pointToPointTo root = some lr)
    (ok : manager.spfRoutes root extdatabase = .ok full) :
    ∃ first, wLsa.linkRecords.find? (·.linkId == root) = some first ∧
      Over (first.linkData, manager.findOutgoingInterfaceId root transitLink.linkData
        (BitVec.allOnes 32)) full ∧
      (0 ≤ manager.findOutgoingInterfaceId root transitLink.linkData (BitVec.allOnes 32) →
        .createHostRouteTo lr.linkData first.linkData (BitVec.ofInt 32
          (manager.findOutgoingInterfaceId root transitLink.linkData (BitVec.allOnes 32))) ∈
          full.hostRoutes) := by
  obtain ⟨listed, pointToPoint⟩ := pointToPointTo_spec named
  obtain ⟨advertised, _⟩ := LSDB.getLSA_spec peer
  have peerRouter := stub.routers wLsa advertised (List.ne_nil_of_mem listed)
  have isRoot : lsa.linkStateId = root := (LSDB.getLSA_spec stub.present).2
  simp only [Manager.spfRoutes, stub.present] at ok
  obtain ⟨popped, loops, done⟩ := bind_ok ok
  cases done
  obtain ⟨first, w, others, names, rfl, same, exits⟩ :=
    stub.spfLoop_peer away peer peerRouter loops
  have left : ∀ vertex ∈ w :: others, LeftBy (fun other => other = (first.linkData,
      manager.findOutgoingInterfaceId root transitLink.linkData (BitVec.allOnes 32)) ∧
      0 ≤ manager.findOutgoingInterfaceId root transitLink.linkData (BitVec.allOnes 32))
      vertex := by
    intro vertex member exit isExit usable
    rw [exits vertex member, List.mem_singleton] at isExit
    subst isExit
    exact ⟨rfl, usable⟩
  refine ⟨first, names, ?_, fun usable => ?_⟩
  · refine keeps_over.secondStage isRoot left (keeps_over.firstStage left ?_)
    exact fun entry has => absurd has Ipv4GlobalRouting.not_has_empty
  · have kind : w.vertexType = .routerLSA := by rw [SPFVertex.vertexType, same, peerRouter]
    have host : _ ∈ (manager.spfIntraAddRouter root w .empty).hostRoutes :=
      mem_spfIntraAddRouter (interfaces_ne_none usable) (same ▸ listed) pointToPoint
        (exits w List.mem_cons_self) usable
    refine keeps_host.secondStage isRoot (fun _ _ _ _ _ => trivial) ?_
    rw [List.foldl_cons]
    refine keeps_host.firstStage (fun _ _ _ _ _ => trivial) ?_
    rw [Manager.spfIntraAdd, kind]
    exact host

/-- A link of the root to itself brings no routes. -/
theorem spfRoutes_self (stub : PointToPointStub manager root lsa transitLink)
    {full : Ipv4GlobalRouting} (self : transitLink.linkId = root)
    (ok : manager.spfRoutes root extdatabase = .ok full) (entry : Ipv4RoutingTableEntry) :
    ¬ full.Has entry := by
  have isRoot : lsa.linkStateId = root := (LSDB.getLSA_spec stub.present).2
  simp only [Manager.spfRoutes, stub.present] at ok
  obtain ⟨popped, loops, done⟩ := bind_ok ok
  cases done
  obtain rfl := stub.spfLoop_self self loops
  have none : Keeps (fun _ => False) fun routing => ¬ routing.Has entry :=
    ⟨fun _ _ _ => False.elim, fun _ _ _ _ => False.elim, fun _ _ _ _ => False.elim⟩
  exact none.secondStage isRoot (fun _ member => nomatch member) Ipv4GlobalRouting.not_has_empty

/-- The default route agrees with the full calculation exactly where both take the next hop from
records of the peer with the same address. -/
theorem agrees_iff (stub : PointToPointStub manager root lsa transitLink)
    (completes : ∃ full, manager.spfRoutes root extdatabase = .ok full) :
    Agrees manager root extdatabase ↔ PairsPointToPoint manager root transitLink := by
  constructor
  · intro agrees away usable wLsa peer lr named first isFirst
    obtain ⟨full, ok⟩ := completes
    obtain ⟨first', isFirst', leads, host⟩ := spfRoutes_peer stub away peer named ok
    obtain rfl := Option.some.inj (isFirst'.symm.trans isFirst)
    have shortcut := (checkForStubNodeRoute_spec stub).mpr ⟨wLsa, lr, peer, named, rfl⟩
    let ipv4 : Ipv4 Unit := ⟨fun _ => (), fun _ => 0, fun _ => 0, fun _ _ => 0⟩
    have reachable : ∃ route, route ∈ full.lookupGlobal ipv4 lr.linkData none false fun _ => 0 :=
      Ipv4GlobalRouting.lookupGlobal_host (host usable)
    obtain ⟨route, found⟩ := reachable
    obtain ⟨other, found', _, same⟩ := agrees _ _ shortcut ok Unit ipv4 _ _ _ _ route found
    obtain ⟨entry, has, _, rfl⟩ := Ipv4GlobalRouting.lookupGlobal_spec found
    rw [Ipv4GlobalRouting.lookupGlobal_default rfl] at found'
    obtain rfl := Option.some.inj found'
    exact (leads entry has).1.symm.trans same.symm
  · intro pairs shortcut full shortcutOk ok Device _ ipv4 dest oif randomEcmpRouting getInteger
      route found
    obtain ⟨wLsa, lr, peer, named, rfl⟩ := (checkForStubNodeRoute_spec stub).mp shortcutOk
    obtain ⟨entry, has, onInterface, rfl⟩ := Ipv4GlobalRouting.lookupGlobal_spec found
    have away : transitLink.linkId ≠ root := fun self => spfRoutes_self stub self ok entry has
    obtain ⟨first, isFirst, leads, _⟩ := spfRoutes_peer stub away peer named ok
    obtain ⟨gateway, interface, usable⟩ := leads entry has
    have same := pairs away usable wLsa peer lr named first isFirst
    refine ⟨_, Ipv4GlobalRouting.lookupGlobal_default ?_, ?_, ?_⟩
    · rw [Ipv4GlobalRouting.onInterface, ← onInterface, Ipv4GlobalRouting.onInterface, interface]
      rfl
    · rw [Ipv4GlobalRouting.routeOf, Ipv4GlobalRouting.routeOf, interface]
      rfl
    · exact same.symm.trans gateway.symm

/-- Router 2 is the only neighbour of router 1, and both take the next hop from its only record. -/
theorem agrees_iff_sharedNetwork :
    PairsPointToPoint (sharedNetwork 5) 1 ⟨.pointToPoint, 2, 10, 1⟩ ∧
      Agrees (sharedNetwork 5) 1 [] := by
  have pairs : PairsPointToPoint (sharedNetwork 5) 1 ⟨.pointToPoint, 2, 10, 1⟩ := by
    rintro - - wLsa peer lr named first isFirst
    cases peer
    cases named
    cases isFirst
    rfl
  exact ⟨pairs, (agrees_iff ⟨rfl, rfl, rfl, by simp [sharedNetwork]⟩ ⟨_, rfl⟩).mpr pairs⟩

/-- Router 1, whose first interface is on the network 0.0.0.0/24 without other routers, is linked
to router 0. -/
def networkZero : Manager where
  lsdb :=
    { database :=
        [{ lsType := .routerLSA, linkStateId := 0,
           linkRecords := [⟨.pointToPoint, 1, 0x0a010101, 1⟩,
             ⟨.stubNetwork, 0x0a010102, 0xffffff00, 1⟩] },
         { lsType := .routerLSA, linkStateId := 1,
           linkRecords := [⟨.stubNetwork, 0, 0xffffff00, 1⟩, ⟨.pointToPoint, 0, 0x0a010102, 1⟩,
             ⟨.stubNetwork, 0x0a010101, 0xffffff00, 1⟩] }]
      ascending := by simp }
  interfaces := fun _ => some [[0x7f000001], [0x0a010101]]
  hasNodes := true
  pointer := BitVec.toNat

/-- The full calculation takes the mask of the network for the next hop. -/
theorem not_agrees :
    ¬ ∀ manager root extdatabase lsa transitLink, PointToPointStub manager root lsa transitLink →
      (∃ full, manager.spfRoutes root extdatabase = .ok full) →
      Agrees manager root extdatabase := by
  intro claimed
  have stub : PointToPointStub networkZero 0 _ _ := ⟨rfl, rfl, rfl, by simp [networkZero]⟩
  let ipv4 : Ipv4 Unit := ⟨fun _ => (), fun _ => 0, fun _ => 0, fun _ _ => 0⟩
  obtain ⟨other, found, _, same⟩ := claimed networkZero 0 [] _ _ stub ⟨_, rfl⟩ _ _ rfl rfl Unit
    ipv4 0x0a010102 none false (fun _ => 0) _ rfl
  cases found
  exact absurd same (by decide)

end Agreement

end Ns3.Internet.GlobalRouting
