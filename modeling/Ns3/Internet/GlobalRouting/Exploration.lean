import Ns3.Internet.GlobalRouting.Queue

/-!
A calculation explores the graph that the link state database describes.

The links of a database are those between routers, those from a router to a network, both with
the metric of the router, and those from a network to its attached routers. The calculation is
a search in this graph: the tree has the settled vertices, the queue the candidates.
-/

namespace Ns3.Internet.GlobalRouting

open Library

/-- A link as the advertisement it starts from tells it. -/
inductive Hop where
  | link (record : LinkRecord)
  | attached (address : Ipv4Address)
  deriving DecidableEq, Repr

namespace LSDB

variable (lsdb : LSDB)

/-- The graph that the advertisements describe. -/
def graph : Library.Graph Ipv4Address Hop where
  Link v hop w :=
    match hop with
    | .link record => ∃ lsa ∈ lsdb.database, lsa.linkStateId = v ∧ lsa.lsType = .routerLSA ∧
        record ∈ lsa.linkRecords ∧
        (record.linkType = .pointToPoint ∨ record.linkType = .transitNetwork) ∧
        record.linkId = w ∧ ∃ wLsa ∈ lsdb.database, wLsa.linkStateId = w
    | .attached address => ∃ lsa ∈ lsdb.database, lsa.linkStateId = v ∧
        lsa.lsType = .networkLSA ∧ address ∈ lsa.attachedRouters ∧
        ∃ wLsa ∈ lsdb.database, wLsa.linkStateId = w ∧ ∃ record ∈ wLsa.linkRecords,
          record.linkType = .transitNetwork ∧ record.linkId = v ∧ record.linkData = address
  cost
    | .link record => record.metric.toNat
    | .attached _ => 0

/-- Every link is advertised at both of its ends, and the address of an interface to a network
is that of one router and one network. -/
structure Bidirectional : Prop where
  pointToPoint : ∀ v ∈ lsdb.database, ∀ record ∈ v.linkRecords,
    record.linkType = .pointToPoint → v.lsType = .routerLSA ∧
      ∃ w ∈ lsdb.database, w.linkStateId = record.linkId ∧ w.lsType = .routerLSA ∧
        ∃ back ∈ w.linkRecords, back.linkType = .pointToPoint ∧ back.linkId = v.linkStateId
  transitNetwork : ∀ v ∈ lsdb.database, ∀ record ∈ v.linkRecords,
    record.linkType = .transitNetwork → v.lsType = .routerLSA ∧
      ∃ w ∈ lsdb.database, w.linkStateId = record.linkId ∧ w.lsType = .networkLSA ∧
        record.linkData ∈ w.attachedRouters
  attachedRouter : ∀ v ∈ lsdb.database, ∀ address ∈ v.attachedRouters,
    v.lsType = .networkLSA ∧ ∃ w ∈ lsdb.database, w.lsType = .routerLSA ∧
      ∃ record ∈ w.linkRecords, record.linkType = .transitNetwork ∧
        record.linkId = v.linkStateId ∧ record.linkData = address
  interface : ∀ v ∈ lsdb.database, ∀ w ∈ lsdb.database, ∀ record ∈ v.linkRecords,
    ∀ other ∈ w.linkRecords, record.linkType = .transitNetwork →
      other.linkType = .transitNetwork → record.linkData = other.linkData →
        v = w ∧ record.linkId = other.linkId

theorem nodup_ids : (lsdb.database.map (·.linkStateId)).Nodup := by
  rw [List.Nodup, List.pairwise_map]
  exact lsdb.ascending.imp fun less => BitVec.ne_of_lt less

variable {lsdb} {v w : LSA} {addr : Ipv4Address}

theorem distinct_ids (found : v ∈ lsdb.database) (found' : w ∈ lsdb.database)
    (same : v.linkStateId = w.linkStateId) : v = w := by
  exact List.inj_on_of_nodup_map lsdb.nodup_ids found found' same

theorem getLSA_spec (found : lsdb.getLSA addr = some v) :
    v ∈ lsdb.database ∧ v.linkStateId = addr :=
  ⟨List.mem_of_find?_eq_some found, by simpa using List.find?_some found⟩

theorem getLSAByLinkData_spec (found : lsdb.getLSAByLinkData addr = some v) :
    v ∈ lsdb.database ∧ ∃ record ∈ v.linkRecords,
      record.linkType = .transitNetwork ∧ record.linkData = addr :=
  ⟨List.mem_of_find?_eq_some found, by simpa using List.find?_some found⟩

theorem getLSAByLinkData_none (absent : lsdb.getLSAByLinkData addr = none)
    (found : v ∈ lsdb.database) {record : LinkRecord} (listed : record ∈ v.linkRecords)
    (transit : record.linkType = .transitNetwork) : record.linkData ≠ addr := by
  rintro rfl
  have none := List.find?_eq_none.mp absent v found
  simp only [List.any_eq_true, not_exists, not_and] at none
  exact none record listed (by simp [transit])

end LSDB

/-- No sum that is computed leaves the range of a distance. -/
def Fits (lsdb : LSDB) (root : Ipv4Address) : Prop :=
  ∀ v distance hop w, lsdb.graph.Distance root v distance → lsdb.graph.Link v hop w →
    distance + lsdb.graph.cost hop < 2 ^ 32

/-- A vertex of the list has the id and the distance. -/
def Listed (vertices : List SPFVertex) (id : Ipv4Address) (distance : Nat) : Prop :=
  ∃ vertex ∈ vertices, vertex.vertexId = id ∧ vertex.distance = distance

/-- The state of a calculation: the links of the vertex `current`, which has entered the tree
last, are taken into account as far as they are done, those of the rest of the tree all. -/
structure Explored (lsdb : LSDB) (root : Ipv4Address) (tree : List SPFVertex)
    (current : SPFVertex) (Done : Hop → Prop) (state : SPFState) : Prop where
  search : lsdb.graph.Search root (Listed tree) (Listed state.candidate)
    fun v hop _ => v ≠ current.vertexId ∨ Done hop
  newest : current ∈ tree
  farthest : ∀ vertex ∈ tree, vertex.distance ≤ current.distance
  treeLsa : ∀ vertex ∈ tree, vertex.lsa ∈ lsdb.database
  candidateLsa : ∀ vertex ∈ state.candidate, vertex.lsa ∈ lsdb.database
  inTree : ∀ id, state.status id = .inSPFTree ↔ ∃ vertex ∈ tree, vertex.vertexId = id
  isCandidate : ∀ id, state.status id = .candidate ↔
    ∃ vertex ∈ state.candidate, vertex.vertexId = id
  distinctTree : Distinct tree
  distinct : Distinct state.candidate
  ordered : Ordered state.candidate

namespace Explored

variable {manager : Manager} {root : Ipv4Address} {tree : List SPFVertex}
  {current : SPFVertex} {Done Done' : Hop → Prop} {state later : SPFState}

/-- The links that are done may be told in another way. -/
theorem congr (explored : Explored manager.lsdb root tree current Done state)
    (same : ∀ hop w, manager.lsdb.graph.Link current.vertexId hop w → Done' hop → Done hop) :
    Explored manager.lsdb root tree current Done' state := by
  have search : manager.lsdb.graph.Search root (Listed tree) (Listed state.candidate)
      fun v hop _ => v ≠ current.vertexId ∨ Done' hop := by
    refine explored.search.relax explored.search.walked explored.search.ordered
      (fun vertex distance found => ⟨distance, found, le_rfl⟩) ?_
    intro v distance hop w _ link seen
    rcases seen with different | done
    · exact .inl (.inl different)
    · by_cases here : v = current.vertexId
      · subst here
        exact .inl (.inr (same hop w link done))
      · exact .inl (.inl here)
  exact { explored with search := search }

theorem current_distance (explored : Explored manager.lsdb root tree current Done state) :
    manager.lsdb.graph.Distance root current.vertexId current.distance :=
  explored.search.exact _ _ ⟨current, explored.newest, rfl, rfl⟩

/-- A link to a vertex of the tree changes nothing. -/
theorem skip {hop : Hop} {w : Ipv4Address}
    (explored : Explored manager.lsdb root tree current Done state)
    (only : ∀ x, manager.lsdb.graph.Link current.vertexId hop x → x = w)
    (covered : (∃ vertex ∈ tree, vertex.vertexId = w) ∨ ∃ vertex ∈ state.candidate,
      vertex.vertexId = w ∧ vertex.distance ≤ current.distance + manager.lsdb.graph.cost hop) :
    Explored manager.lsdb root tree current (fun other => Done other ∨ other = hop) state := by
  have search : manager.lsdb.graph.Search root (Listed tree) (Listed state.candidate)
      fun v other _ => v ≠ current.vertexId ∨ Done other ∨ other = hop := by
    refine explored.search.relax explored.search.walked explored.search.ordered
      (fun vertex distance found => ⟨distance, found, le_rfl⟩) ?_
    rintro v distance other x settled link (different | done | rfl)
    · exact .inl (.inl different)
    · exact .inl (.inr done)
    · by_cases here : v = current.vertexId
      · subst here
        obtain rfl := only x link
        have known := (explored.search.exact _ _ settled).unique explored.current_distance
        rcases covered with ⟨vertex, found, named⟩ | ⟨vertex, found, named, bound⟩
        · exact .inr (.inl ⟨vertex.distance, vertex, found, named, rfl⟩)
        · exact .inr (.inr ⟨vertex.distance, ⟨vertex, found, named, rfl⟩, known ▸ bound⟩)
      · exact .inl (.inl here)
  exact { explored with search := search }

/-- A vertex takes the place of all candidates with its id. -/
theorem place {hop : Hop} {new : SPFVertex}
    (explored : Explored manager.lsdb root tree current Done state)
    (placed : Placed new state later)
    (only : ∀ x, manager.lsdb.graph.Link current.vertexId hop x → x = new.vertexId)
    (advertised : new.lsa ∈ manager.lsdb.database)
    (walked : ∃ trail, manager.lsdb.graph.Walk root new.vertexId trail ∧
      manager.lsdb.graph.length trail = new.distance)
    (beyond : current.distance ≤ new.distance)
    (bound : new.distance ≤ current.distance + manager.lsdb.graph.cost hop)
    (closer : ∀ vertex ∈ state.candidate, vertex.vertexId = new.vertexId →
      new.distance ≤ vertex.distance)
    (outside : state.status new.vertexId ≠ .inSPFTree) (ordered : Ordered later.candidate) :
    Explored manager.lsdb root tree current (fun other => Done other ∨ other = hop) later where
  search := by
    refine explored.search.relax ?_ ?_ ?_ ?_
    · rintro id distance ⟨vertex, found, rfl, rfl⟩
      rcases (placed.members vertex).mp found with rfl | ⟨before, _⟩
      · exact walked
      · exact explored.search.walked _ _ ⟨vertex, before, rfl, rfl⟩
    · rintro id distance next other settled ⟨vertex, found, rfl, rfl⟩
      rcases (placed.members vertex).mp found with rfl | ⟨before, _⟩
      · obtain ⟨inside, member, _, rfl⟩ := settled
        exact (explored.farthest inside member).trans beyond
      · exact explored.search.ordered _ _ _ _ settled ⟨vertex, before, rfl, rfl⟩
    · rintro id distance ⟨vertex, found, rfl, rfl⟩
      by_cases same : vertex.vertexId = new.vertexId
      · exact ⟨new.distance, ⟨new, (placed.members new).mpr (.inl rfl), same.symm, rfl⟩,
          closer vertex found same⟩
      · exact ⟨vertex.distance, ⟨vertex, (placed.members vertex).mpr (.inr ⟨found, same⟩), rfl, rfl⟩,
          le_rfl⟩
    · rintro v distance other x settled link (different | done | rfl)
      · exact .inl (.inl different)
      · exact .inl (.inr done)
      · by_cases here : v = current.vertexId
        · subst here
          obtain rfl := only x link
          have known := (explored.search.exact _ _ settled).unique explored.current_distance
          exact .inr (.inr ⟨new.distance, ⟨new, (placed.members new).mpr (.inl rfl), rfl, rfl⟩,
            known ▸ bound⟩)
        · exact .inl (.inl here)
  newest := explored.newest
  farthest := explored.farthest
  treeLsa := explored.treeLsa
  candidateLsa := by
    intro vertex found
    rcases (placed.members vertex).mp found with rfl | ⟨before, _⟩
    · exact advertised
    · exact explored.candidateLsa vertex before
  inTree := by
    intro id
    rw [← explored.inTree id]
    simp only [placed.status, Function.update_apply]
    split
    case isTrue same => simp [same, outside]
    case isFalse => rfl
  isCandidate := by
    intro id
    simp only [placed.status, Function.update_apply, placed.members]
    split
    case isTrue same => exact ⟨fun _ => ⟨new, .inl rfl, same.symm⟩, fun _ => rfl⟩
    case isFalse different =>
      rw [explored.isCandidate id]
      constructor
      · rintro ⟨vertex, found, rfl⟩
        exact ⟨vertex, .inr ⟨found, different⟩, rfl⟩
      · rintro ⟨vertex, rfl | ⟨found, _⟩, named⟩
        · exact absurd named.symm different
        · exact ⟨vertex, found, named⟩
  distinctTree := explored.distinctTree
  distinct := placed.distinct explored.distinct
  ordered := ordered

end Explored

/-- A computation gives a value with the property, or it fails in a way that is allowed. -/
def Ends {Value : Type} (Allowed : Failure → Prop) (post : Value → Prop) :
    Except Failure Value → Prop
  | .ok value => post value
  | .error failure => Allowed failure

theorem Ends.bind {First Second : Type} {Allowed : Failure → Prop} {mid : First → Prop}
    {post : Second → Prop} {result : Except Failure First}
    {continue' : First → Except Failure Second} (first : Ends Allowed mid result)
    (second : ∀ value, result = .ok value → mid value → Ends Allowed post (continue' value)) :
    Ends Allowed post (result >>= continue') := by
  cases result with
  | error failure => exact first
  | ok value => exact second value rfl first

theorem Ends.mono {Value : Type} {Allowed : Failure → Prop} {post weaker : Value → Prop}
    {result : Except Failure Value} (ends : Ends Allowed post result)
    (weakens : ∀ value, post value → weaker value) : Ends Allowed weaker result := by
  cases result with
  | error failure => exact ends
  | ok value => exact weakens value ends

theorem Ends.ne {Value : Type} {Allowed : Failure → Prop} {post : Value → Prop}
    {result : Except Failure Value} (ends : Ends Allowed post result) {failure : Failure}
    (excluded : ¬ Allowed failure) : result ≠ .error failure := by
  rintro rfl
  exact excluded ends

theorem Ends.and_ok {Value : Type} {Allowed : Failure → Prop} {post other : Value → Prop}
    {result : Except Failure Value} (ends : Ends Allowed post result)
    (ok : ∀ value, result = .ok value → other value) :
    Ends Allowed (fun value => other value ∧ post value) result := by
  cases result with
  | error failure => exact ends
  | ok value => exact ⟨ok value rfl, ends⟩

theorem Ends.of_ok {Value : Type} {post : Value → Prop} {result : Except Failure Value}
    (ok : ∀ value, result = .ok value → post value) : Ends (fun _ => True) post result := by
  cases result with
  | error failure => exact trivial
  | ok value => exact ok value rfl

theorem bind_ok {First Second : Type} {result : Except Failure First}
    {continue' : First → Except Failure Second} {value : Second}
    (ok : (result >>= continue') = .ok value) :
    ∃ first, result = .ok first ∧ continue' first = .ok value := by
  cases result with
  | error failure => cases ok
  | ok first => exact ⟨first, rfl, ok⟩

/-- Whatever its exits are, the vertex has got the distance and the parent. -/
theorem Manager.spfNexthopCalculation_reach {manager : Manager} {root : Ipv4Address}
    {v w reached : SPFVertex} {l : Option LinkRecord} {distance : BitVec 32}
    (ok : manager.spfNexthopCalculation root v w l distance = .ok reached) :
    reached.lsa = w.lsa ∧ reached.distanceFromRoot = distance ∧
      reached.parents = [v.vertexId] := by
  have through : ∀ passed, Manager.spfNexthopsThrough v w = .ok passed → passed.lsa = w.lsa := by
    intro passed ok
    simp only [Manager.spfNexthopsThrough] at ok
    split at ok
    · cases ok
      rfl
    · obtain ⟨exit, _, ok⟩ := bind_ok ok
      split at ok
      · cases ok
        rfl
      · cases ok
  simp only [Manager.spfNexthopCalculation] at ok
  split at ok
  · split at ok
    · split at ok
      · cases ok
      · cases ok
      · cases ok
        exact ⟨rfl, rfl, rfl⟩
    · cases ok
      exact ⟨rfl, rfl, rfl⟩
  · split at ok
    · split at ok
      · split at ok
        · cases ok
        · obtain ⟨passed, passes, ok⟩ := bind_ok ok
          cases ok
          exact ⟨through passed passes, rfl, rfl⟩
      · obtain ⟨exit, _, ok⟩ := bind_ok ok
        cases ok
        exact ⟨rfl, rfl, rfl⟩
    · cases ok
      exact ⟨rfl, rfl, rfl⟩

section Links

variable {manager : Manager} {root : Ipv4Address} {current : SPFVertex} {Allowed : Failure → Prop}
  {P : (Hop → Prop) → SPFState → Prop} {Done : Hop → Prop} {state : SPFState}

variable (bidirectional : manager.lsdb.Bidirectional) (fits : Fits manager.lsdb root)
  (advertised : current.lsa ∈ manager.lsdb.database)
  (least : manager.lsdb.graph.Distance root current.vertexId current.distance)
  (assertion : Allowed .assertion)
  (congr : ∀ {Done Done' : Hop → Prop} {state},
    (∀ hop w, manager.lsdb.graph.Link current.vertexId hop w → (Done' hop ↔ Done hop)) →
    P Done state → P Done' state)
  (consider : ∀ {Done hop state wLsa l distance}, wLsa ∈ manager.lsdb.database →
    manager.lsdb.graph.Link current.vertexId hop wLsa.linkStateId →
    (∀ x, manager.lsdb.graph.Link current.vertexId hop x → x = wLsa.linkStateId) →
    (∀ l', hop = .link l' → l = some l') →
    distance.toNat = current.distance + manager.lsdb.graph.cost hop → P Done state →
    Ends Allowed (P fun other => Done other ∨ other = hop)
      (manager.consider root current wLsa l distance state))

include fits advertised least assertion congr consider in
/-- The loop over the links of a router takes them into account one by one. -/
theorem spfNextLinks_ends (router : current.vertexType = .routerLSA)
    {records : List LinkRecord} (listed : records ⊆ current.lsa.linkRecords)
    (start : P Done state) :
    Ends Allowed (P fun hop => Done hop ∨ ∃ record ∈ records, hop = .link record)
      (manager.spfNextLinks root current records state) := by
  induction records generalizing Done state with
  | nil => exact congr (by simp) start
  | cons l rest inductionHypothesis =>
      obtain ⟨here, listed'⟩ := List.cons_subset.mp listed
      have transit : ∀ wLsa, l.linkType = .pointToPoint ∨ l.linkType = .transitNetwork →
          manager.lsdb.getLSA l.linkId = some wLsa →
          Ends Allowed (P fun hop => Done hop ∨ ∃ record ∈ l :: rest, hop = .link record)
            (manager.consider root current wLsa (some l)
              (current.distanceFromRoot + l.metric.setWidth 32) state >>=
              manager.spfNextLinks root current rest) := by
        intro wLsa kind found
        obtain ⟨there, named⟩ := LSDB.getLSA_spec found
        have link : manager.lsdb.graph.Link current.vertexId (.link l) wLsa.linkStateId :=
          ⟨current.lsa, advertised, rfl, router, here, kind, named.symm, wLsa, there, rfl⟩
        have only : ∀ x, manager.lsdb.graph.Link current.vertexId (.link l) x →
            x = wLsa.linkStateId := by
          rintro x ⟨_, _, _, _, _, _, rfl, _⟩
          exact named.symm
        have bound := fits _ _ _ _ least link
        have sum : (current.distanceFromRoot + l.metric.setWidth 32).toNat =
            current.distance + manager.lsdb.graph.cost (.link l) := by
          have metric : (l.metric.setWidth 32).toNat = l.metric.toNat := by
            simp only [BitVec.toNat_setWidth]
            omega
          rw [BitVec.toNat_add, metric]
          exact Nat.mod_eq_of_lt bound
        refine Ends.bind (consider there link only (by simp) sum start) fun next _ considered => ?_
        refine (inductionHypothesis listed' considered).mono fun later => congr ?_
        intro hop w _
        rw [List.exists_mem_cons_iff, or_assoc]
      simp only [Manager.spfNextLinks]
      split
      case h_1 stub =>
        refine (inductionHypothesis listed' start).mono fun later => congr ?_
        intro hop w link
        rw [List.exists_mem_cons_iff, or_congr_right]
        refine or_iff_right ?_
        rintro rfl
        obtain ⟨_, _, _, _, _, kind, _⟩ := link
        simp [stub] at kind
      · exact assertion
      · exact assertion
      case h_4 notStub notUnknown notVirtual =>
        have kind : l.linkType = .pointToPoint ∨ l.linkType = .transitNetwork := by
          cases found : l.linkType <;> simp_all
        split
        · exact assertion
        case h_2 wLsa found => exact transit wLsa kind found

include bidirectional advertised congr consider in
/-- The loop over the attached routers of a network takes them into account one by one. -/
theorem spfNextRouters_ends (network : current.vertexType = .networkLSA)
    {routers : List Ipv4Address} (listed : routers ⊆ current.lsa.attachedRouters)
    (start : P Done state) :
    Ends Allowed (P fun hop => Done hop ∨ ∃ address ∈ routers, hop = .attached address)
      (manager.spfNextRouters root current routers state) := by
  induction routers generalizing Done state with
  | nil => exact congr (by simp) start
  | cons attached rest inductionHypothesis =>
      obtain ⟨here, listed'⟩ := List.cons_subset.mp listed
      simp only [Manager.spfNextRouters]
      split
      case h_1 absent =>
        refine (inductionHypothesis listed' start).mono fun later => congr ?_
        intro hop w link
        rw [List.exists_mem_cons_iff, or_congr_right]
        refine or_iff_right ?_
        rintro rfl
        obtain ⟨_, _, _, _, _, wLsa, there, _, record, listed, transit, _, same⟩ := link
        exact LSDB.getLSAByLinkData_none absent there listed transit same
      case h_2 wLsa found =>
        obtain ⟨there, record, listed'', transit, data⟩ := LSDB.getLSAByLinkData_spec found
        obtain ⟨_, owner, owned, _, own, member, kind, back, same⟩ :=
          bidirectional.attachedRouter current.lsa advertised attached here
        obtain ⟨rfl, linkId⟩ := bidirectional.interface wLsa there owner owned record listed'' own
          member transit kind (data.trans same.symm)
        have link : manager.lsdb.graph.Link current.vertexId (.attached attached)
            wLsa.linkStateId :=
          ⟨current.lsa, advertised, rfl, network, here, wLsa, there, rfl, record, listed'',
            transit, linkId.trans back, data⟩
        have only : ∀ x, manager.lsdb.graph.Link current.vertexId (.attached attached) x →
            x = wLsa.linkStateId := by
          rintro x ⟨_, _, _, _, _, other, present, rfl, entry, entered, kind', _, data'⟩
          rw [(bidirectional.interface other present wLsa there entry entered record listed''
            kind' transit (data'.trans data.symm)).1]
        refine Ends.bind (consider there link only (by simp) rfl start) fun next _ considered => ?_
        refine (inductionHypothesis listed' considered).mono fun later => congr ?_
        intro hop w _
        rw [List.exists_mem_cons_iff, or_assoc]

include bidirectional fits advertised least assertion congr consider in
/-- `SPFNext` takes all links of the vertex into account. -/
theorem spfNext_ends (start : P (fun _ => False) state) :
    Ends Allowed (P fun _ => True) (manager.spfNext root current state) := by
  have own : ∀ lsa ∈ manager.lsdb.database, lsa.linkStateId = current.vertexId →
      lsa = current.lsa := fun lsa found named => LSDB.distinct_ids found advertised named
  simp only [Manager.spfNext]
  split
  case h_1 router =>
    refine (spfNextLinks_ends (P := P) fits advertised least assertion congr consider router
      (List.Subset.refl _) start).mono fun later => congr ?_
    rintro (record | address) w link
    · obtain ⟨lsa, found, named, _, listed, _⟩ := link
      rw [own lsa found named] at listed
      simpa using listed
    · obtain ⟨lsa, found, named, network, _⟩ := link
      rw [own lsa found named] at network
      rw [SPFVertex.vertexType, network] at router
      cases router
  case h_2 network =>
    refine (spfNextRouters_ends (P := P) bidirectional advertised congr consider network
      (List.Subset.refl _) start).mono fun later => congr ?_
    rintro (record | address) w link
    · obtain ⟨lsa, found, named, router, _⟩ := link
      rw [own lsa found named] at router
      rw [SPFVertex.vertexType, router] at network
      cases network
    · obtain ⟨lsa, found, named, _, listed, _⟩ := link
      rw [own lsa found named] at listed
      simpa using listed

end Links

namespace Explored

variable {manager : Manager} {root : Ipv4Address} {tree : List SPFVertex}
  {current : SPFVertex} {Done : Hop → Prop} {state later : SPFState}

/-- A link is taken into account. -/
theorem consider {hop : Hop} {wLsa : LSA} {l : Option LinkRecord} {distance : BitVec 32}
    (explored : Explored manager.lsdb root tree current Done state)
    (found : wLsa ∈ manager.lsdb.database)
    (link : manager.lsdb.graph.Link current.vertexId hop wLsa.linkStateId)
    (only : ∀ x, manager.lsdb.graph.Link current.vertexId hop x → x = wLsa.linkStateId)
    (sum : distance.toNat = current.distance + manager.lsdb.graph.cost hop)
    (ok : manager.consider root current wLsa l distance state = .ok later) :
    Explored manager.lsdb root tree current (fun other => Done other ∨ other = hop) later := by
  have walked : ∃ trail, manager.lsdb.graph.Walk root wLsa.linkStateId trail ∧
      manager.lsdb.graph.length trail = distance.toNat := by
    obtain ⟨⟨trail, walk, length⟩, _⟩ := explored.current_distance
    exact ⟨trail ++ [hop], walk.step link, by rw [Library.Graph.length_concat, length, sum]⟩
  have beyond : current.distance ≤ distance.toNat := by omega
  simp only [Manager.consider] at ok
  split at ok
  case h_1 status =>
    cases ok
    exact explored.skip only (.inl ((explored.inTree _).mp status))
  case h_2 status =>
    obtain ⟨w, reaches, ok⟩ := bind_ok ok
    obtain ⟨lsa, reached, _⟩ := Manager.spfNexthopCalculation_reach reaches
    replace lsa : w.lsa = wLsa := lsa
    have distance' : w.distance = distance.toNat := by rw [SPFVertex.distance, reached]
    have named : w.vertexId = wLsa.linkStateId := by rw [SPFVertex.vertexId, lsa]
    have absent : ∀ vertex ∈ state.candidate, vertex.vertexId ≠ w.vertexId := by
      intro vertex member same
      have marked := (explored.isCandidate _).mpr ⟨vertex, member, same⟩
      rw [named, status] at marked
      simp at marked
    cases ok
    rw [← named] at status walked only ⊢
    exact explored.place (.push absent) only (lsa ▸ found) (distance' ▸ walked) (by omega)
      (by omega) (fun vertex member same => absurd same (absent vertex member)) (by simp [status])
      (CandidateQueue.ordered_push explored.ordered)
  case h_3 status =>
    split at ok
    · cases ok
    case h_2 cw candidate =>
      obtain ⟨there, named⟩ := CandidateQueue.find_spec candidate
      have outside : state.status cw.vertexId ≠ .inSPFTree := by simp [named, status]
      rw [← named] at ok status walked only
      split at ok
      case isTrue less =>
        cases ok
        refine explored.skip only (.inr ⟨cw, there, rfl, ?_⟩)
        have nearer : cw.distance < distance.toNat := BitVec.lt_def.mp less
        omega
      case isFalse notLess =>
        split at ok
        case isTrue same =>
          obtain ⟨w, _, ok⟩ := bind_ok ok
          cases ok
          have equal : cw.distance = distance.toNat := by rw [SPFVertex.distance, same]
          refine explored.place (.replace there status rfl) only (explored.candidateLsa cw there)
            (explored.search.walked _ _ ⟨cw, there, rfl, rfl⟩) (beyond.trans_eq equal.symm)
            (by rw [← sum]; exact equal.le) ?_ outside ?_
          · intro vertex member same
            rw [explored.distinct.eq member there same]
            rfl
          · exact CandidateQueue.ordered_replace explored.ordered explored.distinct there rfl
              rfl rfl
        case isFalse different =>
          obtain ⟨w, reaches, ok⟩ := bind_ok ok
          cases ok
          obtain ⟨lsa, reached, _⟩ := Manager.spfNexthopCalculation_reach reaches
          have distance' : w.distance = distance.toNat := by rw [SPFVertex.distance, reached]
          have named' : w.vertexId = cw.vertexId := by rw [SPFVertex.vertexId, lsa]; rfl
          have farther : distance.toNat ≤ cw.distance := Nat.not_lt.mp notLess
          rw [← named'] at walked only
          refine explored.place (Placed.replace there status named').reorder only
            (lsa ▸ explored.candidateLsa cw there) (distance' ▸ walked) (by omega) (by omega) ?_
            (named' ▸ outside) CandidateQueue.ordered_reorder
          intro vertex member same
          rw [explored.distinct.eq member there (same.trans named'), distance']
          exact farther

/-- After `SPFNext` all links of the tree are taken into account. -/
theorem next (bidirectional : manager.lsdb.Bidirectional) (fits : Fits manager.lsdb root)
    (explored : Explored manager.lsdb root tree current (fun _ => False) state)
    (ok : manager.spfNext root current state = .ok later) :
    Explored manager.lsdb root tree current (fun _ => True) later := by
  have ends : Ends (fun _ => True) _ (manager.spfNext root current state) :=
    spfNext_ends bidirectional fits (explored.treeLsa current explored.newest)
      explored.current_distance trivial
      (P := fun Done state => Explored manager.lsdb root tree current Done state)
      (fun same explored => explored.congr fun hop w link => (same hop w link).mp)
      (fun found link only _ sum explored =>
        Ends.of_ok fun later => explored.consider found link only sum) explored
  rw [ok] at ends
  exact ends

variable {w : SPFVertex} {rest : CandidateQueue}

/-- A candidate is not in the tree. -/
theorem fresh (explored : Explored manager.lsdb root tree current Done state)
    (found : w ∈ state.candidate) : ∀ vertex ∈ tree, vertex.vertexId ≠ w.vertexId := by
  intro vertex member same
  have marked := (explored.inTree _).mpr ⟨vertex, member, same⟩
  rw [(explored.isCandidate _).mpr ⟨w, found, rfl⟩] at marked
  simp at marked

/-- The first candidate is the closest. -/
theorem first_closest (explored : Explored manager.lsdb root tree current Done state)
    (first : state.candidate = w :: rest) : ∀ vertex ∈ state.candidate,
      w.distance ≤ vertex.distance := by
  intro vertex member
  have ordered : Ordered (w :: rest) := first ▸ explored.ordered
  rw [first] at member
  rcases List.mem_cons.mp member with rfl | further
  · exact le_rfl
  · exact CandidateQueue.first_le ordered further

/-- What is closer than the first candidate is in the tree. -/
theorem near (explored : Explored manager.lsdb root tree current (fun _ => True) state)
    (first : state.candidate = w :: rest) {v : Ipv4Address} {trail : List Hop}
    (walk : manager.lsdb.graph.Walk root v trail) :
    (∃ distance, Listed tree v distance) ∨ w.distance ≤ manager.lsdb.graph.length trail := by
  rcases explored.search.frontier (fun _ _ _ _ _ _ => .inr trivial) walk with
    ⟨distance, inside, _⟩ | ⟨_, _, ⟨vertex, member, _, rfl⟩, bound⟩
  · exact .inl ⟨distance, inside⟩
  · exact .inr ((explored.first_closest first vertex member).trans bound)

/-- The first candidate enters the tree. -/
theorem pop (explored : Explored manager.lsdb root tree current (fun _ => True) state)
    (first : state.candidate = w :: rest) :
    Explored manager.lsdb root (w :: tree) w (fun _ => False)
      ⟨Function.update state.status w.vertexId .inSPFTree, rest⟩ := by
  have there : w ∈ state.candidate := by simp [first]
  have fresh := explored.fresh there
  have ordered : Ordered (w :: rest) := first ▸ explored.ordered
  have distinct : Distinct (w :: rest) := first ▸ explored.distinct
  obtain ⟨alone, distinctRest⟩ := List.nodup_cons.mp distinct
  have others : ∀ vertex ∈ rest, vertex.vertexId ≠ w.vertexId :=
    fun vertex member same => alone (List.mem_map.mpr ⟨vertex, member, same⟩)
  constructor
  case search =>
    have candidate : Listed state.candidate w.vertexId w.distance := ⟨w, there, rfl, rfl⟩
    refine explored.search.settle (fun _ _ _ _ _ _ => .inr trivial) candidate
      ?_ ?_ ?_ ?_ ?_ ?_
    · rintro other farther ⟨vertex, member, _, rfl⟩
      exact explored.first_closest first vertex member
    · rintro other ⟨vertex, member, same, _⟩
      exact fresh vertex member same
    · intro other farther
      simp only [Listed, List.exists_mem_cons_iff, or_comm, eq_comm]
    · rintro other farther ⟨vertex, member, found⟩
      exact ⟨vertex, by simp [first, member], found⟩
    · rintro other farther ⟨vertex, member, rfl, rfl⟩
      rw [first] at member
      rcases List.mem_cons.mp member with rfl | further
      · exact .inl rfl
      · exact .inr ⟨vertex, further, rfl, rfl⟩
    · simp
  case newest => simp
  case farthest =>
    intro vertex member
    rcases List.mem_cons.mp member with rfl | further
    · exact le_rfl
    · exact explored.search.ordered _ _ _ _ ⟨vertex, further, rfl, rfl⟩ ⟨w, there, rfl, rfl⟩
  case treeLsa =>
    intro vertex member
    rcases List.mem_cons.mp member with rfl | further
    · exact explored.candidateLsa vertex there
    · exact explored.treeLsa vertex further
  case candidateLsa =>
    intro vertex member
    exact explored.candidateLsa vertex (by simp [first, show vertex ∈ rest from member])
  case inTree =>
    intro id
    simp only [Function.update_apply, List.exists_mem_cons_iff, ← explored.inTree id]
    split
    case isTrue same => simp [same]
    case isFalse different => simp [Ne.symm different]
  case isCandidate =>
    intro id
    simp only [Function.update_apply]
    split
    case isTrue same =>
      subst same
      constructor
      · simp
      · rintro ⟨vertex, member, same⟩
        exact absurd same (others vertex member)
    case isFalse different =>
      rw [explored.isCandidate id, first]
      simp [Ne.symm different]
  case distinctTree =>
    rw [Distinct, List.map_cons, List.nodup_cons]
    refine ⟨fun member => ?_, explored.distinctTree⟩
    obtain ⟨vertex, inside, same⟩ := List.mem_map.mp member
    exact fresh vertex inside same
  case distinct => exact distinctRest
  case ordered => exact (List.pairwise_cons.mp ordered).2

end Explored

/-- A calculation starts from a tree that has only the root. -/
theorem Explored.initial {manager : Manager} {root : Ipv4Address} {lsa : LSA}
    (found : manager.lsdb.getLSA root = some lsa) :
    Explored manager.lsdb root [{ lsa, distanceFromRoot := 0 }] { lsa, distanceFromRoot := 0 }
      (fun _ => False) ⟨Function.update (fun _ => .notExplored) root .inSPFTree, []⟩ := by
  obtain ⟨there, named⟩ := LSDB.getLSA_spec found
  have settled : Listed [{ lsa, distanceFromRoot := 0 }] =
      fun vertex distance => vertex = root ∧ distance = 0 := by
    funext vertex distance
    simp [Listed, SPFVertex.vertexId, SPFVertex.distance, named, eq_comm]
  have candidates : Listed [] = fun _ _ => False := by
    funext vertex distance
    simp [Listed]
  constructor
  case search =>
    have start := @Library.Graph.Search.initial _ _ manager.lsdb.graph root
    rw [← settled, ← candidates] at start
    exact start.relax start.walked start.ordered
      (fun _ distance candidate => ⟨distance, candidate, le_rfl⟩)
      fun v distance hop w _ _ seen => .inl (by simpa [SPFVertex.vertexId, named] using seen)
  case inTree =>
    intro id
    simp [Function.update_apply, SPFVertex.vertexId, named, eq_comm]
  case isCandidate =>
    intro id
    by_cases same : id = root <;> simp [same]
  all_goals simp [there, Distinct, Ordered]

end Ns3.Internet.GlobalRouting
