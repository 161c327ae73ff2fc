import Ns3.Internet.GlobalRouting.Exploration

/-!
How the shortest paths leave the root, and what `SPFNexthopCalculation` makes of it.

A link state database does not tell which two of several links between a pair of routers belong
together. `farEnd` gives the address at the other end of a point to point link. The calculation
reads this off the first link record that names the root, and the interface to a network off its
prefix, and it asks a network for a single exit. `Unambiguous` says that all this is right along
the shortest paths.
-/

namespace Ns3.Internet.GlobalRouting

open Library

/-- How a path leaves the root; a network next to the root has no next hop. -/
structure FirstHop where
  nextHop : Option Ipv4Address
  interface : Int
  deriving DecidableEq, Repr

/-- The exit direction, whose next hop is 0.0.0.0 if there is none. -/
def FirstHop.exit (first : FirstHop) : NodeExit := (first.nextHop.getD 0, first.interface)

section Definitions

variable (manager : Manager) (farEnd : Ipv4Address → Ipv4Address) (root : Ipv4Address)

/-- The interface of the root that has an address. -/
def Manager.nearInterface (address : Ipv4Address) : Int :=
  manager.findOutgoingInterfaceId root address (BitVec.allOnes 32)

/-- The first hop of a path: over a point to point link to its far end, or over a network to
the attached router. -/
def firstHop : List Hop → Option FirstHop
  | .link l :: rest =>
      if l.linkType = .pointToPoint then
        some ⟨some (farEnd l.linkData), manager.nearInterface root l.linkData⟩
      else
        match rest with
        | [] => some ⟨none, manager.nearInterface root l.linkData⟩
        | .attached address :: _ => some ⟨some address, manager.nearInterface root l.linkData⟩
        | .link _ :: _ => none
  | _ => none

/-- A shortest path to the vertex leaves the root in the direction. -/
def Leaves (vertex : Ipv4Address) (exit : NodeExit) : Prop :=
  ∃ trail first, manager.lsdb.graph.Shortest root vertex trail ∧
    firstHop manager farEnd root trail = some first ∧ first.exit = exit

/-- A shortest path to the vertex that goes on over the hop leaves the root in the
direction. -/
def LeavesOver (vertex : Ipv4Address) (hop : Hop) (exit : NodeExit) : Prop :=
  ∃ trail first, manager.lsdb.graph.Shortest root vertex trail ∧
    firstHop manager farEnd root (trail ++ [hop]) = some first ∧ first.exit = exit

/-- The point to point links are joined to those at their far ends. -/
def Joined (lsdb : LSDB) : Prop :=
  ∀ v ∈ lsdb.database, ∀ record ∈ v.linkRecords, record.linkType = .pointToPoint →
    ∃ w ∈ lsdb.database, w.linkStateId = record.linkId ∧ ∃ back ∈ w.linkRecords,
      back.linkType = .pointToPoint ∧ back.linkId = v.linkStateId ∧
        back.linkData = farEnd record.linkData ∧ farEnd back.linkData = record.linkData

/-- What the calculation takes for granted about the links of shortest paths. -/
structure Unambiguous : Prop where
  /-- The links of routers cost something. -/
  positive : ∀ v record w, manager.lsdb.graph.Tight root v (.link record) w →
    0 < record.metric.toNat
  /-- The first link record that names the root is that of the far end. -/
  remote : ∀ record w, manager.lsdb.graph.Tight root root (.link record) w.linkStateId →
    w ∈ manager.lsdb.database → record.linkType = .pointToPoint →
    ∃ back, w.linkRecords.find? (·.linkId == root) = some back ∧
      back.linkData = farEnd record.linkData
  /-- The interface for the prefix of a network is that of the link to it. -/
  interface : ∀ record w, manager.lsdb.graph.Tight root root (.link record) w.linkStateId →
    w ∈ manager.lsdb.database → record.linkType = .transitNetwork →
    manager.findOutgoingInterfaceId root w.linkStateId w.networkLSANetworkMask =
      manager.nearInterface root record.linkData
  /-- A router behind a network next to the root has one link to the network. -/
  attached : ∀ record network address w,
    manager.lsdb.graph.Tight root root (.link record) network →
    manager.lsdb.graph.Tight root network (.attached address) w.linkStateId →
    w ∈ manager.lsdb.database → ∃ back, w.linkRecords.filter (·.linkId == network) = [back]
  /-- All shortest paths to a network that go on from it have the same first hop. -/
  single : ∀ network address w, manager.lsdb.graph.Tight root network (.attached address) w →
    ∀ trail other, manager.lsdb.graph.Shortest root network trail →
      manager.lsdb.graph.Shortest root network other →
      firstHop manager farEnd root trail = firstHop manager farEnd root other

end Definitions

section Links

variable {id : Ipv4Address} {records : List LinkRecord} {record : LinkRecord}

theorem nextLink_find : nextLink id records false true = records.find? (·.linkId == id) := by
  induction records with
  | nil => rfl
  | cons l rest inductionHypothesis =>
      by_cases same : l.linkId = id <;> simp [nextLink, same, inductionHypothesis]

theorem nextLink_skip (absent : ∀ l ∈ records, l.linkId ≠ id) (skip found : Bool) :
    nextLink id records skip found = none := by
  induction records with
  | nil => rfl
  | cons l rest inductionHypothesis =>
      obtain ⟨different, absent⟩ := List.forall_mem_cons.mp absent
      simp [nextLink, different, inductionHypothesis absent]

/-- There is no link after the only one. -/
theorem nextLink_single (single : records.filter (·.linkId == id) = [record]) :
    nextLink id records true false = none := by
  induction records with
  | nil => simp at single
  | cons l rest inductionHypothesis =>
      by_cases same : l.linkId = id
      · obtain ⟨_, none⟩ : l = record ∧ rest.filter (·.linkId == id) = [] := by
          simpa [same] using single
        simp only [nextLink, same, if_true]
        exact nextLink_skip (by simpa using none) _ _
      · simpa [nextLink, same] using inductionHypothesis (by simpa [same] using single)

end Links

section Kinds

variable {lsdb : LSDB} {v w : LSA} {hop : Hop}

/-- A link leads from a router to a router or a network, or from a network to a router. -/
theorem LSDB.Bidirectional.link_kinds (bidirectional : lsdb.Bidirectional)
    (start : v ∈ lsdb.database) (target : w ∈ lsdb.database)
    (link : lsdb.graph.Link v.linkStateId hop w.linkStateId) :
    (∃ record, hop = .link record ∧ v.lsType = .routerLSA ∧
      (record.linkType = .pointToPoint ∧ w.lsType = .routerLSA ∨
        record.linkType = .transitNetwork ∧ w.lsType = .networkLSA)) ∨
    (∃ address, hop = .attached address ∧ v.lsType = .networkLSA ∧ w.lsType = .routerLSA ∧
      ∃ record ∈ w.linkRecords, record.linkId = v.linkStateId ∧ record.linkData = address) := by
  cases hop with
  | link record =>
      obtain ⟨lsa, found, same, router, listed, kind, named, _⟩ := link
      obtain rfl := LSDB.distinct_ids found start same
      refine .inl ⟨record, rfl, router, ?_⟩
      rcases kind with pointToPoint | transit
      · obtain ⟨_, other, there, same', kind', _⟩ :=
          bidirectional.pointToPoint lsa start record listed pointToPoint
        obtain rfl := LSDB.distinct_ids there target (same'.trans named)
        exact .inl ⟨pointToPoint, kind'⟩
      · obtain ⟨_, other, there, same', kind', _⟩ :=
          bidirectional.transitNetwork lsa start record listed transit
        obtain rfl := LSDB.distinct_ids there target (same'.trans named)
        exact .inr ⟨transit, kind'⟩
  | attached address =>
      obtain ⟨lsa, found, same, network, _, other, there, same', record, listed, transit, back,
        data⟩ := link
      obtain rfl := LSDB.distinct_ids found start same
      obtain rfl := LSDB.distinct_ids there target same'
      have router := (bidirectional.transitNetwork other there record listed transit).1
      exact .inr ⟨address, rfl, network, router, record, listed, back, data⟩

/-- The ends of a link are advertised. -/
theorem LSDB.link_ends {start target : Ipv4Address} (link : lsdb.graph.Link start hop target) :
    ∃ v ∈ lsdb.database, v.linkStateId = start ∧ ∃ w ∈ lsdb.database, w.linkStateId = target := by
  cases hop with
  | link record =>
      obtain ⟨v, found, same, _, _, _, _, w, there, same'⟩ := link
      exact ⟨v, found, same, w, there, same'⟩
  | attached address =>
      obtain ⟨v, found, same, _, _, w, there, same', _⟩ := link
      exact ⟨v, found, same, w, there, same'⟩

end Kinds

section Paths

variable {manager : Manager} {farEnd : Ipv4Address → Ipv4Address} {root v w : Ipv4Address}
  {hop : Hop} {trail : List Hop}

/-- Only a single link leaves without a next hop. -/
theorem firstHop_direct {interface : Int}
    (direct : firstHop manager farEnd root trail = some ⟨none, interface⟩) :
    ∃ l, trail = [.link l] ∧ l.linkType ≠ .pointToPoint ∧
      manager.nearInterface root l.linkData = interface := by
  match trail with
  | [] => simp [firstHop] at direct
  | .attached _ :: _ => simp [firstHop] at direct
  | .link l :: rest =>
      simp only [firstHop] at direct
      split at direct
      · simp at direct
      case isFalse kind =>
        match rest with
        | [] => exact ⟨l, rfl, kind, by simpa using direct⟩
        | .attached _ :: _ => simp at direct
        | .link _ :: _ => simp at direct

/-- Further hops change the first one only after a single link to a network. -/
theorem firstHop_concat (different : trail ≠ [])
    (longer : ∀ l, trail = [.link l] → l.linkType = .pointToPoint) :
    firstHop manager farEnd root (trail ++ [hop]) = firstHop manager farEnd root trail := by
  match trail with
  | [] => exact absurd rfl different
  | .attached _ :: _ => rfl
  | [.link l] => simp [firstHop, longer l rfl]
  | .link l :: .attached _ :: _ => simp [firstHop]
  | .link l :: .link _ :: _ => simp [firstHop]

variable (bidirectional : manager.lsdb.Bidirectional)
include bidirectional

/-- Beyond a router the first hop stays what it was. -/
theorem firstHop_router {lsa : LSA} (found : lsa ∈ manager.lsdb.database)
    (router : lsa.lsType = .routerLSA) (away : lsa.linkStateId ≠ root)
    (walk : manager.lsdb.graph.Walk root lsa.linkStateId trail) :
    firstHop manager farEnd root (trail ++ [hop]) = firstHop manager farEnd root trail := by
  refine firstHop_concat ?_ ?_
  · rintro rfl
    exact away walk.nil
  · rintro l rfl
    have link := walk.single
    obtain ⟨start, started, named, _⟩ := LSDB.link_ends link
    rcases bidirectional.link_kinds started found (named ▸ link) with
      ⟨record, same, _, ⟨pointToPoint, _⟩ | ⟨_, network⟩⟩ | ⟨_, same, _⟩
    · cases same
      exact pointToPoint
    · rw [router] at network
      cases network
    · cases same

/-- Every path of a router leaves it somehow. -/
theorem firstHop_isSome {lsa : LSA} (found : lsa ∈ manager.lsdb.database)
    (named : lsa.linkStateId = root) (router : lsa.lsType = .routerLSA)
    (walk : manager.lsdb.graph.Walk root v trail) (away : trail ≠ []) :
    ∃ first, firstHop manager farEnd root trail = some first := by
  induction walk with
  | root => exact absurd rfl away
  | @step vertex next start hop walk link inductionHypothesis =>
      obtain ⟨here, present, rfl, there, target, rfl⟩ := LSDB.link_ends link
      have kinds := bidirectional.link_kinds present target link
      by_cases empty : start = []
      · subst empty
        obtain rfl := LSDB.distinct_ids present found (walk.nil.trans named.symm)
        rcases kinds with ⟨record, rfl, _⟩ | ⟨_, rfl, network, _⟩
        · simp only [List.nil_append, firstHop]
          split <;> exact ⟨_, rfl⟩
        · rw [router] at network
          cases network
      · obtain ⟨first, before⟩ := inductionHypothesis empty
        by_cases longer : ∀ l, start = [.link l] → l.linkType = .pointToPoint
        · exact ⟨first, (firstHop_concat empty longer).trans before⟩
        · simp only [not_forall] at longer
          obtain ⟨l, rfl, transit⟩ := longer
          -- The link leads to a network, and the walk goes on to an attached router.
          have direct := walk.single
          rw [← named] at direct
          rcases bidirectional.link_kinds found present direct with
            ⟨record, same, _, ⟨pointToPoint, _⟩ | ⟨_, network⟩⟩ | ⟨_, same, _⟩
          · cases same
            exact absurd pointToPoint transit
          · rcases kinds with ⟨_, _, impossible, _⟩ | ⟨address, rfl, _⟩
            · rw [network] at impossible
              cases impossible
            · exact ⟨⟨some address, manager.nearInterface root l.linkData⟩,
                by simp [firstHop, transit]⟩
          · cases same

end Paths

/-- A vertex of the tree has the exits of its shortest paths, each once, and its first parent is
on one of them. -/
structure Directed (manager : Manager) (farEnd : Ipv4Address → Ipv4Address) (root : Ipv4Address)
    (v : SPFVertex) : Prop where
  advertised : v.lsa ∈ manager.lsdb.database
  nodup : v.ecmpRootExits.Nodup
  exits : v.vertexId ≠ root → ∀ exit, exit ∈ v.ecmpRootExits ↔
    Leaves manager farEnd root v.vertexId exit
  parent : v.vertexId ≠ root → ∃ p hop, v.parents.head? = some p ∧
    manager.lsdb.graph.Tight root p hop v.vertexId

section Calculation

variable {manager : Manager} {farEnd : Ipv4Address → Ipv4Address} {root : Ipv4Address}
  {rootLsa : LSA} (bidirectional : manager.lsdb.Bidirectional)
  (clear : Unambiguous manager farEnd root) (found : rootLsa ∈ manager.lsdb.database)
  (named : rootLsa.linkStateId = root) (router : rootLsa.lsType = .routerLSA)
include bidirectional clear found named router

/-- A network is farther than the root. -/
theorem network_away {lsa : LSA} (present : lsa ∈ manager.lsdb.database)
    (network : lsa.lsType = .networkLSA) {distance : Nat}
    (least : manager.lsdb.graph.Distance root lsa.linkStateId distance) : 0 < distance := by
  obtain ⟨trail, shortest, rfl⟩ := least.shortest
  rcases shortest.last with ⟨same, _⟩ | ⟨before, hop, start, rfl, _, tight⟩
  · obtain rfl := LSDB.distinct_ids present found (same.trans named.symm)
    rw [router] at network
    cases network
  · obtain ⟨here, started, rfl, _⟩ := LSDB.link_ends tight.1
    rcases bidirectional.link_kinds started present tight.1 with
      ⟨record, rfl, _⟩ | ⟨_, _, _, impossible, _⟩
    · have positive : 0 < manager.lsdb.graph.cost (.link record) := clear.positive _ _ _ tight
      rw [Library.Graph.length_concat]
      omega
    · rw [network] at impossible
      cases impossible

/-- No shortest path returns to the root. -/
theorem shortest_root {trail : List Hop} (shortest : manager.lsdb.graph.Shortest root root trail) :
    trail = [] := by
  rcases shortest.last with ⟨_, empty⟩ | ⟨before, hop, start, rfl, _, tight⟩
  · exact empty
  · exfalso
    have nowhere : manager.lsdb.graph.Distance root root 0 :=
      ⟨⟨[], .root, rfl⟩, fun _ _ => Nat.zero_le _⟩
    obtain ⟨here, started, rfl, _⟩ := LSDB.link_ends tight.1
    obtain ⟨link, distance, least, least'⟩ := id tight
    have sum := nowhere.unique least'
    rcases bidirectional.link_kinds started found (named.symm ▸ link) with
      ⟨record, rfl, _⟩ | ⟨_, _, network, _⟩
    · have positive : 0 < manager.lsdb.graph.cost (.link record) := clear.positive _ _ _ tight
      omega
    · have := network_away bidirectional clear found named router started network least
      omega

/-- A network that paths go on from has one exit, and whether the root is its first parent tells
whether it is next to the root. -/
theorem network_exit {v : SPFVertex} (directed : Directed manager farEnd root v)
    (network : v.vertexType = .networkLSA) (away : v.vertexId ≠ root) {address w : Ipv4Address}
    (tight : manager.lsdb.graph.Tight root v.vertexId (.attached address) w) :
    ∃ first, v.ecmpRootExits = [first.exit] ∧
      (∀ trail, manager.lsdb.graph.Shortest root v.vertexId trail →
        firstHop manager farEnd root trail = some first) ∧
      (v.parents.head? = some root ↔ first.nextHop = none) := by
  obtain ⟨_, distance, least, _⟩ := id tight
  obtain ⟨trail, shortest, _⟩ := least.shortest
  have nonempty : ∀ {vertex trail}, vertex ≠ root →
      manager.lsdb.graph.Shortest root vertex trail → trail ≠ [] := by
    rintro vertex trail away shortest rfl
    exact away shortest.1.nil
  obtain ⟨first, leaves⟩ : ∃ first, firstHop manager farEnd root trail = some first :=
    firstHop_isSome bidirectional found named router shortest.1 (nonempty away shortest)
  have same : ∀ other, manager.lsdb.graph.Shortest root v.vertexId other →
      firstHop manager farEnd root other = some first := by
    intro other shortest'
    rw [← leaves]
    exact clear.single _ _ _ tight _ _ shortest' shortest
  refine ⟨first, ?_, same, ?_⟩
  · refine List.perm_singleton.mp ((List.perm_ext_iff_of_nodup directed.nodup
      (List.nodup_singleton _)).mpr fun exit => ?_)
    rw [directed.exits away, List.mem_singleton]
    constructor
    · rintro ⟨other, first', shortest', leaves', rfl⟩
      rw [same other shortest'] at leaves'
      cases leaves'
      rfl
    · rintro rfl
      exact ⟨trail, first, shortest, leaves, rfl⟩
  · obtain ⟨p, hop, head, last⟩ := directed.parent away
    obtain ⟨here, started, rfl, _⟩ := LSDB.link_ends last.1
    rcases bidirectional.link_kinds started directed.advertised last.1 with
      ⟨record, rfl, _, ⟨_, impossible⟩ | ⟨transit, _⟩⟩ | ⟨_, _, _, impossible, _⟩
    · rw [SPFVertex.vertexType, impossible] at network
      cases network
    · obtain ⟨_, nearest, least', _⟩ := id last
      obtain ⟨start, shortest', _⟩ := least'.shortest
      have crosses := same _ (shortest'.step last)
      rw [head, Option.some_inj]
      constructor
      · intro isRoot
        rw [isRoot] at shortest'
        rw [shortest_root bidirectional clear found named router shortest', List.nil_append,
          firstHop, if_neg (by simp [transit])] at crosses
        cases crosses
        rfl
      · intro direct
        by_contra different
        have single : firstHop manager farEnd root (start ++ [.link record]) =
            some ⟨none, first.interface⟩ := by rw [crosses, ← direct]
        obtain ⟨l, single, _⟩ := firstHop_direct single
        exact nonempty different shortest'
          ((List.append_eq_singleton_iff.mp single).resolve_right (by simp)).1
    · rw [SPFVertex.vertexType, impossible] at network
      cases network

/-- From a network the calculation succeeds, and it gives the exit of the shortest paths. -/
theorem spfNexthopCalculation_network {v w : SPFVertex} (l : Option LinkRecord)
    (distance : BitVec 32) (directed : Directed manager farEnd root v)
    (network : v.vertexType = .networkLSA) (away : v.vertexId ≠ root)
    (target : w.lsa ∈ manager.lsdb.database) {address : Ipv4Address}
    (tight : manager.lsdb.graph.Tight root v.vertexId (.attached address) w.vertexId) :
    ∃ exit, manager.spfNexthopCalculation root v w l distance =
        .ok ((w.setRootExitDirection exit).reach v distance) ∧
      ∀ other, other = exit ↔
        LeavesOver manager farEnd root v.vertexId (.attached address) other := by
  obtain ⟨first, exits, same, nearby⟩ := network_exit bidirectional clear found named router
    directed network away tight
  have direction : v.getRootExitDirection = .ok first.exit := by
    simp [SPFVertex.getRootExitDirection, exits]
  obtain ⟨_, nearest, least, _⟩ := id tight
  obtain ⟨trail, shortest, _⟩ := least.shortest
  by_cases next : v.parents.head? = some root
  · have direct : first = ⟨none, first.interface⟩ := by rw [← nearby.mp next]
    have crosses : ∀ trail, manager.lsdb.graph.Shortest root v.vertexId trail →
        firstHop manager farEnd root (trail ++ [.attached address]) =
          some ⟨some address, first.interface⟩ := by
      intro trail shortest
      have leaves := same trail shortest
      rw [direct] at leaves
      obtain ⟨l, rfl, kind, interface⟩ := firstHop_direct leaves
      simp [firstHop, kind, interface]
    have single : ∃ back, w.lsa.linkRecords.filter (·.linkId == v.vertexId) = [back] ∧
        back.linkData = address := by
      obtain ⟨record, rootTight⟩ : ∃ record,
          manager.lsdb.graph.Tight root root (.link record) v.vertexId := by
        obtain ⟨p, hop, head, last⟩ := directed.parent away
        obtain rfl : root = p := Option.some_inj.mp (next.symm.trans head)
        rcases bidirectional.link_kinds found directed.advertised (named.symm ▸ last.1) with
          ⟨record, rfl, _⟩ | ⟨_, _, impossible, _⟩
        · exact ⟨record, last⟩
        · rw [router] at impossible
          cases impossible
      obtain ⟨back, only⟩ := clear.attached record v.vertexId address w.lsa rootTight tight target
      rcases bidirectional.link_kinds directed.advertised target tight.1 with
        ⟨_, impossible, _⟩ | ⟨_, same', _, _, own, listed, named, rfl⟩
      · cases impossible
      · cases same'
        refine ⟨back, only, ?_⟩
        have member : own ∈ w.lsa.linkRecords.filter (·.linkId == v.vertexId) :=
          List.mem_filter.mpr ⟨listed, beq_iff_eq.mpr named⟩
        rw [only, List.mem_singleton] at member
        rw [member]
    obtain ⟨back, only, data⟩ := single
    have isFirst : spfGetNextLink w v none = some back := by
      refine nextLink_find.trans ?_
      rw [← List.head?_filter, only]
      rfl
    have kind : w.vertexType = .routerLSA := by
      rcases bidirectional.link_kinds directed.advertised target tight.1 with
        ⟨_, impossible, _⟩ | ⟨_, _, _, kind, _⟩
      · cases impossible
      · exact kind
    refine ⟨(address, first.interface), ?_, fun other => ?_⟩
    · have noMore : spfGetNextLink w v (some back) = none := nextLink_single only
      simp only [Manager.spfNexthopCalculation, if_neg away, network, if_pos next, kind,
        Manager.spfNexthopsThrough, isFirst, direction, noMore, data]
      rfl
    · constructor
      · rintro rfl
        exact ⟨trail, _, shortest, crosses trail shortest, rfl⟩
      · rintro ⟨trail', first', shortest', leaves, rfl⟩
        rw [crosses trail' shortest'] at leaves
        cases leaves
        rfl
  · have further : first.nextHop ≠ none := fun direct => next (nearby.mpr direct)
    have crosses : ∀ trail, manager.lsdb.graph.Shortest root v.vertexId trail →
        firstHop manager farEnd root (trail ++ [.attached address]) = some first := by
      intro trail shortest
      rw [← same trail shortest]
      refine firstHop_concat ?_ ?_
      · rintro rfl
        exact away shortest.1.nil
      · rintro l rfl
        by_contra kind
        have leaves := same _ shortest
        simp only [firstHop, if_neg kind] at leaves
        cases leaves
        exact further rfl
    refine ⟨first.exit, ?_, fun other => ?_⟩
    · simp only [Manager.spfNexthopCalculation, if_neg away, network, if_neg next, direction]
      rfl
    · constructor
      · rintro rfl
        exact ⟨trail, first, shortest, crosses trail shortest, rfl⟩
      · rintro ⟨trail', first', shortest', leaves, rfl⟩
        rw [crosses trail' shortest'] at leaves
        cases leaves
        rfl

/-- Over a tight link the calculation gives the exits of the shortest paths over it. -/
theorem spfNexthopCalculation_exits {v w reached : SPFVertex} {l : Option LinkRecord}
    {distance : BitVec 32} {hop : Hop} (directed : Directed manager farEnd root v)
    (target : w.lsa ∈ manager.lsdb.database)
    (record : ∀ l', hop = .link l' → l = some l')
    (tight : manager.lsdb.graph.Tight root v.vertexId hop w.vertexId)
    (ok : manager.spfNexthopCalculation root v w l distance = .ok reached) (exit : NodeExit) :
    exit ∈ reached.ecmpRootExits ↔ LeavesOver manager farEnd root v.vertexId hop exit := by
  have kinds := bidirectional.link_kinds directed.advertised target tight.1
  simp only [Manager.spfNexthopCalculation] at ok
  split at ok
  case isTrue isRoot =>
    -- From the root only the link itself counts.
    have single : LeavesOver manager farEnd root v.vertexId hop exit ↔
        ∃ first, firstHop manager farEnd root [hop] = some first ∧ first.exit = exit := by
      rw [isRoot]
      constructor
      · rintro ⟨trail, first, shortest, leaves, same⟩
        rw [shortest_root bidirectional clear found named router shortest] at leaves
        exact ⟨first, leaves, same⟩
      · rintro ⟨first, leaves, same⟩
        exact ⟨[], first, ⟨.root, ⟨[], .root, rfl⟩, fun _ _ => Nat.zero_le _⟩, leaves, same⟩
    have start : v.lsa = rootLsa :=
      LSDB.distinct_ids directed.advertised found (isRoot.trans named.symm)
    rw [isRoot] at tight
    rcases kinds with ⟨l', rfl, _, ⟨pointToPoint, kind⟩ | ⟨transit, kind⟩⟩ | ⟨_, _, network, _⟩
    · obtain rfl := record l' rfl
      simp only [SPFVertex.vertexType, kind] at ok
      obtain ⟨back, first, data⟩ := clear.remote l' w.lsa tight target pointToPoint
      have next : spfGetNextLink w v none = some back := by
        rw [← first, ← isRoot]
        exact nextLink_find
      simp only [next] at ok
      cases ok
      rw [single]
      simp [firstHop, pointToPoint, FirstHop.exit, SPFVertex.reach,
        SPFVertex.setRootExitDirection, Manager.nearInterface, data, eq_comm]
    · simp only [SPFVertex.vertexType, kind] at ok
      cases ok
      rw [single]
      simp [firstHop, transit, FirstHop.exit, SPFVertex.reach, SPFVertex.setRootExitDirection,
        clear.interface l' w.lsa tight target transit, eq_comm]
    · rw [start, router] at network
      cases network
  case isFalse away =>
    split at ok
    case h_1 network =>
      rcases kinds with ⟨_, _, impossible, _⟩ | ⟨address, rfl, _⟩
      · rw [SPFVertex.vertexType, impossible] at network
        cases network
      · obtain ⟨only, calculated, exits⟩ := spfNexthopCalculation_network bidirectional clear found
          named router l distance directed network away target tight
        rw [← exits exit]
        simp only [Manager.spfNexthopCalculation, if_neg away, network] at calculated
        rw [calculated] at ok
        cases ok
        simp [SPFVertex.reach, SPFVertex.setRootExitDirection]
    case h_2 isRouter =>
      cases ok
      have stays : ∀ trail, manager.lsdb.graph.Shortest root v.vertexId trail →
          firstHop manager farEnd root (trail ++ [hop]) = firstHop manager farEnd root trail :=
        fun trail shortest =>
          firstHop_router bidirectional directed.advertised isRouter away shortest.1
      simp only [SPFVertex.reach, SPFVertex.inheritAllRootExitDirections, directed.exits away,
        Leaves, LeavesOver]
      constructor
      · rintro ⟨trail, first, shortest, leaves, same⟩
        exact ⟨trail, first, shortest, (stays trail shortest).trans leaves, same⟩
      · rintro ⟨trail, first, shortest, leaves, same⟩
        exact ⟨trail, first, shortest, (stays trail shortest).symm.trans leaves, same⟩

/-- Neither the assertion of `GetRootExitDirection ()` fails nor a loop goes on for ever. -/
def Safe (failure : Failure) : Prop := failure ≠ .rootExit ∧ failure ≠ .endlessLoop

/-- The calculation is safe, if from a network it follows only tight links. -/
theorem spfNexthopCalculation_safe {v w : SPFVertex} {l : Option LinkRecord}
    {distance : BitVec 32} {hop : Hop} (directed : Directed manager farEnd root v)
    (target : w.lsa ∈ manager.lsdb.database) (record : ∀ l', hop = .link l' → l = some l')
    (link : manager.lsdb.graph.Link v.vertexId hop w.vertexId)
    (near : v.vertexType = .networkLSA →
      manager.lsdb.graph.Tight root v.vertexId hop w.vertexId) :
    Ends Safe (fun reached => reached.ecmpRootExits.Nodup ∧
        (manager.lsdb.graph.Tight root v.vertexId hop w.vertexId → ∀ exit,
          exit ∈ reached.ecmpRootExits ↔ LeavesOver manager farEnd root v.vertexId hop exit))
      (manager.spfNexthopCalculation root v w l distance) := by
  have nodup : Ends Safe (fun reached => reached.ecmpRootExits.Nodup)
      (manager.spfNexthopCalculation root v w l distance) := by
    by_cases passing : v.vertexId ≠ root ∧ v.vertexType = .networkLSA
    · obtain ⟨away, network⟩ := passing
      rcases bidirectional.link_kinds directed.advertised target link with
        ⟨_, _, impossible, _⟩ | ⟨address, rfl, _⟩
      · rw [SPFVertex.vertexType, impossible] at network
        cases network
      · obtain ⟨exit, ok, _⟩ := spfNexthopCalculation_network bidirectional clear found named
          router l distance directed network away target (near network)
        rw [ok]
        exact List.nodup_singleton _
    · simp only [Manager.spfNexthopCalculation]
      split
      · split
        · split <;> simp [Ends, Safe, SPFVertex.reach, SPFVertex.setRootExitDirection]
        · simp [Ends, SPFVertex.reach, SPFVertex.setRootExitDirection]
      case isFalse away =>
        split
        case h_1 network => exact absurd ⟨away, network⟩ passing
        case h_2 => exact directed.nodup
  refine (nodup.and_ok fun reached ok => ?_).mono fun reached both => ⟨both.2, both.1⟩
  exact fun tight => spfNexthopCalculation_exits bidirectional clear found named router directed
    target record tight ok

end Calculation

end Ns3.Internet.GlobalRouting
