import Ns3.Internet.GlobalRouting.Candidates

/-!
The vertices are popped in the order of their distance from the root.

At equal distance networks come before routers, as far as they are candidates. A link of metric
0 leads from a router to a network of the same distance, which then can only come after it.
-/

namespace Ns3.Internet.GlobalRouting

open Library

/-- A vertex may be popped before another one: it is not farther, and if a router comes before
a network of the same distance, all shortest paths to the network end with a link of cost 0. -/
def Precedes (lsdb : LSDB) (root : Ipv4Address) (first second : SPFVertex) : Prop :=
  first.distance ≤ second.distance ∧
    (first.vertexType = .routerLSA → second.vertexType = .networkLSA →
      first.distance = second.distance → ∀ v hop distance,
        lsdb.graph.Link v hop second.vertexId → lsdb.graph.Distance root v distance →
        distance + lsdb.graph.cost hop = second.distance → lsdb.graph.cost hop = 0)

/-- What the loop of a calculation has popped, after a tree. -/
structure Popped (lsdb : LSDB) (root : Ipv4Address) (tree popped : List SPFVertex) : Prop where
  advertised : ∀ vertex ∈ popped, vertex.lsa ∈ lsdb.database
  distinct : Distinct (popped ++ tree)
  reached : ∀ id, (∃ vertex ∈ popped ++ tree, vertex.vertexId = id) ↔
    lsdb.graph.Reachable root id
  exact : ∀ vertex ∈ popped, lsdb.graph.Distance root vertex.vertexId vertex.distance
  farther : ∀ vertex ∈ popped, ∀ inside ∈ tree, inside.distance ≤ vertex.distance
  order : popped.Pairwise (Precedes lsdb root)

variable {manager : Manager} {root : Ipv4Address} {tree : List SPFVertex}
  {current : SPFVertex} {state : SPFState}

/-- A network that is popped after a router of the same distance was not a candidate yet. -/
theorem Explored.precedes (explored : Explored manager.lsdb root tree current (fun _ => True) state)
    {w : SPFVertex} {rest : CandidateQueue} (first : state.candidate = w :: rest)
    {later : SPFVertex} (outside : ∀ vertex ∈ w :: tree, vertex.vertexId ≠ later.vertexId)
    (advertised : later.lsa ∈ manager.lsdb.database)
    (farther : w.distance ≤ later.distance) : Precedes manager.lsdb root w later := by
  refine ⟨farther, fun router network same v hop distance link nearest tight => ?_⟩
  by_contra positive
  have ordered : Ordered (w :: rest) := first ▸ explored.ordered
  -- The link starts from a closer vertex, which is settled.
  have settled : Listed tree v distance := by
    obtain ⟨trail, walk, length⟩ := nearest.1
    rcases explored.near first walk with ⟨known, inside⟩ | bound
    · exact (explored.search.exact _ _ inside).unique nearest ▸ inside
    · omega
  rcases explored.search.seen _ _ _ _ settled link (.inr trivial) with
    ⟨_, vertex, member, named, _⟩ | ⟨_, ⟨vertex, member, named, rfl⟩, bound⟩
  · exact outside vertex (List.mem_cons_of_mem _ member) named
  · rw [first] at member
    rcases List.mem_cons.mp member with rfl | further
    · exact outside vertex List.mem_cons_self named
    · have kind : vertex.vertexType = .networkLSA := by
        have lsa := LSDB.distinct_ids (explored.candidateLsa vertex (by simp [first, further]))
          advertised named
        rw [SPFVertex.vertexType, lsa]
        exact network
      rcases CandidateQueue.not_compare_iff.mp ((List.pairwise_cons.mp ordered).1 vertex further)
        with less | ⟨_, impossible | impossible⟩
      · omega
      · rw [router] at impossible
        simp at impossible
      · rw [kind] at impossible
        simp at impossible

theorem popped_of_loop (bidirectional : manager.lsdb.Bidirectional)
    (fits : Fits manager.lsdb root) {fuel : Nat} {popped : List SPFVertex}
    (explored : Explored manager.lsdb root tree current (fun _ => False) state)
    (ok : manager.spfLoop root fuel current state = .ok popped) :
    Popped manager.lsdb root tree popped := by
  induction fuel generalizing tree current state popped with
  | zero => cases ok
  | succ fuel inductionHypothesis =>
      obtain ⟨later, next, ok⟩ := bind_ok ok
      replace explored := explored.next bidirectional fits next
      have complete : ∀ v distance hop w, Listed tree v distance →
          manager.lsdb.graph.Link v hop w → v ≠ current.vertexId ∨ True :=
        fun _ _ _ _ _ _ => .inr trivial
      split at ok
      case h_1 empty =>
        cases ok
        have finished := explored.search.finished complete (by simp [Listed, empty])
        refine ⟨by simp, explored.distinctTree, fun id => ?_, by simp, by simp, by simp⟩
        rw [← finished id]
        constructor
        · rintro ⟨vertex, member, named⟩
          exact ⟨vertex.distance, vertex, member, named, rfl⟩
        · rintro ⟨distance, vertex, member, named, _⟩
          exact ⟨vertex, member, named⟩
      case h_2 w rest first =>
        obtain ⟨others, loops, ok⟩ := bind_ok ok
        cases ok
        have entered := explored.pop first
        have result := inductionHypothesis entered loops
        have moved : (others ++ w :: tree).Perm ((w :: others) ++ tree) := List.perm_middle
        refine ⟨?_, ?_, ?_, ?_, ?_, ?_⟩
        · intro vertex member
          rcases List.mem_cons.mp member with rfl | further
          · exact entered.treeLsa vertex List.mem_cons_self
          · exact result.advertised vertex further
        · rw [Distinct, ← (moved.map _).nodup_iff]
          exact result.distinct
        · intro id
          rw [← result.reached id]
          simp only [moved.mem_iff]
        · intro vertex member
          rcases List.mem_cons.mp member with rfl | further
          · exact entered.current_distance
          · exact result.exact vertex further
        · intro vertex member inside found
          rcases List.mem_cons.mp member with rfl | further
          · exact entered.farthest inside (List.mem_cons_of_mem _ found)
          · exact result.farther vertex further inside (List.mem_cons_of_mem _ found)
        · refine List.pairwise_cons.mpr ⟨fun vertex member => ?_, result.order⟩
          refine explored.precedes first ?_ (result.advertised vertex member)
            (result.farther vertex member w List.mem_cons_self)
          intro inside found same
          have apart := (List.nodup_append.mp (by
            have distinct := result.distinct
            rwa [Distinct, List.map_append] at distinct)).2.2
          exact apart _ (List.mem_map_of_mem member) _ (List.mem_map_of_mem found) same.symm

/-- Each vertex that can be reached is popped once and with its distance, in the order of the
distances. -/
theorem spfCalculate_pops (manager : Manager) (root : Ipv4Address)
    (bidirectional : manager.lsdb.Bidirectional) (fits : Fits manager.lsdb root)
    (popped : List SPFVertex) (returns : manager.spfCalculate root = .ok (some popped)) :
    Distinct popped ∧
      (∀ id, (∃ vertex ∈ popped, vertex.vertexId = id) ↔
        id ≠ root ∧ manager.lsdb.graph.Reachable root id) ∧
      (∀ vertex ∈ popped, manager.lsdb.graph.Distance root vertex.vertexId vertex.distance) ∧
      popped.Pairwise (Precedes manager.lsdb root) := by
  simp only [Manager.spfCalculate] at returns
  split at returns
  · cases returns
  case h_2 lsa found =>
    obtain ⟨truncated, _, returns⟩ := bind_ok returns
    split at returns
    · cases returns
    · obtain ⟨others, loops, returns⟩ := bind_ok returns
      cases returns
      have result := popped_of_loop bidirectional fits (Explored.initial found) loops
      have distinct := result.distinct
      rw [Distinct, List.map_append, List.nodup_append] at distinct
      obtain ⟨distinct, _, apart⟩ := distinct
      have rootId : SPFVertex.vertexId { lsa, distanceFromRoot := 0 } = root :=
        (LSDB.getLSA_spec found).2
      refine ⟨distinct, fun id => ?_, result.exact, result.order⟩
      rw [← result.reached id]
      constructor
      · rintro ⟨vertex, member, rfl⟩
        refine ⟨fun same => ?_, vertex, List.mem_append_left _ member, rfl⟩
        exact apart _ (List.mem_map_of_mem member) root
          (List.mem_map.mpr ⟨_, List.mem_singleton_self _, rootId⟩) same
      · rintro ⟨different, vertex, member, rfl⟩
        rcases List.mem_append.mp member with inside | isRoot
        · exact ⟨vertex, inside, rfl⟩
        · obtain rfl : vertex = { lsa, distanceFromRoot := 0 } := by simpa using isRoot
          exact absurd rootId different

section Fuel

/-- The loop of a calculation ends: the model has fuel enough. -/
theorem spfCalculate_ne_fuel : manager.spfCalculate root ≠ .error .fuel := by
  have checked : Ends (· ≠ .fuel) (fun _ => True) (manager.checkForStubNode root) := by
    simp only [Manager.checkForStubNode]
    split
    · simp [Ends]
    · split
      · exact trivial
      · split
        · exact trivial
        · split <;> simp [Ends]
      · exact trivial
  have truncated : Ends (· ≠ .fuel) (fun _ => True) (manager.isTruncated root) := by
    simp only [Manager.isTruncated]
    split
    · exact checked
    · exact trivial
  have ends : Ends (· ≠ .fuel) (fun _ => True) (manager.spfCalculate root) := by
    simp only [Manager.spfCalculate]
    split
    · simp [Ends]
    case h_2 lsa found =>
      refine truncated.bind fun isStub _ _ => ?_
      split
      · exact trivial
      · exact (spfLoop_ends found).bind fun _ _ _ => trivial
  exact ends.ne (by simp)

end Fuel

/-- All distances fit if there is a walk to each vertex that leaves room for one more
metric. -/
theorem Fits.of_walks {lsdb : LSDB} {root : Ipv4Address}
    (walks : ∀ lsa ∈ lsdb.database, ∃ trail, lsdb.graph.Walk root lsa.linkStateId trail ∧
      lsdb.graph.length trail < 2 ^ 31) : Fits lsdb root := by
  intro v distance hop w least link
  have started : ∃ lsa ∈ lsdb.database, lsa.linkStateId = v := by
    cases hop with
    | link record =>
        obtain ⟨lsa, found, named, _⟩ := link
        exact ⟨lsa, found, named⟩
    | attached address =>
        obtain ⟨lsa, found, named, _⟩ := link
        exact ⟨lsa, found, named⟩
  have cost : lsdb.graph.cost hop < 2 ^ 16 := by
    cases hop with
    | link record => exact record.metric.isLt
    | attached address => exact Nat.two_pow_pos 16
  obtain ⟨lsa, found, rfl⟩ := started
  obtain ⟨trail, walk, short⟩ := walks lsa found
  have bound := least.2 trail walk
  omega

/-- Router 1 is linked to router 2, which shares the network 100 with router 3. The metric of
router 2 for the network is given. -/
def sharedNetwork (metric : BitVec 16) : Manager where
  lsdb :=
    { database :=
        [{ lsType := .routerLSA, linkStateId := 1,
           linkRecords := [⟨.pointToPoint, 2, 10, 1⟩] },
         { lsType := .routerLSA, linkStateId := 2,
           linkRecords := [⟨.pointToPoint, 1, 11, 1⟩, ⟨.transitNetwork, 100, 12, metric⟩] },
         { lsType := .routerLSA, linkStateId := 3,
           linkRecords := [⟨.transitNetwork, 100, 13, 1⟩] },
         { lsType := .networkLSA, linkStateId := 100, attachedRouters := [12, 13] }]
      ascending := by simp }
  interfaces := fun _ => some [[10]]
  hasNodes := false
  pointer := BitVec.toNat

theorem sharedNetwork_bidirectional (metric : BitVec 16) :
    (sharedNetwork metric).lsdb.Bidirectional := by
  constructor <;> simp [sharedNetwork]

theorem sharedNetwork_fits (metric : BitVec 16) : Fits (sharedNetwork metric).lsdb 1 := by
  have toRouter2 : (sharedNetwork metric).lsdb.graph.Walk 1 2 [.link ⟨.pointToPoint, 2, 10, 1⟩] :=
    Library.Graph.Walk.root.step (by simp [LSDB.graph, sharedNetwork])
  have toNetwork : (sharedNetwork metric).lsdb.graph.Walk 1 100
      ([.link ⟨.pointToPoint, 2, 10, 1⟩] ++ [.link ⟨.transitNetwork, 100, 12, metric⟩]) :=
    toRouter2.step (by simp [LSDB.graph, sharedNetwork])
  have toRouter3 : (sharedNetwork metric).lsdb.graph.Walk 1 3
      ([.link ⟨.pointToPoint, 2, 10, 1⟩] ++ [.link ⟨.transitNetwork, 100, 12, metric⟩] ++
        [.attached 13]) :=
    toNetwork.step (by simp [LSDB.graph, sharedNetwork])
  have small := metric.isLt
  refine Fits.of_walks ?_
  simp only [sharedNetwork, List.forall_mem_cons, List.not_mem_nil, false_imp_iff, implies_true,
    and_true]
  refine ⟨⟨_, .root, ?_⟩, ⟨_, toRouter2, ?_⟩, ⟨_, toRouter3, ?_⟩, ⟨_, toNetwork, ?_⟩⟩
  all_goals simp [Library.Graph.length, LSDB.graph]
  all_goals omega

/-- The network comes after router 2, which is as far from the root. -/
theorem not_network_first :
    ¬ ∀ (manager : Manager) (root : Ipv4Address) (popped : List SPFVertex),
      manager.lsdb.Bidirectional → Fits manager.lsdb root →
      manager.spfCalculate root = .ok (some popped) → popped.Pairwise fun first second =>
        first.distance ≤ second.distance ∧
          (first.distance = second.distance →
            ¬ (first.vertexType = .routerLSA ∧ second.vertexType = .networkLSA)) := by
  intro claimed
  have order := claimed (sharedNetwork 0) 1 _ (sharedNetwork_bidirectional 0)
    (sharedNetwork_fits 0) rfl
  revert order
  decide

theorem spfCalculate_pops_sharedNetwork :
    ∃ popped, (sharedNetwork 5).spfCalculate 1 = .ok (some popped) ∧
      popped.map (fun vertex => (vertex.vertexId, vertex.distance)) =
        [(2, 1), (100, 6), (3, 6)] ∧
      popped.Pairwise (Precedes (sharedNetwork 5).lsdb 1) :=
  ⟨_, rfl, by decide, (spfCalculate_pops (sharedNetwork 5) 1 (sharedNetwork_bidirectional 5)
    (sharedNetwork_fits 5) _ rfl).2.2.2⟩

end Ns3.Internet.GlobalRouting
