import Ns3.Internet.GlobalRouting.FirstHops
import Ns3.Internet.GlobalRouting.Distances

/-!
The exits of the vertices that are popped.

A candidate has the exits of the paths over those links of the tree that were taken into account
and lead to it with its distance. When it is popped, the vertices before it on shortest paths are
all in the tree: a router is closer, and a network of the same distance is popped first.
-/

namespace Ns3.Internet.GlobalRouting

open Library

section Merging

variable {Element : Type} [DecidableEq Element]

@[simp]
theorem mem_unique {element : Element} {elements : List Element} :
    element ∈ unique elements ↔ element ∈ elements := by
  induction elements using unique.induct with
  | case1 => simp [unique]
  | case2 => simp [unique]
  | case3 second rest inductionHypothesis => simp [unique, inductionHypothesis]
  | case4 first second rest different inductionHypothesis =>
      simp [unique, different, inductionHypothesis]

/-- In a sorted list equal elements are neighbours. -/
theorem nodup_unique {order : Element → Element → Prop}
    (antisymm : ∀ a b, order a b → order b a → a = b) {elements : List Element}
    (sorted : elements.Pairwise order) : (unique elements).Nodup := by
  induction elements using unique.induct with
  | case1 => simp [unique]
  | case2 => simp [unique]
  | case3 second rest inductionHypothesis =>
      rw [unique, if_pos rfl]
      exact inductionHypothesis (List.pairwise_cons.mp sorted).2
  | case4 first second rest different inductionHypothesis =>
      obtain ⟨least, tail⟩ := List.pairwise_cons.mp sorted
      rw [unique, if_neg different, List.nodup_cons, mem_unique]
      refine ⟨fun again => ?_, inductionHypothesis tail⟩
      rcases List.mem_cons.mp again with same | further
      · exact different same
      · exact different (antisymm _ _ (least second List.mem_cons_self)
          ((List.pairwise_cons.mp tail).1 first further))

variable {vertex other : SPFVertex}

theorem mem_mergeRootExitDirections {exit : NodeExit} :
    exit ∈ (vertex.mergeRootExitDirections other).ecmpRootExits ↔
      exit ∈ vertex.ecmpRootExits ∨ exit ∈ other.ecmpRootExits := by
  simp [SPFVertex.mergeRootExitDirections, List.mem_insertionSort]

theorem nodup_mergeRootExitDirections :
    (vertex.mergeRootExitDirections other).ecmpRootExits.Nodup := by
  have le_iff : ∀ a b : NodeExit, NodeExit.le a b = true ↔
      a.1.toNat < b.1.toNat ∨ a.1.toNat = b.1.toNat ∧ a.2 ≤ b.2 := by
    intro a b
    simp [NodeExit.le, BitVec.lt_def, BitVec.toNat_inj]
  have total : Std.Total fun a b : NodeExit => NodeExit.le a b = true :=
    ⟨fun a b => by rw [le_iff, le_iff]; omega⟩
  have trans : IsTrans NodeExit fun a b => NodeExit.le a b = true :=
    ⟨fun a b c => by rw [le_iff, le_iff, le_iff]; omega⟩
  refine nodup_unique (fun a b => ?_) (List.pairwise_insertionSort _ _)
  rw [le_iff, le_iff]
  intro first second
  exact Prod.ext (BitVec.toNat_inj.mp (by omega)) (by omega)

end Merging

/-- The exits of a calculation: a candidate whose distance is right has those of the links that
were taken into account. -/
structure Aimed (manager : Manager) (farEnd : Ipv4Address → Ipv4Address) (root : Ipv4Address)
    (tree : List SPFVertex) (current : SPFVertex) (Done : Hop → Prop) (queue : CandidateQueue) :
    Prop where
  outside : ∀ id trail, manager.lsdb.graph.Walk root id trail →
    (∀ vertex ∈ tree, vertex.vertexId ≠ id) → current.distance ≤ manager.lsdb.graph.length trail
  directed : ∀ vertex ∈ tree, Directed manager farEnd root vertex
  nodup : ∀ vertex ∈ queue, vertex.ecmpRootExits.Nodup
  parents : ∀ vertex ∈ queue, vertex.parents ≠ [] ∧ ∀ p ∈ vertex.parents, ∃ hop distance,
    manager.lsdb.graph.Link p hop vertex.vertexId ∧ Listed tree p distance ∧
      distance + manager.lsdb.graph.cost hop = vertex.distance
  exits : ∀ vertex ∈ queue,
    manager.lsdb.graph.Distance root vertex.vertexId vertex.distance → ∀ exit,
      exit ∈ vertex.ecmpRootExits ↔ ∃ v hop, (∃ inside ∈ tree, inside.vertexId = v) ∧
        (v ≠ current.vertexId ∨ Done hop) ∧
        manager.lsdb.graph.Tight root v hop vertex.vertexId ∧
        LeavesOver manager farEnd root v hop exit

namespace Aimed

variable {manager : Manager} {farEnd : Ipv4Address → Ipv4Address} {root : Ipv4Address}
  {tree : List SPFVertex} {current : SPFVertex} {Done Done' : Hop → Prop} {state : SPFState}
  {queue : CandidateQueue} {hop : Hop}

theorem congr (aimed : Aimed manager farEnd root tree current Done queue)
    (same : ∀ hop w, manager.lsdb.graph.Link current.vertexId hop w → (Done' hop ↔ Done hop)) :
    Aimed manager farEnd root tree current Done' queue := by
  refine { aimed with exits := fun vertex found least exit => ?_ }
  rw [aimed.exits vertex found least exit]
  refine exists_congr fun v => exists_congr fun hop => and_congr_right fun _ => ?_
  rw [and_congr_left_iff]
  rintro ⟨tight, _⟩
  by_cases here : v = current.vertexId
  · subst here
    rw [same hop _ tight.1]
  · simp [here]

/-- A candidate that the link does not lead to by a shortest path has what it had. -/
theorem unaffected (aimed : Aimed manager farEnd root tree current Done queue)
    {vertex : SPFVertex} (found : vertex ∈ queue)
    (least : manager.lsdb.graph.Distance root vertex.vertexId vertex.distance)
    (loose : ¬ manager.lsdb.graph.Tight root current.vertexId hop vertex.vertexId)
    (exit : NodeExit) :
    exit ∈ vertex.ecmpRootExits ↔ ∃ v other, (∃ inside ∈ tree, inside.vertexId = v) ∧
      (v ≠ current.vertexId ∨ Done other ∨ other = hop) ∧
      manager.lsdb.graph.Tight root v other vertex.vertexId ∧
      LeavesOver manager farEnd root v other exit := by
  rw [aimed.exits vertex found least exit]
  refine exists_congr fun v => exists_congr fun other => and_congr_right fun _ => ?_
  rw [and_congr_left_iff]
  rintro ⟨tight, _⟩
  by_cases here : v = current.vertexId
  · subst here
    have different : other ≠ hop := by
      rintro rfl
      exact loose tight
    simp [different]
  · simp [here]

/-- A vertex takes the place of all candidates with its id. -/
theorem place (aimed : Aimed manager farEnd root tree current Done state.candidate)
    (new : SPFVertex) (members : ∀ vertex ∈ queue, vertex = new ∨
      vertex ∈ state.candidate ∧ vertex.vertexId ≠ new.vertexId)
    (only : ∀ x, manager.lsdb.graph.Link current.vertexId hop x → x = new.vertexId)
    (nodup : new.ecmpRootExits.Nodup)
    (parents : new.parents ≠ [] ∧ ∀ p ∈ new.parents, ∃ hop distance,
      manager.lsdb.graph.Link p hop new.vertexId ∧ Listed tree p distance ∧
        distance + manager.lsdb.graph.cost hop = new.distance)
    (exits : manager.lsdb.graph.Distance root new.vertexId new.distance → ∀ exit,
      exit ∈ new.ecmpRootExits ↔ ∃ v other, (∃ inside ∈ tree, inside.vertexId = v) ∧
        (v ≠ current.vertexId ∨ Done other ∨ other = hop) ∧
        manager.lsdb.graph.Tight root v other new.vertexId ∧
        LeavesOver manager farEnd root v other exit) :
    Aimed manager farEnd root tree current (fun other => Done other ∨ other = hop) queue where
  outside := aimed.outside
  directed := aimed.directed
  nodup := by
    intro vertex found
    rcases members vertex found with rfl | ⟨before, _⟩
    · exact nodup
    · exact aimed.nodup vertex before
  parents := by
    intro vertex found
    rcases members vertex found with rfl | ⟨before, _⟩
    · exact parents
    · exact aimed.parents vertex before
  exits := by
    intro vertex found least exit
    rcases members vertex found with rfl | ⟨before, different⟩
    · exact exits least exit
    · exact aimed.unaffected before least (fun tight => different (only _ tight.1)) exit

/-- A vertex that is closer over the link than all candidates with its id. -/
theorem enter (explored : Explored manager.lsdb root tree current Done state)
    (aimed : Aimed manager farEnd root tree current Done state.candidate)
    (new : SPFVertex) (members : ∀ vertex ∈ queue, vertex = new ∨
      vertex ∈ state.candidate ∧ vertex.vertexId ≠ new.vertexId)
    (link : manager.lsdb.graph.Link current.vertexId hop new.vertexId)
    (only : ∀ x, manager.lsdb.graph.Link current.vertexId hop x → x = new.vertexId)
    (sum : new.distance = current.distance + manager.lsdb.graph.cost hop)
    (fresh : ∀ vertex ∈ tree, vertex.vertexId ≠ new.vertexId)
    (closer : ∀ vertex ∈ state.candidate, vertex.vertexId = new.vertexId →
      new.distance < vertex.distance)
    (parent : new.parents = [current.vertexId]) (nodup : new.ecmpRootExits.Nodup)
    (exits : manager.lsdb.graph.Tight root current.vertexId hop new.vertexId → ∀ exit,
      exit ∈ new.ecmpRootExits ↔ LeavesOver manager farEnd root current.vertexId hop exit) :
    Aimed manager farEnd root tree current (fun other => Done other ∨ other = hop) queue := by
  refine aimed.place new members only nodup ⟨by simp [parent], fun p member => ?_⟩
    fun least exit => ?_
  · rw [parent, List.mem_singleton] at member
    subst member
    exact ⟨hop, current.distance, link, ⟨current, explored.newest, rfl, rfl⟩, sum.symm⟩
  · have tight : manager.lsdb.graph.Tight root current.vertexId hop new.vertexId :=
      ⟨link, current.distance, explored.current_distance, sum ▸ least⟩
    rw [exits tight exit]
    constructor
    · exact fun leaves =>
        ⟨current.vertexId, hop, ⟨current, explored.newest, rfl⟩, .inr (.inr rfl), tight, leaves⟩
    · rintro ⟨v, other, ⟨inside, member, rfl⟩, seen, ⟨link', _, _, least'⟩, leaves⟩
      by_cases same : inside.vertexId = current.vertexId ∧ other = hop
      · obtain ⟨same, rfl⟩ := same
        rwa [← same]
      · -- No other link to the vertex was taken into account at this distance.
        have before : inside.vertexId ≠ current.vertexId ∨ Done other := by
          rcases seen with different | done | isHop
          · exact .inl different
          · exact .inr done
          · exact .inl fun isCurrent => same ⟨isCurrent, isHop⟩
        have settled : Listed tree inside.vertexId inside.distance := ⟨inside, member, rfl, rfl⟩
        have known := (explored.search.exact _ _ settled).unique ‹_›
        rcases explored.search.seen _ _ _ _ settled link' before with
          ⟨_, vertex, found, isNew, _⟩ | ⟨_, ⟨vertex, found, isNew, rfl⟩, bound⟩
        · exact absurd isNew (fresh vertex found)
        · have := closer vertex found isNew
          have := least.unique least'
          omega

/-- A candidate that is as close over the link gets the exits over it too. -/
theorem merge (explored : Explored manager.lsdb root tree current Done state)
    (aimed : Aimed manager farEnd root tree current Done state.candidate)
    {cw w : SPFVertex} (there : cw ∈ state.candidate)
    (link : manager.lsdb.graph.Link current.vertexId hop cw.vertexId)
    (only : ∀ x, manager.lsdb.graph.Link current.vertexId hop x → x = cw.vertexId)
    (sum : cw.distance = current.distance + manager.lsdb.graph.cost hop)
    (parent : w.parents = [current.vertexId])
    (members : ∀ vertex ∈ queue,
      vertex = (cw.mergeRootExitDirections w).mergeParent manager.pointer w ∨
        vertex ∈ state.candidate ∧ vertex.vertexId ≠ cw.vertexId)
    (exits : manager.lsdb.graph.Tight root current.vertexId hop cw.vertexId → ∀ exit,
      exit ∈ w.ecmpRootExits ↔ LeavesOver manager farEnd root current.vertexId hop exit) :
    Aimed manager farEnd root tree current (fun other => Done other ∨ other = hop) queue := by
  obtain ⟨nonempty, parents⟩ := aimed.parents cw there
  have mem_parents : ∀ p, p ∈ ((cw.mergeRootExitDirections w).mergeParent manager.pointer w).parents ↔
      p ∈ cw.parents ∨ p = current.vertexId := by
    simp [SPFVertex.mergeParent, SPFVertex.mergeRootExitDirections, List.mem_insertionSort, parent]
  refine aimed.place _ members only nodup_mergeRootExitDirections ⟨?_, fun p member => ?_⟩
    fun least exit => ?_
  · exact List.ne_nil_of_mem ((mem_parents _).mpr (.inr rfl))
  · rcases (mem_parents p).mp member with before | rfl
    · exact parents p before
    · exact ⟨hop, current.distance, link, ⟨current, explored.newest, rfl, rfl⟩, sum.symm⟩
  · have tight : manager.lsdb.graph.Tight root current.vertexId hop cw.vertexId :=
      ⟨link, current.distance, explored.current_distance, sum ▸ least⟩
    rw [show exit ∈ ((cw.mergeRootExitDirections w).mergeParent manager.pointer w).ecmpRootExits ↔ _
      from mem_mergeRootExitDirections, aimed.exits cw there least exit, exits tight exit]
    constructor
    · rintro (⟨v, other, inside, seen, tight', leaves⟩ | leaves)
      · exact ⟨v, other, inside, seen.imp_right .inl, tight', leaves⟩
      · exact ⟨current.vertexId, hop, ⟨current, explored.newest, rfl⟩, .inr (.inr rfl), tight,
          leaves⟩
    · rintro ⟨v, other, inside, seen, tight', leaves⟩
      by_cases same : v = current.vertexId ∧ other = hop
      · obtain ⟨rfl, rfl⟩ := same
        exact .inr leaves
      · refine .inl ⟨v, other, inside, ?_, tight', leaves⟩
        rcases seen with different | done | isHop
        · exact .inl different
        · exact .inr done
        · exact .inl fun isCurrent => same ⟨isCurrent, isHop⟩

variable {rootLsa : LSA} (bidirectional : manager.lsdb.Bidirectional)
  (clear : Unambiguous manager farEnd root) (found : rootLsa ∈ manager.lsdb.database)
  (named : rootLsa.linkStateId = root) (router : rootLsa.lsType = .routerLSA)
include bidirectional clear found named router

/-- A link is taken into account. -/
theorem consider {wLsa : LSA} {l : Option LinkRecord} {distance : BitVec 32}
    (explored : Explored manager.lsdb root tree current Done state)
    (aimed : Aimed manager farEnd root tree current Done state.candidate)
    (target : wLsa ∈ manager.lsdb.database)
    (link : manager.lsdb.graph.Link current.vertexId hop wLsa.linkStateId)
    (only : ∀ x, manager.lsdb.graph.Link current.vertexId hop x → x = wLsa.linkStateId)
    (record : ∀ l', hop = .link l' → l = some l')
    (sum : distance.toNat = current.distance + manager.lsdb.graph.cost hop) :
    Ends Safe (fun later => Aimed manager farEnd root tree current
        (fun other => Done other ∨ other = hop) later.candidate)
      (manager.consider root current wLsa l distance state) := by
  have directed := aimed.directed current explored.newest
  have fresh : state.status wLsa.linkStateId ≠ .inSPFTree →
      ∀ vertex ∈ tree, vertex.vertexId ≠ wLsa.linkStateId :=
    fun status vertex member same => status ((explored.inTree _).mpr ⟨vertex, member, same⟩)
  -- A network leads to routers at its own distance, and none is closer.
  have near : state.status wLsa.linkStateId ≠ .inSPFTree → current.vertexType = .networkLSA →
      manager.lsdb.graph.Tight root current.vertexId hop wLsa.linkStateId := by
    intro status network
    rcases bidirectional.link_kinds directed.advertised target link with
      ⟨_, _, impossible, _⟩ | ⟨address, rfl, _⟩
    · rw [SPFVertex.vertexType, impossible] at network
      cases network
    · refine ⟨link, current.distance, explored.current_distance, ?_, fun trail walk => ?_⟩
      · obtain ⟨trail, walk, length⟩ := explored.current_distance.1
        exact ⟨_, walk.step link, by rw [Library.Graph.length_concat, length]⟩
      · exact aimed.outside _ trail walk (fresh status)
  have calculated : state.status wLsa.linkStateId ≠ .inSPFTree → ∀ w : SPFVertex, w.lsa = wLsa →
      Ends Safe (fun reached => (reached.lsa = wLsa ∧ reached.distanceFromRoot = distance ∧
          reached.parents = [current.vertexId]) ∧ reached.ecmpRootExits.Nodup ∧
          (manager.lsdb.graph.Tight root current.vertexId hop wLsa.linkStateId → ∀ exit,
            exit ∈ reached.ecmpRootExits ↔
              LeavesOver manager farEnd root current.vertexId hop exit))
        (manager.spfNexthopCalculation root current w l distance) := by
    rintro status w rfl
    exact (spfNexthopCalculation_safe bidirectional clear found named router directed target record
      link (near status)).and_ok fun reached ok => Manager.spfNexthopCalculation_reach ok
  simp only [Manager.consider]
  split
  case h_1 status =>
    obtain ⟨inside, member, same⟩ := (explored.inTree _).mp status
    refine { aimed with exits := fun vertex there least => ?_ }
    refine aimed.unaffected there least fun tight => ?_
    exact explored.fresh there inside member (same.trans (only _ tight.1).symm)
  case h_2 status =>
    have unmarked : state.status wLsa.linkStateId ≠ .inSPFTree := by simp [status]
    refine (calculated unmarked { lsa := wLsa } rfl).bind fun w _ reached => ?_
    obtain ⟨⟨rfl, rfl, parent⟩, nodup, exits⟩ := reached
    have absent : ∀ vertex ∈ state.candidate, vertex.vertexId ≠ w.vertexId := by
      intro vertex member same
      have marked := (explored.isCandidate _).mpr ⟨vertex, member, same⟩
      rw [SPFVertex.vertexId, status] at marked
      cases marked
    refine enter explored aimed w (fun vertex member => ?_) link only sum (fresh unmarked)
      (fun vertex member same => absurd same (absent vertex member)) parent nodup exits
    rcases List.mem_cons.mp (CandidateQueue.push_perm.mem_iff.mp member) with isNew | before
    · exact .inl isNew
    · exact .inr ⟨before, absent vertex before⟩
  case h_3 status =>
    have unmarked : state.status wLsa.linkStateId ≠ .inSPFTree := by simp [status]
    split
    · simp [Ends, Safe]
    case h_2 cw candidate =>
      obtain ⟨there, same⟩ := CandidateQueue.find_spec candidate
      split
      case isTrue less =>
        have nearer : cw.distance < distance.toNat := BitVec.lt_def.mp less
        refine { aimed with exits := fun vertex member least => ?_ }
        refine aimed.unaffected member least fun tight => ?_
        obtain rfl := explored.distinct.eq member there ((only _ tight.1).trans same.symm)
        obtain ⟨_, nearest, least', least''⟩ := tight
        have := explored.current_distance.unique least'
        have := least.unique least''
        omega
      case isFalse notLess =>
        split
        case isTrue equal =>
          refine (calculated unmarked { lsa := wLsa } rfl).bind fun w _ reached => ?_
          obtain ⟨⟨isW, rfl, parent⟩, _, exits⟩ := reached
          have equal' : cw.distance = w.distance := congrArg BitVec.toNat equal
          exact merge explored aimed there (same.symm ▸ link) (fun x => same.symm ▸ only x)
            (equal'.trans sum) parent (fun vertex member =>
              (CandidateQueue.mem_replace there same).mp member |>.imp_right (same.symm ▸ ·))
            (same.symm ▸ exits)
        case isFalse different =>
          have cwLsa : cw.lsa = wLsa :=
            LSDB.distinct_ids (explored.candidateLsa cw there) target same
          refine (calculated unmarked cw cwLsa).bind fun w _ reached => ?_
          obtain ⟨⟨rfl, rfl, parent⟩, nodup, exits⟩ := reached
          refine enter explored aimed w (fun vertex member => ?_) link only sum (fresh unmarked)
            (fun vertex member isNew => ?_) parent nodup exits
          · rw [CandidateQueue.reorder_perm.mem_iff, CandidateQueue.mem_replace there same] at member
            exact member
          · obtain rfl := explored.distinct.eq member there (isNew.trans same.symm)
            exact lt_of_le_of_ne (Nat.not_lt.mp notLess) fun equal =>
              different (BitVec.eq_of_toNat_eq equal.symm)

variable {w : SPFVertex} {rest : CandidateQueue}

/-- The vertices before the first candidate on its shortest paths are in the tree. -/
theorem predecessor (explored : Explored manager.lsdb root tree current (fun _ => True) state)
    (first : state.candidate = w :: rest) {v : Ipv4Address}
    (tight : manager.lsdb.graph.Tight root v hop w.vertexId) :
    ∃ inside ∈ tree, inside.vertexId = v := by
  have least : manager.lsdb.graph.Distance root w.vertexId w.distance :=
    (explored.pop first).current_distance
  have listed : ∀ {v distance}, manager.lsdb.graph.Distance root v distance →
      (∃ inside ∈ tree, inside.vertexId = v) ∨ w.distance ≤ distance := by
    intro v distance nearest
    obtain ⟨trail, walk, rfl⟩ := nearest.1
    refine (explored.near first walk).imp_left ?_
    rintro ⟨_, inside, member, same, _⟩
    exact ⟨inside, member, same⟩
  obtain ⟨link, distance, nearest, least'⟩ := id tight
  have sum := least.unique least'
  rcases listed nearest with inside | bound
  · exact inside
  obtain ⟨here, started, rfl, _⟩ := LSDB.link_ends link
  have advertised := explored.candidateLsa w (by simp [first])
  rcases bidirectional.link_kinds started advertised link with
    ⟨record, rfl, _⟩ | ⟨_, _, network, isRouter, _⟩
  · have : 0 < manager.lsdb.graph.cost (.link record) := clear.positive _ _ _ tight
    omega
  -- A network of the same distance is reached from a closer router, so it is a candidate.
  obtain ⟨trail, shortest, rfl⟩ := nearest.shortest
  rcases shortest.last with ⟨same, _⟩ | ⟨before, hop', start, rfl, shortest', tight'⟩
  · obtain rfl := LSDB.distinct_ids started found (same.trans named.symm)
    rw [router] at network
    cases network
  obtain ⟨there, started', rfl, _⟩ := LSDB.link_ends tight'.1
  rcases bidirectional.link_kinds started' started tight'.1 with
    ⟨record, rfl, _⟩ | ⟨_, _, _, impossible, _⟩
  · have : 0 < manager.lsdb.graph.cost (.link record) := clear.positive _ _ _ tight'
    rw [Library.Graph.length_concat] at sum bound
    rcases listed shortest'.2 with ⟨inside, member, same⟩ | tooFar
    · have settled : Listed tree there.linkStateId inside.distance := ⟨inside, member, same, rfl⟩
      have known := (explored.search.exact _ _ settled).unique shortest'.2
      rcases explored.search.seen _ _ _ _ settled tight'.1 (.inr trivial) with
        ⟨_, inside, member, same, _⟩ | ⟨_, ⟨vertex, member, same, rfl⟩, close⟩
      · exact ⟨inside, member, same⟩
      · exfalso
        have ordered : Ordered (w :: rest) := first ▸ explored.ordered
        have kind : vertex.lsa = here :=
          LSDB.distinct_ids (explored.candidateLsa vertex member) started same
        rw [first] at member
        rcases List.mem_cons.mp member with rfl | further
        · rw [kind, network] at isRouter
          cases isRouter
        · rcases CandidateQueue.not_compare_iff.mp
            ((List.pairwise_cons.mp ordered).1 vertex further) with
            less | ⟨_, isNetwork | isRouter'⟩
          · omega
          · rw [SPFVertex.vertexType, isRouter] at isNetwork
            cases isNetwork
          · rw [SPFVertex.vertexType, kind, network] at isRouter'
            cases isRouter'
    · omega
  · rw [network] at impossible
    cases impossible

/-- The first candidate enters the tree. -/
theorem pop (explored : Explored manager.lsdb root tree current (fun _ => True) state)
    (aimed : Aimed manager farEnd root tree current (fun _ => True) state.candidate)
    (first : state.candidate = w :: rest) :
    Aimed manager farEnd root (w :: tree) w (fun _ => False) rest := by
  have there : w ∈ state.candidate := by simp [first]
  have kept : ∀ vertex ∈ rest, vertex ∈ state.candidate := by
    intro vertex member
    simp [first, member]
  have entered := explored.pop first
  have fresh := explored.fresh there
  constructor
  case outside =>
    intro id trail walk outside
    rcases explored.near first walk with ⟨_, inside, member, same, _⟩ | bound
    · exact absurd same (outside inside (List.mem_cons_of_mem _ member))
    · exact bound
  case directed =>
    intro vertex member
    rcases List.mem_cons.mp member with rfl | further
    · refine ⟨explored.candidateLsa vertex there, aimed.nodup vertex there, fun away exit => ?_,
        fun _ => ?_⟩
      · rw [aimed.exits vertex there entered.current_distance exit]
        constructor
        · rintro ⟨v, hop, _, _, tight, trail, start, shortest, leaves, same⟩
          exact ⟨trail ++ [hop], start, shortest.step tight, leaves, same⟩
        · rintro ⟨trail, start, shortest, leaves, same⟩
          rcases shortest.last with ⟨isRoot, _⟩ | ⟨v, hop, trail, rfl, shortest', tight⟩
          · exact absurd isRoot away
          · exact ⟨v, hop, predecessor bidirectional clear found named router explored first tight,
              .inr trivial, tight, trail, start, shortest', leaves, same⟩
      · obtain ⟨nonempty, parents⟩ := aimed.parents vertex there
        obtain ⟨p, others, list⟩ := List.exists_cons_of_ne_nil nonempty
        obtain ⟨hop, distance, link, settled, sum⟩ := parents p (by simp [list])
        refine ⟨p, hop, by simp [list], link, distance, explored.search.exact _ _ settled, ?_⟩
        rw [sum]
        exact entered.current_distance
    · exact aimed.directed vertex further
  case nodup => exact fun vertex member => aimed.nodup vertex (kept vertex member)
  case parents =>
    intro vertex member
    obtain ⟨nonempty, parents⟩ := aimed.parents vertex (kept vertex member)
    refine ⟨nonempty, fun p inside => ?_⟩
    obtain ⟨hop, distance, link, ⟨settled, listed, same⟩, sum⟩ := parents p inside
    exact ⟨hop, distance, link, ⟨settled, List.mem_cons_of_mem _ listed, same⟩, sum⟩
  case exits =>
    intro vertex member least exit
    rw [aimed.exits vertex (kept vertex member) least exit]
    refine exists_congr fun v => exists_congr fun hop => ?_
    constructor
    · rintro ⟨⟨inside, listed, rfl⟩, _, tight⟩
      exact ⟨⟨inside, List.mem_cons_of_mem _ listed, rfl⟩, .inl (fresh inside listed), tight⟩
    · rintro ⟨⟨inside, listed, rfl⟩, different | impossible, tight⟩
      · rcases List.mem_cons.mp listed with rfl | further
        · exact absurd rfl different
        · exact ⟨⟨inside, further, rfl⟩, .inr trivial, tight⟩
      · exact impossible.elim

/-- Whatever the loop of a calculation pops has its exits. -/
theorem loop (fits : Fits manager.lsdb root) {fuel : Nat}
    (explored : Explored manager.lsdb root tree current (fun _ => False) state)
    (aimed : Aimed manager farEnd root tree current (fun _ => False) state.candidate) :
    Ends Safe (fun popped => ∀ vertex ∈ popped,
        vertex.vertexId ≠ root ∧ Directed manager farEnd root vertex)
      (manager.spfLoop root fuel current state) := by
  induction fuel generalizing tree current state with
  | zero => simp [Manager.spfLoop, Ends, Safe]
  | succ fuel inductionHypothesis =>
      have ends : Ends Safe (fun later =>
          Explored manager.lsdb root tree current (fun _ => True) later ∧
            Aimed manager farEnd root tree current (fun _ => True) later.candidate)
          (manager.spfNext root current state) := by
        refine spfNext_ends (P := fun Done state =>
            Explored manager.lsdb root tree current Done state ∧
              Aimed manager farEnd root tree current Done state.candidate)
          bidirectional fits (explored.treeLsa current explored.newest) explored.current_distance
          (by simp [Safe]) ?_ ?_ ⟨explored, aimed⟩
        · rintro Done Done' state same ⟨explored, aimed⟩
          exact ⟨explored.congr fun hop w link => (same hop w link).mp, aimed.congr same⟩
        · rintro Done hop state wLsa l distance target link only record sum ⟨explored, aimed⟩
          exact (aimed.consider bidirectional clear found named router explored target link only
            record sum).and_ok fun later => explored.consider target link only sum
      refine ends.bind ?_
      rintro later - ⟨explored, aimed⟩
      split
      · simp [Ends]
      case h_2 w rest first =>
        have entered := aimed.pop bidirectional clear found named router explored first
        obtain ⟨start, inside, isRoot, _⟩ := explored.search.start
        have away : w.vertexId ≠ root := fun same =>
          explored.fresh (by simp [first]) start inside (isRoot.trans same.symm)
        refine (inductionHypothesis (explored.pop first) entered).bind fun others _ exits => ?_
        exact List.forall_mem_cons.mpr ⟨⟨away, entered.directed w List.mem_cons_self⟩, exits⟩

omit bidirectional clear found named router in
/-- A calculation starts without candidates. -/
theorem initial {lsa : LSA} (present : manager.lsdb.getLSA root = some lsa) :
    Aimed manager farEnd root [{ lsa, distanceFromRoot := 0 }] { lsa, distanceFromRoot := 0 }
      (fun _ => False) [] := by
  obtain ⟨advertised, isRoot⟩ := LSDB.getLSA_spec present
  constructor
  case outside =>
    intro _ trail _ _
    exact Nat.zero_le _
  case directed =>
    intro vertex member
    obtain rfl := List.mem_singleton.mp member
    exact ⟨advertised, List.nodup_nil, fun away => absurd isRoot away,
      fun away => absurd isRoot away⟩
  all_goals simp

end Aimed

/-- The first hop of everything behind router 2 is the link to it. -/
theorem sharedNetwork_unambiguous (metric : BitVec 16) (positive : 0 < metric.toNat) :
    Unambiguous (sharedNetwork metric) (fun address => address ^^^ 1) 1 := by
  have only : ∀ {hop next}, (sharedNetwork metric).lsdb.graph.Link 1 hop next →
      hop = .link ⟨.pointToPoint, 2, 10, 1⟩ ∧ next = 2 := by
    intro hop next link
    cases hop <;> simp [LSDB.graph, sharedNetwork] at link
    obtain ⟨rfl, _, rfl, _⟩ := link
    exact ⟨rfl, rfl⟩
  have onward : ∀ {vertex trail}, (sharedNetwork metric).lsdb.graph.Walk 1 vertex trail →
      trail = [] ∧ vertex = 1 ∨ ∃ rest, trail = .link ⟨.pointToPoint, 2, 10, 1⟩ :: rest := by
    intro vertex trail walk
    induction walk with
    | root => exact .inl ⟨rfl, rfl⟩
    | @step vertex next start hop walk link inductionHypothesis =>
        rcases inductionHypothesis with ⟨rfl, rfl⟩ | ⟨rest, rfl⟩
        · obtain ⟨rfl, _⟩ := only link
          exact .inr ⟨[], rfl⟩
        · exact .inr ⟨rest ++ [hop], rfl⟩
  constructor
  case positive =>
    rintro v record w ⟨⟨lsa, found, _, _, listed, _⟩, _⟩
    have metrics : ∀ lsa ∈ (sharedNetwork metric).lsdb.database, ∀ record ∈ lsa.linkRecords,
        0 < record.metric.toNat := by simp [sharedNetwork, positive]
    exact metrics lsa found record listed
  case remote =>
    rintro record w ⟨link, _⟩ present _
    obtain ⟨same, named⟩ := only link
    cases same
    have second : ∀ lsa ∈ (sharedNetwork metric).lsdb.database, lsa.linkStateId = 2 →
        lsa.linkRecords.find? (·.linkId == 1) = some ⟨.pointToPoint, 1, 11, 1⟩ := by
      simp [sharedNetwork]
    exact ⟨_, second w present named, by decide⟩
  case interface =>
    rintro record w ⟨link, _⟩ _ transit
    obtain ⟨same, _⟩ := only link
    cases same
    cases transit
  case attached =>
    rintro record network address w ⟨link, _⟩ ⟨link', _⟩ present
    obtain ⟨_, rfl⟩ := only link
    simp [LSDB.graph, sharedNetwork] at link'
  case single =>
    intro network address w tight trail other shortest shortest'
    have away : network ≠ 1 := by
      rintro rfl
      exact absurd (only tight.1).1 (by simp)
    rcases onward shortest.1 with ⟨_, same⟩ | ⟨rest, rfl⟩
    · exact absurd same away
    · rcases onward shortest'.1 with ⟨_, same⟩ | ⟨rest', rfl⟩
      · exact absurd same away
      · simp [firstHop]

/-- Two routers with two links between them. -/
def parallelLinks : Manager where
  lsdb :=
    { database :=
        [{ lsType := .routerLSA, linkStateId := 1,
           linkRecords := [⟨.pointToPoint, 2, 10, 1⟩, ⟨.pointToPoint, 2, 12, 1⟩] },
         { lsType := .routerLSA, linkStateId := 2,
           linkRecords := [⟨.pointToPoint, 1, 11, 1⟩, ⟨.pointToPoint, 1, 13, 1⟩] }]
      ascending := by simp }
  interfaces := fun _ => some [[0x7f000001], [10], [12]]
  hasNodes := true
  pointer := BitVec.toNat

end Ns3.Internet.GlobalRouting
