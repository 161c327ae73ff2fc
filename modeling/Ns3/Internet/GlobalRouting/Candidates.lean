import Ns3.Internet.GlobalRouting.Exploration

/-!
What a calculation does in any database.

A vertex is a candidate until it is popped, and then it is in the tree for good. So the loop ends,
and what a vertex hands on with its exits and parents holds of all that are popped.
-/

namespace Ns3.Internet.GlobalRouting

section Failures

theorem getRootExitDirection_ends (v : SPFVertex) :
    Ends (· ≠ .fuel) (fun _ => True) v.getRootExitDirection := by
  simp only [SPFVertex.getRootExitDirection]
  split <;> simp [Ends]

/-- The calculation of the next hops fails as its parts do, or at an assertion or a null
pointer of its own. -/
theorem spfNexthopCalculation_ends {Allowed : Failure → Prop} {manager : Manager}
    {root : Ipv4Address} {v w : SPFVertex} {l : Option LinkRecord} {distance : BitVec 32}
    (exits : Ends Allowed (fun _ => True) v.getRootExitDirection)
    (through : Ends Allowed (fun _ => True) (Manager.spfNexthopsThrough v w))
    (assertion : Allowed .assertion) (nullPointer : Allowed .nullPointer) :
    Ends Allowed (fun _ => True) (manager.spfNexthopCalculation root v w l distance) := by
  simp only [Manager.spfNexthopCalculation]
  split
  · split
    · split
      · exact assertion
      · exact nullPointer
      · exact trivial
    · exact trivial
  · split
    · split
      · split
        · exact assertion
        · exact through.bind fun _ _ _ => trivial
      · exact exits.bind fun _ _ _ => trivial
    · exact trivial

theorem spfNexthopCalculation_fuel (manager : Manager) (root : Ipv4Address) (v w : SPFVertex)
    (l : Option LinkRecord) (distance : BitVec 32) :
    Ends (· ≠ .fuel) (fun _ => True) (manager.spfNexthopCalculation root v w l distance) := by
  have through : Ends (· ≠ .fuel) (fun _ => True) (Manager.spfNexthopsThrough v w) := by
    simp only [Manager.spfNexthopsThrough]
    split
    · exact trivial
    · refine (getRootExitDirection_ends v).bind fun exit _ _ => ?_
      split <;> simp [Ends]
  exact spfNexthopCalculation_ends (getRootExitDirection_ends v) through (by simp) (by simp)

theorem consider_ends (manager : Manager) (root : Ipv4Address) (v : SPFVertex) (wLsa : LSA)
    (l : Option LinkRecord) (distance : BitVec 32) (state : SPFState) :
    Ends (· ≠ .fuel) (fun _ => True) (manager.consider root v wLsa l distance state) := by
  have calculated := fun w => spfNexthopCalculation_fuel manager root v w l distance
  simp only [Manager.consider]
  split
  · exact trivial
  · exact (calculated _).bind fun _ _ _ => trivial
  · split
    · simp [Ends]
    · split
      · exact trivial
      · split
        · exact (calculated _).bind fun _ _ _ => trivial
        · exact (calculated _).bind fun _ _ _ => trivial

end Failures

/-- The state of a calculation: the ids of the tree, and candidates that have a property. -/
structure Kept (lsdb : LSDB) (Holds : SPFVertex → Prop) (tree : List Ipv4Address)
    (state : SPFState) : Prop where
  inTree : ∀ id, state.status id = .inSPFTree ↔ id ∈ tree
  nodup : tree.Nodup
  advertised : tree ⊆ lsdb.database.map (·.linkStateId)
  candidateLsa : ∀ vertex ∈ state.candidate, vertex.lsa ∈ lsdb.database
  marked : ∀ vertex ∈ state.candidate, state.status vertex.vertexId = .candidate
  distinct : Distinct state.candidate
  holds : ∀ vertex ∈ state.candidate, Holds vertex

/-- Whatever is reached from the vertex has the property. -/
def HandsOn (manager : Manager) (root : Ipv4Address) (Holds : SPFVertex → Prop)
    (v : SPFVertex) : Prop :=
  ∀ w l distance reached, manager.spfNexthopCalculation root v w l distance = .ok reached →
    Holds reached

/-- Two paths to one vertex with the property merge to one with it. -/
def Merges (manager : Manager) (Holds : SPFVertex → Prop) : Prop :=
  ∀ cw w, cw.lsa = w.lsa → Holds cw → Holds w →
    Holds ((cw.mergeRootExitDirections w).mergeParent manager.pointer w)

namespace Kept

variable {manager : Manager} {root : Ipv4Address} {Holds : SPFVertex → Prop}
  {tree : List Ipv4Address} {state later : SPFState}

/-- A vertex outside the tree becomes a candidate. -/
theorem place {new : SPFVertex} (kept : Kept manager.lsdb Holds tree state)
    (placed : Placed new state later) (advertised : new.lsa ∈ manager.lsdb.database)
    (outside : state.status new.vertexId ≠ .inSPFTree) (holds : Holds new) :
    Kept manager.lsdb Holds tree later where
  inTree := by
    intro id
    rw [placed.status, ← kept.inTree id, Function.update_apply]
    split
    case isTrue same => simp [same, outside]
    case isFalse => rfl
  nodup := kept.nodup
  advertised := kept.advertised
  candidateLsa := by
    intro vertex member
    rcases (placed.members vertex).mp member with rfl | ⟨before, _⟩
    · exact advertised
    · exact kept.candidateLsa vertex before
  marked := by
    intro vertex member
    rw [placed.status]
    rcases (placed.members vertex).mp member with rfl | ⟨before, different⟩
    · exact Function.update_self ..
    · rw [Function.update_of_ne different]
      exact kept.marked vertex before
  distinct := placed.distinct kept.distinct
  holds := by
    intro vertex member
    rcases (placed.members vertex).mp member with rfl | ⟨before, _⟩
    · exact holds
    · exact kept.holds vertex before

variable {v : SPFVertex} (handsOn : HandsOn manager root Holds v) (merges : Merges manager Holds)
include handsOn merges

theorem consider {wLsa : LSA} {l : Option LinkRecord} {distance : BitVec 32}
    (kept : Kept manager.lsdb Holds tree state) (advertised : wLsa ∈ manager.lsdb.database) :
    Ends (· ≠ .fuel) (Kept manager.lsdb Holds tree)
      (manager.consider root v wLsa l distance state) := by
  refine ((consider_ends manager root v wLsa l distance state).and_ok fun later ok => ?_).mono
    fun _ both => And.left both
  simp only [Manager.consider] at ok
  split at ok
  · cases ok
    exact kept
  case h_2 status =>
    obtain ⟨w, reaches, ok⟩ := bind_ok ok
    obtain ⟨lsa, _, _⟩ := Manager.spfNexthopCalculation_reach reaches
    have named : w.vertexId = wLsa.linkStateId := by rw [SPFVertex.vertexId, lsa]
    have unexplored : state.status w.vertexId = .notExplored := named ▸ status
    have absent : ∀ vertex ∈ state.candidate, vertex.vertexId ≠ w.vertexId := by
      intro vertex member same
      have marked := kept.marked vertex member
      rw [same, unexplored] at marked
      cases marked
    cases ok
    rw [← named]
    exact kept.place (.push absent) (lsa ▸ advertised) (by simp [unexplored])
      (handsOn _ _ _ _ reaches)
  case h_3 status =>
    split at ok
    · cases ok
    case h_2 cw candidate =>
      obtain ⟨there, named⟩ := CandidateQueue.find_spec candidate
      have own : cw.lsa = wLsa :=
        LSDB.distinct_ids (kept.candidateLsa cw there) advertised named
      have outside : state.status cw.vertexId ≠ .inSPFTree := by simp [named, status]
      rw [← named] at ok status
      split at ok
      · cases ok
        exact kept
      · split at ok
        · obtain ⟨w, reaches, ok⟩ := bind_ok ok
          obtain ⟨lsa, _, _⟩ := Manager.spfNexthopCalculation_reach reaches
          cases ok
          exact kept.place (.replace there status rfl) (kept.candidateLsa cw there) outside
            (merges cw w (own.trans lsa.symm) (kept.holds cw there) (handsOn _ _ _ _ reaches))
        · obtain ⟨w, reaches, ok⟩ := bind_ok ok
          obtain ⟨lsa, _, _⟩ := Manager.spfNexthopCalculation_reach reaches
          have same : w.vertexId = cw.vertexId := by rw [SPFVertex.vertexId, lsa]; rfl
          cases ok
          exact kept.place (Placed.replace there status same).reorder
            (lsa ▸ kept.candidateLsa cw there) (same ▸ outside) (handsOn _ _ _ _ reaches)

theorem spfNextLinks {records : List LinkRecord} (kept : Kept manager.lsdb Holds tree state) :
    Ends (· ≠ .fuel) (Kept manager.lsdb Holds tree)
      (manager.spfNextLinks root v records state) := by
  induction records generalizing state with
  | nil => exact kept
  | cons l rest inductionHypothesis =>
      rw [Manager.spfNextLinks]
      split
      · exact inductionHypothesis kept
      · simp [Ends]
      · simp [Ends]
      · split
        · simp [Ends]
        case h_2 wLsa found =>
          exact (kept.consider handsOn merges (LSDB.getLSA_spec found).1).bind
            fun _ _ => inductionHypothesis

theorem spfNextRouters {routers : List Ipv4Address} (kept : Kept manager.lsdb Holds tree state) :
    Ends (· ≠ .fuel) (Kept manager.lsdb Holds tree)
      (manager.spfNextRouters root v routers state) := by
  induction routers generalizing state with
  | nil => exact kept
  | cons attached rest inductionHypothesis =>
      rw [Manager.spfNextRouters]
      split
      · exact inductionHypothesis kept
      case h_2 wLsa found =>
        exact (kept.consider handsOn merges (LSDB.getLSAByLinkData_spec found).1).bind
          fun _ _ => inductionHypothesis

theorem spfNext (kept : Kept manager.lsdb Holds tree state) :
    Ends (· ≠ .fuel) (Kept manager.lsdb Holds tree) (manager.spfNext root v state) := by
  rw [Manager.spfNext]
  split
  · exact kept.spfNextLinks handsOn merges
  · exact kept.spfNextRouters handsOn merges

omit handsOn merges

/-- The first candidate enters the tree. -/
theorem pop {w : SPFVertex} {rest : CandidateQueue} (kept : Kept manager.lsdb Holds tree state)
    (first : state.candidate = w :: rest) :
    Kept manager.lsdb Holds (w.vertexId :: tree)
      ⟨Function.update state.status w.vertexId .inSPFTree, rest⟩ := by
  have there : w ∈ state.candidate := by simp [first]
  have inside : ∀ vertex ∈ rest, vertex ∈ state.candidate := by
    intro vertex member
    simp [first, member]
  obtain ⟨alone, distinct⟩ := List.nodup_cons.mp (first ▸ kept.distinct : Distinct (w :: rest))
  constructor
  case inTree =>
    intro id
    simp only [Function.update_apply, List.mem_cons, ← kept.inTree id]
    split
    case isTrue same => simp [same]
    case isFalse different => simp [different]
  case nodup =>
    refine List.nodup_cons.mpr ⟨fun member => ?_, kept.nodup⟩
    have marked := kept.marked w there
    rw [(kept.inTree _).mpr member] at marked
    cases marked
  case advertised =>
    exact List.cons_subset.mpr
      ⟨List.mem_map.mpr ⟨w.lsa, kept.candidateLsa w there, rfl⟩, kept.advertised⟩
  case candidateLsa => exact fun vertex member => kept.candidateLsa vertex (inside vertex member)
  case marked =>
    intro vertex member
    have different : vertex.vertexId ≠ w.vertexId :=
      fun same => alone (List.mem_map.mpr ⟨vertex, member, same⟩)
    simp only [Function.update_of_ne different]
    exact kept.marked vertex (inside vertex member)
  case distinct => exact distinct
  case holds => exact fun vertex member => kept.holds vertex (inside vertex member)

/-- A candidate is not in the tree. -/
theorem outside {vertex : SPFVertex} (kept : Kept manager.lsdb Holds tree state)
    (member : vertex ∈ state.candidate) : vertex.vertexId ∉ tree := by
  intro inside
  have marked := kept.marked vertex member
  rw [(kept.inTree _).mpr inside] at marked
  cases marked

/-- The loop ends, and all that it pops has the property. -/
theorem spfLoop {fuel : Nat} {current : SPFVertex}
    (inherited : ∀ v, v.vertexId ≠ root → Holds v → HandsOn manager root Holds v)
    (merges : Merges manager Holds) (handsOn : HandsOn manager root Holds current)
    (kept : Kept manager.lsdb Holds tree state) (started : root ∈ tree)
    (enough : manager.lsdb.database.length < fuel + tree.length) :
    Ends (· ≠ .fuel) (fun popped => ∀ vertex ∈ popped, vertex.vertexId ≠ root ∧ Holds vertex)
      (manager.spfLoop root fuel current state) := by
  induction fuel generalizing tree current state with
  | zero =>
      have few := (kept.nodup.subperm kept.advertised).length_le
      rw [List.length_map] at few
      omega
  | succ fuel inductionHypothesis =>
      rw [Manager.spfLoop]
      refine (kept.spfNext handsOn merges).bind fun later _ kept => ?_
      split
      · simp [Ends]
      case h_2 w rest first =>
        have there : w ∈ later.candidate := by simp [first]
        have away : w.vertexId ≠ root := fun same => kept.outside there (same ▸ started)
        have holds := kept.holds w there
        refine (inductionHypothesis (inherited w away holds) (kept.pop first)
          (List.mem_cons_of_mem _ started) ?_).bind fun others _ popped => ?_
        · rw [List.length_cons]
          omega
        · exact List.forall_mem_cons.mpr ⟨⟨away, holds⟩, popped⟩

/-- A calculation starts without candidates. -/
theorem initial {lsa : LSA} (found : manager.lsdb.getLSA root = some lsa) :
    Kept manager.lsdb Holds [root]
      ⟨Function.update (fun _ => .notExplored) root .inSPFTree, []⟩ := by
  obtain ⟨there, named⟩ := LSDB.getLSA_spec found
  constructor
  case inTree =>
    intro id
    by_cases same : id = root <;> simp [same]
  case advertised => simpa using ⟨lsa, there, named⟩
  all_goals simp [Distinct]

end Kept

/-- A calculation has fuel enough in every database. -/
theorem spfLoop_ends {manager : Manager} {root : Ipv4Address} {lsa : LSA}
    (found : manager.lsdb.getLSA root = some lsa) :
    Ends (· ≠ .fuel) (fun _ => True) (manager.spfLoop root (manager.lsdb.database.length + 1)
      { lsa, distanceFromRoot := 0 }
      ⟨Function.update (fun _ => .notExplored) root .inSPFTree, []⟩) := by
  have initial : Kept manager.lsdb (fun _ => True) [root] _ := Kept.initial found
  exact (initial.spfLoop (fun _ _ _ _ _ _ _ _ => trivial) (fun _ _ _ _ _ => trivial)
    (fun _ _ _ _ _ => trivial) (List.mem_singleton_self _)
    (Nat.lt_add_right _ (Nat.lt_succ_self _))).mono fun _ _ => trivial

end Ns3.Internet.GlobalRouting
