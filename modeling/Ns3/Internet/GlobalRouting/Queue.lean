import Ns3.Internet.GlobalRouting.Kernel

/-!
The candidate queue stays in order, and its operations do to the candidates what their names
say.
-/

namespace Ns3.Internet.GlobalRouting

/-- The distance of a vertex as a number. -/
def SPFVertex.distance (vertex : SPFVertex) : Nat := vertex.distanceFromRoot.toNat

/-- The vertices of the list are in the order in which they are popped. -/
def Ordered (queue : CandidateQueue) : Prop :=
  queue.Pairwise fun v1 v2 => CandidateQueue.compareSPFVertex v2 v1 = false

/-- No two vertices have the same id. -/
def Distinct (vertices : List SPFVertex) : Prop :=
  (vertices.map (·.vertexId)).Nodup

theorem Distinct.eq {vertices : List SPFVertex} (distinct : Distinct vertices)
    {first second : SPFVertex} (found : first ∈ vertices) (found' : second ∈ vertices)
    (same : first.vertexId = second.vertexId) : first = second :=
  List.inj_on_of_nodup_map distinct found found' same

namespace CandidateQueue

variable {queue : CandidateQueue} {vertex other third changed : SPFVertex} {addr : Ipv4Address}

theorem not_compare_iff : compareSPFVertex other vertex = false ↔
    vertex.distance < other.distance ∨ vertex.distance = other.distance ∧
      (vertex.vertexType = .networkLSA ∨ other.vertexType = .routerLSA) := by
  cases first : vertex.vertexType <;> cases second : other.vertexType <;>
    simp [compareSPFVertex, first, second, SPFVertex.distance, BitVec.lt_def,
      BitVec.toNat_inj.symm] <;> omega

theorem compare_total : compareSPFVertex vertex other = false ∨
    compareSPFVertex other vertex = false := by
  rw [not_compare_iff, not_compare_iff]
  rcases Nat.lt_trichotomy vertex.distance other.distance with less | same | more
  · exact .inr (.inl less)
  · cases kind : vertex.vertexType with
    | routerLSA => exact .inl (.inr ⟨same.symm, .inr rfl⟩)
    | networkLSA => exact .inr (.inr ⟨same, .inl rfl⟩)
  · exact .inl (.inl more)

theorem compare_trans (first : compareSPFVertex other vertex = false)
    (second : compareSPFVertex third other = false) :
    compareSPFVertex third vertex = false := by
  rw [not_compare_iff] at first second ⊢
  rcases first with less | ⟨same, kind⟩
  · rcases second with less' | ⟨same', _⟩
    · exact .inl (less.trans less')
    · exact .inl (same' ▸ less)
  · rcases second with less' | ⟨same', kind'⟩
    · exact .inl (same ▸ less')
    · refine .inr ⟨same.trans same', ?_⟩
      rcases kind with network | router
      · exact .inl network
      · rcases kind' with network | router'
        · rw [router] at network
          simp at network
        · exact .inr router'

/-- In order, the first vertex is the closest, and a network among the closest if there is
one. -/
theorem first_le (ordered : Ordered (vertex :: queue)) (found : other ∈ queue) :
    vertex.distance ≤ other.distance := by
  have order := not_compare_iff.mp ((List.pairwise_cons.mp ordered).1 other found)
  omega

theorem push_perm : (queue.push vertex).Perm (vertex :: queue) := by
  rw [push]
  refine List.perm_middle.trans ?_
  rw [List.takeWhile_append_dropWhile]

theorem push_nil : push [] vertex = [vertex] := rfl

theorem push_cons : push (other :: queue) vertex =
    if compareSPFVertex vertex other then vertex :: other :: queue
    else other :: push queue vertex := by
  cases order : compareSPFVertex vertex other <;> simp [push, order]

theorem ordered_push (ordered : Ordered queue) : Ordered (queue.push vertex) := by
  induction queue with
  | nil => simp [push_nil, Ordered]
  | cons first rest inductionHypothesis =>
      obtain ⟨before, tail⟩ := List.pairwise_cons.mp ordered
      rw [push_cons]
      split
      case isTrue less =>
        have order : compareSPFVertex first vertex = false := by
          rcases @compare_total vertex first with impossible | order
          · rw [less] at impossible
            simp at impossible
          · exact order
        refine List.pairwise_cons.mpr ⟨fun later found => ?_, ordered⟩
        rcases List.mem_cons.mp found with rfl | further
        · exact order
        · exact compare_trans order (before later further)
      case isFalse notLess =>
        refine List.pairwise_cons.mpr ⟨fun later found => ?_, inductionHypothesis tail⟩
        rcases List.mem_cons.mp (push_perm.mem_iff.mp found) with rfl | further
        · simpa using notLess
        · exact before later further

theorem reorder_perm : queue.reorder.Perm queue :=
  List.perm_insertionSort _ _

theorem ordered_reorder : Ordered queue.reorder := by
  have total : Std.Total fun v1 v2 : SPFVertex => compareSPFVertex v2 v1 = false :=
    ⟨fun v1 v2 => compare_total.symm⟩
  have trans : IsTrans SPFVertex fun v1 v2 => compareSPFVertex v2 v1 = false :=
    ⟨fun v1 v2 v3 first second => compare_trans first second⟩
  exact List.pairwise_insertionSort _ _

theorem find_spec (found : queue.find addr = some vertex) :
    vertex ∈ queue ∧ vertex.vertexId = addr :=
  ⟨List.mem_of_find?_eq_some found, by simpa using List.find?_some found⟩

theorem mem_replace (found : vertex ∈ queue) (named : vertex.vertexId = addr) :
    other ∈ queue.replace addr changed ↔
      other = changed ∨ other ∈ queue ∧ other.vertexId ≠ addr := by
  simp only [replace, List.mem_map]
  constructor
  · rintro ⟨former, member, rfl⟩
    split
    case isTrue => exact .inl rfl
    case isFalse different => exact .inr ⟨member, different⟩
  · rintro (rfl | ⟨member, different⟩)
    · exact ⟨vertex, found, by simp [named]⟩
    · exact ⟨other, member, by simp [different]⟩

theorem replace_ids (named : changed.vertexId = addr) :
    (queue.replace addr changed).map (·.vertexId) = queue.map (·.vertexId) := by
  simp only [replace, List.map_map]
  refine List.map_congr_left fun vertex _ => ?_
  simp only [Function.comp_apply]
  split
  case isTrue same => rw [named, same]
  case isFalse => rfl

/-- Only what the order depends on counts. -/
theorem ordered_replace (ordered : Ordered queue) (distinct : Distinct queue)
    (found : vertex ∈ queue) (named : vertex.vertexId = addr)
    (sameDistance : changed.distance = vertex.distance)
    (sameType : changed.vertexType = vertex.vertexType) : Ordered (queue.replace addr changed) := by
  have same : ∀ former ∈ queue,
      (if former.vertexId = addr then changed else former).distance = former.distance ∧
        (if former.vertexId = addr then changed else former).vertexType = former.vertexType := by
    intro former member
    split
    case isTrue equal =>
      have := distinct.eq member found (equal.trans named.symm)
      subst this
      exact ⟨sameDistance, sameType⟩
    case isFalse => exact ⟨rfl, rfl⟩
  rw [Ordered, replace, List.pairwise_map]
  refine List.Pairwise.imp_of_mem (fun member member' order => ?_) ordered
  rw [not_compare_iff] at order ⊢
  rw [(same _ member).1, (same _ member').1, (same _ member).2, (same _ member').2]
  exact order

end CandidateQueue

/-- A vertex has become a candidate, in the place of the one with its id if there was one. -/
structure Placed (new : SPFVertex) (state later : SPFState) : Prop where
  status : later.status = Function.update state.status new.vertexId .candidate
  members : ∀ vertex, vertex ∈ later.candidate ↔
    vertex = new ∨ vertex ∈ state.candidate ∧ vertex.vertexId ≠ new.vertexId
  distinct : Distinct state.candidate → Distinct later.candidate

namespace Placed

variable {state : SPFState} {new cw : SPFVertex}

theorem push (absent : ∀ vertex ∈ state.candidate, vertex.vertexId ≠ new.vertexId) :
    Placed new state
      ⟨Function.update state.status new.vertexId .candidate, state.candidate.push new⟩ where
  status := rfl
  members := by
    intro vertex
    rw [CandidateQueue.push_perm.mem_iff, List.mem_cons]
    exact or_congr_right ⟨fun member => ⟨member, absent vertex member⟩, fun both => both.1⟩
  distinct := by
    intro distinct
    rw [Distinct, (CandidateQueue.push_perm.map _).nodup_iff, List.map_cons, List.nodup_cons]
    refine ⟨fun member => ?_, distinct⟩
    obtain ⟨vertex, there, same⟩ := List.mem_map.mp member
    exact absent vertex there same

theorem replace (there : cw ∈ state.candidate) (marked : state.status cw.vertexId = .candidate)
    (named : new.vertexId = cw.vertexId) :
    Placed new state ⟨state.status, state.candidate.replace cw.vertexId new⟩ where
  status := by rw [named, ← marked, Function.update_eq_self]
  members := by
    intro vertex
    rw [named]
    exact CandidateQueue.mem_replace there rfl
  distinct := by
    intro distinct
    rwa [Distinct, CandidateQueue.replace_ids named]

theorem reorder {later : SPFState} (placed : Placed new state later) :
    Placed new state ⟨later.status, later.candidate.reorder⟩ where
  status := placed.status
  members vertex := CandidateQueue.reorder_perm.mem_iff.trans (placed.members vertex)
  distinct := by
    intro distinct
    rw [Distinct, (CandidateQueue.reorder_perm.map _).nodup_iff]
    exact placed.distinct distinct

end Placed

end Ns3.Internet.GlobalRouting
