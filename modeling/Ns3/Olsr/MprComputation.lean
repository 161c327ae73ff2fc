import Mathlib.Data.Finset.Insert
import Mathlib.Data.Finset.Sort

/-!
The choice of the multipoint relays of an OLSR node.

A 2-hop neighbor is struck from the list when a relay reaches it. Each step of the computation only
strikes what the relays cover, and a step of the last loop strikes at least the 2-hop neighbors of
the relay it adds, so that the loop ends with everything covered.
-/

namespace Ns3.Olsr

/-- `OLSR_WILL_NEVER`. -/
def willNever : Nat := 0

/-- `OLSR_WILL_ALWAYS`. -/
def willAlways : Nat := 7

/-- `NeighborTuple`. -/
structure NeighborTuple where
  neighborMainAddr : Nat
  symmetric : Bool
  willingness : Nat
  deriving DecidableEq, Repr

/-- `TwoHopNeighborTuple`. -/
structure TwoHopNeighborTuple where
  neighborMainAddr : Nat
  twoHopNeighborAddr : Nat
  expirationTime : Int
  deriving DecidableEq, Repr

/-- What `OlsrState` holds for the computation. -/
structure OlsrState where
  neighbors : List NeighborTuple
  twoHopNeighbors : List TwoHopNeighborTuple
  deriving DecidableEq, Repr

/-- `OlsrState::FindNeighborTuple`. -/
def OlsrState.findNeighborTuple (state : OlsrState) (mainAddr : Nat) : Option NeighborTuple :=
  state.neighbors.find? fun neighbor => neighbor.neighborMainAddr = mainAddr

/-- `RoutingProtocol::Degree`. -/
def OlsrState.degree (state : OlsrState) (tuple : NeighborTuple) : Nat :=
  state.twoHopNeighbors.countP fun twoHop =>
    decide (twoHop.neighborMainAddr = tuple.neighborMainAddr) &&
      (state.findNeighborTuple twoHop.neighborMainAddr).isNone

/-- `CoverTwoHopNeighbors`. -/
def coverTwoHopNeighbors (neighborMainAddr : Nat) (twoHops : List TwoHopNeighborTuple) :
    List TwoHopNeighborTuple :=
  let toRemove := (twoHops.filter fun twoHop => twoHop.neighborMainAddr = neighborMainAddr).map
    TwoHopNeighborTuple.twoHopNeighborAddr
  twoHops.filter fun twoHop => decide (twoHop.twoHopNeighborAddr ∉ toRemove)

/-- The symmetric neighbors. -/
def OlsrState.symmetricNeighbors (state : OlsrState) : List NeighborTuple :=
  state.neighbors.filter NeighborTuple.symmetric

/-- The tests that exclude a 2-hop neighbor. -/
def isCandidate (mainAddress : Nat) (neighbors : List NeighborTuple)
    (twoHop : TwoHopNeighborTuple) : Bool :=
  if twoHop.twoHopNeighborAddr = mainAddress then false
  else
    match neighbors.find? fun neigh => neigh.neighborMainAddr = twoHop.neighborMainAddr with
    | none => false
    | some neigh =>
        if neigh.willingness = willNever then false
        else !neighbors.any fun neigh => neigh.neighborMainAddr = twoHop.twoHopNeighborAddr

/-- The relays so far, and the 2-hop neighbors that are left. -/
structure Choice where
  mprSet : Finset Nat
  left : List TwoHopNeighborTuple
  deriving DecidableEq

/-- Make a neighbor a relay. -/
def Choice.elect (choice : Choice) (neighborMainAddr : Nat) : Choice where
  mprSet := insert neighborMainAddr choice.mprSet
  left := coverTwoHopNeighbors neighborMainAddr choice.left

/-- The first step, for a neighbor. -/
def Choice.electAlways (choice : Choice) (neighbor : NeighborTuple) : Choice :=
  if neighbor.willingness = willAlways then choice.elect neighbor.neighborMainAddr else choice

/-- No other neighbor reaches the 2-hop neighbor. -/
def onlyOne (twoHops : List TwoHopNeighborTuple) (twoHop : TwoHopNeighborTuple) : Bool :=
  !twoHops.any fun other => decide (other.twoHopNeighborAddr = twoHop.twoHopNeighborAddr ∧
    other.neighborMainAddr ≠ twoHop.neighborMainAddr)

/-- The third step, for a 2-hop neighbor: the relays and the 2-hop neighbors they cover. -/
def electOnly (twoHops : List TwoHopNeighborTuple) (found : Finset Nat × Finset Nat)
    (twoHop : TwoHopNeighborTuple) : Finset Nat × Finset Nat :=
  if onlyOne twoHops twoHop then
    (insert twoHop.neighborMainAddr found.1,
      twoHops.foldl (fun covered other =>
        if other.neighborMainAddr = twoHop.neighborMainAddr then
          insert other.twoHopNeighborAddr covered
        else covered) found.2)
  else found

/-- The third step. -/
def Choice.electOnlyOnes (choice : Choice) : Choice :=
  let found := choice.left.foldl (electOnly choice.left) (choice.mprSet, ∅)
  { mprSet := found.1
    left := choice.left.filter fun twoHop => decide (twoHop.twoHopNeighborAddr ∉ found.2) }

/-- The number of 2-hop neighbors left that a neighbor reaches. -/
def reachability (twoHops : List TwoHopNeighborTuple) (neighbor : NeighborTuple) : Nat :=
  twoHops.countP fun twoHop => neighbor.neighborMainAddr = twoHop.neighborMainAddr

/-- The comparison of a neighbor and its reachability with the best ones so far. -/
def OlsrState.better (state : OlsrState) (best : Option (NeighborTuple × Nat))
    (neighbor : NeighborTuple × Nat) : Option (NeighborTuple × Nat) :=
  match best with
  | none => some neighbor
  | some (max, maxR) =>
      if max.willingness < neighbor.1.willingness then some neighbor
      else if neighbor.1.willingness = max.willingness then
        if maxR < neighbor.2 then some neighbor
        else if neighbor.2 = maxR then
          if state.degree max < state.degree neighbor.1 then some neighbor else best
        else best
      else best

/-- The neighbors with their reachability, in the order of the latter. -/
def byReachability (neighbors : List NeighborTuple) (twoHops : List TwoHopNeighborTuple) :
    List (NeighborTuple × Nat) :=
  ((neighbors.map (reachability twoHops)).toFinset.sort (· ≤ ·)).flatMap fun r =>
    if r = 0 then []
    else (neighbors.filter fun neighbor => reachability twoHops neighbor = r).map fun neighbor =>
      (neighbor, r)

/-- The choice of the next relay. -/
def OlsrState.selectMax (state : OlsrState) (neighbors : List NeighborTuple)
    (twoHops : List TwoHopNeighborTuple) : Option (NeighborTuple × Nat) :=
  (byReachability neighbors twoHops).foldl state.better none

/-- The fourth step, with fuel for its rounds. -/
def OlsrState.electRest (state : OlsrState) (neighbors : List NeighborTuple) :
    Nat → Choice → Option (Finset Nat)
  | 0, choice => if choice.left = [] then some choice.mprSet else none
  | fuel + 1, choice =>
      if choice.left = [] then some choice.mprSet
      else
        match state.selectMax neighbors choice.left with
        | some (max, _) => state.electRest neighbors fuel (choice.elect max.neighborMainAddr)
        | none => state.electRest neighbors fuel choice

/-- `RoutingProtocol::MprComputation`, the set that it hands to `SetMprSet`. -/
def OlsrState.mprComputation (state : OlsrState) (mainAddress fuel : Nat) : Option (Finset Nat) :=
  let neighbors := state.symmetricNeighbors
  let twoHops := state.twoHopNeighbors.filter (isCandidate mainAddress neighbors)
  let always := neighbors.foldl Choice.electAlways ⟨∅, twoHops⟩
  state.electRest neighbors fuel always.electOnlyOnes

section Covering

variable {neighbors : List NeighborTuple} {twoHops left : List TwoHopNeighborTuple}
  {choice : Choice} {addr : Nat}

/-- A neighbor that would carry traffic has the address. -/
def Willing (neighbors : List NeighborTuple) (addr : Nat) : Prop :=
  ∃ neighbor ∈ neighbors, neighbor.neighborMainAddr = addr ∧ neighbor.willingness ≠ willNever

/-- A relay reaches the 2-hop neighbor. -/
def Covered (twoHops : List TwoHopNeighborTuple) (mprSet : Finset Nat) (addr : Nat) : Prop :=
  ∃ other ∈ twoHops, other.neighborMainAddr ∈ mprSet ∧ other.twoHopNeighborAddr = addr

theorem Covered.mono {mprSet more : Finset Nat} (covered : Covered twoHops mprSet addr)
    (subset : mprSet ⊆ more) : Covered twoHops more addr := by
  obtain ⟨other, listed, relay, same⟩ := covered
  exact ⟨other, listed, subset relay, same⟩

/-- The relays are willing, and what is not left of the 2-hop neighbors is covered. -/
structure Covers (neighbors : List NeighborTuple) (twoHops : List TwoHopNeighborTuple)
    (choice : Choice) : Prop where
  willing : ∀ addr ∈ choice.mprSet, Willing neighbors addr
  among : ∀ twoHop ∈ choice.left, twoHop ∈ twoHops
  covered : ∀ twoHop ∈ twoHops,
    twoHop ∈ choice.left ∨ Covered twoHops choice.mprSet twoHop.twoHopNeighborAddr

theorem mem_coverTwoHopNeighbors {twoHop : TwoHopNeighborTuple} :
    twoHop ∈ coverTwoHopNeighbors addr left ↔ twoHop ∈ left ∧ ∀ other ∈ left,
      other.neighborMainAddr = addr → other.twoHopNeighborAddr ≠ twoHop.twoHopNeighborAddr := by
  rw [coverTwoHopNeighbors, List.mem_filter, decide_eq_true_iff]
  apply and_congr_right
  intro _
  constructor
  · intro kept other listed reaches same
    apply kept
    rw [← same]
    exact List.mem_map_of_mem (List.mem_filter.mpr ⟨listed, decide_eq_true reaches⟩)
  · rintro apart removed
    obtain ⟨other, found, same⟩ := List.mem_map.mp removed
    obtain ⟨listed, reaches⟩ := List.mem_filter.mp found
    exact apart other listed (of_decide_eq_true reaches) same

theorem Covers.elect (covers : Covers neighbors twoHops choice) (willing : Willing neighbors addr) :
    Covers neighbors twoHops (choice.elect addr) where
  willing other member := by
    rcases Finset.mem_insert.mp member with rfl | before
    · exact willing
    · exact covers.willing other before
  among twoHop kept := covers.among twoHop (mem_coverTwoHopNeighbors.mp kept).1
  covered twoHop listed := by
    rcases covers.covered twoHop listed with waits | before
    · by_cases kept : twoHop ∈ coverTwoHopNeighbors addr choice.left
      · exact .inl kept
      · rw [mem_coverTwoHopNeighbors] at kept
        push Not at kept
        obtain ⟨other, found, reaches, same⟩ := kept waits
        refine .inr ⟨other, covers.among other found, ?_, same⟩
        rw [reaches]
        exact Finset.mem_insert_self addr choice.mprSet
    · exact .inr (before.mono (Finset.subset_insert addr choice.mprSet))

/-- A relay that reaches something strikes something. -/
theorem length_elect_lt {twoHop : TwoHopNeighborTuple} (waits : twoHop ∈ choice.left)
    (reaches : twoHop.neighborMainAddr = addr) :
    (choice.elect addr).left.length < choice.left.length := by
  apply List.length_filter_lt_length_iff_exists.mpr
  refine ⟨twoHop, waits, ?_⟩
  rw [decide_eq_true_iff, not_not]
  exact List.mem_map_of_mem (List.mem_filter.mpr ⟨waits, decide_eq_true reaches⟩)

theorem Covers.electAlways (covers : Covers neighbors twoHops choice) {neighbor : NeighborTuple}
    (listed : neighbor ∈ neighbors) : Covers neighbors twoHops (choice.electAlways neighbor) := by
  rw [Choice.electAlways]
  split
  · rename_i always
    exact covers.elect ⟨neighbor, listed, rfl, by rw [always]; decide⟩
  · exact covers

theorem mprSet_electAlways (choice : Choice) (neighbor : NeighborTuple) :
    choice.mprSet ⊆ (choice.electAlways neighbor).mprSet := by
  rw [Choice.electAlways]
  split
  · exact Finset.subset_insert _ _
  · exact Finset.Subset.refl _

theorem mprSet_foldl_electAlways (neighbors : List NeighborTuple) (choice : Choice) :
    choice.mprSet ⊆ (neighbors.foldl Choice.electAlways choice).mprSet ∧
      ∀ neighbor ∈ neighbors, neighbor.willingness = willAlways →
        neighbor.neighborMainAddr ∈ (neighbors.foldl Choice.electAlways choice).mprSet := by
  induction neighbors generalizing choice with
  | nil => exact ⟨Finset.Subset.refl _, fun _ listed => nomatch listed⟩
  | cons first rest inductionHypothesis =>
      obtain ⟨grows, later⟩ := inductionHypothesis (choice.electAlways first)
      refine ⟨(mprSet_electAlways choice first).trans grows, ?_⟩
      apply List.forall_mem_cons.mpr ⟨_, later⟩
      intro always
      apply grows
      rw [Choice.electAlways, if_pos always]
      exact Finset.mem_insert_self _ _

/-- What the third step has found so far. -/
structure FoundOnly (mprSet : Finset Nat) (left : List TwoHopNeighborTuple)
    (found : Finset Nat × Finset Nat) : Prop where
  grows : mprSet ⊆ found.1
  reaches : ∀ addr ∈ found.1, addr ∈ mprSet ∨ ∃ twoHop ∈ left, twoHop.neighborMainAddr = addr
  covered : ∀ addr ∈ found.2, Covered left found.1 addr

theorem FoundOnly.electOnly {mprSet : Finset Nat} {found : Finset Nat × Finset Nat}
    (foundOnly : FoundOnly mprSet left found) {twoHop : TwoHopNeighborTuple}
    (listed : twoHop ∈ left) : FoundOnly mprSet left (electOnly left found twoHop) := by
  rw [Olsr.electOnly]
  split
  · refine ⟨foundOnly.grows.trans (Finset.subset_insert _ _), ?_, ?_⟩
    · intro addr member
      rcases Finset.mem_insert.mp member with rfl | before
      · exact .inr ⟨twoHop, listed, rfl⟩
      · exact foundOnly.reaches addr before
    · apply List.foldlRecOn (motive := fun covered => ∀ addr ∈ covered,
        Covered left (insert twoHop.neighborMainAddr found.1) addr) left
      · exact fun addr before =>
          (foundOnly.covered addr before).mono (Finset.subset_insert _ _)
      · intro covered before other found addr member
        split at member
        · rename_i same
          rcases Finset.mem_insert.mp member with rfl | earlier
          · refine ⟨other, found, ?_, rfl⟩
            rw [same]
            exact Finset.mem_insert_self _ _
          · exact before addr earlier
        · exact before addr member
  · exact foundOnly

theorem Choice.foundOnly (choice : Choice) : FoundOnly choice.mprSet choice.left
    (choice.left.foldl (electOnly choice.left) (choice.mprSet, ∅)) := by
  apply List.foldlRecOn (motive := FoundOnly choice.mprSet choice.left) choice.left
  · exact ⟨Finset.Subset.refl _, fun _ member => .inl member,
      fun _ member => absurd member (Finset.notMem_empty _)⟩
  · exact fun _ foundOnly _ listed => foundOnly.electOnly listed

theorem Covers.electOnlyOnes (covers : Covers neighbors twoHops choice)
    (willing : ∀ twoHop ∈ twoHops, Willing neighbors twoHop.neighborMainAddr) :
    Covers neighbors twoHops choice.electOnlyOnes := by
  have foundOnly := choice.foundOnly
  constructor
  · intro addr member
    rcases foundOnly.reaches addr member with before | ⟨twoHop, waits, rfl⟩
    · exact covers.willing addr before
    · exact willing twoHop (covers.among twoHop waits)
  · exact fun twoHop kept => covers.among twoHop (List.mem_of_mem_filter kept)
  · intro twoHop listed
    rcases covers.covered twoHop listed with waits | before
    · by_cases struck : twoHop.twoHopNeighborAddr ∈
          (choice.left.foldl (electOnly choice.left) (choice.mprSet, ∅)).2
      · obtain ⟨other, found, relay, same⟩ := foundOnly.covered _ struck
        exact .inr ⟨other, covers.among other found, relay, same⟩
      · exact .inl (List.mem_filter.mpr ⟨waits, decide_eq_true struck⟩)
    · exact .inr (before.mono foundOnly.grows)

end Covering

section Selecting

variable {state : OlsrState} {neighbors : List NeighborTuple} {left : List TwoHopNeighborTuple}

theorem better_cases (state : OlsrState) (best neighbor : NeighborTuple × Nat) :
    state.better (some best) neighbor = some best ∨
      state.better (some best) neighbor = some neighbor := by
  rw [OlsrState.better]
  split
  · exact .inr rfl
  · split
    · split
      · exact .inr rfl
      · split
        · split
          · exact .inr rfl
          · exact .inl rfl
        · exact .inl rfl
    · exact .inl rfl

theorem foldl_better (state : OlsrState) (best : NeighborTuple × Nat)
    (candidates : List (NeighborTuple × Nat)) :
    ∃ max ∈ best :: candidates, candidates.foldl state.better (some best) = some max := by
  induction candidates generalizing best with
  | nil => exact ⟨best, List.mem_cons_self, rfl⟩
  | cons first rest inductionHypothesis =>
      rw [List.foldl_cons]
      rcases better_cases state best first with same | better
      · obtain ⟨max, member, found⟩ := inductionHypothesis best
        rw [same]
        refine ⟨max, ?_, found⟩
        rcases List.mem_cons.mp member with rfl | later
        · exact List.mem_cons_self
        · exact List.mem_cons_of_mem _ (List.mem_cons_of_mem _ later)
      · obtain ⟨max, member, found⟩ := inductionHypothesis first
        rw [better]
        exact ⟨max, List.mem_cons_of_mem _ member, found⟩

theorem mem_byReachability {neighbor : NeighborTuple} {r : Nat} :
    (neighbor, r) ∈ byReachability neighbors left ↔
      neighbor ∈ neighbors ∧ reachability left neighbor = r ∧ r ≠ 0 := by
  rw [byReachability, List.mem_flatMap]
  constructor
  · rintro ⟨level, _, member⟩
    split at member
    · exact nomatch member
    · rename_i positive
      obtain ⟨other, found, same⟩ := List.mem_map.mp member
      obtain ⟨listed, reaches⟩ := List.mem_filter.mp found
      obtain ⟨rfl, rfl⟩ := Prod.mk.inj same
      exact ⟨listed, of_decide_eq_true reaches, positive⟩
  · rintro ⟨listed, reaches, positive⟩
    refine ⟨r, ?_, ?_⟩
    · rw [Finset.mem_sort, List.mem_toFinset]
      exact List.mem_map.mpr ⟨neighbor, listed, reaches⟩
    · rw [if_neg positive]
      exact List.mem_map_of_mem (List.mem_filter.mpr ⟨listed, decide_eq_true reaches⟩)

/-- As long as a neighbor reaches something, there is a next relay, and it reaches something. -/
theorem selectMax_spec (state : OlsrState) (waits : left ≠ [])
    (willing : ∀ twoHop ∈ left, Willing neighbors twoHop.neighborMainAddr) :
    ∃ max r, state.selectMax neighbors left = some (max, r) ∧
      ∃ twoHop ∈ left, twoHop.neighborMainAddr = max.neighborMainAddr := by
  obtain ⟨first, rest, cut⟩ := List.exists_cons_of_ne_nil waits
  have listed : first ∈ left := cut ▸ List.mem_cons_self
  obtain ⟨neighbor, among, same, _⟩ := willing first listed
  have positive : reachability left neighbor ≠ 0 :=
    Nat.ne_of_gt (List.countP_pos_iff.mpr ⟨first, listed, decide_eq_true same⟩)
  have candidate : (neighbor, reachability left neighbor) ∈ byReachability neighbors left :=
    mem_byReachability.mpr ⟨among, rfl, positive⟩
  obtain ⟨best, others, split⟩ := List.exists_cons_of_ne_nil (List.ne_nil_of_mem candidate)
  obtain ⟨⟨max, r⟩, member, found⟩ := foldl_better state best others
  rw [← split] at member
  obtain ⟨_, reaches, some⟩ := mem_byReachability.mp member
  refine ⟨max, r, ?_, ?_⟩
  · rw [OlsrState.selectMax, split]
    exact found
  · obtain ⟨twoHop, there, reached⟩ := List.countP_pos_iff.mp
      (Nat.pos_of_ne_zero (reaches ▸ some : reachability left max ≠ 0))
    exact ⟨twoHop, there, (of_decide_eq_true reached).symm⟩

variable {twoHops : List TwoHopNeighborTuple}

/-- The last loop ends, with everything covered. -/
theorem electRest_spec (state : OlsrState) {choice : Choice}
    (willing : ∀ twoHop ∈ twoHops, Willing neighbors twoHop.neighborMainAddr)
    (covers : Covers neighbors twoHops choice) :
    ∃ mprSet, (∀ fuel, choice.left.length ≤ fuel →
        state.electRest neighbors fuel choice = some mprSet) ∧
      choice.mprSet ⊆ mprSet ∧ Covers neighbors twoHops ⟨mprSet, []⟩ := by
  induction size : choice.left.length using Nat.strongRecOn generalizing choice with
  | ind size' inductionHypothesis =>
      by_cases done : choice.left = []
      · refine ⟨choice.mprSet, ?_, Finset.Subset.refl _, ?_⟩
        · intro fuel _
          cases fuel with
          | zero => rw [OlsrState.electRest, if_pos done]
          | succ fuel => rw [OlsrState.electRest, if_pos done]
        · rw [← done]
          exact covers
      · obtain ⟨max, r, found, twoHop, waits, reaches⟩ := selectMax_spec state done
          fun twoHop waits => willing twoHop (covers.among twoHop waits)
        have elected := covers.elect (reaches ▸ willing twoHop (covers.among twoHop waits))
        have fewer := length_elect_lt waits reaches
        obtain ⟨mprSet, ends, grows, rest⟩ :=
          inductionHypothesis _ (size ▸ fewer) elected rfl
        refine ⟨mprSet, ?_, (Finset.subset_insert _ _).trans grows, rest⟩
        intro fuel enough
        cases fuel with
        | zero => omega
        | succ fuel =>
            rw [OlsrState.electRest, if_neg done, found]
            exact ends fuel (by omega)

end Selecting

/-- What the relays of a node are for. -/
structure IsRelaySet (state : OlsrState) (mainAddress : Nat) (mprSet : Finset Nat) : Prop where
  willing : ∀ addr ∈ mprSet, ∃ neighbor ∈ state.neighbors, neighbor.symmetric = true ∧
    neighbor.neighborMainAddr = addr ∧ neighbor.willingness ≠ willNever
  always : ∀ neighbor ∈ state.neighbors, neighbor.symmetric = true →
    neighbor.willingness = willAlways → neighbor.neighborMainAddr ∈ mprSet
  /-- Each node that is two hops away over a willing neighbor is next to a relay. -/
  reaches : ∀ twoHop ∈ state.twoHopNeighbors, twoHop.twoHopNeighborAddr ≠ mainAddress →
    (∀ neighbor ∈ state.neighbors, neighbor.symmetric = true →
      neighbor.neighborMainAddr ≠ twoHop.twoHopNeighborAddr) →
    (∃ neighbor ∈ state.neighbors, neighbor.symmetric = true ∧
      neighbor.neighborMainAddr = twoHop.neighborMainAddr) →
    (∀ neighbor ∈ state.neighbors, neighbor.symmetric = true →
      neighbor.neighborMainAddr = twoHop.neighborMainAddr → neighbor.willingness ≠ willNever) →
    Covered state.twoHopNeighbors mprSet twoHop.twoHopNeighborAddr

section Computation

variable {state : OlsrState} {mainAddress : Nat} {twoHop : TwoHopNeighborTuple}

theorem mem_symmetricNeighbors {neighbor : NeighborTuple} :
    neighbor ∈ state.symmetricNeighbors ↔
      neighbor ∈ state.neighbors ∧ neighbor.symmetric = true := List.mem_filter

theorem willing_of_isCandidate {neighbors : List NeighborTuple}
    (candidate : isCandidate mainAddress neighbors twoHop = true) :
    Willing neighbors twoHop.neighborMainAddr := by
  rw [isCandidate] at candidate
  split at candidate
  · exact absurd candidate Bool.false_ne_true
  · split at candidate
    · exact absurd candidate Bool.false_ne_true
    · rename_i neighbor found
      split at candidate
      · exact absurd candidate Bool.false_ne_true
      · rename_i willing
        have same : neighbor.neighborMainAddr = twoHop.neighborMainAddr := by
          simpa using List.find?_some found
        exact ⟨neighbor, List.mem_of_find?_eq_some found, same, willing⟩

theorem isCandidate_of_willing {neighbors : List NeighborTuple}
    (other : twoHop.twoHopNeighborAddr ≠ mainAddress)
    (far : ∀ neighbor ∈ neighbors, neighbor.neighborMainAddr ≠ twoHop.twoHopNeighborAddr)
    (near : ∃ neighbor ∈ neighbors, neighbor.neighborMainAddr = twoHop.neighborMainAddr)
    (willing : ∀ neighbor ∈ neighbors, neighbor.neighborMainAddr = twoHop.neighborMainAddr →
      neighbor.willingness ≠ willNever) :
    isCandidate mainAddress neighbors twoHop = true := by
  rw [isCandidate, if_neg other]
  cases found : neighbors.find? fun neigh => neigh.neighborMainAddr = twoHop.neighborMainAddr with
  | none =>
      obtain ⟨neighbor, listed, same⟩ := near
      exact absurd (decide_eq_true same) (List.find?_eq_none.mp found neighbor listed)
  | some neighbor =>
      have same : neighbor.neighborMainAddr = twoHop.neighborMainAddr := by
        simpa using List.find?_some found
      dsimp only
      rw [if_neg (willing neighbor (List.mem_of_find?_eq_some found) same), Bool.not_eq_true']
      apply List.any_eq_false.mpr
      intro neighbor listed
      exact Bool.eq_false_iff.mp (decide_eq_false (far neighbor listed))

theorem length_left_foldl_electAlways (neighbors : List NeighborTuple) (choice : Choice) :
    (neighbors.foldl Choice.electAlways choice).left.length ≤ choice.left.length := by
  apply List.foldlRecOn (motive := fun other : Choice => other.left.length ≤ choice.left.length)
    neighbors
  · exact le_refl _
  · intro other shorter neighbor _
    rw [Choice.electAlways]
    split
    · exact (List.length_filter_le _ _).trans shorter
    · exact shorter

theorem Covers.foldl_electAlways {neighbors : List NeighborTuple}
    {twoHops : List TwoHopNeighborTuple} {choice : Choice}
    (covers : Covers neighbors twoHops choice) :
    Covers neighbors twoHops (neighbors.foldl Choice.electAlways choice) :=
  List.foldlRecOn (motive := Covers neighbors twoHops) neighbors _ covers
    fun _ covers _ listed => covers.electAlways listed

/-- The computation ends with a set of relays. -/
theorem mprComputation_spec (state : OlsrState) (mainAddress : Nat) :
    ∃ mprSet, (∀ fuel, state.twoHopNeighbors.length ≤ fuel →
        state.mprComputation mainAddress fuel = some mprSet) ∧
      IsRelaySet state mainAddress mprSet := by
  have willing : ∀ twoHop ∈ state.twoHopNeighbors.filter
      (isCandidate mainAddress state.symmetricNeighbors),
      Willing state.symmetricNeighbors twoHop.neighborMainAddr :=
    fun twoHop listed => willing_of_isCandidate (List.mem_filter.mp listed).2
  have start : Covers state.symmetricNeighbors (state.twoHopNeighbors.filter
      (isCandidate mainAddress state.symmetricNeighbors))
      ⟨∅, state.twoHopNeighbors.filter (isCandidate mainAddress state.symmetricNeighbors)⟩ :=
    ⟨fun _ member => absurd member (Finset.notMem_empty _), fun _ listed => listed,
      fun _ listed => .inl listed⟩
  obtain ⟨mprSet, ends, grows, covers⟩ := electRest_spec state willing
    (start.foldl_electAlways.electOnlyOnes willing)
  obtain ⟨_, always⟩ := mprSet_foldl_electAlways state.symmetricNeighbors ⟨∅,
    state.twoHopNeighbors.filter (isCandidate mainAddress state.symmetricNeighbors)⟩
  refine ⟨mprSet, ?_, ?_, ?_, ?_⟩
  · intro fuel enough
    apply ends fuel
    exact ((List.length_filter_le _ _).trans (length_left_foldl_electAlways _ _)).trans
      ((List.length_filter_le _ _).trans enough)
  · intro addr relay
    obtain ⟨neighbor, listed, same, willing⟩ := covers.willing addr relay
    obtain ⟨known, symmetric⟩ := mem_symmetricNeighbors.mp listed
    exact ⟨neighbor, known, symmetric, same, willing⟩
  · intro neighbor known symmetric most
    exact grows ((Choice.foundOnly _).grows
      (always neighbor (mem_symmetricNeighbors.mpr ⟨known, symmetric⟩) most))
  · intro twoHop known other far near willing
    obtain ⟨neighbor, listed, symmetric, same⟩ := near
    have candidate : isCandidate mainAddress state.symmetricNeighbors twoHop = true := by
      apply isCandidate_of_willing other
      · exact fun neighbor listed => far neighbor (mem_symmetricNeighbors.mp listed).1
          (mem_symmetricNeighbors.mp listed).2
      · exact ⟨neighbor, mem_symmetricNeighbors.mpr ⟨listed, symmetric⟩, same⟩
      · exact fun neighbor listed => willing neighbor (mem_symmetricNeighbors.mp listed).1
          (mem_symmetricNeighbors.mp listed).2
    rcases covers.covered twoHop (List.mem_filter.mpr ⟨known, candidate⟩) with waits | covered
    · exact nomatch waits
    · obtain ⟨relayed, listed, relay, same⟩ := covered
      exact ⟨relayed, List.mem_of_mem_filter listed, relay, same⟩

end Computation

end Ns3.Olsr
