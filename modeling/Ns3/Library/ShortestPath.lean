import Mathlib.Algebra.Order.Ring.Int
import Mathlib.Algebra.BigOperators.Group.List.Basic
import Mathlib.Order.Nat

/-!
Shortest paths from one vertex in a graph whose links have a cost.

`Search` is the invariant of an algorithm that settles vertices in the order of their
distance. It does not say how the candidates are kept, only that each of them stands for a
walk and that every link from a settled vertex that was seen has been taken into account.
-/

namespace Ns3.Library

universe u v

/-- A directed graph with labelled links. -/
structure Graph (Vertex : Type u) (Label : Type v) where
  Link : Vertex → Label → Vertex → Prop
  cost : Label → Nat

namespace Graph

variable {Vertex : Type u} {Label : Type v} (graph : Graph Vertex Label) (root : Vertex)

/-- The cost of the links of a walk. -/
def length (trail : List Label) : Nat := (trail.map graph.cost).sum

@[simp]
theorem length_nil : graph.length [] = 0 := rfl

@[simp]
theorem length_concat (trail : List Label) (label : Label) :
    graph.length (trail ++ [label]) = graph.length trail + graph.cost label := by
  simp [length]

/-- A walk from the root, with the labels of its links in order. -/
inductive Walk : Vertex → List Label → Prop where
  | root : Walk root []
  | step {vertex next trail label} :
      Walk vertex trail → graph.Link vertex label next → Walk next (trail ++ [label])

/-- A walk from the root leads to the vertex. -/
def Reachable (vertex : Vertex) : Prop := ∃ trail, graph.Walk root vertex trail

/-- The cost of a shortest walk from the root. -/
def Distance (vertex : Vertex) (distance : Nat) : Prop :=
  (∃ trail, graph.Walk root vertex trail ∧ graph.length trail = distance) ∧
    ∀ trail, graph.Walk root vertex trail → distance ≤ graph.length trail

/-- A shortest walk from the root. -/
def Shortest (vertex : Vertex) (trail : List Label) : Prop :=
  graph.Walk root vertex trail ∧ graph.Distance root vertex (graph.length trail)

/-- A link that shortest walks end with. -/
def Tight (vertex : Vertex) (label : Label) (next : Vertex) : Prop :=
  graph.Link vertex label next ∧ ∃ distance, graph.Distance root vertex distance ∧
    graph.Distance root next (distance + graph.cost label)

variable {graph root}

theorem Distance.unique {vertex : Vertex} {first second : Nat}
    (distance : graph.Distance root vertex first) (other : graph.Distance root vertex second) :
    first = second := by
  obtain ⟨⟨trail, walk, rfl⟩, least⟩ := distance
  obtain ⟨⟨trail', walk', rfl⟩, least'⟩ := other
  exact Nat.le_antisymm (least trail' walk') (least' trail walk)

theorem Distance.shortest {vertex : Vertex} {distance : Nat}
    (least : graph.Distance root vertex distance) :
    ∃ trail, graph.Shortest root vertex trail ∧ graph.length trail = distance := by
  obtain ⟨⟨trail, walk, rfl⟩, bound⟩ := least
  exact ⟨trail, ⟨walk, ⟨trail, walk, rfl⟩, bound⟩, rfl⟩

/-- A shortest walk goes on over a tight link. -/
theorem Shortest.step {vertex next : Vertex} {trail : List Label} {label : Label}
    (shortest : graph.Shortest root vertex trail) (tight : graph.Tight root vertex label next) :
    graph.Shortest root next (trail ++ [label]) := by
  obtain ⟨link, distance, least, least'⟩ := tight
  refine ⟨shortest.1.step link, ?_⟩
  rw [length_concat, shortest.2.unique least]
  exact least'

/-- A shortest walk is that to the root, or it has a last link, which is tight. -/
theorem Shortest.last {vertex : Vertex} {trail : List Label}
    (shortest : graph.Shortest root vertex trail) : vertex = root ∧ trail = [] ∨
      ∃ before label start, trail = start ++ [label] ∧ graph.Shortest root before start ∧
        graph.Tight root before label vertex := by
  obtain ⟨walk, least⟩ := shortest
  cases walk with
  | root => exact .inl ⟨rfl, rfl⟩
  | @step before _ start label walk link =>
      have nearest : graph.Distance root before (graph.length start) := by
        refine ⟨⟨start, walk, rfl⟩, fun other walk' => ?_⟩
        have bound := least.2 _ (walk'.step link)
        rw [length_concat, length_concat] at bound
        exact Nat.le_of_add_le_add_right bound
      refine .inr ⟨before, label, start, rfl, ⟨walk, nearest⟩, link, _, nearest, ?_⟩
      rwa [length_concat] at least

theorem Walk.nil {vertex : Vertex} (walk : graph.Walk root vertex []) : vertex = root := by
  generalize empty : [] = trail at walk
  cases walk with
  | root => rfl
  | step => simp at empty

theorem Walk.single {vertex : Vertex} {label : Label} (walk : graph.Walk root vertex [label]) :
    graph.Link root label vertex := by
  generalize single : [label] = trail at walk
  cases walk with
  | root => simp at single
  | step walk link =>
      obtain ⟨rfl, same⟩ := List.append_eq_singleton_iff.mp single.symm |>.resolve_right (by simp)
      obtain rfl : _ = label := by simpa using same
      exact walk.nil ▸ link

theorem Distance.reachable {vertex : Vertex} {distance : Nat}
    (least : graph.Distance root vertex distance) : graph.Reachable root vertex := by
  obtain ⟨⟨trail, walk, _⟩, _⟩ := least
  exact ⟨trail, walk⟩

/-- The state of a search: vertices that are settled with their distance, candidates with the
cost of some walk, and the links that were seen. -/
structure Search (graph : Graph Vertex Label) (root : Vertex)
    (Settled Candidate : Vertex → Nat → Prop) (Seen : Vertex → Label → Vertex → Prop) :
    Prop where
  start : Settled root 0
  exact : ∀ vertex distance, Settled vertex distance → graph.Distance root vertex distance
  walked : ∀ vertex distance, Candidate vertex distance →
    ∃ trail, graph.Walk root vertex trail ∧ graph.length trail = distance
  ordered : ∀ vertex distance next other, Settled vertex distance → Candidate next other →
    distance ≤ other
  seen : ∀ vertex distance label next, Settled vertex distance → graph.Link vertex label next →
    Seen vertex label next → (∃ other, Settled next other) ∨
      ∃ other, Candidate next other ∧ other ≤ distance + graph.cost label

namespace Search

variable {Settled Candidate : Vertex → Nat → Prop} {Seen : Vertex → Label → Vertex → Prop}

/-- Before anything is seen only the root is settled. -/
theorem initial : Search graph root (fun vertex distance => vertex = root ∧ distance = 0)
    (fun _ _ => False) (fun vertex _ _ => vertex ≠ root) where
  start := ⟨rfl, rfl⟩
  exact := by
    rintro vertex distance ⟨rfl, rfl⟩
    exact ⟨⟨[], .root, rfl⟩, fun _ _ => Nat.zero_le _⟩
  walked _ _ impossible := impossible.elim
  ordered _ _ _ _ _ impossible := impossible.elim
  seen := by
    rintro vertex distance label next ⟨rfl, rfl⟩ _ different
    exact absurd rfl different

/-- The candidates change: each of them still stands for a walk, none is lost or farther than
before, and the links that are new among the seen ones are taken into account. -/
theorem relax {Candidate' : Vertex → Nat → Prop} {Seen' : Vertex → Label → Vertex → Prop}
    (search : Search graph root Settled Candidate Seen)
    (walked : ∀ vertex distance, Candidate' vertex distance →
      ∃ trail, graph.Walk root vertex trail ∧ graph.length trail = distance)
    (ordered : ∀ vertex distance next other, Settled vertex distance → Candidate' next other →
      distance ≤ other)
    (kept : ∀ vertex distance, Candidate vertex distance →
      ∃ other, Candidate' vertex other ∧ other ≤ distance)
    (seen : ∀ vertex distance label next, Settled vertex distance →
      graph.Link vertex label next → Seen' vertex label next →
      Seen vertex label next ∨ (∃ other, Settled next other) ∨
        ∃ other, Candidate' next other ∧ other ≤ distance + graph.cost label) :
    Search graph root Settled Candidate' Seen' where
  start := search.start
  exact := search.exact
  walked := walked
  ordered := ordered
  seen := by
    intro vertex distance label next settled link isSeen
    rcases seen vertex distance label next settled link isSeen with before | now
    · rcases search.seen vertex distance label next settled link before with
        done | ⟨other, candidate, bound⟩
      · exact .inl done
      · obtain ⟨closer, candidate', closer_le⟩ := kept next other candidate
        exact .inr ⟨closer, candidate', closer_le.trans bound⟩
    · exact now

variable (search : Search graph root Settled Candidate Seen)
  (complete : ∀ vertex distance label next, Settled vertex distance →
    graph.Link vertex label next → Seen vertex label next)
include search complete

/-- A walk ends at a settled vertex or is at least as long as some candidate. -/
theorem frontier {vertex : Vertex} {trail : List Label} (walk : graph.Walk root vertex trail) :
    (∃ distance, Settled vertex distance ∧ distance ≤ graph.length trail) ∨
      ∃ other distance, Candidate other distance ∧ distance ≤ graph.length trail := by
  induction walk with
  | root => exact .inl ⟨0, search.start, Nat.zero_le _⟩
  | @step vertex next trail label walk link inductionHypothesis =>
      rcases inductionHypothesis with
        ⟨distance, settled, bound⟩ | ⟨other, distance, candidate, bound⟩
      · rcases search.seen vertex distance label next settled link
          (complete vertex distance label next settled link) with
          ⟨nearest, done⟩ | ⟨found, candidate, found_le⟩
        · refine .inl ⟨nearest, done, ?_⟩
          exact (search.exact next nearest done).2 _ (walk.step link)
        · refine .inr ⟨next, found, candidate, ?_⟩
          rw [length_concat]
          exact found_le.trans (Nat.add_le_add_right bound _)
      · refine .inr ⟨other, distance, candidate, ?_⟩
        rw [length_concat]
        exact bound.trans (Nat.le_add_right _ _)

/-- The closest candidate has its distance. -/
theorem closest {vertex : Vertex} {distance : Nat} (candidate : Candidate vertex distance)
    (least : ∀ other farther, Candidate other farther → distance ≤ farther)
    (fresh : ∀ other, ¬ Settled vertex other) : graph.Distance root vertex distance := by
  refine ⟨search.walked vertex distance candidate, fun trail walk => ?_⟩
  rcases search.frontier complete walk with ⟨settled, done, _⟩ | ⟨other, farther, found, bound⟩
  · exact absurd done (fresh settled)
  · exact (least other farther found).trans bound

/-- The closest candidate is settled; its links are still to be seen. -/
theorem settle {vertex : Vertex} {distance : Nat} {Settled' Candidate' : Vertex → Nat → Prop}
    {Seen' : Vertex → Label → Vertex → Prop} (candidate : Candidate vertex distance)
    (least : ∀ other farther, Candidate other farther → distance ≤ farther)
    (fresh : ∀ other, ¬ Settled vertex other)
    (settled : ∀ other farther, Settled' other farther ↔
      Settled other farther ∨ other = vertex ∧ farther = distance)
    (remaining : ∀ other farther, Candidate' other farther → Candidate other farther)
    (kept : ∀ other farther, Candidate other farther →
      other = vertex ∨ Candidate' other farther)
    (unseen : ∀ label next, ¬ Seen' vertex label next) :
    Search graph root Settled' Candidate' Seen' where
  start := (settled root 0).mpr (.inl search.start)
  exact := by
    intro other farther done
    rcases (settled other farther).mp done with before | ⟨rfl, rfl⟩
    · exact search.exact other farther before
    · exact search.closest complete candidate least fresh
  walked other farther found := search.walked other farther (remaining other farther found)
  ordered := by
    intro other farther next away done found
    rcases (settled other farther).mp done with before | ⟨rfl, rfl⟩
    · exact search.ordered other farther next away before (remaining next away found)
    · exact least next away (remaining next away found)
  seen := by
    intro other farther label next done link isSeen
    rcases (settled other farther).mp done with before | ⟨rfl, rfl⟩
    · rcases search.seen other farther label next before link
        (complete other farther label next before link) with
        ⟨nearest, found⟩ | ⟨nearest, found, bound⟩
      · exact .inl ⟨nearest, (settled next nearest).mpr (.inl found)⟩
      · rcases kept next nearest found with rfl | still
        · exact .inl ⟨distance, (settled next distance).mpr (.inr ⟨rfl, rfl⟩)⟩
        · exact .inr ⟨nearest, still, bound⟩
    · exact absurd isSeen (unseen label next)

/-- Without candidates the search has settled all vertices that can be reached. -/
theorem finished (empty : ∀ vertex distance, ¬ Candidate vertex distance) (vertex : Vertex) :
    (∃ distance, Settled vertex distance) ↔ graph.Reachable root vertex := by
  constructor
  · rintro ⟨distance, settled⟩
    exact (search.exact vertex distance settled).reachable
  · rintro ⟨trail, walk⟩
    rcases search.frontier complete walk with ⟨distance, settled, _⟩ | ⟨other, distance, found, _⟩
    · exact ⟨distance, settled⟩
    · exact absurd found (empty other distance)

end Search

end Graph

end Ns3.Library
