import Ns3.Internet.GlobalRouting.FirstHops
import Ns3.Internet.GlobalRouting.Distances

/-!
The loop of `SPFNexthopCalculation` over the links from a router back to a network.

The loop asks `SPFGetNextLink` for the link that comes after the last one it has seen. With a
previous link, whichever it is, `SPFGetNextLink` returns the third link that matches. So the loop
visits all links only if there is at most one of them; of two it visits the first, and with three
or more it never ends.
-/

namespace Ns3.Internet.GlobalRouting

/-- The link records of a vertex that name another one. -/
def linksTo (w v : SPFVertex) : List LinkRecord :=
  w.lsa.linkRecords.filter (·.linkId == v.vertexId)

/-- The loop `while ((linkRemote = SPFGetNextLink (w, v, linkRemote)))`: it goes on from the
previous link, visits the records and ends. -/
inductive Visits (w v : SPFVertex) : Option LinkRecord → List LinkRecord → Prop
  | done {previous : Option LinkRecord} :
      spfGetNextLink w v previous = none → Visits w v previous []
  | next {previous : Option LinkRecord} {linkRemote : LinkRecord} {rest : List LinkRecord} :
      spfGetNextLink w v previous = some linkRemote → Visits w v (some linkRemote) rest →
      Visits w v previous (linkRemote :: rest)

section Links

variable {id : Ipv4Address} {records : List LinkRecord}

/-- The link that is skipped is the first one that matches. -/
theorem nextLink_second :
    nextLink id records true true = (records.filter (·.linkId == id))[1]? := by
  induction records with
  | nil => rfl
  | cons l rest inductionHypothesis =>
      by_cases same : l.linkId = id
      · simp only [nextLink, same, if_true, List.filter_cons, beq_self_eq_true]
        rw [List.getElem?_cons_succ, ← List.head?_eq_getElem?, List.head?_filter]
        exact nextLink_find
      · simpa [nextLink, same] using inductionHypothesis

/-- One more link is skipped before the previous one has been found. -/
theorem nextLink_third :
    nextLink id records true false = (records.filter (·.linkId == id))[2]? := by
  induction records with
  | nil => rfl
  | cons l rest inductionHypothesis =>
      by_cases same : l.linkId = id
      · simp only [nextLink, same, if_true, List.filter_cons, beq_self_eq_true]
        exact nextLink_second
      · simpa [nextLink, same] using inductionHypothesis

end Links

section Loop

variable {w v : SPFVertex} {previous : LinkRecord} {records : List LinkRecord}

theorem spfGetNextLink_none : spfGetNextLink w v none = (linksTo w v)[0]? := by
  rw [linksTo, ← List.head?_eq_getElem?, List.head?_filter]
  exact nextLink_find

/-- Whatever the previous link is, the third one comes next. -/
theorem spfGetNextLink_some : spfGetNextLink w v (some previous) = (linksTo w v)[2]? :=
  nextLink_third

/-- Once there is a third link, the loop has no end. -/
theorem not_visits_some (more : 2 < (linksTo w v).length) : ¬ Visits w v (some previous) records := by
  intro visits
  generalize isSome : some previous = before at visits
  induction visits generalizing previous with
  | done ended =>
      subst isSome
      rw [spfGetNextLink_some, List.getElem?_eq_none_iff] at ended
      omega
  | next _ _ inductionHypothesis => exact inductionHypothesis rfl

/-- Where the loop ends, it has visited at most the first link. -/
theorem visits_iff : Visits w v none records ↔
    (linksTo w v).length ≤ 2 ∧ records = (linksTo w v).take 1 := by
  constructor
  · intro visits
    cases visits with
    | done ended =>
        rw [spfGetNextLink_none, List.getElem?_eq_none_iff] at ended
        rw [List.eq_nil_of_length_eq_zero (Nat.le_zero.mp ended)]
        exact ⟨by decide, rfl⟩
    | next first later =>
        have few : (linksTo w v).length ≤ 2 :=
          Nat.le_of_not_lt fun more => not_visits_some more later
        cases later with
        | done =>
            rw [spfGetNextLink_none, ← List.head?_eq_getElem?] at first
            exact ⟨few, by rw [List.take_one, first, Option.toList_some]⟩
        | next second =>
            rw [spfGetNextLink_some, List.getElem?_eq_none few] at second
            exact absurd second (by simp)
  · rintro ⟨few, rfl⟩
    cases links : linksTo w v with
    | nil => exact .done (by rw [spfGetNextLink_none, links, List.getElem?_nil])
    | cons linkRemote rest =>
        refine .next (by rw [spfGetNextLink_none, links, List.getElem?_cons_zero]) (.done ?_)
        rw [spfGetNextLink_some, List.getElem?_eq_none few]

end Loop

variable (manager : Manager) (root : Ipv4Address)

/-- The loop visits every link from the router back to the network once, in order, and ends. -/
structure VisitsAll (v w : SPFVertex) (l : Option LinkRecord) (distance : BitVec 32) : Prop where
  visits : Visits w v none (linksTo w v)
  returns : manager.spfNexthopCalculation root v w l distance ≠ .error .endlessLoop

/-- Everything is visited where there is at most one link to the network. -/
theorem visitsAll_iff (v w : SPFVertex) (l : Option LinkRecord) (distance : BitVec 32) :
    VisitsAll manager root v w l distance ↔ (linksTo w v).length ≤ 1 := by
  constructor
  · intro all
    have visited := congrArg List.length (visits_iff.mp all.visits).2
    rw [List.length_take] at visited
    omega
  · intro few
    have whole : linksTo w v = (linksTo w v).take 1 := (List.take_of_length_le few).symm
    refine ⟨visits_iff.mpr ⟨by omega, whole⟩, ?_⟩
    have exits : Ends (· ≠ .endlessLoop) (fun _ => True) v.getRootExitDirection := by
      simp only [SPFVertex.getRootExitDirection]
      split <;> simp [Ends]
    have through : Ends (· ≠ .endlessLoop) (fun _ => True) (Manager.spfNexthopsThrough v w) := by
      simp only [Manager.spfNexthopsThrough]
      split
      · exact trivial
      · refine exits.bind fun exit _ _ => ?_
        rw [spfGetNextLink_some, List.getElem?_eq_none (by omega)]
        exact trivial
    exact (spfNexthopCalculation_ends exits through (by simp) (by simp)).ne (by simp)

/-- Router 2 has its interfaces on the network of the root. -/
def severalInterfaces (records : List LinkRecord) : Manager where
  lsdb :=
    { database :=
        [{ lsType := .routerLSA, linkStateId := 1, linkRecords := [⟨.transitNetwork, 100, 10, 1⟩] },
         { lsType := .routerLSA, linkStateId := 2, linkRecords := records },
         { lsType := .networkLSA, linkStateId := 100, networkLSANetworkMask := 0xffffff00,
           attachedRouters := 10 :: records.map (·.linkData) }]
      ascending := by simp }
  interfaces := fun _ => some [[0x7f000001], [10]]
  hasNodes := true
  pointer := BitVec.toNat

/-- The links of a router with three interfaces on the network. -/
def threeLinks : List LinkRecord :=
  [⟨.transitNetwork, 100, 20, 1⟩, ⟨.transitNetwork, 100, 21, 1⟩, ⟨.transitNetwork, 100, 22, 1⟩]

/-- With three interfaces the calculation never ends, and with two the second is not visited. -/
theorem not_visitsAll :
    (severalInterfaces threeLinks).spfCalculate 1 = .error .endlessLoop ∧
    ¬ ∀ manager root v w l distance, VisitsAll manager root v w l distance := by
  refine ⟨by decide, fun always => ?_⟩
  have visited := always (severalInterfaces (threeLinks.take 2)) 1
    { lsa := { lsType := .networkLSA, linkStateId := 100 }, parents := [1] }
    { lsa := { lsType := .routerLSA, linkStateId := 2, linkRecords := threeLinks.take 2 } } none 1
  have first := congrArg List.length (visits_iff.mp visited.visits).2
  simp [linksTo, threeLinks, SPFVertex.vertexId] at first

end Ns3.Internet.GlobalRouting
