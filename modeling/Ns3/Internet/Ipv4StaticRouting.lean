import Ns3.Internet.Ipv4RoutingTable

/-!
The lookup of `ns3::Ipv4StaticRouting`.

One pass over the table keeps the longest prefix and the smallest metric of the entries that
match. It stops at the first host route, although another one behind it may have a smaller metric.
-/

namespace Ns3.Internet.Ipv4StaticRouting

/-- An element of `m_networkRoutes`: an entry with its metric. -/
abbrev NetworkRoute := Ipv4RoutingTableEntry × BitVec 32

variable {Device : Type} [DecidableEq Device]

/-- The entry matches the destination, and its interface is the requested one, if any. -/
def usable (ipv4 : Ipv4 Device) (dest : Ipv4Address) (oif : Option Device)
    (j : Ipv4RoutingTableEntry) : Bool :=
  Ipv4Mask.isMatch j.destNetworkMask dest j.dest &&
    oif.all fun device => device == ipv4.getNetDevice j.interface

/-- The `Ipv4Route` that is made of an entry. -/
def routeOf (ipv4 : Ipv4 Device) (route : Ipv4RoutingTableEntry) : Ipv4Route Device where
  destination := route.dest
  source := ipv4.sourceAddressSelection route.interface route.dest
  gateway := route.gateway
  outputDevice := ipv4.getNetDevice route.interface

/-- The length of the prefix of an entry. -/
def masklen (route : NetworkRoute) : Nat := Ipv4Mask.getPrefixLength route.1.destNetworkMask

/-- The variables of the loop. -/
structure Search (Device : Type) where
  rtentry : Option (Ipv4Route Device) := none
  longestMask : Nat := 0
  shortestMetric : BitVec 32 := 0xffffffff

/-- The loop of `LookupStatic` over the table. -/
def lookupLoop (ipv4 : Ipv4 Device) (dest : Ipv4Address) (oif : Option Device) :
    List NetworkRoute → Search Device → Option (Ipv4Route Device)
  | [], search => search.rtentry
  | (j, metric) :: rest, search =>
      let masklen := Ipv4Mask.getPrefixLength j.destNetworkMask
      if usable ipv4 dest oif j = false then lookupLoop ipv4 dest oif rest search
      else if masklen < search.longestMask then lookupLoop ipv4 dest oif rest search
      else
        let shortestMetric :=
          if masklen > search.longestMask then 0xffffffff else search.shortestMetric
        if metric > shortestMetric then
          lookupLoop ipv4 dest oif rest { search with longestMask := masklen, shortestMetric }
        else if masklen = 32 then some (routeOf ipv4 j)
        else lookupLoop ipv4 dest oif rest ⟨some (routeOf ipv4 j), masklen, metric⟩

/-- `LookupStatic`, which fails an assertion for a link-local multicast address without an
interface. -/
def lookupStatic (ipv4 : Ipv4 Device) (networkRoutes : List NetworkRoute) (dest : Ipv4Address)
    (oif : Option Device) : Option (Option (Ipv4Route Device)) :=
  if dest.isLocalMulticast then
    oif.map fun device => some
      { destination := dest
        source := ipv4.getAddress (ipv4.getInterfaceForDevice device)
        gateway := 0
        outputDevice := device }
  else some (lookupLoop ipv4 dest oif networkRoutes {})

/-- The entry is one of those that match with the longest prefix, and of these it has the smallest
metric. -/
structure IsBest (ipv4 : Ipv4 Device) (networkRoutes : List NetworkRoute) (dest : Ipv4Address)
    (oif : Option Device) (route : NetworkRoute) : Prop where
  member : route ∈ networkRoutes
  usable : usable ipv4 dest oif route.1 = true
  longest : ∀ other ∈ networkRoutes, Ipv4StaticRouting.usable ipv4 dest oif other.1 = true →
    masklen other ≤ masklen route
  shortest : ∀ other ∈ networkRoutes, Ipv4StaticRouting.usable ipv4 dest oif other.1 = true →
    masklen other = masklen route → route.2 ≤ other.2

/-- The lookup returns the route of a best entry, and nothing only if no entry matches. -/
structure Finds (ipv4 : Ipv4 Device) (networkRoutes : List NetworkRoute) (dest : Ipv4Address)
    (oif : Option Device) (rtentry : Option (Ipv4Route Device)) : Prop where
  best : ∀ found ∈ rtentry, ∃ route, IsBest ipv4 networkRoutes dest oif route ∧
    routeOf ipv4 route.1 = found
  none : rtentry = none → ∀ route ∈ networkRoutes, Ipv4StaticRouting.usable ipv4 dest oif route.1 = false

/-- The first host route that matches goes where the one of them with the smallest metric does. -/
def FirstHostIsBest (ipv4 : Ipv4 Device) (networkRoutes : List NetworkRoute) (dest : Ipv4Address)
    (oif : Option Device) : Prop :=
  ∀ first ∈ networkRoutes.find? fun route => usable ipv4 dest oif route.1 && masklen route == 32,
    ∃ route ∈ networkRoutes, usable ipv4 dest oif route.1 = true ∧ masklen route = 32 ∧
      routeOf ipv4 route.1 = routeOf ipv4 first.1 ∧
      ∀ other ∈ networkRoutes, usable ipv4 dest oif other.1 = true → masklen other = 32 →
        route.2 ≤ other.2

section Loop

variable {ipv4 : Ipv4 Device} {dest : Ipv4Address} {oif : Option Device}
  {processed rest : List NetworkRoute} {search : Search Device}

/-- What the variables hold after some entries, none of which was a host route. -/
structure Keeps (ipv4 : Ipv4 Device) (dest : Ipv4Address) (oif : Option Device)
    (processed : List NetworkRoute) (search : Search Device) : Prop where
  found : ∀ found ∈ search.rtentry, ∃ route ∈ processed, usable ipv4 dest oif route.1 = true ∧
    routeOf ipv4 route.1 = found ∧ masklen route = search.longestMask ∧
    route.2 = search.shortestMetric
  fresh : search.rtentry = none → search.longestMask = 0 ∧ search.shortestMetric = 0xffffffff ∧
    ∀ route ∈ processed, usable ipv4 dest oif route.1 = false
  longest : ∀ other ∈ processed, usable ipv4 dest oif other.1 = true →
    masklen other ≤ search.longestMask
  shortest : ∀ other ∈ processed, usable ipv4 dest oif other.1 = true →
    masklen other = search.longestMask → search.shortestMetric ≤ other.2

/-- No metric exceeds the one that stands for none. -/
theorem not_gt_largest (metric : BitVec 32) : ¬ metric > 0xffffffff := by bv_omega

theorem keeps_nil : Keeps ipv4 dest oif [] {} where
  found _ member := nomatch member
  fresh _ := ⟨rfl, rfl, fun _ member => nomatch member⟩
  longest _ member := nomatch member
  shortest _ member := nomatch member

/-- An entry that is passed over changes nothing. -/
theorem Keeps.skip (keeps : Keeps ipv4 dest oif processed search) {route : NetworkRoute}
    (worse : usable ipv4 dest oif route.1 = true → search.rtentry ≠ none ∧
      (masklen route < search.longestMask ∨
        masklen route = search.longestMask ∧ search.shortestMetric < route.2)) :
    Keeps ipv4 dest oif (processed ++ [route]) search where
  found found member := by
    obtain ⟨old, inProcessed, rest⟩ := keeps.found found member
    exact ⟨old, List.mem_append_left _ inProcessed, rest⟩
  fresh none := by
    obtain ⟨longest, shortest, unusable⟩ := keeps.fresh none
    refine ⟨longest, shortest, fun other member => ?_⟩
    rcases List.mem_append.mp member with old | new
    · exact unusable other old
    · obtain rfl := List.mem_singleton.mp new
      exact Bool.eq_false_iff.mpr fun isUsable => (worse isUsable).1 none
  longest other member isUsable := by
    rcases List.mem_append.mp member with old | new
    · exact keeps.longest other old isUsable
    · obtain rfl := List.mem_singleton.mp new
      rcases (worse isUsable).2 with shorter | same
      · exact Nat.le_of_lt shorter
      · exact Nat.le_of_eq same.1
  shortest other member isUsable same := by
    rcases List.mem_append.mp member with old | new
    · exact keeps.shortest other old isUsable same
    · obtain rfl := List.mem_singleton.mp new
      rcases (worse isUsable).2 with shorter | larger
      · exact absurd same (Nat.ne_of_lt shorter)
      · exact BitVec.le_of_lt larger.2

/-- An entry is taken that is not worse than what was found before. -/
theorem Keeps.take (keeps : Keeps ipv4 dest oif processed search) {route : NetworkRoute}
    (isUsable : usable ipv4 dest oif route.1 = true)
    (better : search.longestMask < masklen route ∨
      masklen route = search.longestMask ∧ route.2 ≤ search.shortestMetric) :
    Keeps ipv4 dest oif (processed ++ [route])
      ⟨some (routeOf ipv4 route.1), masklen route, route.2⟩ where
  found found member := by
    cases member
    exact ⟨route, List.mem_append_right _ (List.mem_singleton_self _), isUsable, rfl, rfl, rfl⟩
  fresh none := nomatch none
  longest other member otherUsable := by
    rcases List.mem_append.mp member with old | new
    · have before := keeps.longest other old otherUsable
      dsimp only
      omega
    · obtain rfl := List.mem_singleton.mp new
      exact Nat.le_refl _
  shortest other member otherUsable same := by
    rcases List.mem_append.mp member with old | new
    · have before := keeps.longest other old otherUsable
      dsimp only at same ⊢
      rcases better with longer | ⟨equal, smaller⟩
      · omega
      · exact BitVec.le_trans smaller (keeps.shortest other old otherUsable (same.trans equal))
    · obtain rfl := List.mem_singleton.mp new
      exact BitVec.le_refl _

theorem Keeps.finds (keeps : Keeps ipv4 dest oif processed search) :
    Finds ipv4 processed dest oif search.rtentry where
  best found member := by
    obtain ⟨route, inProcessed, isUsable, same, mask, metric⟩ := keeps.found found member
    refine ⟨route, ⟨inProcessed, isUsable, ?_, ?_⟩, same⟩
    · exact fun other old otherUsable => mask ▸ keeps.longest other old otherUsable
    · exact fun other old otherUsable equal =>
        metric ▸ keeps.shortest other old otherUsable (equal.trans mask)
  none isNone := (keeps.fresh isNone).2.2

/-- Without host routes the loop goes over the whole table. -/
theorem Keeps.lookupLoop (keeps : Keeps ipv4 dest oif processed search)
    (noHost : ∀ route ∈ rest, usable ipv4 dest oif route.1 = true → masklen route ≠ 32) :
    Finds ipv4 (processed ++ rest) dest oif (lookupLoop ipv4 dest oif rest search) := by
  induction rest generalizing processed search with
  | nil =>
      rw [List.append_nil]
      exact keeps.finds
  | cons route rest inductionHypothesis =>
      obtain ⟨j, metric⟩ := route
      have later := fun other member => noHost other (List.mem_cons_of_mem _ member)
      have notHost := noHost (j, metric) List.mem_cons_self
      have assoc : processed ++ (j, metric) :: rest = (processed ++ [(j, metric)]) ++ rest :=
        (List.append_cons processed (j, metric) rest)
      rw [assoc, Ipv4StaticRouting.lookupLoop]
      dsimp only
      by_cases isUsable : usable ipv4 dest oif j = true
      · rw [if_neg (by rw [isUsable]; decide)]
        have isMask : masklen (j, metric) = Ipv4Mask.getPrefixLength j.destNetworkMask := rfl
        rw [← isMask, if_neg (notHost isUsable)]
        rcases Nat.lt_trichotomy (masklen (j, metric)) search.longestMask with shorter | same | longer
        · rw [if_pos shorter]
          refine inductionHypothesis (keeps.skip fun _ => ⟨fun none => ?_, .inl shorter⟩) later
          rw [(keeps.fresh none).1] at shorter
          exact Nat.not_lt_zero _ shorter
        · rw [same, if_neg (Nat.lt_irrefl _), if_neg (Nat.lt_irrefl _)]
          by_cases larger : metric > search.shortestMetric
          · rw [if_pos larger]
            refine inductionHypothesis (keeps.skip fun _ => ⟨fun none => ?_, .inr ⟨same, larger⟩⟩)
              later
            rw [(keeps.fresh none).2.1] at larger
            exact not_gt_largest metric larger
          · rw [if_neg larger, ← same]
            exact inductionHypothesis
              (keeps.take isUsable (.inr ⟨same, BitVec.not_lt.mp larger⟩)) later
        · rw [if_neg (Nat.lt_asymm longer), if_pos longer, if_neg (not_gt_largest metric)]
          exact inductionHypothesis (keeps.take isUsable (.inl longer)) later
      · rw [if_pos (Bool.eq_false_iff.mpr isUsable)]
        exact inductionHypothesis (keeps.skip fun wrong => absurd wrong isUsable) later

/-- The first host route that matches ends the loop, whatever stands behind it. -/
theorem lookupLoop_of_host (short : search.longestMask < 32)
    {first : NetworkRoute}
    (isFirst : rest.find? (fun route => usable ipv4 dest oif route.1 && masklen route == 32) =
      some first) :
    lookupLoop ipv4 dest oif rest search = some (routeOf ipv4 first.1) := by
  induction rest generalizing search with
  | nil => exact nomatch isFirst
  | cons route rest inductionHypothesis =>
      obtain ⟨j, metric⟩ := route
      have most : masklen (j, metric) ≤ 32 := Ipv4Mask.getPrefixLength_le _
      have isMask : masklen (j, metric) = Ipv4Mask.getPrefixLength j.destNetworkMask := rfl
      rw [lookupLoop]
      dsimp only
      rw [← isMask]
      rw [List.find?_cons] at isFirst
      split at isFirst
      next isHost =>
        cases isFirst
        rw [Bool.and_eq_true, beq_iff_eq] at isHost
        obtain ⟨isUsable, length⟩ := isHost
        rw [if_neg (by rw [isUsable]; decide), length, if_neg (Nat.lt_asymm short), if_pos short,
          if_neg (not_gt_largest metric), if_pos rfl]
      next notHost =>
        split
        · exact inductionHypothesis short isFirst
        next isUsable =>
          have notLongest : masklen (j, metric) ≠ 32 := by
            intro same
            rw [Bool.not_eq_false] at isUsable
            rw [isUsable, same] at notHost
            exact absurd notHost (by decide)
          have small : masklen (j, metric) < 32 := Nat.lt_of_le_of_ne most notLongest
          rw [if_neg notLongest]
          by_cases shorter : masklen (j, metric) < search.longestMask
          · rw [if_pos shorter]
            exact inductionHypothesis short isFirst
          · rw [if_neg shorter]
            generalize (if masklen (j, metric) > search.longestMask then _ else _ : BitVec 32) = least
            by_cases larger : metric > least
            · rw [if_pos larger]
              exact inductionHypothesis small isFirst
            · rw [if_neg larger]
              exact inductionHypothesis small isFirst

end Loop

variable {ipv4 : Ipv4 Device} {networkRoutes : List NetworkRoute} {dest : Ipv4Address}
  {oif : Option Device}

/-- The lookup of a destination that is not link-local multicast finds a best route exactly if the
first host route that matches goes where the best of them does. -/
theorem finds_lookupStatic_iff (ipv4 : Ipv4 Device) (networkRoutes : List NetworkRoute)
    (dest : Ipv4Address) (oif : Option Device) (unicast : dest.isLocalMulticast = false) :
    (∃ rtentry, lookupStatic ipv4 networkRoutes dest oif = some rtentry ∧
      Finds ipv4 networkRoutes dest oif rtentry) ↔
      FirstHostIsBest ipv4 networkRoutes dest oif := by
  rw [lookupStatic, if_neg (by rw [unicast]; decide)]
  simp only [Option.some.injEq, exists_eq_left']
  unfold FirstHostIsBest
  cases host : networkRoutes.find? fun route => usable ipv4 dest oif route.1 && masklen route == 32
    with
  | none =>
      refine iff_of_true ?_ fun _ member => nomatch member
      have finds := @Keeps.lookupLoop _ _ ipv4 dest oif [] networkRoutes {} keeps_nil ?_
      · exact finds
      · intro route member isUsable length
        have notHost := List.find?_eq_none.mp host route member
        rw [isUsable, length] at notHost
        exact notHost rfl
  | some first =>
      rw [lookupLoop_of_host (Nat.zero_lt_succ _) host]
      have isHost := List.find?_some host
      rw [Bool.and_eq_true, beq_iff_eq] at isHost
      obtain ⟨isUsable, length⟩ := isHost
      have inTable := List.mem_of_find?_eq_some host
      simp only [Option.mem_some_iff, forall_eq']
      constructor
      · intro finds
        obtain ⟨route, best, same⟩ := finds.best _ rfl
        have most : masklen route ≤ 32 := Ipv4Mask.getPrefixLength_le _
        have whole : masklen route = 32 :=
          Nat.le_antisymm most (length ▸ best.longest first inTable isUsable)
        exact ⟨route, best.member, best.usable, whole, same, fun other member otherUsable equal =>
          best.shortest other member otherUsable (equal.trans whole.symm)⟩
      · rintro ⟨route, member, routeUsable, whole, same, smallest⟩
        refine ⟨fun found isFound => ?_, fun none => nomatch none⟩
        cases isFound
        refine ⟨route, ⟨member, routeUsable, ?_, ?_⟩, same⟩
        · exact fun other _ _ => whole ▸ Ipv4Mask.getPrefixLength_le _
        · exact fun other inTable otherUsable equal =>
            smallest other inTable otherUsable (equal.trans whole)

/-- A node with one device for each interface. -/
def plainIpv4 : Ipv4 (BitVec 32) where
  getNetDevice := id
  getInterfaceForDevice := id
  getAddress interface := 0x0a000000 + interface
  sourceAddressSelection interface _ := 0x0a000000 + interface

/-- A host route by a gateway. -/
def hostRoute (gateway : Ipv4Address) (metric : BitVec 32) : NetworkRoute :=
  (⟨0x0b000001, 0xffffffff, gateway, 1⟩, metric)

/-- The default route and two host routes, the better one first. -/
theorem finds_lookupStatic_iff_ordered :
    (∃ rtentry, lookupStatic plainIpv4
        [(⟨0, 0, 3, 1⟩, 0), hostRoute 1 1, hostRoute 2 5] 0x0b000001 none = some rtentry ∧
      Finds plainIpv4 [(⟨0, 0, 3, 1⟩, 0), hostRoute 1 1, hostRoute 2 5] 0x0b000001 none rtentry) ↔
      FirstHostIsBest plainIpv4 [(⟨0, 0, 3, 1⟩, 0), hostRoute 1 1, hostRoute 2 5] 0x0b000001 none :=
  finds_lookupStatic_iff plainIpv4 _ _ none (by decide)

/-- The host route with the smaller metric stands behind the other one. -/
theorem not_finds_lookupStatic :
    ¬ ∀ networkRoutes dest oif, dest.isLocalMulticast = false →
      ∃ rtentry, lookupStatic plainIpv4 networkRoutes dest oif = some rtentry ∧
        Finds plainIpv4 networkRoutes dest oif rtentry := by
  intro always
  obtain ⟨rtentry, isFound, finds⟩ :=
    always [hostRoute 2 5, hostRoute 1 1] 0x0b000001 none (by decide)
  have first : lookupStatic plainIpv4 [hostRoute 2 5, hostRoute 1 1] 0x0b000001 none =
      some (some (routeOf plainIpv4 (hostRoute 2 5).1)) := by decide
  rw [first] at isFound
  cases isFound
  obtain ⟨route, best, same⟩ := finds.best _ rfl
  have gateway := congrArg Ipv4Route.gateway same
  rcases List.mem_cons.mp best.member with rfl | second
  · exact absurd (best.shortest (hostRoute 1 1) (by decide) (by decide) (by decide)) (by decide)
  · obtain rfl := List.mem_singleton.mp second
    exact absurd gateway (by decide)

end Ns3.Internet.Ipv4StaticRouting
