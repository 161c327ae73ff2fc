import Mathlib.Data.Set.Defs
import Ns3.Internet.EndPointDemux.Kernel

/-!
Which endpoint a packet is for.

`Lookup` collects the endpoints of four cases and takes the most exact case that has one. Two
endpoints that are in one case for some packet conflict, and if no two endpoints conflict there is
one for each packet at most.
-/

namespace Ns3.Internet.EndPointDemux

namespace Ipv4EndPoint

variable (endPoint : Ipv4EndPoint)

/-- How exactly an endpoint matches a packet: all four, the peer, the local address, or only the
local port. Zero is no match. -/
def specificity (arrival : Arrival) : Nat :=
  if endPoint.rxEnabled && endPoint.localPort = arrival.dport &&
      endPoint.listensOn arrival.incomingInterface then
    if endPoint.localAddr = arrival.daddr && endPoint.remoteExact arrival then 4
    else if endPoint.localAddressMatchesWildCard arrival.incomingInterface arrival.daddr &&
      endPoint.remoteExact arrival then 3
    else if endPoint.localAddr = arrival.daddr && endPoint.remoteWildCard then 2
    else if endPoint.localAddressMatchesWildCard arrival.incomingInterface arrival.daddr &&
      endPoint.remoteWildCard then 1
    else 0
  else 0

/-- Two endpoints match a packet of an interface equally well. -/
def Conflicts (interfaces : Set Ipv4Interface) (endPoint other : Ipv4EndPoint) : Prop :=
  endPoint.localPort = other.localPort ∧ endPoint.peerAddr = other.peerAddr ∧
    endPoint.peerPort = other.peerPort ∧
    ∃ interface ∈ interfaces, endPoint.listensOn interface = true ∧
      other.listensOn interface = true ∧
      (endPoint.localAddr = other.localAddr ∨
        ∃ daddr, endPoint.localAddressMatchesWildCard interface daddr = true ∧
          other.localAddressMatchesWildCard interface daddr = true)

variable {endPoint} {other : Ipv4EndPoint} {arrival : Arrival}

/-- The endpoint may get packets of this port and interface. -/
structure Considered (endPoint : Ipv4EndPoint) (arrival : Arrival) : Prop where
  rxEnabled : endPoint.rxEnabled = true
  localPort : endPoint.localPort = arrival.dport
  listensOn : endPoint.listensOn arrival.incomingInterface = true

/-- The four ways to match a packet. -/
inductive Matches (endPoint : Ipv4EndPoint) (arrival : Arrival) : Nat → Prop
  | all (considered : endPoint.Considered arrival) (exact : endPoint.localAddr = arrival.daddr)
      (peer : endPoint.remoteExact arrival = true) : Matches endPoint arrival 4
  | peer (considered : endPoint.Considered arrival)
      (wildCard : endPoint.localAddressMatchesWildCard arrival.incomingInterface arrival.daddr = true)
      (peer : endPoint.remoteExact arrival = true) : Matches endPoint arrival 3
  | address (considered : endPoint.Considered arrival) (exact : endPoint.localAddr = arrival.daddr)
      (any : endPoint.remoteWildCard = true) : Matches endPoint arrival 2
  | port (considered : endPoint.Considered arrival)
      (wildCard : endPoint.localAddressMatchesWildCard arrival.incomingInterface arrival.daddr = true)
      (any : endPoint.remoteWildCard = true) : Matches endPoint arrival 1

theorem localAddressMatchesWildCard_ne {interface : Ipv4Interface} {daddr : UInt32}
    (wildCard : endPoint.localAddressMatchesWildCard interface daddr = true) :
    endPoint.localAddr ≠ daddr := by
  simp only [localAddressMatchesWildCard, Bool.and_eq_true, decide_eq_true_eq] at wildCard
  exact wildCard.1

/-- An address of a host is no wildcard. -/
theorem localAddressMatchesWildCard_host {interface : Ipv4Interface} (notAny : endPoint.localAddr ≠ 0)
    (notNetwork : ∀ address ∈ interface.addresses, endPoint.localAddr ≠ address.netpart)
    (daddr : UInt32) : endPoint.localAddressMatchesWildCard interface daddr = false := by
  have none : (interface.addresses.any fun address => endPoint.localAddr = address.netpart &&
      address.netpart = daddr &&& address.mask) = false := by
    rw [List.any_eq_false]
    intro address mem
    simp [notNetwork address mem]
  simp [localAddressMatchesWildCard, notAny, none]

theorem matches_specificity (positive : 0 < endPoint.specificity arrival) :
    endPoint.Matches arrival (endPoint.specificity arrival) := by
  revert positive
  unfold specificity
  split
  · next isConsidered =>
      have considered : endPoint.Considered arrival := by
        simp only [Bool.and_eq_true, decide_eq_true_eq] at isConsidered
        exact ⟨isConsidered.1.1, isConsidered.1.2, isConsidered.2⟩
      split
      · next isAll =>
          simp only [Bool.and_eq_true, decide_eq_true_eq] at isAll
          exact fun _ => .all considered isAll.1 isAll.2
      · split
        · next isPeer =>
            simp only [Bool.and_eq_true] at isPeer
            exact fun _ => .peer considered isPeer.1 isPeer.2
        · split
          · next isAddress =>
              simp only [Bool.and_eq_true, decide_eq_true_eq] at isAddress
              exact fun _ => .address considered isAddress.1 isAddress.2
          · split
            · next isPort =>
                simp only [Bool.and_eq_true] at isPort
                exact fun _ => .port considered isPort.1 isPort.2
            · intro positive
              exact absurd positive (by decide)
  · intro positive
    exact absurd positive (by decide)

theorem specificity_le : endPoint.specificity arrival ≤ 4 := by
  by_cases positive : 0 < endPoint.specificity arrival
  · have matched := matches_specificity positive
    generalize endPoint.specificity arrival = level at matched
    cases matched <;> decide
  · omega

/-- Endpoints that match a packet equally well conflict. -/
theorem Matches.conflicts {interfaces : Set Ipv4Interface} {level : Nat}
    (first : endPoint.Matches arrival level) (second : other.Matches arrival level)
    (attached : arrival.incomingInterface ∈ interfaces) : Conflicts interfaces endPoint other := by
  have exactPeers (first : endPoint.remoteExact arrival = true)
      (second : other.remoteExact arrival = true) :
      endPoint.peerAddr = other.peerAddr ∧ endPoint.peerPort = other.peerPort := by
    simp only [remoteExact, Bool.and_eq_true, decide_eq_true_eq] at first second
    exact ⟨first.1.trans second.1.symm, first.2.trans second.2.symm⟩
  have anyPeers (first : endPoint.remoteWildCard = true) (second : other.remoteWildCard = true) :
      endPoint.peerAddr = other.peerAddr ∧ endPoint.peerPort = other.peerPort := by
    simp only [remoteWildCard, Bool.and_eq_true, decide_eq_true_eq] at first second
    exact ⟨first.1.trans second.1.symm, first.2.trans second.2.symm⟩
  have together (considered : endPoint.Considered arrival) (alsoConsidered : other.Considered arrival)
      (peers : endPoint.peerAddr = other.peerAddr ∧ endPoint.peerPort = other.peerPort)
      (addresses : endPoint.localAddr = other.localAddr ∨
        ∃ daddr, endPoint.localAddressMatchesWildCard arrival.incomingInterface daddr = true ∧
          other.localAddressMatchesWildCard arrival.incomingInterface daddr = true) :
      Conflicts interfaces endPoint other :=
    ⟨considered.localPort.trans alsoConsidered.localPort.symm, peers.1, peers.2, _, attached,
      considered.listensOn, alsoConsidered.listensOn, addresses⟩
  cases first with
  | all considered exact peer =>
      cases second with
      | all alsoConsidered alsoExact alsoPeer =>
          exact together considered alsoConsidered (exactPeers peer alsoPeer)
            (.inl (exact.trans alsoExact.symm))
  | peer considered wildCard peer =>
      cases second with
      | peer alsoConsidered alsoWildCard alsoPeer =>
          exact together considered alsoConsidered (exactPeers peer alsoPeer)
            (.inr ⟨_, wildCard, alsoWildCard⟩)
  | address considered exact any =>
      cases second with
      | address alsoConsidered alsoExact alsoAny =>
          exact together considered alsoConsidered (anyPeers any alsoAny)
            (.inl (exact.trans alsoExact.symm))
  | port considered wildCard any =>
      cases second with
      | port alsoConsidered alsoWildCard alsoAny =>
          exact together considered alsoConsidered (anyPeers any alsoAny)
            (.inr ⟨_, wildCard, alsoWildCard⟩)

theorem isCase4_iff : endPoint.isCase4 arrival = true ↔ endPoint.specificity arrival = 4 := by
  grind [isCase4, isCandidate, specificity, localExact, remoteExact, remoteWildCard]

theorem isCase3_iff : endPoint.isCase3 arrival = true ↔ endPoint.specificity arrival = 3 := by
  grind [isCase3, isCandidate, specificity, localExact, remoteExact, remoteWildCard,
    localAddressMatchesWildCard_ne]

theorem isCase2_iff (low : endPoint.specificity arrival ≤ 2) :
    endPoint.isCase2 arrival = true ↔ endPoint.specificity arrival = 2 := by
  grind [isCase2, isCandidate, specificity, localExact, remoteExact, remoteWildCard,
    localAddressMatchesWildCard_ne]

theorem isCase1_iff (low : endPoint.specificity arrival ≤ 1) :
    endPoint.isCase1 arrival = true ↔ endPoint.specificity arrival = 1 := by
  grind [isCase1, isCandidate, specificity, localExact, remoteExact, remoteWildCard,
    localAddressMatchesWildCard_ne]

end Ipv4EndPoint

namespace Ipv4EndPointDemux

variable {demux : Ipv4EndPointDemux} {arrival : Arrival}

/-- `Lookup` has found the endpoint with the best match, or that there is no match. -/
def Resolves (demux : Ipv4EndPointDemux) (arrival : Arrival) : Prop :=
  (demux.lookup arrival = some [] ∧
      ∀ endPoint ∈ demux.endPoints, endPoint.specificity arrival = 0) ∨
    ∃ endPoint ∈ demux.endPoints, demux.lookup arrival = some [endPoint] ∧
      0 < endPoint.specificity arrival ∧
      ∀ other ∈ demux.endPoints, other.object ≠ endPoint.object →
        other.specificity arrival < endPoint.specificity arrival

/-- No two endpoints conflict. -/
def Apart (interfaces : Set Ipv4Interface) (endPoints : List Ipv4EndPoint) : Prop :=
  endPoints.Pairwise fun endPoint other => ¬ Ipv4EndPoint.Conflicts interfaces endPoint other

/-- At most one endpoint matches as well as this. -/
theorem Apart.filter_length {interfaces : Set Ipv4Interface} {endPoints : List Ipv4EndPoint}
    (apart : Apart interfaces endPoints) (attached : arrival.incomingInterface ∈ interfaces)
    {level : Nat} (positive : 0 < level) :
    (endPoints.filter fun endPoint => endPoint.specificity arrival = level).length ≤ 1 := by
  have distinct := apart.sublist
    (@List.filter_sublist _ (fun endPoint => endPoint.specificity arrival = level) endPoints)
  have same (endPoint : Ipv4EndPoint) (mem : endPoint ∈ endPoints.filter fun endPoint =>
      endPoint.specificity arrival = level) : endPoint.Matches arrival level := by
    have found : endPoint.specificity arrival = level := by simpa using (List.mem_filter.mp mem).2
    rw [← found]
    exact Ipv4EndPoint.matches_specificity (found ▸ positive)
  match list : endPoints.filter fun endPoint => endPoint.specificity arrival = level with
  | [] => simp [list]
  | [_] => simp [list]
  | first :: second :: rest =>
      rw [list] at distinct same
      have conflict := (same first (by simp)).conflicts (same second (by simp)) attached
      exact absurd conflict (List.rel_of_pairwise_cons distinct (by simp))

/-- The level that `Lookup` takes is the best one, and has one endpoint. -/
theorem exists_singleton {endPoints : List Ipv4EndPoint} {level : Nat}
    (few : (endPoints.filter fun endPoint => endPoint.specificity arrival = level).length ≤ 1)
    (some : (endPoints.filter fun endPoint => endPoint.specificity arrival = level) ≠ [])
    (best : ∀ endPoint ∈ endPoints, endPoint.specificity arrival ≤ level) :
    ∃ endPoint ∈ endPoints,
      (endPoints.filter fun endPoint => endPoint.specificity arrival = level) = [endPoint] ∧
      endPoint.specificity arrival = level ∧
      ∀ other ∈ endPoints, other.object ≠ endPoint.object → other.specificity arrival < level := by
  match list : endPoints.filter fun endPoint => endPoint.specificity arrival = level with
  | [] => exact absurd list some
  | first :: second :: rest =>
      rw [list] at few
      simp at few
  | [endPoint] =>
      have only (other : Ipv4EndPoint) : other ∈ endPoints ∧ other.specificity arrival = level ↔
          other = endPoint := by
        have mem : other ∈ endPoints.filter (fun endPoint => endPoint.specificity arrival = level) ↔
            other ∈ [endPoint] := by rw [list]
        simpa using mem
      obtain ⟨mem, equal⟩ := (only endPoint).mpr rfl
      refine ⟨endPoint, mem, list, equal, ?_⟩
      intro other isMem different
      apply Nat.lt_of_le_of_ne (best other isMem)
      intro same
      exact different (congrArg Ipv4EndPoint.object ((only other).mp ⟨isMem, same⟩))

/-- `Lookup` takes the endpoints of the best level. -/
theorem resolves_of_filter {level : Nat} (positive : 0 < level)
    (few : (demux.endPoints.filter fun endPoint =>
      endPoint.specificity arrival = level).length ≤ 1)
    (some : (demux.endPoints.filter fun endPoint => endPoint.specificity arrival = level) ≠ [])
    (best : ∀ endPoint ∈ demux.endPoints, endPoint.specificity arrival ≤ level)
    (taken : demux.lookup arrival = .some (demux.endPoints.filter fun endPoint =>
      endPoint.specificity arrival = level)) : demux.Resolves arrival := by
  obtain ⟨endPoint, mem, list, equal, others⟩ := exists_singleton few some best
  refine .inr ⟨endPoint, mem, taken.trans (congrArg _ list), equal ▸ positive, ?_⟩
  rw [equal]
  exact others

theorem filter_case {level : Nat} {isCase : Ipv4EndPoint → Bool}
    (agree : ∀ endPoint ∈ demux.endPoints,
      isCase endPoint = true ↔ endPoint.specificity arrival = level) :
    demux.endPoints.filter isCase =
      demux.endPoints.filter fun endPoint => endPoint.specificity arrival = level := by
  apply List.filter_congr
  intro endPoint mem
  rw [Bool.eq_iff_iff, agree endPoint mem, decide_eq_true_eq]

/-- One level is left out if it has no endpoint. -/
theorem specificity_lt {level : Nat}
    (best : ∀ endPoint ∈ demux.endPoints, endPoint.specificity arrival ≤ level + 1)
    (none : (demux.endPoints.filter fun endPoint => endPoint.specificity arrival = level + 1) = []) :
    ∀ endPoint ∈ demux.endPoints, endPoint.specificity arrival ≤ level := by
  intro endPoint mem
  have other := List.filter_eq_nil_iff.mp none endPoint mem
  have bound := best endPoint mem
  simp only [decide_eq_true_eq] at other
  omega

/-- If no two endpoints conflict, every packet finds its endpoint. -/
theorem Apart.resolves {interfaces : Set Ipv4Interface} (apart : Apart interfaces demux.endPoints)
    (attached : arrival.incomingInterface ∈ interfaces) : demux.Resolves arrival := by
  have few {level : Nat} (positive : 0 < level) := apart.filter_length attached positive
  have best4 : ∀ endPoint ∈ demux.endPoints, endPoint.specificity arrival ≤ 3 + 1 :=
    fun endPoint _ => endPoint.specificity_le
  have case4 := @filter_case demux arrival 4 _ fun endPoint _ => endPoint.isCase4_iff
  have case3 := @filter_case demux arrival 3 _ fun endPoint _ => endPoint.isCase3_iff
  by_cases none4 : (demux.endPoints.filter fun endPoint => endPoint.specificity arrival = 4) = []
  case neg =>
    apply resolves_of_filter (by decide) (few (by decide)) none4 best4
    simp [lookup, case4, none4, few]
  have best3 := specificity_lt best4 none4
  by_cases none3 : (demux.endPoints.filter fun endPoint => endPoint.specificity arrival = 3) = []
  case neg =>
    apply resolves_of_filter (by decide) (few (by decide)) none3 best3
    simp [lookup, case4, case3, none4, none3, few]
  have best2 := specificity_lt best3 none3
  have case2 := @filter_case demux arrival 2 _ fun endPoint mem =>
    endPoint.isCase2_iff (best2 endPoint mem)
  by_cases none2 : (demux.endPoints.filter fun endPoint => endPoint.specificity arrival = 2) = []
  case neg =>
    apply resolves_of_filter (by decide) (few (by decide)) none2 best2
    simp [lookup, case4, case3, case2, none4, none3, none2, few]
  have best1 := specificity_lt best2 none2
  have case1 := @filter_case demux arrival 1 _ fun endPoint mem =>
    endPoint.isCase1_iff (best1 endPoint mem)
  by_cases none1 : (demux.endPoints.filter fun endPoint => endPoint.specificity arrival = 1) = []
  case neg =>
    apply resolves_of_filter (by decide) (few (by decide)) none1 best1
    simp [lookup, case4, case3, case2, case1, none4, none3, none2, few]
  left
  constructor
  · simp [lookup, case4, case3, case2, case1, none4, none3, none2, none1]
  · intro endPoint mem
    exact Nat.le_zero.mp (specificity_lt best1 none1 endPoint mem)

end Ipv4EndPointDemux

end Ns3.Internet.EndPointDemux
