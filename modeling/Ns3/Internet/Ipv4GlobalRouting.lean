import Ns3.Internet.Ipv4RoutingTable

/-!
The routing table of `ns3::Ipv4GlobalRouting` and its lookup.

A host route is taken before a network route, and an external route only if there is neither. Of
several routes one is drawn if the protocol is told to, and the first one is taken otherwise.
-/

namespace Ns3.Internet

/-- The routes of an `Ipv4GlobalRouting`; its lookup asserts that the host routes are such. -/
structure Ipv4GlobalRouting where
  hostRoutes : List Ipv4RoutingTableEntry := []
  networkRoutes : List Ipv4RoutingTableEntry := []
  asExternalRoutes : List Ipv4RoutingTableEntry := []
  hosts : ∀ route ∈ hostRoutes, route.isHost

namespace Ipv4GlobalRouting

theorem hosts_nil : ∀ route ∈ ([] : List Ipv4RoutingTableEntry), route.isHost := by simp

/-- A table without routes. -/
def empty : Ipv4GlobalRouting where
  hosts := hosts_nil

theorem hosts_append {hostRoutes : List Ipv4RoutingTableEntry}
    (hosts : ∀ route ∈ hostRoutes, route.isHost) (dest nextHop : Ipv4Address)
    (interface : BitVec 32) :
    ∀ route ∈ hostRoutes ++ [.createHostRouteTo dest nextHop interface], route.isHost := by
  intro route member
  rcases List.mem_append.mp member with before | added
  · exact hosts route before
  · obtain rfl := List.mem_singleton.mp added
    exact beq_self_eq_true _

/-- `AddHostRouteTo`. -/
def addHostRouteTo (dest nextHop : Ipv4Address) (interface : BitVec 32)
    (routing : Ipv4GlobalRouting) : Ipv4GlobalRouting :=
  { routing with
    hostRoutes := routing.hostRoutes ++ [.createHostRouteTo dest nextHop interface]
    hosts := hosts_append routing.hosts dest nextHop interface }

/-- `AddNetworkRouteTo`. -/
def addNetworkRouteTo (network networkMask nextHop : Ipv4Address) (interface : BitVec 32)
    (routing : Ipv4GlobalRouting) : Ipv4GlobalRouting :=
  { routing with
    networkRoutes :=
      routing.networkRoutes ++ [.createNetworkRouteTo network networkMask nextHop interface] }

/-- `AddASExternalRouteTo`. -/
def addASExternalRouteTo (network networkMask nextHop : Ipv4Address) (interface : BitVec 32)
    (routing : Ipv4GlobalRouting) : Ipv4GlobalRouting :=
  { routing with
    asExternalRoutes :=
      routing.asExternalRoutes ++ [.createNetworkRouteTo network networkMask nextHop interface] }

section Lookup

variable {Device : Type} [DecidableEq Device] (routing : Ipv4GlobalRouting) (ipv4 : Ipv4 Device)
  (dest : Ipv4Address) (oif : Option Device)

/-- The entry is on the requested interface, if there is one. -/
def onInterface (entry : Ipv4RoutingTableEntry) : Bool :=
  oif.all fun device => device == ipv4.getNetDevice entry.interface

/-- The network of the entry contains the destination. -/
def matching (entry : Ipv4RoutingTableEntry) : Bool :=
  Ipv4Mask.isMatch entry.destNetworkMask dest entry.dest && onInterface ipv4 oif entry

/-- `allRoutes` of `LookupGlobal`. -/
def allRoutes : List Ipv4RoutingTableEntry :=
  match routing.hostRoutes.filter fun i => i.dest == dest && onInterface ipv4 oif i with
  | route :: rest => route :: rest
  | [] =>
      match routing.networkRoutes.filter (matching ipv4 dest oif) with
      | route :: rest => route :: rest
      | [] => (routing.asExternalRoutes.find? (matching ipv4 dest oif)).toList

/-- The `Ipv4Route` that is made of an entry. -/
def routeOf (route : Ipv4RoutingTableEntry) : Ipv4Route Device where
  destination := route.dest
  source := ipv4.getAddress route.interface
  gateway := route.gateway
  outputDevice := ipv4.getNetDevice route.interface

/-- `LookupGlobal`; a draw from an interval that starts with 0 is a value of `getInteger`. -/
def lookupGlobal (randomEcmpRouting : Bool) (getInteger : (max : Nat) → Fin (max + 1)) :
    Option (Ipv4Route Device) :=
  match routing.allRoutes ipv4 dest oif with
  | [] => none
  | route :: rest =>
      let selectIndex := if randomEcmpRouting then getInteger rest.length else 0
      some (routeOf ipv4 ((route :: rest).get selectIndex))

end Lookup

section Lookup

variable {Device : Type} [DecidableEq Device] {routing : Ipv4GlobalRouting} {ipv4 : Ipv4 Device}
  {dest : Ipv4Address} {oif : Option Device} {randomEcmpRouting : Bool}
  {getInteger : (max : Nat) → Fin (max + 1)}

/-- An entry of the table. -/
def Has (routing : Ipv4GlobalRouting) (entry : Ipv4RoutingTableEntry) : Prop :=
  entry ∈ routing.hostRoutes ∨ entry ∈ routing.networkRoutes ∨ entry ∈ routing.asExternalRoutes

section Adding

variable {entry : Ipv4RoutingTableEntry} {dest network networkMask nextHop : Ipv4Address}
  {interface : BitVec 32}

theorem not_has_empty : ¬ empty.Has entry := by simp [Has, empty]

theorem has_addHostRouteTo : (addHostRouteTo dest nextHop interface routing).Has entry ↔
    routing.Has entry ∨ entry = .createHostRouteTo dest nextHop interface := by
  simp only [Has, addHostRouteTo, List.mem_append, List.mem_singleton]
  tauto

theorem has_addNetworkRouteTo :
    (addNetworkRouteTo network networkMask nextHop interface routing).Has entry ↔
      routing.Has entry ∨ entry = .createNetworkRouteTo network networkMask nextHop interface := by
  simp only [Has, addNetworkRouteTo, List.mem_append, List.mem_singleton]
  tauto

theorem has_addASExternalRouteTo :
    (addASExternalRouteTo network networkMask nextHop interface routing).Has entry ↔
      routing.Has entry ∨ entry = .createNetworkRouteTo network networkMask nextHop interface := by
  simp only [Has, addASExternalRouteTo, List.mem_append, List.mem_singleton]
  tauto

end Adding

theorem allRoutes_spec {entry : Ipv4RoutingTableEntry}
    (member : entry ∈ routing.allRoutes ipv4 dest oif) :
    routing.Has entry ∧ onInterface ipv4 oif entry := by
  unfold allRoutes at member
  split at member
  case h_1 hosts =>
    rw [← hosts, List.mem_filter, Bool.and_eq_true] at member
    exact ⟨.inl member.1, member.2.2⟩
  case h_2 =>
    split at member
    case h_1 networks =>
      rw [← networks, List.mem_filter, matching, Bool.and_eq_true] at member
      exact ⟨.inr (.inl member.1), member.2.2⟩
    case h_2 =>
      have found := Option.mem_toList.mp member
      have matched := List.find?_some found
      rw [matching, Bool.and_eq_true] at matched
      exact ⟨.inr (.inr (List.mem_of_find?_eq_some found)), matched.2⟩

/-- What is found is made of an entry of the table. -/
theorem lookupGlobal_spec {route : Ipv4Route Device}
    (found : route ∈ routing.lookupGlobal ipv4 dest oif randomEcmpRouting getInteger) :
    ∃ entry, routing.Has entry ∧ onInterface ipv4 oif entry ∧ routeOf ipv4 entry = route := by
  unfold lookupGlobal at found
  split at found
  · cases found
  case h_2 first rest routes =>
    obtain rfl := Option.some.inj found
    have entries : ∀ entry ∈ first :: rest, routing.Has entry ∧ onInterface ipv4 oif entry :=
      fun entry member => allRoutes_spec (routes ▸ member)
    obtain ⟨has, usable⟩ := entries _ (List.get_mem (first :: rest)
      (if randomEcmpRouting then getInteger rest.length else 0))
    exact ⟨_, has, usable, rfl⟩

/-- A destination with a host route is found, whichever interface it leads out of. -/
theorem lookupGlobal_host {entry : Ipv4RoutingTableEntry} (member : entry ∈ routing.hostRoutes) :
    ∃ route,
      route ∈ routing.lookupGlobal ipv4 entry.dest none randomEcmpRouting getInteger := by
  have listed : entry ∈ routing.hostRoutes.filter fun i =>
      i.dest == entry.dest && onInterface ipv4 none i :=
    List.mem_filter.mpr ⟨member, by simp [onInterface]⟩
  unfold lookupGlobal allRoutes
  cases hosts : routing.hostRoutes.filter fun i =>
      i.dest == entry.dest && onInterface ipv4 none i with
  | nil =>
      rw [hosts] at listed
      cases listed
  | cons first rest => exact ⟨_, rfl⟩

/-- A default route is for every destination. -/
theorem lookupGlobal_default {nextHop : Ipv4Address} {interface : BitVec 32}
    (usable : onInterface ipv4 oif (.createNetworkRouteTo 0 0 nextHop interface)) :
    (addNetworkRouteTo 0 0 nextHop interface empty).lookupGlobal ipv4 dest oif randomEcmpRouting
      getInteger = some (routeOf ipv4 (.createNetworkRouteTo 0 0 nextHop interface)) := by
  have everything :
      matching ipv4 dest oif (.createNetworkRouteTo 0 0 nextHop interface) = true := by
    rw [matching, usable, Bool.and_true]
    simp [Ipv4Mask.isMatch, Ipv4RoutingTableEntry.createNetworkRouteTo]
  have routes : (addNetworkRouteTo 0 0 nextHop interface empty).allRoutes ipv4 dest oif =
      [.createNetworkRouteTo 0 0 nextHop interface] := by
    simp only [allRoutes, addNetworkRouteTo, empty, List.filter_nil, List.nil_append, List.filter_cons,
      everything, if_true]
  unfold lookupGlobal
  rw [routes]
  simp

end Lookup

end Ipv4GlobalRouting

end Ns3.Internet
