import Ns3.Aodv.Kernel

/-!
What the table has for one destination, through the calls on the table and the parts of the
handlers that do not replace routes.
-/

namespace Ns3.Aodv

open RoutingTableEntry

/-- An entry without what ages. -/
structure Route where
  validSeqNo : Bool
  seqNo : BitVec 32
  hops : BitVec 16
  nextHop : Address
  flag : RouteFlags

def RoutingTableEntry.route (rt : RoutingTableEntry) : Route where
  validSeqNo := rt.validSeqNo
  seqNo := rt.seqNo
  hops := rt.hops
  nextHop := rt.nextHop
  flag := rt.flag

/-- What may be said of a route and stays true when the route is marked invalid. -/
structure RouteProperty where
  Holds : Route → Prop
  invalidated : ∀ {route : Route}, route.flag = .valid → Holds route →
    Holds { route with flag := .invalid }

/-- There is a route. -/
def RouteProperty.any : RouteProperty where
  Holds _ := True
  invalidated _ _ := trivial

@[simp]
theorem route_insertPrecursor (rt : RoutingTableEntry) (id : Address) :
    (rt.insertPrecursor id).route = rt.route := by
  unfold insertPrecursor
  split <;> rfl

theorem route_invalidate {rt : RoutingTableEntry} (valid : rt.flag = .valid) (now : Nat)
    (badLinkLifetime : Nat) :
    (rt.invalidate now badLinkLifetime).route = { rt.route with flag := .invalid } := by
  simp [invalidate, valid, route]

theorem insertPrecursor_stays {rt : RoutingTableEntry} {now : Nat} (stays : rt.Stays now)
    (id : Address) : (rt.insertPrecursor id).Stays now := by
  simpa [Stays] using stays

variable {now : Nat} {table : RoutingTable} {dst : Address} {property : RouteProperty}

variable (now dst property) in
/-- An entry with the property, if it is one of the destination. -/
def Fits (rt : RoutingTableEntry) : Prop :=
  rt.dst = dst → rt.Stays now ∧ property.Holds rt.route

variable (now table dst property) in
/-- The table has a route with the property to the destination. -/
def Routed : Prop :=
  ∃ rt, table.entry dst = some rt ∧ rt.Stays now ∧ property.Holds rt.route

theorem Fits.insertPrecursor {rt : RoutingTableEntry} (fits : Fits now dst property rt)
    (id : Address) : Fits now dst property (rt.insertPrecursor id) := by
  intro isDst
  rw [insertPrecursor_dst] at isDst
  obtain ⟨stays, holds⟩ := fits isDst
  rw [route_insertPrecursor]
  exact ⟨insertPrecursor_stays stays id, holds⟩

/-- An entry of another destination does not matter. -/
theorem fits_of_ne {rt : RoutingTableEntry} (other : rt.dst ≠ dst) : Fits now dst property rt :=
  fun isDst => absurd isDst other

namespace Routed

theorem mono {weaker : RouteProperty} (routed : Routed now table dst property)
    (implies : ∀ route, property.Holds route → weaker.Holds route) :
    Routed now table dst weaker := by
  obtain ⟨rt, found, stays, holds⟩ := routed
  exact ⟨rt, found, stays, implies _ holds⟩

theorem any (routed : Routed now table dst property) : Routed now table dst .any :=
  routed.mono fun _ _ => trivial

/-- What has been looked up fits. -/
theorem fits (routed : Routed now table dst property) {id : Address} {rt : RoutingTableEntry}
    (found : table.entry id = some rt) : Fits now dst property rt := by
  intro isDst
  obtain ⟨own, foundOwn, stays, holds⟩ := routed
  rw [← isDst, table.dst_eq found, found] at foundOwn
  cases foundOwn
  exact ⟨stays, holds⟩

theorem holds (routed : Routed now table dst property) {rt : RoutingTableEntry}
    (found : table.entry dst = some rt) : property.Holds rt.route :=
  (routed.fits found (table.dst_eq found)).2

theorem ne_none (routed : Routed now table dst property) : table.entry dst ≠ none := by
  obtain ⟨rt, found, _⟩ := routed
  rw [found]
  exact Option.some_ne_none rt

theorem invalidate {rt : RoutingTableEntry} (valid : rt.flag = .valid) (stays : rt.Stays now)
    (holds : property.Holds rt.route) (badLinkLifetime : Nat) :
    (rt.invalidate now badLinkLifetime).Stays now ∧
      property.Holds (rt.invalidate now badLinkLifetime).route := by
  refine ⟨invalidate_stays badLinkLifetime stays, ?_⟩
  rw [route_invalidate valid]
  exact property.invalidated valid holds

theorem purge (routed : Routed now table dst property) :
    Routed now (table.purge now) dst property := by
  obtain ⟨rt, found, stays, holds⟩ := routed
  have atDst : (table.purge now).entry dst = rt.purge now table.badLinkLifetime := by
    simp [RoutingTable.purge, found]
  rcases purge_of_stays stays table.badLinkLifetime with same | ⟨valid, purged⟩
  · exact ⟨rt, atDst.trans same, stays, holds⟩
  · exact ⟨_, atDst.trans purged, invalidate valid stays holds table.badLinkLifetime⟩

theorem update (routed : Routed now table dst property) {rt : RoutingTableEntry}
    (fits : Fits now dst property rt) : Routed now (table.update rt) dst property := by
  obtain ⟨old, found, kept⟩ := routed
  by_cases isDst : rt.dst = dst
  · have written : (table.update rt).entry rt.dst = some rt :=
      RoutingTable.update_self (isDst ▸ found)
    rw [isDst] at written
    exact ⟨rt, written, fits isDst⟩
  · exact ⟨old, (RoutingTable.update_of_ne isDst).trans found, kept⟩

/-- The entry that is there may have any property. -/
theorem update_self {before : RouteProperty} (routed : Routed now table dst before)
    {rt : RoutingTableEntry} (isDst : rt.dst = dst) (stays : rt.Stays now)
    (holds : property.Holds rt.route) : Routed now (table.update rt) dst property := by
  obtain ⟨old, found, _⟩ := routed
  subst isDst
  exact ⟨rt, RoutingTable.update_self found, stays, holds⟩

theorem addRoute (routed : Routed now table dst property) (rt : RoutingTableEntry) :
    Routed now (table.addRoute now rt) dst property := by
  obtain ⟨old, found, kept⟩ := routed.purge
  by_cases isDst : rt.dst = dst
  · rw [RoutingTable.addRoute_of_some now (isDst ▸ found)]
    exact ⟨old, found, kept⟩
  · exact ⟨old, (RoutingTable.addRoute_of_ne now isDst).trans found, kept⟩

/-- The destination has a route after `AddRoute`. -/
theorem of_addRoute {rt : RoutingTableEntry} (none : (table.purge now).entry rt.dst = none)
    (stays : rt.Stays now) (holds : property.Holds rt.route) :
    Routed now (table.addRoute now rt) rt.dst property :=
  ⟨rt, RoutingTable.addRoute_self now none, stays, holds⟩

theorem invalidateRoutesWithDst (routed : Routed now table dst property)
    (unreachable : Address → Bool) :
    Routed now (table.invalidateRoutesWithDst now unreachable) dst property := by
  obtain ⟨rt, found, stays, holds⟩ := routed.purge
  by_cases marked : unreachable dst ∧ rt.flag = .valid
  · refine ⟨rt.invalidate now table.badLinkLifetime, ?_, ?_⟩
    · simp [RoutingTable.invalidateRoutesWithDst, found, marked]
    · exact invalidate marked.2 stays holds table.badLinkLifetime
  · refine ⟨rt, ?_, stays, holds⟩
    simp [RoutingTable.invalidateRoutesWithDst, found, marked]

theorem sendRerrWhenBreaksLinkToNextHop (routed : Routed now table dst property)
    (nextHop : Address) :
    Routed now (sendRerrWhenBreaksLinkToNextHop now nextHop table) dst property := by
  unfold Aodv.sendRerrWhenBreaksLinkToNextHop RoutingTable.lookupRoute
  cases (table.purge now).entry nextHop with
  | none => exact routed.purge
  | some toNextHop => exact routed.purge.invalidateRoutesWithDst _

theorem neighborsUpdate (routed : Routed now table dst property) (addr : Address) (expire : Nat)
    (nb : List Neighbor) :
    Routed now (Neighbors.update now addr expire table nb).1 dst property := by
  unfold Neighbors.update
  split
  · exact routed
  · unfold Neighbors.purge
    generalize List.filter _ _ = closed
    induction closed generalizing table with
    | nil => exact routed
    | cons neighbor closed inductionHypothesis =>
        exact inductionHypothesis (routed.sendRerrWhenBreaksLinkToNextHop _)

open RoutingProtocol

theorem sendReplyByIntermediateNode (routed : Routed now table dst property)
    {toDst toOrigin : RoutingTableEntry} (fitsDst : Fits now dst property toDst)
    (fitsOrigin : Fits now dst property toOrigin) :
    Routed now (sendReplyByIntermediateNode now toDst toOrigin table) dst property := by
  unfold RoutingProtocol.sendReplyByIntermediateNode
  split
  · exact (routed.purge.update (fitsDst.insertPrecursor _)).update (fitsOrigin.insertPrecursor _)
  · exact (routed.update (fitsDst.insertPrecursor _)).update (fitsOrigin.insertPrecursor _)

/-- The origin of a request has an entry when the request is answered, so that the lookup of it
succeeds. -/
theorem answerRequest (config : Config) {rreqHeader : RreqHeader} {known : RouteProperty}
    (routed : Routed now table dst property)
    (origin : Routed now table rreqHeader.origin known) (src : Address)
    (toOrigin : RoutingTableEntry) :
    Routed now (answerRequest config now rreqHeader src toOrigin table) dst property := by
  unfold RoutingProtocol.answerRequest RoutingTable.lookupRoute
  split
  · exact routed.purge
  · cases foundDst : (table.purge now).entry rreqHeader.dst with
    | none => exact routed.purge
    | some toDst =>
        dsimp only
        split_ifs
        · exact routed.purge
        · have fitsDst := routed.purge.fits foundDst
          cases foundOrigin : ((table.purge now).purge now).entry rreqHeader.origin with
          | none => exact absurd foundOrigin origin.purge.purge.ne_none
          | some toOrigin =>
              have fitsOrigin := routed.purge.purge.fits foundOrigin
              exact routed.purge.purge.sendReplyByIntermediateNode fitsDst fitsOrigin
        · exact routed.purge

end Routed

end Ns3.Aodv
