import Ns3.Library.Machine
import Ns3.Internet.Rip.Timers

/-!
The routing table over runs of responses, events and changes of the interfaces.

A valid route has a metric below `m_linkDown` and waits for `InvalidateRoute`; any other one has
this metric and waits for `DeleteRoute`. There is one kind of response that breaks this: a route
that is not valid any more is compared by its metric alone, so an RTE with the metric `m_linkDown`
looks as good as the route, and renews it.
-/

namespace Ns3.Internet.RipRouting

open Library Rip

/-- The event that a route of this status waits for. -/
def Status.handler : Status → Handler
  | .valid => .invalidateRoute
  | .invalid => .deleteRoute

/-- The status, the metric and the event of a route agree. -/
structure RipRoutingTableEntry.Sound (route : RipRoutingTableEntry) : Prop where
  valid : route.status = .valid → route.metric < linkDown
  invalid : route.status = .invalid → route.metric = linkDown
  handler : ∀ event, route.event = some event → event.handler = route.status.handler
  timed : route.event = none → route.status = .valid ∧ route.learned = false

/-- The offer does not renew a route that is not valid. -/
def Offer.Spares (config : Config) (offer : Offer) (rip : Rip) : Prop :=
  ∀ route ∈ rip.routes, offer.isFor route = true → route.status = .invalid →
    offer.rteMetric = linkDown → offer.senderAddress ≠ route.gateway ∧
      ¬ rip.simulation.getDelayLeft route.event < config.timeoutDelay / 2

instance (config : Config) (offer : Offer) (rip : Rip) : Decidable (offer.Spares config rip) :=
  inferInstanceAs (Decidable (∀ route ∈ rip.routes, _ → _ → _ → _))

namespace RipRoutingTableEntry.Sound

variable {route : RipRoutingTableEntry} {offer : Offer}

theorem metric_le (sound : route.Sound) : route.metric ≤ linkDown := by
  cases status : route.status with
  | valid => exact Nat.le_of_lt (sound.valid status)
  | invalid => exact Nat.le_of_eq (sound.invalid status)

/-- A valid route that waits for `InvalidateRoute`. -/
theorem of_valid {event : EventId} (stored : route.event = some event)
    (handler : event.handler = .invalidateRoute) (valid : route.status = .valid)
    (metric : route.metric < linkDown) : route.Sound := by
  constructor
  · exact fun _ => metric
  · intro invalid
    exact absurd (valid.symm.trans invalid) (by decide)
  · intro other same
    cases stored.symm.trans same
    simpa [valid, Status.handler] using handler
  · intro none
    exact absurd (stored.symm.trans none) (by simp)

/-- A route that waits for `DeleteRoute`. -/
theorem of_invalid {event : EventId} (stored : route.event = some event)
    (handler : event.handler = .deleteRoute) (invalid : route.status = .invalid)
    (metric : route.metric = linkDown) : route.Sound := by
  constructor
  · intro valid
    exact absurd (invalid.symm.trans valid) (by decide)
  · exact fun _ => metric
  · intro other same
    cases stored.symm.trans same
    simpa [invalid, Status.handler] using handler
  · intro none
    exact absurd (stored.symm.trans none) (by simp)

end RipRoutingTableEntry.Sound

namespace Rip

variable {config : Config} {rip after : Rip} {place : Nat} {route old : RipRoutingTableEntry}
  {offer : Offer}

/-- Every route of the table is sound. -/
def AllSound (rip : Rip) : Prop := ∀ route ∈ rip.routes, route.Sound

theorem AllSound.set (sound : rip.AllSound) (isSound : route.Sound) :
    ∀ other ∈ rip.routes.set place route, other.Sound := by
  intro other mem
  rcases List.mem_or_eq_of_mem_set mem with old | rfl
  · exact sound other old
  · exact isSound

theorem AllSound.learn (sound : rip.AllSound) {event : Option EventId}
    (valid : route.status = .valid) (metric : route.metric < linkDown) :
    (rip.learn config place event route).AllSound :=
  sound.set (RipRoutingTableEntry.Sound.of_valid rfl rfl valid metric)

theorem AllSound.invalidateRoute (sound : rip.AllSound)
    (objects : (rip.routes.map RipRoutingTableEntry.object).Nodup)
    (here : rip.routes[place]? = some route) :
    (rip.invalidateRoute config route.object).AllSound := by
  rw [invalidateRoute_object objects here]
  exact sound.set (RipRoutingTableEntry.Sound.of_invalid rfl rfl (by simp) (by simp))

namespace Handled

theorem consistent (handled : Handled config offer rip place after) (consistent : rip.Consistent) :
    after.Consistent := by
  cases handled with
  | same => exact consistent
  | renewed route here =>
      exact consistent.learn here (.inl rfl) (consistent.made route (List.mem_of_getElem? here))
  | accepted route here =>
      exact consistent.learn here (.inl (by simp [Offer.accept]))
        (by simpa [Offer.accept] using consistent.made route (List.mem_of_getElem? here))
  | replaced route here =>
      apply consistent.allocate.learn here
      · right
        intro other mem
        simpa [Offer.accept, Offer.newRoute] using consistent.fresh other mem
      · simp [Offer.accept, Offer.newRoute, Simulation.allocate]
  | invalidated route here => exact consistent.invalidateRoute here

/-- Only the route at the place may change, and no time passes. -/
theorem frame (handled : Handled config offer rip place after) (consistent : rip.Consistent) :
    after.simulation.now = rip.simulation.now ∧
      ∀ other, other ≠ place → after.routes[other]? = rip.routes[other]? := by
  have set (list : List RipRoutingTableEntry) (item : RipRoutingTableEntry) (other : Nat)
      (elsewhere : other ≠ place) : (list.set place item)[other]? = list[other]? :=
    List.getElem?_set_ne (Ne.symm elsewhere)
  cases handled with
  | same => exact ⟨rfl, fun _ _ => rfl⟩
  | renewed route here => exact ⟨rfl, set _ _⟩
  | accepted route here => exact ⟨rfl, set _ _⟩
  | replaced route here => exact ⟨rfl, set _ _⟩
  | invalidated route here =>
      rw [invalidateRoute_object consistent.objects here]
      exact ⟨rfl, set _ _⟩

theorem sound (handled : Handled config offer rip place after) (consistent : rip.Consistent)
    (sound : rip.AllSound)
    (spares : ∀ route, rip.routes[place]? = some route → offer.isFor route = true →
      route.status = .invalid → offer.rteMetric = linkDown → offer.senderAddress ≠ route.gateway ∧
        ¬ rip.simulation.getDelayLeft route.event < config.timeoutDelay / 2) :
    after.AllSound := by
  cases handled with
  | same => exact sound
  | renewed route here isFor equal gateway =>
      have isSound := sound route (List.mem_of_getElem? here)
      have valid : route.status = .valid := by
        cases status : route.status with
        | valid => rfl
        | invalid =>
            have metric : offer.rteMetric = linkDown := equal.trans (isSound.invalid status)
            exact absurd gateway (spares route here isFor status metric).1
      exact sound.learn valid (isSound.valid valid)
  | accepted route here better =>
      have isSound := sound route (List.mem_of_getElem? here)
      have metric : offer.rteMetric < linkDown := by
        rcases better with less | less
        · exact Nat.lt_of_lt_of_le less isSound.metric_le
        · exact less
      exact sound.learn (by simp [Offer.accept]) (by simpa [Offer.accept] using metric)
  | replaced route here isFor better =>
      have isSound := sound route (List.mem_of_getElem? here)
      have metric : offer.rteMetric < linkDown := by
        rcases better with less | ⟨equal, late⟩
        · exact Nat.lt_of_lt_of_le less isSound.metric_le
        · cases status : route.status with
          | valid => exact equal ▸ isSound.valid status
          | invalid =>
              exact absurd late (spares route here isFor status
                (equal.trans (isSound.invalid status))).2
      exact @AllSound.learn _ { rip with simulation := rip.simulation.allocate } _ _ sound _
        (by simp [Offer.accept]) (by simpa [Offer.accept] using metric)
  | invalidated route here => exact sound.invalidateRoute consistent.objects here

end Handled

/-- The loop over the table keeps the events. -/
theorem Consistent.handleRoutes (consistent : rip.Consistent) (offer : Offer) (found changed : Bool)
    (places : List Nat) :
    (places.foldl (handleRoute config offer) ⟨rip, found, changed⟩).rip.Consistent := by
  induction places generalizing rip found changed with
  | nil => exact consistent
  | cons place places inductionHypothesis =>
      have handled : Handled config offer rip place _ :=
        handled_handleRoute consistent.objects offer found changed
      exact inductionHypothesis (handled.consistent consistent) _ _

theorem Consistent.handleRte (consistent : rip.Consistent) (offer : Offer) (changed : Bool) :
    (handleRte config offer (rip, changed)).1.Consistent := by
  have loop := @Consistent.handleRoutes config rip consistent offer false changed
    (List.range rip.routes.length)
  unfold Rip.handleRte
  dsimp only
  split
  · exact loop.addLearnedRoute offer
  · exact loop

/-- The loop over the table has visited the first places. The others are as they were. -/
structure Visited (rip : Rip) (count : Nat) (current : Rip) : Prop where
  consistent : current.Consistent
  sound : current.AllSound
  now : current.simulation.now = rip.simulation.now
  rest : ∀ place, count ≤ place → current.routes[place]? = rip.routes[place]?

theorem Visited.next {current : Rip} {count : Nat} (visited : rip.Visited count current)
    (consistent : rip.Consistent) (spares : offer.Spares config rip)
    (handled : Handled config offer current count after) : rip.Visited (count + 1) after := by
  obtain ⟨now, frame⟩ := handled.frame visited.consistent
  refine ⟨handled.consistent visited.consistent, ?_, now.trans visited.now, ?_⟩
  · apply handled.sound visited.consistent visited.sound
    intro route here isFor invalid metric
    have before := here
    rw [visited.rest count (Nat.le_refl _)] at before
    have mem := List.mem_of_getElem? before
    have spared := spares route mem isFor invalid metric
    rw [consistent.getDelayLeft mem] at spared
    rw [visited.consistent.getDelayLeft (List.mem_of_getElem? here), visited.now]
    exact spared
  · intro place later
    rw [frame place (by omega), visited.rest place (by omega)]

theorem visited_range (consistent : rip.Consistent) (sound : rip.AllSound)
    (spares : offer.Spares config rip) (found changed : Bool) (count : Nat) :
    rip.Visited count
      ((List.range count).foldl (handleRoute config offer) ⟨rip, found, changed⟩).rip := by
  induction count with
  | zero => exact ⟨consistent, sound, rfl, fun _ _ => rfl⟩
  | succ count inductionHypothesis =>
      rw [List.range_succ, List.foldl_concat]
      exact inductionHypothesis.next consistent spares
        (handled_handleRoute inductionHypothesis.consistent.objects offer _ _)

theorem AllSound.addLearnedRoute (sound : rip.AllSound) (metric : offer.rteMetric < linkDown) :
    (rip.addLearnedRoute config offer).AllSound := by
  intro route mem
  rcases List.mem_cons.mp mem with rfl | old
  · exact RipRoutingTableEntry.Sound.of_valid rfl rfl (by simp) (by simpa using metric)
  · exact sound route old

theorem AllSound.handleRte (sound : rip.AllSound) (consistent : rip.Consistent)
    (spares : offer.Spares config rip) (bound : offer.rteMetric ≤ linkDown) (changed : Bool) :
    (handleRte config offer (rip, changed)).1.AllSound := by
  have loop := (visited_range consistent sound spares false changed rip.routes.length).sound
  unfold Rip.handleRte
  dsimp only
  split
  · next new => exact loop.addLearnedRoute (Nat.lt_of_le_of_ne bound new.2)
  · exact loop

/-- The loop of `HandleResponses` over the RTEs. -/
def responses (config : Config) (senderAddress : UInt32) (incomingInterface : Nat) :
    Machine (Rip × Bool) RipRte where
  step state rte := handleRte config (offerOf config senderAddress incomingInterface rte) state
  Enabled _ _ := True

theorem Consistent.handleResponses (consistent : rip.Consistent) (rtes : List RipRte)
    (senderAddress : UInt32) (incomingInterface : Nat) :
    (rip.handleResponses config rtes senderAddress incomingInterface).Consistent := by
  have always : (responses config senderAddress incomingInterface).Always
      (fun state => state.1.Consistent) (rip, false) rtes :=
    Machine.Legal.always (fun _ _ consistent _ => consistent.handleRte _ _) consistent
      (Machine.legal_of_enabled (fun _ _ => trivial) _ rtes)
  have loop := always.last
  unfold Rip.handleResponses
  split
  · exact consistent
  · split
    · exact consistent
    · dsimp only
      split
      · exact { loop with }
      · exact loop

/-- No RTE of the response renews a route that is not valid when it is looked at. -/
def ResponseSpares (config : Config) (rip : Rip) (rtes : List RipRte) (senderAddress : UInt32)
    (incomingInterface : Nat) : Prop :=
  incomingInterface ∉ config.interfaceExclusions → rtes.any isMalformed = false →
    (responses config senderAddress incomingInterface).Along (fun state rte =>
      (offerOf config senderAddress incomingInterface rte).Spares config state.1) (rip, false) rtes

instance (config : Config) (rip : Rip) (rtes : List RipRte) (senderAddress : UInt32)
    (incomingInterface : Nat) :
    Decidable (rip.ResponseSpares config rtes senderAddress incomingInterface) :=
  inferInstanceAs (Decidable (_ → _ → Machine.Along _ (fun (state : Rip × Bool) rte =>
    (offerOf config senderAddress incomingInterface rte).Spares config state.1) _ _))

theorem AllSound.handleResponses (sound : rip.AllSound) (consistent : rip.Consistent)
    {rtes : List RipRte} {senderAddress : UInt32} {incomingInterface : Nat}
    (spares : rip.ResponseSpares config rtes senderAddress incomingInterface) :
    (rip.handleResponses config rtes senderAddress incomingInterface).AllSound := by
  unfold Rip.handleResponses
  split
  · exact sound
  · next included =>
      split
      · exact sound
      · next wellFormed =>
          have always : (responses config senderAddress incomingInterface).Always
              (fun state => state.1.Consistent ∧ state.1.AllSound) (rip, false) rtes := by
            apply Machine.Legal.always_of_along _ ⟨consistent, sound⟩
              (Machine.legal_of_enabled (fun _ _ => trivial) _ rtes)
              (spares included (by simpa using wellFormed))
            intro state rte invariant _ spared
            exact ⟨invariant.1.handleRte _ _,
              invariant.2.handleRte invariant.1 spared (Nat.min_le_right _ _) _⟩
          have loop := always.last.2
          dsimp only
          split
          · exact loop
          · exact loop

/-- What `InvalidateRoute` keeps is kept for all the routes that are selected. -/
theorem invalidateRoutes_induction {Property : Rip → Prop} (initial : Property rip)
    (preserved : ∀ (rip : Rip) (place : Nat) (route : RipRoutingTableEntry), Property rip →
      rip.routes[place]? = some route → Property (rip.invalidateRoute config route.object))
    (selected : RipRoutingTableEntry → Bool) : Property (rip.invalidateRoutes config selected) := by
  unfold invalidateRoutes
  generalize List.range rip.routes.length = places
  induction places generalizing rip with
  | nil => exact initial
  | cons place places inductionHypothesis =>
      rw [List.foldl_cons]
      split
      · exact inductionHypothesis initial
      · next route here =>
          split
          · exact inductionHypothesis (preserved rip place route initial here)
          · exact inductionHypothesis initial

theorem Consistent.invalidateRoutes (consistent : rip.Consistent)
    (selected : RipRoutingTableEntry → Bool) : (rip.invalidateRoutes config selected).Consistent :=
  invalidateRoutes_induction consistent
    (fun _ _ _ consistent here => consistent.invalidateRoute here) selected

theorem AllSound.invalidateRoutes (sound : rip.AllSound) (consistent : rip.Consistent)
    (selected : RipRoutingTableEntry → Bool) : (rip.invalidateRoutes config selected).AllSound := by
  have both := @invalidateRoutes_induction config rip
    (fun rip => rip.Consistent ∧ rip.AllSound) ⟨consistent, sound⟩
    (fun _ _ _ invariant here => ⟨invariant.1.invalidateRoute here,
      invariant.2.invalidateRoute invariant.1.objects here⟩) selected
  exact both.2

/-- What a new route and a triggered update keep is kept when an interface comes up. -/
theorem notifyInterfaceUp_induction {Property : Rip → Prop} (initial : Property rip)
    (added : ∀ (rip : Rip) (network networkPrefix nextHop : UInt32) (interface : Nat),
      Property rip → Property (rip.addNetworkRouteTo network networkPrefix nextHop interface))
    (triggered : ∀ rip : Rip, Property rip → Property rip.sendTriggeredRouteUpdate)
    (i : Nat) (loopback : Bool) (addresses : List Ipv4InterfaceAddress) :
    Property (rip.notifyInterfaceUp i loopback addresses) := by
  have loop (addresses : List Ipv4InterfaceAddress) :
      Property (addresses.foldl (fun rip address =>
        if address.scope = .global then
          rip.addNetworkRouteTo (address.localAddress &&& address.mask) address.mask 0 i
        else rip) rip) := by
    induction addresses generalizing rip with
    | nil => exact initial
    | cons address addresses inductionHypothesis =>
        rw [List.foldl_cons]
        split
        · exact inductionHypothesis (added _ _ _ _ _ initial)
        · exact inductionHypothesis initial
  unfold notifyInterfaceUp
  split
  · exact initial
  · dsimp only
    split
    · exact triggered _ (loop addresses)
    · exact loop addresses

theorem AllSound.addNetworkRouteTo (sound : rip.AllSound) (network networkPrefix nextHop : UInt32)
    (interface : Nat) :
    (rip.addNetworkRouteTo network networkPrefix nextHop interface).AllSound := by
  intro route mem
  rcases List.mem_append.mp mem with old | new
  · exact sound route old
  · rw [List.mem_singleton.mp new]
    constructor
    · intro _
      simp [linkDown]
    · intro invalid
      simp at invalid
    · intro event stored
      simp at stored
    · intro _
      simp

theorem AllSound.invoke (sound : rip.AllSound) (consistent : rip.Consistent) {event : EventId}
    (pending : event ∈ rip.simulation.pending) : (rip.invoke config event).AllSound := by
  obtain ⟨place, route, here, stored, target⟩ := consistent.exists_route pending
  unfold Rip.invoke
  cases event.handler with
  | invalidateRoute =>
      dsimp only
      rw [target, ← stored, invalidateRoute_cancel consistent.objects here]
      exact sound.invalidateRoute consistent.objects here
  | deleteRoute =>
      intro other mem
      dsimp only at mem
      unfold Rip.deleteRoute at mem
      split at mem
      · exact sound other mem
      · exact sound other (List.mem_of_mem_eraseIdx mem)

theorem AllSound.doSendRouteUpdate (sound : rip.AllSound) : rip.doSendRouteUpdate.AllSound := by
  intro route mem
  obtain ⟨earlier, old, rfl⟩ := List.mem_map.mp mem
  have isSound := sound earlier old
  exact ⟨isSound.valid, isSound.invalid, isSound.handler, isSound.timed⟩

end Rip

/-- What happens to the routing protocol. -/
inductive Event
  | doInitialize
  | handleResponses (rtes : List RipRte) (senderAddress : UInt32) (incomingInterface : Nat)
  | invoke (event : EventId)
  | wait (delay : Nat)
  | notifyInterfaceUp (i : Nat) (loopback : Bool) (addresses : List Ipv4InterfaceAddress)
  | notifyInterfaceDown (interface : Nat)
  | notifyAddAddress (isUp : Bool) (interface : Nat) (address : Ipv4InterfaceAddress)
  | notifyRemoveAddress (isUp : Bool) (interface : Nat) (address : Ipv4InterfaceAddress)
  | addDefaultRouteTo (nextHop : UInt32) (interface : Nat)
  | doSendRouteUpdate
  deriving DecidableEq, Repr

namespace Rip

/-- One event. -/
def step (config : Config) (rip : Rip) : Event → Rip
  | .doInitialize => { rip with initialized := true, triggeredUpdate := true }
  | .handleResponses rtes senderAddress incomingInterface =>
      rip.handleResponses config rtes senderAddress incomingInterface
  | .invoke event => rip.invoke config event
  | .wait delay =>
      { rip with simulation := { rip.simulation with now := rip.simulation.now + delay } }
  | .notifyInterfaceUp i loopback addresses => rip.notifyInterfaceUp i loopback addresses
  | .notifyInterfaceDown interface => rip.notifyInterfaceDown config interface
  | .notifyAddAddress isUp interface address => rip.notifyAddAddress config isUp interface address
  | .notifyRemoveAddress isUp interface address =>
      rip.notifyRemoveAddress config isUp interface address
  | .addDefaultRouteTo nextHop interface => rip.addNetworkRouteTo 0 0 nextHop interface
  | .doSendRouteUpdate => rip.doSendRouteUpdate

/-- An event of the simulator takes place at its time, and no time passes over it. -/
def Enabled (rip : Rip) : Event → Prop
  | .invoke event => event ∈ rip.simulation.pending ∧ event.time = rip.simulation.now
  | .wait delay => ∀ event ∈ rip.simulation.pending, rip.simulation.now + delay ≤ event.time
  | _ => True

instance (rip : Rip) : (event : Event) → Decidable (rip.Enabled event)
  | .invoke _ => inferInstanceAs (Decidable (_ ∧ _))
  | .wait _ => inferInstanceAs (Decidable (∀ _ ∈ _, _))
  | .doInitialize | .handleResponses _ _ _ | .notifyInterfaceUp _ _ _ | .notifyInterfaceDown _
  | .notifyAddAddress _ _ _ | .notifyRemoveAddress _ _ _ | .addDefaultRouteTo _ _
  | .doSendRouteUpdate => inferInstanceAs (Decidable True)

/-- What is expected of the table: the status and the metric of a route agree, a route that was
learned has one pending event, which depends on its status, and a pending event finds its route. -/
structure Timely (rip : Rip) : Prop where
  valid : ∀ route ∈ rip.routes, route.status = .valid → route.metric < linkDown
  invalid : ∀ route ∈ rip.routes, route.status = .invalid → route.metric = linkDown
  timer : ∀ route ∈ rip.routes, route.learned = true →
    (rip.simulation.pending.filter fun event => event.route = route.object).map EventId.handler =
      [route.status.handler]
  present : ∀ event ∈ rip.simulation.pending, ∃ route ∈ rip.routes, route.object = event.route
  alive : rip.aborted = false

/-- A response does not renew a route that is not valid. -/
def Spares (config : Config) (rip : Rip) : Event → Prop
  | .handleResponses rtes senderAddress incomingInterface =>
      rip.ResponseSpares config rtes senderAddress incomingInterface
  | _ => True

instance (config : Config) (rip : Rip) : (event : Event) → Decidable (rip.Spares config event)
  | .handleResponses rtes senderAddress incomingInterface =>
      inferInstanceAs (Decidable (rip.ResponseSpares config rtes senderAddress incomingInterface))
  | .invoke _ | .wait _ | .doInitialize | .notifyInterfaceUp _ _ _ | .notifyInterfaceDown _
  | .notifyAddAddress _ _ _ | .notifyRemoveAddress _ _ _ | .addDefaultRouteTo _ _
  | .doSendRouteUpdate => inferInstanceAs (Decidable True)

variable {config : Config} {rip : Rip}

theorem Consistent.timely (consistent : rip.Consistent) (sound : rip.AllSound) : rip.Timely := by
  constructor
  · exact fun route mem => (sound route mem).valid
  · exact fun route mem => (sound route mem).invalid
  · intro route mem learned
    cases stored : route.event with
    | none =>
        have never := ((sound route mem).timed stored).2
        exact absurd (learned.symm.trans never) (by decide)
    | some event =>
        rw [consistent.filter_pending mem stored, List.map_singleton,
          (sound route mem).handler event stored]
  · intro event pending
    obtain ⟨place, route, here, _, target⟩ := consistent.exists_route pending
    exact ⟨route, List.mem_of_getElem? here, target.symm⟩
  · exact consistent.alive

theorem Consistent.sendTriggeredRouteUpdate (consistent : rip.Consistent) :
    rip.sendTriggeredRouteUpdate.Consistent :=
  { consistent with }

theorem AllSound.sendTriggeredRouteUpdate (sound : rip.AllSound) :
    rip.sendTriggeredRouteUpdate.AllSound := sound

/-- Whatever happens, the pending events stay those of the routes. -/
theorem Consistent.step (consistent : rip.Consistent) {event : Event} (enabled : rip.Enabled event) :
    (rip.step config event).Consistent := by
  cases event with
  | doInitialize => exact { consistent with }
  | handleResponses rtes senderAddress incomingInterface =>
      exact consistent.handleResponses rtes senderAddress incomingInterface
  | invoke event => exact consistent.invoke enabled.1
  | wait delay => exact { consistent with }
  | notifyInterfaceUp i loopback addresses =>
      exact notifyInterfaceUp_induction consistent
        (fun _ network networkPrefix nextHop interface consistent =>
          consistent.addNetworkRouteTo network networkPrefix nextHop interface)
        (fun _ consistent => consistent.sendTriggeredRouteUpdate) i loopback addresses
  | notifyInterfaceDown interface =>
      have invalidated := @Consistent.invalidateRoutes config rip consistent
        fun route => route.interface = interface
      simp only [Rip.step, notifyInterfaceDown]
      split
      · exact invalidated
      · exact invalidated.sendTriggeredRouteUpdate
  | notifyAddAddress isUp interface address =>
      simp only [Rip.step, notifyAddAddress]
      split
      · exact consistent
      · split
        · exact (consistent.addNetworkRouteTo _ _ _ _).sendTriggeredRouteUpdate
        · exact consistent.sendTriggeredRouteUpdate
  | notifyRemoveAddress isUp interface address =>
      simp only [Rip.step, notifyRemoveAddress]
      split
      · exact consistent
      · split
        · exact consistent.invalidateRoutes _
        · exact (consistent.invalidateRoutes _).sendTriggeredRouteUpdate
  | addDefaultRouteTo nextHop interface => exact consistent.addNetworkRouteTo 0 0 nextHop interface
  | doSendRouteUpdate =>
      have updated := @Consistent.mapRoutes rip consistent
        (fun route => route.setRouteChanged false) (fun _ => rfl) (fun _ => rfl)
      exact { updated with }

theorem AllSound.step (sound : rip.AllSound) (consistent : rip.Consistent) {event : Event}
    (enabled : rip.Enabled event) (spares : rip.Spares config event) :
    (rip.step config event).AllSound := by
  cases event with
  | doInitialize => exact sound
  | handleResponses rtes senderAddress incomingInterface =>
      exact sound.handleResponses consistent spares
  | invoke event => exact sound.invoke consistent enabled.1
  | wait delay => exact sound
  | notifyInterfaceUp i loopback addresses =>
      exact notifyInterfaceUp_induction sound
        (fun _ network networkPrefix nextHop interface sound =>
          sound.addNetworkRouteTo network networkPrefix nextHop interface)
        (fun _ sound => sound.sendTriggeredRouteUpdate) i loopback addresses
  | notifyInterfaceDown interface =>
      have invalidated := @AllSound.invalidateRoutes config rip sound consistent
        fun route => route.interface = interface
      simp only [Rip.step, notifyInterfaceDown]
      split
      · exact invalidated
      · exact invalidated.sendTriggeredRouteUpdate
  | notifyAddAddress isUp interface address =>
      simp only [Rip.step, notifyAddAddress]
      split
      · exact sound
      · split
        · exact (sound.addNetworkRouteTo _ _ _ _).sendTriggeredRouteUpdate
        · exact sound.sendTriggeredRouteUpdate
  | notifyRemoveAddress isUp interface address =>
      simp only [Rip.step, notifyRemoveAddress]
      split
      · exact sound
      · split
        · exact sound.invalidateRoutes consistent _
        · exact (sound.invalidateRoutes consistent _).sendTriggeredRouteUpdate
  | addDefaultRouteTo nextHop interface => exact sound.addNetworkRouteTo 0 0 nextHop interface
  | doSendRouteUpdate => exact sound.doSendRouteUpdate

end Rip

/-- Routers with these attributes. -/
def routers (config : Config) : Machine Rip Event where
  step := Rip.step config
  Enabled := Rip.Enabled

instance (config : Config) (rip : Rip) (event : Event) :
    Decidable ((routers config).Enabled rip event) :=
  inferInstanceAs (Decidable (rip.Enabled event))

variable {config : Config} {events : List Event}

theorem Rip.consistent_initial : ({} : Rip).Consistent := by
  constructor <;> simp

/-- The aborts of `InvalidateRoute` and `DeleteRoute` are not reached in any run. -/
theorem always_not_aborted (legal : (routers config).Legal {} events) :
    (routers config).Always (fun rip => rip.aborted = false) {} events := by
  have always : (routers config).Always Rip.Consistent {} events :=
    Machine.Legal.always (fun _ _ consistent enabled => consistent.step enabled)
      Rip.consistent_initial legal
  exact always.mono fun _ consistent => consistent.alive

/-- The table stays as expected in the runs in which no response renews a route that is not
valid. -/
theorem always_timely (legal : (routers config).Legal {} events)
    (spares : (routers config).Along (Rip.Spares config) {} events) :
    (routers config).Always Rip.Timely {} events := by
  have always : (routers config).Always (fun rip => rip.Consistent ∧ rip.AllSound) {} events := by
    apply Machine.Legal.always_of_along _ ⟨Rip.consistent_initial, by simp [Rip.AllSound]⟩ legal
      spares
    intro rip event invariant enabled spared
    exact ⟨invariant.1.step enabled, invariant.2.step invariant.1 enabled spared⟩
  exact always.mono fun _ invariant => invariant.1.timely invariant.2

/-- A network that two neighbours have, the loss of the interface, and the events that follow. -/
theorem always_timely_lost :
    (routers { timeoutDelay := 180, garbageCollectionDelay := 120 }).Always Rip.Timely {}
      [.doInitialize,
        .notifyInterfaceUp 1 false [⟨0x0a000001, 0xffffff00, .global⟩],
        .handleResponses [⟨0x0a000200, 0xffffff00, 3, 0⟩] 0x0a000002 1,
        .wait 100,
        .handleResponses [⟨0x0a000200, 0xffffff00, 3, 0⟩, ⟨0x0a000300, 0xffffff00, 16, 0⟩]
          0x0a000003 1,
        .handleResponses [⟨0x0a000200, 0xffffff00, 16, 0⟩] 0x0a000003 1,
        .handleResponses [⟨0x0a000200, 0xffffff00, 1, 7⟩] 0x0a000002 1,
        .notifyInterfaceDown 1,
        .wait 120,
        .invoke ⟨4, 220, .deleteRoute, 3⟩,
        .invoke ⟨5, 220, .deleteRoute, 0⟩] :=
  always_timely (by decide) (by decide)

/-- A route whose loss its gateway announces twice is not deleted: it waits for `InvalidateRoute`
again. -/
theorem not_always_timely :
    ¬ ∀ (config : Config) (events : List Event), (routers config).Legal {} events →
      (routers config).Always Rip.Timely {} events := by
  intro always
  have timely := (always { timeoutDelay := 180, garbageCollectionDelay := 120 }
    [.handleResponses [⟨0x0a000200, 0xffffff00, 1, 0⟩] 0x0a000002 1,
      .handleResponses [⟨0x0a000200, 0xffffff00, 16, 0⟩] 0x0a000002 1,
      .handleResponses [⟨0x0a000200, 0xffffff00, 16, 0⟩] 0x0a000002 1] (by decide)).last
  have renewed := timely.timer
  revert renewed
  decide

end Ns3.Internet.RipRouting
