import Mathlib.Data.List.Perm.Basic
import Mathlib.Data.List.Nodup
import Ns3.Internet.Rip.Kernel

/-!
The events that are pending and the routes of the table.

Whatever is received, the pending events are those that are stored beside the routes, one for each,
and an event is for the route beside it. So `InvalidateRoute` and `DeleteRoute` always find their
route.
-/

namespace Ns3.Internet.RipRouting

open Rip

/-- What the table and the simulator keep. -/
structure Rip.Consistent (rip : Rip) : Prop where
  pending : rip.simulation.pending.Perm (rip.routes.filterMap RipRoutingTableEntry.event)
  uids : (rip.simulation.pending.map EventId.uid).Nodup
  older : ∀ event ∈ rip.simulation.pending, event.uid < rip.simulation.nextUid
  objects : (rip.routes.map RipRoutingTableEntry.object).Nodup
  made : ∀ route ∈ rip.routes, route.object < rip.simulation.nextObject
  owned : ∀ route ∈ rip.routes, ∀ event, route.event = some event → event.route = route.object
  alive : rip.aborted = false

theorem exists_append_of_getElem? {α : Type} {list : List α} {place : Nat} {item : α}
    (here : list[place]? = some item) :
    ∃ before after, list = before ++ item :: after ∧ before.length = place := by
  obtain ⟨bound, rfl⟩ := List.getElem?_eq_some_iff.mp here
  refine ⟨list.take place, list.drop (place + 1), ?_, ?_⟩
  · rw [← List.drop_eq_getElem_cons bound, List.take_append_drop]
  · simp only [List.length_take]
    omega

/-- The event that is cancelled is pending once. -/
theorem perm_cancel {pending before after : List EventId} {event : Option EventId}
    (nodup : pending.Nodup) (perm : pending.Perm (before ++ (event.toList ++ after))) :
    (pending.filter fun other => some other ≠ event).Perm (before ++ after) := by
  cases event with
  | none => simpa using perm
  | some event =>
      have erased : (pending.filter fun other => some other ≠ some event) = pending.erase event := by
        rw [nodup.erase_eq_filter]
        apply List.filter_congr
        intro other _
        by_cases same : other = event
        · simp [same]
        · simp [same]
      rw [erased]
      have moved : pending.Perm (event :: (before ++ after)) := perm.trans List.perm_middle
      simpa using moved.erase event

namespace Rip

variable {config : Config} {rip : Rip} {place : Nat} {route : RipRoutingTableEntry}

theorem placeOf_object (objects : (rip.routes.map RipRoutingTableEntry.object).Nodup)
    (here : rip.routes[place]? = some route) : rip.placeOf route.object = some place := by
  obtain ⟨before, after, eq, rfl⟩ := exists_append_of_getElem? here
  unfold placeOf
  rw [eq] at objects ⊢
  have other : ∀ earlier ∈ before, earlier.object ≠ route.object := by
    intro earlier mem same
    rw [List.map_append, List.nodup_append] at objects
    exact objects.2.2 earlier.object (List.mem_map_of_mem mem) route.object (by simp) same
  rw [List.findIdx?_append, List.findIdx?_eq_none_iff.mpr (by simpa using other),
    List.findIdx?_cons]
  simp

/-- A route of the table is found, and invalidated in its place. -/
theorem invalidateRoute_object (objects : (rip.routes.map RipRoutingTableEntry.object).Nodup)
    (here : rip.routes[place]? = some route) :
    rip.invalidateRoute config route.object = rip.reschedule place route.event
      (((route.setRouteStatus .invalid).setRouteMetric linkDown).setRouteChanged true)
      config.garbageCollectionDelay .deleteRoute := by
  unfold invalidateRoute
  rw [placeOf_object objects here]
  simp only [here]

/-- An event that was cancelled may be cancelled again. -/
theorem reschedule_cancel {event : Option EventId} {delay : Nat} {handler : Handler} :
    ({ rip with simulation := rip.simulation.cancel event } : Rip).reschedule place event route delay
      handler = rip.reschedule place event route delay handler := by
  simp [reschedule, Simulation.cancel, Simulation.schedule, Simulation.nextEvent,
    List.filter_filter]

theorem invalidateRoute_cancel (objects : (rip.routes.map RipRoutingTableEntry.object).Nodup)
    (here : rip.routes[place]? = some route) :
    ({ rip with simulation := rip.simulation.cancel route.event } : Rip).invalidateRoute config
      route.object = rip.invalidateRoute config route.object := by
  have cancelled := @invalidateRoute_object config
    { rip with simulation := rip.simulation.cancel route.event } place route objects here
  rw [cancelled, reschedule_cancel, invalidateRoute_object objects here]

namespace Consistent

theorem nodup (consistent : rip.Consistent) : rip.simulation.pending.Nodup :=
  List.Nodup.of_map _ consistent.uids

theorem allocate (consistent : rip.Consistent) :
    ({ rip with simulation := rip.simulation.allocate } : Rip).Consistent :=
  { consistent with made := fun route mem => Nat.lt_succ_of_lt (consistent.made route mem) }

/-- A new event for the route at a place, or for a new route that takes this place. -/
theorem reschedule (consistent : rip.Consistent) {old : RipRoutingTableEntry}
    (here : rip.routes[place]? = some old)
    (new : route.object = old.object ∨ ∀ other ∈ rip.routes, other.object ≠ route.object)
    (made : route.object < rip.simulation.nextObject) (delay : Nat) (handler : Handler) :
    (rip.reschedule place old.event route delay handler).Consistent := by
  obtain ⟨before, after, eq, rfl⟩ := exists_append_of_getElem? here
  have pending := consistent.pending
  rw [eq, List.filterMap_append, List.filterMap_cons] at pending
  have split : rip.simulation.pending.Perm (before.filterMap RipRoutingTableEntry.event ++
      (old.event.toList ++ after.filterMap RipRoutingTableEntry.event)) := by
    cases event : old.event with
    | none => simpa [event] using pending
    | some _ => simpa [event] using pending
  have cancelled := perm_cancel consistent.nodup split
  have kept : ∀ event ∈ (rip.simulation.cancel old.event).pending,
      event ∈ rip.simulation.pending := fun event mem => List.mem_of_mem_filter mem
  have set (item : RipRoutingTableEntry) :
      rip.routes.set before.length item = before ++ item :: after := by
    rw [eq]
    simp
  constructor
  · change ((rip.simulation.cancel old.event).pending ++ _).Perm _
    simp only [Rip.reschedule, set, List.filterMap_append, List.filterMap_cons]
    exact (cancelled.append_right _).trans ((List.perm_append_singleton _ _).trans
      List.perm_middle.symm)
  · change (((rip.simulation.cancel old.event).pending ++ _).map _).Nodup
    rw [List.map_append, List.nodup_append]
    refine ⟨consistent.uids.sublist (List.filter_sublist.map _), by simp, ?_⟩
    intro uid mem other isNew
    obtain ⟨event, pending, rfl⟩ := List.mem_map.mp mem
    have older := consistent.older event (kept event pending)
    simp only [List.map_cons, List.map_nil, List.mem_singleton] at isNew
    rw [isNew]
    exact Nat.ne_of_lt older
  · intro event mem
    rcases List.mem_append.mp mem with old | new
    · exact Nat.lt_succ_of_lt (consistent.older event (kept event old))
    · rw [List.mem_singleton.mp new]
      exact Nat.lt_succ_self _
  · have objects := consistent.objects
    simp only [Rip.reschedule, set]
    rw [eq] at objects
    rcases new with same | fresh
    · simpa [same] using objects
    · have distinct : ∀ other ∈ before ++ after, other.object ≠ route.object := by
        intro other mem
        apply fresh
        rw [eq]
        rcases List.mem_append.mp mem with first | last
        · exact List.mem_append_left _ first
        · exact List.mem_append_right _ (List.mem_cons_of_mem _ last)
      rw [List.map_append, List.map_cons, List.nodup_middle, List.nodup_cons] at objects ⊢
      refine ⟨?_, objects.2⟩
      rw [← List.map_append]
      intro mem
      obtain ⟨other, mem, same⟩ := List.mem_map.mp mem
      exact distinct other mem same
  · intro other mem
    rcases List.mem_or_eq_of_mem_set mem with old | rfl
    · exact consistent.made other old
    · exact made
  · intro other mem event stored
    rcases List.mem_or_eq_of_mem_set mem with old | rfl
    · exact consistent.owned other old event stored
    · cases stored
      rfl
  · exact consistent.alive

theorem learn (consistent : rip.Consistent) {old : RipRoutingTableEntry}
    (here : rip.routes[place]? = some old)
    (new : route.object = old.object ∨ ∀ other ∈ rip.routes, other.object ≠ route.object)
    (made : route.object < rip.simulation.nextObject) :
    (rip.learn config place old.event route).Consistent := by
  unfold Rip.learn
  apply consistent.reschedule here
  · exact new
  · exact made

/-- The routes may be changed in what the events do not depend on. -/
theorem mapRoutes (consistent : rip.Consistent) {change : RipRoutingTableEntry → RipRoutingTableEntry}
    (event : ∀ route, (change route).event = route.event)
    (object : ∀ route, (change route).object = route.object) :
    ({ rip with routes := rip.routes.map change } : Rip).Consistent := by
  constructor
  · simpa [List.filterMap_map, Function.comp_def, event] using consistent.pending
  · exact consistent.uids
  · exact consistent.older
  · simpa [Function.comp_def, object] using consistent.objects
  · intro route mem
    obtain ⟨earlier, old, rfl⟩ := List.mem_map.mp mem
    rw [object]
    exact consistent.made earlier old
  · intro route mem stored isStored
    obtain ⟨earlier, old, rfl⟩ := List.mem_map.mp mem
    rw [event] at isStored
    rw [object]
    exact consistent.owned earlier old stored isStored
  · exact consistent.alive

theorem fresh (consistent : rip.Consistent) :
    ∀ other ∈ rip.routes, other.object ≠ rip.simulation.nextObject :=
  fun other mem => Nat.ne_of_lt (consistent.made other mem)

theorem mem_of_event (consistent : rip.Consistent) (mem : route ∈ rip.routes) {event : EventId}
    (stored : route.event = some event) : event ∈ rip.simulation.pending :=
  consistent.pending.mem_iff.mpr (List.mem_filterMap.mpr ⟨route, mem, stored⟩)

/-- A pending event is stored beside its route. -/
theorem exists_route (consistent : rip.Consistent) {event : EventId}
    (pending : event ∈ rip.simulation.pending) :
    ∃ (place : Nat) (route : RipRoutingTableEntry), rip.routes[place]? = some route ∧
      route.event = some event ∧ event.route = route.object := by
  obtain ⟨route, mem, stored⟩ := List.mem_filterMap.mp (consistent.pending.mem_iff.mp pending)
  obtain ⟨place, here⟩ := List.mem_iff_getElem?.mp mem
  exact ⟨place, route, here, stored, consistent.owned route mem event stored⟩

theorem addNetworkRouteTo (consistent : rip.Consistent) (network networkPrefix nextHop : UInt32)
    (interface : Nat) :
    (rip.addNetworkRouteTo network networkPrefix nextHop interface).Consistent := by
  have event {entry : RipRoutingTableEntry} (none : entry.event = none) :
      [entry].filterMap RipRoutingTableEntry.event = [] := by simp [none]
  constructor
  · simp only [Rip.addNetworkRouteTo, List.filterMap_append]
    rw [event (by simp), List.append_nil]
    exact consistent.pending
  · exact consistent.uids
  · exact consistent.older
  · simp only [Rip.addNetworkRouteTo, List.map_append, List.nodup_append]
    refine ⟨consistent.objects, by simp, ?_⟩
    intro object mem other isNew
    obtain ⟨route, old, rfl⟩ := List.mem_map.mp mem
    simp at isNew
    rw [isNew]
    exact consistent.fresh route old
  · intro route mem
    rcases List.mem_append.mp mem with old | new
    · exact Nat.lt_succ_of_lt (consistent.made route old)
    · rw [List.mem_singleton.mp new]
      simp [Simulation.allocate, Rip.addNetworkRouteTo]
  · intro route mem stored isStored
    rcases List.mem_append.mp mem with old | new
    · exact consistent.owned route old stored isStored
    · rw [List.mem_singleton.mp new] at isStored
      simp at isStored
  · exact consistent.alive

theorem addLearnedRoute (consistent : rip.Consistent) (offer : Offer) :
    (rip.addLearnedRoute config offer).Consistent := by
  constructor
  · simp only [Rip.addLearnedRoute, List.filterMap_cons]
    exact (List.perm_append_singleton _ _).trans (consistent.pending.cons _)
  · change ((rip.simulation.pending ++ _).map _).Nodup
    rw [List.map_append, List.nodup_append]
    refine ⟨consistent.uids, by simp, ?_⟩
    intro uid mem other isNew
    obtain ⟨event, pending, rfl⟩ := List.mem_map.mp mem
    have older := consistent.older event pending
    simp only [List.map_cons, List.map_nil, List.mem_singleton] at isNew
    rw [isNew]
    exact Nat.ne_of_lt older
  · intro event mem
    rcases List.mem_append.mp mem with old | new
    · exact Nat.lt_succ_of_lt (consistent.older event old)
    · rw [List.mem_singleton.mp new]
      exact Nat.lt_succ_self _
  · simp only [Rip.addLearnedRoute, List.map_cons, List.nodup_cons]
    refine ⟨fun mem => ?_, consistent.objects⟩
    obtain ⟨route, old, same⟩ := List.mem_map.mp mem
    exact consistent.fresh route old (by simpa [Offer.newRoute] using same)
  · intro route mem
    rcases List.mem_cons.mp mem with rfl | old
    · simp [Offer.newRoute, Rip.addLearnedRoute, Simulation.allocate, Simulation.schedule]
    · exact Nat.lt_succ_of_lt (consistent.made route old)
  · intro route mem event stored
    rcases List.mem_cons.mp mem with rfl | old
    · cases stored
      simp [Offer.newRoute, Simulation.nextEvent]
    · exact consistent.owned route old event stored
  · exact consistent.alive

theorem invalidateRoute (consistent : rip.Consistent) (here : rip.routes[place]? = some route) :
    (rip.invalidateRoute config route.object).Consistent := by
  rw [invalidateRoute_object consistent.objects here]
  exact consistent.reschedule here (.inl (by simp))
    (by simpa using consistent.made route (List.mem_of_getElem? here)) _ _

/-- An event that takes place finds its route. -/
theorem invoke (consistent : rip.Consistent) {event : EventId}
    (pending : event ∈ rip.simulation.pending) : (rip.invoke config event).Consistent := by
  obtain ⟨place, route, here, stored, target⟩ := consistent.exists_route pending
  unfold Rip.invoke
  cases event.handler with
  | invalidateRoute =>
      dsimp only
      rw [target, ← stored, invalidateRoute_cancel consistent.objects here]
      exact consistent.invalidateRoute here
  | deleteRoute =>
      have found : ({ rip with simulation := rip.simulation.cancel (some event) } : Rip).placeOf
          route.object = some place := placeOf_object consistent.objects here
      dsimp only
      unfold Rip.deleteRoute
      rw [target, found]
      obtain ⟨before, after, eq, rfl⟩ := exists_append_of_getElem? here
      have erased : rip.routes.eraseIdx before.length = before ++ after := by
        rw [eq]
        simp [List.eraseIdx_append_of_length_le]
      have sublist : (before ++ after).Sublist rip.routes := by
        rw [eq]
        simp
      have split : rip.simulation.pending.Perm (before.filterMap RipRoutingTableEntry.event ++
          ((some event).toList ++ after.filterMap RipRoutingTableEntry.event)) := by
        simpa [eq, stored] using consistent.pending
      constructor
      · dsimp only
        rw [erased, List.filterMap_append]
        exact perm_cancel consistent.nodup split
      · exact consistent.uids.sublist (List.filter_sublist.map _)
      · exact fun other mem => consistent.older other (List.mem_of_mem_filter mem)
      · dsimp only
        rw [erased]
        exact consistent.objects.sublist (sublist.map _)
      · dsimp only
        rw [erased]
        exact fun other mem => consistent.made other (sublist.subset mem)
      · dsimp only
        rw [erased]
        exact fun other mem => consistent.owned other (sublist.subset mem)
      · exact consistent.alive

/-- The event beside a route is the only one that is pending for it. -/
theorem filter_pending (consistent : rip.Consistent) (mem : route ∈ rip.routes) {event : EventId}
    (stored : route.event = some event) :
    rip.simulation.pending.filter (fun other => other.route = route.object) = [event] := by
  obtain ⟨place, here⟩ := List.mem_iff_getElem?.mp mem
  obtain ⟨before, after, eq, rfl⟩ := exists_append_of_getElem? here
  have objects := consistent.objects
  rw [eq, List.map_append, List.map_cons, List.nodup_middle, List.nodup_cons,
    ← List.map_append] at objects
  have owned := consistent.owned
  rw [eq] at owned
  have others (list : List RipRoutingTableEntry) (subset : list ⊆ before ++ after) :
      (list.filterMap RipRoutingTableEntry.event).filter
        (fun other => other.route = route.object) = [] := by
    rw [List.filter_eq_nil_iff]
    intro other isStored
    obtain ⟨entry, isMem, beside⟩ := List.mem_filterMap.mp isStored
    have inTable : entry ∈ before ++ route :: after := by
      rcases List.mem_append.mp (subset isMem) with first | last
      · exact List.mem_append_left _ first
      · exact List.mem_append_right _ (List.mem_cons_of_mem _ last)
    simp only [decide_eq_true_eq]
    rw [owned entry inTable other beside]
    intro same
    exact objects.1 (List.mem_map.mpr ⟨entry, subset isMem, same⟩)
  have target := consistent.owned route mem event stored
  have perm := consistent.pending.filter (fun other => other.route = route.object)
  rw [eq, List.filterMap_append, List.filterMap_cons, stored, List.filter_append,
    others before (List.subset_append_left _ _)] at perm
  simp only [List.filter_cons, target, others after (List.subset_append_right _ _)] at perm
  exact List.perm_singleton.mp (by simpa using perm)

/-- The delay of a route is that of the event beside it. -/
theorem getDelayLeft (consistent : rip.Consistent) (mem : route ∈ rip.routes) :
    rip.simulation.getDelayLeft route.event =
      (route.event.elim 0 fun event => event.time - rip.simulation.now) := by
  unfold Simulation.getDelayLeft
  cases stored : route.event with
  | none => rfl
  | some event =>
      have running : rip.simulation.isRunning (some event) = true := by
        simpa [Simulation.isRunning] using consistent.mem_of_event mem stored
      simp [running]

end Consistent

/-- What the comparison of a route with an offer may do to the table. -/
inductive Handled (config : Config) (offer : Offer) (rip : Rip) (place : Nat) : Rip → Prop
  | same : Handled config offer rip place rip
  | renewed (route : RipRoutingTableEntry) (here : rip.routes[place]? = some route)
      (isFor : offer.isFor route = true) (equal : offer.rteMetric = route.metric)
      (gateway : offer.senderAddress = route.gateway) :
      Handled config offer rip place (rip.learn config place route.event route)
  | accepted (route : RipRoutingTableEntry) (here : rip.routes[place]? = some route)
      (better : offer.rteMetric < route.metric ∨ offer.rteMetric < linkDown) :
      Handled config offer rip place (rip.learn config place route.event (offer.accept route))
  | replaced (route : RipRoutingTableEntry) (here : rip.routes[place]? = some route)
      (isFor : offer.isFor route = true)
      (better : offer.rteMetric < route.metric ∨ offer.rteMetric = route.metric ∧
        rip.simulation.getDelayLeft route.event < config.timeoutDelay / 2) :
      Handled config offer rip place
        (({ rip with simulation := rip.simulation.allocate } : Rip).learn config place route.event
          (offer.accept (offer.newRoute rip.simulation.nextObject)))
  | invalidated (route : RipRoutingTableEntry) (here : rip.routes[place]? = some route) :
      Handled config offer rip place (rip.invalidateRoute config route.object)

theorem handled_handleRoute (objects : (rip.routes.map RipRoutingTableEntry.object).Nodup)
    (offer : Offer) (found changed : Bool) :
    Handled config offer rip place
      (handleRoute config offer ⟨rip, found, changed⟩ place).rip := by
  unfold handleRoute
  dsimp only
  split
  · exact .same
  · next route here =>
      split
      · exact .same
      · next other =>
          have isFor : offer.isFor route = true := by simpa using other
          split
          · next better =>
              split
              · exact .replaced route here isFor (.inl better)
              · exact .accepted route here (.inl better)
          · split
            · next equal =>
                split
                · next gateway => exact .renewed route here isFor equal gateway
                · split
                  · next late => exact .replaced route here isFor (.inr ⟨equal, late⟩)
                  · exact .same
            · split
              · split
                · next better =>
                    have learned : Handled config offer rip place _ :=
                      .accepted route here (.inr better)
                    unfold learn at learned ⊢
                    rw [reschedule_cancel]
                    exact learned
                · rw [invalidateRoute_cancel objects here]
                  exact .invalidated route here
              · exact .same

end Rip

end Ns3.Internet.RipRouting
