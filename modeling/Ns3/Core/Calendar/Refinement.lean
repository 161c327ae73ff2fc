import Ns3.Core.Calendar.Resize
import Mathlib.Order.Interval.Finset.Nat

/-!
`CalendarScheduler` is a priority queue for callers that keep to the discipline
of the simulator: time moves forward, time stamps stay below `2 ^ 63`, and the
unique ids are 32-bit words other than 0, which marks an invalid event.
-/

namespace Ns3.Core

open Library

namespace CalendarScheduler

/-- What the simulator promises about an event it inserts. -/
def Admits (ledger : Ledger) (ev : Event) : Prop :=
  ev.key.ts < 2 ^ 63 ∧ ledger.lastTs ≤ ev.key.ts ∧ 0 < ev.key.uid ∧ ev.key.uid < 2 ^ 32

instance (ledger : Ledger) (ev : Event) : Decidable (Admits ledger ev) :=
  inferInstanceAs (Decidable (_ ∧ _ ∧ _ ∧ _))

/-- The invariant of a calendar between two calls. -/
structure Represents (reverse : Bool) (queue : CalendarScheduler) (ledger : Ledger) : Prop where
  stored : queue.Stored ledger.events
  pointed : queue.Pointed ledger.events
  sized : queue.qSize = ledger.events.card
  prio : queue.lastPrio = ledger.lastTs
  order : queue.reverse = reverse
  fresh : ledger.Fresh
  uids : ∀ ev ∈ ledger.events, 0 < ev.key.uid ∧ ev.key.uid < 2 ^ 32

variable {reverse : Bool} {self : CalendarScheduler} {ledger : Ledger}

theorem Represents.create (reverse : Bool) :
    Represents reverse (CalendarScheduler.create reverse) Ledger.empty where
  stored := init_stored _ 0 (by decide) (by decide) (by decide)
  pointed := by
    refine ⟨?_, ?_, Nat.two_pow_pos 63, rfl, wrap_of_lt (by decide)⟩
    · simp [Ledger.empty]
    · simp [Ledger.empty]
  sized := rfl
  prio := rfl
  order := rfl
  fresh := Ledger.empty_fresh
  uids := by simp [Ledger.empty]

/-- Distinct 32-bit ids other than 0 leave room for one word of events. -/
theorem card_lt_of_uids {events : Multiset Event} (distinct : UidsDistinct events)
    (uids : ∀ ev ∈ events, 0 < ev.key.uid ∧ ev.key.uid < 2 ^ 32) : events.card < 2 ^ 32 := by
  have inside : (events.map fun ev => ev.key.uid).toFinset ⊆ Finset.Ico 1 (2 ^ 32) := by
    intro uid membership
    obtain ⟨ev, present, rfl⟩ := Multiset.mem_map.mp (Multiset.mem_toFinset.mp membership)
    exact Finset.mem_Ico.mpr (uids ev present)
  have bounded := Finset.card_le_card inside
  rw [Multiset.toFinset_card_of_nodup distinct, Multiset.card_map, Nat.card_Ico] at bounded
  omega

theorem Represents.of_resized {new : CalendarScheduler} {size : Nat}
    (rearranges : Rearranges (self.setQSize size) new ledger.events)
    (sized : size = ledger.events.card) (prio : self.lastPrio = ledger.lastTs)
    (order : self.reverse = reverse) (fresh : ledger.Fresh)
    (uids : ∀ ev ∈ ledger.events, 0 < ev.key.uid ∧ ev.key.uid < 2 ^ 32) :
    Represents reverse new ledger :=
  ⟨rearranges.stored, rearranges.pointed, rearranges.qSize.trans sized,
    rearranges.prio.trans prio, rearranges.reverse.trans order, fresh, uids⟩

theorem Represents.insert (represents : Represents reverse self ledger) {ev : Event}
    (new : ev.key.uid ∉ ledger.uids) (admitted : Admits ledger ev) :
    Represents reverse (self.insert ev) (ledger.insert ev) := by
  obtain ⟨small, later, uidPositive, uidFits⟩ := admitted
  have fresh := represents.fresh.insert new
  have uids : ∀ other ∈ (ledger.insert ev).events,
      0 < other.key.uid ∧ other.key.uid < 2 ^ 32 := by
    intro other present
    rcases Multiset.mem_cons.mp present with rfl | before
    · exact ⟨uidPositive, uidFits⟩
    · exact represents.uids other before
  have room := card_lt_of_uids fresh.distinct uids
  have pointed : (self.doInsert ev).Pointed (ledger.insert ev).events := by
    refine ⟨?_, ?_, represents.pointed.prioFits, represents.pointed.bucketEq,
      represents.pointed.topEq⟩
    · intro other present
      rcases Multiset.mem_cons.mp present with rfl | before
      · exact represents.prio ▸ later
      · exact represents.pointed.lower other before
    · intro other present
      rcases Multiset.mem_cons.mp present with rfl | before
      · exact small
      · exact represents.pointed.upper other before
  have sized : wrap 32 (self.qSize + 1) = (ledger.insert ev).events.card := by
    rw [represents.sized, ← Multiset.card_cons ev]
    exact wrap_of_lt room
  have stored := represents.stored.doInsert ev
  exact .of_resized ((pointed.setQSize _).resizeUp (stored.setQSize _) sized)
    sized represents.prio represents.order fresh uids

/-- Taking one event off the 32-bit size of a nonempty queue. -/
theorem Represents.sized_erase (represents : Represents reverse self ledger) {ev : Event}
    (present : ev ∈ ledger.events) :
    wrapSub 32 self.qSize 1 = (ledger.events.erase ev).card := by
  have room := card_lt_of_uids represents.fresh.distinct represents.uids
  have positive : 0 < ledger.events.card := Multiset.card_pos_iff_exists_mem.mpr ⟨ev, present⟩
  rw [represents.sized, wrapSub_of_le positive room, Multiset.card_erase_of_mem present,
    Nat.pred_eq_sub_one]

theorem Represents.removeNext (represents : Represents reverse self ledger)
    (nonempty : ledger.events ≠ 0) :
    Represents reverse self.removeNext.2 (ledger.removeNext self.removeNext.1) := by
  have takes := represents.pointed.doRemoveNext represents.stored nonempty
  have sized := represents.sized_erase takes.isNext.1
  rw [← takes.geometry.qSize] at sized
  have resized := (takes.pointed.setQSize
    (wrapSub 32 self.doRemoveNext.2.qSize 1)).resizeDown (takes.stored.setQSize _) sized
  rw [CalendarScheduler.removeNext]
  exact .of_resized resized sized takes.prio
    (takes.geometry.reverse.trans represents.order) (represents.fresh.removeNext _)
    (fun ev present => represents.uids ev (Multiset.mem_of_mem_erase present))

theorem Represents.remove (represents : Represents reverse self ledger) {ev : Event}
    (present : ev ∈ ledger.events) :
    Represents reverse (self.remove ev) (ledger.remove ev) := by
  have inBucket := (represents.stored.mem_iff ev).mp present
  have found : (self.bucket (self.hash ev.key.ts)).any
      (fun stored => decide (stored.key.uid = ev.key.uid)) = true :=
    List.any_eq_true.mpr ⟨ev, inBucket, decide_eq_true rfl⟩
  have bucketLe : (self.bucket (self.hash ev.key.ts) : Multiset Event) ≤ ledger.events := by
    rw [← represents.stored.contents]
    have bounded := represents.stored.hash_lt ev.key.ts
    rw [← represents.stored.length] at bounded
    rw [bucket, List.getD_eq_getElem?_getD, List.getElem?_eq_getElem bounded, Option.getD_some]
    exact (List.sublist_flatten_of_mem (List.getElem_mem bounded)).subperm
  have distinct : UidsDistinct (self.bucket (self.hash ev.key.ts) : Multiset Event) :=
    Multiset.nodup_of_le (Multiset.map_le_map bucketLe) represents.fresh.distinct
  have erased := eraseUid_eq_erase distinct inBucket
  have sized := represents.sized_erase present
  have stored : Stored { self with
      buckets := self.buckets.modify (self.hash ev.key.ts) (eraseUid ev.key.uid) }
      (ledger.events.erase ev) := by
    apply represents.stored.modify (represents.stored.hash_lt ev.key.ts)
    · rw [erased, ← Multiset.coe_erase, ← Multiset.cons_erase present, Multiset.add_cons,
        ← Multiset.cons_add, Multiset.cons_erase inBucket, Multiset.erase_cons_head]
    · rw [erased]
      exact (represents.stored.sorted _).sublist List.erase_sublist
    · intro other membership
      rw [erased] at membership
      exact represents.stored.placed _ other (List.mem_of_mem_erase membership)
  have pointed : Pointed { self with
      buckets := self.buckets.modify (self.hash ev.key.ts) (eraseUid ev.key.uid) }
      (ledger.events.erase ev) :=
    ⟨fun other otherPresent =>
        represents.pointed.lower other (Multiset.mem_of_mem_erase otherPresent),
      fun other otherPresent =>
        represents.pointed.upper other (Multiset.mem_of_mem_erase otherPresent),
      represents.pointed.prioFits, represents.pointed.bucketEq, represents.pointed.topEq⟩
  rw [CalendarScheduler.remove, if_pos found]
  exact .of_resized ((pointed.setQSize _).resizeDown (stored.setQSize _) sized)
    sized represents.prio represents.order (represents.fresh.remove ev)
    (fun other otherPresent => represents.uids other (Multiset.mem_of_mem_erase otherPresent))

theorem Represents.isNext (represents : Represents reverse self ledger)
    (nonempty : ledger.events ≠ 0) : IsNext ledger.events self.removeNext.1 := by
  rw [CalendarScheduler.removeNext]
  exact (represents.pointed.doRemoveNext represents.stored nonempty).isNext

/-- `CalendarScheduler` is a priority queue under the simulator's discipline. -/
theorem isPriorityQueue (reverse : Bool) :
    calendarScheduler.IsPriorityQueue Admits (Represents reverse) where
  isEmpty {queue ledger} represents := by
    change decide (queue.qSize = 0) = true ↔ ledger.events = 0
    rw [decide_eq_true_iff, represents.sized, Multiset.card_eq_zero]
  peekNext represents nonempty := represents.pointed.peekNext represents.stored nonempty
  removeNext represents nonempty := represents.isNext nonempty
  afterInsert represents new admitted := represents.insert new admitted
  afterRemove represents present := represents.remove present
  afterRemoveNext represents nonempty := represents.removeNext nonempty

/-- What a caller can rely on in every state of a calendar. -/
structure Sound (reverse : Bool) (queue : CalendarScheduler) (ledger : Ledger) : Prop where
  peekNext : ledger.events ≠ 0 → IsNext ledger.events queue.peekNext
  removeNext : ledger.events ≠ 0 → IsNext ledger.events queue.removeNext.1
  contents : (queue.buckets.flatten : Multiset Event) = ledger.events
  resizeUp : (queue.resizeUp.buckets.flatten : Multiset Event) = ledger.events
  resizeDown : (queue.resizeDown.buckets.flatten : Multiset Event) = ledger.events
  qSize : queue.qSize = (queue.buckets.map List.length).sum
  sorted : ∀ bucket ∈ queue.buckets, bucket.Pairwise (Precedes reverse)
  placed : ∀ i, ∀ ev ∈ queue.bucket i, queue.hash ev.key.ts = i
  length : queue.buckets.length = queue.nBuckets
  bucketsPositive : 1 ≤ queue.nBuckets
  widthPositive : 1 ≤ queue.width

theorem Represents.sound (represents : Represents reverse self ledger) :
    Sound reverse self ledger where
  peekNext := represents.pointed.peekNext represents.stored
  removeNext := represents.isNext
  contents := represents.stored.contents
  resizeUp := (represents.pointed.resizeUp represents.stored represents.sized).stored.contents
  resizeDown := (represents.pointed.resizeDown represents.stored represents.sized).stored.contents
  qSize := by
    rw [represents.sized, ← represents.stored.contents, Multiset.coe_card, List.length_flatten]
  sorted bucket membership := by
    obtain ⟨i, bounded, rfl⟩ := List.mem_iff_getElem.mp membership
    have sorted := represents.stored.sorted i
    rw [CalendarScheduler.bucket, List.getD_eq_getElem?_getD, List.getElem?_eq_getElem bounded,
      represents.order] at sorted
    exact sorted
  placed := represents.stored.placed
  length := represents.stored.length
  bucketsPositive := represents.stored.bucketsPositive
  widthPositive := represents.stored.widthPositive

/-- Every state of every run under the simulator's discipline is sound, for both
orders of the buckets. -/
theorem calendarScheduler_refines_priorityQueue (reverse : Bool) (calls : List SchedulerCall)
    (legal : (calendarScheduler.machine Admits).Legal
      (CalendarScheduler.create reverse, Ledger.empty) calls) :
    (calendarScheduler.machine Admits).Always (fun state => Sound reverse state.1 state.2)
      (CalendarScheduler.create reverse, Ledger.empty) calls :=
  ((isPriorityQueue reverse).always calendarScheduler (.create reverse) legal).mono
    fun _ represents => represents.sound

/-- Two events scheduled, the later one removed, the other one run. -/
theorem calendarScheduler_refines_short_run :
    (calendarScheduler.machine Admits).Always (fun state => Sound true state.1 state.2)
      (CalendarScheduler.create true, Ledger.empty)
      [.insert ⟨1, 2 ^ 62, 4, 0⟩, .insert ⟨2, 2 ^ 63 - 1, 5, 0⟩, .remove ⟨2, 2 ^ 63 - 1, 5, 0⟩,
        .removeNext] :=
  calendarScheduler_refines_priorityQueue true _ (by decide)

end CalendarScheduler

end Ns3.Core
