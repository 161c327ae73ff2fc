import Ns3.Core.Calendar.Search

/-!
What each internal step of the calendar does to the stored events.

Sampling takes events out and puts them back behind the day pointer, so while
it runs only `Stored` holds; the pointer is restored afterwards. Resizing
inserts everything again under a new width.
-/

namespace Ns3.Core

open Library

namespace CalendarScheduler

variable {self : CalendarScheduler} {events : Multiset Event}

theorem bucket_modify (self : CalendarScheduler) {i : Nat} (bounded : i < self.buckets.length)
    (f : List Event → List Event) (j : Nat) :
    (self.buckets.modify i f).getD j [] = if j = i then f (self.bucket i) else self.bucket j := by
  rw [bucket, bucket, List.getD_eq_getElem?_getD, List.getElem?_modify]
  by_cases same : i = j
  · subst j
    simp [bounded]
  · simp [same, Ne.symm same, List.getD_eq_getElem?_getD]

theorem coe_flatten_modify (buckets : List (List Event)) {i : Nat} (bounded : i < buckets.length)
    (f : List Event → List Event) :
    ((buckets.modify i f).flatten : Multiset Event) + (buckets.getD i [] : List Event) =
      (buckets.flatten : Multiset Event) + (f (buckets.getD i []) : List Event) := by
  induction buckets generalizing i with
  | nil => exact absurd bounded (Nat.not_lt_zero i)
  | cons first rest inductionHypothesis =>
      cases i with
      | zero =>
          simp only [List.modify_zero_cons, List.flatten_cons, List.getD_cons_zero,
            ← Multiset.coe_add]
          rw [Multiset.add_comm (f first : Multiset Event), Multiset.add_assoc,
            Multiset.add_comm (f first : Multiset Event), ← Multiset.add_assoc,
            Multiset.add_comm (rest.flatten : Multiset Event)]
      | succ i =>
          have step := inductionHypothesis (Nat.lt_of_succ_lt_succ bounded)
          simp only [List.modify_succ_cons, List.flatten_cons, List.getD_cons_succ,
            ← Multiset.coe_add, Multiset.add_assoc] at step ⊢
          rw [step]

/-- Only the buckets and their geometry matter for `Stored`. -/
theorem Stored.of_buckets {other : CalendarScheduler} (stored : self.Stored events)
    (buckets : other.buckets = self.buckets) (nBuckets : other.nBuckets = self.nBuckets)
    (width : other.width = self.width) (reverse : other.reverse = self.reverse) :
    other.Stored events := by
  obtain ⟨otherBuckets, otherN, otherWidth, _, _, _, _, otherReverse⟩ := other
  simp only at buckets nBuckets width reverse
  subst buckets nBuckets width reverse
  exact ⟨stored.length, stored.bucketsPositive, stored.widthPositive, stored.widthFits,
    stored.contents, stored.sorted, stored.placed⟩

theorem Stored.setQSize (stored : self.Stored events) (size : Nat) :
    (self.setQSize size).Stored events :=
  stored.of_buckets rfl rfl rfl rfl

theorem Pointed.setQSize (pointed : self.Pointed events) (size : Nat) :
    (self.setQSize size).Pointed events :=
  ⟨pointed.lower, pointed.upper, pointed.prioFits, pointed.bucketEq, pointed.topEq⟩

/-- Changing one bucket changes the stored events by as much. -/
theorem Stored.modify (stored : self.Stored events) {i : Nat} (bounded : i < self.nBuckets)
    {f : List Event → List Event} {after : Multiset Event}
    (contents : (f (self.bucket i) : Multiset Event) + events = self.bucket i + after)
    (sorted : (f (self.bucket i)).Pairwise (Precedes self.reverse))
    (placed : ∀ ev ∈ f (self.bucket i), self.hash ev.key.ts = i) :
    Stored { self with buckets := self.buckets.modify i f } after := by
  have inside : i < self.buckets.length := stored.length ▸ bounded
  have bucketEq := self.bucket_modify inside f
  refine ⟨?_, stored.bucketsPositive, stored.widthPositive, stored.widthFits, ?_, ?_, ?_⟩
  · simpa using stored.length
  · have flattened := coe_flatten_modify self.buckets inside f
    rw [stored.contents] at flattened
    have both : ((self.buckets.modify i f).flatten : Multiset Event) + self.bucket i =
        after + self.bucket i := by
      rw [Multiset.add_comm after, ← contents, Multiset.add_comm _ events]
      exact flattened
    exact Multiset.add_left_inj.mp both
  · intro j
    change ((self.buckets.modify i f).getD j []).Pairwise (Precedes self.reverse)
    rw [bucketEq]
    split
    · exact sorted
    · exact stored.sorted j
  · intro j ev membership
    change ev ∈ (self.buckets.modify i f).getD j [] at membership
    rw [bucketEq] at membership
    split at membership
    next same =>
      rw [same]
      exact placed ev membership
    next => exact stored.placed j ev membership

theorem Stored.doInsert (stored : self.Stored events) (ev : Event) :
    (self.doInsert ev).Stored (ev ::ₘ events) := by
  have perm := insertInOrder_perm (order self.reverse) ev (self.bucket (self.hash ev.key.ts))
  apply stored.modify (stored.hash_lt ev.key.ts)
  · rw [Multiset.coe_eq_coe.mpr perm, ← Multiset.cons_coe, Multiset.cons_add, Multiset.add_cons]
  · exact pairwise_insert ev (stored.sorted _)
  · intro other membership
    rcases List.mem_cons.mp (perm.mem_iff.mp membership) with rfl | inBucket
    · rfl
    · exact stored.placed _ other inBucket

/-- The fields that insertion and removal leave alone. -/
structure SameGeometry (old new : CalendarScheduler) : Prop where
  nBuckets : new.nBuckets = old.nBuckets
  width : new.width = old.width
  qSize : new.qSize = old.qSize
  reverse : new.reverse = old.reverse

theorem SameGeometry.refl (self : CalendarScheduler) : SameGeometry self self :=
  ⟨rfl, rfl, rfl, rfl⟩

theorem SameGeometry.trans {old middle new : CalendarScheduler}
    (first : SameGeometry old middle) (second : SameGeometry middle new) :
    SameGeometry old new :=
  ⟨second.nBuckets.trans first.nBuckets, second.width.trans first.width,
    second.qSize.trans first.qSize, second.reverse.trans first.reverse⟩

theorem Stored.foldl_doInsert (stored : self.Stored events) (inserted : List Event) :
    (inserted.foldl CalendarScheduler.doInsert self).Stored (inserted + events) ∧
      SameGeometry self (inserted.foldl CalendarScheduler.doInsert self) ∧
      (inserted.foldl CalendarScheduler.doInsert self).lastPrio = self.lastPrio ∧
      (inserted.foldl CalendarScheduler.doInsert self).lastBucket = self.lastBucket ∧
      (inserted.foldl CalendarScheduler.doInsert self).bucketTop = self.bucketTop := by
  induction inserted generalizing self events with
  | nil => exact ⟨by simpa using stored, .refl self, rfl, rfl, rfl⟩
  | cons ev rest inductionHypothesis =>
      obtain ⟨restStored, geometry, prio, bucket, top⟩ := inductionHypothesis (stored.doInsert ev)
      have first : SameGeometry self (self.doInsert ev) := ⟨rfl, rfl, rfl, rfl⟩
      refine ⟨?_, first.trans geometry, prio, bucket, top⟩
      rw [Multiset.add_cons, ← Multiset.cons_add] at restStored
      exact restStored

/-- The result of taking the next event out of the calendar. -/
structure Takes (queue : CalendarScheduler) (events : Multiset Event)
    (taken : Event × CalendarScheduler) : Prop where
  isNext : IsNext events taken.1
  stored : taken.2.Stored (events.erase taken.1)
  pointed : taken.2.Pointed (events.erase taken.1)
  geometry : SameGeometry queue taken.2
  prio : taken.2.lastPrio = taken.1.key.ts

/-- Popping a bucket whose next event is the least one, and moving the day
pointer to the day of that event. -/
theorem Pointed.takes (pointed : self.Pointed events) (stored : self.Stored events) {i : Nat}
    (nonempty : self.bucket i ≠ [])
    (isNext : IsNext events (nextEvent self.reverse (self.bucket i))) :
    Takes self events (nextEvent self.reverse (self.bucket i), { self with
      lastPrio := (nextEvent self.reverse (self.bucket i)).key.ts
      lastBucket := self.hash (nextEvent self.reverse (self.bucket i)).key.ts
      bucketTop := ((nextEvent self.reverse (self.bucket i)).key.ts / self.width + 1) * self.width
      buckets := self.buckets.modify i (pop self.reverse) }) := by
  have inBucket := nextEvent_mem self.reverse nonempty
  have bounded : i < self.nBuckets := by
    rw [← stored.placed i _ inBucket]
    exact stored.hash_lt _
  have popped := nextEvent_cons_pop self.reverse nonempty
  have remaining : Stored { self with buckets := self.buckets.modify i (pop self.reverse) }
      (events.erase (nextEvent self.reverse (self.bucket i))) := by
    apply stored.modify bounded
    · rw [← popped, Multiset.cons_add, ← Multiset.add_cons, Multiset.cons_erase isNext.1]
    · exact (stored.sorted i).sublist (pop_sublist _ _)
    · exact fun ev membership =>
        stored.placed i ev ((pop_sublist _ _).subset membership)
  refine ⟨isNext, remaining.of_buckets rfl rfl rfl rfl, ?_, ⟨rfl, rfl, rfl, rfl⟩, rfl⟩
  refine ⟨fun ev present => ?_, fun ev present => ?_, ?_, rfl, rfl⟩
  · have later := EventKey.rank_le_rank.mp (isNext.2 ev (Multiset.mem_of_mem_erase present))
    change (nextEvent self.reverse (self.bucket i)).key.ts ≤ ev.key.ts
    omega
  · exact pointed.upper ev (Multiset.mem_of_mem_erase present)
  · exact pointed.upper _ isNext.1

theorem Pointed.keepBucket_keeps (pointed : self.Pointed events) (stored : self.Stored events) :
    self.Keeps keepBucket (fun
      | none => removeLimit
      | some i => ((nextEvent self.reverse (self.bucket i)).key, some i)) where
  first i nonempty := by
    have small := pointed.upper _ (stored.mem_of_mem_bucket (nextEvent_mem self.reverse nonempty))
    rw [keepBucket, if_pos]
    apply (EventKey.lt_iff_rank _ _).mpr
    apply EventKey.rank_lt_rank.mpr
    left
    simp only [removeLimit]
    omega
  later i j _ := by
    simp only [keepBucket, EventKey.lt_iff_rank]
    rfl

theorem Pointed.doRemoveNext (pointed : self.Pointed events) (stored : self.Stored events)
    (nonempty : events ≠ 0) : Takes self events self.doRemoveNext := by
  have outcome := pointed.outcome stored (pointed.keepBucket_keeps stored)
  simp only at outcome
  unfold CalendarScheduler.doRemoveNext
  generalize self.search keepBucket self.nBuckets self.lastBucket self.bucketTop removeLimit =
    searched at outcome
  cases outcome with
  | stop next isNext bucketNonempty nextEq =>
      have takes := pointed.takes stored bucketNonempty (nextEq ▸ isNext)
      rw [← nextEq] at takes
      exact takes
  | year leader leads =>
      obtain ⟨i, rfl, bucketNonempty, isNext⟩ := stored.isNext_of_leads nonempty leads
      have takes := pointed.takes stored bucketNonempty isNext
      have topFits := dayTop_fits (pointed.upper _ isNext.1) stored.widthFits
      simp only [Option.getD_some]
      rw [wrap_of_lt topFits]
      exact takes

theorem Pointed.keepEvent_keeps (pointed : self.Pointed events) (stored : self.Stored events) :
    self.Keeps keepEvent (fun
      | none => peekLimit
      | some i => nextEvent self.reverse (self.bucket i)) where
  first i nonempty := by
    have small := pointed.upper _ (stored.mem_of_mem_bucket (nextEvent_mem self.reverse nonempty))
    rw [keepEvent, if_pos]
    apply (EventKey.lt_iff_rank _ _).mpr
    apply EventKey.rank_lt_rank.mpr
    left
    simp only [peekLimit]
    omega
  later i j _ := by
    simp only [keepEvent, EventKey.lt_iff_rank]
    rfl

theorem Pointed.peekNext (pointed : self.Pointed events) (stored : self.Stored events)
    (nonempty : events ≠ 0) : IsNext events self.peekNext := by
  have outcome := pointed.outcome stored (pointed.keepEvent_keeps stored)
  simp only at outcome
  unfold CalendarScheduler.peekNext
  generalize self.search keepEvent self.nBuckets self.lastBucket self.bucketTop peekLimit =
    searched at outcome
  cases outcome with
  | stop next isNext _ _ => exact isNext
  | year leader leads =>
      obtain ⟨i, rfl, _, isNext⟩ := stored.isNext_of_leads nonempty leads
      exact isNext

/-- Gathering takes the samples out and leaves the rest. -/
theorem Pointed.gather (pointed : self.Pointed events) (stored : self.Stored events)
    {count : Nat} (enough : count ≤ events.card) :
    ∃ rest : Multiset Event, (self.gather count).1 + rest = events ∧
      (self.gather count).2.Stored rest ∧ SameGeometry self (self.gather count).2 := by
  induction count generalizing self events with
  | zero => exact ⟨events, Multiset.zero_add events, stored, .refl self⟩
  | succ count inductionHypothesis =>
      have nonempty : events ≠ 0 := by
        rintro rfl
        simp at enough
      have takes := pointed.doRemoveNext stored nonempty
      have fewer : count ≤ (events.erase self.doRemoveNext.1).card := by
        rw [Multiset.card_erase_of_mem takes.isNext.1, Nat.pred_eq_sub_one]
        omega
      obtain ⟨rest, split, restStored, geometry⟩ :=
        inductionHypothesis takes.pointed takes.stored fewer
      refine ⟨rest, ?_, restStored, takes.geometry.trans geometry⟩
      simp only [CalendarScheduler.gather, ← Multiset.cons_coe, Multiset.cons_add]
      rw [split, Multiset.cons_erase takes.isNext.1]

theorem averageWidth_pos (samples : List Event) : 1 ≤ averageWidth samples :=
  Nat.le_max_right _ _

theorem averageWidth_lt (samples : List Event) : averageWidth samples < 2 ^ 64 :=
  max_lt (wrap_lt 64 _) (by decide)

theorem nSamples_le (self : CalendarScheduler) : self.nSamples ≤ self.qSize := by
  unfold nSamples
  split <;> omega

/-- What a step keeps that only rearranges the stored events. -/
structure Rearranges (old new : CalendarScheduler) (events : Multiset Event) : Prop where
  stored : new.Stored events
  pointed : new.Pointed events
  qSize : new.qSize = old.qSize
  reverse : new.reverse = old.reverse
  prio : new.lastPrio = old.lastPrio

theorem Pointed.calculateNewWidth (pointed : self.Pointed events) (stored : self.Stored events)
    (sized : self.qSize = events.card) :
    Rearranges self self.calculateNewWidth.2 events ∧
      1 ≤ self.calculateNewWidth.1 ∧ self.calculateNewWidth.1 < 2 ^ 64 := by
  unfold CalendarScheduler.calculateNewWidth
  split
  · exact ⟨⟨stored, pointed, rfl, rfl, rfl⟩, le_rfl, Nat.one_lt_two_pow (by decide)⟩
  · obtain ⟨rest, split, restStored, geometry⟩ :=
      pointed.gather stored (sized ▸ self.nSamples_le)
    obtain ⟨refilled, refilledGeometry, -⟩ := restStored.foldl_doInsert (self.gather self.nSamples).1
    have same := geometry.trans refilledGeometry
    rw [split] at refilled
    refine ⟨⟨refilled.of_buckets rfl rfl rfl rfl, ?_, same.qSize, same.reverse, rfl⟩,
      averageWidth_pos _, averageWidth_lt _⟩
    refine ⟨pointed.lower, pointed.upper, pointed.prioFits, ?_, ?_⟩
    · simp only [hash, same.width, same.nBuckets]
      exact pointed.bucketEq
    · simp only [same.width]
      exact pointed.topEq

theorem init_stored (self : CalendarScheduler) {nBuckets width : Nat} (startPrio : Nat)
    (bucketsPositive : 1 ≤ nBuckets) (widthPositive : 1 ≤ width) (widthFits : width < 2 ^ 64) :
    (self.init nBuckets width startPrio).Stored 0 := by
  have bucketEq : ∀ i, (self.init nBuckets width startPrio).bucket i = [] := by
    intro i
    rw [bucket, init, List.getD_eq_getElem?_getD, List.getElem?_replicate]
    split <;> rfl
  refine ⟨List.length_replicate, bucketsPositive, widthPositive, widthFits, ?_, ?_, ?_⟩
  · simp [init]
  · intro i
    rw [bucketEq]
    exact List.Pairwise.nil
  · intro i ev membership
    rw [bucketEq] at membership
    exact absurd membership List.not_mem_nil

theorem Pointed.doResize (pointed : self.Pointed events) (stored : self.Stored events)
    {newSize newWidth : Nat} (sizePositive : 1 ≤ newSize) (widthPositive : 1 ≤ newWidth)
    (widthFits : newWidth < 2 ^ 64) :
    Rearranges self (self.doResize newSize newWidth) events := by
  have start := self.init_stored self.lastPrio sizePositive widthPositive widthFits
  obtain ⟨refilled, geometry, prio, bucket, top⟩ := start.foldl_doInsert self.buckets.flatten
  rw [Multiset.add_zero, stored.contents] at refilled
  have topFits := dayTop_fits pointed.prioFits widthFits
  refine ⟨refilled, ⟨?_, pointed.upper, ?_, ?_, ?_⟩, geometry.qSize, geometry.reverse, prio⟩
  · intro ev present
    rw [CalendarScheduler.doResize, prio]
    exact pointed.lower ev present
  · rw [CalendarScheduler.doResize, prio]
    exact pointed.prioFits
  · rw [CalendarScheduler.doResize, bucket, hash, prio, geometry.width, geometry.nBuckets]
    rfl
  · rw [CalendarScheduler.doResize, top, prio, geometry.width]
    exact wrap_of_lt topFits

theorem Pointed.resize (pointed : self.Pointed events) (stored : self.Stored events)
    (sized : self.qSize = events.card) {newSize : Nat} (sizePositive : 1 ≤ newSize) :
    Rearranges self (self.resize newSize) events := by
  obtain ⟨sampled, widthPositive, widthFits⟩ := pointed.calculateNewWidth stored sized
  have resized := sampled.pointed.doResize sampled.stored sizePositive widthPositive widthFits
  exact ⟨resized.stored, resized.pointed, resized.qSize.trans sampled.qSize,
    resized.reverse.trans sampled.reverse, resized.prio.trans sampled.prio⟩

/-- `ResizeUp` neither loses nor duplicates an event. -/
theorem Pointed.resizeUp (pointed : self.Pointed events) (stored : self.Stored events)
    (sized : self.qSize = events.card) : Rearranges self self.resizeUp events := by
  unfold CalendarScheduler.resizeUp
  split
  next grows =>
    have fits : self.nBuckets * 2 < 2 ^ 32 := by omega
    have positive := stored.bucketsPositive
    apply pointed.resize stored sized
    rw [wrap_of_lt fits]
    omega
  next => exact ⟨stored, pointed, rfl, rfl, rfl⟩

/-- `ResizeDown` neither loses nor duplicates an event. -/
theorem Pointed.resizeDown (pointed : self.Pointed events) (stored : self.Stored events)
    (sized : self.qSize = events.card) : Rearranges self self.resizeDown events := by
  unfold CalendarScheduler.resizeDown
  split
  next shrinks => exact pointed.resize stored sized (by omega)
  next => exact ⟨stored, pointed, rfl, rfl, rfl⟩

end CalendarScheduler

end Ns3.Core
