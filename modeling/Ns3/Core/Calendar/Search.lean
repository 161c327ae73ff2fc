import Ns3.Core.Calendar.Kernel

/-!
The search for the next event.

`Stored` says where the events are and `Pointed` how the day pointer stands to
them. Under both, a bucket on which the search does not stop holds no event of
the day it is visited for, also where the bucket top has wrapped, so the first
stop is at the least event of all; a year without a stop leaves the least of the
buckets' next events.
-/

namespace Ns3.Core

open Library

namespace CalendarScheduler

/-- The order in which a bucket keeps its events. -/
def Precedes (reverse : Bool) (a b : Event) : Prop :=
  if reverse then b.rank ≤ a.rank else a.rank ≤ b.rank

theorem nextEvent_mem (reverse : Bool) {bucket : List Event} (nonempty : bucket ≠ []) :
    nextEvent reverse bucket ∈ bucket := by
  cases reverse with
  | false =>
      cases bucket with
      | nil => exact absurd rfl nonempty
      | cons head tail => exact List.mem_cons_self
  | true =>
      rw [nextEvent, if_pos rfl, List.getLastD_eq_getLast?, List.getLast?_eq_some_getLast nonempty]
      exact List.getLast_mem nonempty

theorem nextEvent_cons_pop (reverse : Bool) {bucket : List Event} (nonempty : bucket ≠ []) :
    (nextEvent reverse bucket ::ₘ (pop reverse bucket : Multiset Event)) = bucket := by
  cases reverse with
  | false =>
      cases bucket with
      | nil => exact absurd rfl nonempty
      | cons head tail => rfl
  | true =>
      simp only [nextEvent, pop, if_true, List.getLastD_eq_getLast?,
        List.getLast?_eq_some_getLast nonempty, Option.getD_some, Multiset.cons_coe]
      apply Multiset.coe_eq_coe.mpr
      refine (List.perm_append_singleton _ _).symm.trans ?_
      rw [List.dropLast_append_getLast nonempty]

theorem nextEvent_le {reverse : Bool} {bucket : List Event}
    (sorted : bucket.Pairwise (Precedes reverse)) {ev : Event} (membership : ev ∈ bucket) :
    (nextEvent reverse bucket).rank ≤ ev.rank := by
  have nonempty : bucket ≠ [] := List.ne_nil_of_mem membership
  cases reverse with
  | false =>
      cases bucket with
      | nil => exact absurd rfl nonempty
      | cons head tail =>
          rcases List.mem_cons.mp membership with rfl | inTail
          · exact le_rfl
          · exact (List.pairwise_cons.mp sorted).1 ev inTail
  | true =>
      simp only [nextEvent, if_true, List.getLastD_eq_getLast?,
        List.getLast?_eq_some_getLast nonempty, Option.getD_some]
      rw [← List.dropLast_append_getLast nonempty] at sorted membership
      rcases List.mem_append.mp membership with inFront | isLast
      · exact (List.pairwise_append.mp sorted).2.2 ev inFront _ (List.mem_singleton_self _)
      · rw [List.mem_singleton.mp isLast]

theorem pop_sublist (reverse : Bool) (bucket : List Event) :
    (pop reverse bucket).Sublist bucket := by
  unfold pop
  split
  · exact List.dropLast_sublist bucket
  · exact List.tail_sublist bucket

theorem pairwise_insert {reverse : Bool} {bucket : List Event} (ev : Event)
    (sorted : bucket.Pairwise (Precedes reverse)) :
    (insertInOrder (order reverse) ev bucket).Pairwise (Precedes reverse) := by
  cases reverse with
  | false =>
      exact pairwise_insertInOrder
        (fun a b less => ((EventKey.lt_iff_rank a.key b.key).mp less).le)
        (fun a b notLess => not_lt.mp (mt (EventKey.lt_iff_rank a.key b.key).mpr notLess))
        (fun _ _ _ => le_trans) ev sorted
  | true =>
      exact pairwise_insertInOrder
        (fun a b greater => ((EventKey.gt_iff_rank a.key b.key).mp greater).le)
        (fun a b notGreater =>
          not_lt.mp (mt (EventKey.gt_iff_rank a.key b.key).mpr notGreater))
        (fun _ _ _ first second => le_trans second first) ev sorted

/-- Where the events are. -/
structure Stored (queue : CalendarScheduler) (events : Multiset Event) : Prop where
  length : queue.buckets.length = queue.nBuckets
  bucketsPositive : 1 ≤ queue.nBuckets
  widthPositive : 1 ≤ queue.width
  widthFits : queue.width < 2 ^ 64
  contents : (queue.buckets.flatten : Multiset Event) = events
  sorted : ∀ i, (queue.bucket i).Pairwise (Precedes queue.reverse)
  placed : ∀ i, ∀ ev ∈ queue.bucket i, queue.hash ev.key.ts = i

/-- How the day pointer stands to the events. -/
structure Pointed (queue : CalendarScheduler) (events : Multiset Event) : Prop where
  lower : ∀ ev ∈ events, queue.lastPrio ≤ ev.key.ts
  upper : ∀ ev ∈ events, ev.key.ts < 2 ^ 63
  prioFits : queue.lastPrio < 2 ^ 63
  bucketEq : queue.lastBucket = queue.hash queue.lastPrio
  topEq : queue.bucketTop = (queue.lastPrio / queue.width + 1) * queue.width

variable {self : CalendarScheduler} {events : Multiset Event}

theorem mem_bucket_iff (self : CalendarScheduler) (ev : Event) :
    (∃ i, ev ∈ self.bucket i) ↔ ev ∈ self.buckets.flatten := by
  rw [List.mem_flatten]
  constructor
  · rintro ⟨i, membership⟩
    rw [bucket, List.getD_eq_getElem?_getD] at membership
    cases found : self.buckets[i]? with
    | none => simp [found] at membership
    | some stored =>
        rw [found] at membership
        exact ⟨stored, List.mem_of_getElem? found, membership⟩
  · rintro ⟨stored, storedIn, membership⟩
    obtain ⟨i, found⟩ := List.mem_iff_getElem?.mp storedIn
    exact ⟨i, by rw [bucket, List.getD_eq_getElem?_getD, found]; exact membership⟩

theorem Stored.mem_iff (stored : self.Stored events) (ev : Event) :
    ev ∈ events ↔ ev ∈ self.bucket (self.hash ev.key.ts) := by
  rw [← stored.contents, Multiset.mem_coe, ← mem_bucket_iff]
  constructor
  · rintro ⟨i, membership⟩
    rw [stored.placed i ev membership]
    exact membership
  · exact fun membership => ⟨_, membership⟩

theorem Stored.mem_of_mem_bucket (stored : self.Stored events) {i : Nat} {ev : Event}
    (membership : ev ∈ self.bucket i) : ev ∈ events := by
  rw [← stored.contents, Multiset.mem_coe, ← mem_bucket_iff]
  exact ⟨i, membership⟩

theorem Stored.hash_lt (stored : self.Stored events) (ts : Nat) :
    self.hash ts < self.nBuckets :=
  Nat.mod_lt _ stored.bucketsPositive

/-- The top of the day of a time stamp below `2 ^ 63` never wraps. -/
theorem dayTop_fits {ts width : Nat} (tsFits : ts < 2 ^ 63) (widthFits : width < 2 ^ 64) :
    (ts / width + 1) * width < 2 ^ 64 := by
  have floor : ts / width * width ≤ ts := Nat.div_mul_le_self ts width
  rw [Nat.add_mul, Nat.one_mul]
  by_cases early : ts < width
  · rw [Nat.div_eq_of_lt early]
    omega
  · omega

/-- The bucket that the search visits after `days` rounds. -/
def dayBucket (self : CalendarScheduler) (days : Nat) : Nat :=
  (self.lastPrio / self.width + days) % self.nBuckets

theorem dayBucket_succ (self : CalendarScheduler) (days : Nat) :
    (self.dayBucket days + 1) % self.nBuckets = self.dayBucket (days + 1) := by
  rw [dayBucket, dayBucket, Nat.mod_add_mod, Nat.add_assoc]

theorem dvd_sub_of_mod_eq {a b n : Nat} (same : a % n = b % n) : n ∣ b - a :=
  Nat.dvd_of_mod_eq_zero (Nat.sub_mod_eq_zero_of_mod_eq same.symm)

theorem dayBucket_ne_zero (self : CalendarScheduler) {days : Nat} (positive : 0 < days)
    (bounded : days < self.nBuckets) : self.dayBucket days ≠ self.dayBucket 0 := by
  intro same
  have divides := dvd_sub_of_mod_eq same.symm
  rw [Nat.add_sub_add_left, Nat.sub_zero] at divides
  exact absurd (Nat.le_of_dvd positive divides) (not_le.mpr bounded)

theorem dayBucket_surjective (self : CalendarScheduler) {i : Nat} (bounded : i < self.nBuckets) :
    ∃ days, days < self.nBuckets ∧ self.dayBucket days = i := by
  have positive : 0 < self.nBuckets := by omega
  have dayLt := Nat.mod_lt (self.lastPrio / self.width) positive
  refine ⟨(i + (self.nBuckets - self.lastPrio / self.width % self.nBuckets)) % self.nBuckets,
    Nat.mod_lt _ positive, ?_⟩
  rw [dayBucket, Nat.add_mod_mod, ← Nat.mod_add_mod]
  have rearranged : self.lastPrio / self.width % self.nBuckets +
      (i + (self.nBuckets - self.lastPrio / self.width % self.nBuckets)) =
      i + self.nBuckets := by omega
  rw [rearranged, Nat.add_mod_right, Nat.mod_eq_of_lt bounded]

/-- An event found in the bucket of a day and due before the end of that day is
an event of that day. -/
theorem Pointed.day_eq (pointed : self.Pointed events) {ev : Event} (present : ev ∈ events)
    {days : Nat} (bounded : days < self.nBuckets)
    (inBucket : self.hash ev.key.ts = self.dayBucket days)
    (due : ev.key.ts < (self.lastPrio / self.width + 1 + days) * self.width) :
    ev.key.ts / self.width = self.lastPrio / self.width + days := by
  have widthPositive : 0 < self.width := by
    by_contra zero
    simp [Nat.eq_zero_of_not_pos zero] at due
  have upper : ev.key.ts / self.width < self.lastPrio / self.width + 1 + days :=
    (Nat.div_lt_iff_lt_mul widthPositive).mpr due
  have lower : self.lastPrio / self.width ≤ ev.key.ts / self.width :=
    Nat.div_le_div_right (pointed.lower ev present)
  have divides := dvd_sub_of_mod_eq inBucket
  have closeBy : self.lastPrio / self.width + days - ev.key.ts / self.width < self.nBuckets := by
    omega
  have zero := Nat.eq_zero_of_dvd_of_lt divides closeBy
  omega

/-- No stop at the bucket of a day means no event of that day, even if the top
of the day has wrapped. -/
theorem Pointed.quiet (pointed : self.Pointed events) (stored : self.Stored events) {days : Nat}
    (noStop : ¬ (¬ (self.bucket (self.dayBucket days)).isEmpty ∧
      (nextEvent self.reverse (self.bucket (self.dayBucket days))).key.ts <
        wrap 64 ((self.lastPrio / self.width + 1 + days) * self.width)))
    {ev : Event} (present : ev ∈ events) :
    ev.key.ts / self.width ≠ self.lastPrio / self.width + days := by
  intro sameDay
  have inBucket : ev ∈ self.bucket (self.dayBucket days) := by
    have membership := (stored.mem_iff ev).mp present
    rwa [hash, sameDay] at membership
  have nextLe : (nextEvent self.reverse (self.bucket (self.dayBucket days))).key.ts ≤ ev.key.ts := by
    have rankLe := EventKey.rank_le_rank.mp
      (nextEvent_le (stored.sorted (self.dayBucket days)) inBucket)
    omega
  have nonempty : ¬ (self.bucket (self.dayBucket days)).isEmpty := by
    rw [List.isEmpty_iff]
    exact List.ne_nil_of_mem inBucket
  have small := pointed.upper ev present
  have dayStart : (self.lastPrio / self.width + days) * self.width ≤ ev.key.ts := by
    rw [← sameDay]
    exact Nat.div_mul_le_self _ _
  have dayEnd : ev.key.ts < (self.lastPrio / self.width + 1 + days) * self.width := by
    have due := Nat.lt_mul_div_succ ev.key.ts stored.widthPositive
    rw [sameDay, Nat.mul_comm] at due
    rwa [Nat.add_right_comm]
  have dayLength : (self.lastPrio / self.width + 1 + days) * self.width =
      (self.lastPrio / self.width + days) * self.width + self.width := by
    rw [Nat.add_right_comm, Nat.add_mul, Nat.one_mul]
  -- A day that starts below `2 ^ 63` can only end above `2 ^ 64` when it is the
  -- first one and longer than every time stamp.
  have fits : (self.lastPrio / self.width + 1 + days) * self.width < 2 ^ 64 := by
    by_cases short : self.width ≤ 2 ^ 63
    · omega
    · have firstDay : ev.key.ts / self.width = 0 := Nat.div_eq_of_lt (by omega)
      rw [dayLength, ← sameDay, firstDay, Nat.zero_mul, Nat.zero_add]
      exact stored.widthFits
  exact noStop ⟨nonempty, by rw [wrap_of_lt fits]; omega⟩

/-- The bucket that leads among the days visited so far. -/
def Leads (self : CalendarScheduler) (days : Nat) : Option Nat → Prop
  | none => ∀ earlier < days, self.bucket (self.dayBucket earlier) = []
  | some i => self.bucket i ≠ [] ∧
      ∀ earlier < days, self.bucket (self.dayBucket earlier) ≠ [] →
        (nextEvent self.reverse (self.bucket i)).rank ≤
          (nextEvent self.reverse (self.bucket (self.dayBucket earlier))).rank

/-- How a search must update what it keeps, and what that stands for. -/
structure Keeps {Kept : Type} (queue : CalendarScheduler) (visit : Kept → Nat → Event → Kept)
    (kept : Option Nat → Kept) : Prop where
  first : ∀ i, queue.bucket i ≠ [] →
    visit (kept none) i (nextEvent queue.reverse (queue.bucket i)) = kept (some i)
  later : ∀ i j, queue.bucket i ≠ [] →
    visit (kept (some j)) i (nextEvent queue.reverse (queue.bucket i)) =
      if (nextEvent queue.reverse (queue.bucket i)).rank <
          (nextEvent queue.reverse (queue.bucket j)).rank
      then kept (some i) else kept (some j)

theorem Keeps.visit_leads {Kept : Type} {visit : Kept → Nat → Event → Kept}
    {kept : Option Nat → Kept} (keeps : self.Keeps visit kept) {days : Nat} {leader : Option Nat}
    (leads : self.Leads days leader) :
    ∃ next, self.Leads (days + 1) next ∧
      (if (self.bucket (self.dayBucket days)).isEmpty then kept leader
        else visit (kept leader) (self.dayBucket days)
          (nextEvent self.reverse (self.bucket (self.dayBucket days)))) = kept next := by
  by_cases empty : self.bucket (self.dayBucket days) = []
  · refine ⟨leader, ?_, by simp [empty]⟩
    cases leader with
    | none =>
        intro earlier bounded
        rcases Nat.lt_succ_iff_lt_or_eq.mp bounded with before | rfl
        · exact leads earlier before
        · exact empty
    | some i =>
        refine ⟨leads.1, fun earlier bounded nonempty => ?_⟩
        rcases Nat.lt_succ_iff_lt_or_eq.mp bounded with before | rfl
        · exact leads.2 earlier before nonempty
        · exact absurd empty nonempty
  · rw [if_neg (by simpa using empty)]
    cases leader with
    | none =>
        refine ⟨some (self.dayBucket days), ⟨empty, ?_⟩, keeps.first _ empty⟩
        intro earlier bounded nonempty
        rcases Nat.lt_succ_iff_lt_or_eq.mp bounded with before | rfl
        · exact absurd (leads earlier before) nonempty
        · exact le_rfl
    | some j =>
        rw [keeps.later (self.dayBucket days) j empty]
        split
        next less =>
          refine ⟨some (self.dayBucket days), ⟨empty, ?_⟩, rfl⟩
          intro earlier bounded nonempty
          rcases Nat.lt_succ_iff_lt_or_eq.mp bounded with before | rfl
          · exact less.le.trans (leads.2 earlier before nonempty)
          · exact le_rfl
        next notLess =>
          refine ⟨some j, ⟨leads.1, ?_⟩, rfl⟩
          intro earlier bounded nonempty
          rcases Nat.lt_succ_iff_lt_or_eq.mp bounded with before | rfl
          · exact leads.2 earlier before nonempty
          · exact not_lt.mp notLess

/-- What a search ends with: a stop at the least event, or the bucket that leads
after a whole year. -/
inductive Outcome {Kept : Type} (queue : CalendarScheduler) (events : Multiset Event)
    (kept : Option Nat → Kept) : (Nat × Nat × Event) ⊕ Kept → Prop where
  | stop (next : Event) (isNext : IsNext events next)
      (nonempty : queue.bucket (queue.hash next.key.ts) ≠ [])
      (nextEq : next = nextEvent queue.reverse (queue.bucket (queue.hash next.key.ts))) :
      Outcome queue events kept (.inl (queue.hash next.key.ts,
        (next.key.ts / queue.width + 1) * queue.width, next))
  | year (leader : Option Nat) (leads : queue.Leads queue.nBuckets leader) :
      Outcome queue events kept (.inr (kept leader))

theorem Pointed.isNext_of_stop (pointed : self.Pointed events) (stored : self.Stored events)
    {days : Nat} (bounded : days < self.nBuckets)
    (quiet : ∀ earlier < days, ∀ ev ∈ events,
      ev.key.ts / self.width ≠ self.lastPrio / self.width + earlier)
    (nonempty : self.bucket (self.dayBucket days) ≠ [])
    (due : (nextEvent self.reverse (self.bucket (self.dayBucket days))).key.ts <
      (self.lastPrio / self.width + 1 + days) * self.width) :
    IsNext events (nextEvent self.reverse (self.bucket (self.dayBucket days))) ∧
      (nextEvent self.reverse (self.bucket (self.dayBucket days))).key.ts / self.width =
        self.lastPrio / self.width + days := by
  have inBucket := nextEvent_mem self.reverse nonempty
  have present := stored.mem_of_mem_bucket inBucket
  have nextDay := pointed.day_eq present bounded (stored.placed _ _ inBucket) due
  refine ⟨⟨present, fun other otherPresent => ?_⟩, nextDay⟩
  have otherDay : self.lastPrio / self.width ≤ other.key.ts / self.width :=
    Nat.div_le_div_right (pointed.lower other otherPresent)
  rcases Nat.lt_trichotomy (other.key.ts / self.width) (self.lastPrio / self.width + days) with
    before | same | after
  · exact absurd (by omega) (quiet (other.key.ts / self.width - self.lastPrio / self.width)
      (by omega) other otherPresent)
  · have membership := (stored.mem_iff other).mp otherPresent
    rw [hash, same] at membership
    exact nextEvent_le (stored.sorted _) membership
  · apply EventKey.rank_le_rank.mpr
    left
    by_contra later
    have dayLe := Nat.div_le_div_right (c := self.width) (not_lt.mp later)
    omega

/-- The loop of a search after `days` rounds without a stop. -/
theorem Pointed.search_outcome (pointed : self.Pointed events) (stored : self.Stored events)
    {Kept : Type} {visit : Kept → Nat → Event → Kept} {kept : Option Nat → Kept}
    (keeps : self.Keeps visit kept) (rounds days : Nat) (leader : Option Nat)
    (positive : 0 < rounds) (left : days + rounds = self.nBuckets)
    (quiet : ∀ earlier < days, ∀ ev ∈ events,
      ev.key.ts / self.width ≠ self.lastPrio / self.width + earlier)
    (leads : self.Leads days leader) :
    Outcome self events kept (self.search visit rounds (self.dayBucket days)
      (wrap 64 ((self.lastPrio / self.width + 1 + days) * self.width)) (kept leader)) := by
  induction rounds generalizing days leader with
  | zero => exact absurd positive (lt_irrefl 0)
  | succ rounds inductionHypothesis =>
      rw [search]
      simp only
      split
      next stops =>
        have nonempty : self.bucket (self.dayBucket days) ≠ [] := by
          simpa using stops.1
        have due := stops.2.trans_le (wrap_le 64 _)
        obtain ⟨isNext, day⟩ := pointed.isNext_of_stop stored (by omega) quiet nonempty due
        have hashEq := stored.placed _ _ (nextEvent_mem self.reverse nonempty)
        have topEq : wrap 64 ((self.lastPrio / self.width + 1 + days) * self.width) =
            ((nextEvent self.reverse (self.bucket (self.dayBucket days))).key.ts / self.width + 1) *
              self.width := by
          rw [day, Nat.add_right_comm]
          apply wrap_of_lt
          rw [← Nat.add_right_comm, Nat.add_right_comm, ← day]
          exact dayTop_fits (pointed.upper _ isNext.1) stored.widthFits
        rw [topEq]
        have outcome : Outcome self events kept _ := .stop
          (nextEvent self.reverse (self.bucket (self.dayBucket days))) isNext
          (by rw [hashEq]; exact nonempty) (by rw [hashEq])
        rwa [hashEq] at outcome
      next goesOn =>
        have quietHere : ∀ earlier < days + 1, ∀ ev ∈ events,
            ev.key.ts / self.width ≠ self.lastPrio / self.width + earlier := by
          intro earlier bounded ev present
          rcases Nat.lt_succ_iff_lt_or_eq.mp bounded with before | rfl
          · exact quiet earlier before ev present
          · exact pointed.quiet stored goesOn present
        obtain ⟨next, nextLeads, keptEq⟩ := keeps.visit_leads leads
        rw [keptEq, self.dayBucket_succ]
        split
        next back =>
          -- The search is back at its first bucket, so the year is over.
          have yearDone : days + 1 = self.nBuckets := by
            by_contra notOver
            refine self.dayBucket_ne_zero days.succ_pos (by omega) ?_
            rw [back, pointed.bucketEq, dayBucket, Nat.add_zero, hash]
          exact .year next (yearDone ▸ nextLeads)
        next notBack =>
          have more : 0 < rounds := by
            by_contra none
            apply notBack
            have yearDone : days + 1 = self.nBuckets := by omega
            rw [pointed.bucketEq, dayBucket, yearDone, Nat.add_mod_right, hash]
          have topStep : wrap 64 (wrap 64 ((self.lastPrio / self.width + 1 + days) * self.width) +
              self.width) =
              wrap 64 ((self.lastPrio / self.width + 1 + (days + 1)) * self.width) := by
            rw [wrap, wrap, wrap, Nat.mod_add_mod, ← Nat.add_assoc, Nat.add_mul _ 1, Nat.one_mul]
          rw [topStep]
          exact inductionHypothesis (days + 1) next more (by omega) quietHere nextLeads

/-- A search from the day pointer. -/
theorem Pointed.outcome (pointed : self.Pointed events) (stored : self.Stored events)
    {Kept : Type} {visit : Kept → Nat → Event → Kept} {kept : Option Nat → Kept}
    (keeps : self.Keeps visit kept) :
    Outcome self events kept (self.search visit self.nBuckets self.lastBucket self.bucketTop
      (kept none)) := by
  have topFits := dayTop_fits pointed.prioFits stored.widthFits
  have searched := pointed.search_outcome stored keeps self.nBuckets 0 none
    stored.bucketsPositive (Nat.zero_add _) (by simp) (by simp [Leads])
  rw [Nat.add_zero, wrap_of_lt topFits, ← pointed.topEq] at searched
  rwa [pointed.bucketEq, hash]

/-- After a whole year the leading bucket has the least event. -/
theorem Stored.isNext_of_leads (stored : self.Stored events) (nonempty : events ≠ 0)
    {leader : Option Nat} (leads : self.Leads self.nBuckets leader) :
    ∃ i, leader = some i ∧ self.bucket i ≠ [] ∧
      IsNext events (nextEvent self.reverse (self.bucket i)) := by
  cases leader with
  | none =>
      obtain ⟨ev, present⟩ := Multiset.exists_mem_of_ne_zero nonempty
      obtain ⟨days, bounded, dayEq⟩ := self.dayBucket_surjective (stored.hash_lt ev.key.ts)
      have membership := (stored.mem_iff ev).mp present
      rw [← dayEq, leads days bounded] at membership
      exact absurd membership List.not_mem_nil
  | some i =>
      refine ⟨i, rfl, leads.1,
        stored.mem_of_mem_bucket (nextEvent_mem self.reverse leads.1), ?_⟩
      intro other present
      obtain ⟨days, bounded, dayEq⟩ := self.dayBucket_surjective (stored.hash_lt other.key.ts)
      have membership := (stored.mem_iff other).mp present
      have least := leads.2 days bounded (by rw [dayEq]; exact List.ne_nil_of_mem membership)
      rw [dayEq] at least
      exact least.trans (nextEvent_le (stored.sorted _) membership)

end CalendarScheduler

end Ns3.Core
