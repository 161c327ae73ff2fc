import Ns3.Library.Machine
import Ns3.Internet.Ipv4Fragmentation.Kernel
import Mathlib.Data.List.Nodup

/-!
The expiry of datagrams that stay incomplete in `ns3::Ipv4L3Protocol`.

One list has the expiry times of all datagrams that wait, and one event serves the whole
list. A datagram that becomes complete takes its entry out of the list but leaves the event
behind. Times are multiples of the resolution of the simulator, which does not pass over an
event.
-/

namespace Ns3.Internet

open Library

namespace Ipv4L3Protocol

namespace Fragments

/-- The loop of `GetPartialPacket`. -/
def assemblePartial : List (Chunk UInt8) → Nat → List UInt8 → List UInt8
  | [], _, p => p
  | stored :: rest, lastEndOffset, p =>
      let joined :=
        if lastEndOffset > stored.1 then
          let newStart := lastEndOffset - stored.1
          p ++ (stored.2.drop newStart).take (wrapSub 32 stored.2.length newStart)
        else if lastEndOffset = stored.1 then p ++ stored.2
        else p
      assemblePartial rest (wrap 16 joined.length) joined

/-- `GetPartialPacket`. -/
def getPartialPacket (self : Fragments) : List UInt8 :=
  match self.chunks with
  | [] => []
  | first :: rest => if first.1 > 0 then [] else assemblePartial (first :: rest) 0 []

end Fragments

/-- An element of `m_timeoutEventList`; `iter` is the iterator that leads to it. -/
structure TimeoutEntry where
  iter : Nat
  time : Nat
  key : FragmentKey
  ipHeader : Ipv4Header
  iif : Nat
  deriving DecidableEq, Repr

/-- A datagram that is dropped, with what `m_dropTrace` is called with, and whether an error
is sent to the source. -/
structure Drop where
  key : FragmentKey
  ipHeader : Ipv4Header
  iif : Nat
  packet : List UInt8
  sendsTimeExceeded : Bool
  time : Nat
  deriving DecidableEq, Repr

/-- The drop of the fragments of an entry. -/
def TimeoutEntry.drop (entry : TimeoutEntry) (now : Nat) (fragments : Fragments) : Drop :=
  let packet := fragments.getPartialPacket
  ⟨entry.key, entry.ipHeader, entry.iif, packet, decide (packet.length > 8), now⟩

/-- The part of the protocol that waits for fragments, the events of `HandleTimeout` in the
simulator and the clock. `timeoutIter` is the iterator in the `Fragments` of a key, `first`
the time when the first fragment of the datagram that waits under a key has arrived. -/
structure Expiry where
  protocol : Ipv4L3Protocol
  timeoutIter : FragmentKey → Nat
  timeoutEventList : List TimeoutEntry
  nextIter : Nat
  pending : List Nat
  now : Nat
  first : FragmentKey → Nat
  drops : List Drop

namespace Expiry

/-- No fragment waits. -/
def create : Expiry := ⟨Ipv4L3Protocol.create, fun _ => 0, [], 0, [], 0, fun _ => 0, []⟩

/-- The event that `SetTimeout` schedules, if any. -/
def scheduled (self : Expiry) (timeout : Nat) : List Nat :=
  if self.timeoutEventList.isEmpty then [self.now + timeout] else []

/-- `SetTimeout`, and `SetTimeoutIter` with what it gives. -/
def setTimeout (self : Expiry) (timeout : Nat) (key : FragmentKey) (ipHeader : Ipv4Header)
    (iif : Nat) : Expiry :=
  { self with
    pending := self.pending ++ self.scheduled timeout
    timeoutEventList :=
      self.timeoutEventList ++ [⟨self.nextIter, self.now + timeout, key, ipHeader, iif⟩]
    nextIter := self.nextIter + 1
    timeoutIter := Function.update self.timeoutIter key self.nextIter
    first := Function.update self.first key self.now }

/-- The first part of `ProcessFragment`, which looks the key up. -/
def lookUp (self : Expiry) (timeout : Nat) (arriving : Ipv4Fragment) (iif : Nat) : Expiry :=
  let key := fragmentKey arriving.header
  if (self.protocol.fragments key).isNone then self.setTimeout timeout key arriving.header iif
  else self

/-- `m_timeoutEventList.erase`. -/
def eraseTimeout (self : Expiry) (iter : Nat) : Expiry :=
  { self with timeoutEventList := self.timeoutEventList.filter fun entry => entry.iter ≠ iter }

/-- `ProcessFragment`: the packet, if it is complete. -/
def processFragment (self : Expiry) (timeout : Nat) (arriving : Ipv4Fragment) (iif : Nat) :
    Expiry × Option (List UInt8) :=
  let found := self.lookUp timeout arriving iif
  let processed := found.protocol.processFragment arriving
  let after := { found with protocol := processed.1 }
  (if processed.2.isSome then after.eraseTimeout (found.timeoutIter (fragmentKey arriving.header))
    else after,
    processed.2)

/-- `HandleFragmentsTimeout`, which follows the iterator of the key that it looks up. -/
def handleFragmentsTimeout (now : Nat) (entry : TimeoutEntry) (protocol : Ipv4L3Protocol) :
    Option (Ipv4L3Protocol × Drop) := do
  let fragments ← protocol.fragments entry.key
  pure (⟨Function.update protocol.fragments entry.key none⟩, entry.drop now fragments)

/-- The loop of `HandleTimeout`: the list, the fragments and the drops that are left. -/
def handleTimeouts (now : Nat) : List TimeoutEntry → Ipv4L3Protocol →
    Option (List TimeoutEntry × Ipv4L3Protocol × List Drop)
  | [], protocol => some ([], protocol, [])
  | entry :: rest, protocol =>
      if entry.time = now then do
        let (after, drop) ← handleFragmentsTimeout now entry protocol
        let (list, last, drops) ← handleTimeouts now rest after
        pure (list, last, drop :: drops)
      else some (entry :: rest, protocol, [])

/-- The event that `HandleTimeout` schedules, if any; there is none with a negative delay. -/
def rescheduled (now : Nat) : List TimeoutEntry → Option (List Nat)
  | [] => some []
  | entry :: _ => if entry.time < now then none else some [now + (entry.time - now)]

/-- `HandleTimeout`, by an event of the present time. -/
def handleTimeout (self : Expiry) : Option Expiry := do
  let (list, protocol, drops) ← handleTimeouts self.now self.timeoutEventList self.protocol
  let event ← rescheduled self.now list
  pure { self with
    timeoutEventList := list
    protocol := protocol
    drops := self.drops ++ drops
    pending := self.pending.erase self.now ++ event }

/-- What can happen. -/
inductive Event
  | arrive (arriving : Ipv4Fragment) (iif : Nat)
  | fire
  | advance (time : Nat)

/-- The next state. -/
def step (timeout : Nat) (self : Expiry) : Event → Expiry
  | .arrive arriving iif => (self.processFragment timeout arriving iif).1
  | .fire => self.handleTimeout.getD self
  | .advance time => { self with now := time }

/-- An event fires at its time, and the clock does not go on before it has. -/
def Enabled (self : Expiry) : Event → Prop
  | .arrive _ _ => True
  | .fire => self.now ∈ self.pending
  | .advance time => self.now ≤ time ∧ ∀ event ∈ self.pending, time ≤ event

instance (self : Expiry) : (event : Event) → Decidable (self.Enabled event)
  | .arrive _ _ => inferInstanceAs (Decidable True)
  | .fire => inferInstanceAs (Decidable (_ ∈ _))
  | .advance _ => inferInstanceAs (Decidable (_ ∧ _))

/-- Any order of arrivals and events. -/
def machine (timeout : Nat) : Machine Expiry Event where
  step := step timeout
  Enabled := Enabled

instance (timeout : Nat) (self : Expiry) (event : Event) :
    Decidable ((machine timeout).Enabled self event) :=
  inferInstanceAs (Decidable (self.Enabled event))

/-- A datagram waits under the key. -/
def Waits (self : Expiry) (key : FragmentKey) : Prop := (self.protocol.fragments key).isSome

/-- The keys of the list are those of the datagrams that wait, the list has the times of
expiry in order, and an event comes in time for the first of them. -/
structure Consistent (timeout : Nat) (expiry : Expiry) : Prop where
  waits : ∀ key, expiry.Waits key ↔ key ∈ expiry.timeoutEventList.map TimeoutEntry.key
  once : (expiry.timeoutEventList.map TimeoutEntry.key).Nodup
  ordered : expiry.timeoutEventList.Pairwise fun a b => a.time ≤ b.time
  served : ∀ entry ∈ expiry.timeoutEventList.head?,
    ∃ event ∈ expiry.pending, expiry.now ≤ event ∧ event ≤ entry.time
  due : ∀ entry ∈ expiry.timeoutEventList,
    entry.time = expiry.first entry.key + timeout ∧ expiry.now ≤ entry.time
  /-- Once the events of the present time have fired, nothing that expires now waits. -/
  quiet : expiry.now ∉ expiry.pending →
    ∀ entry ∈ expiry.timeoutEventList, expiry.now < entry.time
  /-- `HandleFragmentsTimeout` finds every key that it looks up. -/
  handles : expiry.handleTimeout.isSome

/-- A datagram starts to wait with its first fragment, and waits until it is complete or its
time is over. -/
structure Tracks (timeout : Nat) (before : Expiry) (event : Event) (after : Expiry) : Prop where
  starts : ∀ key, ¬ before.Waits key → after.Waits key → after.first key = before.now
  stays : ∀ key, before.Waits key →
    (after.Waits key ∧ after.first key = before.first key) ∨
    (∃ arriving iif, event = .arrive arriving iif ∧ fragmentKey arriving.header = key ∧
      (before.processFragment timeout arriving iif).2.isSome) ∨
    (event = .fire ∧ before.now = before.first key + timeout ∧
      ∃ drop ∈ after.drops, drop.key = key ∧ drop.time = before.now)

/-- The list serves these keys; an iterator leads to one element. -/
structure Listed (timeout : Nat) (Keys : FragmentKey → Prop) (expiry : Expiry) : Prop where
  keys : ∀ key, Keys key ↔ key ∈ expiry.timeoutEventList.map TimeoutEntry.key
  once : (expiry.timeoutEventList.map TimeoutEntry.key).Nodup
  ordered : expiry.timeoutEventList.Pairwise fun a b => a.time ≤ b.time
  served : ∀ entry ∈ expiry.timeoutEventList, ∃ event ∈ expiry.pending, event ≤ entry.time
  due : ∀ entry ∈ expiry.timeoutEventList, entry.time = expiry.first entry.key + timeout
  recent : ∀ entry ∈ expiry.timeoutEventList, entry.time ≤ expiry.now + timeout
  upcoming : ∀ event ∈ expiry.pending, expiry.now ≤ event
  iters : ∀ entry ∈ expiry.timeoutEventList, entry.iter = expiry.timeoutIter entry.key
  known : ∀ entry ∈ expiry.timeoutEventList, entry.iter < expiry.nextIter
  apart : (expiry.timeoutEventList.map TimeoutEntry.iter).Nodup

theorem listed_create (timeout : Nat) : Listed timeout create.Waits create where
  keys _ := ⟨fun wrong => (nomatch wrong), fun wrong => nomatch wrong⟩
  once := List.nodup_nil
  ordered := List.Pairwise.nil
  served _ member := nomatch member
  due _ member := nomatch member
  recent _ member := nomatch member
  upcoming _ member := nomatch member
  iters _ member := nomatch member
  known _ member := nomatch member
  apart := List.nodup_nil

variable {timeout : Nat} {self : Expiry} {Keys : FragmentKey → Prop}

theorem Listed.now_le (listed : Listed timeout Keys self) :
    ∀ entry ∈ self.timeoutEventList, self.now ≤ entry.time := by
  intro entry member
  obtain ⟨event, isPending, before⟩ := listed.served entry member
  exact Nat.le_trans (listed.upcoming event isPending) before

/-- The loop of `HandleTimeout` takes the entries of the present time off the list. -/
theorem handleTimeouts_spec (now : Nat) {list : List TimeoutEntry} {protocol : Ipv4L3Protocol}
    (found : ∀ entry ∈ list, (protocol.fragments entry.key).isSome)
    (once : (list.map TimeoutEntry.key).Nodup) :
    ∃ last drops,
      handleTimeouts now list protocol =
        some (list.dropWhile fun entry => entry.time = now, last, drops) ∧
      (∀ key, last.fragments key =
        if key ∈ (list.takeWhile fun entry => entry.time = now).map TimeoutEntry.key then none
        else protocol.fragments key) ∧
      ∀ key ∈ (list.takeWhile fun entry => entry.time = now).map TimeoutEntry.key,
        ∃ drop ∈ drops, drop.key = key ∧ drop.time = now := by
  induction list generalizing protocol with
  | nil => exact ⟨protocol, [], rfl, fun _ => rfl, fun _ member => nomatch member⟩
  | cons entry rest inductionHypothesis =>
      obtain ⟨new, onceRest⟩ := List.nodup_cons.mp once
      by_cases isDue : entry.time = now
      · obtain ⟨fragments, isStored⟩ :=
          Option.isSome_iff_exists.mp (found entry List.mem_cons_self)
        have foundRest : ∀ other ∈ rest,
            ((Function.update protocol.fragments entry.key none) other.key).isSome := by
          intro other member
          have different : other.key ≠ entry.key := by
            intro same
            exact new (same ▸ List.mem_map_of_mem member)
          rw [Function.update_of_ne different]
          exact found other (List.mem_cons_of_mem entry member)
        obtain ⟨last, drops, handled, fragmentsLast, dropped⟩ :=
          @inductionHypothesis ⟨Function.update protocol.fragments entry.key none⟩ foundRest
            onceRest
        refine ⟨last, entry.drop now fragments :: drops, ?_, fun key => ?_, fun key member => ?_⟩
        · simp only [handleTimeouts, handleFragmentsTimeout, isDue, if_true, isStored,
            Option.bind_eq_bind, Option.bind_some, Option.pure_def, handled,
            List.dropWhile_cons, decide_true]
        · rw [fragmentsLast key]
          simp only [List.takeWhile_cons, isDue, decide_true, if_true, List.map_cons,
            List.mem_cons]
          by_cases same : key = entry.key
          · subst same
            simp
          · simp [same]
        · simp only [List.takeWhile_cons, isDue, decide_true, if_true, List.map_cons,
            List.mem_cons] at member
          rcases member with rfl | behind
          · exact ⟨_, List.mem_cons_self, rfl, rfl⟩
          · obtain ⟨drop, inDrops, isFor⟩ := dropped key behind
            exact ⟨drop, List.mem_cons_of_mem _ inDrops, isFor⟩
      · refine ⟨protocol, [], ?_, fun key => ?_, fun key member => ?_⟩
        · simp [handleTimeouts, isDue]
        · simp [isDue]
        · simp [isDue] at member

/-- What is left of the list after `HandleTimeout` expires later. -/
theorem Listed.later (listed : Listed timeout Keys self) :
    ∀ entry ∈ self.timeoutEventList.dropWhile fun entry => entry.time = self.now,
      self.now < entry.time := by
  have ordered : (self.timeoutEventList.dropWhile fun entry => entry.time = self.now).Pairwise
      fun a b => a.time ≤ b.time := listed.ordered.sublist (List.dropWhile_sublist _)
  have first := List.head?_dropWhile_not (fun entry : TimeoutEntry => decide (entry.time = self.now))
    self.timeoutEventList
  have nowLe := listed.now_le
  intro entry member
  have atLeast := nowLe entry ((List.dropWhile_sublist _).subset member)
  cases rest : self.timeoutEventList.dropWhile fun entry => entry.time = self.now with
  | nil =>
      rw [rest] at member
      exact nomatch member
  | cons head others =>
      rw [rest] at member ordered first
      have headLe := nowLe head ((List.dropWhile_sublist _).subset (rest ▸ List.mem_cons_self))
      have headNe : head.time ≠ self.now := by simpa using first
      rcases List.mem_cons.mp member with rfl | behind
      · omega
      · have between := (List.pairwise_cons.mp ordered).1 entry behind
        omega

/-- The keys that expire at the present time. -/
def expiring (self : Expiry) : List FragmentKey :=
  (self.timeoutEventList.takeWhile fun entry => entry.time = self.now).map TimeoutEntry.key

/-- What `HandleTimeout` does. -/
structure Handled (before after : Expiry) : Prop where
  list : after.timeoutEventList =
    before.timeoutEventList.dropWhile fun entry => entry.time = before.now
  fragments : ∀ key, after.protocol.fragments key =
    if key ∈ before.expiring then none else before.protocol.fragments key
  drops : ∀ key ∈ before.expiring, ∃ drop ∈ after.drops, drop.key = key ∧ drop.time = before.now
  served : ∀ entry ∈ after.timeoutEventList, ∃ event ∈ after.pending, event ≤ entry.time
  upcoming : ∀ event ∈ after.pending, before.now ≤ event
  frame : after.timeoutIter = before.timeoutIter ∧ after.nextIter = before.nextIter ∧
    after.now = before.now ∧ after.first = before.first

theorem Listed.handleTimeout (listed : Listed timeout self.Waits self) :
    ∃ after, self.handleTimeout = some after ∧ Handled self after := by
  have later := listed.later
  have ordered : (self.timeoutEventList.dropWhile fun entry => entry.time = self.now).Pairwise
      fun a b => a.time ≤ b.time := listed.ordered.sublist (List.dropWhile_sublist _)
  obtain ⟨last, drops, handled, fragmentsLast, dropped⟩ :=
    handleTimeouts_spec self.now (fun entry member =>
      (listed.keys entry.key).mpr (List.mem_map_of_mem member)) listed.once
  have logged : ∀ key ∈ self.expiring,
      ∃ drop ∈ self.drops ++ drops, drop.key = key ∧ drop.time = self.now := by
    intro key member
    obtain ⟨drop, inDrops, isFor⟩ := dropped key member
    exact ⟨drop, List.mem_append_right _ inDrops, isFor⟩
  have upcoming : ∀ event ∈ self.pending.erase self.now, self.now ≤ event :=
    fun event member => listed.upcoming event (List.mem_of_mem_erase member)
  unfold Expiry.handleTimeout
  rw [handled, Option.bind_eq_bind, Option.bind_some]
  dsimp only
  cases rest : self.timeoutEventList.dropWhile fun entry => entry.time = self.now with
  | nil =>
      refine ⟨_, rfl, rest.symm, fragmentsLast, logged, fun _ member => (nomatch member),
        fun event member => ?_, rfl, rfl, rfl, rfl⟩
      rw [List.append_nil] at member
      exact upcoming event member
  | cons head others =>
      rw [rest] at later ordered
      have headLater := later head List.mem_cons_self
      have delay : self.now + (head.time - self.now) = head.time := by omega
      have soon : ¬ head.time < self.now := by omega
      simp only [rescheduled, soon, if_false, delay, Option.pure_def]
      refine ⟨_, rfl, rest.symm, fragmentsLast, logged, fun entry member => ?_,
        fun event member => ?_, rfl, rfl, rfl, rfl⟩
      · refine ⟨head.time, List.mem_append_right _ (List.mem_singleton_self _), ?_⟩
        rcases List.mem_cons.mp member with rfl | behind
        · exact Nat.le_refl _
        · exact (List.pairwise_cons.mp ordered).1 entry behind
      · rcases List.mem_append.mp member with old | new
        · exact upcoming event old
        · rw [List.mem_singleton.mp new]
          exact Nat.le_of_lt headLater

/-- The keys before and behind the first entry that does not expire now. -/
theorem Listed.mem_keys (listed : Listed timeout Keys self) {after : Expiry}
    (handled : Handled self after) (key : FragmentKey) :
    key ∈ after.timeoutEventList.map TimeoutEntry.key ↔ Keys key ∧ key ∉ self.expiring := by
  have split := congrArg (List.map TimeoutEntry.key)
    (List.takeWhile_append_dropWhile (p := fun entry : TimeoutEntry => entry.time = self.now)
      (l := self.timeoutEventList))
  have once := listed.once
  rw [List.map_append, ← handled.list] at split
  rw [← split, List.nodup_append] at once
  rw [listed.keys key, ← split, List.mem_append]
  constructor
  · intro member
    exact ⟨.inr member, fun expires => once.2.2 key expires key member rfl⟩
  · rintro ⟨expires | stays, not⟩
    · exact absurd expires not
    · exact stays

theorem Listed.fire (listed : Listed timeout self.Waits self) {after : Expiry}
    (handled : Handled self after) : Listed timeout after.Waits after := by
  obtain ⟨sameIter, sameNext, sameNow, sameFirst⟩ := handled.frame
  have sublist : after.timeoutEventList.Sublist self.timeoutEventList :=
    handled.list ▸ List.dropWhile_sublist _
  constructor
  · intro key
    rw [listed.mem_keys handled key]
    unfold Waits
    rw [handled.fragments key]
    by_cases expires : key ∈ self.expiring
    · simp [expires]
    · simp [expires]
  · exact listed.once.sublist (sublist.map _)
  · exact listed.ordered.sublist sublist
  · exact handled.served
  · rw [sameFirst]
    exact fun entry member => listed.due entry (sublist.subset member)
  · rw [sameNow]
    exact fun entry member => listed.recent entry (sublist.subset member)
  · rw [sameNow]
    exact handled.upcoming
  · rw [sameIter]
    exact fun entry member => listed.iters entry (sublist.subset member)
  · rw [sameNext]
    exact fun entry member => listed.known entry (sublist.subset member)
  · exact listed.apart.sublist (sublist.map _)

theorem Listed.advance (listed : Listed timeout self.Waits self) {time : Nat}
    (enabled : self.Enabled (.advance time)) :
    Listed timeout self.Waits { self with now := time } :=
  { listed with
    upcoming := enabled.2
    recent := fun entry member => Nat.le_trans (listed.recent entry member)
      (Nat.add_le_add_right enabled.1 _) }

theorem Listed.setTimeout (listed : Listed timeout Keys self) {key : FragmentKey}
    (new : ¬ Keys key) (ipHeader : Ipv4Header) (iif : Nat) :
    Listed timeout (fun other => Keys other ∨ other = key)
      (self.setTimeout timeout key ipHeader iif) := by
  have absent : ∀ entry ∈ self.timeoutEventList, entry.key ≠ key := by
    intro entry member same
    exact new ((listed.keys key).mpr (same ▸ List.mem_map_of_mem member))
  constructor
  · intro other
    simp only [Expiry.setTimeout, List.map_append, List.mem_append, listed.keys other,
      List.map_cons, List.map_nil, List.mem_singleton]
  · simp only [Expiry.setTimeout, List.map_append, List.map_cons, List.map_nil]
    refine List.nodup_append.mpr ⟨listed.once, List.nodup_singleton _, ?_⟩
    intro other member last isLast same
    rw [List.mem_singleton.mp isLast] at same
    exact new ((listed.keys key).mpr (same ▸ member))
  · refine List.pairwise_append.mpr ⟨listed.ordered, List.pairwise_singleton _ _, ?_⟩
    intro entry member last isLast
    rw [List.mem_singleton.mp isLast]
    exact listed.recent entry member
  · intro entry member
    rcases List.mem_append.mp member with old | isLast
    · obtain ⟨event, isPending, before⟩ := listed.served entry old
      exact ⟨event, List.mem_append_left _ isPending, before⟩
    · rw [List.mem_singleton.mp isLast]
      -- The first entry of an empty list gets an event of its own, and any other entry
      -- expires after the one in front of it.
      cases list : self.timeoutEventList with
      | nil =>
          refine ⟨self.now + timeout, List.mem_append_right _ ?_, Nat.le_refl _⟩
          simp [scheduled, list]
      | cons head others =>
          have isHead : head ∈ self.timeoutEventList := list ▸ List.mem_cons_self
          obtain ⟨event, isPending, before⟩ := listed.served head isHead
          exact ⟨event, List.mem_append_left _ isPending,
            Nat.le_trans before (listed.recent head isHead)⟩
  · intro entry member
    rcases List.mem_append.mp member with old | isLast
    · simp only [Expiry.setTimeout, Function.update_of_ne (absent entry old)]
      exact listed.due entry old
    · rw [List.mem_singleton.mp isLast]
      simp [Expiry.setTimeout]
  · intro entry member
    rcases List.mem_append.mp member with old | isLast
    · exact listed.recent entry old
    · rw [List.mem_singleton.mp isLast]
      exact Nat.le_refl _
  · intro event member
    rcases List.mem_append.mp member with old | new
    · exact listed.upcoming event old
    · have same : event = self.now + timeout := by
        unfold scheduled at new
        split at new
        · exact List.mem_singleton.mp new
        · exact nomatch new
      rw [same]
      exact Nat.le_add_right _ _
  · intro entry member
    rcases List.mem_append.mp member with old | isLast
    · simp only [Expiry.setTimeout, Function.update_of_ne (absent entry old)]
      exact listed.iters entry old
    · rw [List.mem_singleton.mp isLast]
      simp [Expiry.setTimeout]
  · intro entry member
    rcases List.mem_append.mp member with old | isLast
    · exact Nat.lt_succ_of_lt (listed.known entry old)
    · rw [List.mem_singleton.mp isLast]
      exact Nat.lt_succ_self _
  · simp only [Expiry.setTimeout, List.map_append, List.map_cons, List.map_nil]
    refine List.nodup_append.mpr ⟨listed.apart, List.nodup_singleton _, ?_⟩
    intro iter member last isLast same
    rw [List.mem_singleton.mp isLast] at same
    obtain ⟨entry, old, rfl⟩ := List.mem_map.mp member
    exact absurd same (Nat.ne_of_lt (listed.known entry old))

theorem Listed.eraseTimeout (listed : Listed timeout Keys self) {key : FragmentKey}
    (isListed : Keys key) :
    Listed timeout (fun other => Keys other ∧ other ≠ key)
      (self.eraseTimeout (self.timeoutIter key)) := by
  have sublist : (self.eraseTimeout (self.timeoutIter key)).timeoutEventList.Sublist
      self.timeoutEventList := List.filter_sublist
  obtain ⟨target, isTarget, sameKey⟩ := List.mem_map.mp ((listed.keys key).mp isListed)
  -- An iterator is that of one key.
  have leads : ∀ entry ∈ self.timeoutEventList,
      entry.iter = self.timeoutIter key ↔ entry.key = key := by
    intro entry member
    constructor
    · intro same
      have target_iter := listed.iters target isTarget
      rw [sameKey, ← same] at target_iter
      rw [← sameKey, List.inj_on_of_nodup_map listed.apart isTarget member target_iter]
    · intro same
      rw [listed.iters entry member, same]
  constructor
  · intro other
    constructor
    · rintro ⟨isKey, different⟩
      obtain ⟨entry, member, rfl⟩ := List.mem_map.mp ((listed.keys other).mp isKey)
      refine List.mem_map_of_mem (List.mem_filter.mpr ⟨member, ?_⟩)
      simp [(leads entry member).not.mpr different]
    · intro member
      obtain ⟨entry, kept, rfl⟩ := List.mem_map.mp member
      obtain ⟨old, stays⟩ := List.mem_filter.mp kept
      refine ⟨(listed.keys _).mpr (List.mem_map_of_mem old), ?_⟩
      exact (leads entry old).not.mp (by simpa using stays)
  · exact listed.once.sublist (sublist.map _)
  · exact listed.ordered.sublist sublist
  · exact fun entry member => listed.served entry (sublist.subset member)
  · exact fun entry member => listed.due entry (sublist.subset member)
  · exact fun entry member => listed.recent entry (sublist.subset member)
  · exact listed.upcoming
  · exact fun entry member => listed.iters entry (sublist.subset member)
  · exact fun entry member => listed.known entry (sublist.subset member)
  · exact listed.apart.sublist (sublist.map _)

theorem Listed.lookUp (listed : Listed timeout self.Waits self) (arriving : Ipv4Fragment)
    (iif : Nat) :
    Listed timeout (fun key => self.Waits key ∨ key = fragmentKey arriving.header)
      (self.lookUp timeout arriving iif) := by
  unfold Expiry.lookUp
  dsimp only
  split
  next missing =>
    refine listed.setTimeout ?_ _ _
    unfold Waits
    rw [Option.isNone_iff_eq_none.mp missing]
    exact Bool.false_ne_true
  next found =>
    have waits : self.Waits (fragmentKey arriving.header) := by
      simpa [Waits, Option.isSome_iff_ne_none] using found
    have same : (fun key => self.Waits key ∨ key = fragmentKey arriving.header) = self.Waits := by
      funext key
      refine propext ⟨?_, .inl⟩
      rintro (old | rfl)
      · exact old
      · exact waits
    rw [same]
    exact listed

theorem lookUp_protocol (self : Expiry) (arriving : Ipv4Fragment) (iif : Nat) :
    (self.lookUp timeout arriving iif).protocol = self.protocol := by
  unfold Expiry.lookUp
  dsimp only
  split <;> rfl

/-- The datagrams that wait once a fragment has been processed. -/
theorem waits_processFragment (self : Ipv4L3Protocol) (arriving : Ipv4Fragment)
    (key : FragmentKey) :
    ((self.processFragment arriving).1.fragments key).isSome ↔
      if (self.processFragment arriving).2.isSome then
        (self.fragments key).isSome ∧ key ≠ fragmentKey arriving.header
      else (self.fragments key).isSome ∨ key = fragmentKey arriving.header := by
  unfold Ipv4L3Protocol.processFragment
  dsimp only
  by_cases same : key = fragmentKey arriving.header
  · subst same
    split <;> simp
  · split <;> simp [same]

/-- The list does not depend on the fragments themselves. -/
theorem Listed.of_fields (listed : Listed timeout Keys self) (protocol : Ipv4L3Protocol) :
    Listed timeout Keys { self with protocol } :=
  { listed with }

theorem Listed.arrive (listed : Listed timeout self.Waits self) (arriving : Ipv4Fragment)
    (iif : Nat) :
    Listed timeout (self.processFragment timeout arriving iif).1.Waits
      (self.processFragment timeout arriving iif).1 := by
  have found := (listed.lookUp arriving iif).of_fields
    (self.protocol.processFragment arriving).1
  have waits := waits_processFragment self.protocol arriving
  unfold Expiry.processFragment
  dsimp only
  rw [lookUp_protocol]
  split
  next complete =>
    simp only [complete, if_true] at waits
    have erased := found.eraseTimeout (.inr rfl : self.Waits _ ∨ _ = fragmentKey arriving.header)
    refine { erased with keys := fun key => ?_ }
    refine (waits key).trans (Iff.trans ?_ (erased.keys key))
    constructor
    · exact fun ⟨old, different⟩ => ⟨.inl old, different⟩
    · rintro ⟨old | same, different⟩
      · exact ⟨old, different⟩
      · exact absurd same different
  next incomplete =>
    simp only [incomplete] at waits
    exact { found with keys := fun key => (waits key).trans (found.keys key) }

theorem Listed.step (listed : Listed timeout self.Waits self) {event : Event}
    (enabled : self.Enabled event) :
    Listed timeout (self.step timeout event).Waits (self.step timeout event) := by
  cases event with
  | arrive arriving iif => exact listed.arrive arriving iif
  | fire =>
      obtain ⟨after, same, handled⟩ := listed.handleTimeout
      change Listed timeout (self.handleTimeout.getD self).Waits (self.handleTimeout.getD self)
      rw [same]
      exact listed.fire handled
  | advance time => exact listed.advance enabled

theorem Listed.consistent (listed : Listed timeout self.Waits self) : Consistent timeout self where
  waits := listed.keys
  once := listed.once
  ordered := listed.ordered
  served entry isFirst := by
    obtain ⟨event, isPending, before⟩ := listed.served entry (List.mem_of_head? isFirst)
    exact ⟨event, isPending, listed.upcoming event isPending, before⟩
  due entry member := ⟨listed.due entry member, listed.now_le entry member⟩
  quiet silent entry member := by
    obtain ⟨event, isPending, before⟩ := listed.served entry member
    have upcoming := listed.upcoming event isPending
    have different : event ≠ self.now := fun same => silent (same ▸ isPending)
    omega
  handles := by
    obtain ⟨after, same, -⟩ := listed.handleTimeout
    rw [same]
    rfl

theorem Listed.tracks (listed : Listed timeout self.Waits self) (event : Event) :
    Tracks timeout self event (self.step timeout event) := by
  cases event with
  | arrive arriving iif =>
      have first : ∀ key, (self.processFragment timeout arriving iif).1.first key =
          (self.lookUp timeout arriving iif).first key := by
        intro key
        unfold Expiry.processFragment
        dsimp only
        split <;> rfl
      have waits : ∀ key, (self.processFragment timeout arriving iif).1.Waits key ↔
          ((self.protocol.processFragment arriving).1.fragments key).isSome := by
        intro key
        unfold Expiry.processFragment Waits
        dsimp only
        rw [lookUp_protocol]
        split <;> rfl
      have result : (self.processFragment timeout arriving iif).2 =
          (self.protocol.processFragment arriving).2 := by
        unfold Expiry.processFragment
        dsimp only
        rw [lookUp_protocol]
      have spec := waits_processFragment self.protocol arriving
      refine ⟨fun key not later => ?_, fun key before => ?_⟩
      · have isKey : key = fragmentKey arriving.header := by
          have known := (spec key).mp ((waits key).mp later)
          split at known
          · exact absurd known.1 not
          · exact known.resolve_left not
        subst isKey
        change (self.processFragment timeout arriving iif).1.first _ = _
        rw [first]
        simp only [Waits, Bool.not_eq_true, Option.isSome_eq_false_iff] at not
        simp [Expiry.lookUp, not, Expiry.setTimeout]
      · by_cases complete : (self.protocol.processFragment arriving).2.isSome ∧
            key = fragmentKey arriving.header
        · exact .inr (.inl ⟨arriving, iif, rfl, complete.2.symm, by rw [result]; exact complete.1⟩)
        · refine .inl ⟨(waits key).mpr ((spec key).mpr ?_), ?_⟩
          · split
            next isComplete => exact ⟨before, fun same => complete ⟨isComplete, same⟩⟩
            next => exact .inl before
          · change (self.processFragment timeout arriving iif).1.first _ = _
            rw [first]
            unfold Expiry.lookUp
            dsimp only
            split
            next missing =>
              have different : key ≠ fragmentKey arriving.header := by
                rintro rfl
                unfold Waits at before
                rw [Option.isNone_iff_eq_none.mp missing] at before
                exact nomatch before
              simp [Expiry.setTimeout, different]
            next => rfl
  | fire =>
      obtain ⟨after, same, handled⟩ := listed.handleTimeout
      have stepped : self.step timeout .fire = after := by
        change self.handleTimeout.getD self = after
        rw [same]
        rfl
      rw [stepped]
      refine ⟨fun key not later => absurd ?_ not, fun key before => ?_⟩
      · unfold Waits at later ⊢
        rw [handled.fragments key] at later
        split at later
        · exact nomatch later
        · exact later
      · by_cases expires : key ∈ self.expiring
        · obtain ⟨entry, taken, rfl⟩ := List.mem_map.mp expires
          have isDue := listed.due entry ((List.takeWhile_sublist _).subset taken)
          have isNow := List.mem_takeWhile_imp taken
          refine .inr (.inr ⟨rfl, ?_, handled.drops _ expires⟩)
          rw [← isDue]
          exact (of_decide_eq_true isNow).symm
        · refine .inl ⟨?_, congrFun handled.frame.2.2.2 key⟩
          unfold Waits at before ⊢
          rw [handled.fragments key, if_neg expires]
          exact before
  | advance time =>
      exact ⟨fun key not later => absurd later not, fun key before => .inl ⟨before, rfl⟩⟩

/-- In every state of every run the list and the datagrams that wait agree and an event comes
in time, and a datagram is dropped exactly when its time is over. -/
theorem consistent_tracks (timeout : Nat) (events : List Event)
    (legal : (machine timeout).Legal create events) :
    (machine timeout).Always (Consistent timeout) create events ∧
      (machine timeout).Along
        (fun self event => Tracks timeout self event ((machine timeout).step self event))
        create events := by
  have always : (machine timeout).Always (fun self => Listed timeout self.Waits self) create
      events :=
    Machine.Legal.always (fun _ _ listed enabled => listed.step enabled)
      (listed_create timeout) legal
  exact ⟨always.mono fun _ listed => listed.consistent,
    always.along (fun _ event listed _ => listed.tracks event) legal⟩

/-- Eight bytes of a datagram with this identification. -/
def part (identification fragmentOffset : Nat) (moreFragments : Bool) : Ipv4Fragment :=
  ⟨List.replicate 8 0, ⟨1, 2, identification, 17, fragmentOffset, moreFragments, 8⟩⟩

/-- Of two datagrams one becomes complete, and the event that it leaves behind finds the
other one before its time. -/
theorem consistent_tracks_stale :
    (machine 30).Always (Consistent 30) create
        [.arrive (part 3 0 true) 1, .advance 10, .arrive (part 4 0 true) 1, .advance 20,
          .arrive (part 3 8 false) 1, .advance 30, .fire, .advance 40, .fire] ∧
      (machine 30).Along
        (fun self event => Tracks 30 self event ((machine 30).step self event)) create
        [.arrive (part 3 0 true) 1, .advance 10, .arrive (part 4 0 true) 1, .advance 20,
          .arrive (part 3 8 false) 1, .advance 30, .fire, .advance 40, .fire] :=
  consistent_tracks 30 _ (by decide)

end Expiry

end Ipv4L3Protocol

end Ns3.Internet
