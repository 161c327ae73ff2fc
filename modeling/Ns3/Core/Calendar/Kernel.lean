import Ns3.Core.ListScheduler
import Ns3.Library.Word

/-!
`CalendarScheduler`, a calendar queue.

The buckets cover one year of days of `width` time units each. A search starts
at the day of the event removed last and looks at one bucket after the other
for an event of the current day; when a whole year has none, it falls back on
the least event it saw. Time stamps and bucket tops are 64-bit words, the
number of stored events is a 32-bit word.
-/

namespace Ns3.Core

open Library

/-- The class `CalendarScheduler`. -/
structure CalendarScheduler where
  buckets : List (List Event)
  nBuckets : Nat
  width : Nat
  lastBucket : Nat
  bucketTop : Nat
  lastPrio : Nat
  qSize : Nat
  reverse : Bool
  deriving DecidableEq, Repr

namespace CalendarScheduler

/-- `NextEvent`, which `SetReverse` points at the front or the back. -/
def nextEvent (reverse : Bool) (bucket : List Event) : Event :=
  if reverse then bucket.getLastD ⟨0, 0, 0, 0⟩ else bucket.headD ⟨0, 0, 0, 0⟩

/-- `Order`. -/
def order (reverse : Bool) (a b : EventKey) : Bool :=
  if reverse then a.gt b else a.lt b

/-- `Pop`. -/
def pop (reverse : Bool) (bucket : List Event) : List Event :=
  if reverse then bucket.dropLast else bucket.tail

/-- `m_buckets[i]`. -/
def bucket (self : CalendarScheduler) (i : Nat) : List Event := self.buckets.getD i []

def hash (self : CalendarScheduler) (ts : Nat) : Nat := (ts / self.width) % self.nBuckets

/-- `Init`; the size of the queue and the order are set elsewhere. -/
def init (self : CalendarScheduler) (nBuckets width startPrio : Nat) : CalendarScheduler :=
  { self with
    buckets := List.replicate nBuckets []
    nBuckets := nBuckets
    width := width
    lastPrio := startPrio
    lastBucket := (startPrio / width) % nBuckets
    bucketTop := wrap 64 ((startPrio / width + 1) * width) }

/-- The constructor, with the attribute `Reverse`. -/
def create (reverse : Bool) : CalendarScheduler :=
  init ⟨[], 0, 0, 0, 0, 0, 0, reverse⟩ 2 1 0

def doInsert (self : CalendarScheduler) (ev : Event) : CalendarScheduler :=
  { self with
    buckets := self.buckets.modify (self.hash ev.key.ts)
      (insertInOrder (order self.reverse) ev) }

def isEmpty (self : CalendarScheduler) : Bool := self.qSize = 0

/-- The loop shared by `PeekNext` and `DoRemoveNext`: stop at a bucket whose
next event is due before the top of the current day, and otherwise let `visit`
update what the loop keeps. It ends when it is back at the bucket it started
from, so `nBuckets` rounds are enough. -/
def search {Kept : Type} (self : CalendarScheduler) (visit : Kept → Nat → Event → Kept) :
    Nat → Nat → Nat → Kept → (Nat × Nat × Event) ⊕ Kept
  | 0, _, _, kept => .inr kept
  | rounds + 1, i, bucketTop, kept =>
      let next := nextEvent self.reverse (self.bucket i)
      if ¬ (self.bucket i).isEmpty ∧ next.key.ts < bucketTop then
        .inl (i, bucketTop, next)
      else
        let kept := if (self.bucket i).isEmpty then kept else visit kept i next
        let i := (i + 1) % self.nBuckets
        if i = self.lastBucket then
          .inr kept
        else
          self.search visit rounds i (wrap 64 (bucketTop + self.width)) kept

/-- How `PeekNext` starts out: no event is later. -/
def peekLimit : Event := ⟨0, 2 ^ 64 - 1, 2 ^ 32 - 1, 0⟩

def keepEvent (minEvent : Event) (_ : Nat) (next : Event) : Event :=
  if next.key.lt minEvent.key then next else minEvent

def peekNext (self : CalendarScheduler) : Event :=
  match self.search keepEvent self.nBuckets self.lastBucket self.bucketTop peekLimit with
  | .inl (_, _, next) => next
  | .inr minEvent => minEvent

/-- How `DoRemoveNext` starts out; `minBucket` is -1 there. -/
def removeLimit : EventKey × Option Nat := (⟨2 ^ 64 - 1, 0, 0xffffffff⟩, none)

def keepBucket (kept : EventKey × Option Nat) (i : Nat) (next : Event) :
    EventKey × Option Nat :=
  if next.key.lt kept.1 then (next.key, some i) else kept

def doRemoveNext (self : CalendarScheduler) : Event × CalendarScheduler :=
  match self.search keepBucket self.nBuckets self.lastBucket self.bucketTop removeLimit with
  | .inl (i, bucketTop, next) =>
      (next, { self with
        lastBucket := i
        lastPrio := next.key.ts
        bucketTop := bucketTop
        buckets := self.buckets.modify i (pop self.reverse) })
  | .inr (minKey, minBucket) =>
      let i := minBucket.getD self.nBuckets
      (nextEvent self.reverse (self.bucket i), { self with
        lastPrio := minKey.ts
        lastBucket := self.hash minKey.ts
        bucketTop := wrap 64 ((minKey.ts / self.width + 1) * self.width)
        buckets := self.buckets.modify i (pop self.reverse) })

/-- Remove up to `count` events, in the order in which they leave. -/
def gather (self : CalendarScheduler) : Nat → List Event × CalendarScheduler
  | 0 => ([], self)
  | count + 1 =>
      let removed := self.doRemoveNext
      let rest := removed.2.gather count
      (removed.1 :: rest.1, rest.2)

/-- The differences of successive time stamps. -/
def separations : List Event → List Nat
  | cur :: next :: rest => wrapSub 64 next.key.ts cur.key.ts :: separations (next :: rest)
  | _ => []

/-- The sum of 64-bit words. -/
def total (diffs : List Nat) : Nat := diffs.foldl (fun sum diff => wrap 64 (sum + diff)) 0

/-- The inter-time average over the samples, without the large separations. -/
def averageWidth (samples : List Event) : Nat :=
  let diffs := separations samples
  let twiceAvg := wrap 64 (total diffs / (samples.length - 1) * 2)
  max (wrap 64 (total (diffs.filter (· ≤ twiceAvg)) * 3)) 1

def nSamples (self : CalendarScheduler) : Nat :=
  min (if self.qSize ≤ 5 then self.qSize else 5 + self.qSize / 10) 25

/-- The sampled events leave the queue and are put back. -/
def calculateNewWidth (self : CalendarScheduler) : Nat × CalendarScheduler :=
  if self.qSize < 2 then
    (1, self)
  else
    let gathered := self.gather self.nSamples
    let refilled := gathered.1.foldl doInsert gathered.2
    (averageWidth gathered.1, { refilled with
      lastBucket := self.lastBucket
      bucketTop := self.bucketTop
      lastPrio := self.lastPrio })

def doResize (self : CalendarScheduler) (newSize newWidth : Nat) : CalendarScheduler :=
  self.buckets.flatten.foldl doInsert (self.init newSize newWidth self.lastPrio)

def resize (self : CalendarScheduler) (newSize : Nat) : CalendarScheduler :=
  let calculated := self.calculateNewWidth
  calculated.2.doResize newSize calculated.1

def resizeUp (self : CalendarScheduler) : CalendarScheduler :=
  if self.qSize > wrap 32 (self.nBuckets * 2) ∧ self.nBuckets < 32768 then
    self.resize (wrap 32 (self.nBuckets * 2))
  else
    self

def resizeDown (self : CalendarScheduler) : CalendarScheduler :=
  if self.qSize < self.nBuckets / 2 then
    self.resize (self.nBuckets / 2)
  else
    self

/-- `m_qSize = size`. -/
def setQSize (self : CalendarScheduler) (size : Nat) : CalendarScheduler :=
  { self with qSize := size }

def insert (self : CalendarScheduler) (ev : Event) : CalendarScheduler :=
  ((self.doInsert ev).setQSize (wrap 32 (self.qSize + 1))).resizeUp

def removeNext (self : CalendarScheduler) : Event × CalendarScheduler :=
  (self.doRemoveNext.1,
    (self.doRemoveNext.2.setQSize (wrapSub 32 self.doRemoveNext.2.qSize 1)).resizeDown)

def remove (self : CalendarScheduler) (ev : Event) : CalendarScheduler :=
  if (self.bucket (self.hash ev.key.ts)).any (fun stored => stored.key.uid = ev.key.uid) then
    (setQSize { self with
      buckets := self.buckets.modify (self.hash ev.key.ts) (eraseUid ev.key.uid) }
      (wrapSub 32 self.qSize 1)).resizeDown
  else
    self

end CalendarScheduler

/-- `CalendarScheduler` as a scheduler. -/
def calendarScheduler : Scheduler CalendarScheduler where
  insert := CalendarScheduler.insert
  isEmpty := CalendarScheduler.isEmpty
  peekNext := CalendarScheduler.peekNext
  removeNext := CalendarScheduler.removeNext
  remove := CalendarScheduler.remove

end Ns3.Core
