import Ns3.Library.Machine
import Mathlib.Data.BitVec
import Mathlib.Algebra.BigOperators.Group.Finset.Basic
import Mathlib.Data.List.Infix

/-!
The base class `ns3::QueueDisc` in a tree of queue discs.

A queue disc is named by its path, the indices of the classes that lead to it from the root,
the innermost one first. The internal queues and the children of a queue disc report to it
through trace sources, which is a walk along the path. What the derived classes do in
`DoEnqueue` and `DoDequeue` is left open: every sequence of the calls they have is a run of
the machine, and a frame has the item they were called with and the items they have taken.
-/

namespace Ns3.TrafficControl

open Library

/-- A `QueueDiscItem`: the packet it has, by its uid, and what `GetSize` returns. -/
structure QueueDiscItem where
  packet : Nat
  size : BitVec 32
  deriving DecidableEq, Repr

/-- `QueueSizeUnit` and the value of a `QueueSize`. -/
inductive QueueSize where
  | packets (value : BitVec 32)
  | bytes (value : BitVec 32)
  deriving DecidableEq, Repr

/-- A `Queue<QueueDiscItem>`. -/
structure Queue where
  maxSize : QueueSize := .packets (BitVec.allOnes 32)
  packets : List QueueDiscItem := []
  nBytes : BitVec 32 := 0
  nTotalReceivedBytes : BitVec 32 := 0
  nPackets : BitVec 32 := 0
  nTotalReceivedPackets : BitVec 32 := 0
  nTotalDroppedBytes : BitVec 32 := 0
  nTotalDroppedBytesBeforeEnqueue : BitVec 32 := 0
  nTotalDroppedBytesAfterDequeue : BitVec 32 := 0
  nTotalDroppedPackets : BitVec 32 := 0
  nTotalDroppedPacketsBeforeEnqueue : BitVec 32 := 0
  nTotalDroppedPacketsAfterDequeue : BitVec 32 := 0
  deriving DecidableEq, Repr

namespace Queue

/-- `GetCurrentSize () + item > GetMaxSize ()`. -/
def full (queue : Queue) (item : QueueDiscItem) : Bool :=
  match queue.maxSize with
  | .packets value => value < queue.nPackets + 1
  | .bytes value => value < queue.nBytes + item.size

/-- `Queue::DropBeforeEnqueue`, without its trace. -/
def dropBeforeEnqueue (queue : Queue) (item : QueueDiscItem) : Queue :=
  { queue with
    nTotalDroppedPackets := queue.nTotalDroppedPackets + 1
    nTotalDroppedPacketsBeforeEnqueue := queue.nTotalDroppedPacketsBeforeEnqueue + 1
    nTotalDroppedBytes := queue.nTotalDroppedBytes + item.size
    nTotalDroppedBytesBeforeEnqueue := queue.nTotalDroppedBytesBeforeEnqueue + item.size }

/-- `Queue::DropAfterDequeue`, without its trace. -/
def dropAfterDequeue (queue : Queue) (item : QueueDiscItem) : Queue :=
  { queue with
    nTotalDroppedPackets := queue.nTotalDroppedPackets + 1
    nTotalDroppedPacketsAfterDequeue := queue.nTotalDroppedPacketsAfterDequeue + 1
    nTotalDroppedBytes := queue.nTotalDroppedBytes + item.size
    nTotalDroppedBytesAfterDequeue := queue.nTotalDroppedBytesAfterDequeue + item.size }

/-- `Queue::DoEnqueue` once the size has been checked. -/
def insert (queue : Queue) (position : Nat) (item : QueueDiscItem) : Queue :=
  { queue with
    packets := queue.packets.insertIdx position item
    nBytes := queue.nBytes + item.size
    nTotalReceivedBytes := queue.nTotalReceivedBytes + item.size
    nPackets := queue.nPackets + 1
    nTotalReceivedPackets := queue.nTotalReceivedPackets + 1 }

/-- The item that `DoDequeue` and `DoRemove` find, if the queue is not empty. -/
def item? (queue : Queue) (position : Nat) : Option QueueDiscItem :=
  if queue.nPackets = 0 then none else queue.packets[position]?

/-- The item goes out of the list. -/
def erase (queue : Queue) (position : Nat) (item : QueueDiscItem) : Queue :=
  { queue with
    packets := queue.packets.eraseIdx position
    nBytes := queue.nBytes - item.size
    nPackets := queue.nPackets - 1 }

end Queue

/-- `QueueDisc::Stats`. -/
structure Stats where
  nTotalReceivedPackets : BitVec 32 := 0
  nTotalReceivedBytes : BitVec 64 := 0
  nTotalEnqueuedPackets : BitVec 32 := 0
  nTotalEnqueuedBytes : BitVec 64 := 0
  nTotalDequeuedPackets : BitVec 32 := 0
  nTotalDequeuedBytes : BitVec 64 := 0
  nTotalDroppedPackets : BitVec 32 := 0
  nTotalDroppedPacketsBeforeEnqueue : BitVec 32 := 0
  nDroppedPacketsBeforeEnqueue : String → BitVec 32 := fun _ => 0
  nTotalDroppedPacketsAfterDequeue : BitVec 32 := 0
  nDroppedPacketsAfterDequeue : String → BitVec 32 := fun _ => 0
  nTotalDroppedBytes : BitVec 64 := 0
  nTotalDroppedBytesBeforeEnqueue : BitVec 64 := 0
  nDroppedBytesBeforeEnqueue : String → BitVec 64 := fun _ => 0
  nTotalDroppedBytesAfterDequeue : BitVec 64 := 0
  nDroppedBytesAfterDequeue : String → BitVec 64 := fun _ => 0
  nTotalRequeuedPackets : BitVec 32 := 0
  nTotalRequeuedBytes : BitVec 64 := 0

/-- The items that `Enqueue` was called with and those that the trace sources of a queue disc
were fired for. -/
structure Traces where
  received : Multiset QueueDiscItem := 0
  enqueue : Multiset QueueDiscItem := 0
  dequeue : Multiset QueueDiscItem := 0
  dropBeforeEnqueue : Multiset QueueDiscItem := 0
  dropAfterDequeue : Multiset QueueDiscItem := 0

/-- The members of a `QueueDisc` that its base class works on. -/
structure QueueDisc where
  nPackets : BitVec 32 := 0
  nBytes : BitVec 32 := 0
  stats : Stats := {}
  peeked : Bool := false
  requeued : Option QueueDiscItem := none
  queues : List Queue := []
  traces : Traces := {}

namespace QueueDisc

/-- What `Enqueue` does before it calls `DoEnqueue`. -/
def countReceived (disc : QueueDisc) (item : QueueDiscItem) : QueueDisc :=
  { disc with
    stats := { disc.stats with
      nTotalReceivedPackets := disc.stats.nTotalReceivedPackets + 1
      nTotalReceivedBytes := disc.stats.nTotalReceivedBytes + item.size.setWidth 64 }
    traces := { disc.traces with received := item ::ₘ disc.traces.received } }

/-- `PacketEnqueued` on the queue disc itself. -/
def countEnqueued (disc : QueueDisc) (item : QueueDiscItem) : QueueDisc :=
  { disc with
    nPackets := disc.nPackets + 1
    nBytes := disc.nBytes + item.size
    stats := { disc.stats with
      nTotalEnqueuedPackets := disc.stats.nTotalEnqueuedPackets + 1
      nTotalEnqueuedBytes := disc.stats.nTotalEnqueuedBytes + item.size.setWidth 64 }
    traces := { disc.traces with enqueue := item ::ₘ disc.traces.enqueue } }

/-- `PacketDequeued` on the queue disc itself, unless a peek holds it back. -/
def countDequeued (disc : QueueDisc) (item : QueueDiscItem) : QueueDisc :=
  { disc with
    nPackets := disc.nPackets - 1
    nBytes := disc.nBytes - item.size
    stats := { disc.stats with
      nTotalDequeuedPackets := disc.stats.nTotalDequeuedPackets + 1
      nTotalDequeuedBytes := disc.stats.nTotalDequeuedBytes + item.size.setWidth 64 }
    traces := { disc.traces with dequeue := item ::ₘ disc.traces.dequeue } }

/-- `DropBeforeEnqueue` on the queue disc itself. -/
def countDroppedBefore (disc : QueueDisc) (item : QueueDiscItem) (reason : String) : QueueDisc :=
  { disc with
    stats := { disc.stats with
      nTotalDroppedPackets := disc.stats.nTotalDroppedPackets + 1
      nTotalDroppedBytes := disc.stats.nTotalDroppedBytes + item.size.setWidth 64
      nTotalDroppedPacketsBeforeEnqueue := disc.stats.nTotalDroppedPacketsBeforeEnqueue + 1
      nTotalDroppedBytesBeforeEnqueue :=
        disc.stats.nTotalDroppedBytesBeforeEnqueue + item.size.setWidth 64
      nDroppedPacketsBeforeEnqueue := Function.update disc.stats.nDroppedPacketsBeforeEnqueue
        reason (disc.stats.nDroppedPacketsBeforeEnqueue reason + 1)
      nDroppedBytesBeforeEnqueue := Function.update disc.stats.nDroppedBytesBeforeEnqueue
        reason (disc.stats.nDroppedBytesBeforeEnqueue reason + item.size.setWidth 64) }
    traces := { disc.traces with dropBeforeEnqueue := item ::ₘ disc.traces.dropBeforeEnqueue } }

/-- `DropAfterDequeue` on the queue disc itself. -/
def countDroppedAfter (disc : QueueDisc) (item : QueueDiscItem) (reason : String) : QueueDisc :=
  { disc with
    stats := { disc.stats with
      nTotalDroppedPackets := disc.stats.nTotalDroppedPackets + 1
      nTotalDroppedBytes := disc.stats.nTotalDroppedBytes + item.size.setWidth 64
      nTotalDroppedPacketsAfterDequeue := disc.stats.nTotalDroppedPacketsAfterDequeue + 1
      nTotalDroppedBytesAfterDequeue :=
        disc.stats.nTotalDroppedBytesAfterDequeue + item.size.setWidth 64
      nDroppedPacketsAfterDequeue := Function.update disc.stats.nDroppedPacketsAfterDequeue
        reason (disc.stats.nDroppedPacketsAfterDequeue reason + 1)
      nDroppedBytesAfterDequeue := Function.update disc.stats.nDroppedBytesAfterDequeue
        reason (disc.stats.nDroppedBytesAfterDequeue reason + item.size.setWidth 64) }
    traces := { disc.traces with dropAfterDequeue := item ::ₘ disc.traces.dropAfterDequeue } }

/-- What `Requeue` does. -/
def requeue (disc : QueueDisc) (item : QueueDiscItem) : QueueDisc :=
  { disc with
    requeued := some item
    stats := { disc.stats with
      nTotalRequeuedPackets := disc.stats.nTotalRequeuedPackets + 1
      nTotalRequeuedBytes := disc.stats.nTotalRequeuedBytes + item.size.setWidth 64 } }

/-- Write `m_peeked`. -/
def setPeeked (disc : QueueDisc) (peeked : Bool) : QueueDisc :=
  { disc with peeked := peeked }

/-- Write `m_requeued`. -/
def setRequeued (disc : QueueDisc) (requeued : Option QueueDiscItem) : QueueDisc :=
  { disc with requeued := requeued }

/-- Change the internal queue of an index. -/
def modifyQueue (disc : QueueDisc) (index : Nat) (change : Queue → Queue) : QueueDisc :=
  { disc with queues := disc.queues.modify index change }

/-- The items in the internal queues, and the one that a peek has taken out of them. -/
def own (disc : QueueDisc) : Multiset QueueDiscItem :=
  (disc.queues.map fun queue => (queue.packets : Multiset QueueDiscItem)).sum +
    if disc.peeked then (disc.requeued.toList : Multiset QueueDiscItem) else 0

end QueueDisc

/-- The indices of the classes from a queue disc up to the root. -/
abbrev Path := List Nat

/-- A tree of queue discs; a path that no class leads to has a queue disc that is never
used. -/
structure Tree where
  discs : Path → QueueDisc
  paths : Finset Path

namespace Tree

/-- Change the queue disc of a path. -/
def modify (tree : Tree) (path : Path) (change : QueueDisc → QueueDisc) : Tree :=
  { tree with discs := Function.update tree.discs path (change (tree.discs path)) }

/-- `QueueDisc::INTERNAL_QUEUE_DROP`. -/
def internalQueueDrop : String := "Dropped by internal queue"

/-- `QueueDisc::CHILD_QUEUE_DISC_DROP`. -/
def childQueueDiscDrop : String := "(Dropped by child queue disc) "

/-- `PacketEnqueued`, called on the parent by the trace `Enqueue`. -/
def packetEnqueued (item : QueueDiscItem) : Path → Tree → Tree
  | [], tree => tree.modify [] (·.countEnqueued item)
  | index :: parent, tree =>
      packetEnqueued item parent (tree.modify (index :: parent) (·.countEnqueued item))

/-- `PacketDequeued`, called on the parent by the trace `Dequeue`. -/
def packetDequeued (item : QueueDiscItem) : Path → Tree → Tree
  | [], tree =>
      if (tree.discs []).peeked then tree else tree.modify [] (·.countDequeued item)
  | index :: parent, tree =>
      if (tree.discs (index :: parent)).peeked then tree
      else packetDequeued item parent (tree.modify (index :: parent) (·.countDequeued item))

/-- `DropBeforeEnqueue`, called on the parent by the trace of the same name. -/
def dropBeforeEnqueue (item : QueueDiscItem) : Path → String → Tree → Tree
  | [], reason, tree => tree.modify [] (·.countDroppedBefore item reason)
  | index :: parent, reason, tree =>
      dropBeforeEnqueue item parent (childQueueDiscDrop ++ reason)
        (tree.modify (index :: parent) (·.countDroppedBefore item reason))

/-- The part of `DropAfterDequeue` before its traces. -/
def dropDequeued (item : QueueDiscItem) (path : Path) (reason : String) (tree : Tree) : Tree :=
  let counted := tree.modify path (·.countDroppedAfter item reason)
  if (tree.discs path).peeked then
    (packetDequeued item path (counted.modify path (·.setPeeked false))).modify path
      (·.setPeeked true)
  else counted

/-- `DropAfterDequeue`, called on the parent by the trace of the same name. -/
def dropAfterDequeue (item : QueueDiscItem) : Path → String → Tree → Tree
  | [], reason, tree => dropDequeued item [] reason tree
  | index :: parent, reason, tree =>
      dropAfterDequeue item parent (childQueueDiscDrop ++ reason)
        (dropDequeued item (index :: parent) reason tree)

/-- The internal queue of an index, `GetInternalQueue`. -/
def queue? (tree : Tree) (path : Path) (index : Nat) : Option Queue :=
  (tree.discs path).queues[index]?

/-- `Queue::DoEnqueue` of an internal queue, with its traces. -/
def enqueueInternal (tree : Tree) (path : Path) (index position : Nat)
    (item : QueueDiscItem) : Tree :=
  match tree.queue? path index with
  | none => tree
  | some queue =>
      if queue.full item then
        dropBeforeEnqueue item path internalQueueDrop
          (tree.modify path (·.modifyQueue index (·.dropBeforeEnqueue item)))
      else
        packetEnqueued item path
          (tree.modify path (·.modifyQueue index (·.insert position item)))

/-- The item that a dequeue from an internal queue finds. -/
def item? (tree : Tree) (path : Path) (index position : Nat) : Option QueueDiscItem :=
  (tree.queue? path index).bind (·.item? position)

/-- `Queue::DoDequeue` of an internal queue, with its trace. -/
def dequeueInternal (tree : Tree) (path : Path) (index position : Nat) : Tree :=
  match tree.item? path index position with
  | none => tree
  | some item =>
      packetDequeued item path
        (tree.modify path (·.modifyQueue index (·.erase position item)))

/-- `Queue::DoRemove` of an internal queue, with its traces. -/
def removeInternal (tree : Tree) (path : Path) (index position : Nat) : Tree :=
  match tree.item? path index position with
  | none => tree
  | some item =>
      dropAfterDequeue item path internalQueueDrop
        ((tree.dequeueInternal path index position).modify path
          (·.modifyQueue index (·.dropAfterDequeue item)))

/-- The items that are held by a queue disc and by those below it. -/
def held (tree : Tree) (path : Path) : Multiset QueueDiscItem :=
  ∑ below ∈ tree.paths with path <:+ below, (tree.discs below).own

end Tree

/-- Which call of the base class runs the code of the derived class. A derived class may have
a `DoPeek` of its own. -/
inductive Role where
  | enqueue
  | dequeue
  | peek
  | browse
  deriving DecidableEq, Repr

/-- A call of `DoEnqueue`, `DoDequeue` or `DoPeek` that has not returned: the item that is
still to be enqueued or dropped, and the items that are dequeued but neither dropped nor
returned. -/
structure Frame where
  path : Path
  role : Role
  pending : Option QueueDiscItem := none
  hand : List QueueDiscItem := []
  deriving DecidableEq, Repr

/-- The tree, and the calls that are running, the innermost one first. -/
structure Session where
  tree : Tree
  frames : List Frame

/-- The calls on the root from outside and the calls that the running code makes. -/
inductive Action where
  | addInternalQueue (path : Path) (maxSize : QueueSize)
  | addQueueDiscClass (path : Path) (index : Nat)
  | enqueueRoot (item : QueueDiscItem)
  | dequeueRoot
  | peekRoot
  | browseRoot
  | requeueRoot (item : QueueDiscItem)
  | enqueueInternal (index position : Nat)
  | enqueueClass (index : Nat)
  | dropBeforeEnqueue (reason : String)
  | dequeueInternal (index position : Nat)
  | removeInternal (index position : Nat)
  | dequeueClass (index : Nat)
  | peekClass (index : Nat)
  | browseClass (index : Nat)
  | dequeueInternalOfClass (index queue position : Nat)
  | removeInternalOfClass (index queue position : Nat)
  | dropAfterDequeue (chosen : Nat) (reason : String)
  | leave
  deriving DecidableEq, Repr

namespace Session

/-- An item is returned to the code that has called; outside the tree it is gone. -/
def deliver (item : QueueDiscItem) : List Frame → List Frame
  | [] => []
  | frame :: rest => { frame with hand := item :: frame.hand } :: rest

/-- `QueueDisc::Enqueue` up to the call of `DoEnqueue`. -/
def enqueue (session : Session) (path : Path) (item : QueueDiscItem) : Session :=
  ⟨session.tree.modify path (·.countReceived item),
    { path, role := .enqueue, pending := some item } :: session.frames⟩

/-- `QueueDisc::Dequeue` up to the call of `DoDequeue`, if there is one. -/
def dequeue (session : Session) (path : Path) : Session :=
  match (session.tree.discs path).requeued with
  | some item =>
      let taken := session.tree.modify path (·.setRequeued none)
      if (session.tree.discs path).peeked then
        ⟨Tree.packetDequeued item path (taken.modify path (·.setPeeked false)),
          deliver item session.frames⟩
      else ⟨taken, deliver item session.frames⟩
  | none => ⟨session.tree, { path, role := .dequeue } :: session.frames⟩

/-- `QueueDisc::DoPeek` up to the call of `DoDequeue`, if there is one. -/
def peek (session : Session) (path : Path) : Session :=
  match (session.tree.discs path).requeued with
  | some _ => session
  | none =>
      ⟨session.tree.modify path (·.setPeeked true),
        { path, role := .peek } :: session.frames⟩

/-- A `DoPeek` of the derived class. -/
def browse (session : Session) (path : Path) : Session :=
  ⟨session.tree, { path, role := .browse } :: session.frames⟩

/-- The innermost call returns. -/
def leave (session : Session) (frame : Frame) (rest : List Frame) : Session :=
  match frame.role with
  | .enqueue => ⟨session.tree, rest⟩
  | .browse => ⟨session.tree, rest⟩
  | .dequeue =>
      match frame.hand with
      | [] => ⟨session.tree, rest⟩
      | item :: _ => ⟨session.tree, deliver item rest⟩
  | .peek =>
      match frame.hand with
      | [] => ⟨session.tree.modify frame.path (·.setPeeked false), rest⟩
      | item :: _ => ⟨session.tree.modify frame.path (·.setRequeued (some item)), rest⟩

/-- A call that the running code makes. -/
def call (session : Session) (frame : Frame) (rest : List Frame) : Action → Session
  | .enqueueInternal index position =>
      match frame.pending with
      | none => session
      | some item =>
          ⟨session.tree.enqueueInternal frame.path index position item,
            { frame with pending := none } :: rest⟩
  | .enqueueClass index =>
      match frame.pending with
      | none => session
      | some item =>
          enqueue ⟨session.tree, { frame with pending := none } :: rest⟩ (index :: frame.path) item
  | .dropBeforeEnqueue reason =>
      match frame.pending with
      | none => session
      | some item =>
          ⟨Tree.dropBeforeEnqueue item frame.path reason session.tree,
            { frame with pending := none } :: rest⟩
  | .dequeueInternal index position =>
      match session.tree.item? frame.path index position with
      | none => session
      | some item =>
          ⟨session.tree.dequeueInternal frame.path index position, deliver item session.frames⟩
  | .removeInternal index position =>
      ⟨session.tree.removeInternal frame.path index position, session.frames⟩
  | .dequeueClass index => session.dequeue (index :: frame.path)
  | .peekClass index => session.peek (index :: frame.path)
  | .browseClass index => session.browse (index :: frame.path)
  | .dequeueInternalOfClass index queue position =>
      match session.tree.item? (index :: frame.path) queue position with
      | none => session
      | some item =>
          ⟨session.tree.dequeueInternal (index :: frame.path) queue position,
            deliver item session.frames⟩
  | .removeInternalOfClass index queue position =>
      ⟨session.tree.removeInternal (index :: frame.path) queue position, session.frames⟩
  | .dropAfterDequeue chosen reason =>
      match frame.hand[chosen]? with
      | none => session
      | some item =>
          ⟨Tree.dropAfterDequeue item frame.path reason session.tree,
            { frame with hand := frame.hand.eraseIdx chosen } :: rest⟩
  | .leave => session.leave frame rest
  | _ => session

/-- One call. -/
def step (session : Session) : Action → Session
  | .addInternalQueue path maxSize =>
      ⟨session.tree.modify path fun disc =>
        { disc with queues := disc.queues ++ [{ maxSize }] }, session.frames⟩
  | .addQueueDiscClass path index =>
      ⟨{ session.tree with paths := insert (index :: path) session.tree.paths },
        session.frames⟩
  | .enqueueRoot item => session.enqueue [] item
  | .dequeueRoot => session.dequeue []
  | .peekRoot => session.peek []
  | .browseRoot => session.browse []
  | .requeueRoot item => ⟨session.tree.modify [] (·.requeue item), session.frames⟩
  | action =>
      match session.frames with
      | [] => session
      | frame :: rest => session.call frame rest action

/-- When the running code may make a call. An item is offered once, and no item is lost: what
`DoDequeue` has taken and does not return has been dropped. -/
def Callable (session : Session) (frame : Frame) : Action → Prop
  | .enqueueInternal index position =>
      frame.pending.isSome ∧
        ∃ queue ∈ session.tree.queue? frame.path index, position ≤ queue.packets.length
  | .enqueueClass index => frame.pending.isSome ∧ index :: frame.path ∈ session.tree.paths
  | .dropBeforeEnqueue _ => frame.pending.isSome
  | .dequeueInternal _ _ => True
  | .removeInternal _ _ => True
  | .dequeueClass index => index :: frame.path ∈ session.tree.paths
  | .peekClass index => index :: frame.path ∈ session.tree.paths
  | .browseClass index => index :: frame.path ∈ session.tree.paths
  | .dequeueInternalOfClass index _ _ => index :: frame.path ∈ session.tree.paths
  | .removeInternalOfClass index _ _ => index :: frame.path ∈ session.tree.paths
  | .dropAfterDequeue chosen _ => chosen < frame.hand.length
  | .leave =>
      frame.pending = none ∧
        match frame.role with
        | .enqueue => frame.hand = []
        | .browse => frame.hand = []
        | .dequeue => frame.hand.length ≤ 1
        | .peek => frame.hand.length ≤ 1
  | _ => False

instance decidableCallable (session : Session) (frame : Frame) :
    (action : Action) → Decidable (session.Callable frame action)
  | .enqueueInternal index position => inferInstanceAs (Decidable (frame.pending.isSome ∧
      ∃ queue ∈ session.tree.queue? frame.path index, position ≤ queue.packets.length))
  | .enqueueClass _ => inferInstanceAs (Decidable (_ ∧ _ ∈ session.tree.paths))
  | .dropBeforeEnqueue _ => inferInstanceAs (Decidable (frame.pending.isSome = true))
  | .dequeueInternal _ _ => .isTrue trivial
  | .removeInternal _ _ => .isTrue trivial
  | .dequeueClass _ => inferInstanceAs (Decidable (_ ∈ session.tree.paths))
  | .peekClass _ => inferInstanceAs (Decidable (_ ∈ session.tree.paths))
  | .browseClass _ => inferInstanceAs (Decidable (_ ∈ session.tree.paths))
  | .dequeueInternalOfClass _ _ _ => inferInstanceAs (Decidable (_ ∈ session.tree.paths))
  | .removeInternalOfClass _ _ _ => inferInstanceAs (Decidable (_ ∈ session.tree.paths))
  | .dropAfterDequeue _ _ => inferInstanceAs (Decidable (_ < frame.hand.length))
  | .leave =>
      have : Decidable (match frame.role with
          | .enqueue => frame.hand = []
          | .browse => frame.hand = []
          | .dequeue => frame.hand.length ≤ 1
          | .peek => frame.hand.length ≤ 1) :=
        match frame.role with
        | .enqueue => inferInstanceAs (Decidable (frame.hand = []))
        | .browse => inferInstanceAs (Decidable (frame.hand = []))
        | .dequeue => inferInstanceAs (Decidable (frame.hand.length ≤ 1))
        | .peek => inferInstanceAs (Decidable (frame.hand.length ≤ 1))
      inferInstanceAs (Decidable (frame.pending = none ∧ _))
  | .addInternalQueue _ _ => .isFalse id
  | .addQueueDiscClass _ _ => .isFalse id
  | .enqueueRoot _ => .isFalse id
  | .dequeueRoot => .isFalse id
  | .peekRoot => .isFalse id
  | .browseRoot => .isFalse id
  | .requeueRoot _ => .isFalse id

/-- When a call may be made. The root is called while nothing runs. `Restart` requeues the
packet that it has just dequeued, so nothing is requeued then. -/
def Enabled (session : Session) : Action → Prop
  | .addInternalQueue path _ => path ∈ session.tree.paths
  | .addQueueDiscClass path index =>
      path ∈ session.tree.paths ∧ index :: path ∉ session.tree.paths
  | .enqueueRoot _ => session.frames = []
  | .dequeueRoot => session.frames = []
  | .peekRoot => session.frames = []
  | .browseRoot => session.frames = []
  | .requeueRoot _ => session.frames = [] ∧ (session.tree.discs []).requeued = none
  | action => ∃ frame ∈ session.frames.head?, session.Callable frame action

instance decidableEnabled (session : Session) :
    (action : Action) → Decidable (session.Enabled action)
  | .addInternalQueue _ _ => inferInstanceAs (Decidable (_ ∈ session.tree.paths))
  | .addQueueDiscClass _ _ => inferInstanceAs (Decidable (_ ∈ session.tree.paths ∧ _))
  | .enqueueRoot _ => inferInstanceAs (Decidable (session.frames = []))
  | .dequeueRoot => inferInstanceAs (Decidable (session.frames = []))
  | .peekRoot => inferInstanceAs (Decidable (session.frames = []))
  | .browseRoot => inferInstanceAs (Decidable (session.frames = []))
  | .requeueRoot _ => inferInstanceAs (Decidable (session.frames = [] ∧ _ = none))
  | .enqueueInternal _ _ => inferInstanceAs (Decidable (∃ frame ∈ session.frames.head?, _))
  | .enqueueClass _ => inferInstanceAs (Decidable (∃ frame ∈ session.frames.head?, _))
  | .dropBeforeEnqueue _ => inferInstanceAs (Decidable (∃ frame ∈ session.frames.head?, _))
  | .dequeueInternal _ _ => inferInstanceAs (Decidable (∃ frame ∈ session.frames.head?, _))
  | .removeInternal _ _ => inferInstanceAs (Decidable (∃ frame ∈ session.frames.head?, _))
  | .dequeueClass _ => inferInstanceAs (Decidable (∃ frame ∈ session.frames.head?, _))
  | .peekClass _ => inferInstanceAs (Decidable (∃ frame ∈ session.frames.head?, _))
  | .browseClass _ => inferInstanceAs (Decidable (∃ frame ∈ session.frames.head?, _))
  | .dequeueInternalOfClass _ _ _ => inferInstanceAs (Decidable (∃ frame ∈ session.frames.head?, _))
  | .removeInternalOfClass _ _ _ => inferInstanceAs (Decidable (∃ frame ∈ session.frames.head?, _))
  | .dropAfterDequeue _ _ => inferInstanceAs (Decidable (∃ frame ∈ session.frames.head?, _))
  | .leave => inferInstanceAs (Decidable (∃ frame ∈ session.frames.head?, _))

/-- A root without internal queues and classes. -/
def start : Session := ⟨⟨fun _ => {}, {[]}⟩, []⟩

/-- The machine whose runs are all the ways to use a tree of queue discs. -/
def machine : Machine Session Action := ⟨step, Enabled⟩

instance (session : Session) (action : Action) : Decidable (machine.Enabled session action) :=
  decidableEnabled session action

end Session

end Ns3.TrafficControl
