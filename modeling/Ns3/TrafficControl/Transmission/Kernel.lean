import Mathlib.Algebra.Order.Ring.Int
import Mathlib.Data.List.Basic

/-!
The transmit path of a root `ns3::QueueDisc`: `Run`, `Restart`, `DequeuePacket` and `Transmit`.

The derived class is left open. It has internal queues, which are FIFOs: `DoEnqueue` puts an item at
the end of one of them or drops it, and `DoDequeue` takes the first item of one of them. Both may
drop first items. A queue of the device may be stopped while the send callback runs, so `Run` is cut
there.
-/

namespace Ns3.TrafficControl.Transmission

/-- A `QueueDiscItem`, with the number of `Enqueue` calls before its own, the internal queue it was
put in, and how often `AddHeader` was called on it. -/
structure Item where
  number : Nat
  fifo : Nat
  txQueueIndex : Nat
  headers : Nat := 0
  deriving DecidableEq, Repr

/-- `AddHeader`. -/
def Item.addHeader (item : Item) : Item := { item with headers := item.headers + 1 }

/-- The number of transmit queues of the device, if it has an interface for them, and `m_quota`. -/
structure Config where
  nTxQueues : Option Nat
  quota : BitVec 32

/-- Where `Run` is: not running, before `Restart`, or in the send callback for an item. -/
inductive Phase
  | idle
  | restarting
  | sending (txQueueIndex : Nat)
  deriving DecidableEq, Repr

/-- What `DoDequeue` does: it drops the first items of some internal queues, and takes that of
another. -/
structure Choice where
  drops : List Nat := []
  fifo : Option Nat
  deriving DecidableEq, Repr

/-- The queue disc and the queues of the device. The items that the derived class has given and
those that were handed to the send callback are listed. -/
structure QueueDisc where
  fifos : List (List Item)
  requeued : Option Item := none
  peeked : Bool := false
  nPackets : BitVec 32 := 0
  quota : BitVec 32 := 0
  phase : Phase := .idle
  stopped : List Nat := []
  nextItem : Nat := 0
  dequeued : List Nat := []
  sent : List Item := []
  deriving DecidableEq, Repr

namespace QueueDisc

variable (config : Config) (disc : QueueDisc)

/-- `IsStopped`. Nothing is ever stopped if the device has no interface for its queues. -/
def isStopped (txQueueIndex : Nat) : Bool :=
  config.nTxQueues.isSome && disc.stopped.contains txQueueIndex

/-- The first item of an internal queue is taken out. -/
def removeHead (fifo : Nat) : Option (Item × QueueDisc) :=
  match disc.fifos[fifo]? with
  | some (item :: rest) => some (item, { disc with fifos := disc.fifos.set fifo rest })
  | _ => none

/-- `PacketDequeued`, which the internal queue calls. -/
def packetDequeued : QueueDisc :=
  if disc.peeked then disc else { disc with nPackets := disc.nPackets - 1 }

/-- The first item of an internal queue is dropped. `DropAfterDequeue` calls `PacketDequeued` if a
peek has held it back. -/
def dropHead (fifo : Nat) : QueueDisc :=
  match disc.removeHead fifo with
  | none => disc
  | some (_, disc) => { disc with nPackets := disc.nPackets - 1 }

/-- `Enqueue`. The item is dropped if no internal queue takes it. -/
def enqueue (txQueueIndex : Nat) (choice : Choice) : QueueDisc :=
  let disc : QueueDisc :=
    match choice.fifo with
    | none => disc
    | some fifo =>
        { disc with
          fifos := disc.fifos.modify fifo (· ++ [⟨disc.nextItem, fifo, txQueueIndex, 0⟩])
          nPackets := disc.nPackets + 1 }
  choice.drops.foldl dropHead { disc with nextItem := disc.nextItem + 1 }

/-- `DoDequeue`. -/
def doDequeue (choice : Choice) : QueueDisc × Option Item :=
  let disc := choice.drops.foldl dropHead disc
  match choice.fifo.bind disc.removeHead with
  | none => (disc, none)
  | some (item, disc) =>
      ({ disc.packetDequeued with dequeued := disc.dequeued ++ [item.number] }, some item)

/-- The item of `m_requeued` is taken out, and counted if a peek has put it there. -/
def takeRequeued : QueueDisc :=
  if disc.peeked then
    { disc with requeued := none, peeked := false, nPackets := disc.nPackets - 1 }
  else { disc with requeued := none }

/-- `Dequeue`. -/
def dequeue (choice : Choice) : QueueDisc × Option Item :=
  match disc.requeued with
  | some item => (disc.takeRequeued, some item)
  | none => disc.doDequeue choice

/-- `DoPeek`. -/
def doPeek (choice : Choice) : QueueDisc :=
  match disc.requeued with
  | some _ => disc
  | none =>
      match { disc with peeked := true }.dequeue choice with
      | (disc, none) => { disc with requeued := none, peeked := false }
      | (disc, some item) => { disc with requeued := some item }

/-- `DequeuePacket`. -/
def dequeuePacket (choice : Choice) : QueueDisc × Option Item :=
  match disc.requeued with
  | some item =>
      if disc.isStopped config item.txQueueIndex = false then (disc.takeRequeued, some item)
      else (disc, none)
  | none =>
      if config.nTxQueues = none ∨ (∃ count ∈ config.nTxQueues, 1 < count) ∨
          disc.isStopped config 0 = false then
        match disc.dequeue choice with
        | (disc, none) => (disc, none)
        | (disc, some item) => (disc, some item.addHeader)
      else (disc, none)

/-- `Transmit` up to the send callback. The item is requeued if its queue is stopped. -/
def transmit (item : Item) : QueueDisc :=
  if disc.isStopped config item.txQueueIndex then
    { disc with requeued := some item, phase := .idle }
  else { disc with sent := disc.sent ++ [item], phase := .sending item.txQueueIndex }

/-- `Restart`. -/
def restart (choice : Choice) : QueueDisc :=
  match disc.dequeuePacket config choice with
  | (disc, none) => { disc with phase := .idle }
  | (disc, some item) => disc.transmit config item

/-- `Run` up to the first `Restart`. -/
def run : QueueDisc :=
  match disc.phase with
  | .idle => { disc with quota := config.quota, phase := .restarting }
  | .restarting | .sending _ => disc

/-- The send callback returns, and the loop of `Run` goes on or ends. -/
def sendReturns : QueueDisc :=
  match disc.phase with
  | .sending txQueueIndex =>
      if disc.nPackets = 0 ∨ disc.isStopped config txQueueIndex = true then
        { disc with phase := .idle }
      else if disc.quota - 1 = 0 then { disc with quota := disc.quota - 1, phase := .idle }
      else { disc with quota := disc.quota - 1, phase := .restarting }
  | .idle | .restarting => disc

end QueueDisc

/-- What happens to the queue disc. -/
inductive Event
  | enqueue (txQueueIndex : Nat) (choice : Choice)
  | peek (choice : Choice)
  | run
  | restart (choice : Choice)
  | sendReturns
  | stop (txQueueIndex : Nat)
  | wake (txQueueIndex : Nat)
  deriving DecidableEq, Repr

namespace QueueDisc

/-- One event. -/
def step (config : Config) (disc : QueueDisc) : Event → QueueDisc
  | .enqueue txQueueIndex choice => disc.enqueue txQueueIndex choice
  | .peek choice => disc.doPeek choice
  | .run => disc.run config
  | .restart choice => disc.restart config choice
  | .sendReturns => disc.sendReturns config
  | .stop txQueueIndex => { disc with stopped := txQueueIndex :: disc.stopped }
  | .wake txQueueIndex => { disc with stopped := disc.stopped.filter (· ≠ txQueueIndex) }

/-- Nothing comes between the iterations of `Run` but the send callback. Items are put in an
internal queue that exists. -/
def Enabled (disc : QueueDisc) : Event → Prop
  | .enqueue _ choice => disc.phase ≠ .restarting ∧ ∀ fifo ∈ choice.fifo, fifo < disc.fifos.length
  | .peek _ | .run | .stop _ | .wake _ => disc.phase ≠ .restarting
  | .restart _ => disc.phase = .restarting
  | .sendReturns => ∃ txQueueIndex, disc.phase = .sending txQueueIndex

end QueueDisc

end Ns3.TrafficControl.Transmission
