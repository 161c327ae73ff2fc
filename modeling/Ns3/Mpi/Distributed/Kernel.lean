import Mathlib.Data.Multiset.Fold
import Ns3.Core.Simulator.Kernel
import Ns3.Mpi.LookAhead

/-!
`ns3::DistributedSimulatorImpl` with the granted time window interface to MPI.

The event list is a multiset: a scheduler hands out any event that is next. `Run` is in parts, which
end where a rank takes messages from the network or waits for the others, and where the body of an
event calls back into the simulator.
-/

namespace Ns3.Mpi

open Ns3.Core Library

/-- `LbtsMessage`. -/
structure LbtsMessage where
  txCount : Nat
  rxCount : Nat
  myId : Nat
  smallestTime : Int
  isFinished : Bool
  deriving DecidableEq, Repr

/-- Where a rank is in `Run`. -/
inductive Stage where
  /-- At the condition of the loop. -/
  | looping
  /-- In `ReceiveMessages`. -/
  | receiving
  /-- In `MPI_Allgather`. -/
  | gathering (nextTime : Int) (lMsg : LbtsMessage)
  /-- After `MPI_Allgather`. -/
  | gathered (nextTime : Int) (lbts : List LbtsMessage)
  /-- Before the test for the next event. -/
  | deciding (nextTime : Int)
  /-- In the body of an event. -/
  | handling
  /-- After the loop. -/
  | left
  deriving DecidableEq, Repr

/-- `ns3::DistributedSimulatorImpl` with the counts of its MPI interface and the `m_cancel` flags of
the event implementations. -/
structure DistributedSimulatorImpl where
  events : Multiset Event
  destroyEvents : List EventId
  stop : Bool
  globalFinished : Bool
  uid : Nat
  currentUid : Nat
  currentTs : Nat
  currentContext : Nat
  eventCount : Nat
  unscheduledEvents : Int
  lookAhead : Int
  grantedTime : Int
  rxCount : Nat
  txCount : Nat
  cancelled : List Nat
  stage : Stage
  deriving DecidableEq

namespace DistributedSimulatorImpl

variable (self : DistributedSimulatorImpl)

/-- `Run` up to its loop, with the events of the setup code. -/
def enterRun (events : Multiset Event) (uid : Nat) (lookAhead : Int) :
    DistributedSimulatorImpl where
  events := events
  destroyEvents := []
  stop := false
  globalFinished := false
  uid := uid
  currentUid := 0
  currentTs := 0
  currentContext := DefaultSimulatorImpl.noContext
  eventCount := 0
  unscheduledEvents := events.card
  lookAhead := lookAhead
  grantedTime := lookAhead
  rxCount := 0
  txCount := 0
  cancelled := []
  stage := .looping

/-- `IsLocalFinished`. -/
def isLocalFinished : Bool := decide (self.events = 0) || self.stop

/-- `m_events->PeekNext ().key.m_ts`. -/
def peekTs : Nat := (self.events.map fun ev => ev.key.ts).fold min maximumSimulationTime.toNat

/-- `NextTs`. -/
def nextTs : Nat :=
  if self.isLocalFinished then maximumSimulationTime.toNat else self.peekTs

/-- `Next`. -/
def next : Int := signed 64 self.nextTs

/-- `m_unscheduledEvents += change`, an `int`. -/
def countUnscheduled (change : Int) : Int := Int.bmod (self.unscheduledEvents + change) (2 ^ 32)

/-- `(uint64_t) (delay + TimeStep (m_currentTs)).GetTimeStep ()`. -/
def absolute (delay : Int) : Nat := wrapInt 64 (delay + self.currentTs)

/-- Give an event its unique id, count it, and insert it. -/
def enqueue (ts context event : Nat) : DistributedSimulatorImpl :=
  { self with
    uid := wrap 32 (self.uid + 1)
    unscheduledEvents := self.countUnscheduled 1
    events := ⟨event, ts, self.uid, context⟩ ::ₘ self.events }

/-- `Schedule`. -/
def schedule (delay : Int) (event : Nat) : DistributedSimulatorImpl :=
  self.enqueue (self.absolute delay) self.currentContext event

/-- `ScheduleWithContext`. -/
def scheduleWithContext (context : Nat) (delay : Int) (event : Nat) : DistributedSimulatorImpl :=
  self.enqueue (self.absolute delay) context event

/-- `ScheduleNow`. -/
def scheduleNow (event : Nat) : DistributedSimulatorImpl :=
  self.enqueue self.currentTs self.currentContext event

/-- `ScheduleDestroy`. -/
def scheduleDestroy (event : Nat) : DistributedSimulatorImpl :=
  { self with
    destroyEvents := self.destroyEvents ++ [⟨some event, self.currentTs, 0xffffffff, 2⟩]
    uid := wrap 32 (self.uid + 1) }

/-- `EventImpl::IsCancelled`. -/
def isCancelled (event : Nat) : Bool := decide (event ∈ self.cancelled)

/-- `IsExpired`. -/
def isExpired (id : EventId) : Bool :=
  match id.impl with
  | none => true
  | some event =>
      if id.uid = 2 then
        self.isCancelled event || !decide (id ∈ self.destroyEvents)
      else
        decide (id.ts < self.currentTs) ||
          decide (id.ts = self.currentTs ∧ id.uid ≤ self.currentUid) ||
          self.isCancelled event

/-- `Remove`. -/
def remove (id : EventId) : DistributedSimulatorImpl :=
  if id.uid = 2 then { self with destroyEvents := self.destroyEvents.erase id }
  else if self.isExpired id then self
  else
    match id.impl with
    | none => self
    | some event =>
        { self with
          events := self.events.erase ⟨event, id.ts, id.uid, id.context⟩
          cancelled := event :: self.cancelled
          unscheduledEvents := self.countUnscheduled (-1) }

/-- `Cancel`. -/
def cancel (id : EventId) : DistributedSimulatorImpl :=
  if self.isExpired id then self
  else
    match id.impl with
    | none => self
    | some event => { self with cancelled := event :: self.cancelled }

/-- `Stop`. -/
def stopRun : DistributedSimulatorImpl := { self with stop := true }

/-- The condition of the loop, and the test for a new time window. -/
def enterLoop : DistributedSimulatorImpl :=
  if self.globalFinished then { self with stage := .left }
  else if self.grantedTime < self.next ∨ self.isLocalFinished then { self with stage := .receiving }
  else { self with stage := .deciding self.next }

/-- A round of `ReceiveMessages`: `event` calls `MpiReceiver::Receive` on the node. -/
def receive (time node event : Nat) : DistributedSimulatorImpl :=
  ({ self with rxCount := wrap 32 (self.rxCount + 1) }).scheduleWithContext node
    (signed 64 time - self.currentTs) event

/-- The message that a rank contributes. -/
def lbtsMessage (myId : Nat) : LbtsMessage where
  txCount := self.txCount
  rxCount := self.rxCount
  myId := myId
  smallestTime := self.next
  isFinished := self.isLocalFinished

@[simp]
theorem lbtsMessage_smallestTime (myId : Nat) :
    (self.lbtsMessage myId).smallestTime = self.next := by
  rw [lbtsMessage]

/-- `Run` from the end of `ReceiveMessages` to `MPI_Allgather`. -/
def contribute (myId : Nat) : DistributedSimulatorImpl :=
  { self with stage := .gathering self.next (self.lbtsMessage myId) }

end DistributedSimulatorImpl

section Gathered

/-- The least time of the messages. -/
def smallestTime : List LbtsMessage → Int
  | [] => 0
  | first :: rest =>
      rest.foldl (fun smallest message =>
        if message.smallestTime < smallest then message.smallestTime else smallest)
        first.smallestTime

/-- The sum of a count of the messages. -/
def total (count : LbtsMessage → Nat) : List LbtsMessage → Nat
  | [] => 0
  | first :: rest => rest.foldl (fun sum message => wrap 32 (sum + count message)) (count first)

/-- There are no transient messages. -/
def noTransients (lbts : List LbtsMessage) : Bool :=
  decide (total LbtsMessage.rxCount lbts = total LbtsMessage.txCount lbts)

/-- The global halting condition. -/
def finished : List LbtsMessage → Bool
  | [] => false
  | first :: rest =>
      rest.foldl (fun finished message => finished && message.isFinished) first.isFinished &&
        noTransients (first :: rest)

end Gathered

namespace DistributedSimulatorImpl

variable (self : DistributedSimulatorImpl)

/-- `Run` from `MPI_Allgather` to the test for the next event. -/
def conclude (nextTime : Int) (lbts : List LbtsMessage) : DistributedSimulatorImpl :=
  { self with
    globalFinished := finished lbts
    grantedTime :=
      if noTransients lbts then
        if self.lookAhead = maximumSimulationTime then maximumSimulationTime
        -- The sum may overflow.
        else signed 64 (smallestTime lbts + self.lookAhead)
      else self.grantedTime
    stage := .deciding nextTime }

/-- The test for the next event. -/
def decides (nextTime : Int) : Bool :=
  decide (nextTime ≤ self.grantedTime) && !self.isLocalFinished

/-- `ProcessOneEvent` up to the call of `Invoke`. -/
def processOneEvent (next : Event) : DistributedSimulatorImpl :=
  { self with
    events := self.events.erase next
    unscheduledEvents := self.countUnscheduled (-1)
    eventCount := wrap 64 (self.eventCount + 1)
    currentTs := next.key.ts
    currentContext := next.key.context
    currentUid := next.key.uid
    stage := .handling }

/-- The end of the body of the loop. -/
def again : DistributedSimulatorImpl := { self with stage := .looping }

end DistributedSimulatorImpl

/-- The calls that the body of an event makes to its simulator. -/
inductive Call where
  | schedule (delay : Int) (event : Nat)
  | scheduleWithContext (context : Nat) (delay : Int) (event : Nat)
  | scheduleNow (event : Nat)
  | scheduleDestroy (event : Nat)
  | remove (id : EventId)
  | cancel (id : EventId)
  | stop
  deriving DecidableEq, Repr

/-- What a call does. -/
def DistributedSimulatorImpl.perform (self : DistributedSimulatorImpl) :
    Call → DistributedSimulatorImpl
  | .schedule delay event => self.schedule delay event
  | .scheduleWithContext context delay event => self.scheduleWithContext context delay event
  | .scheduleNow event => self.scheduleNow event
  | .scheduleDestroy event => self.scheduleDestroy event
  | .remove id => self.remove id
  | .cancel id => self.cancel id
  | .stop => self.stopRun

/-- A delay from now on that time can represent. -/
def DistributedSimulatorImpl.Fits (self : DistributedSimulatorImpl) (delay : Int) : Prop :=
  0 ≤ delay ∧ self.currentTs + delay < 2 ^ 63

instance (self : DistributedSimulatorImpl) (delay : Int) : Decidable (self.Fits delay) :=
  inferInstanceAs (Decidable (_ ∧ _))

/-- What a caller promises. -/
def Call.Admits (self : DistributedSimulatorImpl) : Call → Prop
  | .schedule delay _ => self.Fits delay
  | .scheduleWithContext _ delay _ => self.Fits delay
  | _ => True

/-- A packet on its way to a rank. -/
structure Message (size : Nat) where
  rank : Fin size
  time : Nat
  node : Nat
  dev : Nat
  packet : Nat
  deriving DecidableEq, Repr

/-- The ranks, and the messages on their way between them. -/
structure Cluster (size : Nat) where
  impl : Fin size → DistributedSimulatorImpl
  inFlight : List (Message size)

namespace Cluster

variable {size : Nat} (cluster : Cluster size) (rank : Fin size)

/-- One rank goes on. -/
def goOn (impl : DistributedSimulatorImpl) : Cluster size :=
  { cluster with impl := Function.update cluster.impl rank impl }

/-- `MPI_Allgather`. -/
def allgather : Cluster size :=
  let lbts := List.ofFn fun rank =>
    match (cluster.impl rank).stage with
    | .gathering _ lMsg => lMsg
    | _ => (cluster.impl rank).lbtsMessage rank
  { cluster with
    impl := fun rank =>
      match (cluster.impl rank).stage with
      | .gathering nextTime _ => { cluster.impl rank with stage := .gathered nextTime lbts }
      | _ => cluster.impl rank }

/-- `PointToPointRemoteChannel::TransmitStart` and `SendPacket`. -/
def transmitStart (dst : Fin size) (delay txTime : Int) (node dev packet : Nat) : Cluster size :=
  let self := cluster.impl rank
  let message : Message size :=
    ⟨dst, wrapInt 64 (self.currentTs + txTime + delay), node, dev, packet⟩
  { cluster.goOn rank { self with txCount := wrap 32 (self.txCount + 1) } with
    inFlight := message :: cluster.inFlight }

end Cluster

/-- The steps of a run. -/
inductive Action (size : Nat) where
  | loop (rank : Fin size)
  | receive (message : Message size) (event : Nat)
  | contribute (rank : Fin size)
  | allgather
  | conclude (rank : Fin size)
  | processOneEvent (rank : Fin size) (next : Event)
  | skip (rank : Fin size)
  | call (rank : Fin size) (call : Call)
  | transmitStart (rank : Fin size) (device : NetDevice size) (channel : Channel size)
      (txTime : Int) (node dev packet : Nat)
  | finishEvent (rank : Fin size)

namespace Cluster

variable {size : Nat} (network : Network size) (bound : Fin size → Int)

/-- Every rank enters `Run`. -/
def enterRun (events : Fin size → Multiset Event) (uid : Fin size → Nat) : Cluster size where
  impl rank := .enterRun (events rank) (uid rank) (calculateLookAhead network.nodes bound rank)
  inFlight := []

/-- What a step does. -/
def step (cluster : Cluster size) : Action size → Cluster size
  | .loop rank => cluster.goOn rank (cluster.impl rank).enterLoop
  | .receive message event =>
      { cluster.goOn message.rank
          ((cluster.impl message.rank).receive message.time message.node event) with
        inFlight := cluster.inFlight.erase message }
  | .contribute rank => cluster.goOn rank ((cluster.impl rank).contribute rank)
  | .allgather => cluster.allgather
  | .conclude rank =>
      match (cluster.impl rank).stage with
      | .gathered nextTime lbts => cluster.goOn rank ((cluster.impl rank).conclude nextTime lbts)
      | _ => cluster
  | .processOneEvent rank next => cluster.goOn rank ((cluster.impl rank).processOneEvent next)
  | .skip rank => cluster.goOn rank (cluster.impl rank).again
  | .call rank call => cluster.goOn rank ((cluster.impl rank).perform call)
  | .transmitStart rank device channel txTime node dev packet =>
      cluster.transmitStart rank (device.remoteSystemId channel) channel.delay txTime node dev
        packet
  | .finishEvent rank => cluster.goOn rank (cluster.impl rank).again

/-- The rank is before the test for the next event, which comes out as it is told. -/
def Decides (self : DistributedSimulatorImpl) (decision : Bool) : Prop :=
  ∃ nextTime, self.stage = .deciding nextTime ∧ self.decides nextTime = decision

/-- Where a rank takes which step. The network hands out messages in any order and at any time, and
it has room for `2 ^ 32` of them. -/
def Enabled (cluster : Cluster size) : Action size → Prop
  | .loop rank => (cluster.impl rank).stage = .looping
  | .receive message _ =>
      (cluster.impl message.rank).stage = .receiving ∧ message ∈ cluster.inFlight
  | .contribute rank => (cluster.impl rank).stage = .receiving
  | .allgather => ∀ rank, ∃ nextTime lMsg, (cluster.impl rank).stage = .gathering nextTime lMsg
  | .conclude rank => ∃ nextTime lbts, (cluster.impl rank).stage = .gathered nextTime lbts
  | .processOneEvent rank next =>
      Decides (cluster.impl rank) true ∧ IsNext (cluster.impl rank).events next
  | .skip rank => Decides (cluster.impl rank) false
  | .call rank call => (cluster.impl rank).stage = .handling ∧ call.Admits (cluster.impl rank)
  | .transmitStart rank device channel txTime _ _ _ =>
      (cluster.impl rank).stage = .handling ∧ IsRemote network.nodes rank device channel ∧
        0 ≤ txTime ∧ (cluster.impl rank).currentTs + txTime + channel.delay < 2 ^ 63 ∧
        cluster.inFlight.length + 1 < 2 ^ 32
  | .finishEvent rank => (cluster.impl rank).stage = .handling

/-- The ranks and the network. -/
def machine : Machine (Cluster size) (Action size) where
  step := step
  Enabled := Enabled network

end Cluster

end Ns3.Mpi
