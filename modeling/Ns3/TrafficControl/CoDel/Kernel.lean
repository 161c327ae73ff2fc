import Ns3.TrafficControl.QueueDisc.Kernel

/-!
`ns3::CoDelQueueDisc`: packets are dropped or marked while they stay too long in the queue.

A time is in nanoseconds, and the clock of CoDel has 32 bits and counts units of 1024 of them.
-/

namespace Ns3.TrafficControl.CoDel

open Library

/-- A `QueueDiscItem`: the packet it has, by its uid, what `GetSize` and `GetTimeStamp` return, and
what the items of IP keep for `GetUint8Value` and `Mark`. The others have no DS field. -/
structure Item where
  packet : Nat
  size : BitVec 32
  timeStamp : Nat := 0
  dsField : Option (BitVec 8) := none
  headerAdded : Bool := false
  deriving DecidableEq, Repr

namespace Item

variable (self : Item)

/-- `Mark`: the packet with its mark, if it takes one. -/
def mark : Option Item :=
  match self.dsField with
  | some field =>
      if !self.headerAdded && field &&& 3 ≠ 0 then some { self with dsField := some (field ||| 3) }
      else none
  | none => none

/-- The packet is ECT1 or CE. -/
def isL4s : Bool :=
  match self.dsField with
  | some field => field &&& 3 = 1 || field &&& 3 = 3
  | none => false

end Item

/-- The attributes of `ns3::CoDelQueueDisc`. `SetMaxSize` does nothing for a limit that is null. -/
structure Config where
  useEcn : Bool
  useL4s : Bool
  maxSize : QueueSize
  minBytes : BitVec 32
  interval : Int
  target : Int
  ceThreshold : Int
  maxSize_ne : maxSize ≠ .packets 0 ∧ maxSize ≠ .bytes 0
  deriving DecidableEq, Repr

/-- The attributes as they are by default. -/
def Config.default : Config where
  useEcn := false
  useL4s := false
  maxSize := .bytes 1500000
  minBytes := 1500
  interval := 100000000
  target := 5000000
  ceThreshold := 2 ^ 63 - 1
  maxSize_ne := by decide

/-- `Time2CoDel`. -/
def time2CoDel (time : Int) : BitVec 32 := BitVec.ofInt 32 (time >>> (10 : Nat))

/-- `CoDelGetTime`, at a time of the simulator. -/
def coDelGetTime (now : Nat) : BitVec 32 := BitVec.ofNat 32 (now >>> 10)

/-- `CoDelTimeAfter`: the words are compared as signed numbers of 64 bits. -/
def coDelTimeAfter (a b : BitVec 32) : Bool := (a.toNat : Int) - b.toNat > 0

/-- `CoDelTimeAfterEq`. -/
def coDelTimeAfterEq (a b : BitVec 32) : Bool := (a.toNat : Int) - b.toNat ≥ 0

/-- `CoDelTimeBefore`. -/
def coDelTimeBefore (a b : BitVec 32) : Bool := (a.toNat : Int) - b.toNat < 0

/-- `ReciprocalDivide`. -/
def reciprocalDivide (a r : BitVec 32) : BitVec 32 :=
  ((a.setWidth 64 * r.setWidth 64) >>> 32).setWidth 32

/-- `NewtonStep`. -/
def newtonStep (recInvSqrt : BitVec 16) (count : BitVec 32) : BitVec 16 :=
  let invsqrt : BitVec 32 := recInvSqrt.setWidth 32 <<< 16
  let invsqrt2 : BitVec 32 := ((invsqrt.setWidth 64 * invsqrt.setWidth 64) >>> 32).setWidth 32
  let val : BitVec 64 := (3 <<< 32) - count.setWidth 64 * invsqrt2.setWidth 64
  let val := val >>> 2
  let val := (val * invsqrt.setWidth 64) >>> (32 - 2 + 1)
  (val >>> 16).setWidth 16

/-- `ControlLaw`. -/
def controlLaw (t interval : BitVec 32) (recInvSqrt : BitVec 16) : BitVec 32 :=
  t + reciprocalDivide interval (recInvSqrt.setWidth 32 <<< 16)

/-- `ns3::CoDelQueueDisc`, with the packets in its internal queue. -/
structure CoDelQueueDisc where
  queue : List Item := []
  count : BitVec 32 := 0
  lastCount : BitVec 32 := 0
  dropping : Bool := false
  recInvSqrt : BitVec 16 := BitVec.allOnes 16
  firstAboveTime : BitVec 32 := 0
  dropNext : BitVec 32 := 0
  deriving DecidableEq, Repr

/-- What `DoDequeue` works with: the current item, if there is one, and what it has dropped. -/
structure Serving where
  disc : CoDelQueueDisc
  item : Option Item
  dropped : List Item := []
  isMarked : Bool := false
  deriving DecidableEq, Repr

/-- A method of an item is called through a null pointer. -/
inductive Fault
  | nullItem
  deriving DecidableEq, Repr

namespace CoDelQueueDisc

variable (config : Config) (self : CoDelQueueDisc)

/-- `GetNBytes` of the internal queue. -/
def getNBytes : BitVec 32 := (self.queue.map Item.size).sum

/-- `GetCurrentSize () + item > GetMaxSize ()`. -/
def full (item : Item) : Bool :=
  match config.maxSize with
  | .packets value => value < BitVec.ofNat 32 self.queue.length + 1
  | .bytes value => value < self.getNBytes + item.size

/-- `Enqueue`: the internal queue has the limit of the queue disc, and an item that was taken gets
a time stamp. -/
def enqueue (now : Nat) (item : Item) : CoDelQueueDisc × Bool :=
  if self.full config item then (self, false)
  else ({ self with queue := self.queue ++ [{ item with timeStamp := now }] }, true)

/-- The sojourn time is below the target, or there are few bytes in the queue. -/
def below (now : Nat) (item : Item) : Bool :=
  coDelTimeBefore (time2CoDel (now - item.timeStamp)) (time2CoDel config.target) ||
    self.getNBytes < config.minBytes

/-- `OkToDrop`. -/
def okToDrop (now : Nat) : Option Item → CoDelQueueDisc × Bool
  | none => ({ self with firstAboveTime := 0 }, false)
  | some item =>
      if self.below config now item then ({ self with firstAboveTime := 0 }, false)
      else if self.firstAboveTime = 0 then
        ({ self with firstAboveTime := coDelGetTime now + time2CoDel config.interval }, false)
      else (self, coDelTimeAfter (coDelGetTime now) self.firstAboveTime)

@[simp]
theorem okToDrop_queue (now : Nat) (item : Option Item) :
    (self.okToDrop config now item).1.queue = self.queue := by
  unfold okToDrop
  split
  · rfl
  · split
    · rfl
    · split <;> rfl

@[simp]
theorem okToDrop_dropping (now : Nat) (item : Option Item) :
    (self.okToDrop config now item).1.dropping = self.dropping := by
  unfold okToDrop
  split
  · rfl
  · split
    · rfl
    · split <;> rfl

/-- The part of the drop loop that counts the drop. -/
def countDrop : CoDelQueueDisc :=
  { self with
    count := self.count + 1
    recInvSqrt := newtonStep self.recInvSqrt (self.count + 1) }

@[simp]
theorem countDrop_queue : self.countDrop.queue = self.queue := rfl

/-- `m_useEcn && Mark (item)`. -/
def markEcn (item : Item) : Option Item := if config.useEcn then item.mark else none

/-- The next item of the internal queue is the current one, and `OkToDrop` looks at it. -/
def popNext (now : Nat) : (CoDelQueueDisc × Bool) × Option Item :=
  match self.queue with
  | [] => (self.okToDrop config now none, none)
  | item :: rest => ({ self with queue := rest }.okToDrop config now (some item), some item)

@[simp]
theorem popNext_queue (now : Nat) : (self.popNext config now).1.1.queue = self.queue.tail := by
  unfold popNext
  split <;> simp [*]

@[simp]
theorem popNext_dropping (now : Nat) :
    (self.popNext config now).1.1.dropping = self.dropping := by
  unfold popNext
  split <;> simp

@[simp]
theorem popNext_item (now : Nat) : (self.popNext config now).2 = self.queue.head? := by
  unfold popNext
  split <;> simp [*]

/-- The next drop is scheduled if it is still all right to drop, and else the dropping state is
left. -/
def reschedule (okToDrop : Bool) : CoDelQueueDisc :=
  if !okToDrop then { self with dropping := false }
  else
    { self with
      dropNext := controlLaw self.dropNext (time2CoDel config.interval) self.recInvSqrt }

@[simp]
theorem reschedule_queue (okToDrop : Bool) :
    (self.reschedule config okToDrop).queue = self.queue := by
  cases okToDrop <;> rfl

/-- The dropping state is kept only where it is all right to drop. -/
theorem okToDrop_of_reschedule {okToDrop : Bool}
    (stays : (self.reschedule config okToDrop).dropping = true) : okToDrop = true := by
  cases okToDrop with
  | false => cases stays
  | true => rfl

/-- The count and the root that a cycle in the dropping state starts with. -/
def restart (now : Nat) : BitVec 32 × BitVec 16 :=
  let delta := self.count - self.lastCount
  if delta.toInt > 1 ∧
      coDelTimeBefore (coDelGetTime now - self.dropNext) (16 * time2CoDel config.interval) then
    (delta, newtonStep self.recInvSqrt delta)
  else (1, BitVec.allOnes 16)

/-- The start of a cycle in the dropping state. -/
def startDropping (now : Nat) : CoDelQueueDisc :=
  let (count, recInvSqrt) := self.restart config now
  { self with
    dropping := true
    count := count
    recInvSqrt := recInvSqrt
    lastCount := count
    dropNext := controlLaw (coDelGetTime now) (time2CoDel config.interval) recInvSqrt }

end CoDelQueueDisc

namespace Serving

variable (config : Config) (now : Nat) (self : Serving)

/-- The current item is dropped and the next one becomes the current one. -/
def dropCurrent (item : Item) : Serving × Bool :=
  let ((disc, okToDrop), next) := self.disc.popNext config now
  ({ self with disc := disc, item := next, dropped := self.dropped ++ [item] }, okToDrop)

/-- The body of the drop loop for an item that is not marked. -/
def dropOne (item : Item) : Serving :=
  let (serving, okToDrop) := { self with disc := self.disc.countDrop }.dropCurrent config now item
  { serving with disc := serving.disc.reschedule config okToDrop }

/-- The body of the drop loop for an item that is marked. -/
def markCurrent (marked : Item) : Serving :=
  let disc := self.disc.countDrop
  { self with
    disc := { disc with
      dropNext := controlLaw (coDelGetTime now) (time2CoDel config.interval) disc.recInvSqrt }
    item := some marked
    isMarked := true }

/-- The items that can still be dropped. -/
def left : Nat := self.disc.queue.length + self.item.toList.length

variable {self}

theorem left_dropOne {item : Item} (isCurrent : self.item = some item) :
    (self.dropOne config now item).left < self.left := by
  cases isQueue : self.disc.queue <;> simp [left, dropOne, dropCurrent, isQueue, isCurrent]

variable (self)

/-- The drop loop. -/
def dropLoop (self : Serving) : Except Fault Serving :=
  if self.disc.dropping && coDelTimeAfterEq (coDelGetTime now) self.disc.dropNext then
    match _current : self.item with
    | none => .error .nullItem
    | some item =>
        match CoDelQueueDisc.markEcn config item with
        | some marked => .ok (self.markCurrent config now marked)
        | none => dropLoop (self.dropOne config now item)
  else .ok self
termination_by self.left
decreasing_by exact left_dropOne config now _current

/-- The part of `DoDequeue` behind its label. -/
def finish : Except Fault Serving :=
  match self.item with
  | none => .error .nullItem
  | some item =>
      if !self.isMarked && !config.useL4s && config.useEcn &&
          coDelTimeAfter (time2CoDel (now - item.timeStamp)) (time2CoDel config.ceThreshold) then
        match item.mark with
        | some marked => .ok { self with item := some marked, isMarked := true }
        | none => .ok self
      else .ok self

end Serving

namespace CoDelQueueDisc

variable (config : Config) (self : CoDelQueueDisc) (now : Nat)

/-- The part of `DoDequeue` that enters the dropping state. -/
def enterDropping (item : Item) : Serving :=
  let serving : Serving :=
    match markEcn config item with
    | some marked => { disc := self, item := some marked, isMarked := true }
    | none => (Serving.dropCurrent config now { disc := self, item := some item } item).1
  { serving with disc := serving.disc.startDropping config now }

/-- The part of `DoDequeue` for the packets of L4S. -/
def serveL4s (item : Item) : Serving :=
  match item.mark with
  | some marked =>
      if coDelTimeAfter (time2CoDel (now - item.timeStamp)) (time2CoDel config.ceThreshold) then
        { disc := self, item := some marked, isMarked := true }
      else { disc := self, item := some item }
  | none => { disc := self, item := some item }

/-- The part of `DoDequeue` for an item that may be dropped. -/
def serve (item : Item) : Except Fault Serving :=
  let (disc, okToDrop) := self.okToDrop config now (some item)
  if disc.dropping then
    if !okToDrop then .ok { disc := { disc with dropping := false }, item := some item }
    else if coDelTimeAfterEq (coDelGetTime now) disc.dropNext then
      Serving.dropLoop config now { disc := disc, item := some item }
    else .ok { disc := disc, item := some item }
  else if okToDrop then .ok (disc.enterDropping config now item)
  else .ok { disc := disc, item := some item }

/-- `DoDequeue`. -/
def doDequeue : Except Fault Serving :=
  match self.queue with
  | [] => .ok { disc := { self with dropping := false }, item := none }
  | item :: rest =>
      let self := { self with queue := rest }
      if config.useL4s && item.isL4s then .ok (self.serveL4s config now item)
      else self.serve config now item >>= Serving.finish config now

end CoDelQueueDisc

/-- What a call of `DoDequeue` has done: the packets that were dropped, the one that is returned,
and whether that one was marked. -/
structure Outcome where
  dropped : List Nat
  returned : Option Nat
  isMarked : Bool
  deriving DecidableEq, Repr

/-- The outcome of a call. -/
def Serving.outcome (self : Serving) : Outcome :=
  ⟨self.dropped.map Item.packet, self.item.map Item.packet, self.isMarked⟩

/-- A call of `Enqueue` or `Dequeue` and its time. -/
inductive Call
  | enqueue (now : Nat) (item : Item)
  | dequeue (now : Nat)
  deriving DecidableEq, Repr

/-- The time of a call. -/
def Call.now : Call → Nat
  | enqueue now _ | dequeue now => now

/-- A queue disc with the time of the last call and the outcomes of the calls so far. -/
structure Session where
  disc : CoDelQueueDisc := {}
  now : Nat := 0
  outcomes : List (Except Fault Outcome) := []

namespace Session

variable (config : Config)

/-- One call. -/
def step (session : Session) : Call → Session
  | .enqueue now item => { session with disc := (session.disc.enqueue config now item).1, now := now }
  | .dequeue now =>
      match session.disc.doDequeue config now with
      | .error fault => { session with now := now, outcomes := session.outcomes ++ [.error fault] }
      | .ok served =>
          { disc := served.disc
            now := now
            outcomes := session.outcomes ++ [.ok served.outcome] }

/-- The calls on a queue disc, in the order of their times. -/
def sessions : Machine Session Call where
  step := step config
  Enabled session call := session.now ≤ call.now

instance : ∀ session call, Decidable ((sessions config).Enabled session call) :=
  fun session call => inferInstanceAs (Decidable (session.now ≤ call.now))

end Session

end Ns3.TrafficControl.CoDel
