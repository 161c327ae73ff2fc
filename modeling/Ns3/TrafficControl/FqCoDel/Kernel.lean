import Mathlib.Algebra.Order.BigOperators.Group.List
import Mathlib.Algebra.Order.Ring.Nat
import Mathlib.Logic.Function.Basic
import Ns3.Library.Word

/-!
`ns3::FqCoDelQueueDisc`: flows are served in turn from a list of new and a list of old ones.

A flow has a CoDel queue disc of its own. Which packets that one drops when it is asked for the
next one depends on the time; a call of `Dequeue` takes here how many packets each call of a child
drops.
-/

namespace Ns3.TrafficControl.FqCoDel

open Library

/-- `ns3::QueueDiscItem`: the packet it has, by its uid, the flow that the hash or the packet filters
find, if any, and the size. The layer above keeps packets to the MTU of a device, which has sixteen
bits. -/
structure Item where
  packet : Nat
  flowHash : Option Nat
  size : Nat
  size_lt : size < 2 ^ 31
  deriving DecidableEq, Repr

/-- `FqCoDelFlow::FlowStatus`. -/
inductive FlowStatus
  | inactive
  | newFlow
  | oldFlow
  deriving DecidableEq, Repr

/-- `ns3::FqCoDelFlow`, with the packets in its queue disc. -/
structure FqCoDelFlow where
  deficit : Int := 0
  status : FlowStatus := .inactive
  index : Nat := 0
  queue : List Item := []
  deriving DecidableEq, Repr

namespace FqCoDelFlow

variable (self : FqCoDelFlow)

/-- `SetDeficit`. -/
def setDeficit (deficit : Nat) : FqCoDelFlow := { self with deficit := signed 32 deficit }

@[simp]
theorem setDeficit_queue (deficit : Nat) : (self.setDeficit deficit).queue = self.queue := by
  unfold setDeficit
  rfl

/-- `IncreaseDeficit`. -/
def increaseDeficit (deficit : Int) : FqCoDelFlow :=
  { self with deficit := signed 32 (self.deficit + deficit) }

/-- `SetStatus`. -/
def setStatus (status : FlowStatus) : FqCoDelFlow := { self with status := status }

/-- `GetNBytes` of the queue disc, which has 32 bits. -/
def getNBytes : Nat := wrap 32 (self.queue.map Item.size).sum

/-- `CoDelQueueDisc::DoEnqueue`, for a limit in packets. -/
def enqueue (maxSize : Nat) (item : Item) : FqCoDelFlow :=
  if self.queue.length + 1 > maxSize then self else { self with queue := self.queue ++ [item] }

/-- `CoDelQueueDisc::DoDequeue`: so many packets are dropped, and the next one is given. -/
def dequeue (drops : Nat) : FqCoDelFlow × Option Item :=
  match self.queue.drop drops with
  | [] => ({ self with queue := [] }, none)
  | item :: rest => ({ self with queue := rest }, some item)

end FqCoDelFlow

/-- The attributes of `ns3::FqCoDelQueueDisc`. -/
structure Config where
  quantum : Nat
  flows : Nat
  setWays : Nat
  enableSetAssociativeHash : Bool
  dropBatchSize : Nat
  maxSize : Nat
  quantum_pos : 0 < quantum
  quantum_lt : quantum < 2 ^ 31
  deriving Repr

/-- `ns3::FqCoDelQueueDisc`. The flows are the first so many classes, and a list of flows has their
places among the classes. -/
structure FqCoDelQueueDisc where
  flow : Nat → FqCoDelFlow := fun _ => {}
  nQueueDiscClasses : Nat := 0
  flowsIndices : Nat → Option Nat := fun _ => none
  tags : Nat → Option Nat := fun _ => none
  newFlows : List Nat := []
  oldFlows : List Nat := []

namespace FqCoDelQueueDisc

variable (config : Config)

/-- A flow is changed. -/
def modify (self : FqCoDelQueueDisc) (place : Nat) (change : FqCoDelFlow → FqCoDelFlow) :
    FqCoDelQueueDisc :=
  { self with flow := Function.update self.flow place (change (self.flow place)) }

/-- The queue of the set that `SetAssociativeHash` finds for a flow. -/
def usableQueue (self : FqCoDelQueueDisc) (flowHash : Nat) (i : Nat) : Bool :=
  match self.flowsIndices i with
  | none => true
  | some place => self.tags i = some flowHash || (self.flow place).status = .inactive

/-- `SetAssociativeHash`. -/
def setAssociativeHash (self : FqCoDelQueueDisc) (flowHash : Nat) : FqCoDelQueueDisc × Nat :=
  let h := flowHash % config.flows
  let innerHash := h % config.setWays
  let outerHash := h - innerHash
  let i := ((List.range' outerHash config.setWays).find? (self.usableQueue flowHash)).getD outerHash
  ({ self with tags := Function.update self.tags i (some flowHash) }, i)

/-- The index of the queue of a packet. -/
def classify (self : FqCoDelQueueDisc) (flowHash : Nat) : FqCoDelQueueDisc × Nat :=
  if config.enableSetAssociativeHash then self.setAssociativeHash config flowHash
  else (self, flowHash % config.flows)

/-- The place of the flow with the index, which may be a new one. -/
def findFlow (self : FqCoDelQueueDisc) (h : Nat) : FqCoDelQueueDisc × Nat :=
  match self.flowsIndices h with
  | some place => (self, place)
  | none =>
      let place := self.nQueueDiscClasses
      ({ self with
          flow := Function.update self.flow place { index := h }
          nQueueDiscClasses := place + 1
          flowsIndices := Function.update self.flowsIndices h (some place) }, place)

/-- A flow that is inactive becomes a new one. -/
def activate (self : FqCoDelQueueDisc) (place : Nat) : FqCoDelQueueDisc :=
  if (self.flow place).status = .inactive then
    { self.modify place fun flow => (flow.setStatus .newFlow).setDeficit config.quantum with
      newFlows := self.newFlows ++ [place] }
  else self

/-- `GetCurrentSize`, in packets. -/
def getCurrentSize (self : FqCoDelQueueDisc) : Nat :=
  ((List.range self.nQueueDiscClasses).map fun place => (self.flow place).queue.length).sum

/-- The loop of `FqCoDelDrop` that finds the fat flow: its place and its backlog. -/
def fatFlow (self : FqCoDelQueueDisc) : Nat × Nat :=
  (List.range self.nQueueDiscClasses).foldl (fun (index, maxBacklog) i =>
    if (self.flow i).getNBytes > maxBacklog then (i, (self.flow i).getNBytes)
    else (index, maxBacklog)) (0, 0)

/-- The loop of `FqCoDelDrop` that drops packets from the head of a queue. -/
def dropBatch (threshold : Nat) : List Item → Nat → Nat → List Item
  | [], _, _ => []
  | item :: rest, count, len =>
      if count + 1 < config.dropBatchSize ∧ len + item.size < threshold then
        dropBatch threshold rest (count + 1) (len + item.size)
      else rest

/-- `FqCoDelDrop`. -/
def fqCoDelDrop (self : FqCoDelQueueDisc) : FqCoDelQueueDisc :=
  let (index, maxBacklog) := self.fatFlow
  self.modify index fun flow =>
    { flow with queue := dropBatch config (maxBacklog >>> 1) flow.queue 0 0 }

/-- `DoEnqueue`. -/
def doEnqueue (self : FqCoDelQueueDisc) (item : Item) : FqCoDelQueueDisc × Bool :=
  match item.flowHash with
  | none => (self, false)
  | some flowHash =>
      let (self, h) := self.classify config flowHash
      let (self, place) := self.findFlow h
      let self := (self.activate config place).modify place (·.enqueue config.maxSize item)
      if self.getCurrentSize > config.maxSize then (self.fqCoDelDrop config, true) else (self, true)

/-- The first new flow is out of credit and becomes an old one. -/
def demote (self : FqCoDelQueueDisc) (place : Nat) (rest : List Nat) : FqCoDelQueueDisc :=
  { self.modify place fun flow => (flow.increaseDeficit config.quantum).setStatus .oldFlow with
    oldFlows := self.oldFlows ++ [place]
    newFlows := rest }

/-- The first old flow is out of credit and goes to the end. -/
def rotate (self : FqCoDelQueueDisc) (place : Nat) (rest : List Nat) : FqCoDelQueueDisc :=
  { self.modify place (·.increaseDeficit config.quantum) with oldFlows := rest ++ [place] }

/-- The loop of `DoDequeue` over the new flows. It ends at a flow that was found, or at none. -/
def searchNewFlows (self : FqCoDelQueueDisc) : FqCoDelQueueDisc :=
  match _newFlows : self.newFlows with
  | [] => self
  | place :: rest =>
      if (self.flow place).deficit ≤ 0 then searchNewFlows (self.demote config place rest) else self
termination_by self.newFlows.length
decreasing_by
  rw [_newFlows]
  exact Nat.lt_succ_self _

/-- How far the deficits of the old flows are from being positive. -/
def debt (self : FqCoDelQueueDisc) : Nat :=
  (self.oldFlows.map fun place => (1 - (self.flow place).deficit).toNat).sum

/-- A deficit that is not positive grows. -/
theorem lt_increaseDeficit {flow : FqCoDelFlow} (spent : flow.deficit ≤ 0) :
    flow.deficit < (flow.increaseDeficit config.quantum).deficit := by
  have positive := config.quantum_pos
  have small := config.quantum_lt
  unfold FqCoDelFlow.increaseDeficit
  dsimp only
  by_cases low : -2 ^ 31 ≤ flow.deficit
  · have fits : IsSigned 32 (flow.deficit + config.quantum) :=
      ⟨by simp only [Nat.reduceSub]; omega, by simp only [Nat.reduceSub]; omega⟩
    rw [signed_of_isSigned (by decide) fits]
    omega
  · have least : -2 ^ 31 ≤ signed 32 (flow.deficit + config.quantum) := Int.le_bmod (by decide)
    omega

theorem debt_rotate {self : FqCoDelQueueDisc} {place : Nat} {rest : List Nat}
    (isOld : self.oldFlows = place :: rest) (spent : (self.flow place).deficit ≤ 0) :
    (self.rotate config place rest).debt < self.debt := by
  have grows := lt_increaseDeficit config spent
  have here : ((self.rotate config place rest).flow place).deficit =
      ((self.flow place).increaseDeficit config.quantum).deficit := by
    simp [rotate, modify]
  have less (other : Nat) : (1 - ((self.rotate config place rest).flow other).deficit).toNat ≤
      (1 - (self.flow other).deficit).toNat := by
    by_cases same : other = place
    · subst same
      rw [here]
      omega
    · simp [rotate, modify, same]
  have others := List.sum_le_sum (fun other (_ : other ∈ rest) => less other)
  have isRotated : (self.rotate config place rest).oldFlows = rest ++ [place] := rfl
  rw [debt, debt, isOld, isRotated]
  simp only [List.map_append, List.map_cons, List.map_nil, List.sum_append, List.sum_cons,
    List.sum_nil, here]
  omega

/-- The loop of `DoDequeue` over the old flows. -/
def searchOldFlows (self : FqCoDelQueueDisc) : FqCoDelQueueDisc :=
  match _oldFlows : self.oldFlows with
  | [] => self
  | place :: rest =>
      if _spent : (self.flow place).deficit ≤ 0 then searchOldFlows (self.rotate config place rest)
      else self
termination_by self.debt
decreasing_by exact debt_rotate config _oldFlows _spent

/-- Both loops of `DoDequeue`: the old flows are searched if no new one was found. -/
def search (self : FqCoDelQueueDisc) : FqCoDelQueueDisc :=
  let self := self.searchNewFlows config
  if self.newFlows.isEmpty then self.searchOldFlows config else self

/-- The flow that was found. -/
def found (self : FqCoDelQueueDisc) : Option Nat := (self.newFlows ++ self.oldFlows).head?

/-- What `DoDequeue` does with a flow that gives no packet. -/
def retire (self : FqCoDelQueueDisc) (place : Nat) : FqCoDelQueueDisc :=
  if !self.newFlows.isEmpty then
    { self.modify place (·.setStatus .oldFlow) with
      oldFlows := self.oldFlows ++ [place]
      newFlows := self.newFlows.tail }
  else
    { self.modify place (·.setStatus .inactive) with oldFlows := self.oldFlows.tail }

variable {config}

/-- The rule for the loop over the new flows. -/
theorem searchNewFlows_rule {Property : FqCoDelQueueDisc → Prop}
    (demote : ∀ self place rest, Property self → self.newFlows = place :: rest →
      (self.flow place).deficit ≤ 0 → Property (self.demote config place rest))
    {self : FqCoDelQueueDisc} (initial : Property self) :
    Property (self.searchNewFlows config) ∧
      ∀ place rest, (self.searchNewFlows config).newFlows = place :: rest →
        0 < ((self.searchNewFlows config).flow place).deficit := by
  fun_induction searchNewFlows config self with
  | case1 self empty => exact ⟨initial, by simp [empty]⟩
  | case2 self place rest isNew spent inductionHypothesis =>
      exact inductionHypothesis (demote self place rest initial isNew spent)
  | case3 self place rest isNew unspent =>
      refine ⟨initial, fun other more isOther => ?_⟩
      cases isNew.symm.trans isOther
      omega

/-- The rule for the loop over the old flows. -/
theorem searchOldFlows_rule {Property : FqCoDelQueueDisc → Prop}
    (rotate : ∀ self place rest, Property self → self.oldFlows = place :: rest →
      (self.flow place).deficit ≤ 0 → Property (self.rotate config place rest))
    {self : FqCoDelQueueDisc} (initial : Property self) :
    Property (self.searchOldFlows config) ∧
      ∀ place rest, (self.searchOldFlows config).oldFlows = place :: rest →
        0 < ((self.searchOldFlows config).flow place).deficit := by
  fun_induction searchOldFlows config self with
  | case1 self empty => exact ⟨initial, by simp [empty]⟩
  | case2 self place rest isOld spent inductionHypothesis =>
      exact inductionHypothesis (rotate self place rest initial isOld spent)
  | case3 self place rest isOld unspent =>
      refine ⟨initial, fun other more isOther => ?_⟩
      cases isOld.symm.trans isOther
      omega

/-- The rule for both loops: the flow that is found has a positive deficit. -/
theorem search_rule {Property : FqCoDelQueueDisc → Prop}
    (demote : ∀ self place rest, Property self → self.newFlows = place :: rest →
      (self.flow place).deficit ≤ 0 → Property (self.demote config place rest))
    (rotate : ∀ self place rest, Property self → self.oldFlows = place :: rest →
      (self.flow place).deficit ≤ 0 → Property (self.rotate config place rest))
    {self : FqCoDelQueueDisc} (initial : Property self) :
    Property (self.search config) ∧
      ∀ place, (self.search config).found = some place →
        0 < ((self.search config).flow place).deficit := by
  obtain ⟨afterNew, positive⟩ := searchNewFlows_rule demote initial
  unfold search
  dsimp only
  cases isNew : (self.searchNewFlows config).newFlows with
  | cons place rest =>
      simp only [List.isEmpty_cons, Bool.false_eq_true, if_false]
      refine ⟨afterNew, fun other isFound => ?_⟩
      rw [found, isNew] at isFound
      cases isFound
      exact positive place rest isNew
  | nil =>
      -- The loop over the old flows leaves the new ones empty.
      obtain ⟨⟨afterOld, stillEmpty⟩, positive⟩ := searchOldFlows_rule
        (fun self place rest (kept : Property self ∧ self.newFlows = []) isOld spent =>
          ⟨rotate self place rest kept.1 isOld spent, kept.2⟩) ⟨afterNew, isNew⟩
      simp only [List.isEmpty_nil, if_true]
      refine ⟨afterOld, fun place isFound => ?_⟩
      rw [found, stillEmpty, List.nil_append] at isFound
      cases isOld : ((self.searchNewFlows config).searchOldFlows config).oldFlows with
      | nil =>
          rw [isOld] at isFound
          cases isFound
      | cons other rest =>
          rw [isOld] at isFound
          cases isFound
          exact positive place rest isOld

/-- An empty flow leaves the new flows first, and then the old ones. -/
def listedWork (self : FqCoDelQueueDisc) : Nat :=
  2 * self.newFlows.length + self.oldFlows.length

theorem listedWork_search (self : FqCoDelQueueDisc) :
    (self.search config).listedWork ≤ self.listedWork := by
  refine (@search_rule config (fun disc => disc.listedWork ≤ self.listedWork) ?_ ?_ self
    (Nat.le_refl _)).1
  · intro disc place rest less isNew _
    refine Nat.le_trans ?_ less
    simp only [listedWork, demote, isNew, List.length_append, List.length_cons, List.length_nil]
    omega
  · intro disc place rest less isOld _
    refine Nat.le_trans ?_ less
    simp only [listedWork, rotate, modify, isOld, List.length_append, List.length_cons,
      List.length_nil]
    omega

theorem listedWork_retire {self : FqCoDelQueueDisc} {place : Nat}
    (isFound : self.found = some place) : (self.retire place).listedWork < self.listedWork := by
  unfold retire
  cases isNew : self.newFlows with
  | cons first rest =>
      simp only [listedWork, isNew, List.isEmpty_cons, Bool.not_false, if_true, List.tail_cons,
        List.length_append, List.length_cons, List.length_nil]
      omega
  | nil =>
      cases isOld : self.oldFlows with
      | nil =>
          rw [found, isNew, isOld] at isFound
          cases isFound
      | cons first rest =>
          simp [listedWork, isNew, isOld, modify]

variable (config)

/-- `DoDequeue`, where the calls of `Dequeue` of the children are counted. -/
def doDequeueFrom (drops : Nat → Nat) (call : Nat) (self : FqCoDelQueueDisc) :
    FqCoDelQueueDisc × Option Item :=
  match _found : (self.search config).found with
  | none => (self.search config, none)
  | some place =>
      match ((self.search config).flow place).dequeue (drops call) with
      | (flow, none) =>
          doDequeueFrom drops (call + 1)
            (((self.search config).modify place fun _ => flow).retire place)
      | (flow, some item) =>
          ((self.search config).modify place fun _ => flow.increaseDeficit (signed 32 (-item.size)),
            some item)
termination_by self.listedWork
decreasing_by
  have isFound : ((self.search config).modify place fun _ => flow).found = some place := _found
  exact Nat.lt_of_lt_of_le (listedWork_retire isFound) self.listedWork_search

/-- `DoDequeue`. -/
def doDequeue (self : FqCoDelQueueDisc) (drops : Nat → Nat) : FqCoDelQueueDisc × Option Item :=
  self.doDequeueFrom config drops 0

end FqCoDelQueueDisc

end Ns3.TrafficControl.FqCoDel
