import Mathlib.Algebra.Order.Ring.Int
import Mathlib.Data.List.Basic

/-!
Deterministic machines driven by a list of actions.

An action may only be taken where the machine enables it. `Legal` is the
discipline of a whole run, `Always` says that a property holds in every state a
run passes through, and `Along` that a guard holds at every step of it. The
invariant rules below are the only induction over runs that a model needs.
-/

namespace Ns3.Library

universe u v

/-- A total step function together with the discipline of its callers. -/
structure Machine (State : Type u) (Action : Type v) where
  /-- What an action does. -/
  step : State → Action → State
  /-- The states in which a caller may ask for the action. -/
  Enabled : State → Action → Prop

namespace Machine

variable {State : Type u} {Action : Type v} (machine : Machine State Action)

/-- Run a list of actions. -/
def run (state : State) (actions : List Action) : State :=
  actions.foldl machine.step state

@[simp]
theorem run_nil (state : State) : machine.run state [] = state := rfl

@[simp]
theorem run_cons (state : State) (action : Action) (actions : List Action) :
    machine.run state (action :: actions) =
      machine.run (machine.step state action) actions := rfl

/-- Every action of the run is enabled where it is taken. -/
def Legal : State → List Action → Prop
  | _, [] => True
  | state, action :: actions =>
      machine.Enabled state action ∧ Legal (machine.step state action) actions

instance decidableLegal [∀ state action, Decidable (machine.Enabled state action)] :
    (state : State) → (actions : List Action) → Decidable (machine.Legal state actions)
  | _, [] => .isTrue trivial
  | state, action :: actions =>
      have := decidableLegal (machine.step state action) actions
      inferInstanceAs (Decidable (machine.Enabled state action ∧
        machine.Legal (machine.step state action) actions))

/-- The guard holds at every step of the run. -/
def Along (Guard : State → Action → Prop) : State → List Action → Prop
  | _, [] => True
  | state, action :: actions =>
      Guard state action ∧ Along Guard (machine.step state action) actions

instance decidableAlong {Guard : State → Action → Prop}
    [∀ state action, Decidable (Guard state action)] :
    (state : State) → (actions : List Action) → Decidable (machine.Along Guard state actions)
  | _, [] => .isTrue trivial
  | state, action :: actions =>
      have : Decidable (machine.Along Guard (machine.step state action) actions) :=
        decidableAlong (machine.step state action) actions
      inferInstanceAs (Decidable (Guard state action ∧
        machine.Along Guard (machine.step state action) actions))

/-- The property holds in every state of the run, the first one included. -/
def Always (Property : State → Prop) : State → List Action → Prop
  | state, [] => Property state
  | state, action :: actions =>
      Property state ∧ Always Property (machine.step state action) actions

/-- The event took place at a step of the run, and the property has held in every
state from then on. -/
def Since (Property : State → Prop) (Event : State → Action → Prop) (state : State)
    (actions : List Action) : Prop :=
  ∃ before action after, actions = before ++ action :: after ∧
    Event (machine.run state before) action ∧
    machine.Always Property (machine.step (machine.run state before) action) after

variable {machine}

/-- Every run is legal if every action may be taken anywhere. -/
theorem legal_of_enabled (enabled : ∀ state action, machine.Enabled state action) (state : State)
    (actions : List Action) : machine.Legal state actions := by
  induction actions generalizing state with
  | nil => trivial
  | cons action actions inductionHypothesis => exact ⟨enabled state action, inductionHypothesis _⟩

theorem Always.first {Property : State → Prop} {state : State}
    {actions : List Action} (always : machine.Always Property state actions) :
    Property state := by
  cases actions with
  | nil => exact always
  | cons action actions => exact always.1

theorem Always.last {Property : State → Prop} {state : State}
    {actions : List Action} (always : machine.Always Property state actions) :
    Property (machine.run state actions) := by
  induction actions generalizing state with
  | nil => exact always
  | cons action actions inductionHypothesis => exact inductionHypothesis always.2

theorem Always.mono {Property Weaker : State → Prop}
    (implies : ∀ state, Property state → Weaker state)
    {state : State} {actions : List Action}
    (always : machine.Always Property state actions) :
    machine.Always Weaker state actions := by
  induction actions generalizing state with
  | nil => exact implies state always
  | cons action actions inductionHypothesis =>
      exact ⟨implies state always.1, inductionHypothesis always.2⟩

/-- The invariant rule for guarded runs: the guard is only needed at the steps
that the run takes. -/
theorem Legal.always_of_along {Invariant : State → Prop}
    {Guard : State → Action → Prop}
    (preserved : ∀ state action, Invariant state →
      machine.Enabled state action → Guard state action →
      Invariant (machine.step state action))
    {state : State} {actions : List Action}
    (initial : Invariant state) (legal : machine.Legal state actions)
    (along : machine.Along Guard state actions) :
    machine.Always Invariant state actions := by
  induction actions generalizing state with
  | nil => exact initial
  | cons action actions inductionHypothesis =>
      exact ⟨initial, inductionHypothesis
        (preserved state action initial legal.1 along.1) legal.2 along.2⟩

/-- The invariant rule. -/
theorem Legal.always {Invariant : State → Prop}
    (preserved : ∀ state action, Invariant state →
      machine.Enabled state action → Invariant (machine.step state action))
    {state : State} {actions : List Action}
    (initial : Invariant state) (legal : machine.Legal state actions) :
    machine.Always Invariant state actions := by
  induction actions generalizing state with
  | nil => exact initial
  | cons action actions inductionHypothesis =>
      exact ⟨initial, inductionHypothesis
        (preserved state action initial legal.1) legal.2⟩

/-- What a property implies about the next step holds along every run that
keeps the property. -/
theorem Always.along {Property : State → Prop} {Guard : State → Action → Prop}
    (implied : ∀ state action, Property state → machine.Enabled state action →
      Guard state action)
    {state : State} {actions : List Action}
    (always : machine.Always Property state actions) (legal : machine.Legal state actions) :
    machine.Along Guard state actions := by
  induction actions generalizing state with
  | nil => trivial
  | cons action actions inductionHypothesis =>
      exact ⟨implied state action always.1 legal.1, inductionHypothesis always.2 legal.2⟩

/-- A guard that is necessary for a step to keep the property holds along every
run that keeps it. The invariant is what the machine keeps in any case. -/
theorem Legal.along_of_always {Invariant Property : State → Prop}
    {Guard : State → Action → Prop}
    (preserved : ∀ state action, Invariant state →
      machine.Enabled state action → Invariant (machine.step state action))
    (necessary : ∀ state action, Invariant state → Property state →
      machine.Enabled state action → Property (machine.step state action) →
      Guard state action)
    {state : State} {actions : List Action}
    (initial : Invariant state) (legal : machine.Legal state actions)
    (always : machine.Always Property state actions) :
    machine.Along Guard state actions := by
  induction actions generalizing state with
  | nil => trivial
  | cons action actions inductionHypothesis =>
      exact ⟨necessary state action initial always.1 legal.1 always.2.first,
        inductionHypothesis (preserved state action initial legal.1) legal.2 always.2⟩

/-- What the guard implies in the states of the run holds along it. -/
theorem Along.mono {Invariant : State → Prop} {Guard Weaker : State → Action → Prop}
    (implied : ∀ state action, Invariant state → machine.Enabled state action →
      Guard state action → Weaker state action)
    {state : State} {actions : List Action} (along : machine.Along Guard state actions)
    (always : machine.Always Invariant state actions) (legal : machine.Legal state actions) :
    machine.Along Weaker state actions := by
  induction actions generalizing state with
  | nil => trivial
  | cons action actions inductionHypothesis =>
      exact ⟨implied state action always.1 legal.1 along.1,
        inductionHypothesis along.2 always.2 legal.2⟩

/-- The simulation rule for guarded runs: a relation between the states of two
machines that every pair of matching steps keeps. -/
theorem Along.related {Other : Type u} {Label : Type v} {other : Machine Other Label}
    {Related : State → Other → Prop} {Guard : State → Action → Prop}
    (translate : Action → Label)
    (preserved : ∀ state otherState action, Related state otherState → Guard state action →
      Related (machine.step state action) (other.step otherState (translate action)))
    {state : State} {otherState : Other} {actions : List Action}
    (initial : Related state otherState) (along : machine.Along Guard state actions) :
    Related (machine.run state actions) (other.run otherState (actions.map translate)) := by
  induction actions generalizing state otherState with
  | nil => exact initial
  | cons action actions inductionHypothesis =>
      exact inductionHypothesis (preserved state otherState action initial along.1) along.2

theorem Since.cons {Property : State → Prop} {Event : State → Action → Prop} {state : State}
    {action : Action} {actions : List Action}
    (since : machine.Since Property Event (machine.step state action) actions) :
    machine.Since Property Event state (action :: actions) := by
  obtain ⟨before, event, after, rfl, seen, always⟩ := since
  exact ⟨action :: before, event, after, rfl, seen, always⟩

/-- A mark that only the event sets, and that is only found where the property
holds, was set by an event since which the property has held. -/
theorem Always.since {Invariant Property : State → Prop} {Guard Event : State → Action → Prop}
    (Mark : State → Prop)
    (covered : ∀ state, Invariant state → Mark state → Property state)
    (caused : ∀ state action, Invariant state → machine.Enabled state action →
      Guard state action → Mark (machine.step state action) → Event state action ∨ Mark state)
    {state : State} {actions : List Action}
    (always : machine.Always Invariant state actions) (legal : machine.Legal state actions)
    (along : machine.Along Guard state actions) (marked : Mark (machine.run state actions)) :
    machine.Since Property Event state actions ∨
      Mark state ∧ machine.Always Property state actions := by
  induction actions generalizing state with
  | nil => exact .inr ⟨marked, covered state always marked⟩
  | cons action actions inductionHypothesis =>
      rcases inductionHypothesis always.2 legal.2 along.2 marked with since | ⟨before, held⟩
      · exact .inl since.cons
      · rcases caused state action always.1 legal.1 along.1 before with event | earlier
        · exact .inl ⟨[], action, actions, rfl, event, held⟩
        · exact .inr ⟨earlier, covered state always.1 earlier, held⟩

end Machine

end Ns3.Library
