import Mathlib.Tactic.Common

/-!
Loops that need not end.

A turn of a loop leads to the next turn, leaves the loop with a result, or fails. The loop is run
with a bound on its turns, and it returns what it returns with some bound.
-/

namespace Ns3.Library

universe u v

/-- What a turn of a loop leads to. -/
inductive Turn (State : Type u) (Result : Type v)
  | again (state : State)
  | exit (result : Result)
  | failed
  deriving DecidableEq, Repr

/-- What a bounded run of a loop comes to. -/
inductive Outcome (Result : Type v)
  | returned (result : Result)
  | failed
  | running
  deriving DecidableEq, Repr

variable {State : Type u} {Result : Type v}

/-- Run the loop for some turns. -/
def loop (turn : State → Turn State Result) : Nat → State → Outcome Result
  | 0, _ => .running
  | fuel + 1, state =>
      match turn state with
      | .again next => loop turn fuel next
      | .exit result => .returned result
      | .failed => .failed

/-- The loop ends with the result. -/
def Returns (turn : State → Turn State Result) (state : State) (result : Result) : Prop :=
  ∃ fuel, loop turn fuel state = .returned result

/-- The states at the beginning of the turns. -/
inductive Reaches (turn : State → Turn State Result) : State → State → Prop
  | refl {state} : Reaches turn state state
  | again {state next last} : turn state = .again next → Reaches turn next last →
      Reaches turn state last

variable {turn : State → Turn State Result} {state next last : State} {result other : Result}

theorem loop_succ (turn : State → Turn State Result) (fuel : Nat) (state : State) :
    loop turn (fuel + 1) state =
      match turn state with
      | .again next => loop turn fuel next
      | .exit result => .returned result
      | .failed => .failed := rfl

theorem loop_succ_again (leads : turn state = .again next) (fuel : Nat) :
    loop turn (fuel + 1) state = loop turn fuel next := by
  rw [loop_succ, leads]

theorem returns_of_exit (leads : turn state = .exit result) : Returns turn state result :=
  ⟨1, by rw [loop_succ, leads]⟩

theorem returns_exit_iff (leads : turn state = .exit result) :
    Returns turn state other ↔ other = result := by
  constructor
  · rintro ⟨fuel, returned⟩
    cases fuel with
    | zero => cases returned
    | succ fuel =>
        rw [loop_succ, leads] at returned
        exact (Outcome.returned.inj returned).symm
  · rintro rfl
    exact returns_of_exit leads

theorem not_returns_of_failed (leads : turn state = .failed) : ¬ Returns turn state result := by
  rintro ⟨fuel, returned⟩
  cases fuel with
  | zero => cases returned
  | succ fuel =>
      rw [loop_succ, leads] at returned
      cases returned

theorem returns_again_iff (leads : turn state = .again next) :
    Returns turn state result ↔ Returns turn next result := by
  constructor
  · rintro ⟨fuel, returned⟩
    cases fuel with
    | zero => cases returned
    | succ fuel => exact ⟨fuel, by rwa [loop_succ_again leads] at returned⟩
  · rintro ⟨fuel, returned⟩
    exact ⟨fuel + 1, by rwa [loop_succ_again leads]⟩

/-- The loop does not end if it always comes to a state of a kind that it goes on from. -/
theorem not_returns_of_forever {Forever : State → Prop}
    (goesOn : ∀ state, Forever state → ∃ next, turn state = .again next ∧ Forever next)
    (forever : Forever state) : ¬ Returns turn state result := by
  rintro ⟨fuel, returned⟩
  induction fuel generalizing state with
  | zero => cases returned
  | succ fuel inductionHypothesis =>
      obtain ⟨next, leads, forever⟩ := goesOn state forever
      rw [loop_succ_again leads] at returned
      exact inductionHypothesis forever returned

theorem not_returns_of_stuck (leads : turn state = .again state) :
    ¬ Returns turn state result := by
  have goesOn : ∀ other, other = state → ∃ next, turn other = .again next ∧ next = state := by
    rintro other rfl
    exact ⟨other, leads, rfl⟩
  exact not_returns_of_forever goesOn rfl

/-- The invariant rule. -/
theorem Returns.invariant {Invariant : State → Prop}
    (preserved : ∀ state next, Invariant state → turn state = .again next → Invariant next)
    (initial : Invariant state) (returns : Returns turn state result) :
    ∃ last, Invariant last ∧ turn last = .exit result := by
  obtain ⟨fuel, returned⟩ := returns
  induction fuel generalizing state with
  | zero => cases returned
  | succ fuel inductionHypothesis =>
      cases leads : turn state with
      | again next =>
          rw [loop_succ_again leads] at returned
          exact inductionHypothesis (preserved state next initial leads) returned
      | exit other =>
          rw [loop_succ, leads] at returned
          obtain rfl := Outcome.returned.inj returned
          exact ⟨state, initial, leads⟩
      | failed =>
          rw [loop_succ, leads] at returned
          cases returned

/-- The variant rule. -/
theorem loop_of_variant {Invariant : State → Prop} {Property : Result → Prop}
    {variant : State → Nat}
    (advances : ∀ state, Invariant state →
      (∃ result, turn state = .exit result ∧ Property result) ∨
        ∃ next, turn state = .again next ∧ Invariant next ∧ variant next < variant state)
    (holds : Invariant state) {fuel : Nat} (enough : variant state < fuel) :
    ∃ result, loop turn fuel state = .returned result ∧ Property result := by
  induction fuel generalizing state with
  | zero => exact absurd enough (Nat.not_lt_zero _)
  | succ fuel inductionHypothesis =>
      rcases advances state holds with ⟨result, leads, property⟩ | ⟨next, leads, kept, less⟩
      · exact ⟨result, by rw [loop_succ, leads], property⟩
      · rw [loop_succ_again leads]
        exact inductionHypothesis kept (Nat.lt_of_lt_of_le less (Nat.le_of_lt_succ enough))

theorem Reaches.invariant {Invariant : State → Prop}
    (preserved : ∀ state next, Invariant state → turn state = .again next → Invariant next)
    (initial : Invariant state) (reaches : Reaches turn state last) : Invariant last := by
  induction reaches with
  | refl => exact initial
  | again leads _ inductionHypothesis => exact inductionHypothesis (preserved _ _ initial leads)

theorem Reaches.cases_again (leads : turn state = .again next) (reaches : Reaches turn state last) :
    last = state ∨ Reaches turn next last := by
  cases reaches with
  | refl => exact .inl rfl
  | again other reaches =>
      rw [leads] at other
      exact .inr (Turn.again.inj other ▸ reaches)

theorem Reaches.cases_exit (leads : ∀ next, turn state ≠ .again next)
    (reaches : Reaches turn state last) : last = state := by
  cases reaches with
  | refl => rfl
  | again other => exact absurd other (leads _)

end Ns3.Library
