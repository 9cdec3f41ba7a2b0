import Mathlib.Tactic.Ring

/-!
# Runs of a partial step function

A component is given by a step function `State → Action → Option State`, where
`none` means that the action cannot be performed (or does not complete) in that
state. `run` performs a list of actions; `Along` says that a condition on the
state before the step holds at every step the run takes. `Along.invariant` is
the induction every safety result of this development rests on: an invariant
which each conditioned step keeps holds at the end of every conditioned run.
-/

namespace SistemasOperativos.Semantics

universe u v

variable {State : Type u} {Action : Type v}

/-- Perform the actions of a list one after another. -/
def run (step : State → Action → Option State) : State → List Action → Option State
  | state, [] => some state
  | state, action :: actions =>
      match step state action with
      | none => none
      | some next => run step next actions

/-- `condition` holds before every step that the run takes. -/
def Along (step : State → Action → Option State) (condition : State → Action → Prop) :
    State → List Action → Prop
  | _, [] => True
  | state, action :: actions =>
      condition state action ∧
        match step state action with
        | none => True
        | some next => Along step condition next actions

variable {step : State → Action → Option State} {condition : State → Action → Prop}

/-- A decidable condition can be checked along a concrete run. -/
def Along.decide (step : State → Action → Option State) (condition : State → Action → Prop)
    [∀ state action, Decidable (condition state action)] :
    (state : State) → (actions : List Action) → Decidable (Along step condition state actions)
  | _, [] => .isTrue trivial
  | state, action :: actions =>
      have : Decidable (match step state action with
          | none => True
          | some next => Along step condition next actions) :=
        match step state action with
        | none => .isTrue trivial
        | some next => Along.decide step condition next actions
      inferInstanceAs (Decidable (_ ∧ _))

instance [∀ state action, Decidable (condition state action)] (state : State)
    (actions : List Action) : Decidable (Along step condition state actions) :=
  Along.decide step condition state actions

@[simp] theorem run_nil (state : State) : run step state [] = some state := rfl

/-- A run of at least one action takes its first step and continues from there. -/
theorem run_cons_eq_some {state final : State} {action : Action} {actions : List Action} :
    run step state (action :: actions) = some final ↔
      ∃ next, step state action = some next ∧ run step next actions = some final := by
  cases stepped : step state action with
  | none => simp [run, stepped]
  | some next => simp [run, stepped]

/-- A run of actions and then of further ones. -/
theorem run_append {state middle final : State} {first second : List Action}
    (ran : run step state first = some middle) (further : run step middle second = some final) :
    run step state (first ++ second) = some final := by
  induction first generalizing state with
  | nil =>
      cases ran
      exact further
  | cons action first ih =>
      obtain ⟨next, stepped, rest⟩ := run_cons_eq_some.mp ran
      exact run_cons_eq_some.mpr ⟨next, stepped, ih rest⟩

/-- Splitting a conditioned run at its first step. -/
theorem Along.head_tail {state next : State} {action : Action} {actions : List Action}
    (along : Along step condition state (action :: actions))
    (stepped : step state action = some next) :
    condition state action ∧ Along step condition next actions := by
  obtain ⟨here, rest⟩ := along
  rw [stepped] at rest
  exact ⟨here, rest⟩

/-- A weaker condition holds along the same runs. -/
theorem Along.mono {weaker : State → Action → Prop}
    (implies : ∀ state action, condition state action → weaker state action)
    {state : State} {actions : List Action} (along : Along step condition state actions) :
    Along step weaker state actions := by
  induction actions generalizing state with
  | nil => trivial
  | cons action actions ih =>
      refine ⟨implies state action along.1, ?_⟩
      have rest := along.2
      split
      · trivial
      · rename_i next stepped
        rw [stepped] at rest
        exact ih rest

/-- Two conditions that hold along a run hold together along it. -/
theorem Along.and {other : State → Action → Prop} {state : State} {actions : List Action}
    (first : Along step condition state actions) (second : Along step other state actions) :
    Along step (fun state action => condition state action ∧ other state action) state actions := by
  induction actions generalizing state with
  | nil => trivial
  | cons action actions ih =>
      refine ⟨⟨first.1, second.1⟩, ?_⟩
      have firstRest := first.2
      have secondRest := second.2
      split
      · trivial
      · rename_i next stepped
        rw [stepped] at firstRest secondRest
        exact ih firstRest secondRest

/-- An invariant kept by every conditioned step holds at the end of every
conditioned run. -/
theorem Along.invariant {inv : State → Prop}
    (preserved : ∀ state action next, inv state → condition state action →
      step state action = some next → inv next)
    {state final : State} {actions : List Action} (start : inv state)
    (along : Along step condition state actions)
    (ran : run step state actions = some final) : inv final := by
  induction actions generalizing state with
  | nil =>
      cases ran
      exact start
  | cons action actions ih =>
      obtain ⟨next, stepped, rest⟩ := run_cons_eq_some.mp ran
      obtain ⟨here, along⟩ := along.head_tail stepped
      exact ih (preserved state action next start here stepped) along rest

/-- An invariant kept by every step holds at the end of every run. -/
theorem run_invariant {inv : State → Prop}
    (preserved : ∀ state action next, inv state → step state action = some next → inv next)
    {state final : State} {actions : List Action} (start : inv state)
    (ran : run step state actions = some final) : inv final := by
  induction actions generalizing state with
  | nil =>
      cases ran
      exact start
  | cons action actions ih =>
      obtain ⟨next, stepped, rest⟩ := run_cons_eq_some.mp ran
      exact ih (preserved state action next start stepped) rest

end SistemasOperativos.Semantics
