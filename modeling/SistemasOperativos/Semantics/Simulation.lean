import SistemasOperativos.Semantics.Run

/-!
# Following a run

A run of one machine is followed by a run of another with the same actions when a relation
between their states holds at the start and every step of the first has one of the second that
keeps it (`run_follows`).

`count` is how many steps of a run have a property. A measure of the state that a step may
raise by one only where it earns, and that falls by one wherever it spends, bounds how often
the run spends (`Along.account`).
-/

namespace SistemasOperativos.Semantics

universe u v w

variable {State : Type u} {Action : Type v} {Other : Type w}

/-- A relation that every step keeps leads along a whole run. -/
theorem run_follows {step : State → Action → Option State} {other : Other → Action → Option Other}
    {related : State → Other → Prop}
    (followed : ∀ state there action next, related state there → step state action = some next →
      ∃ after, other there action = some after ∧ related next after)
    {state final : State} {there : Other} {actions : List Action} (start : related state there)
    (ran : run step state actions = some final) :
    ∃ after, run other there actions = some after ∧ related final after := by
  induction actions generalizing state there with
  | nil =>
      cases ran
      exact ⟨there, rfl, start⟩
  | cons action actions ih =>
      obtain ⟨next, stepped, rest⟩ := run_cons_eq_some.mp ran
      obtain ⟨middle, moved, kept⟩ := followed state there action next start stepped
      obtain ⟨after, reached, last⟩ := ih kept rest
      exact ⟨after, run_cons_eq_some.mpr ⟨middle, moved, reached⟩, last⟩

/-- The number of steps of a run before which the property holds. -/
def count (step : State → Action → Option State) (property : State → Action → Prop)
    [∀ state action, Decidable (property state action)] : State → List Action → Nat
  | _, [] => 0
  | state, action :: actions =>
      (if property state action then 1 else 0) +
        match step state action with
        | none => 0
        | some next => count step property next actions

section Account

variable {step : State → Action → Option State} {condition spends earns : State → Action → Prop}
  [∀ state action, Decidable (spends state action)]
  [∀ state action, Decidable (earns state action)]

/-- The count of a run is that of its first step and that of its rest. -/
theorem count_cons {state next : State} {action : Action}
    (stepped : step state action = some next) (actions : List Action) :
    count step spends state (action :: actions) =
      (if spends state action then 1 else 0) + count step spends next actions := by
  rw [count, stepped]

/-- What a run ends with and what it spent is no more than what it began with and what it
earned. -/
theorem Along.account {inv : State → Prop} {measure : State → Nat}
    (accounted : ∀ state action next, inv state → condition state action →
      step state action = some next → inv next ∧
        measure next + (if spends state action then 1 else 0) ≤
          measure state + (if earns state action then 1 else 0))
    {state final : State} {actions : List Action} (start : inv state)
    (along : Along step condition state actions) (ran : run step state actions = some final) :
    inv final ∧ measure final + count step spends state actions ≤
      measure state + count step earns state actions := by
  induction actions generalizing state with
  | nil =>
      cases ran
      exact ⟨start, Nat.le_refl _⟩
  | cons action actions ih =>
      obtain ⟨next, stepped, rest⟩ := run_cons_eq_some.mp ran
      obtain ⟨here, along⟩ := along.head_tail stepped
      obtain ⟨kept, paid⟩ := accounted state action next start here stepped
      obtain ⟨last, total⟩ := ih kept along rest
      rw [count_cons stepped, count_cons stepped]
      exact ⟨last, by omega⟩

end Account

end SistemasOperativos.Semantics
