import Mathlib.Tactic.Ring

/-!
# What the clients of a machine can tell apart

A machine serves a request in a state: it moves on and gives an answer, or it
has no behaviour (`none`). `answers` is what a client sees of a sequence of
requests. Two states are `Indistinguishable` when every sequence of requests
gets the same answers from both, and then so are the states that the same
request leads to (`Indistinguishable.served`).
-/

namespace SistemasOperativos.Semantics

universe u v w

variable {State : Type u} {Request : Type v} {Answer : Type w}

/-- The answers to a sequence of requests, up to the first that is not served. -/
def answers (serve : State → Request → Option (State × Answer)) :
    State → List Request → List Answer
  | _, [] => []
  | state, request :: requests =>
      match serve state request with
      | none => []
      | some (next, answer) => answer :: answers serve next requests

/-- No sequence of requests tells the two states apart. -/
def Indistinguishable (serve : State → Request → Option (State × Answer)) (one other : State) :
    Prop :=
  ∀ requests, answers serve one requests = answers serve other requests

namespace Indistinguishable

variable {serve : State → Request → Option (State × Answer)} {one other : State}

/-- A state cannot be told from itself. -/
theorem refl (state : State) : Indistinguishable serve state state := fun _ => rfl

/-- It does not matter which of two states is named first. -/
theorem symm (same : Indistinguishable serve one other) : Indistinguishable serve other one :=
  fun requests => (same requests).symm

/-- What one state serves the other serves with the same answer, and the states
they move to are indistinguishable again. -/
theorem served (same : Indistinguishable serve one other) {request : Request} {next : State}
    {answer : Answer} (here : serve one request = some (next, answer)) :
    ∃ there, serve other request = some (there, answer) ∧
      Indistinguishable serve next there := by
  have first := same [request]
  cases otherServed : serve other request with
  | none => simp [answers, here, otherServed] at first
  | some result =>
      obtain ⟨there, reply⟩ := result
      simp only [answers, here, otherServed, List.cons.injEq, and_true] at first
      subst first
      refine ⟨there, rfl, fun requests => ?_⟩
      have rest := same (request :: requests)
      simp only [answers, here, otherServed, List.cons.injEq, true_and] at rest
      exact rest

end Indistinguishable

end SistemasOperativos.Semantics
