import Mathlib.Logic.Basic

/-!
# Machines that answer inputs

A machine reads an input, answers it and moves to a new state. A simulation relates the states
of two machines with the same inputs and answers. Related machines cannot be told apart by any
sequence of inputs, and end in related states.
-/

namespace McpSocketServer

/-- A machine over states `σ` that answers inputs `ι` with answers `ο`. -/
structure Machine (σ ι ο : Type) where
  start : σ
  step : σ → ι → ο × σ

namespace Machine

variable {σ τ ι ο : Type}

/-- The answers to a sequence of inputs, and the state after them. -/
def run (M : Machine σ ι ο) : List ι → σ → List ο × σ
  | [], s => ([], s)
  | i :: is, s => ((M.step s i).1 :: (M.run is (M.step s i).2).1, (M.run is (M.step s i).2).2)

/-- Related states answer alike and move to related states. -/
structure Simulates (M : Machine σ ι ο) (N : Machine τ ι ο) (R : σ → τ → Prop) : Prop where
  start : R M.start N.start
  answer : ∀ s t i, R s t → (M.step s i).1 = (N.step t i).1
  step : ∀ s t i, R s t → R (M.step s i).2 (N.step t i).2

namespace Simulates

variable {M : Machine σ ι ο} {N : Machine τ ι ο} {R : σ → τ → Prop}

theorem run_from (h : Simulates M N R) (is : List ι) {s : σ} {t : τ} (hst : R s t) :
    (M.run is s).1 = (N.run is t).1 ∧ R (M.run is s).2 (N.run is t).2 := by
  induction is generalizing s t with
  | nil => exact ⟨rfl, hst⟩
  | cons i is ih =>
      obtain ⟨hanswers, hend⟩ := ih (h.step s t i hst)
      exact ⟨congrArg₂ List.cons (h.answer s t i hst) hanswers, hend⟩

/-- The machines answer every sequence of inputs alike and end in related states. -/
theorem run (h : Simulates M N R) (is : List ι) :
    (M.run is M.start).1 = (N.run is N.start).1 ∧
      R (M.run is M.start).2 (N.run is N.start).2 :=
  h.run_from is h.start

end Simulates

end Machine

end McpSocketServer
