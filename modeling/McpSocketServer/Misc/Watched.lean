import McpSocketServer.Misc.Lts

/-!
# Runs under a clock, with a log

`T.watched reading note` is the system `T` under a clock that does not go back: a label with
a reading is enabled only when the reading is not before the last one. A log that no step
reads collects what `note` says about each step. Properties of whole runs, such as what an
operation found and what became of it later, are invariants of the watched system.
-/

namespace McpSocketServer

/-- A state of `T` with the last clock reading and the log. -/
structure Watched (σ η : Type) where
  state : σ
  clock : Int
  log : List η := []

namespace Lts

variable {σ ℓ η : Type}

/-- `T` under a clock, with a log. -/
def watched (T : Lts σ ℓ) (reading : ℓ → Option Int) (note : σ → ℓ → List η) :
    Lts (Watched σ η) ℓ where
  init w := T.init w.state ∧ w.log = []
  step w l :=
    if w.clock ≤ (reading l).getD w.clock then
      (T.step w.state l).map fun s =>
        ⟨s, (reading l).getD w.clock, w.log ++ note w.state l⟩
    else none

variable {T : Lts σ ℓ} {reading : ℓ → Option Int} {note : σ → ℓ → List η}

/-- A step of the watched system is a step of `T` at the reading of its label. -/
theorem step_watched {w w' : Watched σ η} {l : ℓ}
    (h : (T.watched reading note).step w l = some w') :
    T.step w.state l = some w'.state ∧ w.clock ≤ w'.clock ∧
      w'.clock = (reading l).getD w.clock ∧ w'.log = w.log ++ note w.state l := by
  simp only [watched, Option.ite_none_right_eq_some, Option.map_eq_some_iff] at h
  obtain ⟨hclock, s, hstep, rfl⟩ := h
  exact ⟨hstep, hclock, rfl, rfl⟩

/-- Without the clock and the log, a run of the watched system is a run of `T`. -/
theorem Reachable.unwatched {C : Watched σ η → ℓ → Prop} {w : Watched σ η}
    (h : (T.watched reading note).Reachable C w) : T.Reachable always w.state := by
  induction h with
  | init hw => exact .init hw.1
  | step _ _ hstep ih => exact .step ih trivial (step_watched hstep).1

end Lts

end McpSocketServer
