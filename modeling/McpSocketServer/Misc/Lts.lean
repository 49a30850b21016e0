import Mathlib.Logic.Function.Basic

/-!
# Labelled transition systems and runs under a condition

A system moves by an executable partial step function: `step s l = some s'` when
the label `l` is enabled in `s` and leads to `s'`. Labels carry every choice of
the scheduler and of the environment, so one label has at most one outcome.

`Reachable T C s` says that some run of `T`, every step of which meets the
condition `C` on the state before the step and on the label, ends in `s`. The
unconditional runs are those under `Lts.always`. The file gives the induction
rule for invariants once (`Invariant.reachable`), and the two ways in which a
concrete list of labels is turned into a reachable state.
-/

namespace McpSocketServer

/-- A transition system over states `σ` and labels `ℓ`. -/
structure Lts (σ : Type) (ℓ : Type) where
  init : σ → Prop
  step : σ → ℓ → Option σ

namespace Lts

variable {σ ℓ : Type}

/-- The condition that every step meets. -/
def always : σ → ℓ → Prop := fun _ _ => True

/-- The states reached by the runs of `T` whose steps all meet `C`. -/
inductive Reachable (T : Lts σ ℓ) (C : σ → ℓ → Prop) : σ → Prop
  | init {s : σ} : T.init s → Reachable T C s
  | step {s s' : σ} {l : ℓ} : Reachable T C s → C s l → T.step s l = some s' → Reachable T C s'

/-- `P` holds initially and every step that meets `C` keeps it. The step may use that its
source state is reachable, so that invariants can be stacked. -/
structure Invariant (T : Lts σ ℓ) (C : σ → ℓ → Prop) (P : σ → Prop) : Prop where
  init : ∀ s, T.init s → P s
  step : ∀ s l s', T.Reachable C s → P s → C s l → T.step s l = some s' → P s'

/-- An invariant holds in every state reached. -/
theorem Invariant.reachable {T : Lts σ ℓ} {C : σ → ℓ → Prop} {P : σ → Prop}
    (hP : T.Invariant C P) {s : σ} (h : T.Reachable C s) : P s := by
  induction h with
  | init hs => exact hP.init _ hs
  | step hr hc hst ih => exact hP.step _ _ _ hr ih hc hst

/-- Perform the labels in order. -/
def run (T : Lts σ ℓ) : List ℓ → σ → Option σ
  | [], s => some s
  | l :: ls, s => (T.step s l).bind (T.run ls)

theorem Reachable.of_run {T : Lts σ ℓ} {ls : List ℓ} {s s' : σ}
    (hs : T.Reachable always s) (h : T.run ls s = some s') : T.Reachable always s' := by
  induction ls generalizing s with
  | nil =>
      simp only [run, Option.some.injEq] at h
      exact h ▸ hs
  | cons l ls ih =>
      obtain ⟨s₁, hstep, hrest⟩ := Option.bind_eq_some_iff.mp h
      exact ih (.step hs trivial hstep) hrest

/-- A run of labels from `L` meets the condition as long as an invariant guarantees it. -/
theorem Reachable.of_run_within {T : Lts σ ℓ} {C : σ → ℓ → Prop} {I : σ → Prop} {L : ℓ → Prop}
    (hC : ∀ s l, I s → L l → C s l)
    (hI : ∀ s l s', I s → L l → T.step s l = some s' → I s') {ls : List ℓ} (hL : ∀ l ∈ ls, L l)
    {s s' : σ} (hs : T.Reachable C s) (hIs : I s) (h : T.run ls s = some s') :
    T.Reachable C s' := by
  induction ls generalizing s with
  | nil =>
      simp only [run, Option.some.injEq] at h
      exact h ▸ hs
  | cons l ls ih =>
      obtain ⟨s₁, hstep, hrest⟩ := Option.bind_eq_some_iff.mp h
      have hl : L l := hL l List.mem_cons_self
      exact ih (fun l' hl' => hL l' (List.mem_cons_of_mem _ hl')) (.step hs (hC s l hIs hl) hstep)
        (hI s l s₁ hIs hl hstep) hrest

/-- Perform the labels in order as long as each of them meets the condition. -/
def runWhen (T : Lts σ ℓ) (C : σ → ℓ → Prop) [∀ s l, Decidable (C s l)] :
    List ℓ → σ → Option σ
  | [], s => some s
  | l :: ls, s => if C s l then (T.step s l).bind (T.runWhen C ls) else none

theorem Reachable.of_runWhen {T : Lts σ ℓ} {C : σ → ℓ → Prop} [∀ s l, Decidable (C s l)]
    {ls : List ℓ} {s s' : σ} (hs : T.Reachable C s) (h : T.runWhen C ls s = some s') :
    T.Reachable C s' := by
  induction ls generalizing s with
  | nil =>
      simp only [runWhen, Option.some.injEq] at h
      exact h ▸ hs
  | cons l ls ih =>
      simp only [runWhen, Option.ite_none_right_eq_some] at h
      obtain ⟨hC, h⟩ := h
      obtain ⟨s₁, hstep, hrest⟩ := Option.bind_eq_some_iff.mp h
      exact ih (.step hs hC hstep) hrest

end Lts

end McpSocketServer
