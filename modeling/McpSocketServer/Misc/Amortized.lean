import McpSocketServer.Misc.Lts

/-!
# Amortised costs of runs

Every step of a run costs something and may bring something in. Where no step costs more than
it brings in and takes out of a potential, a run costs no more than it brings in and the
potential with which it begins.
-/

namespace McpSocketServer

namespace Lts

variable {σ ℓ : Type}

/-- The run of the labels from one state to another, every step of which meets `C`. -/
inductive Run (T : Lts σ ℓ) (C : σ → ℓ → Prop) : σ → List ℓ → σ → Prop
  | nil (s : σ) : Run T C s [] s
  | cons {s s₁ s' : σ} {l : ℓ} {ls : List ℓ} : C s l → T.step s l = some s₁ → Run T C s₁ ls s' →
      Run T C s (l :: ls) s'

/-- The sum of `f` over the steps of a run. -/
def total (T : Lts σ ℓ) (f : σ → ℓ → Nat) : List ℓ → σ → Nat
  | [], _ => 0
  | l :: ls, s => f s l + (T.step s l).elim 0 (T.total f ls)

theorem total_cons {T : Lts σ ℓ} {f : σ → ℓ → Nat} {s s₁ : σ} {l : ℓ} (ls : List ℓ)
    (hstep : T.step s l = some s₁) : T.total f (l :: ls) s = f s l + T.total f ls s₁ := by
  rw [total, hstep, Option.elim_some]

theorem total_zero {T : Lts σ ℓ} (ls : List ℓ) (s : σ) : T.total (fun _ _ => 0) ls s = 0 := by
  induction ls generalizing s with
  | nil => rfl
  | cons l ls ih =>
      rw [total]
      cases T.step s l with
      | none => rfl
      | some s' => simpa using ih s'

/-- A list of labels that can be performed is an unconditional run. -/
theorem Run.of_run {T : Lts σ ℓ} {ls : List ℓ} {s s' : σ} (h : T.run ls s = some s') :
    T.Run always s ls s' := by
  induction ls generalizing s with
  | nil =>
      obtain rfl : s = s' := Option.some.inj h
      exact .nil s
  | cons l ls ih =>
      obtain ⟨s₁, hstep, hrest⟩ := Option.bind_eq_some_iff.mp h
      exact .cons trivial hstep (ih hrest)

/-- From a step that keeps `I` to a run that does. -/
theorem Run.append {T : Lts σ ℓ} {C : σ → ℓ → Prop} {ls ls' : List ℓ} {s s₁ s' : σ}
    (h : T.Run C s ls s₁) (h' : T.Run C s₁ ls' s') : T.Run C s (ls ++ ls') s' := by
  induction h with
  | nil s => exact h'
  | cons hC hstep _ ih => exact .cons hC hstep (ih h')

theorem Run.invariant {T : Lts σ ℓ} {C : σ → ℓ → Prop} {I : σ → Prop}
    (hI : ∀ s l s', I s → C s l → T.step s l = some s' → I s') {s s' : σ} {ls : List ℓ}
    (hrun : T.Run C s ls s') (hs : I s) : I s' := by
  induction hrun with
  | nil s => exact hs
  | cons hC hstep _ ih => exact ih (hI _ _ _ hs hC hstep)

/-- From a step that pays for itself out of the potential and what it brings in to a run that
does. `I` is an invariant that the steps may use. -/
theorem Run.amortized {T : Lts σ ℓ} {C : σ → ℓ → Prop} {I : σ → Prop} {φ : σ → Nat}
    {cost income : σ → ℓ → Nat}
    (hI : ∀ s l s', I s → C s l → T.step s l = some s' → I s')
    (hpay : ∀ s l s', I s → C s l → T.step s l = some s' →
      cost s l + φ s' ≤ φ s + income s l) {s s' : σ} {ls : List ℓ} (hrun : T.Run C s ls s')
    (hs : I s) : T.total cost ls s + φ s' ≤ φ s + T.total income ls s := by
  induction hrun with
  | nil s => exact Nat.le_of_eq (by simp [total])
  | @cons s s₁ s' l ls hC hstep _ ih =>
      have hrest := ih (hI s l s₁ hs hC hstep)
      have hfirst := hpay s l s₁ hs hC hstep
      rw [total_cons ls hstep, total_cons ls hstep]
      omega

end Lts

end McpSocketServer
