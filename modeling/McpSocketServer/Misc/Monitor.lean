import McpSocketServer.Misc.Lts
import Mathlib.Data.Finset.Card

/-!
# Waiting on a condition variable

A `Monitor` is a system of threads with a loop in which a thread waits until a condition
holds of the shared state. In the system itself a waiting thread simply does not move.
`Monitor.lts` says how the waiting is done: a thread that finds the condition false goes to
sleep in the same critical section, a sleeping thread does not move, a step that notifies
wakes all of them, and a wait may also end by itself.

Three rules are given once. Sleeping changes nothing that the threads do
(`forget`, `lift`). When only notifying steps can make the condition true, no
thread sleeps while it holds (`asleep_not_ready`). When every step of the system lowers a
measure, the steps and the naps together come to an end, with a bound (`Settles.run_length`).
-/

namespace McpSocketServer

/-- Threads that move by `system`, and wait for `ready` in a loop. `patient s t r` says that
thread `t` is in the loop and would rather sleep than give up, at the reading `r`. -/
structure Monitor (σ ℓ ρ : Type) where
  system : Lts σ ℓ
  actor : ℓ → Nat
  patient : σ → Nat → ρ → Bool
  ready : σ → Bool
  notifies : ℓ → Bool

/-- A state of the system with the threads that are asleep. -/
structure Monitored (σ : Type) where
  state : σ
  asleep : Nat → Bool := fun _ => false

/-- A step of the system, a thread that falls asleep, or one that wakes up without being notified. -/
inductive MonitorStep (ℓ ρ : Type) where
  | move (l : ℓ)
  | sleep (t : Nat) (r : ρ)
  | wake (t : Nat)

namespace Monitor

variable {σ ℓ ρ : Type} (M : Monitor σ ℓ ρ)

/-- The system with its waiting. -/
def lts : Lts (Monitored σ) (MonitorStep ℓ ρ) where
  init w := M.system.init w.state ∧ ∀ t, w.asleep t = false
  step w
    | .move l =>
      if w.asleep (M.actor l) then none
      else (M.system.step w.state l).map fun s =>
        ⟨s, if M.notifies l then fun _ => false else w.asleep⟩
    | .sleep t r =>
      if w.asleep t = false ∧ M.patient w.state t r = true ∧ M.ready w.state = false then
        some { w with asleep := Function.update w.asleep t true }
      else none
    | .wake t =>
      if w.asleep t then some { w with asleep := Function.update w.asleep t false } else none

variable {M} {w w' : Monitored σ} {s : σ}

theorem step_move {l : ℓ} (h : M.lts.step w (.move l) = some w') :
    w.asleep (M.actor l) = false ∧ M.system.step w.state l = some w'.state ∧
      w'.asleep = if M.notifies l then fun _ => false else w.asleep := by
  simp only [lts, Option.ite_none_left_eq_some, Option.map_eq_some_iff,
    Bool.not_eq_true] at h
  obtain ⟨hawake, s, hstep, rfl⟩ := h
  exact ⟨hawake, hstep, rfl⟩

theorem step_sleep {t : Nat} {r : ρ} (h : M.lts.step w (.sleep t r) = some w') :
    w.asleep t = false ∧ M.patient w.state t r = true ∧ M.ready w.state = false ∧
      w' = { w with asleep := Function.update w.asleep t true } := by
  simp only [lts, Option.ite_none_right_eq_some, Option.some.injEq] at h
  obtain ⟨⟨hawake, hpatient, hready⟩, rfl⟩ := h
  exact ⟨hawake, hpatient, hready, rfl⟩

theorem step_wake {t : Nat} (h : M.lts.step w (.wake t) = some w') :
    w.asleep t = true ∧ w' = { w with asleep := Function.update w.asleep t false } := by
  simp only [lts, Option.ite_none_right_eq_some, Option.some.injEq] at h
  obtain ⟨hasleep, rfl⟩ := h
  exact ⟨hasleep, rfl⟩

/-! ### The waiting is invisible -/

/-- Without the sleeping threads, a run with waiting is a run of the system. -/
theorem forget {C : Monitored σ → MonitorStep ℓ ρ → Prop} (h : M.lts.Reachable C w) :
    M.system.Reachable Lts.always w.state := by
  induction h with
  | init hw => exact .init hw.1
  | @step w w' l _ _ hstep ih =>
      cases l with
      | move l => exact .step ih trivial (step_move hstep).2.1
      | sleep t r =>
          obtain ⟨-, -, -, rfl⟩ := step_sleep hstep
          exact ih
      | wake t =>
          obtain ⟨-, rfl⟩ := step_wake hstep
          exact ih

/-- A run of the system is a run with waiting, in which nobody happens to sleep. -/
theorem lift (h : M.system.Reachable Lts.always s) :
    M.lts.Reachable Lts.always ⟨s, fun _ => false⟩ := by
  induction h with
  | init hs => exact .init ⟨hs, fun _ => rfl⟩
  | @step s s' l _ _ hstep ih =>
      refine .step (l := .move l) ih trivial ?_
      simp [lts, hstep]

/-! ### No lost wakeup -/

/-- A thread that sleeps after a step has just gone to sleep, or it slept before and the step
was another thread's and did not notify. -/
theorem asleep_step {l : MonitorStep ℓ ρ} (h : M.lts.step w l = some w') {t : Nat}
    (ht : w'.asleep t = true) :
    (w'.state = w.state ∧ M.ready w.state = false ∧ ∃ r, M.patient w.state t r = true) ∨
      (w'.state = w.state ∧ w.asleep t = true) ∨
      ∃ m, M.system.step w.state m = some w'.state ∧ t ≠ M.actor m ∧ M.notifies m = false ∧
        w.asleep t = true := by
  cases l with
  | move m =>
      obtain ⟨hawake, hsys, hasleep⟩ := step_move h
      rw [hasleep] at ht
      split at ht
      · cases ht
      · rename_i hsilent
        have hne : t ≠ M.actor m := fun heq => by rw [heq, hawake] at ht; cases ht
        exact Or.inr (Or.inr ⟨m, hsys, hne, Bool.eq_false_of_not_eq_true hsilent, ht⟩)
  | sleep u r =>
      obtain ⟨-, hpatient, hready, rfl⟩ := step_sleep h
      by_cases hu : t = u
      · subst hu
        exact Or.inl ⟨rfl, hready, r, hpatient⟩
      · exact Or.inr (Or.inl ⟨rfl, by simpa [hu] using ht⟩)
  | wake u =>
      obtain ⟨-, rfl⟩ := step_wake h
      by_cases hu : t = u
      · simp [hu] at ht
      · exact Or.inr (Or.inl ⟨rfl, by simpa [hu] using ht⟩)

/-- A thread that sleeps is in the loop, when nobody else takes it out. -/
theorem asleep_waiting {C : Monitored σ → MonitorStep ℓ ρ → Prop} {waiting : σ → Nat → Prop}
    (henter : ∀ s t r, M.patient s t r = true → waiting s t)
    (hstay : ∀ s l s' t, M.system.step s l = some s' → t ≠ M.actor l → waiting s t →
      waiting s' t)
    (h : M.lts.Reachable C w) {t : Nat} (ht : w.asleep t = true) : waiting w.state t := by
  induction h with
  | init hw => rw [hw.2 t] at ht; cases ht
  | @step w w' l _ _ hstep ih =>
      rcases asleep_step hstep ht with ⟨hs, -, r, hpatient⟩ | ⟨hs, hbefore⟩ |
        ⟨m, hsys, hne, -, hbefore⟩
      · exact hs ▸ henter _ _ r hpatient
      · exact hs ▸ ih hbefore
      · exact hstay _ m _ t hsys hne (ih hbefore)

/-- Where every step that can make the condition true notifies, nobody sleeps while it holds. -/
theorem asleep_not_ready {C : Monitored σ → MonitorStep ℓ ρ → Prop}
    (hquiet : ∀ s l s', M.system.Reachable Lts.always s → M.system.step s l = some s' →
      M.notifies l = false → M.ready s = false → M.ready s' = false)
    (h : M.lts.Reachable C w) {t : Nat} (ht : w.asleep t = true) : M.ready w.state = false := by
  induction h with
  | init hw => rw [hw.2 t] at ht; cases ht
  | @step w w' l hr _ hstep ih =>
      rcases asleep_step hstep ht with ⟨hs, hready, -⟩ | ⟨hs, hbefore⟩ |
        ⟨m, hsys, -, hsilent, hbefore⟩
      · exact hs ▸ hready
      · exact hs ▸ ih hbefore
      · exact hquiet _ m _ (forget hr) hsys hsilent (ih hbefore)

/-! ### The naps come to an end -/

/-- The steps of a run without waits that end by themselves, and with moves from `fine`. -/
def Calm (fine : ℓ → Prop) : MonitorStep ℓ ρ → Prop
  | .move l => fine l
  | .sleep _ _ => True
  | .wake _ => False

/-- How many of the first `n` threads are awake. -/
def awake (n : Nat) (asleep : Nat → Bool) : Nat :=
  ((Finset.range n).filter fun t => asleep t = false).card

theorem awake_le (n : Nat) (asleep : Nat → Bool) : awake n asleep ≤ n :=
  (Finset.card_filter_le _ _).trans_eq (Finset.card_range n)

/-- One of the threads falls asleep. -/
theorem awake_update {n t : Nat} {asleep : Nat → Bool} (ht : t < n) (h : asleep t = false) :
    awake n (Function.update asleep t true) + 1 = awake n asleep := by
  have hset : (Finset.range n).filter (fun u => Function.update asleep t true u = false) =
      ((Finset.range n).filter fun u => asleep u = false).erase t := by
    ext u
    by_cases hu : u = t
    · subst hu; simp
    · simp [hu]
  rw [awake, awake, hset]
  exact Finset.card_erase_add_one (Finset.mem_filter.mpr ⟨Finset.mem_range.mpr ht, h⟩)

/-- The moves from `fine` keep `I` and lower the measure, and only the first `n` threads wait. -/
structure Settles (M : Monitor σ ℓ ρ) (fine : ℓ → Prop) (I : σ → Prop) (μ : σ → Nat)
    (n : Nat) : Prop where
  keeps : ∀ s l s', I s → fine l → M.system.step s l = some s' → I s'
  falls : ∀ s l s', I s → fine l → M.system.step s l = some s' → μ s' < μ s
  few : ∀ s t r, I s → M.patient s t r = true → t < n

namespace Settles

variable {fine : ℓ → Prop} {I : σ → Prop} {μ : σ → Nat} {n : Nat}

/-- One step: a move may wake everybody but lowers the measure, a nap leaves one thread less
awake. -/
theorem step (h : Settles M fine I μ n) {l : MonitorStep ℓ ρ} (hl : Calm fine l)
    (hI : I w.state) (hstep : M.lts.step w l = some w') :
    I w'.state ∧ (n + 1) * μ w'.state + awake n w'.asleep <
      (n + 1) * μ w.state + awake n w.asleep := by
  cases l with
  | move l =>
      obtain ⟨-, hsys, -⟩ := step_move hstep
      refine ⟨h.keeps _ l _ hI hl hsys, ?_⟩
      have hfall : μ w'.state + 1 ≤ μ w.state := h.falls _ l _ hI hl hsys
      have hscaled : (n + 1) * (μ w'.state + 1) ≤ (n + 1) * μ w.state :=
        Nat.mul_le_mul_left _ hfall
      have hawake := awake_le n w'.asleep
      rw [Nat.mul_succ] at hscaled
      omega
  | sleep t r =>
      obtain ⟨hawake, hpatient, -, rfl⟩ := step_sleep hstep
      have hcount := awake_update (h.few _ t r hI hpatient) hawake
      exact ⟨hI, by simp only; omega⟩
  | wake t => exact absurd hl id

/-- A calm run is no longer than the measure allows, whatever its schedule. -/
theorem run_length (h : Settles M fine I μ n) {ls : List (MonitorStep ℓ ρ)}
    (hls : ∀ l ∈ ls, Calm fine l) (hI : I w.state) (hrun : M.lts.run ls w = some w') :
    I w'.state ∧ ls.length + ((n + 1) * μ w'.state + awake n w'.asleep) ≤
      (n + 1) * μ w.state + awake n w.asleep := by
  induction ls generalizing w with
  | nil =>
      simp only [Lts.run, Option.some.injEq] at hrun
      subst hrun
      exact ⟨hI, by simp⟩
  | cons l ls ih =>
      obtain ⟨w₁, hstep, hrest⟩ := Option.bind_eq_some_iff.mp hrun
      obtain ⟨hI₁, hless⟩ := h.step (hls l List.mem_cons_self) hI hstep
      obtain ⟨hI', hbound⟩ := ih (fun l' hl' => hls l' (List.mem_cons_of_mem _ hl')) hI₁ hrest
      refine ⟨hI', ?_⟩
      rw [List.length_cons]
      omega

end Settles

end Monitor

end McpSocketServer
