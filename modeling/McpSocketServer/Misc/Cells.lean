import McpSocketServer.Misc.Machine
import Mathlib.Data.List.Basic

/-!
# Machines made of independent cells

The inputs of such a machine name a key, and each of them is answered by the cell of its key
alone and changes no other cell. What a sequence of inputs does is then said key by key: the
answers to the inputs of a key, and its cell in the end, are those of the cell's own machine on
these inputs, whatever stands between them. Callers that keep to keys of their own cannot tell
one schedule from another.
-/

namespace McpSocketServer

/-- The machine with inputs that say who called. -/
def Machine.called {σ ι ο : Type} (M : Machine σ ι ο) (τ : Type) : Machine σ (τ × ι) ο where
  start := M.start
  step s i := M.step s i.2

/-- `M` consists of cells, each of which runs `N` on the inputs with its key. -/
structure Cells {σ α ι ο : Type} (M : Machine σ ι ο) (N : Machine α ι ο) (κ : Type) where
  key : ι → κ
  cell : σ → κ → α
  start : ∀ k, cell M.start k = N.start
  answer : ∀ s i, (M.step s i).1 = (N.step (cell s (key i)) i).1
  own : ∀ s i, cell (M.step s i).2 (key i) = (N.step (cell s (key i)) i).2
  frame : ∀ s i k, k ≠ key i → cell (M.step s i).2 k = cell s k

namespace Cells

variable {σ α ι ο κ : Type} {M : Machine σ ι ο} {N : Machine α ι ο} [DecidableEq κ]

/-- The answers to those inputs that satisfy `p`. -/
def answersTo (p : ι → Bool) (is : List ι) (answers : List ο) : List ο :=
  ((is.zip answers).filter fun io => p io.1).map Prod.snd

@[simp] theorem answersTo_nil (p : ι → Bool) (answers : List ο) :
    answersTo p [] answers = [] := rfl

theorem answersTo_cons (p : ι → Bool) (i : ι) (is : List ι) (o : ο) (answers : List ο) :
    answersTo p (i :: is) (o :: answers) =
      if p i then o :: answersTo p is answers else answersTo p is answers := by
  by_cases hp : p i = true <;> simp [answersTo, hp]

/-- Key by key, a run of the machine is a run of the cell on the inputs with its key. -/
theorem run_cell (C : Cells M N κ) (is : List ι) (s : σ) (k : κ) :
    answersTo (fun i => C.key i = k) is (M.run is s).1 =
        (N.run (is.filter fun i => C.key i = k) (C.cell s k)).1 ∧
      C.cell (M.run is s).2 k = (N.run (is.filter fun i => C.key i = k) (C.cell s k)).2 := by
  induction is generalizing s with
  | nil => exact ⟨rfl, rfl⟩
  | cons i is ih =>
      obtain ⟨hanswers, hcell⟩ := ih (M.step s i).2
      by_cases hk : C.key i = k
      · subst hk
        rw [C.own] at hanswers hcell
        refine ⟨?_, ?_⟩
        · simp only [Machine.run, answersTo_cons, decide_true, if_true, List.filter_cons]
          rw [hanswers, C.answer]
        · simpa [Machine.run, List.filter_cons] using hcell
      · rw [C.frame s i k (Ne.symm hk)] at hanswers hcell
        refine ⟨?_, ?_⟩
        · simpa [Machine.run, answersTo_cons, List.filter_cons, hk] using hanswers
        · simpa [Machine.run, List.filter_cons, hk] using hcell

/-- The answers to the inputs of some keys, and their cells, do not depend on the other inputs. -/
theorem run_filter (C : Cells M N κ) (P : κ → Bool) (is : List ι) {s s' : σ}
    (hs : ∀ k, P k = true → C.cell s k = C.cell s' k) :
    answersTo (fun i => P (C.key i)) is (M.run is s).1 =
        (M.run (is.filter fun i => P (C.key i)) s').1 ∧
      ∀ k, P k = true → C.cell (M.run is s).2 k =
        C.cell (M.run (is.filter fun i => P (C.key i)) s').2 k := by
  induction is generalizing s s' with
  | nil => exact ⟨rfl, hs⟩
  | cons i is ih =>
      by_cases hi : P (C.key i) = true
      · have hnext : ∀ k, P k = true → C.cell (M.step s i).2 k = C.cell (M.step s' i).2 k := by
          intro k hk
          by_cases hkey : k = C.key i
          · rw [hkey, C.own, C.own, hs _ hi]
          · rw [C.frame s i k hkey, C.frame s' i k hkey, hs k hk]
        obtain ⟨hanswers, hcells⟩ := ih hnext
        rw [List.filter_cons, if_pos hi]
        refine ⟨?_, hcells⟩
        simp only [Machine.run, answersTo_cons, hi, if_true]
        rw [hanswers, C.answer, C.answer, hs _ hi]
      · have hnext : ∀ k, P k = true → C.cell (M.step s i).2 k = C.cell s' k := by
          intro k hk
          have hkey : k ≠ C.key i := fun heq => hi (heq ▸ hk)
          rw [C.frame s i k hkey, hs k hk]
        obtain ⟨hanswers, hcells⟩ := ih hnext
        rw [List.filter_cons, if_neg hi]
        refine ⟨?_, hcells⟩
        simp only [Machine.run, answersTo_cons, hi]
        exact hanswers

/-! ### Callers with keys of their own -/

section callers

variable {τ : Type}

theorem run_called (is : List (τ × ι)) (s : σ) :
    (M.called τ).run is s = M.run (is.map Prod.snd) s := by
  induction is generalizing s with
  | nil => rfl
  | cons i is ih =>
      simp only [Machine.run, List.map_cons, ih]
      rfl

/-- The cells do not look at the caller. -/
def called (C : Cells M N κ) (τ : Type) : Cells (M.called τ) (N.called τ) κ where
  key i := C.key i.2
  cell := C.cell
  start := C.start
  answer s i := C.answer s i.2
  own s i := C.own s i.2
  frame s i := C.frame s i.2

variable [DecidableEq τ]

/-- Where every key belongs to one caller, two schedules in which each caller makes the same
calls in the same order give each caller the same answers, and leave the same cells. -/
theorem callers_agree (C : Cells M N κ) {owner : κ → τ} {is js : List (τ × ι)}
    (his : ∀ i ∈ is, owner (C.key i.2) = i.1) (hjs : ∀ i ∈ js, owner (C.key i.2) = i.1)
    (h : ∀ t, is.filter (fun i => i.1 = t) = js.filter fun i => i.1 = t) (s : σ) :
    (∀ t, answersTo (fun i => i.1 = t) is (M.run (is.map Prod.snd) s).1 =
        answersTo (fun i => i.1 = t) js (M.run (js.map Prod.snd) s).1) ∧
      ∀ k, C.cell (M.run (is.map Prod.snd) s).2 k = C.cell (M.run (js.map Prod.snd) s).2 k := by
  -- what caller `t` does is what happens to the keys of `t`
  have hown : ∀ t, ∀ ls : List (τ × ι), (∀ i ∈ ls, owner (C.key i.2) = i.1) →
      ls.filter (fun i => decide (owner (C.key i.2) = t)) = ls.filter fun i => i.1 = t :=
    fun t ls hls => List.filter_congr fun i hi => by rw [hls i hi]
  have hanswersOwn : ∀ t, ∀ ls : List (τ × ι), (∀ i ∈ ls, owner (C.key i.2) = i.1) →
      ∀ answers : List ο, answersTo (fun i => decide (owner (C.key i.2) = t)) ls answers =
        answersTo (fun i => i.1 = t) ls answers := by
    intro t ls hls answers
    rw [answersTo, answersTo]
    congr 1
    refine List.filter_congr fun io hio => ?_
    rw [hls io.1 (List.of_mem_zip hio).1]
  simp only [← run_called]
  have hrefl : ∀ t k, decide (owner k = t) = true → (C.called τ).cell s k = (C.called τ).cell s k :=
    fun _ _ _ => rfl
  have hrun := fun t => (C.called τ).run_filter (fun k => decide (owner k = t)) is (hrefl t)
  have hrun' := fun t => (C.called τ).run_filter (fun k => decide (owner k = t)) js (hrefl t)
  have hsame : ∀ t, is.filter (fun i => decide (owner (C.key i.2) = t)) =
      js.filter fun i => decide (owner (C.key i.2) = t) := fun t => by
    rw [hown t is his, hown t js hjs, h t]
  constructor
  · intro t
    rw [← hanswersOwn t is his, ← hanswersOwn t js hjs]
    exact (hrun t).1.trans ((congrArg (fun ls => ((M.called τ).run ls s).1) (hsame t)).trans
      (hrun' t).1.symm)
  · intro k
    have hk : decide (owner k = owner k) = true := decide_eq_true rfl
    exact ((hrun (owner k)).2 k hk).trans
      ((congrArg (fun ls => C.cell ((M.called τ).run ls s).2 k) (hsame (owner k))).trans
        ((hrun' (owner k)).2 k hk).symm)

end callers

end Cells

end McpSocketServer
