import Mathlib.Logic.Basic

/-!
# Programs with exceptions over a mutable state

`Prog ε σ α` computes on a state `σ` and returns a value or raises an exception; a raised
exception keeps the state changes made so far, as in an imperative language. The file
gives the equations of `exec`, by which a program is run on a given state, a Hoare logic
whose triples have one postcondition for a normal return and one for an exception, and the
rules by which two runs from related states are compared. Before them stand three facts about
partial computations without a state.
-/

namespace McpSocketServer

section Except

variable {ε α β : Type}

/-- A computation goes on with what has been returned. -/
theorem bind_of_ok {m : Except ε α} {a : α} (h : m = .ok a) (f : α → Except ε β) :
    (m >>= f) = f a := by
  rw [h]
  rfl

/-- A sequence that returns has returned from its first part. -/
theorem of_bind_ok {m : Except ε α} {f : α → Except ε β} {b : β} (h : (m >>= f) = .ok b) :
    ∃ a, m = .ok a ∧ f a = .ok b := by
  cases m with
  | error e => cases h
  | ok a => exact ⟨a, rfl, h⟩

theorem of_map_ok {m : Except ε α} {f : α → β} {b : β} (h : m.map f = .ok b) :
    ∃ a, m = .ok a ∧ f a = b := by
  cases m with
  | error e => cases h
  | ok a => exact ⟨a, rfl, Except.ok.inj h⟩

end Except

/-- A program over the state `σ` that may raise an `ε`. -/
abbrev Prog (ε σ α : Type) := ExceptT ε (StateM σ) α

namespace Prog

variable {ε σ τ α β γ : Type}

/-- The outcome and the state after running `m` in `s`. -/
def exec (m : Prog ε σ α) (s : σ) : Except ε α × σ := (ExceptT.run m).run s

/-- Continue with a returned value, stop at an exception. -/
def follow (f : α → Prog ε σ β) : Except ε α × σ → Except ε β × σ
  | (.ok a, s) => (f a).exec s
  | (.error e, s) => (.error e, s)

/-- Handle an exception, in the state where it was raised. -/
def handleWith (h : ε → Prog ε σ α) : Except ε α × σ → Except ε α × σ
  | (.ok a, s) => (.ok a, s)
  | (.error e, s) => (h e).exec s

/-- A pure partial computation as a program. -/
def ofExcept : Except ε α → Prog ε σ α
  | .ok a => pure a
  | .error e => throw e

/-- Run a program on a part of a larger state. -/
def zoom (part : τ → σ) (put : σ → τ → τ) (m : Prog ε σ α) : Prog ε τ α :=
  ExceptT.mk fun t => ((m.exec (part t)).1, put (m.exec (part t)).2 t)

@[simp] theorem exec_pure (a : α) (s : σ) : (pure a : Prog ε σ α).exec s = (.ok a, s) := rfl

@[simp] theorem exec_bind (m : Prog ε σ α) (f : α → Prog ε σ β) (s : σ) :
    (m >>= f).exec s = follow f (m.exec s) := by
  unfold exec ExceptT.run StateT.run
  simp only [bind, ExceptT.bind, ExceptT.mk, StateT.bind, ExceptT.bindCont]
  rcases m s with ⟨e | a, s'⟩ <;> rfl

/-- The first two parts of three run as one. -/
theorem exec_bind_bind (m : Prog ε σ α) (g : α → Prog ε σ β) (f : β → Prog ε σ γ) (s : σ) :
    (m >>= fun a => g a >>= f).exec s = follow f ((m >>= g).exec s) := by
  rw [← bind_assoc, exec_bind]

@[simp] theorem exec_map (f : α → β) (m : Prog ε σ α) (s : σ) :
    (f <$> m).exec s = follow (fun a => pure (f a)) (m.exec s) := by
  rw [← exec_bind, ← bind_pure_comp]

@[simp] theorem exec_throw (e : ε) (s : σ) :
    (throw e : Prog ε σ α).exec s = (.error e, s) := rfl

@[simp] theorem exec_tryCatch (m : Prog ε σ α) (h : ε → Prog ε σ α) (s : σ) :
    (tryCatch m h).exec s = handleWith h (m.exec s) := by
  unfold exec ExceptT.run StateT.run
  simp only [tryCatch, tryCatchThe, MonadExceptOf.tryCatch, ExceptT.tryCatch, ExceptT.mk, bind,
    StateT.bind]
  rcases m s with ⟨e | a, s'⟩ <;> rfl

@[simp] theorem exec_get (s : σ) : (get : Prog ε σ σ).exec s = (.ok s, s) := rfl

@[simp] theorem exec_set (s' s : σ) : (set s' : Prog ε σ Unit).exec s = (.ok (), s') := rfl

@[simp] theorem exec_modify (f : σ → σ) (s : σ) :
    (modify f : Prog ε σ Unit).exec s = (.ok (), f s) := rfl

@[simp] theorem exec_ofExcept (r : Except ε α) (s : σ) :
    (ofExcept r : Prog ε σ α).exec s = (r, s) := by
  cases r <;> rfl

@[simp] theorem exec_zoom (part : τ → σ) (put : σ → τ → τ) (m : Prog ε σ α) (t : τ) :
    (zoom part put m).exec t = ((m.exec (part t)).1, put (m.exec (part t)).2 t) := rfl

@[simp] theorem follow_ok (f : α → Prog ε σ β) (a : α) (s : σ) :
    follow f (.ok a, s) = (f a).exec s := rfl

@[simp] theorem follow_error (f : α → Prog ε σ β) (e : ε) (s : σ) :
    follow f (.error e, s) = (.error e, s) := rfl

@[simp] theorem handleWith_ok (h : ε → Prog ε σ α) (a : α) (s : σ) :
    handleWith h (.ok a, s) = (.ok a, s) := rfl

@[simp] theorem handleWith_error (h : ε → Prog ε σ α) (e : ε) (s : σ) :
    handleWith h (.error e, s) = (h e).exec s := rfl

/-! ### Triples -/

/-- From a state in `P`, the program returns into `Q` or raises into `E`. -/
def Triple (P : σ → Prop) (m : Prog ε σ α) (Q : α → σ → Prop) (E : ε → σ → Prop) : Prop :=
  ∀ s, P s → match m.exec s with
    | (.ok a, s') => Q a s'
    | (.error e, s') => E e s'

namespace Triple

variable {P P' : σ → Prop} {Q Q' : α → σ → Prop} {R : β → σ → Prop} {E E' : ε → σ → Prop}
  {m : Prog ε σ α}

/-- What a triple says of a run that returns. -/
theorem ok (h : Triple P m Q E) {s s' : σ} {a : α} (hs : P s) (hm : m.exec s = (.ok a, s')) :
    Q a s' := by
  have hpost := h s hs
  rwa [hm] at hpost

/-- What a triple says of a run that raises. -/
theorem error (h : Triple P m Q E) {s s' : σ} {e : ε} (hs : P s)
    (hm : m.exec s = (.error e, s')) : E e s' := by
  have hpost := h s hs
  rwa [hm] at hpost

/-- A triple from the two kinds of outcomes. -/
theorem intro (hok : ∀ s a s', P s → m.exec s = (.ok a, s') → Q a s')
    (herror : ∀ s e s', P s → m.exec s = (.error e, s') → E e s') : Triple P m Q E := by
  intro s hs
  rcases hm : m.exec s with ⟨e | a, s'⟩
  · exact herror s e s' hs hm
  · exact hok s a s' hs hm

theorem conseq (h : Triple P m Q E) (hP : ∀ s, P' s → P s) (hQ : ∀ a s, Q a s → Q' a s)
    (hE : ∀ e s, E e s → E' e s) : Triple P' m Q' E' :=
  intro (fun _ _ _ hs hm => hQ _ _ (h.ok (hP _ hs) hm))
    fun _ _ _ hs hm => hE _ _ (h.error (hP _ hs) hm)

theorem pre (h : Triple P m Q E) (hP : ∀ s, P' s → P s) : Triple P' m Q E :=
  h.conseq hP (fun _ _ hq => hq) fun _ _ he => he

/-- Nothing is said of the program. -/
theorem any : Triple P m (fun _ _ => True) fun _ _ => True :=
  intro (fun _ _ _ _ _ => trivial) fun _ _ _ _ _ => trivial

theorem pure {a : α} (h : ∀ s, P s → Q a s) : Triple P (pure a : Prog ε σ α) Q E :=
  fun s hs => h s hs

theorem throw {e : ε} (h : ∀ s, P s → E e s) : Triple P (throw e : Prog ε σ α) Q E :=
  fun s hs => h s hs

theorem ofExcept {r : Except ε α} (hok : ∀ a s, r = .ok a → P s → Q a s)
    (herror : ∀ e s, r = .error e → P s → E e s) : Triple P (ofExcept r : Prog ε σ α) Q E := by
  intro s hs
  cases r with
  | ok a => exact hok a s rfl hs
  | error e => exact herror e s rfl hs

theorem modify {f : σ → σ} {Q : Unit → σ → Prop} (h : ∀ s, P s → Q () (f s)) :
    Triple P (modify f : Prog ε σ Unit) Q E :=
  fun s hs => h s hs

/-- The state that is read is the current one. -/
theorem get {Q : σ → σ → Prop} (h : ∀ s, P s → Q s s) : Triple P (get : Prog ε σ σ) Q E :=
  fun s hs => h s hs

/-- Sequencing: the first part's postcondition is the precondition of the second. -/
theorem bind {f : α → Prog ε σ β} (hm : Triple P m Q E) (hf : ∀ a, Triple (Q a) (f a) R E) :
    Triple P (m >>= f) R E := by
  intro s hs
  rw [exec_bind]
  rcases h : m.exec s with ⟨e | a, s'⟩
  · exact hm.error hs h
  · exact hf a s' (hm.ok hs h)

theorem ite {c : Prop} [Decidable c] {m' : Prog ε σ α} (ht : c → Triple P m Q E)
    (hf : ¬ c → Triple P m' Q E) : Triple P (if c then m else m') Q E := by
  by_cases hc : c
  · simpa only [if_pos hc] using ht hc
  · simpa only [if_neg hc] using hf hc

/-- An existential precondition. -/
theorem exists_pre {ι : Sort _} {P : ι → σ → Prop} (h : ∀ i, Triple (P i) m Q E) :
    Triple (fun s => ∃ i, P i s) m Q E := by
  intro s hpre
  obtain ⟨i, hs⟩ := hpre
  exact h i s hs

/-- A precondition that does not depend on the state. -/
theorem and_pre {p : Prop} (h : p → Triple P m Q E) : Triple (fun s => p ∧ P s) m Q E := by
  intro s hpre
  obtain ⟨hp, hs⟩ := hpre
  exact h hp s hs

/-- A program on a part of the state, where writing the part back gives the part. -/
theorem zoom {part : τ → σ} {put : σ → τ → τ} (hput : ∀ s t, part (put s t) = s)
    (h : Triple P m Q E) :
    Triple (fun t => P (part t)) (zoom part put m) (fun a t => Q a (part t))
      (fun e t => E e (part t)) := by
  intro t ht
  have hm := h (part t) ht
  rw [exec_zoom]
  rcases hex : m.exec (part t) with ⟨e | a, s'⟩ <;> rw [hex] at hm <;>
  · simpa only [hput] using hm

end Triple

/-! ### Programs that always raise -/

/-- The program raises in every state. -/
def Raises (m : Prog ε σ α) : Prop := ∀ s, ∃ e s', m.exec s = (.error e, s')

theorem raises_throw (e : ε) : Raises (throw e : Prog ε σ α) := fun s => ⟨e, s, rfl⟩

/-- What is followed by a program that raises, raises. -/
theorem Raises.after {m : Prog ε σ α} {f : α → Prog ε σ β} (hf : ∀ a, Raises (f a)) :
    Raises (m >>= f) := by
  intro s
  rw [exec_bind]
  rcases m.exec s with ⟨e | a, s'⟩
  · exact ⟨e, s', rfl⟩
  · exact hf a s'

/-! ### Kept properties -/

/-- The program keeps `I` when it returns, and leaves `J` when it raises. -/
def Keeps (I J : σ → Prop) (m : Prog ε σ α) : Prop := Triple I m (fun _ => I) fun _ => J

namespace Keeps

variable {I J : σ → Prop} {m : Prog ε σ α}

/-- The state after the program, however it ends. -/
theorem exec (h : Keeps I J m) (hIJ : ∀ s, I s → J s) {s : σ} (hs : I s) : J (m.exec s).2 := by
  rcases hm : m.exec s with ⟨e | a, s'⟩
  · exact Triple.error h hs hm
  · exact hIJ s' (Triple.ok h hs hm)

/-- A program that keeps the property whatever its outcome. -/
theorem of_exec (hIJ : ∀ s, I s → J s) (h : ∀ s, I s → I (m.exec s).2) : Keeps I J m := by
  apply Triple.intro
  · intro s a s' hs hm
    have hkept := h s hs
    rwa [hm] at hkept
  · intro s e s' hs hm
    have hkept := h s hs
    rw [hm] at hkept
    exact hIJ s' hkept

theorem pure (a : α) : Keeps I J (pure a : Prog ε σ α) := Triple.pure fun _ hs => hs

theorem throw (hIJ : ∀ s, I s → J s) (e : ε) : Keeps I J (throw e : Prog ε σ α) :=
  Triple.throw hIJ

theorem ofExcept (hIJ : ∀ s, I s → J s) (r : Except ε α) : Keeps I J (ofExcept r : Prog ε σ α) :=
  Triple.ofExcept (fun _ _ _ hs => hs) fun _ s _ hs => hIJ s hs

theorem get : Keeps I J (get : Prog ε σ σ) := Triple.get fun _ hs => hs

theorem modify {f : σ → σ} (h : ∀ s, I s → I (f s)) : Keeps I J (modify f : Prog ε σ Unit) :=
  Triple.modify h

theorem bind {f : α → Prog ε σ β} (hm : Keeps I J m) (hf : ∀ a, Keeps I J (f a)) :
    Keeps I J (m >>= f) := Triple.bind hm hf

/-- Two parts that keep `I` together, and a rest. -/
theorem together {g : α → Prog ε σ β} {f : β → Prog ε σ γ} (hm : Keeps I J (m >>= g))
    (hf : ∀ b, Keeps I J (f b)) : Keeps I J (m >>= fun a => g a >>= f) := by
  rw [← bind_assoc]
  exact hm.bind hf

theorem zoom {part : τ → σ} {put : σ → τ → τ} (hput : ∀ s t, part (put s t) = s)
    (h : Keeps I J m) : Keeps (fun t => I (part t)) (fun t => J (part t)) (zoom part put m) :=
  Triple.zoom hput h

/-- A program on a part of the state keeps what does not depend on that part. -/
theorem frame {F G : τ → Prop} {part : τ → σ} {put : σ → τ → τ}
    (hF : ∀ s t, F t → F (put s t)) (hFG : ∀ t, F t → G t) :
    Keeps F G (Prog.zoom part put m) :=
  of_exec hFG fun t ht => hF (m.exec (part t)).2 t ht

end Keeps

/-! ### Two runs -/

/-- Runs from related states have the same outcome and end in related states. -/
def Agrees (R : σ → σ → Prop) (m : Prog ε σ α) : Prop :=
  ∀ s t, R s t → (m.exec s).1 = (m.exec t).1 ∧ R (m.exec s).2 (m.exec t).2

namespace Agrees

variable {R : σ → σ → Prop} {m : Prog ε σ α}

theorem pure (a : α) : Agrees R (pure a : Prog ε σ α) := fun _ _ h => ⟨rfl, h⟩

theorem throw (e : ε) : Agrees R (throw e : Prog ε σ α) := fun _ _ h => ⟨rfl, h⟩

theorem ofExcept (r : Except ε α) : Agrees R (ofExcept r : Prog ε σ α) := by
  intro s t h
  simp only [exec_ofExcept]
  exact ⟨trivial, h⟩

theorem modify {f : σ → σ} (hf : ∀ s t, R s t → R (f s) (f t)) :
    Agrees R (modify f : Prog ε σ Unit) := fun s t h => ⟨rfl, hf s t h⟩

theorem bind {f : α → Prog ε σ β} (hm : Agrees R m) (hf : ∀ a, Agrees R (f a)) :
    Agrees R (m >>= f) := by
  intro s t h
  obtain ⟨hout, hrel⟩ := hm s t h
  rw [exec_bind, exec_bind]
  rcases hs : m.exec s with ⟨e | a, s'⟩ <;> rcases ht : m.exec t with ⟨e' | a', t'⟩ <;>
    rw [hs, ht] at hout hrel <;> cases hout
  · exact ⟨rfl, hrel⟩
  · exact hf a s' t' hrel

theorem tryCatch {h : ε → Prog ε σ α} (hm : Agrees R m) (hh : ∀ e, Agrees R (h e)) :
    Agrees R (tryCatch m h) := by
  intro s t hst
  obtain ⟨hout, hrel⟩ := hm s t hst
  rw [exec_tryCatch, exec_tryCatch]
  rcases hs : m.exec s with ⟨e | a, s'⟩ <;> rcases ht : m.exec t with ⟨e' | a', t'⟩ <;>
    rw [hs, ht] at hout hrel <;> cases hout
  · exact hh e s' t' hrel
  · exact ⟨rfl, hrel⟩

/-- A program on a part in which related states are equal. -/
theorem zoom {R : τ → τ → Prop} {part : τ → σ} {put : σ → τ → τ}
    (hpart : ∀ s t, R s t → part s = part t) (hput : ∀ a s t, R s t → R (put a s) (put a t))
    (m : Prog ε σ α) : Agrees R (zoom part put m) := by
  intro s t h
  rw [exec_zoom, exec_zoom, hpart s t h]
  exact ⟨rfl, hput _ s t h⟩

end Agrees

end Prog

end McpSocketServer
