import McpSocketServer.Misc.Lts
import McpSocketServer.Misc.Machine

/-!
# Linearizable objects

Threads call the methods of an object and get answers, each thread one after the other. The
object is atomic when every call takes effect at one moment between the call and its return.
`Linearization` says so of a history: the effects, in the order of their moments, are a run of
a sequential machine, and at every point of the history the effects so far include all calls
that have returned and none that has not been made. A call that has returned before another
one is made thus takes effect before it.

`Atomically` is the machine that is called so. An object whose steps are matched by its steps
has linearizable histories only (`Refines.linearizable`).
-/

namespace McpSocketServer

/-- What threads that use an object see of it. -/
inductive ObjectEvent (ι ο : Type) where
  | called (t : Nat) (i : ι)
  | returned (t : Nat) (o : ο)
  deriving DecidableEq, Repr

namespace ObjectEvent

variable {ι ο : Type}

/-- The call of thread `t` in an event. -/
def call? (t : Nat) : ObjectEvent ι ο → Option ι
  | .called u i => if u = t then some i else none
  | .returned _ _ => none

/-- The answer that thread `t` gets in an event. -/
def answer? (t : Nat) : ObjectEvent ι ο → Option ο
  | .called _ _ => none
  | .returned u o => if u = t then some o else none

/-- The calls of a thread. -/
def calls (t : Nat) (history : List (ObjectEvent ι ο)) : List ι := history.filterMap (call? t)

/-- The answers that a thread has got. -/
def answers (t : Nat) (history : List (ObjectEvent ι ο)) : List ο :=
  history.filterMap (answer? t)

end ObjectEvent

/-- A call takes effect. -/
structure Commit (ι ο : Type) where
  thread : Nat
  input : ι
  answer : ο
  deriving DecidableEq, Repr

namespace Commit

variable {ι ο : Type}

/-- The effects of a thread. -/
def ofThread (t : Nat) (effects : List (Commit ι ο)) : List (Commit ι ο) :=
  effects.filter fun e => e.thread = t

theorem ofThread_snoc (t : Nat) (effects : List (Commit ι ο)) (e : Commit ι ο) :
    ofThread t (effects ++ [e]) = ofThread t effects ++ if e.thread = t then [e] else [] := by
  by_cases he : e.thread = t <;> simp [ofThread, he]

end Commit

open ObjectEvent Commit

variable {σ τ ι ο ℓ : Type}

/-- Between what a thread has been answered and what it has called for. -/
def Timely (history : List (ObjectEvent ι ο)) (effects : List (Commit ι ο)) : Prop :=
  ∀ t, answers t history <+: (ofThread t effects).map Commit.answer ∧
    (ofThread t effects).map Commit.input <+: calls t history

/-- The effects explain the history: `M` gives their answers in this order, and every call takes
effect between its beginning and its return. -/
structure Linearization (M : Machine σ ι ο) (history : List (ObjectEvent ι ο))
    (effects : List (Commit ι ο)) : Prop where
  sequential : (M.run (effects.map Commit.input) M.start).1 = effects.map Commit.answer
  timely : Timely history effects
  always : ∀ past, past <+: history → ∃ done, done <+: effects ∧ Timely past done

/-- Some order of effects explains the history. -/
def Linearizable (M : Machine σ ι ο) (history : List (ObjectEvent ι ο)) : Prop :=
  ∃ effects, Linearization M history effects

/-! ### The atomic object -/

/-- Where a thread is that uses an atomic object. -/
inductive Caller (ι ο : Type) where
  | idle
  | asked (i : ι)
  | answered (o : ο)

/-- An object on which every call takes effect in one step, and the threads that use it. -/
structure Atomic (σ ι ο : Type) where
  state : σ
  caller : Nat → Caller ι ο := fun _ => .idle

namespace Atomic

/-- Thread `t` goes on to `c`. -/
def goto (a : Atomic σ ι ο) (t : Nat) (c : Caller ι ο) : Atomic σ ι ο :=
  { a with caller := Function.update a.caller t c }

end Atomic

/-- The histories of an atomic object, with the effects of the calls and the state in the end. -/
inductive Atomically (M : Machine σ ι ο) :
    List (ObjectEvent ι ο) → List (Commit ι ο) → Atomic σ ι ο → Prop
  | start : Atomically M [] [] { state := M.start }
  | call {h es a} (t : Nat) (i : ι) : Atomically M h es a → a.caller t = .idle →
      Atomically M (h ++ [.called t i]) es (a.goto t (.asked i))
  | effect {h es a t i} : Atomically M h es a → a.caller t = .asked i →
      Atomically M h (es ++ [⟨t, i, (M.step a.state i).1⟩])
        ({ a with state := (M.step a.state i).2 }.goto t (.answered (M.step a.state i).1))
  | ret {h es a t o} : Atomically M h es a → a.caller t = .answered o →
      Atomically M (h ++ [.returned t o]) es (a.goto t .idle)

namespace ObjectEvent

theorem calls_snoc (t : Nat) (h : List (ObjectEvent ι ο)) (e : ObjectEvent ι ο) :
    calls t (h ++ [e]) = calls t h ++ (call? t e).toList := by
  cases he : call? t e <;> simp [calls, List.filterMap_append, he]

theorem answers_snoc (t : Nat) (h : List (ObjectEvent ι ο)) (e : ObjectEvent ι ο) :
    answers t (h ++ [e]) = answers t h ++ (answer? t e).toList := by
  cases he : answer? t e <;> simp [answers, List.filterMap_append, he]

end ObjectEvent

/-- The machine reads one input more. -/
theorem Machine.run_snoc (M : Machine σ ι ο) (is : List ι) (i : ι) (s : σ) :
    M.run (is ++ [i]) s =
      ((M.run is s).1 ++ [(M.step (M.run is s).2 i).1], (M.step (M.run is s).2 i).2) := by
  induction is generalizing s with
  | nil => rfl
  | cons j is ih => simp [run, ih]

/-- What the place of a thread says about its calls and answers, and about their effects. -/
def Caller.Agrees (called : List ι) (answered : List ο) (effects : List (Commit ι ο)) :
    Caller ι ο → Prop
  | .idle => effects.map Commit.answer = answered ∧ effects.map Commit.input = called
  | .asked i => effects.map Commit.answer = answered ∧ effects.map Commit.input ++ [i] = called
  | .answered o => effects.map Commit.answer = answered ++ [o] ∧ effects.map Commit.input = called

namespace Atomically

variable {M : Machine σ ι ο} {h : List (ObjectEvent ι ο)} {es : List (Commit ι ο)}
  {a : Atomic σ ι ο}

theorem agrees (hrun : Atomically M h es a) (t : Nat) :
    (a.caller t).Agrees (calls t h) (answers t h) (ofThread t es) := by
  induction hrun with
  | start => exact ⟨rfl, rfl⟩
  | @call h es a u i _ hidle ih =>
      by_cases ht : u = t
      · subst ht
        rw [hidle] at ih
        obtain ⟨hanswers, hinputs⟩ := ih
        simp [Atomic.goto, Caller.Agrees, calls_snoc, answers_snoc, call?, answer?, hanswers,
          hinputs]
      · simpa [Atomic.goto, Ne.symm ht, calls_snoc, answers_snoc, call?, answer?, ht] using ih
  | @effect h es a u i _ hasked ih =>
      by_cases ht : u = t
      · subst ht
        rw [hasked] at ih
        obtain ⟨hanswers, hinputs⟩ := ih
        simp [Atomic.goto, Caller.Agrees, ofThread_snoc, hanswers, hinputs]
      · simpa [Atomic.goto, Ne.symm ht, ofThread_snoc, ht] using ih
  | @ret h es a u o _ hanswered ih =>
      by_cases ht : u = t
      · subst ht
        rw [hanswered] at ih
        obtain ⟨hanswers, hinputs⟩ := ih
        simp [Atomic.goto, Caller.Agrees, calls_snoc, answers_snoc, call?, answer?, hanswers,
          hinputs]
      · simpa [Atomic.goto, Ne.symm ht, calls_snoc, answers_snoc, call?, answer?, ht] using ih

theorem timely (hrun : Atomically M h es a) : Timely h es := by
  intro t
  have hagrees := hrun.agrees t
  cases hc : a.caller t with
  | idle =>
      rw [hc] at hagrees
      exact ⟨hagrees.1 ▸ List.prefix_refl _, hagrees.2 ▸ List.prefix_refl _⟩
  | asked i =>
      rw [hc] at hagrees
      exact ⟨hagrees.1 ▸ List.prefix_refl _, hagrees.2 ▸ List.prefix_append _ _⟩
  | answered o =>
      rw [hc] at hagrees
      exact ⟨hagrees.1 ▸ List.prefix_append _ _, hagrees.2 ▸ List.prefix_refl _⟩

theorem sequential (hrun : Atomically M h es a) :
    M.run (es.map Commit.input) M.start = (es.map Commit.answer, a.state) := by
  induction hrun with
  | start => rfl
  | call => assumption
  | effect _ _ ih => simp [Machine.run_snoc, ih, Atomic.goto]
  | ret => assumption

/-- One event more: what was timely stays so. -/
theorem always_snoc {e : ObjectEvent ι ο} (htimely : Timely (h ++ [e]) es)
    (hpast : ∀ past, past <+: h → ∃ done, done <+: es ∧ Timely past done) :
    ∀ past, past <+: h ++ [e] → ∃ done, done <+: es ∧ Timely past done := by
  intro past hprefix
  rcases List.prefix_concat_iff.mp hprefix with rfl | hshort
  · exact ⟨es, List.prefix_refl es, htimely⟩
  · exact hpast past hshort

theorem linearization (hrun : Atomically M h es a) : Linearization M h es := by
  refine ⟨by rw [hrun.sequential], hrun.timely, ?_⟩
  induction hrun with
  | start =>
      intro past hprefix
      obtain rfl := List.prefix_nil.mp hprefix
      exact ⟨[], List.prefix_refl [], fun t => ⟨List.prefix_refl _, List.prefix_refl _⟩⟩
  | call t i hrun hidle ih => exact always_snoc (Atomically.call t i hrun hidle).timely ih
  | effect _ _ ih =>
      intro past hprefix
      obtain ⟨done, hdone, htimely⟩ := ih past hprefix
      exact ⟨done, hdone.trans (List.prefix_append _ _), htimely⟩
  | ret hrun hanswered ih => exact always_snoc (Atomically.ret hrun hanswered).timely ih

end Atomically

/-! ### Objects made of steps -/

/-- What is seen of a run. -/
def Lts.history (T : Lts τ ℓ) (event : τ → ℓ → Option (ObjectEvent ι ο)) :
    List ℓ → τ → List (ObjectEvent ι ο)
  | [], _ => []
  | l :: ls, s => (event s l).toList ++ (T.step s l).elim [] (T.history event ls)

/-- Every step is matched by steps of an atomic object with the same events. -/
structure Refines (T : Lts τ ℓ) (event : τ → ℓ → Option (ObjectEvent ι ο)) (M : Machine σ ι ο)
    (R : τ → Atomic σ ι ο → Prop) : Prop where
  init : ∀ s, T.init s → R s { state := M.start }
  step : ∀ s l s' h es a, R s a → Atomically M h es a → T.step s l = some s' →
    ∃ es' a', Atomically M (h ++ (event s l).toList) es' a' ∧ R s' a'

namespace Refines

variable {T : Lts τ ℓ} {event : τ → ℓ → Option (ObjectEvent ι ο)} {M : Machine σ ι ο}
  {R : τ → Atomic σ ι ο → Prop}

theorem run (hT : Refines T event M R) {ls : List ℓ} {s s' : τ} {h : List (ObjectEvent ι ο)}
    {es : List (Commit ι ο)} {a : Atomic σ ι ο} (ha : R s a) (hpast : Atomically M h es a)
    (hrun : T.run ls s = some s') :
    ∃ es' a', Atomically M (h ++ T.history event ls s) es' a' ∧ R s' a' := by
  induction ls generalizing s h es a with
  | nil =>
      simp only [Lts.run, Option.some.injEq] at hrun
      subst hrun
      exact ⟨es, a, by simpa [Lts.history] using hpast, ha⟩
  | cons l ls ih =>
      obtain ⟨s₁, hstep, hrest⟩ := Option.bind_eq_some_iff.mp hrun
      obtain ⟨es₁, a₁, hpast₁, ha₁⟩ := hT.step s l s₁ h es a ha hpast hstep
      obtain ⟨es', a', hpast', ha'⟩ := ih ha₁ hpast₁ hrest
      refine ⟨es', a', ?_, ha'⟩
      rwa [Lts.history, hstep, Option.elim_some, ← List.append_assoc]

/-- The history of a run is linearizable. -/
theorem linearizable (hT : Refines T event M R) {ls : List ℓ} {s s' : τ} (hs : T.init s)
    (hrun : T.run ls s = some s') : Linearizable M (T.history event ls s) := by
  obtain ⟨es, a, hatomic, -⟩ := hT.run (hT.init s hs) .start hrun
  exact ⟨es, hatomic.linearization⟩

end Refines

end McpSocketServer
