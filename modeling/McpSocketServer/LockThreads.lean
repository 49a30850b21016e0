import McpSocketServer.Misc.Linearizable
import McpSocketServer.Proofs.HeldLocks

/-!
# Threads that use one lock manager (`locks.py`)

The methods of `LockManager` in the steps that other threads can observe. A method first looks
its target up in the dictionary, under the global lock where it may add a `TargetLock`, and
then works on that lock under the lock's own mutex. Between the two any other threads may move.
The dictionary holds references; no entry is ever taken out.
-/

namespace McpSocketServer

namespace LockCall

/-- The target of a call. -/
def target : LockCall → String
  | .acquire target _ _ | .release target _ _ | .hasActive target => target

/-- The class is `NONE`, for which `acquire` and `release` return at once. -/
def isNone : LockCall → Bool
  | .acquire _ cls _ | .release _ cls _ => cls = .none
  | .hasActive _ => false

/-- The work on the lock of the target, once it has been found. -/
def onLock (tl : TargetLock) : LockCall → LockAnswer × TargetLock
  | .acquire target cls key =>
    match tl.acquire cls key with
    | .ok tl => (.done, tl)
    | .error e => (.conflict target e.lockClass, tl)
  | .release _ cls key => (.done, tl.release cls key)
  | .hasActive _ => (.active tl.hasActive, tl)

/-- What `release` and `has_active` return when the dictionary has no lock of the target. -/
def onMissing : LockCall → LockAnswer
  | .hasActive _ => .active false
  | _ => .done

/-- `acquire` adds a missing lock. -/
def adds : LockCall → Bool
  | .acquire .. => true
  | _ => false

end LockCall

/-- Where a thread is in a method of the lock manager. -/
inductive LockPhase where
  | outside
  | entered (call : LockCall)
  | found (call : LockCall) (lock : Nat)
  | leaving (answer : LockAnswer)

/-- `locks` is `self._locks`, with references into `heap`. -/
structure LockThreads where
  locks : String → Option Nat := fun _ => none
  heap : Nat → TargetLock := fun _ => {}
  fresh : Nat := 0
  threads : Nat → LockPhase := fun _ => .outside

/-- What a thread does next in a method: it calls it, looks up the lock of the target under
`_mutex`, works on it, or returns. -/
inductive LockStep where
  | call (call : LockCall)
  | lookUp
  | onLock
  | ret
  deriving DecidableEq, Repr

namespace LockThreads

/-- Thread `t` goes on to phase `ph`. -/
def goto (s : LockThreads) (t : Nat) (ph : LockPhase) : LockThreads :=
  { s with threads := Function.update s.threads t ph }

/-- `self._locks[target] = TargetLock()`. -/
def addLock (s : LockThreads) (target : String) : LockThreads :=
  { s with
    locks := Function.update s.locks target (some s.fresh)
    heap := Function.update s.heap s.fresh {}
    fresh := s.fresh + 1 }

/-- The lock behind a reference changes. -/
def setLock (s : LockThreads) (lock : Nat) (tl : TargetLock) : LockThreads :=
  { s with heap := Function.update s.heap lock tl }

/-- One step of thread `t`. -/
def step (s : LockThreads) (t : Nat) : LockStep → Option LockThreads
  | .call call =>
    match s.threads t with
    | .outside => some (s.goto t (.entered call))
    | _ => none
  | .lookUp =>
    match s.threads t with
    | .entered call =>
      if call.isNone then some (s.goto t (.leaving .done))
      else
        match s.locks call.target with
        | some lock => some (s.goto t (.found call lock))
        | none =>
          if call.adds then some ((s.addLock call.target).goto t (.found call s.fresh))
          else some (s.goto t (.leaving call.onMissing))
    | _ => none
  | .onLock =>
    match s.threads t with
    | .found call lock =>
      let (answer, tl) := call.onLock (s.heap lock)
      some ((s.setLock lock tl).goto t (.leaving answer))
    | _ => none
  | .ret =>
    match s.threads t with
    | .leaving _ => some (s.goto t .outside)
    | _ => none

/-! ### What each step does -/

variable {s s' : LockThreads} {t : Nat}

theorem step_call {call : LockCall} (h : s.step t (.call call) = some s') :
    s.threads t = .outside ∧ s' = s.goto t (.entered call) := by
  cases hph : s.threads t <;> simp only [step, hph, reduceCtorEq, Option.some.injEq] at h
  exact ⟨rfl, h.symm⟩

theorem step_lookUp (h : s.step t .lookUp = some s') :
    ∃ call, s.threads t = .entered call ∧
      ((call.isNone = true ∧ s' = s.goto t (.leaving .done)) ∨
        (∃ lock, call.isNone = false ∧ s.locks call.target = some lock ∧
          s' = s.goto t (.found call lock)) ∨
        (call.isNone = false ∧ s.locks call.target = none ∧ call.adds = true ∧
          s' = (s.addLock call.target).goto t (.found call s.fresh)) ∨
        (call.isNone = false ∧ s.locks call.target = none ∧ call.adds = false ∧
          s' = s.goto t (.leaving call.onMissing))) := by
  cases hph : s.threads t <;> simp only [step, hph, reduceCtorEq] at h
  rename_i call
  refine ⟨call, rfl, ?_⟩
  cases hnone : call.isNone with
  | true =>
      simp only [hnone, if_true, Option.some.injEq] at h
      exact Or.inl ⟨rfl, h.symm⟩
  | false =>
      simp only [hnone, Bool.false_eq_true, if_false] at h
      cases hlock : s.locks call.target with
      | some lock =>
          simp only [hlock, Option.some.injEq] at h
          exact Or.inr (Or.inl ⟨lock, rfl, rfl, h.symm⟩)
      | none =>
          cases hadds : call.adds with
          | true =>
              simp only [hlock, hadds, if_true, Option.some.injEq] at h
              exact Or.inr (Or.inr (Or.inl ⟨rfl, rfl, rfl, h.symm⟩))
          | false =>
              simp only [hlock, hadds, Bool.false_eq_true, if_false, Option.some.injEq] at h
              exact Or.inr (Or.inr (Or.inr ⟨rfl, rfl, rfl, h.symm⟩))

theorem step_onLock (h : s.step t .onLock = some s') :
    ∃ call lock, s.threads t = .found call lock ∧
      s' = (s.setLock lock (call.onLock (s.heap lock)).2).goto t
        (.leaving (call.onLock (s.heap lock)).1) := by
  cases hph : s.threads t <;> simp only [step, hph, reduceCtorEq, Option.some.injEq] at h
  rename_i call lock
  exact ⟨call, lock, rfl, h.symm⟩

theorem step_ret (h : s.step t .ret = some s') :
    ∃ answer, s.threads t = .leaving answer ∧ s' = s.goto t .outside := by
  cases hph : s.threads t <;> simp only [step, hph, reduceCtorEq, Option.some.injEq] at h
  rename_i answer
  exact ⟨answer, rfl, h.symm⟩

/-- The calls and returns among the steps. -/
def event (s : LockThreads) : Nat × LockStep → Option (ObjectEvent LockCall LockAnswer)
  | (t, .call call) => some (.called t call)
  | (t, .ret) =>
    match s.threads t with
    | .leaving answer => some (.returned t answer)
    | _ => none
  | _ => none

end LockThreads

/-- Any number of threads and a new `LockManager`. -/
def lockThreads : Lts LockThreads (Nat × LockStep) where
  init s := (∀ target, s.locks target = none) ∧ ∀ t, s.threads t = .outside
  step s l := s.step l.1 l.2

end McpSocketServer
