import McpSocketServer.LockThreads

/-!
# The lock manager is atomic

A call of the lock manager takes effect when it works on the lock of its target, or when it
finds that there is none. Whatever the threads do, what they see is what the set of held locks
would answer to the same calls one after the other. This is why the locks are one step each
wherever the tools are modelled as transition systems.
-/

namespace McpSocketServer

namespace LockThreads

/-- The lock manager as it is between two steps. -/
def manager (s : LockThreads) : LockManager := ⟨fun target => (s.locks target).map s.heap⟩

/-- The dictionary leads to different locks, and a lock that has been found stays there. -/
structure Inv (s : LockThreads) : Prop where
  old : ∀ target lock, s.locks target = some lock → lock < s.fresh
  apart : ∀ target u lock, s.locks target = some lock → s.locks u = some lock → u = target
  found : ∀ t call lock, s.threads t = .found call lock →
    s.locks call.target = some lock ∧ call.isNone = false

variable {s : LockThreads} {t : Nat}

@[simp] theorem goto_threads (ph : LockPhase) (u : Nat) :
    (s.goto t ph).threads u = if u = t then ph else s.threads u := by
  by_cases hu : u = t
  · subst hu; simp [goto]
  · simp [goto, hu]

@[simp] theorem goto_manager (ph : LockPhase) : (s.goto t ph).manager = s.manager := rfl

/-- A thread moves on. -/
theorem Inv.goto (h : Inv s) {ph : LockPhase}
    (hph : ∀ call lock, ph = .found call lock →
      s.locks call.target = some lock ∧ call.isNone = false) : Inv (s.goto t ph) := by
  refine ⟨h.old, h.apart, fun u call lock hu => ?_⟩
  rw [goto_threads] at hu
  split at hu
  · exact hph call lock hu
  · exact h.found u call lock hu

/-- A thread enters or leaves a method. -/
theorem Inv.goto_out (h : Inv s) {ph : LockPhase} (hph : ∀ call lock, ph ≠ .found call lock) :
    Inv (s.goto t ph) :=
  h.goto fun call lock heq => absurd heq (hph call lock)

theorem Inv.addLock (h : Inv s) {target : String} (hnone : s.locks target = none) :
    Inv (s.addLock target) := by
  have hlocks : ∀ u, (s.addLock target).locks u =
      if u = target then some s.fresh else s.locks u := by
    intro u
    by_cases hu : u = target
    · subst hu; simp [LockThreads.addLock]
    · simp [LockThreads.addLock, hu]
  refine ⟨fun u lock hu => ?_, fun u v lock hu hv => ?_, fun u call lock hu => ?_⟩
  · rw [hlocks] at hu
    split at hu
    · exact Option.some.inj hu ▸ Nat.lt_succ_self s.fresh
    · exact Nat.lt_succ_of_lt (h.old u lock hu)
  · rw [hlocks] at hu hv
    split at hu <;> split at hv
    · simp_all
    · exact absurd (h.old v lock hv) (Option.some.inj hu ▸ Nat.lt_irrefl s.fresh)
    · exact absurd (h.old u lock hu) (Option.some.inj hv ▸ Nat.lt_irrefl s.fresh)
    · exact h.apart u v lock hu hv
  · obtain ⟨hlock, hcall⟩ := h.found u call lock hu
    refine ⟨?_, hcall⟩
    rw [hlocks, if_neg]
    · exact hlock
    · intro heq
      rw [heq, hnone] at hlock
      cases hlock

theorem Inv.setLock (h : Inv s) (lock : Nat) (tl : TargetLock) : Inv (s.setLock lock tl) :=
  ⟨h.old, h.apart, h.found⟩

/-- A new lock is like a missing one. -/
theorem addLock_lockOf (h : Inv s) {target : String} (hnone : s.locks target = none)
    (u : String) : (s.addLock target).manager.lockOf u = s.manager.lockOf u := by
  by_cases hu : u = target
  · subst hu
    simp [LockThreads.addLock, manager, LockManager.lockOf, hnone]
  · cases hlock : s.locks u with
    | none => simp [LockThreads.addLock, manager, LockManager.lockOf, hu, hlock]
    | some lock =>
        have hne : lock ≠ s.fresh := Nat.ne_of_lt (h.old u lock hlock)
        simp [LockThreads.addLock, manager, LockManager.lockOf, hu, hlock, hne]

theorem setLock_manager (h : Inv s) {target : String} {lock : Nat}
    (hlock : s.locks target = some lock) (tl : TargetLock) :
    (s.setLock lock tl).manager = s.manager.set target tl := by
  have hlocks : ∀ u, (s.locks u).map (Function.update s.heap lock tl) =
      Function.update (fun u => (s.locks u).map s.heap) target (some tl) u := by
    intro u
    by_cases hu : u = target
    · subst hu
      simp [hlock]
    · rw [Function.update_of_ne hu]
      cases hother : s.locks u with
      | none => rfl
      | some other =>
          have hne : other ≠ lock := by
            rintro rfl
            exact hu (h.apart target u other hlock hother)
          simp [hne]
  exact congrArg LockManager.mk (funext hlocks)

/-! ### The moments of effect -/

/-- The work on the lock that was found is the call of the whole manager. -/
theorem onLock_effect (h : Inv s) {call : LockCall} {lock : Nat}
    (hlock : s.locks call.target = some lock) (hcall : call.isNone = false) :
    lockMachine.step s.manager call = ((call.onLock (s.heap lock)).1,
      (s.setLock lock (call.onLock (s.heap lock)).2).manager) := by
  rw [setLock_manager h hlock]
  have hfound : s.manager.locks call.target = some (s.heap lock) := by
    simp [manager, hlock]
  have hsame : s.manager.set call.target (s.heap lock) = s.manager := by
    rw [LockManager.set, ← hfound, Function.update_eq_self]
  cases call with
  | acquire target cls key =>
      have hcls : cls ≠ .none := by simpa [LockCall.isNone] using hcall
      simp only [LockCall.target] at hfound hsame
      simp only [lockMachine, LockManager.acquire, if_neg hcls, LockManager.getTargetLock, hfound,
        LockCall.onLock, LockCall.target]
      cases (s.heap lock).acquire cls key with
      | ok tl => rfl
      | error e => rw [hsame]
  | release target cls key =>
      have hcls : cls ≠ .none := by simpa [LockCall.isNone] using hcall
      simp only [LockCall.target] at hfound
      simp only [lockMachine, LockManager.release, if_neg hcls, hfound, LockCall.onLock,
        LockCall.target]
  | hasActive target =>
      simp only [LockCall.target] at hfound hsame
      simp only [lockMachine, LockManager.hasActive, hfound, LockCall.onLock, LockCall.target,
        hsame]

/-- A target without a lock. -/
theorem missing_effect {call : LockCall} (hnone : s.locks call.target = none)
    (hcall : call.isNone = false) (hadds : call.adds = false) :
    lockMachine.step s.manager call = (call.onMissing, s.manager) := by
  have hmissing : s.manager.locks call.target = none := by
    simp [manager, hnone]
  cases call with
  | acquire target cls key => cases hadds
  | release target cls key =>
      have hcls : cls ≠ .none := by simpa [LockCall.isNone] using hcall
      simp only [LockCall.target] at hmissing
      simp only [lockMachine, LockManager.release, if_neg hcls, hmissing, LockCall.onMissing]
  | hasActive target =>
      simp only [LockCall.target] at hmissing
      simp only [lockMachine, LockManager.hasActive, hmissing, LockCall.onMissing]

theorem none_effect {call : LockCall} (hcall : call.isNone = true) (lm : LockManager) :
    lockMachine.step lm call = (.done, lm) := by
  cases call with
  | acquire target cls key =>
      have hcls : cls = .none := by simpa [LockCall.isNone] using hcall
      simp [lockMachine, LockManager.acquire, hcls]
  | release target cls key =>
      have hcls : cls = .none := by simpa [LockCall.isNone] using hcall
      simp [lockMachine, LockManager.release, hcls]
  | hasActive target => cases hcall

end LockThreads

/-! ### The refinement -/

/-- Where a thread is for an atomic lock manager. -/
def LockPhase.caller : LockPhase → Caller LockCall LockAnswer
  | .outside => .idle
  | .entered call | .found call _ => .asked call
  | .leaving answer => .answered answer

/-- The locks hold what the set of held locks says, and the threads are where they are. -/
structure Matches (s : LockThreads) (a : Atomic HeldLocks LockCall LockAnswer) : Prop where
  inv : s.Inv
  held : Represents s.manager a.state
  callers : ∀ t, a.caller t = (s.threads t).caller

theorem Represents.congr {lm lm' : LockManager} {h : HeldLocks} (hrep : Represents lm h)
    (hlocks : ∀ u, lm'.lockOf u = lm.lockOf u) : Represents lm' h := by
  intro u
  rw [hlocks]
  exact hrep u

variable {s s₁ : LockThreads} {a : Atomic HeldLocks LockCall LockAnswer} {t : Nat}

/-- A thread moves on. -/
theorem Matches.goto {ph : LockPhase} {a' : Atomic HeldLocks LockCall LockAnswer}
    (hmatch : Matches s a) (hinv : (s₁.goto t ph).Inv) (hthreads : s₁.threads = s.threads)
    (hheld : Represents s₁.manager a'.state) (hself : a'.caller t = ph.caller)
    (hother : ∀ u, u ≠ t → a'.caller u = a.caller u) : Matches (s₁.goto t ph) a' := by
  refine ⟨hinv, hheld, fun u => ?_⟩
  rw [LockThreads.goto_threads, hthreads]
  by_cases hu : u = t
  · rw [if_pos hu, hu, hself]
  · rw [if_neg hu, hother u hu, hmatch.callers u]

theorem Atomic.goto_self (a : Atomic HeldLocks LockCall LockAnswer)
    (c : Caller LockCall LockAnswer) : (a.goto t c).caller t = c := by
  simp [Atomic.goto]

theorem Atomic.goto_ne (a : Atomic HeldLocks LockCall LockAnswer)
    (c : Caller LockCall LockAnswer) (u : Nat) (hu : u ≠ t) :
    (a.goto t c).caller u = a.caller u := by
  simp [Atomic.goto, hu]

/-- The call takes effect. -/
theorem Matches.effect {h : List (ObjectEvent LockCall LockAnswer)}
    {es : List (Commit LockCall LockAnswer)} (hmatch : Matches s a)
    (hpast : Atomically heldMachine h es a) {call : LockCall} {answer : LockAnswer}
    (hph : (s.threads t).caller = .asked call) (hinv : s₁.Inv)
    (hthreads : s₁.threads = s.threads)
    (hstep : lockMachine.step s.manager call = (answer, s₁.manager)) :
    ∃ es' a', Atomically heldMachine h es' a' ∧ Matches (s₁.goto t (.leaving answer)) a' := by
  have hanswer := locks_simulate.answer s.manager a.state call hmatch.held
  have hheld := locks_simulate.step s.manager a.state call hmatch.held
  rw [hstep] at hanswer hheld
  refine ⟨_, _, .effect hpast ((hmatch.callers t).trans hph), ?_⟩
  refine hmatch.goto (hinv.goto_out (by simp)) hthreads hheld ?_ (Atomic.goto_ne _ _)
  rw [Atomic.goto_self, ← hanswer]
  rfl

/-- The lock of the target has been found or added. -/
theorem Matches.found {call : LockCall} {lock : Nat} (hmatch : Matches s a)
    (hph : s.threads t = .entered call) (hinv : s₁.Inv) (hthreads : s₁.threads = s.threads)
    (hlocks : ∀ u, s₁.manager.lockOf u = s.manager.lockOf u)
    (hlock : s₁.locks call.target = some lock) (hcall : call.isNone = false) :
    Matches (s₁.goto t (.found call lock)) a := by
  refine hmatch.goto (hinv.goto fun call' lock' heq => ?_) hthreads (hmatch.held.congr hlocks) ?_
    fun _ _ => rfl
  · obtain ⟨rfl, rfl⟩ := LockPhase.found.inj heq
    exact ⟨hlock, hcall⟩
  · rw [hmatch.callers, hph]
    rfl

theorem lockThreads_refines : Refines lockThreads LockThreads.event heldMachine Matches where
  init s hs := by
    obtain ⟨hlocks, hthreads⟩ := hs
    refine ⟨⟨fun target lock h => ?_, fun target u lock h => ?_, fun t call lock h => ?_⟩,
      fun target => ?_, fun t => ?_⟩
    · rw [hlocks] at h
      cases h
    · rw [hlocks] at h
      cases h
    · rw [hthreads] at h
      cases h
    · have hfresh : s.manager.lockOf target = {} := by
        simp [LockThreads.manager, LockManager.lockOf, hlocks]
      rw [hfresh]
      exact locks_simulate.start target
    · rw [hthreads]
      rfl
  step s l s' h es a hmatch hpast hstep := by
    obtain ⟨t, l⟩ := l
    cases l with
    | call call =>
        obtain ⟨hph, rfl⟩ := LockThreads.step_call hstep
        refine ⟨es, _, .call t call hpast (by rw [hmatch.callers, hph]; rfl), ?_⟩
        exact hmatch.goto (hmatch.inv.goto_out (by simp)) rfl hmatch.held (Atomic.goto_self _ _)
          (Atomic.goto_ne _ _)
    | lookUp =>
        have hsilent : LockThreads.event s (t, .lookUp) = none := rfl
        rw [hsilent, Option.toList_none, List.append_nil]
        obtain ⟨call, hph, hcases⟩ := LockThreads.step_lookUp hstep
        have hcaller : (s.threads t).caller = .asked call := by rw [hph]; rfl
        rcases hcases with ⟨hnone, rfl⟩ | ⟨lock, hnone, hlock, rfl⟩ | ⟨hnone, hlock, hadds, rfl⟩ |
          ⟨hnone, hlock, hadds, rfl⟩
        · exact hmatch.effect hpast hcaller hmatch.inv rfl (LockThreads.none_effect hnone _)
        · exact ⟨es, a, hpast, hmatch.found hph hmatch.inv rfl (fun _ => rfl) hlock hnone⟩
        · exact ⟨es, a, hpast, hmatch.found hph (hmatch.inv.addLock hlock) rfl
            (LockThreads.addLock_lockOf hmatch.inv hlock) (by simp [LockThreads.addLock]) hnone⟩
        · exact hmatch.effect hpast hcaller hmatch.inv rfl
            (LockThreads.missing_effect hlock hnone hadds)
    | onLock =>
        have hsilent : LockThreads.event s (t, .onLock) = none := rfl
        rw [hsilent, Option.toList_none, List.append_nil]
        obtain ⟨call, lock, hph, rfl⟩ := LockThreads.step_onLock hstep
        have hcaller : (s.threads t).caller = .asked call := by rw [hph]; rfl
        obtain ⟨hlock, hcall⟩ := hmatch.inv.found t call lock hph
        exact hmatch.effect hpast hcaller (hmatch.inv.setLock lock _) rfl
          (LockThreads.onLock_effect hmatch.inv hlock hcall)
    | ret =>
        obtain ⟨answer, hph, rfl⟩ := LockThreads.step_ret hstep
        have hevent : LockThreads.event s (t, .ret) = some (.returned t answer) := by
          rw [LockThreads.event, hph]
        rw [hevent]
        refine ⟨es, _, .ret hpast (by rw [hmatch.callers, hph]; rfl), ?_⟩
        exact hmatch.goto (hmatch.inv.goto_out (by simp)) rfl hmatch.held (Atomic.goto_self _ _)
          (Atomic.goto_ne _ _)

/-- Whatever any number of threads do with one lock manager: what they see is what the set of held
locks answers to their calls one after the other, in an order in which every call stands at a
moment between its beginning and its return. -/
theorem lock_manager_linearizable {s s' : LockThreads} {ls : List (Nat × LockStep)}
    (hs : lockThreads.init s) (hrun : lockThreads.run ls s = some s') :
    Linearizable heldMachine (lockThreads.history LockThreads.event ls s) :=
  lockThreads_refines.linearizable hs hrun

/-- Two threads ask for one target at once. The first adds its lock, and the second takes it. -/
def contendedTrace : List (Nat × LockStep) :=
  [(0, .call (.acquire "h" .shell none)), (1, .call (.acquire "h" .capture (some ["p"]))),
    (0, .lookUp), (1, .lookUp), (1, .onLock), (0, .onLock), (0, .ret), (1, .ret)]

/-- The state after both have returned. -/
def contendedEnd : LockThreads := (lockThreads.run contendedTrace {}).get rfl

theorem lock_manager_linearizable_contended :
    lockThreads.history LockThreads.event contendedTrace {} =
        [.called 0 (.acquire "h" .shell none), .called 1 (.acquire "h" .capture (some ["p"])),
          .returned 0 (.conflict "h" .shell), .returned 1 .done] ∧
      Linearizable heldMachine (lockThreads.history LockThreads.event contendedTrace {}) := by
  have hrun : lockThreads.run contendedTrace {} = some contendedEnd := (Option.some_get rfl).symm
  exact ⟨rfl, lock_manager_linearizable ⟨fun _ => rfl, fun _ => rfl⟩ hrun⟩

end McpSocketServer
