import McpSocketServer.PoolThreads

/-!
# Emptying a pool (`pool.TargetPool.close_all`)

Any number of calls of `close_all` beside the threads that borrow from the pool. A call takes
the whole idle list in one critical section and closes the clients of it one after the other
outside of the lock, in the order in which they were given back.
-/

namespace McpSocketServer

variable {κ ω ν : Type}

/-- The pool, and the clients that each call of `close_all` is still to close. -/
structure DrainState (κ : Type) where
  base : PoolState κ
  draining : Nat → List Nat := fun _ => []

/-- A step of a thread of the pool, or one of a call `u` of `close_all`. -/
inductive DrainStep (ω ν : Type) where
  | thread (t : Nat) (l : PoolStep ω ν)
  | takeAll (u : Nat)
  | closeNext (u : Nat)

namespace DrainState

variable (K : ClientKind κ ω ν)

/-- One step of the pool and the calls of `close_all`. -/
def step (s : DrainState κ) : DrainStep ω ν → Option (DrainState κ)
  | .thread t l => (s.base.step K t l).map fun base => { s with base := base }
  | .takeAll u =>
    match s.draining u with
    | [] => some
      { base := { s.base with pool := { s.base.pool with idle := [] } }
        draining :=
          Function.update s.draining u (s.base.pool.idle.map PooledConn.client).reverse }
    | _ => none
  | .closeNext u =>
    match s.draining u with
    | [] => none
    | c :: cs => some
      { base := s.base.setClient c (K.close (s.base.clients c))
        draining := Function.update s.draining u cs }

variable {K} {s s' : DrainState κ}

theorem step_thread {t : Nat} {l : PoolStep ω ν} (h : s.step K (.thread t l) = some s') :
    ∃ base, s.base.step K t l = some base ∧ s' = { s with base := base } := by
  obtain ⟨base, hbase, rfl⟩ := Option.map_eq_some_iff.mp h
  exact ⟨base, hbase, rfl⟩

theorem step_takeAll {u : Nat} (h : s.step K (.takeAll u : DrainStep ω ν) = some s') :
    s.draining u = [] ∧
      s' = { base := { s.base with pool := { s.base.pool with idle := [] } }
             draining := Function.update s.draining u
               (s.base.pool.idle.map PooledConn.client).reverse } := by
  cases hu : s.draining u <;> simp only [step, hu, reduceCtorEq, Option.some.injEq] at h
  exact ⟨rfl, h.symm⟩

theorem step_closeNext {u : Nat} (h : s.step K (.closeNext u : DrainStep ω ν) = some s') :
    ∃ c cs, s.draining u = c :: cs ∧
      s' = { base := s.base.setClient c (K.close (s.base.clients c))
             draining := Function.update s.draining u cs } := by
  cases hu : s.draining u <;> simp only [step, hu, reduceCtorEq, Option.some.injEq] at h
  rename_i c cs
  exact ⟨c, cs, rfl, h.symm⟩

end DrainState

/-- A new pool under any number of threads and of calls of `close_all`. -/
def drainLts (K : ClientKind κ ω ν) : Lts (DrainState κ) (DrainStep ω ν) where
  init s := (poolLts K).init s.base ∧ ∀ u, s.draining u = []
  step s l := s.step K l

end McpSocketServer
