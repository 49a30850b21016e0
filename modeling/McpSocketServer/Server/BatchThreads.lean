import McpSocketServer.Misc.Amortized
import McpSocketServer.Server.ToolRun

/-!
# The workers of one call beside each other (`server._run_batch`, `pool.Scheduler.batch`)

The worker of a target in the steps between which those of the other targets, and other calls,
may move: taking the lock, borrowing a client and calling the client function, and releasing. A
client function uses what the calls share in one place at most, where it writes the liveness, so
that it is one step. What other calls do between the steps is a step of its own.
-/

namespace McpSocketServer

/-- Where the worker of a target is. -/
inductive BatchStage where
  | waiting
  | locked
  | notBorrowed (e : PyErr)
  | ran (outcome : Except PyErr PyVal)
  | ended (e : WorkerEnd)

/-- The worker goes on with its lock, or ends with a `LockConflict`. -/
def BatchStage.afterLock : Except LockConflict Unit → BatchStage
  | .ok () => .locked
  | .error e => .ended (.conflict e)

/-- What the calls share, and where the worker of every target is. -/
structure BatchThreads where
  shared : Shared
  stage : String → BatchStage := fun _ => .waiting

/-- A step of the worker of a target, or something that other calls do to what is shared. -/
inductive BatchStep where
  | lock (host : String)
  | work (host : String)
  | release (host : String)
  | outside (shared : Shared)

namespace BatchThreads

/-- The worker of `host` goes on to stage `st`. -/
def goto (s : BatchThreads) (host : String) (st : BatchStage) : BatchThreads :=
  { s with stage := Function.update s.stage host st }

/-- The locks change. -/
def setLocks (s : BatchThreads) (locks : LockManager) : BatchThreads :=
  { s with shared := { s.shared with locks := locks } }

variable (rt : Runtime) (port timeout : Int) (call : ToolCall) (does : String → Borrowing)

/-- One step of a worker or of another call. -/
def step (s : BatchThreads) : BatchStep → Option BatchThreads
  | .lock host =>
    match s.stage host with
    | .waiting =>
      let (r, locks) := s.shared.locks.acquire host call.lockClass (some call.lockKey)
      some ((s.setLocks locks).goto host (.afterLock r))
    | _ => none
  | .work host =>
    match s.stage host with
    | .locked =>
      match (does host).acquire host port (call.socketTimeout timeout) with
      | .error e => some (s.goto host (.notBorrowed e))
      | .ok client =>
        let r := (call.fn rt port).exec ⟨client, s.shared.registry⟩
        some ({ s with shared := { s.shared with registry := r.2.registry } }.goto host (.ran r.1))
    | _ => none
  | .release host =>
    match s.stage host with
    | .notBorrowed e =>
      some ((s.setLocks (s.shared.locks.release host call.lockClass (some call.lockKey))).goto host
        (.ended (.notBorrowed e)))
    | .ran outcome =>
      some ((s.setLocks (call.locksAfter host outcome s.shared.locks)).goto host
        (.ended (.ran outcome)))
    | _ => none
  | .outside shared => some { s with shared := shared }

/-- The results of the workers that have ended, in the order of their futures. -/
def results (s : BatchThreads) (order : List String) : List TargetResult :=
  order.filterMap fun host =>
    match s.stage host with
    | .ended e => some (call.result host e)
    | _ => none

@[simp] theorem goto_shared (s : BatchThreads) (host : String) (st : BatchStage) :
    (s.goto host st).shared = s.shared := rfl

@[simp] theorem goto_stage (s : BatchThreads) (host : String) (st : BatchStage) :
    (s.goto host st).stage = Function.update s.stage host st := rfl

@[simp] theorem setLocks_stage (s : BatchThreads) (locks : LockManager) :
    (s.setLocks locks).stage = s.stage := rfl

/-! ### What each step does -/

variable {rt port timeout call does} {s s' : BatchThreads} {host : String}

theorem step_lock (h : s.step rt port timeout call does (.lock host) = some s') :
    s.stage host = .waiting ∧ ∃ r locks,
      s.shared.locks.acquire host call.lockClass (some call.lockKey) = (r, locks) ∧
      s' = (s.setLocks locks).goto host (.afterLock r) := by
  cases hst : s.stage host <;> simp only [step, hst, reduceCtorEq] at h
  exact ⟨rfl, _, _, rfl, (Option.some.inj h).symm⟩

theorem step_work (h : s.step rt port timeout call does (.work host) = some s') :
    s.stage host = .locked ∧
      ((∃ e, (does host).acquire host port (call.socketTimeout timeout) = .error e ∧
          s' = s.goto host (.notBorrowed e)) ∨
        ∃ client outcome after, (does host).acquire host port (call.socketTimeout timeout) =
            .ok client ∧
          (call.fn rt port).exec ⟨client, s.shared.registry⟩ = (outcome, after) ∧
          s' = { s with shared := { s.shared with registry := after.registry } }.goto host
            (.ran outcome)) := by
  cases hst : s.stage host <;> simp only [step, hst, reduceCtorEq] at h
  cases hborrow : (does host).acquire host port (call.socketTimeout timeout) with
  | error e =>
      rw [hborrow] at h
      exact ⟨rfl, Or.inl ⟨e, rfl, (Option.some.inj h).symm⟩⟩
  | ok client =>
      rw [hborrow] at h
      exact ⟨rfl, Or.inr ⟨client, _, _, rfl, rfl, (Option.some.inj h).symm⟩⟩

theorem step_release (h : s.step rt port timeout call does (.release host) = some s') :
    (∃ e, s.stage host = .notBorrowed e ∧
        s' = (s.setLocks (s.shared.locks.release host call.lockClass (some call.lockKey))).goto
          host (.ended (.notBorrowed e))) ∨
      ∃ outcome, s.stage host = .ran outcome ∧
        s' = (s.setLocks (call.locksAfter host outcome s.shared.locks)).goto host
          (.ended (.ran outcome)) := by
  cases hst : s.stage host <;> simp only [step, hst, reduceCtorEq] at h
  · exact Or.inl ⟨_, rfl, (Option.some.inj h).symm⟩
  · exact Or.inr ⟨_, rfl, (Option.some.inj h).symm⟩

end BatchThreads

/-- One call over what the calls share at its begin. -/
def batchLts (rt : Runtime) (port timeout : Int) (call : ToolCall) (does : String → Borrowing)
    (sh : Shared) : Lts BatchThreads BatchStep where
  init s := s = { shared := sh }
  step s l := s.step rt port timeout call does l

/-- The workers are those of the resolved targets, and other calls neither lock nor release
these, nor is the registry taken away or made. -/
def BatchThreads.Apart (resolved : List String) (s : BatchThreads) : BatchStep → Prop
  | .lock host | .work host | .release host => host ∈ resolved
  | .outside shared =>
    (∀ host ∈ resolved, shared.locks.lockOf host = s.shared.locks.lockOf host) ∧
      shared.registry.isSome = s.shared.registry.isSome

/-- The worker of the target has ended. -/
def BatchThreads.Ended (s : BatchThreads) (host : String) : Prop := ∃ e, s.stage host = .ended e

/-- The tool returns or raises `r`: its workers have ended, after steps of theirs and of other
calls in any order, and the results are put together in the order of the run. -/
def TargetsRun.Answers {resolved : List String} (run : TargetsRun resolved) (rt : Runtime)
    (port timeout : Int) (call : ToolCall) (sh : Shared) (r : Except PyErr StopReport) : Prop :=
  ∃ ls s, (batchLts rt port timeout call run.does sh).Run (BatchThreads.Apart resolved)
      { shared := sh } ls s ∧
    (∀ host ∈ resolved, s.Ended host) ∧
    call.answer (fun _ => false) (s.results call run.order) = r

end McpSocketServer
