import McpSocketServer.Server.RunBatch
import McpSocketServer.Misc.Lts

/-!
# The per-target workers of the write tools

Every write tool starts one worker for each target: `_run_batch.run_one`, or the `run_one` of
`capture_stop`. This is the transition system of any number of such workers over the lock
manager. A worker moves in the steps that others can observe, and every outcome (pool
timeout, connect failure, what the client function returns or raises) is a part of the label.

A worker belongs to a call, which begins before its worker starts and returns after its worker
has ended. Ghost fields record who took the locks, which workers a conflict is due to, which
calls had already returned when a call began, and who has released. No step reads them.
-/

namespace McpSocketServer

/-- The work of one worker: a batch function under a lock class, or `capture_stop`. -/
inductive Job where
  | runBatch (host : String) (port : Int) (cls : LockClass) (key : CapKey)
  | captureStop (host : String) (port : Int) (path : String)
  deriving DecidableEq, Repr

namespace Job

/-- The host of a job. -/
def host : Job → String
  | .runBatch host _ _ _ => host
  | .captureStop host _ _ => host

/-- The port of a job. -/
def port : Job → Int
  | .runBatch _ port _ _ => port
  | .captureStop _ port _ => port

/-- The target that a job works on. -/
def target (j : Job) : String × Int := (j.host, j.port)

/-- The lock that a job releases: its own, or the capture lock that it stops. -/
def releases : Job → LockClass × CapKey
  | .runBatch _ _ cls key => (cls, key)
  | .captureStop _ _ path => (.capture, [path])

/-- A batch function that takes the capture lock of a key on a host. -/
def starts (j : Job) (host : String) (key : CapKey) : Prop :=
  ∃ port, j = .runBatch host port .capture key

/-- `capture_stop` of the key on a host. -/
def stops (j : Job) (host : String) (key : CapKey) : Prop :=
  ∃ port path, j = .captureStop host port path ∧ key = [path]

/-- A batch function under an exclusive class on a host. -/
def excludes (j : Job) (host : String) (cls : LockClass) : Prop :=
  ∃ port key, j = .runBatch host port cls key ∧ cls.isExclusive = true

end Job

/-- Where a worker is. `result` is the outcome on which the `finally` block acts. -/
inductive Stage where
  | notCalled
  | called
  | locked
  | poolFailed (e : PyErr)
  | running
  | returned (outcome : Except PyErr PyVal)
  | unlocking (outcome : Except PyErr PyVal)
  | ended (ok : Bool)
  | over (ok : Bool)

namespace Stage

/-- The call has returned. -/
def isOver : Stage → Bool
  | .over _ => true
  | _ => false

/-- The worker is not between its begin and its end. -/
def finished : Stage → Bool
  | .notCalled | .ended _ | .over _ => true
  | _ => false

/-- A `_run_batch` worker is between taking its lock and the end of its `run_one`. -/
def holdsLock : Stage → Bool
  | .locked | .poolFailed _ | .running | .returned _ | .unlocking _ => true
  | _ => false

/-- A capture worker has taken its lock and has not released it itself. -/
def keeps : Stage → Bool
  | .ended ok | .over ok => ok
  | st => st.holdsLock

end Stage

/-- The locks, where every worker is, and notes that no step reads. -/
structure WorkersState where
  locks : LockManager
  stage : Nat → Stage := fun _ => .notCalled
  /-- The worker that took the exclusive lock of a host. -/
  exclusiveOwner : String → Option Nat := fun _ => none
  /-- The worker that took a capture lock of a host. -/
  captureOwner : String → CapKey → Option Nat := fun _ _ => none
  /-- The workers whose locks a worker with a `LockConflict` met. -/
  blockers : Nat → Option (List Nat) := fun _ => none
  /-- The calls that had returned when a call began. -/
  seenOver : Nat → Nat → Bool := fun _ _ => false
  /-- The workers that have released the lock of their job. -/
  released : Nat → Bool := fun _ => false

/-- What a worker does next: it is called, takes its lock, borrows, runs its client function, gives the
client back, unlocks and returns. -/
inductive WorkerStep where
  | call
  | lock
  | borrowed
  | borrowFailed (e : PyErr)
  | fnEnded (outcome : Except PyErr PyVal)
  | poolReleased
  | unlock
  | callReturns

namespace WorkersState

/-- Worker `w` goes on to the next stage. -/
def goto (s : WorkersState) (w : Nat) (st : Stage) : WorkersState :=
  { s with stage := Function.update s.stage w st }

/-- The owners of the locks that stand in the way of a class and key on a host. -/
def owners (s : WorkersState) (host : String) (cls : LockClass) (key : CapKey) : List Nat :=
  if ((s.locks.lockOf host).exclusiveHolder).isSome then (s.exclusiveOwner host).toList
  else if cls = .capture then (s.captureOwner host key).toList
  else (s.locks.lockOf host).captures.filterMap (s.captureOwner host)

/-- Record that worker `w` has taken a lock. -/
def own (s : WorkersState) (w : Nat) (host : String) (cls : LockClass) (key : CapKey) :
    WorkersState :=
  { s with
    captureOwner :=
      if cls = .capture then
        Function.update s.captureOwner host (Function.update (s.captureOwner host) key (some w))
      else s.captureOwner
    exclusiveOwner :=
      if cls.isExclusive then Function.update s.exclusiveOwner host (some w)
      else s.exclusiveOwner }

/-- `lock_mgr.acquire` in `_run_batch.run_one`; without a class no lock is taken. -/
def lockStep (s : WorkersState) (w : Nat) (host : String) (cls : LockClass) (key : CapKey) :
    WorkersState :=
  match s.locks.acquire host cls (some key) with
  | (.ok (), locks) => ({ s with locks := locks }.own w host cls key).goto w .locked
  | (.error _, locks) =>
    { s with
      locks := locks
      blockers := Function.update s.blockers w (some (s.owners host cls key)) }.goto w
        (.ended false)

/-- `_run_batch.run_one` keeps a capture lock when the target's result is ok. -/
def keepsLock (j : Job) (outcome : Except PyErr PyVal) : Bool :=
  match j with
  | .runBatch host _ .capture _ => (settle host outcome).ok
  | _ => false

/-- The `ok` flag of the result that a worker returns. -/
def resultOk (j : Job) (outcome : Except PyErr PyVal) : Bool :=
  match j with
  | .runBatch host _ _ _ => (settle host outcome).ok
  | .captureStop host _ _ => (settleStop host outcome).ok

/-- The release of a job's lock. -/
def releaseLock (s : WorkersState) (w : Nat) (j : Job) : WorkersState :=
  { s with
    locks := s.locks.release j.host j.releases.1 (some j.releases.2)
    released := Function.update s.released w true }

/-- One step of worker `w`. -/
def step (jobs : Nat → Job) (s : WorkersState) (w : Nat) : WorkerStep → Option WorkersState
  | .call =>
    match s.stage w with
    | .notCalled =>
      some ({ s with
        seenOver := Function.update s.seenOver w fun v => (s.stage v).isOver }.goto w .called)
    | _ => none
  | .lock =>
    match s.stage w, jobs w with
    | .called, .runBatch host _ cls key => some (s.lockStep w host cls key)
    | _, _ => none
  | .borrowed =>
    match s.stage w, jobs w with
    | .locked, .runBatch .. => some (s.goto w .running)
    | .called, .captureStop .. => some (s.goto w .running)
    | _, _ => none
  | .borrowFailed e =>
    match s.stage w, jobs w with
    | .locked, .runBatch .. => some (s.goto w (.poolFailed e))
    -- `pool.acquire` stands before the `try` of `capture_stop.run_one`
    | .called, .captureStop .. => some (s.goto w (.ended false))
    | _, _ => none
  | .fnEnded outcome =>
    match s.stage w with
    | .running => some (s.goto w (.returned outcome))
    | _ => none
  | .poolReleased =>
    match s.stage w with
    | .returned outcome => some (s.goto w (.unlocking outcome))
    | _ => none
  | .unlock =>
    match s.stage w with
    | .poolFailed _ => some ((s.releaseLock w (jobs w)).goto w (.ended false))
    | .unlocking outcome =>
      if keepsLock (jobs w) outcome then some (s.goto w (.ended (resultOk (jobs w) outcome)))
      else some ((s.releaseLock w (jobs w)).goto w (.ended (resultOk (jobs w) outcome)))
    | _ => none
  | .callReturns =>
    match s.stage w with
    | .ended ok => some (s.goto w (.over ok))
    | _ => none

@[simp] theorem goto_locks (s : WorkersState) (w : Nat) (st : Stage) :
    (s.goto w st).locks = s.locks := rfl

@[simp] theorem goto_stage (s : WorkersState) (w : Nat) (st : Stage) :
    (s.goto w st).stage = Function.update s.stage w st := rfl

@[simp] theorem own_locks (s : WorkersState) (w : Nat) (host : String) (cls : LockClass)
    (key : CapKey) : (s.own w host cls key).locks = s.locks := rfl

@[simp] theorem own_stage (s : WorkersState) (w : Nat) (host : String) (cls : LockClass)
    (key : CapKey) : (s.own w host cls key).stage = s.stage := rfl

end WorkersState

open WorkersState

/-! ### What a step does -/

/-- The stages between which a worker with job `j` moves without touching a lock. -/
inductive Moves (j : Job) : Stage → Stage → Prop where
  | borrowed : Moves j .locked .running
  | poolFailed (e : PyErr) : Moves j .locked (.poolFailed e)
  | stopBorrowed (host : String) (port : Int) (path : String) :
      j = .captureStop host port path → Moves j .called .running
  | stopNotBorrowed (host : String) (port : Int) (path : String) :
      j = .captureStop host port path → Moves j .called (.ended false)
  | fnEnded (outcome : Except PyErr PyVal) : Moves j .running (.returned outcome)
  | poolReleased (outcome : Except PyErr PyVal) : Moves j (.returned outcome) (.unlocking outcome)
  | keeps (host : String) (port : Int) (key : CapKey) (outcome : Except PyErr PyVal) :
      j = .runBatch host port .capture key → Moves j (.unlocking outcome) (.ended true)
  | callReturns (ok : Bool) : Moves j (.ended ok) (.over ok)

/-- The stages in which a worker with job `j` releases, with the flag of its result. -/
inductive Releases (j : Job) : Stage → Bool → Prop where
  | poolFailed (e : PyErr) : Releases j (.poolFailed e) false
  | unlocking (outcome : Except PyErr PyVal) : keepsLock j outcome = false →
      Releases j (.unlocking outcome) (resultOk j outcome)

/-- Everything that a step of worker `w` can do. -/
inductive Effect (jobs : Nat → Job) (s : WorkersState) (w : Nat) : WorkersState → Prop where
  | called : s.stage w = .notCalled →
      Effect jobs s w ({ s with
        seenOver := Function.update s.seenOver w fun v => (s.stage v).isOver }.goto w .called)
  | took (host : String) (port : Int) (cls : LockClass) (key : CapKey) (locks : LockManager) :
      s.stage w = .called → jobs w = .runBatch host port cls key →
      (s.locks.lockOf host).Free cls (some key) →
      (∀ u, locks.lockOf u =
        if u = host then (s.locks.lockOf host).hold cls (some key) else s.locks.lockOf u) →
      Effect jobs s w (({ s with locks := locks }.own w host cls key).goto w .locked)
  | conflicted (host : String) (port : Int) (cls : LockClass) (key : CapKey)
      (locks : LockManager) :
      s.stage w = .called → jobs w = .runBatch host port cls key →
      ¬ (s.locks.lockOf host).Free cls (some key) → (∀ u, locks.lockOf u = s.locks.lockOf u) →
      Effect jobs s w ({ s with
        locks := locks
        blockers := Function.update s.blockers w (some (s.owners host cls key)) }.goto w
          (.ended false))
  | moved (st : Stage) : Moves (jobs w) (s.stage w) st → Effect jobs s w (s.goto w st)
  | released (ok : Bool) : Releases (jobs w) (s.stage w) ok →
      Effect jobs s w ((s.releaseLock w (jobs w)).goto w (.ended ok))

theorem lockStep_effect {jobs : Nat → Job} {s : WorkersState} {w : Nat} {host : String}
    {port : Int} {cls : LockClass} {key : CapKey} (hst : s.stage w = .called)
    (hjob : jobs w = .runBatch host port cls key) :
    Effect jobs s w (s.lockStep w host cls key) := by
  unfold lockStep
  by_cases hfree : (s.locks.lockOf host).Free cls (some key)
  · obtain ⟨hok, hlocks⟩ := LockManager.acquire_free hfree
    rcases hacq : s.locks.acquire host cls (some key) with ⟨e | u, locks⟩
    · rw [hacq] at hok
      cases hok
    · rw [hacq] at hlocks
      exact .took host port cls key locks hst hjob hfree hlocks
  · obtain ⟨⟨e, he⟩, hlocks⟩ := LockManager.acquire_conflict hfree
    rcases hacq : s.locks.acquire host cls (some key) with ⟨e' | u, locks⟩
    · rw [hacq] at hlocks
      exact .conflicted host port cls key locks hst hjob hfree hlocks
    · rw [hacq] at he
      cases he

/-- A job that keeps its lock is a capture whose result is ok. -/
theorem keepsLock_spec {j : Job} {outcome : Except PyErr PyVal} (h : keepsLock j outcome = true) :
    (∃ host port key, j = .runBatch host port .capture key) ∧ resultOk j outcome = true := by
  cases j with
  | captureStop host port path => cases h
  | runBatch host port cls key =>
      cases cls <;> first | exact ⟨⟨host, port, key, rfl⟩, h⟩ | cases h

theorem step_effect {jobs : Nat → Job} {s s' : WorkersState} {w : Nat} {l : WorkerStep}
    (h : s.step jobs w l = some s') : Effect jobs s w s' := by
  cases l with
  | call =>
      cases hst : s.stage w <;> simp [step, hst] at h
      exact h ▸ .called hst
  | lock =>
      rcases hjob : jobs w with ⟨host, port, cls, key⟩ | ⟨host, port, path⟩ <;>
        cases hst : s.stage w <;> simp [step, hst, hjob] at h
      exact h ▸ lockStep_effect hst hjob
  | borrowed =>
      rcases hjob : jobs w with ⟨host, port, cls, key⟩ | ⟨host, port, path⟩ <;>
        cases hst : s.stage w <;> simp [step, hst, hjob] at h
      · exact h ▸ .moved _ (hst ▸ .borrowed)
      · exact h ▸ .moved _ (hst ▸ .stopBorrowed host port path hjob)
  | borrowFailed e =>
      rcases hjob : jobs w with ⟨host, port, cls, key⟩ | ⟨host, port, path⟩ <;>
        cases hst : s.stage w <;> simp [step, hst, hjob] at h
      · exact h ▸ .moved _ (hst ▸ .poolFailed e)
      · exact h ▸ .moved _ (hst ▸ .stopNotBorrowed host port path hjob)
  | fnEnded outcome =>
      cases hst : s.stage w <;> simp [step, hst] at h
      exact h ▸ .moved _ (hst ▸ .fnEnded outcome)
  | poolReleased =>
      cases hst : s.stage w <;> simp [step, hst] at h
      exact h ▸ .moved _ (hst ▸ .poolReleased _)
  | unlock =>
      cases hst : s.stage w <;> simp only [step, hst, reduceCtorEq, Option.some.injEq] at h
      · exact h ▸ .released _ (hst ▸ .poolFailed _)
      · rename_i outcome
        cases hkeep : keepsLock (jobs w) outcome with
        | true =>
            obtain ⟨⟨host, port, key, hjob⟩, hok⟩ := keepsLock_spec hkeep
            rw [hkeep, hok, if_pos rfl, Option.some.injEq] at h
            exact h ▸ .moved _ (hst ▸ .keeps host port key outcome hjob)
        | false =>
            rw [hkeep, if_neg (by decide), Option.some.injEq] at h
            exact h ▸ .released _ (hst ▸ .unlocking outcome hkeep)
  | callReturns =>
      cases hst : s.stage w <;> simp [step, hst] at h
      exact h ▸ .moved _ (hst ▸ .callReturns _)

/-- A call begins only by its own label. -/
theorem step_of_notCalled {jobs : Nat → Job} {s s' : WorkersState} {w : Nat} {l : WorkerStep}
    (h : s.step jobs w l = some s') (hst : s.stage w = .notCalled) : l = .call := by
  cases l <;> simp [step, hst] at h
  rfl

/-- A batch worker that has been called goes on by taking its lock. -/
theorem step_of_called {jobs : Nat → Job} {s s' : WorkersState} {w : Nat} {l : WorkerStep}
    {host : String} {port : Int} {cls : LockClass} {key : CapKey}
    (h : s.step jobs w l = some s') (hst : s.stage w = .called)
    (hjob : jobs w = .runBatch host port cls key) : l = .lock := by
  cases l <;> simp [step, hst, hjob] at h
  rfl

/-- The workers of any family of jobs, started over a given lock manager. -/
def workersLts (jobs : Nat → Job) (start : LockManager) :
    Lts WorkersState (Nat × WorkerStep) where
  init s := s = { locks := start }
  step s l := s.step jobs l.1 l.2

end McpSocketServer
