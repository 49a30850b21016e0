import McpSocketServer.Misc.ThreadPool
import McpSocketServer.Schedulers

/-!
# Calls of tools beside each other (`pool.Scheduler`, `server._run_batch`)

The threads in which the calls of tools run their client functions. Every call gets a scheduler
from `get_scheduler`, and so not always the same as the others. A read tool puts its targets
into the executor of its scheduler; every call of a write tool makes an executor of its own.
After its pushes `upgrade_run` probes its targets in the thread of the call.
-/

namespace McpSocketServer

/-- `pool.MAX_GLOBAL_CONCURRENCY`. -/
def maxGlobalConcurrency : Nat := 50

/-- The tools by where they run the client functions. -/
inductive CallKind where
  | read
  | write
  | upgrade
  deriving DecidableEq, Repr

/-- A call: its tool and the number of its resolved targets. -/
structure ToolStart where
  kind : CallKind
  targets : Nat
  deriving DecidableEq, Repr

/-- Where the worker of a target is: `executing` is the run of its client function, which it
may leave out (after a conflict, or without a client). -/
inductive TargetStage where
  | waiting
  | started
  | executing
  | executed
  | ended
  deriving DecidableEq, Repr

/-- The worker has a thread. -/
def TargetStage.inThread : TargetStage → Bool
  | .started | .executing | .executed => true
  | _ => false

/-- The calls in one process. The thread of the call `c` is the thread `c` of the schedulers. -/
structure CallsState where
  schedulers : SchedulersState := {}
  /-- `_executor` of each scheduler. -/
  shared : Nat → ThreadPool (Nat × Nat) := fun _ => .new maxGlobalConcurrency []
  /-- The scheduler that a call has got. -/
  scheduler : Nat → Nat := fun _ => 0
  /-- The executor that a call has made for itself. -/
  own : Nat → ThreadPool Nat := fun _ => .new 0 []
  called : Nat → Bool := fun _ => false
  /-- The calls that have begun and not returned. -/
  active : List Nat := []
  stage : Nat → Nat → TargetStage := fun _ _ => .waiting
  /-- The call is probing a target. -/
  probing : Nat → Bool := fun _ => false

/-- A step of the schedulers and their pools, or one of a call. -/
inductive CallsStep where
  | scheduling (l : SchedulersStep)
  | call (c : Nat)
  | start (c i : Nat)
  | enter (c i : Nat)
  | leave (c i : Nat)
  | finish (c i : Nat)
  | probe (c : Nat)
  | probed (c : Nat)
  | ret (c : Nat)

/-- An operation on a target: the client function of a worker, or a probe. -/
inductive TargetOp where
  | fn (c i : Nat)
  | probe (c : Nat)
  deriving DecidableEq, Repr

namespace CallsState

/-- The operations that are being executed. -/
def InFlight (s : CallsState) : TargetOp → Prop
  | .fn c i => s.stage c i = .executing
  | .probe c => s.probing c = true

/-- Target `i` of call `c` goes on to a stage. -/
def setStage (s : CallsState) (c i : Nat) (st : TargetStage) : CallsState :=
  { s with stage := Function.update s.stage c (Function.update (s.stage c) i st) }

/-- The own executor of a call changes. -/
def setOwn (s : CallsState) (c : Nat) (p : ThreadPool Nat) : CallsState :=
  { s with own := Function.update s.own c p }

/-- The executor of a scheduler changes. -/
def setShared (s : CallsState) (i : Nat) (p : ThreadPool (Nat × Nat)) : CallsState :=
  { s with shared := Function.update s.shared i p }

/-- A call that has got the scheduler `k` begins: all its targets are submitted. -/
def begin (calls : Nat → ToolStart) (s : CallsState) (c k : Nat) : CallsState :=
  let tasks := List.range (calls c).targets
  let s := { s with
    called := Function.update s.called c true
    scheduler := Function.update s.scheduler c k
    active := c :: s.active }
  if (calls c).kind = .read then
    s.setShared k ((s.shared k).submit (tasks.map fun i => (c, i)))
  else s.setOwn c (.new (min 50 (max (calls c).targets 1)) tasks)

theorem setOwn_same (s : CallsState) (c : Nat) (p : ThreadPool Nat) :
    (s.setOwn c p).own c = p := by
  simp [setOwn]

theorem setOwn_ne (s : CallsState) (p : ThreadPool Nat) {c d : Nat} (h : d ≠ c) :
    (s.setOwn c p).own d = s.own d := by
  simp [setOwn, h]

theorem setShared_same (s : CallsState) (k : Nat) (p : ThreadPool (Nat × Nat)) :
    (s.setShared k p).shared k = p := by
  simp [setShared]

theorem setShared_ne (s : CallsState) (p : ThreadPool (Nat × Nat)) {k j : Nat} (h : j ≠ k) :
    (s.setShared k p).shared j = s.shared j := by
  simp [setShared, h]

@[simp] theorem setStage_stage (s : CallsState) (c i : Nat) (st : TargetStage) (d j : Nat) :
    (s.setStage c i st).stage d j = if d = c ∧ j = i then st else s.stage d j := by
  by_cases hd : d = c
  · subst hd
    by_cases hj : j = i <;> simp [setStage, hj]
  · simp [setStage, hd]

/-- One step. -/
def step (rt : Runtime) (calls : Nat → ToolStart) (s : CallsState) :
    CallsStep → Option CallsState
  | .scheduling l => (s.schedulers.step rt l).map fun r => { s with schedulers := r }
  | .call c =>
    match s.schedulers.threads c with
    | .holding k => if s.called c then none else some (s.begin calls c k)
    | _ => none
  | .start c i =>
    if (calls c).kind = .read then
      ((s.shared (s.scheduler c)).start (c, i)).map fun p =>
        (s.setShared (s.scheduler c) p).setStage c i .started
    else ((s.own c).start i).map fun p => (s.setOwn c p).setStage c i .started
  | .enter c i => if s.stage c i = .started then some (s.setStage c i .executing) else none
  | .leave c i => if s.stage c i = .executing then some (s.setStage c i .executed) else none
  | .finish c i =>
    if s.stage c i = .started ∨ s.stage c i = .executed then
      if (calls c).kind = .read then
        some ((s.setShared (s.scheduler c) ((s.shared (s.scheduler c)).finish (c, i))).setStage c i
          .ended)
      else some ((s.setOwn c ((s.own c).finish i)).setStage c i .ended)
    else none
  | .probe c =>
    if (calls c).kind = .upgrade ∧ c ∈ s.active ∧ (s.own c).load = 0 ∧ s.probing c = false then
      some { s with probing := Function.update s.probing c true }
    else none
  | .probed c =>
    if s.probing c then some { s with probing := Function.update s.probing c false } else none
  | .ret c =>
    if c ∈ s.active ∧ (s.own c).load = 0 ∧ s.probing c = false ∧
        (∀ i < (calls c).targets, (calls c).kind = .read → s.stage c i = .ended) then
      some { s with active := s.active.erase c }
    else none

end CallsState

/-- Any calls of tools in a new process. -/
def callsLts (rt : Runtime) (calls : Nat → ToolStart) : Lts CallsState CallsStep where
  init s := s = {}
  step s l := s.step rt calls l

end McpSocketServer
