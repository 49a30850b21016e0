import McpSocketServer.PoolDraining
import McpSocketServer.Server.Tools

/-!
# The pools of all targets (`pool.Scheduler.get_pool`, `pool.get_scheduler`)

The global scheduler and the pools that it makes, one for each host and port, under any number
of threads. `get_scheduler` takes no lock: it looks for a scheduler, makes one if there is none,
and reads the variable again, and other threads move in between. `get_pool` is one critical
section. A call hands its scheduler to the threads of its workers.
-/

namespace McpSocketServer

/-- A `TargetPool` with its clients and the threads that use it. -/
structure TargetPoolObject where
  host : String
  port : Int
  state : DrainState SocketServerClient

/-- `TargetPool(host, port)`. -/
def TargetPoolObject.new (host : String) (port : Int) : TargetPoolObject :=
  { host := host, port := port, state := { base := unusedPool } }

/-- The key of a pool in `_pools`. -/
def poolKey (host : String) (port : Int) : String := host ++ ":" ++ toString port

/-- Where a thread is. -/
inductive SchedulerPhase where
  | out
  | making
  | returning
  | holding (scheduler : Nat)
  | borrowing (scheduler : Nat) (key : String)
  deriving DecidableEq, Repr

/-- The scheduler that a thread has. -/
def SchedulerPhase.scheduler : SchedulerPhase → Option Nat
  | .holding i | .borrowing i _ => some i
  | _ => none

/-- The scheduler of the server, the pools of all schedulers made so far, and where every thread is. -/
structure SchedulersState where
  /-- `_scheduler`. -/
  scheduler : Option Nat := none
  /-- The number of `Scheduler` objects that have been made. -/
  made : Nat := 0
  /-- `_pools` of each scheduler. -/
  pools : Nat → String → Option TargetPoolObject := fun _ _ => none
  threads : Nat → SchedulerPhase := fun _ => .out

/-- What a thread does next: `get_scheduler` in three steps, with the check apart from the assignment;
handing the scheduler to a worker; `get_pool`; and the steps in the pools. -/
inductive SchedulersStep where
  | check (t : Nat)
  | assign (t : Nat)
  | ret (t : Nat)
  | handOver (t u : Nat)
  | getPool (t : Nat) (host : String) (port : Int)
  | inPool (i : Nat) (key : String) (l : DrainStep (Except PyErr Endpoint) ToolUse)
  | leave (t : Nat)
  | done (t : Nat)

/-- The thread of a step in a pool, which is none for the steps of `close_all`. -/
def DrainStep.thread? {ω ν : Type} : DrainStep ω ν → Option Nat
  | .thread t _ => some t
  | _ => none

namespace SchedulersState

/-- Thread `t` goes on to phase `ph`. -/
def goto (s : SchedulersState) (t : Nat) (ph : SchedulerPhase) : SchedulersState :=
  { s with threads := Function.update s.threads t ph }

/-- The pool under a key of a scheduler changes. -/
def setPool (s : SchedulersState) (i : Nat) (key : String) (p : TargetPoolObject) :
    SchedulersState :=
  { s with pools := Function.update s.pools i (Function.update (s.pools i) key (some p)) }

/-- `get_pool`, up to the result. -/
def ensurePool (s : SchedulersState) (i : Nat) (host : String) (port : Int) : SchedulersState :=
  match s.pools i (poolKey host port) with
  | some _ => s
  | none => s.setPool i (poolKey host port) (.new host port)

variable (rt : Runtime)

/-- One step of a thread. -/
def step (s : SchedulersState) : SchedulersStep → Option SchedulersState
  | .check t =>
    match s.threads t with
    | .out => some (s.goto t (if s.scheduler = none then .making else .returning))
    | _ => none
  | .assign t =>
    match s.threads t with
    | .making =>
      some ({ s with scheduler := some s.made, made := s.made + 1 }.goto t .returning)
    | _ => none
  | .ret t =>
    match s.threads t, s.scheduler with
    | .returning, some i => some (s.goto t (.holding i))
    | _, _ => none
  | .handOver t u =>
    match s.threads t, s.threads u with
    | .holding i, .out => some (s.goto u (.holding i))
    | _, _ => none
  | .getPool t host port =>
    match s.threads t with
    | .holding i => some ((s.ensurePool i host port).goto t (.borrowing i (poolKey host port)))
    | _ => none
  | .inPool i key l =>
    match s.pools i key with
    | some p =>
      if l.thread?.all fun t => s.threads t = .borrowing i key then
        (p.state.step (toolClients rt p.host p.port) l).map fun state =>
          s.setPool i key { p with state := state }
      else none
    | none => none
  | .leave t =>
    match s.threads t with
    | .borrowing i key =>
      if (s.pools i key).all fun p => p.state.base.threads t = .out then
        some (s.goto t (.holding i))
      else none
    | _ => none
  | .done t =>
    match s.threads t with
    | .holding _ => some (s.goto t .out)
    | _ => none

@[simp] theorem goto_scheduler (s : SchedulersState) (t : Nat) (ph : SchedulerPhase) :
    (s.goto t ph).scheduler = s.scheduler := rfl

@[simp] theorem goto_made (s : SchedulersState) (t : Nat) (ph : SchedulerPhase) :
    (s.goto t ph).made = s.made := rfl

@[simp] theorem goto_pools (s : SchedulersState) (t : Nat) (ph : SchedulerPhase) :
    (s.goto t ph).pools = s.pools := rfl

@[simp] theorem goto_threads (s : SchedulersState) (t : Nat) (ph : SchedulerPhase) :
    (s.goto t ph).threads = Function.update s.threads t ph := rfl

theorem ensurePool_cases (s : SchedulersState) (i : Nat) (host : String) (port : Int) :
    s.ensurePool i host port = s ∨
      s.ensurePool i host port = s.setPool i (poolKey host port) (.new host port) := by
  rw [ensurePool]
  split
  · exact Or.inl rfl
  · exact Or.inr rfl

theorem setPool_eq_some {s : SchedulersState} {i j : Nat} {key key' : String}
    {p q : TargetPoolObject} (h : (s.setPool i key p).pools j key' = some q) :
    (j = i ∧ key' = key ∧ q = p) ∨ s.pools j key' = some q := by
  by_cases hji : j = i
  · subst hji
    have h' : Function.update (s.pools j) key (some p) key' = some q := by
      simpa [setPool] using h
    by_cases hkey : key' = key
    · subst hkey
      rw [Function.update_self] at h'
      exact Or.inl ⟨rfl, rfl, (Option.some.inj h').symm⟩
    · rw [Function.update_of_ne hkey] at h'
      exact Or.inr h'
  · exact Or.inr (by simpa [setPool, hji] using h)

/-! ### What each step does -/

variable {rt} {s s' : SchedulersState} {t : Nat}

theorem step_check (h : s.step rt (.check t) = some s') :
    s' = s.goto t (if s.scheduler = none then .making else .returning) := by
  cases hph : s.threads t <;> simp [step, hph] at h
  exact h.symm

theorem step_assign (h : s.step rt (.assign t) = some s') :
    s' = { s with scheduler := some s.made, made := s.made + 1 }.goto t .returning := by
  cases hph : s.threads t <;> simp [step, hph] at h
  exact h.symm

theorem step_ret (h : s.step rt (.ret t) = some s') :
    ∃ i, s.scheduler = some i ∧ s' = s.goto t (.holding i) := by
  cases hph : s.threads t <;> cases hs : s.scheduler <;> simp [step, hph, hs] at h
  exact ⟨_, rfl, h.symm⟩

theorem step_handOver {u : Nat} (h : s.step rt (.handOver t u) = some s') :
    ∃ i, s.threads t = .holding i ∧ s' = s.goto u (.holding i) := by
  cases hph : s.threads t <;> cases hu : s.threads u <;> simp [step, hph, hu] at h
  exact ⟨_, rfl, h.symm⟩

theorem step_getPool {host : String} {port : Int} (h : s.step rt (.getPool t host port) = some s') :
    ∃ i, s.threads t = .holding i ∧
      s' = (s.ensurePool i host port).goto t (.borrowing i (poolKey host port)) := by
  cases hph : s.threads t <;> simp [step, hph] at h
  exact ⟨_, rfl, h.symm⟩

theorem step_inPool {i : Nat} {key : String} {l : DrainStep (Except PyErr Endpoint) ToolUse}
    (h : s.step rt (.inPool i key l) = some s') :
    ∃ p state, s.pools i key = some p ∧
      p.state.step (toolClients rt p.host p.port) l = some state ∧
      s' = s.setPool i key { p with state := state } := by
  cases hp : s.pools i key with
  | none => simp [step, hp] at h
  | some p =>
      simp only [step, hp, Option.ite_none_right_eq_some, Option.map_eq_some_iff] at h
      obtain ⟨-, state, hstate, rfl⟩ := h
      exact ⟨p, state, rfl, hstate, rfl⟩

theorem step_leave (h : s.step rt (.leave t) = some s') :
    ∃ i key, s.threads t = .borrowing i key ∧ s' = s.goto t (.holding i) := by
  cases hph : s.threads t <;> simp [step, hph] at h
  exact ⟨_, _, rfl, h.2.symm⟩

theorem step_done (h : s.step rt (.done t) = some s') : s' = s.goto t .out := by
  cases hph : s.threads t <;> simp [step, hph] at h
  exact h.symm

theorem ensurePool_made (s : SchedulersState) (i : Nat) (host : String) (port : Int) :
    (s.ensurePool i host port).made = s.made := by
  rcases s.ensurePool_cases i host port with hsame | hnew
  · rw [hsame]
  · rw [hnew]
    rfl

/-- A step makes one scheduler at most. -/
theorem step_made {l : SchedulersStep} (h : s.step rt l = some s') :
    s'.made = s.made ∨ s'.made = s.made + 1 := by
  cases l with
  | check => obtain rfl := step_check h; exact Or.inl rfl
  | assign => obtain rfl := step_assign h; exact Or.inr rfl
  | ret => obtain ⟨_, -, rfl⟩ := step_ret h; exact Or.inl rfl
  | handOver => obtain ⟨_, -, rfl⟩ := step_handOver h; exact Or.inl rfl
  | getPool t host port =>
      obtain ⟨i, -, rfl⟩ := step_getPool h
      exact Or.inl (ensurePool_made s i host port)
  | inPool => obtain ⟨_, _, -, -, rfl⟩ := step_inPool h; exact Or.inl rfl
  | leave => obtain ⟨_, _, -, rfl⟩ := step_leave h; exact Or.inl rfl
  | done => obtain rfl := step_done h; exact Or.inl rfl

end SchedulersState

/-- A new process under any number of threads. -/
def schedulersLts (rt : Runtime) : Lts SchedulersState SchedulersStep where
  init s := s = {}
  step s l := s.step rt l

end McpSocketServer
