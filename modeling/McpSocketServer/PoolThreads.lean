import McpSocketServer.Pool
import McpSocketServer.Misc.Monitor
import McpSocketServer.Misc.Census

/-!
# Threads that borrow from one pool

The transition system of a `TargetPool` under any number of threads. A thread moves in the
steps that other threads can observe: a critical section of the condition variable is one
step, and everything outside it (closing expired connections, connecting, using the
client, closing an unhealthy one) is a step of its own. Client objects live in a heap, and
the pool and the threads hold references to them.

The kind of client and the work done with it are parameters. Every clock reading is a part
of the label, so that time passes arbitrarily.
-/

namespace McpSocketServer

/-- The client operations that the pool calls, and the work of a borrower: `perform` leaves
the client in a new state and decides the healthy flag of its release. -/
structure ClientKind (κ ω ν : Type) where
  new : Int → κ
  connect : κ → ω → Except PyErr Unit × κ
  setTimeout : κ → Int → κ
  close : κ → κ
  perform : κ → ν → Bool × κ

/-- Where a thread is. -/
inductive Phase where
  | out
  | waiting (deadline socketTimeout : Int)
  | evicting (expired : List Nat) (reuse : Option Nat) (socketTimeout : Int)
  | connecting (client : Nat)
  | connectFailed
  | borrowed (client : Nat)
  | used (client : Nat) (healthy : Bool)
  | closing (client : Nat)
  deriving DecidableEq, Repr

namespace Phase

/-- The client that a thread has borrowed or is connecting. -/
def held : Phase → Option Nat
  | .evicting _ reuse _ => reuse
  | .connecting c | .borrowed c | .used c _ => some c
  | _ => none

/-- The clients that a thread has taken out of the pool to close them. -/
def dropping : Phase → List Nat
  | .evicting expired _ _ => expired
  | .closing c => [c]
  | _ => []

/-- A client is borrowed or being connected. -/
def active : Phase → Bool
  | .evicting .. | .connecting _ | .connectFailed | .borrowed _ | .used .. => true
  | _ => false

end Phase

/-- The pool, the client objects behind the references, the next unused reference, and where every
thread is. -/
structure PoolState (κ : Type) where
  pool : TargetPool Nat := {}
  clients : Nat → κ
  fresh : Nat := 0
  threads : Nat → Phase := fun _ => .out

/-- What a thread does next in `acquire`, with its client, and in `release`. The readings of the
clock, the outcome of the connect and the work stand in the label. -/
inductive PoolStep (ω ν : Type) where
  | call (now timeout socketTimeout : Int)
  | timeoutError (now : Int)
  | takeSlot (now : Int)
  | evict
  | reuse
  | create
  | connected (outcome : ω)
  | giveSlotBack
  | perform (work : ν)
  | release (now : Int)
  | close

namespace PoolState

variable {κ ω ν : Type} (K : ClientKind κ ω ν)

/-- Thread `t` goes on to phase `ph`. -/
def goto (s : PoolState κ) (t : Nat) (ph : Phase) : PoolState κ :=
  { s with threads := Function.update s.threads t ph }

/-- The client object behind a reference changes. -/
def setClient (s : PoolState κ) (c : Nat) (client : κ) : PoolState κ :=
  { s with clients := Function.update s.clients c client }

/-- One step of thread `t`. -/
def step (s : PoolState κ) (t : Nat) : PoolStep ω ν → Option (PoolState κ)
  | .call now timeout socketTimeout =>
    match s.threads t with
    | .out => some (s.goto t (.waiting (now + timeout) socketTimeout))
    | _ => none
  | .timeoutError now =>
    match s.threads t with
    | .waiting deadline _ =>
      if s.pool.full ∧ deadline - now ≤ 0 then some (s.goto t .out) else none
    | _ => none
  | .takeSlot now =>
    match s.threads t with
    | .waiting _ socketTimeout =>
      if s.pool.full then none
      else
        let (r, pool) := s.pool.takeSlot now
        some ({ s with pool := pool }.goto t (.evicting r.expired r.reuse socketTimeout))
    | _ => none
  | .evict =>
    match s.threads t with
    | .evicting (c :: expired) reuse socketTimeout =>
      some ((s.setClient c (K.close (s.clients c))).goto t (.evicting expired reuse socketTimeout))
    | _ => none
  | .reuse =>
    match s.threads t with
    | .evicting [] (some c) socketTimeout =>
      some ((s.setClient c (K.setTimeout (s.clients c) socketTimeout)).goto t (.borrowed c))
    | _ => none
  | .create =>
    match s.threads t with
    | .evicting [] none socketTimeout =>
      some ({ s.setClient s.fresh (K.new socketTimeout) with fresh := s.fresh + 1 }.goto t
        (.connecting s.fresh))
    | _ => none
  | .connected outcome =>
    match s.threads t with
    | .connecting c =>
      match K.connect (s.clients c) outcome with
      | (.ok (), client) => some ((s.setClient c client).goto t (.borrowed c))
      | (.error _, client) => some ((s.setClient c client).goto t .connectFailed)
    | _ => none
  | .giveSlotBack =>
    match s.threads t with
    | .connectFailed => some ({ s with pool := s.pool.giveSlotBack }.goto t .out)
    | _ => none
  | .perform work =>
    match s.threads t with
    | .borrowed c =>
      let (healthy, client) := K.perform (s.clients c) work
      some ((s.setClient c client).goto t (.used c healthy))
    | _ => none
  | .release now =>
    match s.threads t with
    | .used c healthy =>
      some ({ s with pool := s.pool.release c healthy now }.goto t
        (if healthy then .out else .closing c))
    | _ => none
  | .close =>
    match s.threads t with
    | .closing c => some ((s.setClient c (K.close (s.clients c))).goto t .out)
    | _ => none

@[simp] theorem goto_pool (s : PoolState κ) (t : Nat) (ph : Phase) :
    (s.goto t ph).pool = s.pool := rfl

@[simp] theorem goto_clients (s : PoolState κ) (t : Nat) (ph : Phase) :
    (s.goto t ph).clients = s.clients := rfl

@[simp] theorem goto_fresh (s : PoolState κ) (t : Nat) (ph : Phase) :
    (s.goto t ph).fresh = s.fresh := rfl

@[simp] theorem goto_threads (s : PoolState κ) (t : Nat) (ph : Phase) :
    (s.goto t ph).threads = Function.update s.threads t ph := rfl

@[simp] theorem setClient_pool (s : PoolState κ) (c : Nat) (client : κ) :
    (s.setClient c client).pool = s.pool := rfl

@[simp] theorem setClient_fresh (s : PoolState κ) (c : Nat) (client : κ) :
    (s.setClient c client).fresh = s.fresh := rfl

@[simp] theorem setClient_threads (s : PoolState κ) (c : Nat) (client : κ) :
    (s.setClient c client).threads = s.threads := rfl

@[simp] theorem setClient_clients (s : PoolState κ) (c : Nat) (client : κ) :
    (s.setClient c client).clients = Function.update s.clients c client := rfl

/-! ### What each step does -/

variable {K} {s s' : PoolState κ} {t : Nat}

theorem step_call {now timeout socketTimeout : Int}
    (h : s.step K t (.call now timeout socketTimeout) = some s') :
    s.threads t = .out ∧ s' = s.goto t (.waiting (now + timeout) socketTimeout) := by
  cases hph : s.threads t <;> simp [step, hph] at h
  exact ⟨rfl, h.symm⟩

theorem step_timeoutError {now : Int} (h : s.step K t (.timeoutError now) = some s') :
    ∃ deadline socketTimeout, s.threads t = .waiting deadline socketTimeout ∧ s.pool.full ∧
      s' = s.goto t .out := by
  cases hph : s.threads t <;> simp [step, hph] at h
  exact ⟨_, _, rfl, h.1.1, h.2.symm⟩

theorem step_takeSlot {now : Int} (h : s.step K t (.takeSlot now) = some s') :
    ∃ deadline socketTimeout, s.threads t = .waiting deadline socketTimeout ∧ ¬ s.pool.full ∧
      s' = { s with pool := (s.pool.takeSlot now).2 }.goto t
        (.evicting (s.pool.takeSlot now).1.expired (s.pool.takeSlot now).1.reuse
          socketTimeout) := by
  cases hph : s.threads t <;> simp [step, hph] at h
  exact ⟨_, _, rfl, h.1, h.2.symm⟩

theorem step_evict (h : s.step K t .evict = some s') :
    ∃ c expired reuse socketTimeout, s.threads t = .evicting (c :: expired) reuse socketTimeout ∧
      s' = (s.setClient c (K.close (s.clients c))).goto t
        (.evicting expired reuse socketTimeout) := by
  rcases hph : s.threads t with _ | _ | ⟨_ | ⟨c, expired⟩, reuse, socketTimeout⟩ | _ | _ | _ | _ | _
    <;> simp [step, hph] at h
  exact ⟨c, expired, reuse, socketTimeout, rfl, h.symm⟩

theorem step_reuse (h : s.step K t .reuse = some s') :
    ∃ c socketTimeout, s.threads t = .evicting [] (some c) socketTimeout ∧
      s' = (s.setClient c (K.setTimeout (s.clients c) socketTimeout)).goto t (.borrowed c) := by
  rcases hph : s.threads t with _ | _ | ⟨_ | _, _ | c, socketTimeout⟩ | _ | _ | _ | _ | _
    <;> simp [step, hph] at h
  exact ⟨c, socketTimeout, rfl, h.symm⟩

theorem step_create (h : s.step K t .create = some s') :
    ∃ socketTimeout, s.threads t = .evicting [] none socketTimeout ∧
      s' = { s.setClient s.fresh (K.new socketTimeout) with fresh := s.fresh + 1 }.goto t
        (.connecting s.fresh) := by
  rcases hph : s.threads t with _ | _ | ⟨_ | _, _ | c, socketTimeout⟩ | _ | _ | _ | _ | _
    <;> simp [step, hph] at h
  exact ⟨socketTimeout, rfl, h.symm⟩

theorem step_connected {outcome : ω} (h : s.step K t (.connected outcome) = some s') :
    ∃ c r client, s.threads t = .connecting c ∧ K.connect (s.clients c) outcome = (r, client) ∧
      s' = (s.setClient c client).goto t
        (match r with | .ok () => .borrowed c | .error _ => .connectFailed) := by
  cases hph : s.threads t <;> simp [step, hph] at h
  rename_i c
  rcases hr : K.connect (s.clients c) outcome with ⟨e | u, client⟩ <;> rw [hr] at h <;>
  · simp only [Option.some.injEq] at h
    exact ⟨c, _, client, rfl, hr, h.symm⟩

theorem step_giveSlotBack (h : s.step K t .giveSlotBack = some s') :
    s.threads t = .connectFailed ∧
      s' = { s with pool := s.pool.giveSlotBack }.goto t .out := by
  cases hph : s.threads t <;> simp [step, hph] at h
  exact ⟨rfl, h.symm⟩

theorem step_perform {work : ν} (h : s.step K t (.perform work) = some s') :
    ∃ c, s.threads t = .borrowed c ∧
      s' = (s.setClient c (K.perform (s.clients c) work).2).goto t
        (.used c (K.perform (s.clients c) work).1) := by
  cases hph : s.threads t <;> simp [step, hph] at h
  exact ⟨_, rfl, h.symm⟩

theorem step_release {now : Int} (h : s.step K t (.release now) = some s') :
    ∃ c healthy, s.threads t = .used c healthy ∧
      s' = { s with pool := s.pool.release c healthy now }.goto t
        (if healthy then .out else .closing c) := by
  cases hph : s.threads t <;> simp [step, hph] at h
  exact ⟨_, _, rfl, h.symm⟩

theorem step_close (h : s.step K t .close = some s') :
    ∃ c, s.threads t = .closing c ∧
      s' = (s.setClient c (K.close (s.clients c))).goto t .out := by
  cases hph : s.threads t <;> simp [step, hph] at h
  exact ⟨_, rfl, h.symm⟩

/-- The thread that moves is the only one whose phase changes. -/
theorem step_threads {l : PoolStep ω ν} (h : s.step K t l = some s') {u : Nat} (hu : u ≠ t) :
    s'.threads u = s.threads u := by
  cases l with
  | call => obtain ⟨-, rfl⟩ := step_call h; simp [hu]
  | timeoutError => obtain ⟨_, _, -, -, rfl⟩ := step_timeoutError h; simp [hu]
  | takeSlot => obtain ⟨_, _, -, -, rfl⟩ := step_takeSlot h; simp [hu]
  | evict => obtain ⟨_, _, _, _, -, rfl⟩ := step_evict h; simp [hu]
  | reuse => obtain ⟨_, _, -, rfl⟩ := step_reuse h; simp [hu]
  | create => obtain ⟨_, -, rfl⟩ := step_create h; simp [hu]
  | connected => obtain ⟨_, _, _, -, -, rfl⟩ := step_connected h; simp [hu]
  | giveSlotBack => obtain ⟨-, rfl⟩ := step_giveSlotBack h; simp [hu]
  | perform => obtain ⟨_, -, rfl⟩ := step_perform h; simp [hu]
  | release => obtain ⟨_, _, -, rfl⟩ := step_release h; simp [hu]
  | close => obtain ⟨_, -, rfl⟩ := step_close h; simp [hu]

end PoolState

/-- The pool under any number of threads: a label names the thread and what it does. -/
def poolLts {κ ω ν : Type} (K : ClientKind κ ω ν) : Lts (PoolState κ) (Nat × PoolStep ω ν) where
  init s := s.pool = {} ∧ s.fresh = 0 ∧ ∀ t, s.threads t = .out
  step s l := s.step K l.1 l.2

/-! ### The condition variable -/

/-- `remaining > 0`: a thread in the loop of `acquire` would wait at the reading `now`. -/
def PoolState.patient {κ : Type} (s : PoolState κ) (t : Nat) (now : Int) : Bool :=
  match s.threads t with
  | .waiting deadline _ => decide (0 < deadline - now)
  | _ => false

/-- The critical sections that end with `notify_all`. -/
def PoolStep.notifies {ω ν : Type} : PoolStep ω ν → Bool
  | .giveSlotBack | .release _ => true
  | _ => false

/-- The pool with the waiting on `_cond` made explicit. `poolLts` leaves it out: there a thread
in the loop just does not move while the pool is full. -/
def poolMonitor {κ ω ν : Type} (K : ClientKind κ ω ν) :
    Monitor (PoolState κ) (Nat × PoolStep ω ν) Int where
  system := poolLts K
  actor := Prod.fst
  patient := PoolState.patient
  ready s := !decide s.pool.full
  notifies l := l.2.notifies

end McpSocketServer
