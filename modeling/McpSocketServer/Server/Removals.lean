import McpSocketServer.Server.TargetTools
import McpSocketServer.Server.Tools
import McpSocketServer.Server.Workers

/-!
# Removals beside the other calls (`server.remove_target`)

`remove_target` looks at the locks, then at the listener in the registry, and then deletes the
row. This is the transition system of any number of removals, of `add_target` calls and of any
workers of the write tools. The client functions of `socket_listen` with the actions `start`
and `stop` are taken apart: the target answers first, and the registry is written afterwards.
-/

namespace McpSocketServer

/-- The work of one worker: a start or a stop of the listener, or any other work. -/
inductive Work where
  | listenStart (host : String) (port : Int)
  | listenStop (host : String) (port : Int)
  | other (j : Job)
  deriving DecidableEq, Repr

/-- `socket_listen` runs under the class `SYSTEM` without a key. -/
def Work.job : Work → Job
  | .listenStart host port | .listenStop host port => .runBatch host port .system []
  | .other j => j

/-- Where the client function of a start or a stop is: before the answer of the target, between
the answer and the writing of the registry, or at its end. -/
inductive ListenPhase where
  | asking
  | answered (result : PyVal)
  | ended (outcome : Except PyErr PyVal)

/-- Where a call of `remove_target` is. -/
inductive RemovalStage where
  | notCalled
  | lockChecked
  | livenessChecked
  | over
  deriving DecidableEq, Repr

/-- The removal has looked at the locks and has not ended. -/
def RemovalStage.pending : RemovalStage → Bool
  | .lockChecked | .livenessChecked => true
  | _ => false

/-- The workers with their locks, the registry, and where every start, stop and removal is. -/
structure RemovalState where
  workers : WorkersState
  registry : Registry
  phase : Nat → ListenPhase := fun _ => .asking
  removal : Nat → RemovalStage := fun _ => .notCalled
  /-- The listeners that a successful start has opened and no successful stop has closed since.
  No step reads them. -/
  listening : String × Int → Bool := fun _ => false

/-- A step of a worker, of the client function of a start or a stop, of `add_target` or of a removal. -/
inductive RemovalStep where
  | worker (w : Nat) (l : WorkerStep)
  | answered (w : Nat) (result : PyVal)
  | registered (w : Nat) (version : Except PyErr Json)
  | unregistered (w : Nat)
  | addTarget (host : String) (port : Int) (tags : Option (List String)) (note : String)
      (force : Bool) (probe : Except PyErr Unit) (createdAt : String)
  | checkLock (r : Nat)
  | checkLiveness (r : Nat)
  | delete (r : Nat)

/-- The registration of a started listener sets its flag for this version; what
`client.version()` raises is passed over. -/
def registers : Except PyErr Json → Bool
  | .ok (.str v) =>
    match intParts (splitOn '.' v) with
    | some parts => !tupleLt (parts.take 3) [1, 7, 1]
    | none => false
  | _ => false

namespace RemovalState

/-- A step of a worker. A start or a stop ends its client function with what has become of it:
with an exception before the answer, and not between the answer and the registry. -/
def workerStep (works : Nat → Work) (s : RemovalState) (w : Nat) (l : WorkerStep) :
    Option WorkersState :=
  let step := s.workers.step (fun w => (works w).job) w
  match works w, l with
  | .other _, l => step l
  | _, .fnEnded outcome =>
    match s.phase w, outcome with
    | .asking, .error e => step (.fnEnded (.error e))
    | .ended outcome, _ => step (.fnEnded outcome)
    | _, _ => none
  | _, l => step l

/-- The client function of worker `w` goes on. -/
def setPhase (s : RemovalState) (w : Nat) (p : ListenPhase) : RemovalState :=
  { s with phase := Function.update s.phase w p }

/-- Removal `r` goes on. -/
def setRemoval (s : RemovalState) (r : Nat) (st : RemovalStage) : RemovalState :=
  { s with removal := Function.update s.removal r st }

/-- A listener is opened or closed. -/
def setListening (s : RemovalState) (target : String × Int) (alive : Bool) : RemovalState :=
  { s with listening := Function.update s.listening target alive }

@[simp] theorem setListening_listening (s : RemovalState) (target : String × Int)
    (alive : Bool) :
    (s.setListening target alive).listening = Function.update s.listening target alive := rfl

@[simp] theorem setPhase_phase (s : RemovalState) (w : Nat) (p : ListenPhase) :
    (s.setPhase w p).phase = Function.update s.phase w p := rfl

@[simp] theorem setRemoval_removal (s : RemovalState) (r : Nat) (st : RemovalStage) :
    (s.setRemoval r st).removal = Function.update s.removal r st := rfl

/-- The system with the given works and targets to remove. -/
def step (works : Nat → Work) (removals : Nat → String × Int) (s : RemovalState) :
    RemovalStep → Option RemovalState
  | .worker w l => (s.workerStep works w l).map fun workers => { s with workers := workers }
  | .answered w result =>
    match s.workers.stage w, s.phase w, works w with
    | .running, .asking, .listenStart host port =>
      let s := s.setPhase w (.answered result)
      some (if (settle host (.ok result)).ok then s.setListening (host, port) true else s)
    | .running, .asking, .listenStop _ _ => some (s.setPhase w (.answered result))
    | _, _, _ => none
  | .registered w version =>
    match s.workers.stage w, s.phase w, works w with
    | .running, .answered result, .listenStart host port =>
      let registry :=
        if registers version then (s.registry.setListenLiveness host true port).2 else s.registry
      some ({ s with registry := registry }.setPhase w (.ended (.ok result)))
    | _, _, _ => none
  | .unregistered w =>
    match s.workers.stage w, s.phase w, works w with
    | .running, .answered result, .listenStop host port =>
      match s.registry.setListenLiveness host false port with
      | (.ok (), registry) =>
        some (({ s with registry := registry }.setPhase w (.ended (.ok result))).setListening
          (host, port) false)
      | (.error e, registry) =>
        some ({ s with registry := registry }.setPhase w (.ended (.error e)))
    | _, _, _ => none
  | .addTarget host port tags note force probe createdAt =>
    (addTargetTool (some s.registry) host port tags note force probe createdAt).2.map
      fun registry => { s with registry := registry }
  | .checkLock r =>
    match s.removal r with
    | .notCalled =>
      if s.workers.locks.hasActive (removals r).1 then some (s.setRemoval r .over)
      else some (s.setRemoval r .lockChecked)
    | _ => none
  | .checkLiveness r =>
    match s.removal r with
    | .lockChecked =>
      match s.registry.getListenLiveness (removals r).1 (removals r).2 with
      | .ok false => some (s.setRemoval r .livenessChecked)
      | _ => some (s.setRemoval r .over)
    | _ => none
  | .delete r =>
    match s.removal r with
    | .livenessChecked =>
      some ({ s with
        registry := (s.registry.removeTarget (removals r).1 (removals r).2).2 }.setRemoval r .over)
    | _ => none

end RemovalState

/-- Any calls, over a registry that may have rows from earlier runs of the server. -/
def removalLts (works : Nat → Work) (removals : Nat → String × Int) :
    Lts RemovalState RemovalStep where
  init s := ∃ registry, s = { workers := { locks := LockManager.empty }, registry := registry }
  step s l := s.step works removals l

/-! ### The client functions that are taken apart -/

section

variable {rt : Runtime} {listenPort port : Int} {s : FnState} {reg : Registry}
  {c₁ c₂ : SocketServerClient}

open SocketServerClient

/-- Writing the liveness goes to the registry of the server. -/
theorem setLiveness_exec (alive : Bool) (hreg : s.registry = some reg) :
    (setLiveness alive port).exec s =
      ((reg.setListenLiveness s.client.host alive port).1,
        { s with registry := some (reg.setListenLiveness s.client.host alive port).2 }) := by
  simp [setLiveness, hreg]

/-- The registration of a start writes the registry exactly for the versions that register. -/
theorem registerLiveness_registry (hreg : s.registry = some reg) {v : Except PyErr Json}
    (hv : (version rt).exec s.client = (v, c₁)) :
    ((registerLiveness rt port).exec s).2.registry =
      some (if registers v then (reg.setListenLiveness c₁.host true port).2 else reg) := by
  rcases v with e | v
  · simp [registerLiveness, onClient, hv, hreg, registers]
  cases v with
  | str v =>
      cases hparts : intParts (splitOn '.' v) with
      | none => simp [registerLiveness, onClient, hv, hreg, registers, hparts]
      | some parts =>
          cases hold : tupleLt (parts.take 3) [1, 7, 1] with
          | true => simp [registerLiveness, onClient, hv, hreg, registers, hparts, hold]
          | false =>
              have hset := @setLiveness_exec port { s with client := c₁ } reg true hreg
              simp [registerLiveness, onClient, hv, registers, hparts, hold, hset]
  | _ => simp [registerLiveness, onClient, hv, hreg, registers]

/-- A start ends with the answer of the target, whatever becomes of its registration. -/
theorem listenStartFn_answered (hreg : s.registry = some reg) {result : Json}
    {v : Except PyErr Json} (hstart : (listenStart rt listenPort).exec s.client = (.ok result, c₁))
    (hv : (version rt).exec c₁ = (v, c₂)) :
    ((listenStartFn rt listenPort port).exec s).1 = .ok (.json result) ∧
      ((listenStartFn rt listenPort port).exec s).2.registry =
        some (if registers v then (reg.setListenLiveness c₂.host true port).2 else reg) := by
  have hregister := @registerLiveness_registry rt port { s with client := c₁ } reg c₂ hreg v hv
  simp only [listenStartFn, onClient, Prog.exec_bind, Prog.exec_zoom, hstart, Prog.follow_ok,
    Prog.exec_tryCatch]
  rcases hex : (registerLiveness rt port).exec { s with client := c₁ } with ⟨e | u, s'⟩ <;>
  · rw [hex] at hregister
    exact ⟨rfl, hregister⟩

end

end McpSocketServer
