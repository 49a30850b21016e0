import McpSocketServer.Server.BatchRun
import McpSocketServer.Server.Reports

/-!
# One run of a batch tool (`server.py`)

The workers of one call over the state that all calls share, from the lock to its release, and
the answer of the tool. What a target does is the borrow of a client for it: the connection,
with everything that the target answers on it.
-/

namespace McpSocketServer

/-- What the calls in one process share, apart from the pools. -/
structure Shared where
  locks : LockManager
  registry : Option Registry

namespace ToolCall

/-- The tools that run through `_run_batch`. -/
def runsBatch : ToolCall → Bool
  | .version | .isfile _ | .isdir _ | .pcapFlowExtract _ | .captureStop _ => false
  | _ => true

/-- The lock class that a tool passes to `_run_batch`. -/
def lockClass : ToolCall → LockClass
  | .version | .isfile _ | .isdir _ | .pcapFlowExtract _ | .captureStop _ => .none
  | .cmdExec .. => .shell
  | .captureStart .. => .capture
  | .boceRun .. => .browser
  | .replayRun .. => .replay
  | .listenStart _ | .listenStop | .listenClean | .listenSave _ | .listenFetch .. => .system
  | .upgradeRun .. => .system

/-- `lock_key_fn(host)`, `()` where a tool passes none. -/
def lockKey : ToolCall → CapKey
  | .captureStart _ path _ _ => [path]
  | _ => []

/-- The socket timeout that a tool called with `timeout` asks the pool for. -/
def socketTimeout (timeout : Int) : ToolCall → Int
  | .cmdExec _ _ _ wait => if wait then timeout else min timeout 15
  | .boceRun .. => timeout + 10
  | _ => timeout

/-- The targets that get a worker. `_run_batch` resolves again what the tool has resolved. -/
def resolved (registry : Option Registry) (targets : List String) (call : ToolCall) :
    List String :=
  if call.runsBatch then resolveTargets registry (resolveTargets registry targets)
  else resolveTargets registry targets

/-- The locks after the client function: `_run_batch.run_one` releases its own lock, unless it
is a capture lock and the result is ok, and `capture_stop.run_one` the capture lock of its
path. -/
def locksAfter (call : ToolCall) (host : String) (outcome : Except PyErr PyVal)
    (locks : LockManager) : LockManager :=
  match call with
  | .captureStop path => locks.release host .capture (some [path])
  | call =>
    if call.lockClass = .capture ∧ (McpSocketServer.settle host outcome).ok then locks
    else locks.release host call.lockClass (some call.lockKey)

/-- The worker of one target, from the lock to its release. -/
def runOne (rt : Runtime) (port timeout : Int) (call : ToolCall) (sh : Shared) (host : String)
    (b : Borrowing) : WorkerEnd × Shared :=
  match sh.locks.acquire host call.lockClass (some call.lockKey) with
  | (.error e, locks) => (.conflict e, { sh with locks := locks })
  | (.ok (), locks) =>
    match b.acquire host port (call.socketTimeout timeout) with
    | .error e =>
      (.notBorrowed e,
        { sh with locks := locks.release host call.lockClass (some call.lockKey) })
    | .ok client =>
      let r := (call.fn rt port).exec ⟨client, sh.registry⟩
      (.ran r.1, { locks := call.locksAfter host r.1 locks, registry := r.2.registry })

/-- The workers in the order in which they run. -/
def runAll (rt : Runtime) (port timeout : Int) (call : ToolCall) (does : String → Borrowing) :
    List String → Shared → List (String × WorkerEnd) × Shared
  | [], sh => ([], sh)
  | host :: hosts, sh =>
    let (e, sh) := call.runOne rt port timeout sh host (does host)
    let (ends, sh) := runAll rt port timeout call does hosts sh
    ((host, e) :: ends, sh)

/-- The result that a tool gets for a target. A read tool and `capture_stop` see an exception
of `pool.acquire` as it was raised. -/
def result (call : ToolCall) (host : String) : WorkerEnd → TargetResult
  | .conflict e => .failure host e.message
  | .notBorrowed e =>
    .failure host (if call.runsBatch then "pool: " ++ e.message else e.message)
  | .ran outcome => call.settle host outcome
  | .escaped e => .failure host e.message

/-- The answer of a tool with its `failed_details`, which only `capture_stop` has. -/
def answer (confirmed : String → Bool) (call : ToolCall) (results : List TargetResult) :
    Except PyErr StopReport :=
  match call with
  | .captureStop _ => .ok (stopReport results)
  | call => (call.report confirmed results).map fun rep => { rep with failedDetails := [] }

end ToolCall

/-- One run of a call: the order in which the workers run, and what each target does. -/
structure TargetsRun (resolved : List String) where
  order : List String
  perm : order.Perm resolved
  does : String → Borrowing

/-- The results of all targets in one run. -/
def TargetsRun.results {resolved : List String} (run : TargetsRun resolved) (rt : Runtime)
    (port timeout : Int) (call : ToolCall) (sh : Shared) : List TargetResult :=
  (call.runAll rt port timeout run.does run.order sh).1.map fun e => call.result e.1 e.2

/-- What a tool other than `upgrade_run` returns or raises in one run. -/
def TargetsRun.answer {resolved : List String} (run : TargetsRun resolved) (rt : Runtime)
    (port timeout : Int) (call : ToolCall) (sh : Shared) : Except PyErr StopReport :=
  call.answer (fun _ => false) (run.results rt port timeout call sh)

namespace ToolCall

theorem settleStop_target (host : String) (outcome : Except PyErr PyVal) :
    (settleStop host outcome).target = host := by
  unfold settleStop
  split
  · split_ifs <;> rfl
  · rfl
  · rfl
  · rfl

theorem collect_target (host : String) (outcome : Except PyErr PyVal) :
    (collect host outcome).target = host := by
  cases outcome <;> rfl

/-- A result carries the name of its target. -/
@[simp] theorem result_target (call : ToolCall) (host : String) (e : WorkerEnd) :
    (call.result host e).target = host := by
  cases e with
  | ran outcome =>
      cases call with
      | version | isfile _ | isdir _ | pcapFlowExtract _ => exact collect_target host outcome
      | captureStop _ => exact settleStop_target host outcome
      | _ => exact settle_target host outcome
  | _ => rfl

end ToolCall

end McpSocketServer
