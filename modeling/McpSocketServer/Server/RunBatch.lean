import McpSocketServer.Locks
import McpSocketServer.Registry
import McpSocketServer.Pool

/-!
# Running a function on a batch of targets (`server._run_batch`, `pool.Scheduler`)

What becomes of the outcome of a client function on one target, and how the results of all
targets are put together into the answer of a tool.
-/

namespace McpSocketServer

open SocketServerClient

/-- `pool.TargetResult`. The error is a text or a value that a target sent; `None` is
`Json.null`. -/
structure TargetResult where
  target : String
  ok : Bool
  data : PyVal := .json .null
  error : Json := .null

/-- A `TargetResult` with `ok=False`. -/
def TargetResult.failure (target reason : String) : TargetResult :=
  { target := target, ok := false, error := .str reason }

/-- What `_run_batch.run_one` makes of the outcome of `fn(client)`. -/
def settle (target : String) : Except PyErr PyVal → TargetResult
  | .error e => .failure target e.message
  | .ok (.json (.obj fields)) =>
    match fields.lookup "_error" with
    | some reason => .failure target reason.toStr
    | none => { target := target, ok := true, data := .json (.obj fields) }
  | .ok (.json .null) =>
    { target := target, ok := true, data := .json (.obj [("note",
      .str "wait=false 为异步执行不返回回显;需要 stdout 请 wait=true")]) }
  | .ok (.json (.bool false)) => .failure target "agent 返回 False（业务失败）"
  | .ok data => { target := target, ok := true, data := data }

/-- The entry for a `pcap` that a stopped capture may have left incomplete. -/
def incompletePcap (target : String) (fields : List (String × Json)) : TargetResult :=
  { target := target
    ok := false
    data := .json (.obj (setField fields "warning" (.str "pcap 可能不完整/未排序")))
    error := .str ("pcap 可能不完整/未排序(exitcode=" ++ (fieldD fields "exitcode" .null).toStr ++
      ")") }

/-- `j is False`. -/
def Json.isFalse : Json → Bool
  | .bool false => true
  | _ => false

/-- What `capture_stop.run_one` makes of the outcome of `client.capture_stop(path)`. -/
def settleStop (target : String) : Except PyErr PyVal → TargetResult
  | .ok (.json (.obj fields)) =>
    if (fieldD fields "stopped" .null).truthy ∧ (fieldD fields "pcap_complete" .null).isFalse then
      incompletePcap target fields
    else if (fieldD fields "stopped" .null).isFalse ∧ (fieldD fields "error" .null).truthy then
      { target := target, ok := false, data := .json (.obj fields),
        error := fieldD fields "error" .null }
    else { target := target, ok := true, data := .json (.obj fields) }
  | .ok (.json j) => .failure target ("'" ++ j.typeName ++ "' object has no attribute 'get'")
  | .ok (.bytes _) => .failure target "'bytes' object has no attribute 'get'"
  | .error e => .failure target e.message

/-- The flag with which `_run_batch.run_one`, `capture_stop.run_one` and `Scheduler._run_one`
release the client. -/
def healthyAfter {α : Type} : Except PyErr α → Bool
  | .ok _ => true
  | .error _ => false

/-- What `Scheduler.batch` makes of the outcome of `fn(client)`. -/
def collect (target : String) : Except PyErr PyVal → TargetResult
  | .ok data => { target := target, ok := true, data := data }
  | .error e => .failure target e.message

/-- An entry of the `results` list of a tool. -/
abbrev Entry := List (String × PyVal)

/-- The answer of a batch tool. -/
structure Report where
  ok : Nat
  failed : List (String × Json)
  results : List Entry

/-- `_failed`. -/
def failedOf (results : List TargetResult) : List (String × Json) :=
  (results.filter fun r => !r.ok).map fun r => (r.target, r.error)

/-- `{"target": r.target, **data}`: a field of the data replaces the target. -/
def withTarget (target : String) (fields : List (String × Json)) : Entry :=
  match fields.lookup "target" with
  | some t => ("target", .json t) :: rest
  | none => ("target", .json (.str target)) :: rest
where
  rest : Entry := (fields.filter fun f => f.1 ≠ "target").map fun f => (f.1, .json f.2)

/-- `_wrap`. -/
def wrap (r : TargetResult) : Entry :=
  match r.data with
  | .json (.obj fields) => withTarget r.target fields
  | data => [("target", .json (.str r.target)), ("result", data)]

/-- The answer of a tool whose `results` entries are made by `entry`. -/
def reportWith (entry : TargetResult → Entry) (results : List TargetResult) : Report :=
  { ok := (results.filter TargetResult.ok).length
    failed := failedOf results
    results := (results.filter TargetResult.ok).map entry }

/-- The answer of `_run_batch`. -/
def runBatchReport (results : List TargetResult) : Report := reportWith wrap results

end McpSocketServer
