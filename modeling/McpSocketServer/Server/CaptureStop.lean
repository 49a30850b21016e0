import McpSocketServer.Server.RunBatch

/-!
# The tool `capture_stop` (`server.py`)

`capture_stop` takes no lock: its `run_one` borrows a client, asks the target to stop, and
releases the capture lock of the path in its `finally` block. The borrow stands before the
`try`, so an exception there leaves `run_one` at once and is turned into a failed result by
the loop over the futures.
-/

namespace McpSocketServer

open SocketServerClient

/-- `capture_stop.run_one` on one target: its result or exception, and the locks. -/
def captureStopOne (rt : Runtime) (path : String) (port timeout : Int) (lm : LockManager)
    (host : String) (b : Borrowing) : Except PyErr TargetResult × LockManager :=
  match b.acquire host port timeout with
  | .error e => (.error e, lm)
  | .ok client =>
    let outcome := ((captureStop rt path).exec client).1
    (.ok (settleStop host (outcome.map .json)), lm.release host .capture (some [path]))

/-- How the workers of one call end: in this order, with these borrows. -/
structure Completion (resolved : List String) where
  runs : List (String × Borrowing)
  perm : (runs.map Prod.fst).Perm resolved

/-- The loop over the completed futures of `capture_stop`. -/
def captureStopLoop (rt : Runtime) (path : String) (port timeout : Int) :
    List (String × Borrowing) → LockManager → List TargetResult × LockManager
  | [], lm => ([], lm)
  | (host, b) :: runs, lm =>
    let (outcome, lm) := captureStopOne rt path port timeout lm host b
    let result := match outcome with
      | .ok result => result
      | .error e => .failure host e.message
    let (results, lm) := captureStopLoop rt path port timeout runs lm
    (result :: results, lm)

/-- The answer of `capture_stop`: a batch answer and the `failed_details`. -/
structure StopReport extends Report where
  failedDetails : List Entry

/-- `{"target": r.target, **r.data}` of a failed result with structured data. -/
def failedDetail (r : TargetResult) : Option Entry :=
  match r.ok, r.data with
  | false, .json (.obj fields) => some (withTarget r.target fields)
  | _, _ => none

/-- The answer of `capture_stop` from the results of all targets. -/
def stopReport (results : List TargetResult) : StopReport :=
  { reportWith wrap results with failedDetails := results.filterMap failedDetail }

/-- `capture_stop`. -/
def captureStopTool (rt : Runtime) (registry : Option Registry) (lm : LockManager)
    (targets : List String) (path : String) (port timeout : Int)
    (c : Completion (resolveTargets registry targets)) : StopReport × LockManager :=
  let (results, lm) := captureStopLoop rt path port timeout c.runs lm
  (stopReport results, lm)

end McpSocketServer
