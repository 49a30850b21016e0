import McpSocketServer.Server.RunBatch

/-!
# One call of `_run_batch` (`server.py`)

How the worker of each resolved target ends, and the answer that `_run_batch` puts together
from the results in the order in which the workers end.
-/

namespace McpSocketServer

/-- How the worker of one target ends: with a `LockConflict`, with an exception of
`pool.acquire`, with the outcome of the client function, or with an exception that leaves
`run_one` and is caught by the loop over the futures. -/
inductive WorkerEnd where
  | conflict (e : LockConflict)
  | notBorrowed (e : PyErr)
  | ran (outcome : Except PyErr PyVal)
  | escaped (e : PyErr)

/-- The result of `_run_batch.run_one`, or the one that the loop over the futures puts in its
place. -/
def WorkerEnd.result (target : String) : WorkerEnd → TargetResult
  | .conflict e => .failure target e.message
  | .notBorrowed e => .failure target ("pool: " ++ e.message)
  | .ran outcome => settle target outcome
  | .escaped e => .failure target e.message

/-- The ends of the workers for the resolved targets, in the order of the completed futures. -/
structure BatchRun (resolved : List String) where
  ends : List (String × WorkerEnd)
  perm : (ends.map Prod.fst).Perm resolved

/-- The results that `_run_batch` collects. -/
def BatchRun.results {resolved : List String} (run : BatchRun resolved) : List TargetResult :=
  run.ends.map fun e => e.2.result e.1

/-- `_run_batch`, without its audit. -/
def runBatch (registry : Option Registry) (targets : List String)
    (run : BatchRun (resolveTargets registry targets)) : Report :=
  runBatchReport run.results

@[simp] theorem settle_target (target : String) (outcome : Except PyErr PyVal) :
    (settle target outcome).target = target := by
  unfold settle
  split
  · rfl
  · split <;> rfl
  · rfl
  · rfl
  · rfl

@[simp] theorem WorkerEnd.result_target (target : String) (e : WorkerEnd) :
    (e.result target).target = target := by
  cases e with
  | ran outcome => exact settle_target target outcome
  | _ => rfl

end McpSocketServer
