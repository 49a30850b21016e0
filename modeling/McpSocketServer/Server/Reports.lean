import McpSocketServer.Server.CaptureStop
import McpSocketServer.Server.Tools

/-!
# The answers of the batch tools (`server.py`)

How each tool turns the outcomes of its client function on the targets into its answer. The
read tools build the entries of `results` themselves; `pcap_flow_extract` slices the data of
each result and `upgrade_run` keeps those results only that its polling has confirmed.
-/

namespace McpSocketServer

/-- `{"target": r.target, field: r.data}`. -/
def dataEntry (field : String) (r : TargetResult) : Entry :=
  [("target", .json (.str r.target)), (field, r.data)]

/-- `flows[:1000]` and `len(flows)` of `flows = data or []`. From Python 3.12 on the slice of a
dictionary raises a `KeyError`. -/
def sliceFlows (data : PyVal) : Except PyErr (PyVal × Nat) :=
  if data.truthy = false then .ok (.json (.arr []), 0)
  else
    match data with
    | .json (.arr items) => .ok (.json (.arr (items.take 1000)), items.length)
    | .json (.str s) => .ok (.json (.str (String.ofList (s.toList.take 1000))), s.toList.length)
    | .bytes b => .ok (.bytes (b.take 1000), b.length)
    | .json (.obj _) => .error ⟨.typeError, "unhashable type: 'slice'"⟩
    | .json j => .error ⟨.typeError, "'" ++ j.typeName ++ "' object is not subscriptable"⟩

/-- An entry of `pcap_flow_extract`. -/
def flowsEntry (r : TargetResult) : Except PyErr Entry := do
  let (flows, total) ← sliceFlows r.data
  pure [("target", .json (.str r.target)), ("flows", flows), ("total", .json (.int total)),
    ("truncated", .json (.bool (decide (1000 < total))))]

/-- The answer of `pcap_flow_extract`. -/
def flowsReport (results : List TargetResult) : Except PyErr Report := do
  let out ← (results.filter TargetResult.ok).mapM flowsEntry
  pure
    { ok := (results.filter TargetResult.ok).length
      failed := failedOf results
      results := out }

/-- `r.get(k)` of an entry. -/
def entryGet (r : Entry) (k : String) : PyVal := (r.lookup k).getD (.json .null)

/-- `r["target"]` of an entry whose data has no field `target`. -/
def entryTarget (r : Entry) : String :=
  match r.lookup "target" with
  | some (.json (.str target)) => target
  | _ => ""

/-- The reason for an accepted upgrade that was not confirmed. -/
def unconfirmed : String :=
  "推送已受理但 180 秒内未确认到新版本（端口未释放/重启异常），请查靶机日志 /var/log/socket_server.log"

/-- The answer of `upgrade_run` on resolved targets. `confirmed` is the set that the polling of
the version has filled. -/
def upgradeReport (ver : String) (confirmed : String → Bool) (results : List TargetResult) :
    Report :=
  let batch := runBatchReport results
  let pushed := batch.results.filter fun r => (entryGet r "pushed").truthy
  let done := pushed.filter fun r => confirmed (entryTarget r)
  { ok := done.length
    failed := batch.failed ++ (pushed.filter fun r => !confirmed (entryTarget r)).map fun r =>
      (entryTarget r, .str unconfirmed)
    results := done.map fun r =>
      [("target", .json (.str (entryTarget r))), ("upgraded", .json (.bool true)),
        ("version", .json (.str ver)), ("from_version", entryGet r "from_version")] }

/-- What a tool makes of the outcome of its client function on one target. -/
def ToolCall.settle : ToolCall → String → Except PyErr PyVal → TargetResult
  | .version | .isfile _ | .isdir _ | .pcapFlowExtract _ => collect
  | .captureStop _ => settleStop
  | _ => McpSocketServer.settle

/-- What a tool makes of the results of all targets. -/
def ToolCall.report (confirmed : String → Bool) :
    ToolCall → List TargetResult → Except PyErr Report
  | .version, results => .ok (reportWith (dataEntry "version") results)
  | .isfile _, results | .isdir _, results => .ok (reportWith (dataEntry "exists") results)
  | .pcapFlowExtract _, results => flowsReport results
  | .captureStop _, results => .ok (stopReport results).toReport
  | .upgradeRun ver _ _ _, results => .ok (upgradeReport ver confirmed results)
  | _, results => .ok (runBatchReport results)

/-- The tool that polls its targets. -/
def ToolCall.isUpgrade : ToolCall → Bool
  | .upgradeRun .. => true
  | _ => false

/-- A result counts as failed: whatever the other results are, it adds an entry of its target
to `failed`, and nothing to `results` and to the `ok` count. -/
def CountedFailed (report : List TargetResult → Except PyErr Report) (r : TargetResult) : Prop :=
  ∀ pre post rep, report (pre ++ post) = .ok rep →
    ∃ rep' reason before after, report (pre ++ r :: post) = .ok rep' ∧ rep'.ok = rep.ok ∧
      rep'.results = rep.results ∧ rep.failed = before ++ after ∧
      rep'.failed = before ++ (r.target, reason) :: after

end McpSocketServer
