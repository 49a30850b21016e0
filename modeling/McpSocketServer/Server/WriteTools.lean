import McpSocketServer.Server.Polling
import McpSocketServer.Server.ToolRun

/-!
# The write tools and their audit (`server.py`, `audit.py`)

The bodies of the seven tools that change a target, from their arguments to their answer and to
the row that they append to the audit log, with every early return. How the workers of a call
end is given as a `WriteRun`.
-/

namespace McpSocketServer

open SocketServerClient

/-! ### The audit log -/

/-- A row of `audit_log`. The columns `id` and `ts` are filled in by the database. -/
structure AuditRecord where
  sourceIp : String
  tool : String
  params : List (String × Json)
  okCount : Nat
  failedCount : Nat
  outcomes : List Json
  durationMs : Nat

/-- The texts that go into the statement of a row. -/
def AuditRecord.texts (r : AuditRecord) : List String :=
  r.sourceIp :: r.tool :: ((Json.obj r.params).texts ++ (Json.arr r.outcomes).texts)

/-- `AuditLogger`: the rows of its table, the texts that UTF-8 encodes, and what the database
raises on an `INSERT`. A text of Python may have lone surrogates, which no `Char` stands for:
which of the texts do is for `encodable` to say. -/
structure AuditLogger where
  rows : List AuditRecord
  encodable : String → Bool
  ascii : ∀ s : String, s.toList.all (·.toNat < 128) = true → encodable s = true
  insert : AuditRecord → Except PyErr Unit

/-- A value of `AuditLogger._truncate_params`. -/
def truncateParam (v : Json) : Json :=
  if 200 < v.toStr.toList.length then
    .str (String.ofList (v.toStr.toList.take 200) ++ "...")
  else v

/-- `AuditLogger._truncate_params`. -/
def truncateParams (params : List (String × Json)) : List (String × Json) :=
  params.map fun p => (p.1, truncateParam p.2)

/-- The row that `AuditLogger.write` stores. -/
def AuditRecord.stored (r : AuditRecord) : AuditRecord :=
  { r with params := truncateParams r.params }

/-- The `UnicodeEncodeError` of a text with a lone surrogate. -/
def surrogateError : PyErr := ⟨.valueError, "'utf-8' codec can't encode: surrogates not allowed"⟩

/-- `AuditLogger.write` of a row with these parameters. `json.dumps` with `ensure_ascii=False`
leaves the texts as they are, and the `INSERT` raises where it cannot encode one. -/
def AuditLogger.write (log : AuditLogger) (r : AuditRecord) : Except PyErr AuditLogger :=
  if r.stored.texts.all log.encodable then do
    log.insert r.stored
    pure { log with rows := log.rows ++ [r.stored] }
  else throw surrogateError

/-- `if _audit_logger is not None: try: … except Exception: pass`. -/
def audited (audit : Option AuditLogger) (r : AuditRecord) : Option AuditLogger :=
  audit.map fun log =>
    match log.write r with
    | .ok log => log
    | .error _ => log

/-- The outcome of a target in the audit of `_run_batch` and `capture_stop`. -/
def batchOutcome (r : TargetResult) : Json :=
  .obj [("target", .str r.target), ("ok", .bool r.ok), ("error", r.error)]

/-- The row that `_run_batch` and `capture_stop` write. -/
def batchRecord (tool : String) (params : List (String × Json)) (results : List TargetResult)
    (durationMs : Nat) : AuditRecord where
  sourceIp := "internal"
  tool := tool
  params := params
  okCount := (results.filter TargetResult.ok).length
  failedCount := (results.filter fun r => !r.ok).length
  outcomes := results.map batchOutcome
  durationMs := durationMs

/-- An outcome in the audit of `upgrade_run`. -/
def upgradeOutcome (ok : Bool) (target : String) : Json :=
  .obj [("target", .str target), ("ok", .bool ok)]

/-- The row that `upgrade_run` writes: failures of the target `*` are no outcomes. -/
def upgradeRecord (ver : String) (force : Bool) (rep : Report) (durationMs : Nat) :
    AuditRecord :=
  let outcomes := rep.results.map (fun r => upgradeOutcome true (entryTarget r)) ++
    (rep.failed.filter fun f => f.1 ≠ "*").map fun f => upgradeOutcome false f.1
  { sourceIp := "internal"
    tool := "upgrade_run"
    params := [("version", .str ver), ("force", .bool force)]
    okCount := rep.results.length
    failedCount := outcomes.length - rep.results.length
    outcomes := outcomes
    durationMs := durationMs }

/-! ### The calls -/

/-- The arguments of a call of a write tool, apart from the targets, the port and the timeout. -/
inductive WriteCall where
  | cmdExec (args cwd : String) (env : Option Json) (wait : Bool)
  | captureStart (iface path extended : String) (singleQueue : Bool)
  | captureStop (path : String)
  | boceRun (url : String) (count interval threadCount : Int) (mode chromiumPath : String)
  | replayRun (pcaps : List String) (uplinkIface downlinkIface : String) (o : ReplayOptions)
  | socketListen (action : String) (listenPort : Int) (file : String) (maxBytes : Int)
  | upgradeRun (version : String) (force : Bool)

namespace WriteCall

/-- The name of the tool. -/
def tool : WriteCall → String
  | .cmdExec .. => "cmd_exec"
  | .captureStart .. => "capture_start"
  | .captureStop _ => "capture_stop"
  | .boceRun .. => "boce_run"
  | .replayRun .. => "replay_run"
  | .socketListen .. => "socket_listen"
  | .upgradeRun .. => "upgrade_run"

/-- The client function of a call on one target. `ver`, `sha` and `push` are what
`upgrade_run` has found out, `ts` is the time at which a fetch is saved. -/
def toolCall (timeout : Int) (ver sha : String) (push : Bool × String) (ts : String) :
    WriteCall → ToolCall
  | .cmdExec args cwd env wait => .cmdExec args cwd env wait
  | .captureStart iface path extended singleQueue => .captureStart iface path extended singleQueue
  | .captureStop path => .captureStop path
  | .boceRun url count interval threadCount mode chromiumPath =>
    .boceRun url count interval threadCount timeout mode chromiumPath
  | .replayRun pcaps uplinkIface downlinkIface o => .replayRun pcaps uplinkIface downlinkIface o
  | .socketListen action listenPort file maxBytes =>
    if action = "start" then .listenStart listenPort
    else if action = "stop" then .listenStop
    else if action = "clean" then .listenClean
    else if action = "save" then .listenSave file
    else .listenFetch maxBytes ts
  | .upgradeRun _ force => .upgradeRun ver sha force push

end WriteCall

/-- The part of the server that a call reads: the registry when the tool resolves its targets
and when `_run_batch` does, the whitelist and the audit logger. -/
structure Site where
  registry : Option Registry
  registryAgain : Option Registry
  whitelist : List String
  audit : Option AuditLogger

/-- The targets that get a worker. `capture_stop` does not run through `_run_batch`. -/
def WriteCall.workers (site : Site) (targets : List String) : WriteCall → List String
  | .captureStop _ => resolveTargets site.registry targets
  | _ => resolveTargets site.registryAgain (resolveTargets site.registry targets)

/-- How the workers of a call end. What a worker that ran ends with is an outcome of the
client function. -/
structure WriteRun (rt : Runtime) (call : WriteCall) (port timeout : Int)
    (resolved : List String) extends BatchRun resolved where
  ran : ∀ host outcome, (host, WorkerEnd.ran outcome) ∈ ends → ∃ ver sha push ts s,
    outcome = (((call.toolCall timeout ver sha push ts).fn rt port).exec s).1

/-- What a call meets: the ends of its workers, the times that it measures, and for
`upgrade_run` the latest version, the outcome of `ensure_release_binary` (the path and the
hash, or no path and a reason) and the network of its polling. -/
structure Course (rt : Runtime) (call : WriteCall) (port timeout : Int)
    (resolved : List String) where
  run : WriteRun rt call port timeout resolved
  auditMs : Nat
  returnMs : Nat
  latest : Option String
  release : Except PyErr (Option String × String)
  network : Network
  pollStart : Nat

/-- The answer of a write tool. Only `upgrade_run` has a version and a duration. -/
structure WriteAnswer extends StopReport where
  version : Option String := none
  durationMs : Option Nat := none

/-- An answer in which a reason stands for every target that the tool was called with. -/
def refuseAll (targets : List String) (reason : String) : WriteAnswer :=
  { ok := 0, failed := targets.map fun t => (t, .str reason), results := [], failedDetails := [] }

/-- `any(args.strip().startswith(w) for w in _cmd_whitelist)`. -/
def allowed (whitelist : List String) (args : String) : Bool :=
  whitelist.any fun w => w.toList.isPrefixOf (strip args).toList

/-- The actions of `socket_listen`. -/
def listenActions : List String := ["start", "stop", "clean", "save", "fetch"]

/-- `upgrades.version_ok`: two to four groups of decimal digits between points. The pattern's
`$` also stands before a last newline. -/
def versionOk (version : String) : Bool :=
  let cs := version.toList
  let parts := splitOn '.' (if cs.getLast? = some '\n' then String.ofList cs.dropLast else version)
  decide (2 ≤ parts.length ∧ parts.length ≤ 4) && parts.all fun part =>
    part != "" && part.toList.all (inRanges decimalRanges)

/-- `version.strip().lstrip("v")`. -/
def stripVersion (version : String) : String :=
  String.ofList ((strip version).toList.dropWhile (· == 'v'))

/-- The version that `upgrade_run` pushes, or the version and the reason of its refusal. -/
def chooseVersion (version : String) (latest : Option String) : Except (String × String) String :=
  let ver := stripVersion version
  if ver ≠ "" then
    if versionOk ver then .ok ver else .error (ver, "版本号非法: " ++ reprStr ver)
  else
    match latest with
    | some v =>
      if v ≠ "" then .ok v
      else .error ("", "查询最新版失败（GitHub 不可达），可显式指定 version 重试")
    | none => .error ("", "查询最新版失败（GitHub 不可达），可显式指定 version 重试")

section

variable {rt : Runtime} {call : WriteCall} {port timeout : Int} {resolved : List String}

/-- `_run_batch` with its audit. -/
def runBatchTool (site : Site) (auditTool : String) (auditParams : List (String × Json))
    (course : Course rt call port timeout resolved) : WriteAnswer × Option AuditLogger :=
  let results := course.run.results
  ({ runBatchReport results with failedDetails := [] },
    audited site.audit (batchRecord auditTool auditParams results course.auditMs))

/-- `cmd_exec`. -/
def cmdExecTool (site : Site) (targets : List String) (args cwd : String) (wait : Bool)
    (course : Course rt call port timeout resolved) : WriteAnswer × Option AuditLogger :=
  if site.whitelist ≠ [] ∧ allowed site.whitelist args = false then
    (refuseAll targets ("命令不在白名单: " ++ args), site.audit)
  else
    runBatchTool site "cmd_exec" [("args", .str args), ("cwd", .str cwd), ("wait", .bool wait)]
      course

/-- `capture_start`. -/
def captureStartTool (site : Site) (iface path extended : String) (singleQueue : Bool)
    (course : Course rt call port timeout resolved) : WriteAnswer × Option AuditLogger :=
  runBatchTool site "capture_start"
    [("iface", .str iface), ("path", .str path), ("extended", .str extended),
      ("single_queue", .bool singleQueue)] course

/-- `capture_stop`, whose results are its own and whose audit is written by itself. -/
def captureStopAudited (site : Site) (path : String)
    (course : Course rt call port timeout resolved) : WriteAnswer × Option AuditLogger :=
  let results := course.run.ends.map fun e => (ToolCall.captureStop path).result e.1 e.2
  ({ stopReport results with },
    audited site.audit (batchRecord "capture_stop" [("path", .str path)] results course.auditMs))

/-- `boce_run`. -/
def boceRunTool (site : Site) (url : String) (count : Int) (mode : String)
    (course : Course rt call port timeout resolved) : WriteAnswer × Option AuditLogger :=
  runBatchTool site "boce_run" [("url", .str url), ("count", .int count), ("mode", .str mode)]
    course

/-- `replay_run`. -/
def replayRunTool (site : Site) (pcaps : List String) (uplinkIface downlinkIface : String)
    (mbps : Int) (course : Course rt call port timeout resolved) :
    WriteAnswer × Option AuditLogger :=
  runBatchTool site "replay_run"
    [("pcaps", .arr (pcaps.map .str)), ("uplink_iface", .str uplinkIface),
      ("downlink_iface", .str downlinkIface), ("mbps", .int mbps)] course

/-- `socket_listen`. -/
def socketListenTool (site : Site) (targets : List String) (action : String) (listenPort : Int)
    (file : String) (maxBytes : Int) (course : Course rt call port timeout resolved) :
    WriteAnswer × Option AuditLogger :=
  if action = "save" ∧ file = "" then
    (refuseAll targets "save 动作需要 file 参数", site.audit)
  else if action ∉ listenActions then
    (refuseAll targets ("未知 action: " ++ action), site.audit)
  else
    runBatchTool site "socket_listen"
      [("action", .str action), ("listen_port", .int listenPort), ("file", .str file),
        ("max_bytes", .int maxBytes)] course

/-- An answer of `upgrade_run` before any target is contacted. -/
def refuseUpgrade (ver reason : String) : WriteAnswer :=
  { ok := 0, failed := [("*", .str reason)], results := [], failedDetails := []
    version := some ver }

/-- `upgrade_run`. -/
def upgradeRunTool (site : Site) (targets : List String) (version : String) (force : Bool)
    (course : Course rt call port timeout resolved) :
    Except PyErr WriteAnswer × Option AuditLogger :=
  if resolveTargets site.registry targets = [] then
    (.ok { refuseAll targets "无有效靶机" with version := some version }, site.audit)
  else
    match chooseVersion version course.latest with
    | .error (ver, reason) => (.ok (refuseUpgrade ver reason), site.audit)
    | .ok ver =>
      match course.release with
      | .error e => (.error e, site.audit)
      | .ok (none, reason) => (.ok (refuseUpgrade ver reason), site.audit)
      | .ok (some _, _) =>
        match upgradePolled rt ver port course.network course.pollStart course.run.results with
        | .error e => (.error e, site.audit)
        | .ok rep =>
          (.ok { rep with
              failedDetails := [], version := some ver, durationMs := some course.returnMs },
            audited site.audit (upgradeRecord ver force rep course.auditMs))

/-- A call of a write tool: what it returns or raises, and the audit log after it. -/
def WriteCall.perform (site : Site) (targets : List String) (call : WriteCall)
    (course : Course rt call port timeout (call.workers site targets)) :
    Except PyErr WriteAnswer × Option AuditLogger :=
  match call with
  | .cmdExec args cwd _ wait => returned (cmdExecTool site targets args cwd wait course)
  | .captureStart iface path extended singleQueue =>
    returned (captureStartTool site iface path extended singleQueue course)
  | .captureStop path => returned (captureStopAudited site path course)
  | .boceRun url count _ _ mode _ => returned (boceRunTool site url count mode course)
  | .replayRun pcaps uplinkIface downlinkIface o =>
    returned (replayRunTool site pcaps uplinkIface downlinkIface o.mbps course)
  | .socketListen action listenPort file maxBytes =>
    returned (socketListenTool site targets action listenPort file maxBytes course)
  | .upgradeRun version force => upgradeRunTool site targets version force course
where
  returned (r : WriteAnswer × Option AuditLogger) :
      Except PyErr WriteAnswer × Option AuditLogger :=
    (.ok r.1, r.2)

end

end McpSocketServer
