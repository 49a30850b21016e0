import McpSocketServer.Server.RunBatch
import McpSocketServer.PoolThreads

/-!
# The client functions of the batch tools (`server.py`)

The function that each tool runs on the client of one target. It works on the client and may
write to the registry; what else it takes from outside (the outcome of pushing a binary, the
wall clock) is a parameter.
-/

namespace McpSocketServer

open SocketServerClient

/-- What a client function works on. -/
structure FnState where
  client : SocketServerClient
  registry : Option Registry

/-- A client function. -/
abbrev TargetFn := Prog PyErr FnState PyVal

/-- A method of the client. -/
def onClient {α : Type} (m : Client α) : Prog PyErr FnState α :=
  Prog.zoom FnState.client (fun c s => { s with client := c }) m

/-- `_registry.set_listen_liveness(client.host, alive, port)`, where there is a registry. -/
def setLiveness (alive : Bool) (port : Int) : Prog PyErr FnState Unit := do
  let s ← get
  match s.registry with
  | none => pure ()
  | some reg =>
    let (r, reg) := reg.setListenLiveness s.client.host alive port
    set { s with registry := some reg }
    Prog.ofExcept r

/-- Python's order of tuples of integers: `a < b`. -/
def tupleLt : List Int → List Int → Bool
  | [], [] => false
  | [], _ :: _ => true
  | _ :: _, [] => false
  | a :: as, b :: bs => if a = b then tupleLt as bs else decide (a < b)

/-- `int(x)` of every part of a split version; `none` stands for the `ValueError`. -/
def intParts (parts : List String) : Option (List Int) := parts.mapM parseInt

/-- A failure of a function that answers `{"_error": reason}`. -/
def errorField (reason : Json) : PyVal := .json (.obj [("_error", reason)])

/-- `x or None` of a string. -/
def orNone (s : String) : Option String := if s = "" then none else some s

/-- `capture_start.run_one`. -/
def captureStartFn (rt : Runtime) (iface path extended : String) (singleQueue : Bool) :
    TargetFn := do
  let d ← onClient (captureStart rt (orNone iface) (some path) extended singleQueue)
  let res ← Prog.ofExcept (d.get "res" .null)
  if res.truthy then pure (.json d)
  else
    let error ← Prog.ofExcept (d.get "error" .null)
    if error.truthy then pure (errorField error) else pure (.json (.bool false))

/-- The registration of liveness in `socket_listen.run_one`. -/
def registerLiveness (rt : Runtime) (port : Int) : Prog PyErr FnState Unit := do
  let v ← onClient (version rt)
  match v with
  | .str v =>
    match intParts (splitOn '.' v) with
    | none => throw ⟨.valueError, "invalid literal for int() with base 10"⟩
    | some parts => if tupleLt (parts.take 3) [1, 7, 1] then pure () else setLiveness true port
  | v => throw ⟨.attributeError, "'" ++ v.typeName ++ "' object has no attribute 'split'"⟩

/-- `socket_listen.run_one` with the action `start`: no failure of the registration counts. -/
def listenStartFn (rt : Runtime) (listenPort port : Int) : TargetFn := do
  let result ← onClient (listenStart rt listenPort)
  tryCatch (registerLiveness rt port) fun _ => pure ()
  pure (.json result)

/-- `socket_listen.run_one` with the action `stop`. -/
def listenStopFn (rt : Runtime) (port : Int) : TargetFn := do
  let r ← onClient (listenStop rt)
  setLiveness false port
  pure (.bytes r)

/-- `data[:n]`. -/
def sliceTo (data : Bytes) (n : Int) : Bytes :=
  data.take (if 0 ≤ n then n.toNat else (data.length + n).toNat)

/-- The file of the target to which a truncated fetch saves the data. -/
def listenLogPath (ts : String) : String := "/home/tmp/listen_" ++ ts ++ ".log"

/-- `socket_listen.run_one` with the action `fetch`; `ts` is the formatted local time. -/
def listenFetchFn (rt : Runtime) (maxBytes : Int) (ts : String) : TargetFn := do
  let data ← onClient (listenFetch rt)
  if (data.length : Int) ≤ maxBytes then
    pure (.json (.obj [("size", .int data.length), ("data_b64", .str (rt.b64encode data)),
      ("truncated", .bool false)]))
  else
    let filePath := listenLogPath ts
    let _ ← onClient (listenSave rt filePath)
    pure (.json (.obj [("size", .int data.length),
      ("data_b64", .str (rt.b64encode (sliceTo data maxBytes))), ("truncated", .bool true),
      ("file_path", .str filePath)]))

/-- The pre-check of `upgrade_run.run_one`: the reason for which a reported version is
refused. -/
def upgradeRefusal (cur : Json) : Option String :=
  match intParts ((splitOn '.' cur.toStr).take 3) with
  | none => some ("靶机版本号异常: " ++ cur.repr)
  | some parts =>
    if tupleLt parts [1, 8, 0] then
      some ("靶机 v" ++ cur.toStr ++ " 过旧，请先用 install.sh 安装 1.8.0+")
    else none

/-- A version that is an object is refused. -/
theorem upgradeRefusal_obj (fields : List (String × Json)) :
    ∃ reason, upgradeRefusal (.obj fields) = some reason := by
  obtain ⟨cs, hcs⟩ := Json.toStr_obj_toList fields
  obtain ⟨part, parts, hsplit⟩ := splitOn_cons hcs (by decide : '\x7b' ≠ '.')
  have hnone : intParts ((splitOn '.' (Json.obj fields).toStr).take 3) = none := by
    rw [hsplit, List.take_succ_cons, intParts, List.mapM_cons, parseInt_brace]
    rfl
  exact ⟨_, by rw [upgradeRefusal, hnone]⟩

/-- `upgrade_run.run_one`; `push` is what `push_binary` returns. -/
def upgradeFn (rt : Runtime) (ver sha : String) (force : Bool) (push : Bool × String) :
    TargetFn := do
  let cur ← onClient (version rt)
  match upgradeRefusal cur with
  | some reason => pure (errorField (.str reason))
  | none =>
    if push.1 = false then pure (errorField (.str push.2))
    else
      let resp ← onClient (upgradeApply rt ver sha force)
      let error ← Prog.ofExcept (resp.get "error" .null)
      if error.truthy then pure (errorField error)
      else
        let ok ← Prog.ofExcept (resp.get "ok" .null)
        if ok.truthy then
          modify fun s => { s with client := s.client.close }
          pure (.json (.obj [("pushed", .bool true), ("from_version", .str cur.toStr)]))
        else pure (errorField (.str ("无法解析的 dt20 响应: " ++ resp.repr)))

/-- A tool call, as far as its client function depends on it. -/
inductive ToolCall where
  | version
  | isfile (path : String)
  | isdir (path : String)
  | pcapFlowExtract (pcapDir : String)
  | cmdExec (args cwd : String) (env : Option Json) (wait : Bool)
  | captureStart (iface path extended : String) (singleQueue : Bool)
  | captureStop (path : String)
  | boceRun (url : String) (count interval threadCount timeout : Int)
      (mode chromiumPath : String)
  | replayRun (pcaps : List String) (uplinkIface downlinkIface : String) (o : ReplayOptions)
  | listenStart (listenPort : Int)
  | listenStop
  | listenClean
  | listenSave (file : String)
  | listenFetch (maxBytes : Int) (ts : String)
  | upgradeRun (ver sha : String) (force : Bool) (push : Bool × String)

/-- The client function of a tool call on the given port. -/
def ToolCall.fn (rt : Runtime) (port : Int) : ToolCall → TargetFn
  | .version => do pure (.json (← onClient (SocketServerClient.version rt)))
  | .isfile path => do pure (.json (← onClient (SocketServerClient.isfile rt path)))
  | .isdir path => do pure (.json (← onClient (SocketServerClient.isdir rt path)))
  | .pcapFlowExtract pcapDir => do
    pure (.json (← onClient (SocketServerClient.pcapFlowExtract rt pcapDir)))
  | .cmdExec args cwd env wait => do
    pure (.json (← onClient (SocketServerClient.cmdExec rt args (orNone cwd) env wait)))
  | .captureStart iface path extended singleQueue =>
    captureStartFn rt iface path extended singleQueue
  | .captureStop path => do pure (.json (← onClient (SocketServerClient.captureStop rt path)))
  | .boceRun url count interval threadCount timeout mode chromiumPath => do
    pure (.json (← onClient (SocketServerClient.boceRun rt url count interval threadCount
      (max 3 (timeout - 10)) mode (orNone chromiumPath))))
  | .replayRun pcaps uplinkIface downlinkIface o => do
    pure (.json (← onClient (SocketServerClient.replayRun rt pcaps uplinkIface downlinkIface o)))
  | .listenStart listenPort => listenStartFn rt listenPort port
  | .listenStop => listenStopFn rt port
  | .listenClean => do pure (.bytes (← onClient (SocketServerClient.listenClean rt)))
  | .listenSave file => do pure (.bytes (← onClient (SocketServerClient.listenSave rt file)))
  | .listenFetch maxBytes ts => listenFetchFn rt maxBytes ts
  | .upgradeRun ver sha force push => upgradeFn rt ver sha force push

/-- A tool call that has borrowed a client, and the registry that it meets. -/
structure ToolUse where
  call : ToolCall
  registry : Option Registry

/-- The clients of the pool for `host:port`, used by tool calls: the client goes back healthy
when its function returned. -/
def toolClients (rt : Runtime) (host : String) (port : Int) :
    ClientKind SocketServerClient (Except PyErr Endpoint) ToolUse where
  new timeout := { host := host, port := port, timeout := timeout }
  connect client outcome := (connect outcome).exec client
  setTimeout client timeout := { client with timeout := timeout }
  close := close
  perform client use :=
    let r := (use.call.fn rt port).exec ⟨client, use.registry⟩
    (healthyAfter r.1, r.2.client)

/-- The pool of a target before any call. -/
def unusedPool : PoolState SocketServerClient :=
  { clients := fun _ => { host := "", port := 0, timeout := 0 } }

end McpSocketServer
