import McpSocketServer.Python.Runtime
import McpSocketServer.Misc.ExceptState
import McpSocketServer.Misc.SegmentedStream

/-!
# The client of one target (`socket_client.py`)

A connected socket carries the arrivals that are still to be read and the target's
behaviour: for every request, in the order in which they are sent, what becomes of the
sending and what arrives in answer. Every byte on the wire is marked with the number of
the request that it answers; the mark is read by no function of the program.

Timeouts are kept in milliseconds. Logging is left out.
-/

namespace McpSocketServer

/-- The `datatype` and the payload of one message. -/
structure Request where
  datatype : Nat
  payload : Bytes
  deriving DecidableEq, Repr

/-- What a target makes of one request: the exception that `sendall` raises, if any, and the
arrivals that answer the request. -/
structure Exchange where
  fault : Option PyErr := none
  reply : Wire UInt8 PyErr := []

/-- The target's side of a connection, for every number of requests received before. -/
abbrev Endpoint := Nat → Request → Exchange

/-- A byte on the wire and the number of the request that it answers. -/
structure WireByte where
  request : Nat
  value : UInt8
  deriving DecidableEq, Repr

/-- A connected socket. -/
structure Socket where
  timeout : Nat
  endpoint : Endpoint
  wire : Wire WireByte PyErr := []
  requests : Nat := 0

/-- `SocketServerClient`. `stale` records that a read has returned a byte which answers another
request than the last one sent; like the marks of the bytes it is read by no function. -/
structure SocketServerClient where
  host : String
  port : Int
  timeout : Int
  sock : Option Socket := none
  stale : Bool := false

/-- A method of the client. -/
abbrev Client := Prog PyErr SocketServerClient

/-- `socket.settimeout` refuses negative values and values beyond its clock's range. -/
def checkTimeout (ms : Int) : Except PyErr Nat :=
  if ms < 0 then .error ⟨.valueError, "Timeout value out of range"⟩
  else if 9223372036854 < ms then
    .error ⟨.other, "timestamp too large to convert to C PyTime_t"⟩
  else .ok ms.toNat

/-- The exception for a read that returned no data. -/
def endingError (timeout : Nat) : Ending PyErr → PyErr
  | .closed => ⟨.connectionError, "连接在读取完成前关闭"⟩
  | .expired =>
    if timeout = 0 then ⟨.blockingIOError, "[Errno 11] Resource temporarily unavailable"⟩
    else ⟨.timeoutError, "timed out"⟩
  | .failed e => e

/-- `sendall`: the target meets the request and its answer goes on the wire. -/
def Socket.deliver (s : Socket) (r : Request) : Socket :=
  { s with
    wire := s.wire ++ Wire.mapItems (WireByte.mk s.requests) (s.endpoint s.requests r).reply
    requests := s.requests + 1 }

namespace SocketServerClient

/-- `connect`. `outcome` is what `socket.connect` raises, or the target that it reaches. -/
def connect (outcome : Except PyErr Endpoint) : Client Unit := do
  let c ← get
  if c.sock.isSome then pure ()
  else
    let ms ← Prog.ofExcept (checkTimeout (1000 * c.timeout))
    let endpoint ← Prog.ofExcept outcome
    modify fun c => { c with sock := some { timeout := ms, endpoint := endpoint } }

/-- `close`, which swallows the `OSError` of closing the socket. -/
def close (c : SocketServerClient) : SocketServerClient := { c with sock := none }

/-- `assert self._sock is not None`. -/
def theSock : Client Socket := do
  match (← get).sock with
  | none => throw ⟨.assertionError, ""⟩
  | some s => pure s

/-- Replace the open socket. -/
def putSock (s : Socket) : Client Unit := modify fun c => { c with sock := some s }

/-- A read from the socket `s` has returned `items` and left `wire`. -/
def afterRead (s : Socket) (items : List WireByte) (wire : Wire WireByte PyErr) : Client Unit :=
  modify fun c =>
    { c with
      sock := some { s with wire := wire }
      stale := c.stale || items.any fun b => b.request + 1 != s.requests }

/-- `self._sock.settimeout`. -/
def settimeout (ms : Int) : Client Unit := do
  let s ← theSock
  let ms ← Prog.ofExcept (checkTimeout ms)
  putSock { s with timeout := ms }

/-- `self._sock.sendall` of a framed request. -/
def sendall (r : Request) : Client Unit := do
  let s ← theSock
  putSock (s.deliver r)
  match (s.endpoint s.requests r).fault with
  | none => pure ()
  | some e => throw e

/-- `_send`. -/
def send (datatype : Nat) (payload : Bytes) : Client Unit := do
  let _ ← theSock
  settimeout (1000 * (← get).timeout)
  if 2 ^ 31 ≤ payload.length + 4 then
    throw ⟨.structError, "'i' format requires -2147483648 <= number <= 2147483647"⟩
  else sendall ⟨datatype, payload⟩

/-- `_send_raw`. Its frame carries no datatype; what the target makes of it is a parameter. -/
def sendRaw (msg : Bytes) (exchange : Exchange) : Client Unit := do
  let _ ← theSock
  settimeout (1000 * (← get).timeout)
  if 2 ^ 31 ≤ msg.length then
    throw ⟨.structError, "'i' format requires -2147483648 <= number <= 2147483647"⟩
  else
    let s ← theSock
    putSock { s with
      wire := s.wire ++ Wire.mapItems (WireByte.mk s.requests) exchange.reply
      requests := s.requests + 1 }
    match exchange.fault with
    | none => pure ()
    | some e => throw e

/-- `_recv_n`. -/
def recvN (n : Int) : Client Bytes := do
  let _ ← theSock
  settimeout (1000 * (← get).timeout)
  let s ← theSock
  match Wire.readExactly 65536 s.timeout n.toNat n.toNat s.wire with
  | (.ok items, w) => do
    afterRead s items w
    pure (items.map WireByte.value)
  | (.error e, w) => do
    afterRead s [] w
    throw (endingError s.timeout e)

/-- `except socket.timeout: pass` around a read that ended so. -/
def passTimeout (timeout : Nat) (e : Ending PyErr) : Client Unit :=
  if e = .closed then pure ()
  else if (endingError timeout e).kind = .timeoutError then pure ()
  else throw (endingError timeout e)

/-- `_recv_until_timeout`. -/
def recvUntilTimeout (gap : Nat) : Client Bytes := do
  let _ ← theSock
  settimeout (1000 * (← get).timeout)
  let s ← theSock
  match Wire.recv 65536 s.timeout s.wire with
  | (.error e, w) => do
    afterRead s [] w
    passTimeout s.timeout e
    pure []
  | (.ok chunk, w) => do
    let ((extra, e), w) := Wire.readUntilSilence 65536 gap (w.contents.length + 1) w
    afterRead { s with timeout := gap } (chunk ++ extra) w
    passTimeout gap e
    pure ((chunk ++ extra).map WireByte.value)

variable (rt : Runtime)

/-- `recv_text_response`. -/
def recvTextResponse : Client Bytes := recvUntilTimeout 500

/-- `recv_gzip_response`. -/
def recvGzipResponse : Client Json := do
  let n ← recvN 4
  let gz ← recvN (unpackInt n)
  let body ← Prog.ofExcept (rt.decompress gz)
  Prog.ofExcept (rt.loadsBytes body)

/-- `recv_file_response`. -/
def recvFileResponse (gzipDecompress : Bool) : Client (Nat × Bytes) := do
  let n ← recvN 8
  let body ← recvN (unpackLE n)
  if gzipDecompress then
    let body ← Prog.ofExcept (rt.decompress body)
    pure (unpackLE n, body)
  else pure (unpackLE n, body)

/-- `recv_inline_text`. -/
def recvInlineText (timeout : Nat) : Client Bytes := recvUntilTimeout timeout

/-- `recv_lenprefixed_json`. -/
def recvLenprefixedJson : Client Json := do
  let n ← recvN 4
  let body ← recvN (unpackInt n)
  Prog.ofExcept (rt.loads (rt.decode body))

/-- `recv_ok`. -/
def recvOk : Client Bytes := recvUntilTimeout 500

/-- `json.loads(self.recv_text_response().decode("utf-8", "replace"))`. -/
def recvJson : Client Json := do
  let b ← recvTextResponse
  Prog.ofExcept (rt.loads (rt.decode b))

/-- `_decode_listen_error`. -/
def decodeListenError (resp : Bytes) : Except PyErr Json :=
  match rt.loads (rt.decode resp) with
  | .ok msg =>
    if msg.hasKey "error" then msg.get "error" .null else .ok (.str (rt.decode resp))
  | .error e => if e.kind = .valueError then .ok (.str (rt.decode resp)) else .error e

/-- `version`. -/
def version : Client Json := do
  send 14 []
  recvJson rt

/-- The body of `isfile` and `isdir`, which differ in the datatype and the field. -/
def probePath (datatype : Nat) (field path : String) : Client Json := do
  send datatype (rt.dumps (.obj [(field, .str path)]))
  let data ← recvJson rt
  Prog.ofExcept (data.get "res" (.bool false))

/-- `isfile`. -/
def isfile (path : String) : Client Json := probePath rt 7 "file" path

/-- `isdir`. -/
def isdir (path : String) : Client Json := probePath rt 8 "dir" path

/-- `pcap_flow_extract`. -/
def pcapFlowExtract (pcapDir : String) : Client Json := do
  send 200 (rt.dumps (.obj [("pcap_dir", .str pcapDir)]))
  recvLenprefixedJson rt

/-- A field that is sent only when its argument is given. -/
def optionalField (k : String) : Option Json → List (String × Json)
  | none => []
  | some j => [(k, j)]

/-- `d[k] = v` on the fields of a dictionary. -/
def setField (fields : List (String × Json)) (k : String) (v : Json) : List (String × Json) :=
  if (fields.lookup k).isSome then fields.map fun f => if f.1 = k then (k, v) else f
  else fields ++ [(k, v)]

/-- The cut of a long `stdout` in `cmd_exec`. -/
def truncateStdout (result : Json) : Json :=
  match result with
  | .obj fields =>
    match fieldD fields "stdout" .null with
    | .str out =>
      if 65536 < out.toList.length then
        .obj (setField (setField fields "stdout" (.str (String.ofList (out.toList.take 65536))))
          "stdout_truncated" (.bool true))
      else result
    | _ => result
  | _ => result

theorem lookup_replace_ne {k k' : String} (hk : k' ≠ k) (fields : List (String × Json))
    (v : Json) : (fields.map fun f => if f.1 = k then (k, v) else f).lookup k' =
      fields.lookup k' := by
  induction fields with
  | nil => rfl
  | cons f fields ih =>
      obtain ⟨a, b⟩ := f
      have hbeq : (k' == k) = false := by simpa using hk
      by_cases ha : a = k
      · subst ha
        simp [List.lookup_cons, ih, hbeq]
      · simp only [List.map_cons, if_neg ha, List.lookup_cons, ih]

/-- Setting one field leaves the others. -/
theorem lookup_setField_ne {k k' : String} (hk : k' ≠ k) (fields : List (String × Json))
    (v : Json) : (setField fields k v).lookup k' = fields.lookup k' := by
  unfold setField
  split
  · exact lookup_replace_ne hk fields v
  · have hbeq : (k' == k) = false := by simpa using hk
    rw [List.lookup_append]
    simp [List.lookup_cons, hbeq]

/-- The cut leaves the fields other than `stdout` and its mark. -/
theorem truncateStdout_obj (fields : List (String × Json)) :
    ∃ fields', truncateStdout (.obj fields) = .obj fields' ∧ ∀ k, k ≠ "stdout" →
      k ≠ "stdout_truncated" → fields'.lookup k = fields.lookup k := by
  simp only [truncateStdout]
  split
  · split
    · refine ⟨_, rfl, fun k hout hmark => ?_⟩
      rw [lookup_setField_ne hmark, lookup_setField_ne hout]
    · exact ⟨fields, rfl, fun _ _ _ => rfl⟩
  · exact ⟨fields, rfl, fun _ _ _ => rfl⟩

/-- The parameters of `cmd_exec`. -/
def cmdExecParams (args : String) (cwd : Option String) (env : Option Json) (wait : Bool) : Json :=
  .obj ([("args", .str args), ("wait", .bool wait)] ++ optionalField "cwd" (cwd.map .str) ++
    optionalField "env" env)

/-- `cmd_exec`. -/
def cmdExec (args : String) (cwd : Option String) (env : Option Json) (wait : Bool) :
    Client Json := do
  send 1 (rt.dumps (cmdExecParams args cwd env wait))
  let result ← recvGzipResponse rt
  pure (truncateStdout result)

/-- The parameters of `capture_start`. -/
def captureStartParams (eth path : Option String) (extended : String) (singleQueue : Bool) : Json :=
  .obj ([("extended", .str extended), ("single_queue", .bool singleQueue)] ++
    optionalField "eth" (eth.map .str) ++ optionalField "path" (path.map .str))

/-- `capture_start`. -/
def captureStart (eth path : Option String) (extended : String) (singleQueue : Bool) :
    Client Json := do
  send 5 (rt.dumps (captureStartParams eth path extended singleQueue))
  let data ← recvJson rt
  if data.hasKey "error" then pure data
  else
    let res ← Prog.ofExcept (data.get "res" (.bool false))
    pure (.obj [("res", .bool res.truthy)])

/-- `capture_stop` as a function of the target's answer. -/
def captureStopAnswer (data : Json) : Json :=
  if data.hasKey "stopped" then data
  else
    match data with
    | .obj fields =>
      match fields.lookup "res" with
      | some res =>
        if res.truthy then .obj [("stopped", .bool true), ("legacy", .bool true)]
        else .obj [("stopped", .bool false), ("legacy", .bool true),
          ("error", .str "停止未完成（旧版语义），可重试")]
      | none => unparsed
    | _ => unparsed
where
  unparsed : Json := .obj [("stopped", .bool false),
    ("error", .str ("无法解析的服务端响应: " ++ data.repr))]

/-- `capture_stop`. -/
def captureStop (path : String) : Client Json := do
  send 6 (rt.dumps (.obj [("path", .str path)]))
  let data ← recvJson rt
  pure (captureStopAnswer data)

/-- The parameters of `boce_run`. -/
def boceRunParams (url : String) (count interval threadCount timeout : Int) (mode : String)
    (chromiumPath : Option String) : Json :=
  .obj ([("url", .str url), ("count", .int count), ("interval", .int interval),
    ("thread_count", .int threadCount), ("timeout", .int timeout), ("mode", .str mode)] ++
    optionalField "chromium_path" (chromiumPath.map .str))

/-- `boce_run`. -/
def boceRun (url : String) (count interval threadCount timeout : Int) (mode : String)
    (chromiumPath : Option String) : Client Json := do
  send 131 (rt.dumps (boceRunParams url count interval threadCount timeout mode chromiumPath))
  let data ← recvLenprefixedJson rt
  if data.hasKey "error" then
    let e ← Prog.ofExcept (data.get "error" .null)
    throw ⟨.connectionError, "boce failed: " ++ e.toStr⟩
  else pure data

/-- The arguments of a replay beyond the files and the interfaces. -/
structure ReplayOptions where
  uplinkVlan : Option Int := none
  downlinkVlan : Option Int := none
  mbps : Int := 0
  forceIpSrc : Option String := none
  forceIpDst : Option String := none
  forceSport : Int := 0
  forceDport : Int := 0

/-- `status == "error"` of a dictionary. -/
def statusIsError (result : Json) : Bool :=
  match result with
  | .obj fields =>
    match fieldD fields "status" .null with
    | .str s => s == "error"
    | _ => false
  | _ => false

/-- The parameters of `replay_run`. -/
def replayRunParams (pcaps : List String) (uplinkIface downlinkIface : String)
    (o : ReplayOptions) : Json :=
  let port (p : Int) : Option Json := if p = 0 then none else some (.int p)
  .obj ([("pcaps", .arr (pcaps.map .str)), ("uplink_iface", .str uplinkIface),
    ("downlink_iface", .str downlinkIface), ("mbps", .int o.mbps)] ++
    optionalField "uplink_vlan" (o.uplinkVlan.map .int) ++
    optionalField "downlink_vlan" (o.downlinkVlan.map .int) ++
    optionalField "force_ip_src" (o.forceIpSrc.map .str) ++
    optionalField "force_ip_dst" (o.forceIpDst.map .str) ++
    optionalField "force_sport" (port o.forceSport) ++
    optionalField "force_dport" (port o.forceDport))

/-- `replay_run`. -/
def replayRun (pcaps : List String) (uplinkIface downlinkIface : String) (o : ReplayOptions) :
    Client Json := do
  send 0 (rt.dumps (replayRunParams pcaps uplinkIface downlinkIface o))
  let result ← recvJson rt
  if statusIsError result then
    let message ← Prog.ofExcept (result.get "message" result)
    throw ⟨.connectionError, "replay failed: " ++ message.toStr⟩
  else pure result

/-- `socket_listen("start")`. -/
def listenStart (listenPort : Int) : Client Json := do
  send 171 (rt.dumps (.obj [("host", .null), ("port", .int listenPort)]))
  let result ← recvJson rt
  let pid ← Prog.ofExcept (result.get "pid" .null)
  if pid.truthy then pure result
  else throw ⟨.connectionError, "listen start failed: pid empty, resp=" ++ result.toStr⟩

/-- `b"ok"`. -/
def okBytes : Bytes := [111, 107]

/-- The shared body of the actions `clean`, `stop` and `save`: any answer but `ok` is raised. -/
def listenCommand (datatype : Nat) (payload : Bytes) (action : String) : Client Bytes := do
  send datatype payload
  let resp ← recvOk
  if resp = okBytes then pure resp
  else
    let msg ← Prog.ofExcept (decodeListenError rt resp)
    throw ⟨.connectionError, "listen " ++ action ++ " failed: " ++ msg.toStr⟩

/-- `socket_listen("clean")`. -/
def listenClean : Client Bytes := listenCommand rt 172 [] "clean"

/-- `socket_listen("stop")`. -/
def listenStop : Client Bytes := listenCommand rt 175 [] "stop"

/-- `socket_listen("save", file=…)`. -/
def listenSave (file : String) : Client Bytes :=
  if file = "" then throw ⟨.valueError, "save requires file"⟩
  else listenCommand rt 173 (rt.dumps (.obj [("file", .str file)])) "save"

/-- The message that `fetch` raises for an answer which begins like a JSON object. -/
def fetchError (raw : String) : Except PyErr Json :=
  match rt.loads raw with
  | .ok msg => msg.get "error" (.str raw)
  | .error e => if e.kind = .valueError then .ok (.str raw) else .error e

/-- `socket_listen("fetch")`. -/
def listenFetch : Client Bytes := do
  send 174 []
  let head ← recvN 8
  if head.head? = some 0x7b then
    let rest ← recvUntilTimeout 500
    let msg ← Prog.ofExcept (fetchError rt (rt.decode (head ++ rest)))
    throw ⟨.connectionError, "listen fetch failed: " ++ msg.toStr⟩
  else
    let content ← recvN (unpackLE head)
    Prog.ofExcept (rt.decompress content)

/-- `upgrade_apply`. -/
def upgradeApply (version sha256 : String) (force : Bool) : Client Json := do
  send 20 (rt.dumps (.obj [("version", .str version), ("sha256", .str sha256),
    ("force", .bool force)]))
  let data ← recvJson rt
  match data with
  | .obj _ => pure data
  | _ => pure (.obj [("error", .str ("无法解析的 dt20 响应: " ++ data.repr))])

end SocketServerClient

end McpSocketServer
