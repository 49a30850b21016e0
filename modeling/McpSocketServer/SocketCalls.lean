import McpSocketServer.SocketClient

/-!
# The blocking calls of a client

The timeout of a socket is a hidden state: `settimeout` sets it, and it is in force in every
blocking call until it is set again. Here the client of `socket_client.py` runs with a record
of its blocking calls. The functions that touch the socket are written down once more, down
to the single `recv`, with a note of the timeout that the socket has at that moment. All other
methods are made of these, so `Recording m` builds the recorded run of a method from those of
its parts, and forgetting the record gives the method back.
-/

namespace McpSocketServer

open SocketServerClient

/-- `further gap` is a read after the first one in `_recv_until_timeout(gap)`. -/
inductive BlockingKind where
  | connect
  | send
  | recv
  | further (gap : Nat)
  deriving DecidableEq, Repr

/-- A blocking call on a socket and the timeout in force, in milliseconds. -/
structure BlockingCall where
  kind : BlockingKind
  timeout : Nat
  deriving DecidableEq, Repr

/-- A client and its blocking calls since it was handed out. -/
structure RecordedClient where
  client : SocketServerClient
  calls : List BlockingCall := []

/-- A method of the client with its record. -/
abbrev Recorder := Prog PyErr RecordedClient

namespace Recorder

variable {α : Type}

/-- What makes no blocking call. -/
def onClient (m : Client α) : Recorder α :=
  Prog.zoom RecordedClient.client (fun c r => { r with client := c }) m

/-- A blocking call under the timeout that the socket has. -/
def note (kind : BlockingKind) : Recorder Unit := do
  let s ← onClient theSock
  modify fun r => { r with calls := r.calls ++ [⟨kind, s.timeout⟩] }

/-- `connect`. -/
def connect (outcome : Except PyErr Endpoint) : Recorder Unit := do
  let r ← get
  if r.client.sock.isSome then pure ()
  else
    let ms ← Prog.ofExcept (checkTimeout (1000 * r.client.timeout))
    modify fun r => { r with calls := r.calls ++ [⟨.connect, ms⟩] }
    let endpoint ← Prog.ofExcept outcome
    onClient (modify fun c => { c with sock := some { timeout := ms, endpoint := endpoint } })

/-- `_send`. -/
def send (datatype : Nat) (payload : Bytes) : Recorder Unit := do
  let _ ← onClient theSock
  onClient (settimeout (1000 * (← get).client.timeout))
  if 2 ^ 31 ≤ payload.length + 4 then
    throw ⟨.structError, "'i' format requires -2147483648 <= number <= 2147483647"⟩
  else
    note .send
    onClient (sendall ⟨datatype, payload⟩)

/-- `_send_raw`. -/
def sendRaw (msg : Bytes) (exchange : Exchange) : Recorder Unit := do
  let _ ← onClient theSock
  onClient (settimeout (1000 * (← get).client.timeout))
  if 2 ^ 31 ≤ msg.length then
    throw ⟨.structError, "'i' format requires -2147483648 <= number <= 2147483647"⟩
  else
    note .send
    let s ← onClient theSock
    onClient (putSock { s with
      wire := s.wire ++ Wire.mapItems (WireByte.mk s.requests) exchange.reply
      requests := s.requests + 1 })
    match exchange.fault with
    | none => pure ()
    | some e => throw e

/-- `self._sock.recv` on the arrivals `w`. -/
def recv (kind : BlockingKind) (limit : Nat) (w : Wire WireByte PyErr) :
    Recorder (Except (Ending PyErr) (List WireByte) × Wire WireByte PyErr) := do
  note kind
  let s ← onClient theSock
  pure (Wire.recv limit s.timeout w)

/-- The loop of `_recv_n`. -/
def readExactly (limit : Nat) : Nat → Nat → Wire WireByte PyErr →
    Recorder (Except (Ending PyErr) (List WireByte) × Wire WireByte PyErr)
  | _, 0, w => pure (.ok [], w)
  | 0, _ + 1, w => pure (.error .expired, w)
  | fuel + 1, need + 1, w => do
    match ← recv .recv (min limit (need + 1)) w with
    | (.error e, w') => pure (.error e, w')
    | (.ok items, w') =>
      match ← readExactly limit fuel (need + 1 - items.length) w' with
      | (.error e, w'') => pure (.error e, w'')
      | (.ok rest, w'') => pure (.ok (items ++ rest), w'')

/-- `_recv_n`. -/
def recvN (n : Int) : Recorder Bytes := do
  let _ ← onClient theSock
  onClient (settimeout (1000 * (← get).client.timeout))
  let s ← onClient theSock
  match ← readExactly 65536 n.toNat n.toNat s.wire with
  | (.ok items, w) => do
    onClient (afterRead s items w)
    pure (items.map WireByte.value)
  | (.error e, w) => do
    onClient (afterRead s [] w)
    throw (endingError s.timeout e)

/-- The loop of `_recv_until_timeout`. -/
def readUntilSilence (limit gap : Nat) : Nat → Wire WireByte PyErr →
    Recorder ((List WireByte × Ending PyErr) × Wire WireByte PyErr)
  | 0, w => pure (([], .expired), w)
  | fuel + 1, w => do
    match ← recv (.further gap) limit w with
    | (.error e, w') => pure (([], e), w')
    | (.ok items, w') =>
      let r ← readUntilSilence limit gap fuel w'
      pure ((items ++ r.1.1, r.1.2), r.2)

/-- `_recv_until_timeout`. -/
def recvUntilTimeout (gap : Nat) : Recorder Bytes := do
  let _ ← onClient theSock
  onClient (settimeout (1000 * (← get).client.timeout))
  let s ← onClient theSock
  match ← recv .recv 65536 s.wire with
  | (.error e, w) => do
    onClient (afterRead s [] w)
    onClient (passTimeout s.timeout e)
    pure []
  | (.ok chunk, w) => do
    onClient (putSock { s with timeout := gap })
    let ((extra, e), w) ← readUntilSilence 65536 gap (w.contents.length + 1) w
    onClient (afterRead { s with timeout := gap } (chunk ++ extra) w)
    onClient (passTimeout gap e)
    pure ((chunk ++ extra).map WireByte.value)

end Recorder

/-! ### Recorded methods -/

/-- `m'` is the recorded run of `m`: both are made in the same way of the functions that touch
the socket. -/
inductive Records : ∀ {α : Type}, Recorder α → Client α → Prop
  | pure {α : Type} (a : α) : Records (pure a) (pure a)
  | throw {α : Type} (e : PyErr) : Records (throw e : Recorder α) (throw e)
  | ofExcept {α : Type} (r : Except PyErr α) : Records (Prog.ofExcept r) (Prog.ofExcept r)
  | bind {α β : Type} {m' : Recorder α} {m : Client α} {f' : α → Recorder β} {f : α → Client β} :
      Records m' m → (∀ a, Records (f' a) (f a)) → Records (m' >>= f') (m >>= f)
  | connect (outcome : Except PyErr Endpoint) :
      Records (Recorder.connect outcome) (SocketServerClient.connect outcome)
  | close : Records (Recorder.onClient (modify SocketServerClient.close))
      (modify SocketServerClient.close)
  | send (datatype : Nat) (payload : Bytes) :
      Records (Recorder.send datatype payload) (SocketServerClient.send datatype payload)
  | sendRaw (msg : Bytes) (exchange : Exchange) :
      Records (Recorder.sendRaw msg exchange) (SocketServerClient.sendRaw msg exchange)
  | recvN (n : Int) : Records (Recorder.recvN n) (SocketServerClient.recvN n)
  | recvUntilTimeout (gap : Nat) :
      Records (Recorder.recvUntilTimeout gap) (SocketServerClient.recvUntilTimeout gap)

/-- The recorded runs of the method `m`. -/
def Recording {α : Type} (m : Client α) : Type := { m' : Recorder α // Records m' m }

namespace Recording

variable {α β : Type} {m : Client α}

/-- A value. -/
protected def pure (a : α) : Recording (pure a : Client α) := ⟨_, .pure a⟩

/-- An exception. -/
protected def throw (e : PyErr) : Recording (throw e : Client α) := ⟨_, .throw e⟩

/-- A value or an exception. -/
def ofExcept (r : Except PyErr α) : Recording (Prog.ofExcept r : Client α) := ⟨_, .ofExcept r⟩

/-- One method after another. -/
protected def bind {f : α → Client β} (hm : Recording m) (hf : ∀ a, Recording (f a)) :
    Recording (m >>= f) := ⟨_, .bind hm.2 fun a => (hf a).2⟩

/-- A method of which only the effect is of interest. -/
def effect (hm : Recording m) : Recording (m >>= fun _ => pure ()) := hm.bind fun _ => .pure ()

/-- `_send`. -/
def send (datatype : Nat) (payload : Bytes) : Recording (SocketServerClient.send datatype payload) :=
  ⟨_, .send datatype payload⟩

/-- `_recv_n`. -/
def recvN (n : Int) : Recording (SocketServerClient.recvN n) := ⟨_, .recvN n⟩

/-- `_recv_until_timeout`. -/
def recvUntilTimeout (gap : Nat) : Recording (SocketServerClient.recvUntilTimeout gap) :=
  ⟨_, .recvUntilTimeout gap⟩

variable (rt : Runtime)

/-- `recv_json`. -/
def recvJson : Recording (SocketServerClient.recvJson rt) :=
  (recvUntilTimeout 500).bind fun _ => ofExcept _

/-- `recv_gzip_response`. -/
def recvGzipResponse : Recording (SocketServerClient.recvGzipResponse rt) :=
  (recvN 4).bind fun _ => (recvN _).bind fun _ => (ofExcept _).bind fun _ => ofExcept _

/-- `recv_file_response`. -/
def recvFileResponse (gzipDecompress : Bool) :
    Recording (SocketServerClient.recvFileResponse rt gzipDecompress) :=
  (recvN 8).bind fun _ => (recvN _).bind fun _ =>
    match gzipDecompress with
    | true => (ofExcept _).bind fun _ => .pure _
    | false => .pure _

/-- `recv_inline_text`. -/
def recvInlineText (timeout : Nat) : Recording (SocketServerClient.recvInlineText timeout) :=
  recvUntilTimeout timeout

/-- `recv_lenprefixed_json`. -/
def recvLenprefixedJson : Recording (SocketServerClient.recvLenprefixedJson rt) :=
  (recvN 4).bind fun _ => (recvN _).bind fun _ => ofExcept _

/-- `version`. -/
def version : Recording (SocketServerClient.version rt) :=
  (send 14 []).bind fun _ => recvJson rt

/-- `isfile` and `isdir`. -/
def probePath (datatype : Nat) (field path : String) :
    Recording (SocketServerClient.probePath rt datatype field path) :=
  (send _ _).bind fun _ => (recvJson rt).bind fun _ => ofExcept _

/-- `isfile`. -/
def isfile (path : String) : Recording (SocketServerClient.isfile rt path) := probePath rt _ _ _

/-- `isdir`. -/
def isdir (path : String) : Recording (SocketServerClient.isdir rt path) := probePath rt _ _ _

/-- `pcap_flow_extract`. -/
def pcapFlowExtract (pcapDir : String) : Recording (SocketServerClient.pcapFlowExtract rt pcapDir) :=
  (send _ _).bind fun _ => recvLenprefixedJson rt

/-- `cmd_exec`. -/
def cmdExec (args : String) (cwd : Option String) (env : Option Json) (wait : Bool) :
    Recording (SocketServerClient.cmdExec rt args cwd env wait) :=
  (send _ _).bind fun _ => (recvGzipResponse rt).bind fun _ => .pure _

/-- A choice between two programs. -/
protected def ite {c : Prop} [Decidable c] {m' : Client α} (ht : Recording m) (hf : Recording m') :
    Recording (if c then m else m') :=
  ⟨if c then ht.1 else hf.1, by
    split
    · exact ht.2
    · exact hf.2⟩

/-- `capture_start`. -/
def captureStart (eth path : Option String) (extended : String) (singleQueue : Bool) :
    Recording (SocketServerClient.captureStart rt eth path extended singleQueue) :=
  (send _ _).bind fun _ => (recvJson rt).bind fun _ =>
    .ite (.pure _) ((ofExcept _).bind fun _ => .pure _)

/-- `capture_stop`. -/
def captureStop (path : String) : Recording (SocketServerClient.captureStop rt path) :=
  (send _ _).bind fun _ => (recvJson rt).bind fun _ => .pure _

/-- `boce_run`. -/
def boceRun (url : String) (count interval threadCount timeout : Int) (mode : String)
    (chromiumPath : Option String) : Recording
    (SocketServerClient.boceRun rt url count interval threadCount timeout mode chromiumPath) :=
  (send _ _).bind fun _ => (recvLenprefixedJson rt).bind fun _ =>
    .ite ((ofExcept _).bind fun _ => .throw _) (.pure _)

/-- `replay_run`. -/
def replayRun (pcaps : List String) (uplinkIface downlinkIface : String) (o : ReplayOptions) :
    Recording (SocketServerClient.replayRun rt pcaps uplinkIface downlinkIface o) :=
  (send _ _).bind fun _ => (recvJson rt).bind fun _ =>
    .ite ((ofExcept _).bind fun _ => .throw _) (.pure _)

/-- `listen_start`. -/
def listenStart (listenPort : Int) : Recording (SocketServerClient.listenStart rt listenPort) :=
  (send _ _).bind fun _ => (recvJson rt).bind fun _ => (ofExcept _).bind fun _ =>
    .ite (.pure _) (.throw _)

/-- The requests that are answered with `ok`. -/
def listenCommand (datatype : Nat) (payload : Bytes) (action : String) :
    Recording (SocketServerClient.listenCommand rt datatype payload action) :=
  (send _ _).bind fun _ => (recvUntilTimeout 500).bind fun _ =>
    .ite (.pure _) ((ofExcept _).bind fun _ => .throw _)

/-- `listen_clean`. -/
def listenClean : Recording (SocketServerClient.listenClean rt) := listenCommand rt _ _ _

/-- `listen_stop`. -/
def listenStop : Recording (SocketServerClient.listenStop rt) := listenCommand rt _ _ _

/-- `listen_save`. -/
def listenSave (file : String) : Recording (SocketServerClient.listenSave rt file) :=
  .ite (.throw _) (listenCommand rt _ _ _)

/-- `listen_fetch`. -/
def listenFetch : Recording (SocketServerClient.listenFetch rt) :=
  (send _ _).bind fun _ => (recvN 8).bind fun _ =>
    .ite ((recvUntilTimeout 500).bind fun _ => (ofExcept _).bind fun _ => .throw _)
      ((recvN _).bind fun _ => ofExcept _)

/-- `upgrade_apply`. -/
def upgradeApply (version sha256 : String) (force : Bool) :
    Recording (SocketServerClient.upgradeApply rt version sha256 force) :=
  (send _ _).bind fun _ => (recvJson rt).bind fun
    | .obj _ => .pure _
    | .null | .bool _ | .int _ | .float _ | .str _ | .arr _ => .pure _

end Recording

end McpSocketServer
