import McpSocketServer.Target.Handler
import McpSocketServer.SocketClient

/-!
# File sessions (`tests/test_socket_client.py`)

A client and a target joined by a transport that cuts every frame into chunks and paces every
answer. Over one connection the client uploads and downloads files and asks for them, by the
frames of the tests. `FileOp.run` says what the operations are for.
-/

namespace McpSocketServer

open Framing

/-- How the `n`-th frame is cut for the target, and how the answer to it arrives. -/
structure Transport where
  cut : Nat → Bytes → List Bytes
  pace : Nat → Bytes → Wire UInt8 PyErr

/-- What comes back for the body of the `n`-th frame of a connection. -/
abbrev Link := Nat → Bytes → Exchange

/-- The body that `_send` frames. -/
def Request.body (r : Request) : Bytes := packLE 4 r.datatype ++ r.payload

/-- The peer of a client at this link. -/
def Link.endpoint (l : Link) : Endpoint := fun n r => l n r.body

namespace Connection

variable {σ : Type} (rt : TargetRuntime) (onData : OnData σ) (net : Transport)

/-- The `n`-th frame arrives. -/
def arrive (n : Nat) (t : Connection σ) (body : Bytes) :
    Connection σ × Option (Assembly UInt8) :=
  handle rt onData t (net.cut n (wireFraming.encode body))

/-- The answer on its way to the client; a closed connection ends the stream. -/
def respond (n : Nat) (t : Connection σ) (body : Bytes) : Exchange :=
  match arrive rt onData net n t body with
  | (_, none) => { reply := [.eof] }
  | (t', some _) => { reply := net.pace n (t'.sent.drop t.sent.length).flatten }

/-- The target after frames of which the first is the `n`-th. -/
def afterFrames : Nat → Connection σ → List Bytes → Connection σ
  | _, t, [] => t
  | n, t, body :: bodies => afterFrames (n + 1) (arrive rt onData net n t body).1 bodies

/-- The target `t` at the other end of a connection on which `bodies` are sent. -/
def link (t : Connection σ) (bodies : List Bytes) : Link := fun n body =>
  respond rt onData net n (afterFrames rt onData net 0 t (bodies.take n)) body

end Connection

namespace SocketServerClient

variable (rt : TargetRuntime) (l : Link)

/-- `assert c.recv_inline_text() == …`. -/
def expectAck (text : String) : Client Unit := do
  let b ← recvInlineText 300
  if b = asciiBytes text then pure () else throw ⟨.assertionError, ""⟩

/-- The parameters of request 21. -/
def targetParams (path : String) (gzip : Bool) : Json :=
  .obj [("filepath", .str path), ("gzip", .bool gzip)]

/-- Name the file of an upload or a download. -/
def setTarget (path : String) (gzip : Bool) : Client Unit := do
  send 21 (rt.dumps (targetParams path gzip))
  expectAck "21 ok"

/-- What an upload sends for `content`. -/
def encoded (gzip : Bool) (content : Bytes) : Bytes :=
  if gzip then rt.compress content else content

/-- `_send_raw` over the link. -/
def sendRawOver (msg : Bytes) : Client Unit := do
  let s ← theSock
  sendRaw msg (l s.requests msg)

/-- The upload 21, 22, raw content, 24. -/
def upload (path : String) (gzip : Bool) (content : Bytes) : Client Unit := do
  setTarget rt path gzip
  send 22 (packLE 8 (encoded rt gzip content).length)
  expectAck "22 ok"
  sendRawOver l (encoded rt gzip content)
  expectAck "23 ok"
  send 24 []
  expectAck "24 ok"

/-- The download 21, 3. -/
def download (path : String) (gzip : Bool) : Client Bytes := do
  setTarget rt path gzip
  send 3 (rt.dumps (.obj [("gzip", .bool gzip)]))
  let answer ← recvFileResponse rt.toRuntime gzip
  pure answer.2

end SocketServerClient

/-- An operation on a file of the target. -/
inductive FileOp where
  | upload (path : String) (gzip : Bool) (content : Bytes)
  | download (path : String) (gzip : Bool)
  | isfile (path : String)

/-- What an operation returns. -/
inductive FileAnswer where
  | stored
  | content (b : Bytes)
  | found (j : Json)

namespace FileOp

variable (rt : TargetRuntime) (l : Link)

open SocketServerClient in
/-- An operation over a connection. -/
def perform : FileOp → Client FileAnswer
  | .upload path gzip content => do
    SocketServerClient.upload rt l path gzip content
    pure .stored
  | .download path gzip => do
    let b ← SocketServerClient.download rt path gzip
    pure (.content b)
  | .isfile path => do
    let j ← SocketServerClient.isfile rt.toRuntime path
    pure (.found j)

/-- One operation after another, up to the first that raises. -/
def performAll : List FileOp → Client (List FileAnswer)
  | [] => pure []
  | op :: ops => do
    let a ← op.perform rt l
    let as ← performAll ops
    pure (a :: as)

/-- The bodies of the frames of an operation. -/
def frames : FileOp → List Bytes
  | .upload path gzip content =>
    [Request.body ⟨21, rt.dumps (SocketServerClient.targetParams path gzip)⟩,
      Request.body ⟨22, packLE 8 (SocketServerClient.encoded rt gzip content).length⟩,
      SocketServerClient.encoded rt gzip content, Request.body ⟨24, []⟩]
  | .download path gzip =>
    [Request.body ⟨21, rt.dumps (SocketServerClient.targetParams path gzip)⟩,
      Request.body ⟨3, rt.dumps (.obj [("gzip", .bool gzip)])⟩]
  | .isfile path => [Request.body ⟨7, rt.dumps (.obj [("file", .str path)])⟩]

/-- What an operation is for: the files of the target as a map from path strings to contents, where
two strings are two files. An upload of the two bytes `^$` stores the empty file. -/
def run (disk : Disk) : FileOp → Except PyErr FileAnswer × Disk
  | .upload path _ content =>
    match disk.write (.str path) (unmarkEmpty content) with
    | some disk' => (.ok .stored, disk')
    | none => (.error ⟨.assertionError, ""⟩, disk)
  | .download path _ =>
    match disk.files path with
    | some content => (.ok (.content content), disk)
    | none => (.error ⟨.connectionError, "连接在读取完成前关闭"⟩, disk)
  | .isfile path => (.ok (.found (.bool (disk.files path).isSome)), disk)

/-- One operation after another on the map, up to the first that fails. -/
def runAll : Disk → List FileOp → Except PyErr (List FileAnswer) × Disk
  | disk, [] => (.ok [], disk)
  | disk, op :: ops =>
    match op.run disk with
    | (.error e, disk') => (.error e, disk')
    | (.ok a, disk') => ((runAll disk' ops).1.map (a :: ·), (runAll disk' ops).2)

end FileOp

end McpSocketServer
