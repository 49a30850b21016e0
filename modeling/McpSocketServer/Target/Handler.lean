import McpSocketServer.Misc.Framing
import McpSocketServer.Python.Runtime
import Mathlib.Logic.Function.Basic

/-!
# The target's side of a connection (`tests/mock_socket_server.py`)

One connection reads frames and answers each of them. The file datatypes drive a small state
machine: 21 names a file, 22 announces the length of an upload, every frame after it is raw
content until that length has come, and 24 writes what has come to the named file. Its state is
that of the connection; the files are shared.

What the target makes of the datatypes without a file is a parameter, with a state of its own.
Two path strings name two files; an integer in the place of a path is a file descriptor to Python,
and what it leads to is for the environment to say.
-/

namespace McpSocketServer

/-- The codecs of the target. -/
structure TargetRuntime extends Runtime where
  /-- `gzip.compress(b)`. -/
  compress : Bytes → Bytes

/-- The frames of the protocol: the format `i` and a body. -/
def wireFraming : Framing UInt8 where
  width := 4
  pack := packLE 4
  unpack := unpackInt

/-- What `open` and `os.path` make of file descriptors. A write gives the files after it. Whether
a descriptor is open is not followed. -/
structure Descriptors where
  read : Int → Option Bytes := fun _ => none
  write : Int → Bytes → (String → Option Bytes) → Option (String → Option Bytes) :=
    fun _ _ _ => none
  isfile : Int → Bool := fun _ => false
  isdir : Int → Bool := fun _ => false

/-- The files of the target under the path strings that name them. Two strings are two files. -/
structure Disk where
  files : String → Option Bytes
  dirs : String → Bool
  /-- Where `open(path, "wb")` succeeds. -/
  writable : String → Bool
  descriptors : Descriptors := {}

/-- The attributes that `_Handler.setup` gives a connection. -/
structure Handler where
  filepath : Json := .str "tmp"
  content : Bytes := []
  length : Nat := 0
  binRecvFlag : Bool := false
  gzip : Json := .bool false

/-- What a frame leads to: the connection is closed, or an answer is sent, or none. -/
inductive Reply where
  | closes
  | silent
  | answers (b : Bytes)
  deriving DecidableEq, Repr

/-- What follows an answer of `_on_data`, whose exceptions close the connection. -/
def Reply.ofAnswer : Option Bytes → Reply
  | none => .closes
  | some b => .answers b

/-- A connection with the files of its target, the target's state beyond the files, and the
answers sent. -/
structure Connection (σ : Type) where
  handler : Handler := {}
  disk : Disk
  server : σ
  sent : List Bytes := []

/-- The file descriptor for which Python takes an integer or a Boolean in the place of a path. -/
def descriptor? : Json → Option Int
  | .int n => some n
  | .bool b => some (if b then 1 else 0)
  | _ => none

/-- `os.path.isfile` and `os.path.isdir`, which raise for what cannot be a path. -/
def askDisk (ask : String → Bool) (askDescriptor : Int → Bool) : Json → Option Bool
  | .str p => some (ask p)
  | j => (descriptor? j).map askDescriptor

/-- `open(path, "rb").read()`. -/
def Disk.read (disk : Disk) : Json → Option Bytes
  | .str p => disk.files p
  | j => (descriptor? j).bind disk.descriptors.read

/-- `open(path, "wb")` and a write. -/
def Disk.write (disk : Disk) (path : Json) (content : Bytes) : Option Disk :=
  match path with
  | .str p =>
    if disk.writable p then some { disk with files := Function.update disk.files p (some content) }
    else none
  | j =>
    (descriptor? j).bind fun n =>
      (disk.descriptors.write n content disk.files).map fun files => { disk with files := files }

/-- `if content == b"^$": content = b""`. -/
def unmarkEmpty (content : Bytes) : Bytes := if content = [94, 36] then [] else content

namespace Connection

variable {σ : Type} (rt : TargetRuntime)

/-- `self.request.sendall` of a short text, after the state has been set. -/
def ack (c : Connection σ) (handler : Handler) (text : String) : Connection σ × Reply :=
  ({ c with handler := handler }, .answers (asciiBytes text))

/-- Datatype 21. -/
def onPath (c : Connection σ) (data : Bytes) : Connection σ × Reply :=
  match rt.loadsBytes data with
  | .ok (.obj info) =>
    c.ack { c.handler with
      filepath := fieldD info "filepath" (.str "tmp")
      gzip := fieldD info "gzip" (.bool false) } "21 ok"
  | _ => (c, .closes)

/-- Datatype 22. -/
def onLength (c : Connection σ) (data : Bytes) : Connection σ × Reply :=
  if data.length = 8 then
    c.ack { c.handler with length := unpackLE data, content := [], binRecvFlag := true } "22 ok"
  else (c, .closes)

/-- Datatype 23. While `bin_recv_flag` is set every frame is of this datatype and carries none. -/
def onContent (c : Connection σ) (data : Bytes) : Connection σ × Reply :=
  let content := c.handler.content ++ data
  if content.length = c.handler.length then
    c.ack { c.handler with content := content, binRecvFlag := false } "23 ok"
  else if c.handler.length < content.length then
    ({ c with handler := { c.handler with content := content, binRecvFlag := false } }, .closes)
  else ({ c with handler := { c.handler with content := content } }, .silent)

/-- What is written for the collected content. -/
def received (handler : Handler) : Except PyErr Bytes :=
  (if handler.gzip.truthy then rt.decompress handler.content else .ok handler.content).map
    unmarkEmpty

/-- Datatype 24. -/
def onWrite (c : Connection σ) : Connection σ × Reply :=
  match received rt c.handler with
  | .error _ => (c, .closes)
  | .ok content =>
    match c.disk.write c.handler.filepath content with
    | none => (c, .closes)
    | some disk => { c with disk := disk }.ack { c.handler with content := [] } "24 ok"

/-- The datatypes of `_on_data` that ask the disk; `none` is an exception. -/
def onFiles (c : Connection σ) (datatype : Int) (data : Bytes) : Option Bytes :=
  if datatype = 3 then do
    let content ← c.disk.read c.handler.filepath
    let info ← (rt.loadsBytes data).toOption
    let gzip ← (info.get "gzip" .null).toOption
    let content := if gzip.truthy then rt.compress content else content
    some (packLE 8 content.length ++ content)
  else do
    let info ← (rt.loadsBytes data).toOption
    let path ← match info with
      | .obj fields => fields.lookup (if datatype = 7 then "file" else "dir")
      | _ => none
    let res ← if datatype = 7 then
        askDisk (fun p => (c.disk.files p).isSome) c.disk.descriptors.isfile path
      else askDisk c.disk.dirs c.disk.descriptors.isdir path
    some (rt.dumps (.obj [("res", .bool res)]))

/-- `_on_data` for the other datatypes: an exception, no answer, or an answer. -/
abbrev OnData (σ : Type) := σ → Int → Bytes → σ × Option (Option Bytes)

variable (onData : OnData σ)

/-- The dispatch of `handle` on the datatype of a frame. -/
def onDatatype (c : Connection σ) (datatype : Int) (data : Bytes) : Connection σ × Reply :=
  if datatype = 21 then onPath rt c data
  else if datatype = 22 then c.onLength data
  else if datatype = 23 then c.onContent data
  else if datatype = 24 then onWrite rt c
  else if datatype = 3 ∨ datatype = 7 ∨ datatype = 8 then
    (c, .ofAnswer (onFiles rt c datatype data))
  else
    ({ c with server := (onData c.server datatype data).1 },
      match (onData c.server datatype data).2 with
      | none => .closes
      | some none => .silent
      | some (some b) => .answers b)

/-- What `handle` makes of the body of a frame. -/
def onFrame (c : Connection σ) (data : Bytes) : Connection σ × Reply :=
  if c.handler.binRecvFlag then c.onContent data
  else if data.length < 4 then (c, .closes)
  else onDatatype rt onData c (unpackInt (data.take 4)) (data.drop 4)

/-- One turn of the loop on a whole frame, and whether the loop goes on. -/
def turn (c : Connection σ) (data : Bytes) : Connection σ × Bool :=
  match onFrame rt onData c data with
  | (c', .closes) => (c', false)
  | (c', .silent) => (c', true)
  | (c', .answers b) => ({ c' with sent := c'.sent ++ [b] }, true)

/-- `handle`: the loop over what `recv` returns. -/
def handle (c : Connection σ) (chunks : List Bytes) : Connection σ × Option (Assembly UInt8) :=
  wireFraming.consume (turn rt onData) {} c chunks

end Connection

end McpSocketServer
