import McpSocketServer.Server.TargetTools
import McpSocketServer.Server.Tools

/-!
# Calls over the life of a listener (`server.socket_listen`)

The registry keeps a flag for the listener of a target, and the listener itself runs on the
target. This is the system of any calls of the tools, of `add_target` and `remove_target`, and of
restarts of the service of a target, which drop its listener and of which the server does not
learn. A call works on a client of its target in any state, so that a target may answer
anything. A target that accepts an upgrade restarts some time later.
-/

namespace McpSocketServer

open SocketServerClient

/-- What `stop` receives from the target. -/
def stopAnswer (c : SocketServerClient) : Except PyErr Bytes :=
  ((send 175 [] >>= fun _ => recvOk : Client Bytes).exec c).1

/-- The target says that no listener runs any more: with `ok`, or with an error that stands for a
listener which has not been started. -/
def saysStopped (rt : Runtime) (noneStarted : Json → Bool) (c : SocketServerClient) : Bool :=
  match stopAnswer c with
  | .ok resp => resp == okBytes ||
    match decodeListenError rt resp with
    | .ok msg => noneStarted msg
    | .error _ => false
  | .error _ => false

/-- The registry, the listeners on the targets, and what the targets have said of them. -/
structure ListenState where
  registry : Registry
  /-- The listeners that run. No step reads them. -/
  listening : String × Int → Bool := fun _ => false
  /-- The targets that have said that no listener runs, when they were registered, and that have
  not been told to start one since. No step reads them. -/
  stopped : String × Int → Bool := fun _ => false

/-- A registration, a removal, a tool call that has borrowed a client, or a restart of a target. -/
inductive ListenStep where
  | addTarget (host : String) (port : Int) (tags : Option (List String)) (note : String)
      (force : Bool) (probe : Except PyErr Unit) (createdAt : String)
  | removeTarget (host : String) (port : Int) (lockManager : Option LockManager)
  | call (call : ToolCall) (port : Int) (client : SocketServerClient)
  | restart (host : String) (port : Int)

namespace ListenState

/-- The listeners after a call. -/
def listeningAfter (rt : Runtime) (noneStarted : Json → Bool) (s : ListenState) (call : ToolCall)
    (port : Int) (c : SocketServerClient) (outcome : Except PyErr PyVal) : String × Int → Bool :=
  match call, outcome with
  | .listenStart _, .ok _ => Function.update s.listening (c.host, port) true
  | .listenStop, _ =>
    if saysStopped rt noneStarted c then Function.update s.listening (c.host, port) false
    else s.listening
  | _, _ => s.listening

/-- The targets that have said that no listener runs, after a call. -/
def stoppedAfter (rt : Runtime) (noneStarted : Json → Bool) (s : ListenState) (call : ToolCall)
    (port : Int) (c : SocketServerClient) : String × Int → Bool :=
  match call with
  | .listenStart _ => Function.update s.stopped (c.host, port) false
  | .listenStop =>
    if saysStopped rt noneStarted c && (s.registry.find c.host port).isSome then
      Function.update s.stopped (c.host, port) true
    else s.stopped
  | _ => s.stopped

/-- One step of the server or of a target. -/
def step (rt : Runtime) (noneStarted : Json → Bool) (s : ListenState) :
    ListenStep → Option ListenState
  | .addTarget host port tags note force probe createdAt =>
    (addTargetTool (some s.registry) host port tags note force probe createdAt).2.map
      fun registry => { s with registry := registry }
  | .removeTarget host port lockManager =>
    (removeTargetTool (some s.registry) lockManager host port).2.map
      fun registry => { s with registry := registry }
  | .call call port c =>
    let r := (call.fn rt port).exec ⟨c, some s.registry⟩
    r.2.registry.map fun registry =>
      { registry := registry
        listening := s.listeningAfter rt noneStarted call port c r.1
        stopped := s.stoppedAfter rt noneStarted call port c }
  | .restart host port =>
    some { s with listening := Function.update s.listening (host, port) false }

end ListenState

end McpSocketServer
