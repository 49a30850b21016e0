import McpSocketServer.Locks
import McpSocketServer.Registry
import McpSocketServer.Misc.Lts

/-!
# The tools `add_target` and `remove_target` (`server.py`)

Both tools as functions of the module globals they read, and the transition system of the
registry under any sequence of the two. The TCP probe of `add_target` is the outcome that
`socket.create_connection` has.
-/

namespace McpSocketServer

/-- A tool answer `{"ok": False, "error": …}`. -/
def refusal (error : String) : Json := .obj [("ok", .bool false), ("error", .str error)]

/-- `server.add_target`. -/
def addTargetTool (registry : Option Registry) (host : String) (port : Int)
    (tags : Option (List String)) (note : String) (force : Bool) (probe : Except PyErr Unit)
    (createdAt : String) : Except PyErr Json × Option Registry :=
  let hostClean := stripBrackets host
  let register : Except PyErr Json × Option Registry :=
    match registry with
    | none => (.ok (refusal "注册表未初始化"), none)
    | some reg =>
      let (reply, reg) := reg.addTarget hostClean port tags note createdAt
      (.ok reply, some reg)
  if force then register
  else
    match probe with
    | .ok () => register
    | .error e =>
      if e.isOSError then
        (.ok (refusal (host ++ ":" ++ toString port ++ " 不可达(TCP connect 失败: " ++ e.message ++
          ")，未注册；force=True 可强制注册")), registry)
      else (.error e, registry)

/-- `server.remove_target`. -/
def removeTargetTool (registry : Option Registry) (lockManager : Option LockManager)
    (host : String) (port : Int) : Except PyErr Json × Option Registry :=
  match registry with
  | none => (.ok (refusal "注册表未初始化"), none)
  | some reg =>
    if (lockManager.map fun lm => lm.hasActive host).getD false then
      (.ok (refusal ("靶机 " ++ host ++ " 有活跃锁，无法移除")), some reg)
    else
      match reg.getListenLiveness host port with
      | .error e => (.error e, some reg)
      | .ok true =>
        (.ok (refusal ("靶机 " ++ host ++ " 有活跃监听，请先 socket_listen action=stop")), some reg)
      | .ok false =>
        let (reply, reg) := reg.removeTarget host port
        (reply, some reg)

/-- One call of the two tools, with what the environment contributes to it. -/
inductive TargetCall where
  | add (host : String) (port : Int) (tags : Option (List String)) (note : String) (force : Bool)
      (probe : Except PyErr Unit) (createdAt : String)
  | remove (host : String) (port : Int) (lockManager : Option LockManager)

/-- The registry after a call. -/
def TargetCall.perform (reg : Registry) : TargetCall → Option Registry
  | .add host port tags note force probe createdAt =>
    (addTargetTool (some reg) host port tags note force probe createdAt).2
  | .remove host port lockManager => (removeTargetTool (some reg) lockManager host port).2

/-- The registries under any sequence of `add_target` and `remove_target` calls. -/
def registryLts : Lts Registry TargetCall where
  init reg := reg = Registry.empty
  step reg call := call.perform reg

end McpSocketServer
