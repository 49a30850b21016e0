import McpSocketServer.Registry

/-!
# The tool `file_transfer` (`server.py`)

The tool makes no call over the network: it resolves the targets and writes a download and an
upload command for each of them. The host of a target is cut out of it by a splitter of its
own, after `Registry.resolve` has cut it by another.
-/

namespace McpSocketServer

/-- `t.split("]:", 1)[0]` where `"]:"` occurs in `t`. -/
def beforeClose : List Char → Option (List Char)
  | [] => none
  | c :: cs =>
    if c = ']' ∧ cs.head? = some ':' then some [] else (beforeClose cs).map (c :: ·)

/-- The host of a resolved target in `file_transfer`. -/
def fileHost (t : String) : String :=
  match (if startsWith '[' t then beforeClose t.toList else none) with
  | some inner => String.ofList (inner.dropWhile (· == '['))
  | none =>
    if t.toList.count ':' = 1 ∧ isdigit (afterLast ':' t) = true then beforeLast ':' t else t

/-- `f"[{host}]" if ":" in host else host`. -/
def urlHost (host : String) : String :=
  if ':' ∈ host.toList then "[" ++ host ++ "]" else host

/-- The command in the field `download`. -/
def downloadLine (authority : String) (httpPort : Int) : String :=
  "curl -o 本地文件 \"http://" ++ authority ++ ":" ++ toString httpPort ++
    "/files?path=<远端绝对路径>\""

/-- The command in the field `upload`. -/
def uploadLine (authority : String) (httpPort : Int) : String :=
  "curl -F \"path=<远端绝对路径>\" -F \"file=@本地文件\" http://" ++ authority ++ ":" ++
    toString httpPort ++ "/files"

/-- The entry of `commands` for a resolved target. -/
def transferCommand (httpPort : Int) (t : String) : Json :=
  .obj [("target", .str t), ("download", .str (downloadLine (urlHost (fileHost t)) httpPort)),
    ("upload", .str (uploadLine (urlHost (fileHost t)) httpPort))]

/-- `server.file_transfer`. -/
def fileTransfer (registry : Option Registry) (targets : List String) (httpPort : Int) : Json :=
  match (resolveTargets registry targets).map (transferCommand httpPort) with
  | [] => .obj [("ok", .int 0), ("note", .str "无已注册靶机,先 add_target 注册再用"),
    ("usage", .arr
      [.str "下载: curl -o 本地文件 \"http://<靶机IP>:9001/files?path=<远端绝对路径>\"",
        .str ("上传: curl -F \"path=<远端绝对路径>\" -F \"file=@本地文件\" " ++
          "http://<靶机IP>:9001/files")])]
  | cmds => .obj [("ok", .int cmds.length), ("commands", .arr cmds)]

end McpSocketServer
