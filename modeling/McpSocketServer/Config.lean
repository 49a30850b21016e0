import McpSocketServer.Misc.Nested
import McpSocketServer.Python.Value

/-!
# The configuration (`config.py`)

`load_config` merges the dictionary of the file into the defaults and lets three environment
variables override what comes out. No value is checked: the record takes what stands under its
keys.
-/

namespace McpSocketServer

/-! ### Merging -/

section Merging

variable {κ α : Type} [DecidableEq κ]

mutual
/-- `_deep_merge`: `out` is the copy of `base`, and the second argument the items of `over` that
are still to be merged. -/
def deepMerge (out : List (κ × Nested κ α)) : List (κ × Nested κ α) → List (κ × Nested κ α)
  | [] => out
  | (k, v) :: overrides => deepMerge (setItem out k (mergedItem (out.lookup k) v)) overrides
/-- The value that a key gets whose value in `over` is given: `old` is `out.get(k)`. -/
def mergedItem (old : Option (Nested κ α)) : Nested κ α → Nested κ α
  | .leaf a => .leaf a
  | .dict items =>
    match old with
    | some (.dict base) => .dict (deepMerge base items)
    | _ => .dict items
end

end Merging

/-! ### The document of the file -/

/-- A key of a YAML mapping. Keys other than texts that are equal share one `other`. -/
inductive YamlKey where
  | str (s : String)
  | other (repr : String)
  deriving DecidableEq

/-- A value of `yaml.safe_load` that is not a dictionary: `other` is a date, bytes or a set, with
the name of its type and its truth value. -/
inductive YamlLeaf where
  | null
  | bool (b : Bool)
  | int (n : Int)
  | float (repr : String)
  | str (s : String)
  | list (items : List (Nested YamlKey YamlLeaf))
  | other (typeName : String) (truth : Bool)

/-- A value of `yaml.safe_load`. -/
abbrev Yaml := Nested YamlKey YamlLeaf

/-- The items of a dictionary with such values. -/
abbrev YamlItems := List (YamlKey × Yaml)

namespace YamlLeaf

/-- The name Python's messages use for the type. -/
def typeName : YamlLeaf → String
  | .null => "NoneType"
  | .bool _ => "bool"
  | .int _ => "int"
  | .float _ => "float"
  | .str _ => "str"
  | .list _ => "list"
  | .other name _ => name

/-- `bool(a)`. -/
def truthy : YamlLeaf → Bool
  | .null => false
  | .bool b => b
  | .int n => n != 0
  | .float r => r != "0.0" && r != "-0.0"
  | .str s => s != ""
  | .list items => !items.isEmpty
  | .other _ truth => truth

/-- The message of the `TypeError` of `a[k]` with a text `k`. -/
def getItemText : YamlLeaf → String
  | .str _ => "string indices must be integers, not 'str'"
  | .list _ => "list indices must be integers or slices, not str"
  | .other "bytes" _ => "byte indices must be integers or slices, not str"
  | a => "'" ++ a.typeName ++ "' object is not subscriptable"

/-- The message of the `TypeError` of `a[k] = v` with a text `k`. -/
def setItemText : YamlLeaf → String
  | .list _ => "list indices must be integers or slices, not str"
  | a => "'" ++ a.typeName ++ "' object does not support item assignment"

end YamlLeaf

/-- `v or {}`. -/
def orEmpty : Yaml → Yaml
  | .leaf a => if a.truthy then .leaf a else .dict []
  | .dict items => .dict items

/-- `v.items()`. -/
def yamlItems : Yaml → Except PyErr YamlItems
  | .leaf a => .error ⟨.attributeError, "'" ++ a.typeName ++ "' object has no attribute 'items'"⟩
  | .dict items => .ok items

/-- `v[k]`. -/
def getKey (v : Yaml) (k : String) : Except PyErr Yaml :=
  match v with
  | .leaf a => .error ⟨.typeError, a.getItemText⟩
  | .dict items =>
    match items.lookup (.str k) with
    | some w => .ok w
    | none => .error ⟨.other, reprStr k⟩

/-- `v[k] = w`. -/
def setKey (v : Yaml) (k : String) (w : Yaml) : Except PyErr Yaml :=
  match v with
  | .leaf a => .error ⟨.typeError, a.setItemText⟩
  | .dict items => .ok (.dict (setItem items (.str k) w))

/-! ### `load_config` -/

/-- `DEFAULTS`. -/
def configDefaults : YamlItems :=
  [(.str "bind", .dict [
      (.str "host", .leaf (.str "0.0.0.0")),
      (.str "port", .leaf (.int 8080))]),
    (.str "db_path", .leaf (.str "./mcp_socket_server.db")),
    (.str "behind_proxy", .leaf (.bool false)),
    (.str "audit_retention_days", .leaf (.int 90)),
    (.str "download_dir", .leaf (.str "./downloads")),
    (.str "proxy", .leaf (.str "")),
    (.str "log_level", .leaf (.str "INFO")),
    (.str "default_timeout", .leaf (.int 30)),
    (.str "pool", .dict [
      (.str "max_conn_per_target", .leaf (.int 5)),
      (.str "idle_timeout", .leaf (.int 600)),
      (.str "borrow_timeout", .leaf (.int 10)),
      (.str "max_global_concurrency", .leaf (.int 50))]),
    (.str "cmd_exec_whitelist", .leaf (.list []))]

/-- `Config`. The annotations of its fields are not checked. -/
structure Config where
  host : Yaml
  port : Yaml
  dbPath : Yaml
  behindProxy : Yaml
  auditRetentionDays : Yaml
  downloadDir : Yaml
  proxy : Yaml
  logLevel : Yaml
  defaultTimeout : Yaml
  pool : Yaml
  cmdExecWhitelist : Yaml

/-- The defaults with the file merged into them. `file` is what `yaml.safe_load` makes of the
file, or what opening and parsing it raises, where there is a file at the path. -/
def mergeFile (file : Option (Except PyErr Yaml)) : Except PyErr YamlItems :=
  match file with
  | none => .ok configDefaults
  | some content => do
    let document ← content
    let overrides ← yamlItems (orEmpty document)
    pure (deepMerge configDefaults overrides)

/-- `os.getenv(name)`, where it is not empty. -/
def envText (env : String → Option String) (name : String) : Option String :=
  (env name).filter (· ≠ "")

/-- `data["bind"][key] = v`. -/
def setBind (data : YamlItems) (key : String) (v : Yaml) : Except PyErr YamlItems := do
  let b ← getKey (.dict data) "bind"
  let b ← setKey b key v
  pure (setItem data (.str "bind") b)

/-- `int(s)`. -/
def envInt (s : String) : Except PyErr Int :=
  match parseInt s with
  | some n => .ok n
  | none => .error (intError s)

/-- `data["bind"]["host"] = …`. -/
def assignHost (text : String) (data : YamlItems) : Except PyErr YamlItems :=
  setBind data "host" (.leaf (.str text))

/-- `data["bind"]["port"] = int(…)`. -/
def assignPort (text : String) (data : YamlItems) : Except PyErr YamlItems := do
  let port ← envInt text
  setBind data "port" (.leaf (.int port))

/-- `data["log_level"] = …`. -/
def assignLogLevel (text : String) (data : YamlItems) : Except PyErr YamlItems :=
  .ok (setItem data (.str "log_level") (.leaf (.str text)))

/-- `if os.getenv(name): …` around an assignment of the text of the variable. -/
def whenSet (env : String → Option String) (name : String)
    (assign : String → YamlItems → Except PyErr YamlItems) (data : YamlItems) :
    Except PyErr YamlItems :=
  match envText env name with
  | some text => assign text data
  | none => .ok data

/-- The three overrides of the environment. -/
def overrideEnv (env : String → Option String) (data : YamlItems) : Except PyErr YamlItems := do
  let data ← whenSet env "MCP_BIND_HOST" assignHost data
  let data ← whenSet env "MCP_BIND_PORT" assignPort data
  whenSet env "MCP_LOG_LEVEL" assignLogLevel data

/-- The record that is made of the data in the end. -/
def readConfig (data : YamlItems) : Except PyErr Config := do
  let b ← getKey (.dict data) "bind"
  let host ← getKey b "host"
  let port ← getKey b "port"
  let dbPath ← getKey (.dict data) "db_path"
  let behindProxy ← getKey (.dict data) "behind_proxy"
  let auditRetentionDays ← getKey (.dict data) "audit_retention_days"
  let downloadDir ← getKey (.dict data) "download_dir"
  let proxy ← getKey (.dict data) "proxy"
  let logLevel ← getKey (.dict data) "log_level"
  let defaultTimeout ← getKey (.dict data) "default_timeout"
  let pool ← getKey (.dict data) "pool"
  let cmdExecWhitelist ← getKey (.dict data) "cmd_exec_whitelist"
  pure { host, port, dbPath, behindProxy, auditRetentionDays, downloadDir, proxy, logLevel,
         defaultTimeout, pool, cmdExecWhitelist }

/-- `load_config`. -/
def loadConfig (file : Option (Except PyErr Yaml)) (env : String → Option String) :
    Except PyErr Config := do
  let data ← mergeFile file
  let data ← overrideEnv env data
  readConfig data

end McpSocketServer
