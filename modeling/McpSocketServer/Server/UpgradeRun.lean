import McpSocketServer.Server.WriteTools

/-!
# One call of `upgrade_run` and its version (`server.py`, `upgrades.py`)

How the version is found, where its binary comes from, and what is pushed to a target and asked
of it. The calls that a worker makes for an upgrade are logged; the program does not read the
log.
-/

namespace McpSocketServer

open SocketServerClient

/-! ### The version of the remote file -/

/-- The group of `VERSION\s*=\s*"([^"]+)"` where the pattern matches at the beginning. -/
def matchVersion (cs : List Char) : Option (List Char) :=
  if "VERSION".toList.isPrefixOf cs then
    match (cs.drop 7).dropWhile (inRanges spaceRanges) with
    | '=' :: cs =>
      match cs.dropWhile (inRanges spaceRanges) with
      | '\x22' :: cs =>
        let group := cs.takeWhile (· != '\x22')
        if group ≠ [] ∧ group.length < cs.length then some group else none
      | _ => none
    | _ => none
  else none

/-- `re.search` of the pattern: the group of the leftmost match. -/
def searchVersion (text : String) : Option String :=
  (text.toList.tails.findSome? matchVersion).map String.ofList

example : searchVersion "OLD_VERSION = ''\nVERSION= \"1.8.0\"\n" = some "1.8.0" := by decide

/-- `fetch_latest_version`: `page` is the text of the remote file, or what the request raises. -/
def fetchLatestVersion (page : Except PyErr String) : Option String :=
  match page with
  | .ok text => searchVersion text
  | .error _ => none

/-! ### The release binary -/

/-- `os.path.join(dir, name)`. -/
def pathJoin (dir name : String) : String :=
  if startsWith '/' name then name
  else if dir = "" ∨ dir.toList.getLast? = some '/' then dir ++ name
  else dir ++ "/" ++ name

/-- The directory of a version: `os.path.join(download_dir, "socket_server", f"v{version}")`. -/
def releaseDir (downloadDir version : String) : String :=
  pathJoin (pathJoin downloadDir "socket_server") ("v" ++ version)

/-- `s.split()[0]`. -/
def firstWord (s : String) : Except PyErr String :=
  match (s.toList.dropWhile (inRanges spaceRanges)).takeWhile fun c => !inRanges spaceRanges c with
  | [] => .error ⟨.other, "list index out of range"⟩
  | cs => .ok (String.ofList cs)

/-- What the server meets outside of itself when it fetches a release: the remote file with the
version, its directory, the release server and the hash function. -/
structure ReleaseSite where
  page : Except PyErr String
  downloadDir : String
  /-- The files that exist and are executable, with what reading them gives. -/
  executable : String → Option (Except PyErr Bytes)
  makedirs : String → Except PyErr Unit
  /-- `httpx.get` with `raise_for_status`: the content and the text of a URL. -/
  content : String → Except PyErr Bytes
  text : String → Except PyErr String
  /-- Writing the temporary file, making it executable and renaming it to the path. -/
  save : String → Bytes → Except PyErr Unit
  sha256 : Bytes → String

/-- The `try` block of `ensure_release_binary`: the hash of the download, or the reason why it
is not taken. -/
def downloadRelease (site : ReleaseSite) (version vdir binary : String) :
    Except PyErr (Except String String) := do
  let base := "https://github.com/weihang1258/socket_server/releases/download/v" ++ version
  site.makedirs vdir
  let content ← site.content (base ++ "/socket_server")
  let published ← site.text (base ++ "/socket_server.sha256")
  let expected ← firstWord (strip published)
  let actual := site.sha256 content
  if actual ≠ expected then
    pure (.error ("下载校验失败: 期望 " ++ expected ++ ", 实际 " ++ actual))
  else do
    site.save binary content
    pure (.ok actual)

/-- `ensure_release_binary`: the path and the hash, or `None` and a reason. -/
def ensureReleaseBinary (site : ReleaseSite) (version : String) :
    Except PyErr (Option String × String) :=
  let version := stripVersion version
  if versionOk version then
    let vdir := releaseDir site.downloadDir version
    let binary := pathJoin vdir "socket_server"
    match site.executable binary with
    | some content => content.map fun content => (some binary, site.sha256 content)
    | none =>
      match downloadRelease site version vdir binary with
      | .ok (.ok sha) => .ok (some binary, sha)
      | .ok (.error reason) => .ok (none, reason)
      | .error e => .ok (none, "下载 v" ++ version ++ " 失败: " ++ e.message)
  else .ok (none, "版本号非法: " ++ reprStr version)

/-- What `upgrade_run` has found out before it contacts a target. -/
structure UpgradePlan where
  ver : String
  binary : String
  sha : String

/-- `upgrade_run` up to the download, where it gets past it. -/
def upgradePlan (site : ReleaseSite) (version : String) : Option UpgradePlan :=
  match chooseVersion version (fetchLatestVersion site.page) with
  | .error _ => none
  | .ok ver =>
    match ensureReleaseBinary site ver with
    | .ok (some binary, sha) => some ⟨ver, binary, sha⟩
    | _ => none

/-! ### The push -/

/-- A `POST` of a file to the file service of a target. -/
structure PushRequest where
  url : String
  path : String
  fileName : String
  content : Bytes

/-- The file system of the server, and what the answer to a `POST` contains as JSON. -/
structure PushSite where
  read : String → Except PyErr Bytes
  post : PushRequest → Except PyErr Json

/-- The place on the target to which a version is pushed. -/
def stagingPath (version : String) : String :=
  "/opt/socket/versions/" ++ version ++ "/.staging/socket_server"

/-- The URL of the file service of a host. -/
def filesUrl (host : String) (httpPort : Int) : String :=
  let host := if ':' ∈ host.toList ∧ startsWith '[' host = false then "[" ++ host ++ "]" else host
  "http://" ++ host ++ ":" ++ toString httpPort ++ "/files"

/-- `push_binary`. -/
def pushBinary (site : PushSite) (host binaryPath version : String) (httpPort : Int := 9001) :
    Bool × String :=
  let pushed : Except PyErr (Json × Json) := do
    let content ← site.read binaryPath
    let data ← site.post
      { url := filesUrl host httpPort
        path := stagingPath version
        fileName := String.ofList (afterLast '/' binaryPath)
        content := content }
    let ok ← data.get "ok" .null
    pure (data, ok)
  match pushed with
  | .ok (data, ok) =>
    if ok.truthy then (true, stagingPath version) else (false, "推送失败: " ++ data.toStr)
  | .error e => (false, "推送失败（需靶机 1.7.0+ 开启 :9001）: " ++ e.message)

/-! ### A worker of an upgrade -/

/-- A call that a worker makes with a version, and what it returns or raises. -/
inductive UpgradeEvent where
  | pushBinary (host binary version : String) (answer : Bool × String)
  | upgradeApply (host version sha : String) (answer : Except PyErr Json)

/-- The version argument of a call. -/
def UpgradeEvent.version : UpgradeEvent → String
  | .pushBinary _ _ version _ => version
  | .upgradeApply _ version _ _ => version

/-- The client of a worker and the calls that the worker has made. -/
structure UpgradeState where
  client : SocketServerClient
  log : List UpgradeEvent := []

/-- The part of a worker of `upgrade_run` that pushes, with its log. -/
abbrev Upgrading := Prog PyErr UpgradeState

/-- A method of the client that is not logged. -/
def Upgrading.onClient {α : Type} (m : Client α) : Upgrading α :=
  Prog.zoom UpgradeState.client (fun c s => { s with client := c }) m

/-- `push_binary(client.host, binary, ver)`. -/
def Upgrading.push (site : PushSite) (plan : UpgradePlan) : Upgrading (Bool × String) := do
  let s ← get
  let answer := pushBinary site s.client.host plan.binary plan.ver
  set (UpgradeState.mk s.client (s.log ++
    [UpgradeEvent.pushBinary s.client.host plan.binary plan.ver answer]))
  pure answer

/-- `client.upgrade_apply(ver, sha, force)`. -/
def Upgrading.apply (rt : Runtime) (plan : UpgradePlan) (force : Bool) :
    Upgrading Json := do
  let s ← get
  let (answer, client) := (upgradeApply rt plan.ver plan.sha force).exec s.client
  set (UpgradeState.mk client (s.log ++
    [UpgradeEvent.upgradeApply s.client.host plan.ver plan.sha answer]))
  Prog.ofExcept answer

/-- `upgrade_run.run_one`. -/
def upgradeRunOne (rt : Runtime) (site : PushSite) (plan : UpgradePlan) (force : Bool) :
    Upgrading PyVal := do
  let cur ← Upgrading.onClient (version rt)
  match upgradeRefusal cur with
  | some reason => pure (errorField (.str reason))
  | none =>
    let (ok, err) ← Upgrading.push site plan
    if ok = false then pure (errorField (.str err))
    else
      let resp ← Upgrading.apply rt plan force
      let error ← Prog.ofExcept (resp.get "error" .null)
      if error.truthy then pure (errorField error)
      else
        let ok ← Prog.ofExcept (resp.get "ok" .null)
        if ok.truthy then
          modify fun s => { s with client := s.client.close }
          pure (.json (.obj [("pushed", .bool true), ("from_version", .str cur.toStr)]))
        else pure (errorField (.str ("无法解析的 dt20 响应: " ++ resp.repr)))

/-- The call of `upgrade_apply` goes on from its outcome, and is logged. -/
theorem Upgrading.exec_apply (rt : Runtime) (plan : UpgradePlan) (force : Bool)
    (s : UpgradeState) :
    (Upgrading.apply rt plan force).exec s =
      (((upgradeApply rt plan.ver plan.sha force).exec s.client).1,
        ⟨((upgradeApply rt plan.ver plan.sha force).exec s.client).2,
          s.log ++ [.upgradeApply s.client.host plan.ver plan.sha
            ((upgradeApply rt plan.ver plan.sha force).exec s.client).1]⟩) := by
  simp [Upgrading.apply]

/-- The run of a worker: its outcome, and the calls that it makes. -/
def upgradeWork (rt : Runtime) (site : PushSite) (plan : UpgradePlan) (force : Bool)
    (client : SocketServerClient) : Except PyErr PyVal × List UpgradeEvent :=
  let r := (upgradeRunOne rt site plan force).exec { client := client }
  (r.1, r.2.log)

/-- Without its log a worker is the client function of the tool. -/
theorem upgradeWork_fn (rt : Runtime) (site : PushSite) (plan : UpgradePlan) (force : Bool)
    (client : SocketServerClient) (registry : Option Registry) :
    ∃ push, (upgradeWork rt site plan force client).1 =
      ((upgradeFn rt plan.ver plan.sha force push).exec ⟨client, registry⟩).1 := by
  rcases hv : (version rt).exec client with ⟨e | cur, c₁⟩
  · refine ⟨(true, ""), ?_⟩
    simp [upgradeWork, upgradeRunOne, upgradeFn, Upgrading.onClient, onClient, hv]
  refine ⟨pushBinary site c₁.host plan.binary plan.ver, ?_⟩
  cases hrefusal : upgradeRefusal cur with
  | some reason =>
      simp [upgradeWork, upgradeRunOne, upgradeFn, Upgrading.onClient, onClient, hv, hrefusal]
  | none =>
      rcases hpush : pushBinary site c₁.host plan.binary plan.ver with ⟨ok, err⟩
      cases ok with
      | false =>
          simp [upgradeWork, upgradeRunOne, upgradeFn, Upgrading.onClient, onClient,
            Upgrading.push, hv, hrefusal, hpush]
      | true =>
          rcases ha : (upgradeApply rt plan.ver plan.sha force).exec c₁ with ⟨e | resp, c₂⟩
          · simp [upgradeWork, upgradeRunOne, upgradeFn, Upgrading.onClient, onClient,
              Upgrading.push, Upgrading.apply, hv, hrefusal, hpush, ha]
          · simp only [upgradeWork, upgradeRunOne, upgradeFn, Upgrading.onClient, onClient,
              Upgrading.push, Upgrading.apply, Prog.exec_bind, Prog.exec_zoom, Prog.exec_get,
              Prog.exec_set, Prog.exec_pure, Prog.exec_ofExcept, Prog.follow_ok, hv, hrefusal,
              hpush, ha, Bool.true_eq_false, if_false]
            rcases resp.get "error" .null with e | error
            · rfl
            simp only [Prog.follow_ok]
            split_ifs
            · rfl
            simp only [Prog.exec_bind, Prog.exec_ofExcept]
            rcases resp.get "ok" .null with e | ok
            · rfl
            simp only [Prog.follow_ok]
            split_ifs <;> rfl

/-- The worker of a target: how it ends, and the calls that it makes. -/
structure UpgradeWorker where
  target : String
  fin : WorkerEnd
  log : List UpgradeEvent

/-- The workers of an upgrade: one whose client function runs makes its calls from some state of
a client of its target; an exception may leave `run_one` before or after that. -/
inductive UpgradeWorker.Made (rt : Runtime) (site : PushSite) (plan : UpgradePlan)
    (force : Bool) : UpgradeWorker → Prop where
  | conflict (target : String) (e : LockConflict) :
    Made rt site plan force ⟨target, .conflict e, []⟩
  | notBorrowed (target : String) (e : PyErr) : Made rt site plan force ⟨target, .notBorrowed e, []⟩
  | escaped (target : String) (e : PyErr) : Made rt site plan force ⟨target, .escaped e, []⟩
  | ran (client : SocketServerClient) :
    Made rt site plan force ⟨client.host, .ran (upgradeWork rt site plan force client).1,
      (upgradeWork rt site plan force client).2⟩
  | escapedAfter (client : SocketServerClient) (e : PyErr) :
    Made rt site plan force ⟨client.host, .escaped e, (upgradeWork rt site plan force client).2⟩

/-! ### The whole call -/

/-- A call of `upgrade_run` that gets past the download: the workers of the resolved targets in
the order in which they end, the network of the polling, and the times. -/
structure UpgradeCourse (rt : Runtime) (site : PushSite) (plan : UpgradePlan) (force : Bool)
    (resolved : List String) where
  workers : List UpgradeWorker
  perm : (workers.map UpgradeWorker.target).Perm resolved
  made : ∀ w ∈ workers, w.Made rt site plan force
  network : Network
  pollStart : Nat
  auditMs : Nat
  returnMs : Nat

namespace UpgradeCourse

variable {rt : Runtime} {site : PushSite} {plan : UpgradePlan} {force : Bool}
  {resolved : List String}

/-- How the workers end. -/
def ends (course : UpgradeCourse rt site plan force resolved) : List (String × WorkerEnd) :=
  course.workers.map fun w => (w.target, w.fin)

/-- The workers as workers of a write tool. -/
def toRun (course : UpgradeCourse rt site plan force resolved) (version : String)
    (port timeout : Int) : WriteRun rt (.upgradeRun version force) port timeout resolved where
  ends := course.ends
  perm := by
    rw [ends, List.map_map]
    exact course.perm
  ran host outcome h := by
    obtain ⟨w, hw, heq⟩ := List.mem_map.mp h
    obtain ⟨rfl, hfin⟩ := Prod.mk.inj heq
    cases course.made w hw with
    | ran client =>
        obtain ⟨push, hpush⟩ := upgradeWork_fn rt site plan force client none
        exact ⟨plan.ver, plan.sha, push, "", ⟨client, none⟩,
          (WorkerEnd.ran.inj hfin).symm.trans hpush⟩
    | _ => cases hfin

/-- The call as the course of a write tool. -/
def toCourse (course : UpgradeCourse rt site plan force resolved) (releases : ReleaseSite)
    (version : String) (port timeout : Int) :
    Course rt (.upgradeRun version force) port timeout resolved where
  run := course.toRun version port timeout
  auditMs := course.auditMs
  returnMs := course.returnMs
  latest := fetchLatestVersion releases.page
  release := .ok (some plan.binary, plan.sha)
  network := course.network
  pollStart := course.pollStart

/-- The results of the workers. -/
def results (course : UpgradeCourse rt site plan force resolved) : List TargetResult :=
  course.ends.map fun e => e.2.result e.1

/-- The probes of the polling. -/
def probes (course : UpgradeCourse rt site plan force resolved) (port : Int) : List PollEvent :=
  pollProbes rt plan.ver course.network port course.pollStart course.results

end UpgradeCourse

end McpSocketServer
