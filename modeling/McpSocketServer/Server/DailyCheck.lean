import McpSocketServer.Server.VersionCheck

/-!
# The daily version check (`upgrades.start_daily_check`)

The loop of the background thread, one turn after each sleep of 24 hours. The tool calls that
ask for the latest version run beside it and share the streak and the logger with it; the
calls of `fetch_latest_version` follow one another.
-/

namespace McpSocketServer

/-- The state of the version check with `_announced`. -/
structure DailyCheck where
  check : VersionCheck := {}
  announced : Option String := none

namespace DailyCheck

/-- The line about a new version; `bridge` is what `get_version()` returns. -/
def announcementText (bridge version : String) : String :=
  "socket_server 最新版 v" ++ version ++ "（本桥 " ++ bridge ++
    "；仅提示，不会自动升级，需要时调 upgrade_run）"

/-- One turn of `_loop`. -/
def loopTurn (bridge : String) (page : Except PyErr String) : Prog PyErr DailyCheck Unit := do
  let v ← Prog.zoom check (fun c s => { s with check := c }) (VersionCheck.fetchLatestVersion page)
  match v with
  | none => pure ()
  | some v => do
    let s ← get
    if v ≠ "" ∧ s.announced ≠ some v then do
      Prog.zoom check (fun c s => { s with check := c })
        (VersionCheck.note .info (announcementText bridge v))
      modify fun s => { s with announced := some v }
    else pure ()

end DailyCheck

/-- Who calls `fetch_latest_version`: a turn of the loop, or a tool call. -/
inductive VersionFetch where
  | daily (page : Except PyErr String)
  | tool (page : Except PyErr String)

namespace VersionFetch

/-- What the request of the call meets. -/
def page : VersionFetch → Except PyErr String
  | .daily page | .tool page => page

/-- The version that a turn of the loop gets. -/
def dailyVersion : VersionFetch → Option String
  | .daily page => fetchLatestVersion page
  | .tool _ => none

end VersionFetch

namespace DailyCheck

/-- The state after a call. -/
def after (bridge : String) (s : DailyCheck) : VersionFetch → DailyCheck
  | .daily page => ((loopTurn bridge page).exec s).2
  | .tool page => { s with check := s.check.after page }

/-- The state after a sequence of calls, from the import of the module on. -/
def fetches (bridge : String) (calls : List VersionFetch) : DailyCheck :=
  calls.foldl (after bridge) {}

end DailyCheck

end McpSocketServer
