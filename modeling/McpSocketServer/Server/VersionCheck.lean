import McpSocketServer.Server.UpgradeRun

/-!
# The version check and its back-off (`upgrades.py`)

`fetch_latest_version` with what it keeps between two calls: the module's `_fail_streak`, and
the entries that it gives to the logger. `backoff_seconds` reads the streak.
-/

namespace McpSocketServer

/-- The levels at which the version check logs. -/
inductive LogLevel where
  | debug | info | warning
  deriving DecidableEq

/-- What the logger has been given once. -/
structure LogEntry where
  level : LogLevel
  message : String
  deriving DecidableEq

/-- `_BACKOFF_STEPS`. -/
def backoffSteps : List Nat := [3600, 7200, 14400]

/-- `_BACKOFF_STEPS[min(i, len(_BACKOFF_STEPS) - 1)]`. -/
def backoffStep (i : Nat) : Nat := backoffSteps.getD (min i (backoffSteps.length - 1)) 0

/-- The warning at the first failed request of a streak. -/
def firstFailureText (e : PyErr) : String :=
  "版本查询失败: " ++ e.message ++ "；后续按退避重试，期间不再刷失败日志"

/-- The text of every later one: the length of the streak and the seconds of the back-off. -/
def failureText (n seconds : Nat) (e : PyErr) : String :=
  "版本查询失败（连续第 " ++ toString n ++ " 次，退避 " ++ toString seconds ++ "s）: " ++ e.message

/-- The text at the first request that succeeds after failures. -/
def recoveryText (n : Nat) : String := "版本查询已恢复（此前连续失败 " ++ toString n ++ " 次）"

/-- `_fail_streak`, and what the logger has been given. -/
structure VersionCheck where
  failStreak : Nat := 0
  log : List LogEntry := []

namespace VersionCheck

/-- One line of the log. -/
def note (level : LogLevel) (message : String) : Prog PyErr VersionCheck Unit :=
  modify fun s => { s with log := s.log ++ [⟨level, message⟩] }

/-- `fetch_latest_version`: `page` is the text of the remote file, or what the request raises. -/
def fetchLatestVersion (page : Except PyErr String) : Prog PyErr VersionCheck (Option String) :=
  tryCatch
    (do
      let text ← Prog.ofExcept page
      match searchVersion text with
      | none => do
        -- this exit leaves the streak as it is
        note .warning "raw version.py 未解析到 VERSION"
        pure none
      | some version => do
        let s ← get
        if s.failStreak ≠ 0 then do
          note .info (recoveryText s.failStreak)
          modify fun s => { s with failStreak := 0 }
        pure (some version))
    fun e => do
      modify fun s => { s with failStreak := s.failStreak + 1 }
      let s ← get
      if s.failStreak = 1 then note .warning (firstFailureText e)
      else note .debug (failureText s.failStreak (backoffStep (s.failStreak - 1)) e)
      pure none

/-- `backoff_seconds`. -/
def backoffSeconds (s : VersionCheck) : Nat := backoffStep s.failStreak

@[simp] theorem exec_note (level : LogLevel) (message : String) (s : VersionCheck) :
    (note level message).exec s = (.ok (), { s with log := s.log ++ [⟨level, message⟩] }) := rfl

/-! ### What one call does -/

/-- What a call with a failing request logs, with the streak that it is in. -/
def failureEntry (n : Nat) (e : PyErr) : LogEntry :=
  if n = 1 then ⟨.warning, firstFailureText e⟩
  else ⟨.debug, failureText n (backoffStep (n - 1)) e⟩

theorem exec_error (e : PyErr) (s : VersionCheck) :
    (fetchLatestVersion (.error e)).exec s =
      (.ok none, { failStreak := s.failStreak + 1
                   log := s.log ++ [failureEntry (s.failStreak + 1) e] }) := by
  by_cases hs : s.failStreak = 0 <;> simp [fetchLatestVersion, failureEntry, hs]

theorem exec_unparsed {text : String} (ht : searchVersion text = none) (s : VersionCheck) :
    (fetchLatestVersion (.ok text)).exec s =
      (.ok none, { s with log := s.log ++ [⟨.warning, "raw version.py 未解析到 VERSION"⟩] }) := by
  simp [fetchLatestVersion, ht]

theorem exec_version {text version : String} (ht : searchVersion text = some version)
    (s : VersionCheck) :
    (fetchLatestVersion (.ok text)).exec s =
      (.ok (some version), { failStreak := 0
                             log := s.log ++ if s.failStreak = 0 then []
                               else [⟨.info, recoveryText s.failStreak⟩] }) := by
  rcases s with ⟨n, log⟩
  by_cases hs : n = 0 <;> simp [fetchLatestVersion, ht, hs]

/-- What a call returns depends on the remote file only, and no call raises. -/
theorem exec_outcome (page : Except PyErr String) (s : VersionCheck) :
    ((fetchLatestVersion page).exec s).1 = .ok (McpSocketServer.fetchLatestVersion page) := by
  rcases page with e | text
  · rw [exec_error]; rfl
  · rcases ht : searchVersion text with _ | version
    · rw [exec_unparsed ht, McpSocketServer.fetchLatestVersion, ht]
    · rw [exec_version ht, McpSocketServer.fetchLatestVersion, ht]

/-! ### Sequences of calls -/

/-- The state after a call. -/
def after (s : VersionCheck) (page : Except PyErr String) : VersionCheck :=
  ((fetchLatestVersion page).exec s).2

/-- The state after a sequence of calls, from the import of the module on. -/
def checks (calls : List (Except PyErr String)) : VersionCheck := calls.foldl after {}

@[simp] theorem checks_nil : checks [] = {} := rfl

theorem checks_append (calls more : List (Except PyErr String)) :
    checks (calls ++ more) = more.foldl after (checks calls) :=
  List.foldl_append

@[simp] theorem checks_concat (calls : List (Except PyErr String)) (page : Except PyErr String) :
    checks (calls ++ [page]) = (checks calls).after page := by
  rw [checks_append, List.foldl_cons, List.foldl_nil]

end VersionCheck

end McpSocketServer
