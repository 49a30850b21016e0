import Mathlib.Data.List.Destutter
import McpSocketServer.Proofs.BackOff
import McpSocketServer.Server.DailyCheck

/-!
# What the daily check announces

The announcements of a run are the versions that the daily checks have read, without
repetitions in a row: a new version is announced once, whatever failures and tool calls come
between, and an old one again when it comes back. The announcements do not disturb the rest of
the log, which is that of the same calls without the loop.
-/

namespace McpSocketServer

open VersionCheck

namespace DailyCheck

/-- The line is about a new version; no other line begins with this letter. -/
def isAnnouncement (entry : LogEntry) : Bool := startsWith 's' entry.message

/-- A text that is composed begins like its first part. -/
theorem startsWith_of_append {c : Char} {text front rest : String} {b : Bool}
    (h : text = front ++ rest) (hfront : front.toList ≠ []) (hb : startsWith c front = b) :
    startsWith c text = b := by
  rw [h, ← hb, startsWith, startsWith, String.toList_append, List.head?_append_of_ne_nil _ hfront]

theorem isAnnouncement_text (level : LogLevel) (bridge version : String) :
    isAnnouncement ⟨level, announcementText bridge version⟩ = true :=
  startsWith_of_append (String.append_assoc.trans (String.append_assoc.trans
    String.append_assoc)) (by decide) (by decide)

theorem failureEntry_not (n : Nat) (e : PyErr) : isAnnouncement (failureEntry n e) = false := by
  unfold failureEntry
  split
  · exact startsWith_of_append String.append_assoc (by decide) (by decide)
  · exact startsWith_of_append (String.append_assoc.trans (String.append_assoc.trans
      (String.append_assoc.trans String.append_assoc))) (by decide) (by decide)

theorem recovery_not (level : LogLevel) (n : Nat) :
    isAnnouncement ⟨level, recoveryText n⟩ = false :=
  startsWith_of_append String.append_assoc (by decide) (by decide)

/-! ### One call -/

/-- The streak after a call. -/
def nextStreak (n : Nat) (page : Except PyErr String) : Nat :=
  match page with
  | .error _ => n + 1
  | .ok _ => if failed page then n else 0

/-- What a call of `fetch_latest_version` logs in a streak of `n`. -/
def lines (n : Nat) (page : Except PyErr String) : List LogEntry :=
  match page with
  | .error e => [failureEntry (n + 1) e]
  | .ok _ =>
    if failed page then [⟨.warning, "raw version.py 未解析到 VERSION"⟩]
    else if n = 0 then [] else [⟨.info, recoveryText n⟩]

theorem after_eq (s : VersionCheck) (page : Except PyErr String) :
    s.after page = ⟨nextStreak s.failStreak page, s.log ++ lines s.failStreak page⟩ := by
  rcases page with e | text
  · rw [after_error]
    rfl
  · by_cases ht : failed (.ok text) = true
    · simp only [after_unparsed ht, nextStreak, lines, if_pos ht]
    · simp only [after_success (Bool.eq_false_of_not_eq_true ht), nextStreak, lines, if_neg ht]

/-- None of these lines is an announcement. -/
theorem lines_not_announcement (n : Nat) (page : Except PyErr String) :
    ∀ entry ∈ lines n page, isAnnouncement entry = false := by
  intro entry hmem
  rcases page with e | text
  · rw [lines, List.mem_singleton] at hmem
    exact hmem ▸ failureEntry_not _ e
  · simp only [lines] at hmem
    split at hmem
    · rw [List.mem_singleton] at hmem
      subst hmem
      decide
    · split at hmem
      · cases hmem
      · rw [List.mem_singleton] at hmem
        exact hmem ▸ recovery_not _ _

/-- The pattern for the version takes at least one character. -/
theorem version_ne_empty {page : Except PyErr String} {v : String}
    (h : McpSocketServer.fetchLatestVersion page = some v) : v ≠ "" := by
  rcases page with e | text
  · cases h
  obtain ⟨group, hgroup, rfl⟩ := Option.map_eq_some_iff.mp h
  obtain ⟨cs, -, hmatch⟩ := List.exists_of_findSome?_eq_some hgroup
  have hne : group ≠ [] := by
    unfold matchVersion at hmatch
    split at hmatch
    · split at hmatch
      · split at hmatch
        · simp only [Option.ite_none_right_eq_some, Option.some.injEq] at hmatch
          exact hmatch.2 ▸ hmatch.1.1
        · cases hmatch
      · cases hmatch
    · cases hmatch
  intro hempty
  exact hne (by simpa using congrArg String.toList hempty)

/-- The line that a turn of the loop adds for the version that it got. -/
def announces (announced : Option String) (v : Option String) : List String :=
  (v.filter fun v => announced ≠ some v).toList

/-- What a turn of the loop does. -/
theorem after_daily (bridge : String) (s : DailyCheck) (page : Except PyErr String) :
    s.after bridge (.daily page) =
      { check := ⟨nextStreak s.check.failStreak page,
          s.check.log ++ lines s.check.failStreak page ++
            (announces s.announced (McpSocketServer.fetchLatestVersion page)).map fun v =>
              ⟨.info, announcementText bridge v⟩⟩
        announced := (McpSocketServer.fetchLatestVersion page).or s.announced } := by
  have houtcome := exec_outcome page s.check
  have hstate : ((VersionCheck.fetchLatestVersion page).exec s.check).2 = _ := after_eq s.check page
  cases hv : McpSocketServer.fetchLatestVersion page with
  | none =>
      simp [after, loopTurn, houtcome, hv, hstate, announces]
  | some v =>
      have hne : v ≠ "" := version_ne_empty hv
      by_cases hold : s.announced = some v
      · simp [after, loopTurn, houtcome, hv, hstate, announces, hold]
      · simp [after, loopTurn, houtcome, hv, hstate, announces, hold, hne, Option.filter]

/-! ### Sequences of calls -/

/-- The versions without those that repeat the one before, where `announced` came before. -/
def fresh (announced : Option String) (versions : List String) : List String :=
  match announced with
  | none => versions.destutter (· ≠ ·)
  | some v => (versions.destutter' (· ≠ ·) v).tail

/-- Destuttering keeps its first element in front. -/
theorem destutter'_cons_tail (v : String) (versions : List String) :
    v :: (versions.destutter' (· ≠ ·) v).tail = versions.destutter' (· ≠ ·) v := by
  induction versions generalizing v with
  | nil => rfl
  | cons w versions ih =>
      by_cases hw : v = w
      · subst hw
        rw [List.destutter'_cons_neg _ (not_not.mpr rfl)]
        exact ih v
      · rw [List.destutter'_cons_pos _ hw]
        rfl

theorem fresh_cons (announced : Option String) (v : String) (versions : List String) :
    fresh announced (v :: versions) =
      announces announced (some v) ++ fresh (some v) versions := by
  cases announced with
  | none =>
      simp only [fresh, List.destutter_cons', announces]
      exact (destutter'_cons_tail v versions).symm
  | some w =>
      by_cases hw : w = v
      · subst hw
        simp [fresh, announces, Option.filter]
      · have hpos : (v :: versions).destutter' (· ≠ ·) w =
            w :: versions.destutter' (· ≠ ·) v := List.destutter'_cons_pos _ hw
        simp [fresh, hpos, announces, Option.filter, hw, destutter'_cons_tail]

/-- From every state: the announcements that are added, the rest of the log, the streak and the
last version that was read. -/
theorem fetches_from (bridge : String) (calls : List VersionFetch) (s : DailyCheck)
    (c : VersionCheck) (hstreak : s.check.failStreak = c.failStreak)
    (hlog : s.check.log.filter (fun entry => !isAnnouncement entry) = c.log) :
    let s' := calls.foldl (after bridge) s
    let c' := (calls.map VersionFetch.page).foldl VersionCheck.after c
    let versions := calls.filterMap VersionFetch.dailyVersion
    s'.check.log.filter isAnnouncement = s.check.log.filter isAnnouncement ++
        (fresh s.announced versions).map (fun v => ⟨.info, announcementText bridge v⟩) ∧
      s'.check.log.filter (fun entry => !isAnnouncement entry) = c'.log ∧
      s'.check.failStreak = c'.failStreak ∧
      s'.announced = versions.getLast?.or s.announced := by
  induction calls generalizing s c with
  | nil => cases h : s.announced <;> simp [hstreak, hlog, fresh, h]
  | cons call calls ih =>
      -- the lines of the version check itself
      have hplain : ∀ page, (lines s.check.failStreak page).filter isAnnouncement = [] := by
        intro page
        rw [List.filter_eq_nil_iff]
        intro entry hmem
        rw [lines_not_announcement _ page entry hmem]
        exact Bool.false_ne_true
      have hother : ∀ page, (lines s.check.failStreak page).filter
          (fun entry => !isAnnouncement entry) = lines s.check.failStreak page := by
        intro page
        rw [List.filter_eq_self]
        intro entry hmem
        rw [lines_not_announcement _ page entry hmem]
        rfl
      cases call with
      | tool page =>
          obtain ⟨hann, hrest, hs, hlast⟩ := ih (s.after bridge (.tool page)) (c.after page)
            (by simp [after, after_eq, hstreak])
            (by simp [after, after_eq, hlog, hother, ← hstreak])
          refine ⟨?_, hrest, hs, hlast⟩
          have hkept : (s.after bridge (.tool page)).check.log.filter isAnnouncement =
              s.check.log.filter isAnnouncement := by
            rw [after, after_eq, List.filter_append, hplain, List.append_nil]
          rw [List.foldl_cons, hann, hkept]
          rfl
      | daily page =>
          have hannounced : ∀ vs : List String,
              (vs.map fun v => (⟨.info, announcementText bridge v⟩ : LogEntry)).filter
                isAnnouncement = vs.map fun v => ⟨.info, announcementText bridge v⟩ := by
            intro vs
            rw [List.filter_eq_self]
            intro entry hmem
            obtain ⟨v, -, rfl⟩ := List.mem_map.mp hmem
            exact isAnnouncement_text _ bridge v
          have hnone : ∀ vs : List String,
              (vs.map fun v => (⟨.info, announcementText bridge v⟩ : LogEntry)).filter
                (fun entry => !isAnnouncement entry) = [] := by
            intro vs
            rw [List.filter_eq_nil_iff]
            intro entry hmem
            obtain ⟨v, -, rfl⟩ := List.mem_map.mp hmem
            rw [isAnnouncement_text]
            exact Bool.false_ne_true
          obtain ⟨hann, hrest, hs, hlast⟩ := ih (s.after bridge (.daily page)) (c.after page)
            (by rw [after_daily, after_eq, hstreak])
            (by rw [after_daily, after_eq, List.filter_append, List.filter_append, hlog, hother,
              hnone, List.append_nil, hstreak])
          refine ⟨?_, hrest, hs, ?_⟩
          · rw [List.foldl_cons, hann, after_daily]
            simp only [List.filter_append, hplain, hannounced, List.append_assoc]
            congr 1
            rw [List.filterMap_cons, VersionFetch.dailyVersion]
            cases hv : McpSocketServer.fetchLatestVersion page with
            | none => simp [announces]
            | some v =>
                simp only [fresh_cons, List.map_append, Option.some_or, List.nil_append]
          · rw [List.foldl_cons, hlast, after_daily, List.filterMap_cons, VersionFetch.dailyVersion]
            cases hv : McpSocketServer.fetchLatestVersion page with
            | none => rfl
            | some v =>
                cases hrest : calls.filterMap VersionFetch.dailyVersion with
                | nil => rfl
                | cons w ws => simp [List.getLast?_cons]

end DailyCheck

/-- In every run of daily checks and tool calls the announcements are the versions that the
daily checks have read, without repetitions in a row; the rest of the log and the streak are
those of the same calls without announcements. -/
theorem announcements_destutter (bridge : String) (calls : List VersionFetch) :
    let s := DailyCheck.fetches bridge calls
    let versions := calls.filterMap VersionFetch.dailyVersion
    s.check.log.filter DailyCheck.isAnnouncement = (versions.destutter (· ≠ ·)).map
        (fun v => ⟨.info, DailyCheck.announcementText bridge v⟩) ∧
      s.check.log.filter (fun entry => !DailyCheck.isAnnouncement entry) =
        (checks (calls.map VersionFetch.page)).log ∧
      s.check.failStreak = (checks (calls.map VersionFetch.page)).failStreak ∧
      s.announced = versions.getLast? := by
  obtain ⟨hann, hrest, hs, hlast⟩ := DailyCheck.fetches_from bridge calls {} {} rfl rfl
  exact ⟨hann, hrest, hs, hlast.trans Option.or_none⟩

end McpSocketServer
