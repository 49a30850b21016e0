import Mathlib.Data.List.DropRight
import Mathlib.Tactic.SplitIfs
import McpSocketServer.Server.VersionCheck

/-!
# The back-off of the version check

A streak of calls without a version should log one warning, be delayed by one hour, two hours
and then four, and end with one line of recovery. The streak that the module keeps counts the
failed requests only, and `backoff_seconds` looks one step further in the table than the log.
-/

namespace McpSocketServer

namespace VersionCheck

variable {calls pre run post : List (Except PyErr String)} {page : Except PyErr String}

/-- The call returns `None` (`exec_outcome`). -/
def failed (page : Except PyErr String) : Bool :=
  (McpSocketServer.fetchLatestVersion page).isNone

/-- The call fails before there is a text to search. -/
def requestFailed : Except PyErr String → Bool
  | .error _ => true
  | .ok _ => false

/-- The number of calls that have returned `None` since the last success. -/
def streak (calls : List (Except PyErr String)) : Nat := (calls.rtakeWhile failed).length

/-- `run` is a maximal run of failures among the calls, after `pre` and before `post`. -/
structure MaximalRun (calls pre run post : List (Except PyErr String)) : Prop where
  split : calls = pre ++ run ++ post
  nonempty : run ≠ []
  fails : ∀ page ∈ run, failed page = true
  begins : ∀ page ∈ pre.getLast?, failed page = false
  ends : ∀ page ∈ post.head?, failed page = false

/-- The number of entries that were logged at a level. -/
def logged (level : LogLevel) (s : VersionCheck) : Nat :=
  s.log.countP fun entry => entry.level = level

/-- Every run of failures logs one warning. -/
def Warned (calls : List (Except PyErr String)) : Prop :=
  ∀ pre run post, MaximalRun calls pre run post →
    logged .warning (checks (pre ++ run)) = logged .warning (checks pre) + 1

/-- The success that ends a run of failures logs one line of recovery. -/
def Recovered (calls : List (Except PyErr String)) : Prop :=
  ∀ pre run page post, MaximalRun calls pre run (page :: post) →
    logged .info (checks (pre ++ run ++ [page])) = logged .info (checks (pre ++ run)) + 1

/-- After every call without a version the delay is that of the streak, and so is the one that
the call reports. -/
def Delayed (calls : List (Except PyErr String)) : Prop :=
  ∀ pre page post, calls = pre ++ page :: post → failed page = true →
    (checks (pre ++ [page])).backoffSeconds = 3600 * 2 ^ (min (streak (pre ++ [page])) 3 - 1) ∧
      ∀ entry ∈ (checks (pre ++ [page])).log.drop (checks pre).log.length,
        entry.level = .debug →
          ∃ n e, entry.message = failureText n (checks (pre ++ [page])).backoffSeconds e

/-- What the version check promises for a sequence of calls. -/
structure BackOffLaw (calls : List (Except PyErr String)) : Prop where
  warned : Warned calls
  recovered : Recovered calls
  delayed : Delayed calls

/-! ### One call -/

theorem after_error (e : PyErr) (s : VersionCheck) :
    s.after (.error e) = { failStreak := s.failStreak + 1
                           log := s.log ++ [failureEntry (s.failStreak + 1) e] } := by
  rw [after, exec_error]

theorem failed_ok {text : String} : failed (.ok text) = true ↔ searchVersion text = none :=
  Option.isNone_iff_eq_none

theorem after_unparsed {text : String} (ht : failed (.ok text) = true) (s : VersionCheck) :
    s.after (.ok text) =
      { s with log := s.log ++ [⟨.warning, "raw version.py 未解析到 VERSION"⟩] } := by
  rw [after, exec_unparsed (failed_ok.mp ht)]

theorem after_success (hpage : failed page = false) (s : VersionCheck) :
    s.after page = { failStreak := 0
                     log := s.log ++ if s.failStreak = 0 then []
                       else [⟨.info, recoveryText s.failStreak⟩] } := by
  rcases page with e | text
  · cases hpage
  · rcases ht : searchVersion text with _ | version
    · rw [failed_ok.mpr ht] at hpage
      cases hpage
    · rw [after, exec_version ht]

/-! ### What a run of failures does -/

/-- The streak counts the failed requests. -/
theorem checks_failStreak (calls : List (Except PyErr String)) :
    (checks calls).failStreak = (calls.rtakeWhile failed).countP requestFailed := by
  induction calls using List.reverseRecOn with
  | nil => rfl
  | append_singleton calls page ih =>
      rw [checks_concat]
      by_cases hpage : failed page = true
      · rw [List.rtakeWhile_concat_pos _ _ _ hpage, List.countP_append, ← ih]
        rcases page with e | text
        · rw [after_error]
          rfl
        · rw [after_unparsed hpage]
          rfl
      · rw [List.rtakeWhile_concat_neg _ _ _ hpage,
          after_success (Bool.eq_false_of_not_eq_true hpage)]
        rfl

/-- A run of failures warns of every text without a version, and once of its requests if it
begins a streak. -/
theorem logged_warning_failures (hrun : ∀ page ∈ run, failed page = true) (s : VersionCheck) :
    logged .warning (run.foldl after s) =
      logged .warning s + run.countP (fun page => !requestFailed page) +
        if s.failStreak = 0 ∧ run.any requestFailed then 1 else 0 := by
  induction run generalizing s with
  | nil => simp
  | cons page run ih =>
      rw [List.foldl_cons, ih fun p hp => hrun p (List.mem_cons_of_mem page hp)]
      rcases page with e | text
      · rw [after_error]
        by_cases hs : s.failStreak = 0 <;>
          simp [logged, failureEntry, hs, requestFailed, Nat.add_right_comm]
      · rw [after_unparsed (hrun _ List.mem_cons_self)]
        simp only [logged, List.countP_append, List.countP_cons, List.countP_nil, requestFailed,
          List.any_cons, decide_true, Bool.not_false, if_true, Bool.false_or]
        omega

namespace MaximalRun

variable (h : MaximalRun calls pre run post)
include h

theorem rtakeWhile_pre : pre.rtakeWhile failed = [] := by
  rw [List.rtakeWhile_eq_nil_iff]
  intro hpre
  rw [h.begins _ (List.getLast?_eq_some_getLast hpre)]
  exact Bool.false_ne_true

/-- The failures since the last success are the run. -/
theorem rtakeWhile_run : (pre ++ run).rtakeWhile failed = run := by
  have hrun : ∀ page ∈ run.reverse, failed page = true :=
    fun page hpage => h.fails page (List.mem_reverse.mp hpage)
  have hpre := h.rtakeWhile_pre
  rw [List.rtakeWhile, List.reverse_eq_nil_iff] at hpre
  rw [List.rtakeWhile, List.reverse_append, List.takeWhile_append_of_pos hrun, hpre,
    List.append_nil, List.reverse_reverse]

theorem logged_warning :
    logged .warning (checks (pre ++ run)) =
      logged .warning (checks pre) + run.countP (fun page => !requestFailed page) +
        if run.any requestFailed then 1 else 0 := by
  have hstreak : (checks pre).failStreak = 0 := by
    rw [checks_failStreak, h.rtakeWhile_pre, List.countP_nil]
  rw [checks_append, logged_warning_failures h.fails]
  simp only [hstreak, true_and]

/-- A run warns once when all its requests fail, or when it is one text without a version. -/
theorem warned_iff :
    logged .warning (checks (pre ++ run)) = logged .warning (checks pre) + 1 ↔
      (∀ page ∈ run, requestFailed page = true) ∨ ∃ text, run = [.ok text] := by
  rw [h.logged_warning, Nat.add_assoc, Nat.add_left_cancel_iff]
  constructor
  · intro hwarned
    by_cases hrequest : run.any requestFailed = true
    · have hunparsed : run.countP (fun page => !requestFailed page) = 0 := by
        rw [if_pos hrequest] at hwarned
        omega
      refine .inl fun page hpage => ?_
      simpa using List.countP_eq_zero.mp hunparsed page hpage
    · rw [if_neg hrequest] at hwarned
      have hall : ∀ page ∈ run, (!requestFailed page) = true := by
        simpa using hrequest
      rw [List.countP_eq_length.mpr hall, Nat.add_zero] at hwarned
      obtain ⟨page, rfl⟩ := List.length_eq_one_iff.mp hwarned
      rcases page with e | text
      · cases hall _ List.mem_cons_self
      · exact .inr ⟨text, rfl⟩
  · rintro (hrequests | ⟨text, rfl⟩)
    · have hunparsed : run.countP (fun page => !requestFailed page) = 0 :=
        List.countP_eq_zero.mpr fun page hpage => by simp [hrequests page hpage]
      obtain ⟨page, hpage⟩ := List.exists_mem_of_ne_nil run h.nonempty
      rw [hunparsed, if_pos (List.any_eq_true.mpr ⟨page, hpage, hrequests page hpage⟩)]
    · rfl

end MaximalRun

/-- The end of a run is logged as a recovery when a request of it has failed. -/
theorem MaximalRun.recovered_iff (h : MaximalRun calls pre run (page :: post)) :
    logged .info (checks (pre ++ run ++ [page])) = logged .info (checks (pre ++ run)) + 1 ↔
      ∃ page ∈ run, requestFailed page = true := by
  have hstreak : (checks (pre ++ run)).failStreak = run.countP requestFailed := by
    rw [checks_failStreak, h.rtakeWhile_run]
  rw [checks_concat, after_success (h.ends page rfl), hstreak, ← List.countP_pos_iff]
  by_cases hzero : run.countP requestFailed = 0 <;>
    simp [logged, hzero, Nat.pos_iff_ne_zero]

/-! ### The delay -/

theorem backoffStep_eq (n : Nat) : backoffStep n = 3600 * 2 ^ min n 2 := by
  rcases n with _ | _ | n
  · rfl
  · rfl
  · simp [backoffStep, backoffSteps]

/-- The delay is that of the streak when as many requests have failed as it has steps behind
it. -/
theorem backoffSeconds_iff (calls : List (Except PyErr String)) :
    (checks calls).backoffSeconds = 3600 * 2 ^ (min (streak calls) 3 - 1) ↔
      min ((calls.rtakeWhile failed).countP requestFailed) 2 = min (streak calls) 3 - 1 := by
  rw [backoffSeconds, backoffStep_eq, checks_failStreak, Nat.mul_right_inj (by decide)]
  exact Nat.pow_right_inj Nat.one_lt_two

/-! ### When the promise is kept -/

/-- The first failure begins a maximal run. -/
theorem exists_maximalRun (h : ∃ page ∈ calls, failed page = true) :
    ∃ pre page rest, calls = pre ++ page :: rest ∧ failed page = true ∧
      (∀ page ∈ pre, failed page = false) ∧
      MaximalRun calls pre (page :: rest.takeWhile failed) (rest.dropWhile failed) := by
  obtain ⟨page, hfound⟩ := Option.isSome_iff_exists.mp (List.find?_isSome.mpr h)
  obtain ⟨hpage, pre, rest, hsplit, hpre⟩ := List.find?_eq_some_iff_append.mp hfound
  have hpre : ∀ page ∈ pre, failed page = false := fun p hp => by simpa using hpre p hp
  refine ⟨pre, page, rest, hsplit, hpage, hpre, ?_, List.cons_ne_nil _ _, ?_, ?_, ?_⟩
  · rw [hsplit, List.append_assoc, List.cons_append, List.takeWhile_append_dropWhile]
  · intro p hp
    rcases List.mem_cons.mp hp with rfl | hp
    · exact hpage
    · exact List.mem_takeWhile_imp hp
  · exact fun p hp => hpre p (List.mem_of_getLast? hp)
  · intro p hp
    have hhead := List.head?_dropWhile_not failed rest
    rw [Option.mem_def.mp hp] at hhead
    exact hhead

/-- A single failure is a maximal run of the calls that it ends. -/
theorem MaximalRun.single (hpre : ∀ page ∈ pre, failed page = false) (hpage : failed page = true) :
    MaximalRun (pre ++ [page]) pre [page] [] where
  split := (List.append_nil _).symm
  nonempty := List.cons_ne_nil _ _
  fails p hp := List.mem_singleton.mp hp ▸ hpage
  begins p hp := hpre p (List.mem_of_getLast? hp)
  ends p hp := by cases hp

/-- Where all calls but the last succeed, a failure is the last call. -/
theorem last_of_failed (hinit : ∀ page ∈ calls.dropLast, failed page = false)
    (hsplit : calls = pre ++ page :: post) (hpage : failed page = true) :
    post = [] ∧ ∀ page ∈ pre, failed page = false := by
  have hdrop : calls.dropLast = pre ++ (page :: post).dropLast := by
    rw [hsplit, List.dropLast_append_of_ne_nil (List.cons_ne_nil _ _)]
  rw [hdrop] at hinit
  refine ⟨?_, fun p hp => hinit p (List.mem_append_left _ hp)⟩
  cases post with
  | nil => rfl
  | cons next post =>
      have hmem : page ∈ pre ++ (page :: next :: post).dropLast :=
        List.mem_append_right _ List.mem_cons_self
      rw [hinit page hmem] at hpage
      cases hpage

/-- Where the law holds, the only failure is a text without a version at the end. -/
theorem BackOffLaw.unparsed_last (law : BackOffLaw calls)
    (hfail : ∃ page ∈ calls, failed page = true) :
    ∃ pre text, calls = pre ++ [.ok text] ∧ ∀ page ∈ pre, failed page = false := by
  obtain ⟨pre, page, rest, hsplit, hpage, hpre, hrun⟩ := exists_maximalRun hfail
  -- the delay after the first failure is one hour only if no request has failed
  have hdelay := (backoffSeconds_iff _).mp (law.delayed pre page rest hsplit hpage).1
  rw [streak, (MaximalRun.single hpre hpage).rtakeWhile_run] at hdelay
  rcases page with e | text
  · cases hdelay
  -- a second failure would be a second warning
  have hsingle : rest.takeWhile failed = [] := by
    rcases hrun.warned_iff.mp (law.warned _ _ _ hrun) with hrequests | ⟨text', hsingle⟩
    · cases hrequests _ List.mem_cons_self
    · exact (List.cons.inj hsingle).2
  -- and a success after it would not be logged
  have hlast : rest.dropWhile failed = [] := by
    cases hnext : rest.dropWhile failed with
    | nil => rfl
    | cons next post =>
        rw [hnext, hsingle] at hrun
        obtain ⟨p, hp, hrequest⟩ := hrun.recovered_iff.mp (law.recovered _ _ _ _ hrun)
        rw [List.mem_singleton.mp hp] at hrequest
        cases hrequest
  have hrest : rest = [] := by
    rw [← List.takeWhile_append_dropWhile (p := failed) (l := rest), hsingle, hlast]
    rfl
  rw [hrest] at hsplit
  exact ⟨pre, text, hsplit, hpre⟩

/-- Where every failure is a text without a version at the end, the law holds. -/
theorem backOffLaw_of_last
    (honly : ∀ pre page post, calls = pre ++ page :: post → failed page = true →
      post = [] ∧ (∀ page ∈ pre, failed page = false) ∧ ∃ text, page = .ok text) :
    BackOffLaw calls := by
  have hrun : ∀ pre run post, MaximalRun calls pre run post →
      post = [] ∧ ∃ text, run = [.ok text] := by
    intro pre run post h
    cases run with
    | nil => exact absurd rfl h.nonempty
    | cons page run =>
        obtain ⟨hnil, -, text, rfl⟩ := honly pre page (run ++ post)
          (by rw [h.split, List.append_assoc, List.cons_append]) (h.fails _ List.mem_cons_self)
        obtain ⟨rfl, rfl⟩ := List.append_eq_nil_iff.mp hnil
        exact ⟨rfl, text, rfl⟩
  refine ⟨?_, ?_, ?_⟩
  · intro pre run post h
    exact h.warned_iff.mpr (.inr (hrun pre run post h).2)
  · intro pre run page post h
    cases (hrun pre run _ h).1
  · intro pre page post hsplit hpage
    obtain ⟨-, hpre, text, rfl⟩ := honly pre page post hsplit hpage
    constructor
    · rw [backoffSeconds_iff, streak, (MaximalRun.single hpre hpage).rtakeWhile_run]
      rfl
    · rw [checks_concat, after_unparsed hpage, List.drop_left]
      intro entry hentry hdebug
      rw [List.mem_singleton.mp hentry] at hdebug
      cases hdebug

/-- The law holds exactly of the sequences in which every call but the last succeeds and the
last is no failed request. -/
theorem backOffLaw_iff (calls : List (Except PyErr String)) :
    BackOffLaw calls ↔
      (∀ page ∈ calls.dropLast, failed page = false) ∧
        ∀ e, calls.getLast? ≠ some (.error e) := by
  constructor
  · intro law
    by_cases hfail : ∃ page ∈ calls, failed page = true
    · obtain ⟨pre, text, hsplit, hpre⟩ := law.unparsed_last hfail
      rw [hsplit, List.dropLast_concat, List.getLast?_concat]
      exact ⟨hpre, fun e he => by cases he⟩
    · have hall : ∀ page ∈ calls, failed page = false := by simpa using hfail
      refine ⟨fun p hp => hall p (List.mem_of_mem_dropLast hp), fun e he => ?_⟩
      cases hall _ (List.mem_of_getLast? he)
  · rintro ⟨hinit, hlast⟩
    refine backOffLaw_of_last fun pre page post hsplit hpage => ?_
    obtain ⟨rfl, hpre⟩ := last_of_failed hinit hsplit hpage
    refine ⟨rfl, hpre, ?_⟩
    rcases page with e | text
    · exact absurd (hsplit ▸ List.getLast?_concat) (hlast e)
    · exact ⟨text, rfl⟩

/-- Two failed requests: the delays are two hours and four, and the second is logged as two. -/
theorem backOffLaw_fails_timeouts :
    (checks [.error ⟨.other, "timed out"⟩]).backoffSeconds = 7200 ∧
      (checks [.error ⟨.other, "timed out"⟩,
        .error ⟨.other, "timed out"⟩]).backoffSeconds = 14400 ∧
      (checks [.error ⟨.other, "timed out"⟩,
        .error ⟨.other, "timed out"⟩]).log.getLast? =
          some ⟨.debug, failureText 2 7200 ⟨.other, "timed out"⟩⟩ ∧
      ¬BackOffLaw [.error ⟨.other, "timed out"⟩, .error ⟨.other, "timed out"⟩] := by
  refine ⟨rfl, rfl, rfl, fun law => ?_⟩
  exact absurd (law.delayed [] _ _ rfl rfl).1 (by decide)

/-- Where only requests fail, the log is as promised and the delay is one step ahead. -/
theorem requests_one_step_ahead
    (hcalls : ∀ page ∈ calls, failed page = true → requestFailed page = true) :
    Warned calls ∧ Recovered calls ∧ ∀ pre post, calls = pre ++ post → 0 < streak pre →
      (checks pre).backoffSeconds = 3600 * 2 ^ (min (streak pre + 1) 3 - 1) := by
  have hrun : ∀ pre run post, MaximalRun calls pre run post →
      ∀ page ∈ run, requestFailed page = true := by
    intro pre run post h page hpage
    have hmem : page ∈ calls := by
      rw [h.split]
      exact List.mem_append_left _ (List.mem_append_right _ hpage)
    exact hcalls page hmem (h.fails page hpage)
  refine ⟨?_, ?_, ?_⟩
  · intro pre run post h
    exact h.warned_iff.mpr (.inl (hrun pre run post h))
  · intro pre run page post h
    obtain ⟨p, hp⟩ := List.exists_mem_of_ne_nil run h.nonempty
    exact h.recovered_iff.mpr ⟨p, hp, hrun _ _ _ h p hp⟩
  · intro pre post hsplit hstreak
    have hall : (pre.rtakeWhile failed).countP requestFailed = streak pre := by
      refine List.countP_eq_length.mpr fun page hpage => hcalls page ?_ ?_
      · rw [hsplit]
        exact List.mem_append_left _ ((List.rtakeWhile_suffix _ _).subset hpage)
      · exact List.mem_rtakeWhile_imp hpage
    rw [backoffSeconds, backoffStep_eq, checks_failStreak, hall]
    congr 2
    omega

end VersionCheck

end McpSocketServer
