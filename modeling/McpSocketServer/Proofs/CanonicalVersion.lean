import McpSocketServer.Server.UpgradeRun

/-!
# One version string throughout an upgrade

An explicit version is stripped and checked before it is used. A version that is looked up is
not: `ensure_release_binary` strips and checks a copy of its own, and the text of the remote file
goes to the targets as it stands. So every use of the version is canonical exactly when there is
an explicit version or the looked-up text has nothing to strip.
-/

namespace McpSocketServer

open SocketServerClient

/-! ### Stripping and checking -/

/-- The whole text matches `\d+(\.\d+){1,3}`. -/
def WholeVersion (v : String) : Prop :=
  ∃ parts : List (List Char), v.toList = ['.'].intercalate parts ∧ 2 ≤ parts.length ∧
    parts.length ≤ 4 ∧ ∀ part ∈ parts, part ≠ [] ∧ ∀ c ∈ part, inRanges decimalRanges c = true

/-- No decimal digit is a space. -/
theorem not_space_of_decimal {c : Char} (h : inRanges decimalRanges c = true) :
    inRanges spaceRanges c = false := by
  have hapart : ∀ d ∈ decimalRanges, ∀ s ∈ spaceRanges, d.2 < s.1 ∨ s.2 < d.1 := by decide
  by_contra hspace
  obtain ⟨d, hd, hcd⟩ := List.any_eq_true.mp h
  obtain ⟨s, hs, hcs⟩ := List.any_eq_true.mp (by simpa using hspace : inRanges spaceRanges c = true)
  have hd' := of_decide_eq_true hcd
  have hs' := of_decide_eq_true hcs
  rcases hapart d hd s hs with hlt | hlt <;> omega

/-- Nothing is dropped when the head is kept. -/
theorem dropWhile_eq_self {drop : Char → Bool} {l : List Char}
    (hhead : ∀ c, l.head? = some c → drop c = false) : l.dropWhile drop = l := by
  cases l with
  | nil => rfl
  | cons a l => rw [List.dropWhile_cons, hhead a rfl, if_neg Bool.false_ne_true]

/-- A text whose ends are kept is not changed by stripping. -/
theorem stripChars_eq_self {drop : Char → Bool} {s : String}
    (hhead : ∀ c, s.toList.head? = some c → drop c = false)
    (hlast : ∀ c, s.toList.getLast? = some c → drop c = false) : stripChars drop s = s := by
  have hreverse : s.toList.reverse.dropWhile drop = s.toList.reverse := by
    apply dropWhile_eq_self
    intro c hc
    exact hlast c (by rwa [List.head?_reverse] at hc)
  rw [stripChars, dropWhile_eq_self hhead, hreverse, List.reverse_reverse, String.ofList_toList]

/-- Stripping leaves no dropped character at the end. -/
theorem stripChars_getLast {drop : Char → Bool} {s : String} {c : Char}
    (h : (stripChars drop s).toList.getLast? = some c) : drop c = false := by
  rw [stripChars, String.toList_ofList, List.getLast?_reverse] at h
  have hhead := List.head?_dropWhile_not drop (s.toList.dropWhile drop).reverse
  rw [h] at hhead
  simpa using hhead

/-- A normalised version does not end with a space. -/
theorem stripVersion_getLast {v : String} {c : Char}
    (h : (stripVersion v).toList.getLast? = some c) : inRanges spaceRanges c = false := by
  apply stripChars_getLast (s := v)
  rw [stripVersion, String.toList_ofList] at h
  obtain ⟨pre, hpre⟩ := List.dropWhile_suffix (l := (strip v).toList) (· == 'v')
  rw [strip] at hpre h
  rw [← hpre, List.getLast?_append, h]
  rfl

/-- A joined text begins and ends with characters of its parts. -/
theorem intercalate_ends {p : Char → Prop} {sep : List Char} {parts : List (List Char)}
    (hne : parts ≠ []) (hparts : ∀ part ∈ parts, part ≠ [] ∧ ∀ c ∈ part, p c) :
    (∃ a, (sep.intercalate parts).head? = some a ∧ p a) ∧
      ∃ b, (sep.intercalate parts).getLast? = some b ∧ p b := by
  induction parts with
  | nil => exact absurd rfl hne
  | cons part rest ih =>
      obtain ⟨hpart, hchars⟩ := hparts part List.mem_cons_self
      have hhead := List.head_mem hpart
      have hlast := List.getLast_mem hpart
      cases rest with
      | nil =>
          rw [List.intercalate_singleton]
          exact ⟨⟨_, List.head?_eq_some_head hpart, hchars _ hhead⟩,
            _, List.getLast?_eq_some_getLast hpart, hchars _ hlast⟩
      | cons next rest =>
          obtain ⟨-, b, hb, hpb⟩ := ih (List.cons_ne_nil _ _)
            fun part hmem => hparts part (List.mem_cons_of_mem _ hmem)
          rw [List.intercalate_cons_cons]
          refine ⟨⟨part.head hpart, ?_, hchars _ hhead⟩, b, ?_, hpb⟩
          · rw [List.append_assoc, List.head?_append, List.head?_eq_some_head hpart]
            rfl
          · rw [List.getLast?_append, hb]
            rfl

/-- The digits at the ends of a version. -/
theorem WholeVersion.ends {v : String} (h : WholeVersion v) :
    (∀ c, v.toList.head? = some c → inRanges decimalRanges c = true) ∧
      ∀ c, v.toList.getLast? = some c → inRanges decimalRanges c = true := by
  obtain ⟨parts, hv, hlen, -, hparts⟩ := h
  have hne : parts ≠ [] := List.ne_nil_of_length_pos (by omega)
  obtain ⟨⟨a, ha, hdigit⟩, b, hb, hdigit'⟩ := @intercalate_ends _ ['.'] _ hne hparts
  rw [hv, ha, hb]
  exact ⟨fun c hc => Option.some.inj hc ▸ hdigit, fun c hc => Option.some.inj hc ▸ hdigit'⟩

/-- A version that matches as a whole is not changed by normalising. -/
theorem WholeVersion.stripped {v : String} (h : WholeVersion v) : stripVersion v = v := by
  obtain ⟨hhead, hlast⟩ := h.ends
  have hstrip : strip v = v := stripChars_eq_self
    (fun c hc => not_space_of_decimal (hhead c hc)) fun c hc => not_space_of_decimal (hlast c hc)
  have hv : ∀ c, v.toList.head? = some c → (c == 'v') = false := by
    intro c hc
    by_contra hne
    have hc' : c = 'v' := by simpa using hne
    have hdigit := hhead c hc
    rw [hc'] at hdigit
    exact absurd hdigit (by decide)
  rw [stripVersion, hstrip, dropWhile_eq_self hv, String.ofList_toList]

/-- A version that passes the check matches as a whole, unless it ends with a newline. -/
theorem wholeVersion_of_ok {v : String} (h : versionOk v = true)
    (hlast : v.toList.getLast? ≠ some '\n') : WholeVersion v := by
  rw [versionOk, if_neg hlast, Bool.and_eq_true] at h
  obtain ⟨hlen, hparts⟩ := h
  obtain ⟨hmin, hmax⟩ := of_decide_eq_true hlen
  rw [splitOn, List.length_map] at hmin hmax
  refine ⟨v.toList.splitOn '.', (List.intercalate_splitOn '.').symm, hmin, hmax, ?_⟩
  intro part hpart
  have hdigits := List.all_eq_true.mp hparts (String.ofList part) (List.mem_map_of_mem hpart)
  rw [Bool.and_eq_true, String.toList_ofList] at hdigits
  refine ⟨fun hnil => ?_, List.all_eq_true.mp hdigits.2⟩
  rw [hnil] at hdigits
  exact absurd hdigits.1 (by decide)

/-! ### The plan -/

/-- The bytes at a path of the server: an executable file that it finds, or a download that it
has saved there. -/
def ReleaseSite.Holds (site : ReleaseSite) (path : String) (content : Bytes) : Prop :=
  site.executable path = some (.ok content) ∨ site.save path content = .ok ()

/-- A download that is taken has been saved, and its hash is the one that is returned. -/
theorem downloadRelease_ok {site : ReleaseSite} {version vdir binary sha : String}
    (h : downloadRelease site version vdir binary = .ok (.ok sha)) :
    ∃ content, sha = site.sha256 content ∧ site.Holds binary content := by
  obtain ⟨_, -, h⟩ := of_bind_ok h
  obtain ⟨content, -, h⟩ := of_bind_ok h
  obtain ⟨published, -, h⟩ := of_bind_ok h
  obtain ⟨expected, -, h⟩ := of_bind_ok h
  dsimp only at h
  split_ifs at h
  · cases h
  · obtain ⟨_, hsave, h⟩ := of_bind_ok h
    exact ⟨content, (Except.ok.inj (Except.ok.inj h)).symm, Or.inr hsave⟩

/-- The binary and its hash come from the directory of the stripped version, which passes the
check. -/
theorem ensureReleaseBinary_ok {site : ReleaseSite} {version binary sha : String}
    (h : ensureReleaseBinary site version = .ok (some binary, sha)) :
    versionOk (stripVersion version) = true ∧
      binary = pathJoin (releaseDir site.downloadDir (stripVersion version)) "socket_server" ∧
      ∃ content, sha = site.sha256 content ∧ site.Holds binary content := by
  unfold ensureReleaseBinary at h
  dsimp only at h
  split_ifs at h with hok
  · refine ⟨hok, ?_⟩
    split at h
    · rename_i content hfile
      cases content with
      | error e => cases h
      | ok content =>
          obtain ⟨hpath, rfl⟩ := Prod.mk.inj (Except.ok.inj h)
          obtain rfl := Option.some.inj hpath
          exact ⟨rfl, content, rfl, Or.inl hfile⟩
    · split at h
      · rename_i hdownload
        obtain ⟨hpath, rfl⟩ := Prod.mk.inj (Except.ok.inj h)
        obtain rfl := Option.some.inj hpath
        exact ⟨rfl, downloadRelease_ok hdownload⟩
      · cases h
      · cases h
  · cases h

theorem upgradePlan_some {site : ReleaseSite} {version : String} {plan : UpgradePlan}
    (h : upgradePlan site version = some plan) :
    chooseVersion version (fetchLatestVersion site.page) = .ok plan.ver ∧
      ensureReleaseBinary site plan.ver = .ok (some plan.binary, plan.sha) := by
  unfold upgradePlan at h
  split at h
  · cases h
  rename_i hver
  split at h
  · rename_i hbinary
    obtain rfl := Option.some.inj h
    exact ⟨hver, hbinary⟩
  · cases h

/-- The version that is pushed: the stripped argument, which passes the check, or the text of the
remote file. -/
theorem chooseVersion_ok {version ver : String} {latest : Option String}
    (h : chooseVersion version latest = .ok ver) :
    (stripVersion version ≠ "" ∧ ver = stripVersion version ∧ versionOk ver = true) ∨
      (stripVersion version = "" ∧ latest = some ver) := by
  unfold chooseVersion at h
  dsimp only at h
  split_ifs at h with hver hok
  · obtain rfl := Except.ok.inj h
    exact Or.inl ⟨hver, rfl, hok⟩
  · refine Or.inr ⟨by simpa using hver, ?_⟩
    split at h
    · split_ifs at h
      obtain rfl := Except.ok.inj h
      rfl
    · cases h

/-- Where the version of an upgrade comes from has nothing to strip: there is an explicit
version, or the looked-up text is as it should be. -/
def CanonicalSource (version : String) (latest : Option String) : Prop :=
  stripVersion version = "" → ∀ v, latest = some v → stripVersion v = v

/-- The version of a plan matches as a whole exactly when its source has nothing to strip. -/
theorem wholeVersion_plan_iff {site : ReleaseSite} {version : String} {plan : UpgradePlan}
    (h : upgradePlan site version = some plan) :
    WholeVersion plan.ver ↔ CanonicalSource version (fetchLatestVersion site.page) := by
  obtain ⟨hver, hbinary⟩ := upgradePlan_some h
  obtain ⟨hcheck, -⟩ := ensureReleaseBinary_ok hbinary
  have hwhole : ∀ v, plan.ver = stripVersion v → versionOk plan.ver = true →
      WholeVersion plan.ver := by
    intro v hv hok
    apply wholeVersion_of_ok hok
    intro hnewline
    rw [hv] at hnewline
    exact absurd (stripVersion_getLast hnewline) (by decide)
  rcases chooseVersion_ok hver with ⟨hne, hv, hok⟩ | ⟨hempty, hlatest⟩
  · exact iff_of_true (hwhole version hv hok) fun h => absurd h hne
  · constructor
    · intro hwhole _ v hv
      obtain rfl := Option.some.inj (hlatest.symm.trans hv)
      exact hwhole.stripped
    · intro hsource
      have hstripped := hsource hempty _ hlatest
      rw [hstripped] at hcheck
      exact hwhole plan.ver hstripped.symm hcheck

/-! ### The calls and the probes -/

/-- A call is made with what the plan says. -/
def UpgradeEvent.Follows (plan : UpgradePlan) : UpgradeEvent → Prop
  | .pushBinary _ binary version _ => version = plan.ver ∧ binary = plan.binary
  | .upgradeApply _ version sha _ => version = plan.ver ∧ sha = plan.sha

theorem UpgradeEvent.Follows.version_eq {plan : UpgradePlan} {event : UpgradeEvent}
    (h : event.Follows plan) : event.version = plan.ver := by
  cases event with
  | pushBinary host binary version answer => exact h.1
  | upgradeApply host version sha answer => exact h.1

/-- All calls of a worker follow the plan. -/
theorem upgradeWork_follows (rt : Runtime) (site : PushSite) (plan : UpgradePlan) (force : Bool)
    (client : SocketServerClient) :
    ∀ event ∈ (upgradeWork rt site plan force client).2, event.Follows plan := by
  let I : UpgradeState → Prop := fun s => ∀ event ∈ s.log, event.Follows plan
  have hI : ∀ s, I s → I s := fun _ => id
  have hadd : ∀ s client event, I s → event.Follows plan → I ⟨client, s.log ++ [event]⟩ := by
    intro s client event hs hevent other hother
    rcases List.mem_append.mp hother with hother | hother
    · exact hs other hother
    · exact List.mem_singleton.mp hother ▸ hevent
  have hpush : Prog.Keeps I I (Upgrading.push site plan) :=
    fun s hs => hadd s s.client (.pushBinary s.client.host plan.binary plan.ver _) hs ⟨rfl, rfl⟩
  have happly : Prog.Keeps I I (Upgrading.apply rt plan force) := by
    refine Prog.Keeps.of_exec hI fun s hs => ?_
    rw [Upgrading.exec_apply]
    exact hadd s _ _ hs ⟨rfl, rfl⟩
  have hversion : Prog.Keeps I I (Upgrading.onClient (version rt)) :=
    Prog.Keeps.frame (fun _ _ hs => hs) hI
  have hclose : Prog.Keeps I I
      (modify fun s => { s with client := s.client.close } : Upgrading Unit) :=
    Prog.Keeps.modify fun _ hs => hs
  have hkeeps : Prog.Keeps I I (upgradeRunOne rt site plan force) := by
    refine hversion.bind fun cur => ?_
    split
    · exact .pure _
    refine hpush.bind fun answer => Prog.Triple.ite (fun _ => Prog.Keeps.pure _) fun _ => ?_
    refine happly.bind fun resp => (Prog.Keeps.ofExcept hI _).bind fun error => ?_
    refine Prog.Triple.ite (fun _ => Prog.Keeps.pure _) fun _ => ?_
    refine (Prog.Keeps.ofExcept hI _).bind fun ok => ?_
    refine Prog.Triple.ite (fun _ => ?_) fun _ => Prog.Keeps.pure _
    exact hclose.bind fun _ => .pure _
  exact hkeeps.exec hI (s := { client := client }) fun _ hnil => absurd hnil List.not_mem_nil

/-- All calls of an upgrade follow its plan. -/
theorem UpgradeCourse.follows {rt : Runtime} {site : PushSite} {plan : UpgradePlan} {force : Bool}
    {resolved : List String} (course : UpgradeCourse rt site plan force resolved)
    {w : UpgradeWorker} (hw : w ∈ course.workers) {event : UpgradeEvent} (hevent : event ∈ w.log) :
    event.Follows plan := by
  cases course.made w hw with
  | ran client => exact upgradeWork_follows rt site plan force client event hevent
  | escapedAfter client e => exact upgradeWork_follows rt site plan force client event hevent
  | _ => cases hevent

section

variable {rt : Runtime} {ver : String} {net : Network}

theorem turnProbes_expected {items : List PollItem} {s : PollState} :
    ∀ p ∈ turnProbes rt ver net items s, p.expected = ver := by
  induction items generalizing s with
  | nil => exact nofun
  | cons item items ih =>
      intro p hp
      rcases List.mem_cons.mp hp with rfl | hp
      · rfl
      · exact ih p hp

theorem loopProbes_expected {deadline turns : Nat} {s : PollState} :
    ∀ p ∈ loopProbes rt ver net deadline turns s, p.expected = ver := by
  induction turns generalizing s with
  | zero => exact nofun
  | succ turns ih =>
      intro p hp
      rw [loopProbes] at hp
      split_ifs at hp
      · cases hp
      · rcases List.mem_append.mp hp with hp | hp
        · exact turnProbes_expected p hp
        · exact ih p hp

/-- The polling compares with the version of the plan. -/
theorem UpgradeCourse.probes_expected {site : PushSite} {plan : UpgradePlan} {force : Bool}
    {resolved : List String} (course : UpgradeCourse rt site plan force resolved) {port : Int} :
    ∀ p ∈ course.probes port, p.expected = plan.ver := by
  intro p hp
  unfold UpgradeCourse.probes pollProbes at hp
  split at hp
  · exact loopProbes_expected p hp
  · cases hp

end

/-! ### Canonical uses -/

/-- The binary or the hash of a call comes from the directory. -/
def UpgradeEvent.TakenFrom (site : ReleaseSite) (vdir : String) : UpgradeEvent → Prop
  | .pushBinary _ binary _ _ => binary = pathJoin vdir "socket_server"
  | .upgradeApply _ _ sha _ =>
    ∃ content, sha = site.sha256 content ∧ site.Holds (pathJoin vdir "socket_server") content

/-- A call uses the version as it should: the argument matches the whole pattern, the binary and
the hash come from the directory that it names, and it is what the probes compare with. -/
structure CanonicalUse (site : ReleaseSite) (probes : List PollEvent) (event : UpgradeEvent) :
    Prop where
  whole : WholeVersion event.version
  release : event.TakenFrom site (releaseDir site.downloadDir event.version)
  compared : ∀ p ∈ probes, p.expected = event.version

/-- Every call of `push_binary` and `upgrade_apply` uses the version as it should exactly when
the source of the version has nothing to strip. -/
theorem version_canonical_iff {rt : Runtime} {releases : ReleaseSite} {version : String}
    {plan : UpgradePlan} (hplan : upgradePlan releases version = some plan) {site : PushSite}
    {force : Bool} {resolved : List String} (course : UpgradeCourse rt site plan force resolved)
    (port : Int) {w : UpgradeWorker} (hw : w ∈ course.workers) {event : UpgradeEvent}
    (hevent : event ∈ w.log) :
    CanonicalUse releases (course.probes port) event ↔
      CanonicalSource version (fetchLatestVersion releases.page) := by
  have hfollows := course.follows hw hevent
  rw [← wholeVersion_plan_iff hplan]
  constructor
  · intro h
    exact hfollows.version_eq ▸ h.whole
  · intro hwhole
    obtain ⟨-, hbinary⟩ := upgradePlan_some hplan
    obtain ⟨-, hpath, hcontent⟩ := ensureReleaseBinary_ok hbinary
    rw [hwhole.stripped] at hpath
    refine ⟨hfollows.version_eq ▸ hwhole, ?_, fun p hp => ?_⟩
    · cases event with
      | pushBinary host binary version answer =>
          obtain ⟨rfl, rfl⟩ := hfollows
          exact hpath
      | upgradeApply host version sha answer =>
          obtain ⟨rfl, rfl⟩ := hfollows
          obtain ⟨content, hsha, hholds⟩ := hcontent
          exact ⟨content, hsha, hpath ▸ hholds⟩
    · exact (course.probes_expected p hp).trans hfollows.version_eq.symm

/-! ### A version that is named like its tag -/

/-- The remote file has the version with its `v`; the binary has been downloaded before. -/
def taggedReleases : ReleaseSite where
  page := .ok "VERSION = \"v1.9.0\"\n"
  downloadDir := "./downloads"
  executable path :=
    if path = "./downloads/socket_server/v1.9.0/socket_server" then some (.ok [127]) else none
  makedirs _ := .ok ()
  content _ := .error ⟨.other, "404 Not Found"⟩
  text _ := .error ⟨.other, "404 Not Found"⟩
  save _ _ := .ok ()
  sha256 _ := "5f1b"

/-- The upgrade to the binary of `taggedReleases` under the given version text. -/
def taggedPlan (ver : String) : UpgradePlan :=
  ⟨ver, "./downloads/socket_server/v1.9.0/socket_server", "5f1b"⟩

/-- A target that answers every request with its version. -/
def oldEndpoint : Endpoint := fun _ _ => { reply := [.data (asciiBytes "\"1.8.0\"")] }

/-- A client connected to it. -/
def oldClient : SocketServerClient :=
  { host := "10.0.0.1", port := 9000, timeout := 60,
    sock := some { timeout := 60000, endpoint := oldEndpoint } }

/-- The codecs on its answers. -/
def oldRuntime : Runtime := tableRuntime [("\"1.8.0\"", .str "1.8.0")] ""

/-- The target takes every file. -/
def takingSite : PushSite := ⟨fun _ => .ok [127], fun _ => .ok (.obj [("ok", .bool true)])⟩

/-- The upgrade of this target alone. -/
def oldCourse (plan : UpgradePlan) :
    UpgradeCourse oldRuntime takingSite plan false ["10.0.0.1"] where
  workers := [⟨"10.0.0.1", .ran (upgradeWork oldRuntime takingSite plan false oldClient).1,
    (upgradeWork oldRuntime takingSite plan false oldClient).2⟩]
  perm := .refl _
  made _ hw := List.mem_singleton.mp hw ▸ .ran oldClient
  network := fun _ _ => ⟨.error ⟨.timeoutError, "timed out"⟩, 5000⟩
  pollStart := 0
  auditMs := 1
  returnMs := 1

/-- The call of `push_binary` in that upgrade. -/
theorem oldCourse_pushes (plan : UpgradePlan) : ∃ w ∈ (oldCourse plan).workers,
    .pushBinary "10.0.0.1" plan.binary plan.ver (true, stagingPath plan.ver) ∈ w.log := by
  have hhead : (upgradeWork oldRuntime takingSite plan false oldClient).2.head? =
      some (.pushBinary "10.0.0.1" plan.binary plan.ver (true, stagingPath plan.ver)) := rfl
  exact ⟨_, List.mem_singleton_self _, List.mem_of_mem_head? hhead⟩

/-- A looked-up version goes to the target with its `v`. -/
theorem tagged_version_pushed : ¬ ∀ (rt : Runtime) (releases : ReleaseSite) (version : String)
    (plan : UpgradePlan) (site : PushSite) (force : Bool) (resolved : List String),
    upgradePlan releases version = some plan →
      ∀ (course : UpgradeCourse rt site plan force resolved) (port : Int),
        ∀ w ∈ course.workers, ∀ event ∈ w.log,
          CanonicalUse releases (course.probes port) event := by
  intro h
  obtain ⟨w, hw, hpush⟩ := oldCourse_pushes (taggedPlan "v1.9.0")
  have huse := h oldRuntime taggedReleases "" (taggedPlan "v1.9.0") takingSite false ["10.0.0.1"]
    rfl (oldCourse _) 9000 w hw _ hpush
  have hstripped : stripVersion "v1.9.0" = "v1.9.0" := huse.whole.stripped
  exact absurd hstripped (by decide)

/-- The same version as an argument. -/
theorem version_canonical_iff_witness : ∃ w ∈ (oldCourse (taggedPlan "1.9.0")).workers,
    ∃ event ∈ w.log, event.version = "1.9.0" ∧
      CanonicalUse taggedReleases ((oldCourse (taggedPlan "1.9.0")).probes 9000) event := by
  obtain ⟨w, hw, hpush⟩ := oldCourse_pushes (taggedPlan "1.9.0")
  refine ⟨w, hw, _, hpush, rfl, ?_⟩
  have hplan : upgradePlan taggedReleases "v1.9.0" = some (taggedPlan "1.9.0") := rfl
  exact (version_canonical_iff hplan (oldCourse _) 9000 hw hpush).mpr
    fun hempty => absurd hempty (by decide)

end McpSocketServer
