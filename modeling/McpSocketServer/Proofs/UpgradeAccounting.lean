import McpSocketServer.Proofs.AuditRecords
import McpSocketServer.Proofs.CanonicalVersion
import McpSocketServer.Proofs.ConnectedClients
import McpSocketServer.Proofs.PollingRounds

/-!
# The accounts of `upgrade_run`

Every worker of an upgrade appears once in the answer, and it is reported as upgraded only when
its target has accepted the upgrade and a later probe has read the new version. The counts of the
audit agree with the answer unless a target is called `*`, and there is an answer unless the
port of an accepted target cannot be read.
-/

namespace McpSocketServer

open SocketServerClient

/-! ### What a worker has to show -/

/-- The target of the worker has accepted the upgrade to the version of the plan. -/
def UpgradeWorker.Accepted (plan : UpgradePlan) (w : UpgradeWorker) : Prop :=
  ∃ resp, .upgradeApply w.target plan.ver plan.sha (.ok resp) ∈ w.log ∧ acceptsUpgrade resp = true

/-- A worker that ends with an accepted push has logged the answer that accepts it. -/
theorem upgradeWork_accepted {rt : Runtime} {site : PushSite} {plan : UpgradePlan} {force : Bool}
    {client : SocketServerClient} {v : PyVal}
    (h : (upgradeWork rt site plan force client).1 = .ok v) :
    (∃ reason, v = errorField reason) ∨ ∃ resp,
      .upgradeApply client.host plan.ver plan.sha (.ok resp) ∈
        (upgradeWork rt site plan force client).2 ∧ acceptsUpgrade resp = true := by
  let P : UpgradeState → Prop := fun s => s.client.host = client.host
  let Q : Json → UpgradeState → Prop := fun resp s =>
    .upgradeApply client.host plan.ver plan.sha (.ok resp) ∈ s.log
  have hversion : Prog.Triple P (Upgrading.onClient (version rt)) (fun _ => P) fun _ _ => True :=
    (Prog.Triple.zoom (fun _ _ => rfl) (ofHost_exchanges rt client.host).keeps_version).conseq
      (fun _ hs => hs) (fun _ _ hs => hs) fun _ _ _ => trivial
  have hpush : Prog.Triple P (Upgrading.push site plan) (fun _ => P) fun _ _ => True :=
    fun s hs => hs
  have happly : Prog.Triple P (Upgrading.apply rt plan force) Q fun _ _ => True := by
    refine Prog.Triple.intro (fun s resp s' hs hexec => ?_) fun _ _ _ _ _ => trivial
    rw [Upgrading.exec_apply] at hexec
    obtain ⟨hresp, rfl⟩ := Prod.mk.inj hexec
    show _ ∈ s.log ++ [_]
    rw [hresp, show s.client.host = client.host from hs]
    exact List.mem_append_right _ (List.mem_singleton_self _)
  have hclose : ∀ {resp : Json}, acceptsUpgrade resp = true → Prog.Triple (Q resp)
      (modify fun s => { s with client := s.client.close } : Upgrading Unit)
      (fun _ s => Q resp s ∧ acceptsUpgrade resp = true) fun _ _ => True :=
    fun haccepts => Prog.Triple.modify fun _ hs => ⟨hs, haccepts⟩
  have hrun : Prog.Triple P (upgradeRunOne rt site plan force)
      (fun v s => (∃ reason, v = errorField reason) ∨ ∃ resp, Q resp s ∧ acceptsUpgrade resp = true)
      fun _ _ => True := by
    refine hversion.bind fun cur => ?_
    split
    · exact .pure fun _ _ => Or.inl ⟨_, rfl⟩
    refine hpush.bind fun answer => .ite (fun _ => .pure fun _ _ => Or.inl ⟨_, rfl⟩) fun _ => ?_
    refine happly.bind fun resp => ?_
    refine .bind (Q := fun error s => resp.get "error" .null = .ok error ∧ Q resp s)
      (.ofExcept (fun _ _ herror hs => ⟨herror, hs⟩) fun _ _ _ _ => trivial) fun error => ?_
    refine .and_pre fun herror => ?_
    refine .ite (fun _ => .pure fun _ _ => Or.inl ⟨_, rfl⟩) fun hnone => ?_
    refine .bind (Q := fun ok s => resp.get "ok" .null = .ok ok ∧ Q resp s)
      (.ofExcept (fun _ _ hok hs => ⟨hok, hs⟩) fun _ _ _ _ => trivial) fun ok => ?_
    refine .and_pre fun hok => ?_
    refine .ite (fun htrue => ?_) fun _ => .pure fun _ _ => Or.inl ⟨_, rfl⟩
    have haccepts : acceptsUpgrade resp = true := by
      cases resp with
      | obj fields =>
          obtain rfl := Except.ok.inj herror
          obtain rfl := Except.ok.inj hok
          simp [acceptsUpgrade, hnone, htrue]
      | _ => cases herror
    exact (hclose haccepts).bind fun _ => .pure fun s hs => Or.inr ⟨resp, hs⟩
  exact hrun.ok (s := { client := client }) rfl (Prod.ext h rfl)

/-- A worker of an upgrade with an ok result has had its push accepted. -/
theorem UpgradeWorker.Made.accepted {rt : Runtime} {site : PushSite} {plan : UpgradePlan}
    {force : Bool} {w : UpgradeWorker} (h : w.Made rt site plan force)
    (hok : (w.fin.result w.target).ok = true) : w.Accepted plan := by
  cases h with
  | ran client =>
      cases hv : (upgradeWork rt site plan force client).1 with
      | error e =>
          rw [hv] at hok
          cases hok
      | ok v =>
          rcases upgradeWork_accepted hv with ⟨reason, rfl⟩ | haccepted
          · rw [hv] at hok
            cases hok
          · exact haccepted
  | _ => cases hok

/-! ### The entries of the answer -/

/-- The entry of the answer to which a worker gives rise: one of `failed`, or one of `results`. -/
def UpgradeWorker.entry (ver : String) (confirmed : String → Bool) (w : UpgradeWorker) :
    (String × Json) ⊕ Entry :=
  let r := w.fin.result w.target
  if r.ok = false then .inl (r.target, r.error)
  else if confirmed w.target then
    .inr [("target", .json (.str w.target)), ("upgraded", .json (.bool true)),
      ("version", .json (.str ver)), ("from_version", entryGet (wrap r) "from_version")]
  else .inl (w.target, .str unconfirmed)

/-- The ok results of the workers are those of accepted pushes. -/
def Pushed (workers : List UpgradeWorker) : Prop :=
  ∀ w ∈ workers, (w.fin.result w.target).ok = true →
    ∃ cur, w.fin.result w.target = pushedResult w.target cur

/-- A failed result adds its entry to `failed`. -/
theorem upgradeReport_cons_failed (ver : String) (confirmed : String → Bool) {r : TargetResult}
    (hr : r.ok = false) (results : List TargetResult) :
    (upgradeReport ver confirmed (r :: results)).failed =
        (r.target, r.error) :: (upgradeReport ver confirmed results).failed ∧
      (upgradeReport ver confirmed (r :: results)).results =
        (upgradeReport ver confirmed results).results := by
  have hpushed : pushedEntries (r :: results) = pushedEntries results :=
    @pushedEntries_insert r [] results hr
  constructor
  · rw [upgradeReport_failed, upgradeReport_failed, failedOf,
      List.filter_cons_of_pos (by simp [hr]), unconfirmedOf, hpushed]
    rfl
  · simp [upgradeReport, runBatchReport, reportWith, hr]

theorem pushedEntries_cons_pushed (target : String) (cur : Json) (results : List TargetResult) :
    pushedEntries (pushedResult target cur :: results) =
      wrap (pushedResult target cur) :: pushedEntries results := rfl

/-- An accepted push that is confirmed adds its entry to `results`. -/
theorem upgradeReport_cons_confirmed (ver : String) {confirmed : String → Bool} {target : String}
    (cur : Json) (hconfirmed : confirmed target = true) (results : List TargetResult) :
    (upgradeReport ver confirmed (pushedResult target cur :: results)).failed =
        (upgradeReport ver confirmed results).failed ∧
      (upgradeReport ver confirmed (pushedResult target cur :: results)).results =
        [("target", .json (.str target)), ("upgraded", .json (.bool true)),
          ("version", .json (.str ver)),
          ("from_version", entryGet (wrap (pushedResult target cur)) "from_version")] ::
        (upgradeReport ver confirmed results).results := by
  have htarget : entryTarget (wrap (pushedResult target cur)) = target := rfl
  constructor
  · rw [upgradeReport_failed, upgradeReport_failed, unconfirmedOf, pushedEntries_cons_pushed,
      List.filter_cons_of_neg (by simp [htarget, hconfirmed])]
    rfl
  · show ((_ :: pushedEntries _).filter _).map _ = _
    rw [List.filter_cons_of_pos (by simp [htarget, hconfirmed])]
    rfl

/-- An accepted push that is not confirmed adds an entry to `failed`. -/
theorem upgradeReport_cons_unconfirmed (ver : String) {confirmed : String → Bool}
    {target : String} (cur : Json) (hconfirmed : confirmed target = false)
    (results : List TargetResult) :
    (upgradeReport ver confirmed (pushedResult target cur :: results)).failed.Perm
        ((target, .str unconfirmed) :: (upgradeReport ver confirmed results).failed) ∧
      (upgradeReport ver confirmed (pushedResult target cur :: results)).results =
        (upgradeReport ver confirmed results).results := by
  have htarget : entryTarget (wrap (pushedResult target cur)) = target := rfl
  constructor
  · rw [upgradeReport_failed, upgradeReport_failed, unconfirmedOf, pushedEntries_cons_pushed,
      List.filter_cons_of_pos (by simp [htarget, hconfirmed])]
    exact List.perm_middle
  · show ((_ :: pushedEntries _).filter _).map _ = _
    rw [List.filter_cons_of_neg (by simp [htarget, hconfirmed])]
    rfl

/-- Every worker gives rise to one entry of the answer, whatever is confirmed. -/
theorem upgradeReport_entries (ver : String) (confirmed : String → Bool)
    {workers : List UpgradeWorker} (h : Pushed workers) :
    (upgradeReport ver confirmed (workers.map fun w => w.fin.result w.target)).failed.Perm
        (workers.filterMap fun w => (w.entry ver confirmed).getLeft?) ∧
      (upgradeReport ver confirmed (workers.map fun w => w.fin.result w.target)).results =
        workers.filterMap fun w => (w.entry ver confirmed).getRight? := by
  induction workers with
  | nil => exact ⟨.refl _, rfl⟩
  | cons w workers ih =>
      obtain ⟨hfailed, hresults⟩ := ih fun w hw => h w (List.mem_cons_of_mem _ hw)
      rw [List.map_cons]
      cases hok : (w.fin.result w.target).ok with
      | false =>
          have hentry : w.entry ver confirmed =
              .inl ((w.fin.result w.target).target, (w.fin.result w.target).error) := if_pos hok
          simp only [List.filterMap_cons, hentry, Sum.getLeft?_inl, Sum.getRight?_inl]
          obtain ⟨hcons, hsame⟩ := upgradeReport_cons_failed ver confirmed hok _
          rw [hcons, hsame]
          exact ⟨hfailed.cons _, hresults⟩
      | true =>
          obtain ⟨cur, hcur⟩ := h w List.mem_cons_self hok
          have hnot : ¬ (w.fin.result w.target).ok = false := by simp [hok]
          cases hconfirmed : confirmed w.target with
          | true =>
              have hentry : w.entry ver confirmed = .inr [("target", .json (.str w.target)),
                  ("upgraded", .json (.bool true)), ("version", .json (.str ver)),
                  ("from_version", entryGet (wrap (w.fin.result w.target)) "from_version")] := by
                rw [UpgradeWorker.entry, if_neg hnot, if_pos hconfirmed]
              simp only [List.filterMap_cons, hentry, Sum.getLeft?_inr, Sum.getRight?_inr]
              rw [hcur]
              obtain ⟨hsame, hcons⟩ := upgradeReport_cons_confirmed ver cur hconfirmed _
              rw [hsame, hcons, hresults]
              exact ⟨hfailed, rfl⟩
          | false =>
              have hentry : w.entry ver confirmed = .inl (w.target, .str unconfirmed) := by
                rw [UpgradeWorker.entry, if_neg hnot, if_neg (by simp [hconfirmed])]
              simp only [List.filterMap_cons, hentry, Sum.getLeft?_inl, Sum.getRight?_inl]
              rw [hcur]
              obtain ⟨hcons, hsame⟩ := upgradeReport_cons_unconfirmed ver cur hconfirmed _
              rw [hsame]
              exact ⟨hcons.trans (hfailed.cons _), hresults⟩

/-! ### Sound accounts -/

section

variable {rt : Runtime} {push : PushSite} {plan : UpgradePlan} {force : Bool}
  {resolved : List String}

/-- What stands behind the entry of a worker: a failure is one of its target, with the error of
the worker when that has failed; a result is one of a worker whose push was accepted and whose
target has answered a later probe with the version. -/
def UpgradeCourse.Stands (course : UpgradeCourse rt push plan force resolved) (port : Int)
    (w : UpgradeWorker) : (String × Json) ⊕ Entry → Prop
  | .inl f => f.1 = w.target ∧
      ((w.fin.result w.target).ok = false → f.2 = (w.fin.result w.target).error)
  | .inr entry => entryTarget entry = w.target ∧ (w.fin.result w.target).ok = true ∧
      w.Accepted plan ∧ ∃ p ∈ course.probes port, pollItem port w.target = .ok p.item ∧
        p.Confirms plan.ver w.target course.pollStart

/-- The answer and the audit of a call: one sound entry for every worker, and the counts. -/
structure UpgradeCourse.Accounts (course : UpgradeCourse rt push plan force resolved) (port : Int)
    (audit : Option AuditLogger) (answer : WriteAnswer) (audit' : Option AuditLogger) : Prop where
  entries : ∃ entryOf : UpgradeWorker → (String × Json) ⊕ Entry,
    answer.failed.Perm (course.workers.filterMap fun w => (entryOf w).getLeft?) ∧
      answer.results.Perm (course.workers.filterMap fun w => (entryOf w).getRight?) ∧
      ∀ w ∈ course.workers, course.Stands port w (entryOf w)
  ok : answer.ok = answer.results.length
  counts : ∃ r : AuditRecord, audit' = audited audit r ∧ r.okCount = answer.results.length ∧
    r.failedCount = answer.failed.length

theorem UpgradeCourse.pushed (course : UpgradeCourse rt push plan force resolved) :
    Pushed course.workers := by
  intro w hw hok
  have hend : (w.target, w.fin) ∈ (course.toRun "" 0 0).ends :=
    List.mem_map_of_mem (f := fun w : UpgradeWorker => (w.target, w.fin)) hw
  exact (course.toRun "" 0 0).upgrade_result hend hok

theorem UpgradeCourse.results_eq (course : UpgradeCourse rt push plan force resolved) :
    course.results = course.workers.map fun w => w.fin.result w.target :=
  List.map_map

/-- The targets that are polled are those of workers. -/
theorem pushed_targets {workers : List UpgradeWorker} (h : Pushed workers) {target : String} :
    target ∈ (pushedEntries (workers.map fun w => w.fin.result w.target)).map entryTarget ↔
      ∃ w ∈ workers, w.target = target ∧ (w.fin.result w.target).ok = true := by
  have hpushed : ∀ r ∈ workers.map fun w => w.fin.result w.target, r.ok = true →
      ∃ cur, r = pushedResult r.target cur := by
    intro r hr hok
    obtain ⟨w, hw, rfl⟩ := List.mem_map.mp hr
    obtain ⟨cur, hcur⟩ := h w hw hok
    exact ⟨cur, by rw [hcur]; rfl⟩
  have htarget : ∀ w ∈ workers, (w.fin.result w.target).ok = true →
      entryTarget (wrap (w.fin.result w.target)) = w.target := by
    intro w hw hok
    obtain ⟨cur, hcur⟩ := h w hw hok
    rw [hcur]
    rfl
  constructor
  · intro hpolled
    obtain ⟨entry, hentry, rfl⟩ := List.mem_map.mp hpolled
    obtain ⟨r, hr, hok, rfl⟩ := (mem_pushedEntries hpushed).mp hentry
    obtain ⟨w, hw, rfl⟩ := List.mem_map.mp hr
    exact ⟨w, hw, (htarget w hw hok).symm, hok⟩
  · intro hworker
    obtain ⟨w, hw, rfl, hok⟩ := hworker
    have hresult : w.fin.result w.target ∈ workers.map fun w => w.fin.result w.target :=
      List.mem_map_of_mem (f := fun w : UpgradeWorker => w.fin.result w.target) hw
    have hentry := (mem_pushedEntries hpushed).mpr ⟨_, hresult, hok, rfl⟩
    exact List.mem_map.mpr ⟨_, hentry, htarget w hw hok⟩

/-- What `upgrade_run` makes of a call that gets past the download. -/
theorem upgradeRunTool_course {site : Site} {targets : List String} {releases : ReleaseSite}
    {version : String} (hplan : upgradePlan releases version = some plan)
    (hresolved : resolveTargets site.registry targets ≠ [])
    (course : UpgradeCourse rt push plan force
      ((WriteCall.upgradeRun version force).workers site targets)) (port timeout : Int) :
    upgradeRunTool site targets version force (course.toCourse releases version port timeout) =
      match upgradePolled rt plan.ver port course.network course.pollStart course.results with
      | .error e => (.error e, site.audit)
      | .ok rep =>
        (.ok { rep with
            failedDetails := [], version := some plan.ver, durationMs := some course.returnMs },
          audited site.audit (upgradeRecord plan.ver force rep course.auditMs)) := by
  obtain ⟨hver, -⟩ := upgradePlan_some hplan
  have hlatest : (course.toCourse releases version port timeout).latest =
      fetchLatestVersion releases.page := rfl
  have hrelease : (course.toCourse releases version port timeout).release =
      .ok (some plan.binary, plan.sha) := rfl
  have hresults : (course.toCourse releases version port timeout).run.results = course.results :=
    rfl
  unfold upgradeRunTool
  rw [if_neg hresolved, hlatest, hver]
  dsimp only
  rw [hrelease, hresults]
  rfl

/-- What is confirmed by the polling of a call has been read in one of its probes. -/
theorem UpgradeCourse.confirmed_probe (course : UpgradeCourse rt push plan force resolved)
    {port : Int} {confirmed : List String}
    (h : confirmedTargets rt plan.ver port course.network course.pollStart course.results =
      .ok confirmed) {target : String} (htarget : target ∈ confirmed) :
    ∃ p ∈ course.probes port, pollItem port target = .ok p.item ∧
      p.Confirms plan.ver target course.pollStart := by
  unfold UpgradeCourse.probes pollProbes
  obtain ⟨items, hitems, hconfirmed⟩ := of_bind_ok h
  obtain rfl := Except.ok.inj hconfirmed
  rw [hitems]
  rcases loop_confirmed_iff.mp htarget with hnil | ⟨p, hp, hitem, hconfirms⟩
  · cases hnil
  refine ⟨p, hp, ?_, hconfirms⟩
  obtain ⟨-, hout⟩ := of_mapM_ok hitems
  rw [hout] at hitem
  obtain ⟨name, -, hname⟩ := List.mem_filterMap.mp hitem
  cases hread : pollItem port name with
  | error e =>
      rw [hread] at hname
      cases hname
  | ok item =>
      rw [hread] at hname
      obtain rfl := Option.some.inj hname
      have htarget' : name = target := (pollItem_target hread).symm.trans hconfirms.1
      rw [← htarget', hread]

/-- The entries of the workers stand. -/
theorem UpgradeCourse.entry_stands (course : UpgradeCourse rt push plan force resolved) {port : Int}
    {confirmed : List String}
    (h : confirmedTargets rt plan.ver port course.network course.pollStart course.results =
      .ok confirmed) {w : UpgradeWorker} (hw : w ∈ course.workers) :
    course.Stands port w (w.entry plan.ver fun target => confirmed.contains target) := by
  unfold UpgradeWorker.entry
  dsimp only
  split_ifs with hok hconfirmed
  · exact ⟨WorkerEnd.result_target _ _, fun _ => rfl⟩
  · have hresult : (w.fin.result w.target).ok = true := by simpa using hok
    exact ⟨rfl, hresult, (course.made w hw).accepted hresult,
      course.confirmed_probe h (List.contains_iff_mem.mp hconfirmed)⟩
  · exact ⟨rfl, fun hfalse => absurd hfalse hok⟩

/-- The accounts of a call whose targets can be read and of which none is called `*`. -/
theorem UpgradeCourse.accounts_of_readable {site : Site} {targets : List String}
    {releases : ReleaseSite} {version : String} (hplan : upgradePlan releases version = some plan)
    (hresolved : resolveTargets site.registry targets ≠ [])
    (course : UpgradeCourse rt push plan force
      ((WriteCall.upgradeRun version force).workers site targets)) {port : Int} (timeout : Int)
    (h : ∀ t ∈ (WriteCall.upgradeRun version force).workers site targets,
      t ≠ "*" ∧ ∃ item, pollItem port t = .ok item) :
    ∃ answer audit', upgradeRunTool site targets version force
        (course.toCourse releases version port timeout) = (.ok answer, audit') ∧
      course.Accounts port site.audit answer audit' := by
  have htarget : ∀ w ∈ course.workers,
      w.target ∈ (WriteCall.upgradeRun version force).workers site targets :=
    fun w hw => course.perm.mem_iff.mp (List.mem_map_of_mem hw)
  have hitems : ∃ items, ((pushedEntries course.results).map entryTarget).mapM (pollItem port) =
      .ok items := by
    have hread : ∀ t : String, ∃ item, t ∈ (pushedEntries course.results).map entryTarget →
        pollItem port t = .ok item := by
      intro t
      by_cases ht : t ∈ (pushedEntries course.results).map entryTarget
      · rw [course.results_eq] at ht
        obtain ⟨w, hw, rfl, -⟩ := (pushed_targets course.pushed).mp ht
        obtain ⟨item, hitem⟩ := (h _ (htarget w hw)).2
        exact ⟨item, fun _ => hitem⟩
      · exact ⟨⟨t, t, port⟩, fun hmem => absurd hmem ht⟩
    choose item hitem using hread
    exact ⟨_, mapM_ok hitem⟩
  obtain ⟨items, hitems⟩ := hitems
  obtain ⟨confirmed, hconfirmed⟩ : ∃ confirmed, confirmedTargets rt plan.ver port course.network
      course.pollStart course.results = .ok confirmed := by
    rw [confirmedTargets, hitems]
    exact ⟨_, rfl⟩
  have hpolled : upgradePolled rt plan.ver port course.network course.pollStart course.results =
      .ok (upgradeReport plan.ver (fun target => confirmed.contains target) course.results) := by
    rw [upgradePolled, hconfirmed]
    rfl
  obtain ⟨hfailed, hresults⟩ := upgradeReport_entries plan.ver
    (fun target => confirmed.contains target) course.pushed
  rw [← course.results_eq] at hfailed hresults
  rw [upgradeRunTool_course hplan hresolved, hpolled]
  refine ⟨_, _, rfl, ⟨_, hfailed, .of_eq hresults, fun w hw => course.entry_stands hconfirmed hw⟩,
    (List.length_map _).symm, _, rfl, rfl, ?_⟩
  have hstar : ∀ f ∈ (upgradeReport plan.ver (fun target => confirmed.contains target)
      course.results).failed, f.1 ≠ "*" := by
    intro f hf
    obtain ⟨w, hw, hleft⟩ := List.mem_filterMap.mp (hfailed.mem_iff.mp hf)
    have hstands := course.entry_stands hconfirmed hw
    rw [Sum.getLeft?_eq_some_iff.mp hleft] at hstands
    rw [hstands.1]
    exact (h _ (htarget w hw)).1
  simpa [upgradeRecord] using hstar

end

/-! ### Calls that go wrong -/

/-- No worker gets a client. -/
def unreachedCourse (rt : Runtime) (push : PushSite) (plan : UpgradePlan) (force : Bool)
    (resolved : List String) : UpgradeCourse rt push plan force resolved where
  workers := resolved.map fun t =>
    ⟨t, .notBorrowed ⟨.osError, "[Errno -2] Name or service not known"⟩, []⟩
  perm := .of_eq (by simp [Function.comp_def])
  made w hw := by
    obtain ⟨t, -, rfl⟩ := List.mem_map.mp hw
    exact .notBorrowed t _
  network := fun _ _ => ⟨.error ⟨.timeoutError, "timed out"⟩, 5000⟩
  pollStart := 0
  auditMs := 1
  returnMs := 1

/-- A target that accepts the upgrade. -/
def acceptingClient (host : String) : SocketServerClient :=
  { host := host, port := 9000, timeout := 60,
    sock := some { timeout := 60000, endpoint := upgradingEndpoint } }

/-- All targets accept the upgrade. -/
def acceptedCourse (plan : UpgradePlan) (force : Bool) (resolved : List String) :
    UpgradeCourse upgradingRuntime takingSite plan force resolved where
  workers := resolved.map fun t =>
    ⟨t, .ran (upgradeWork upgradingRuntime takingSite plan force (acceptingClient t)).1,
      (upgradeWork upgradingRuntime takingSite plan force (acceptingClient t)).2⟩
  perm := .of_eq (by simp [Function.comp_def])
  made w hw := by
    obtain ⟨t, -, rfl⟩ := List.mem_map.mp hw
    exact .ran (acceptingClient t)
  network := fun _ _ => ⟨.error ⟨.timeoutError, "timed out"⟩, 5000⟩
  pollStart := 0
  auditMs := 1
  returnMs := 1

section

variable {site : Site} {targets : List String} {releases : ReleaseSite} {version : String}
  {plan : UpgradePlan} {force : Bool} {port : Int}

/-- Counts that agree with the answer leave no failure of a target `*`. -/
theorem UpgradeCourse.Accounts.no_star {rt : Runtime} {push : PushSite}
    {course : UpgradeCourse rt push plan force
      ((WriteCall.upgradeRun version force).workers site targets)}
    (hplan : upgradePlan releases version = some plan)
    (hresolved : resolveTargets site.registry targets ≠ []) (hlog : site.audit = some newLog)
    {timeout : Int} {answer : WriteAnswer} {audit' : Option AuditLogger}
    (htool : upgradeRunTool site targets version force
      (course.toCourse releases version port timeout) = (.ok answer, audit'))
    (h : course.Accounts port site.audit answer audit') : ∀ f ∈ answer.failed, f.1 ≠ "*" := by
  rw [upgradeRunTool_course hplan hresolved] at htool
  cases hpolled : upgradePolled rt plan.ver port course.network course.pollStart course.results with
  | error e =>
      rw [hpolled] at htool
      cases htool
  | ok rep =>
      rw [hpolled] at htool
      obtain ⟨hanswer, haudit⟩ := Prod.mk.inj htool
      obtain rfl := Except.ok.inj hanswer
      obtain ⟨r, hr, -, hfailed⟩ := h.counts
      rw [← haudit, hlog, audited_newLog, audited_newLog] at hr
      have hrows := List.append_cancel_left (congrArg AuditLogger.rows (Option.some.inj hr))
      have hcount := congrArg AuditRecord.failedCount (List.singleton_inj.mp hrows)
      simp only [AuditRecord.stored] at hcount
      rw [hfailed] at hcount
      simpa [upgradeRecord, List.length_filter_eq_length_iff] using hcount

/-- Sound accounts of a call in which no worker gets a client: no target is called `*`. -/
theorem no_star_of_unreached {rt : Runtime} {push : PushSite}
    (hplan : upgradePlan releases version = some plan)
    (hresolved : resolveTargets site.registry targets ≠ []) (hlog : site.audit = some newLog)
    {timeout : Int} {answer : WriteAnswer} {audit' : Option AuditLogger}
    (htool : upgradeRunTool site targets version force ((unreachedCourse rt push plan force
      ((WriteCall.upgradeRun version force).workers site targets)).toCourse releases version port
        timeout) = (.ok answer, audit'))
    (h : (unreachedCourse rt push plan force ((WriteCall.upgradeRun version force).workers site
      targets)).Accounts port site.audit answer audit') :
    ∀ t ∈ (WriteCall.upgradeRun version force).workers site targets, t ≠ "*" := by
  intro t ht
  obtain ⟨entryOf, hfailed, -, hstands⟩ := h.entries
  let w : UpgradeWorker := ⟨t, .notBorrowed ⟨.osError, "[Errno -2] Name or service not known"⟩, []⟩
  have hw : w ∈ (unreachedCourse rt push plan force
      ((WriteCall.upgradeRun version force).workers site targets)).workers :=
    List.mem_map_of_mem ht
  have hentry := hstands w hw
  cases hside : entryOf w with
  | inr entry =>
      rw [hside] at hentry
      exact absurd hentry.2.1 Bool.false_ne_true
  | inl f =>
      rw [hside] at hentry
      have hf : f ∈ answer.failed :=
        hfailed.mem_iff.mpr (List.mem_filterMap.mpr ⟨w, hw, by rw [hside]; rfl⟩)
      show w.target ≠ "*"
      rw [← hentry.1]
      exact h.no_star hplan hresolved hlog htool f hf

/-- A call in which all targets accept the upgrade returns only if it can read their ports. -/
theorem readable_of_accepted (hplan : upgradePlan releases version = some plan)
    (hresolved : resolveTargets site.registry targets ≠ []) {timeout : Int} {answer : WriteAnswer}
    {audit' : Option AuditLogger}
    (htool : upgradeRunTool site targets version force ((acceptedCourse plan force
      ((WriteCall.upgradeRun version force).workers site targets)).toCourse releases version port
        timeout) = (.ok answer, audit')) :
    ∀ t ∈ (WriteCall.upgradeRun version force).workers site targets,
      ∃ item, pollItem port t = .ok item := by
  intro t ht
  let course := acceptedCourse plan force ((WriteCall.upgradeRun version force).workers site targets)
  rw [upgradeRunTool_course hplan hresolved, upgradePolled, confirmedTargets] at htool
  cases hitems : ((pushedEntries course.results).map entryTarget).mapM (pollItem port) with
  | error e =>
      rw [hitems] at htool
      cases htool
  | ok items =>
      refine (of_mapM_ok hitems).1 t ?_
      rw [course.results_eq]
      exact (pushed_targets course.pushed).mpr ⟨_, List.mem_map_of_mem ht, rfl, rfl⟩

/-- For every call that gets past the download: whatever the workers, the polling and the audit
do, the accounts are complete and sound, exactly when no target is called `*` and the polling can
read the ports of all targets. -/
theorem upgrade_accounts_iff (site : Site) (targets : List String) (releases : ReleaseSite)
    (version : String) (force : Bool) (port : Int) {plan : UpgradePlan}
    (hplan : upgradePlan releases version = some plan)
    (hresolved : resolveTargets site.registry targets ≠ []) :
    (∀ (rt : Runtime) (push : PushSite) (audit : Option AuditLogger) (timeout : Int)
      (course : UpgradeCourse rt push plan force
        ((WriteCall.upgradeRun version force).workers site targets)),
      ∃ answer audit', upgradeRunTool { site with audit := audit } targets version force
          (course.toCourse releases version port timeout) = (.ok answer, audit') ∧
        course.Accounts port audit answer audit') ↔
      ∀ t ∈ (WriteCall.upgradeRun version force).workers site targets,
        t ≠ "*" ∧ ∃ item, pollItem port t = .ok item := by
  constructor
  · intro h t ht
    obtain ⟨answer, audit', htool, haccounts⟩ :=
      h (tableRuntime [] "") takingSite (some newLog) 60 (unreachedCourse _ _ _ _ _)
    obtain ⟨answer', audit'', htool', -⟩ :=
      h upgradingRuntime takingSite none 60 (acceptedCourse _ _ _)
    exact ⟨@no_star_of_unreached { site with audit := some newLog } targets releases version plan
        force port _ _ hplan hresolved rfl 60 answer audit' htool haccounts t ht,
      @readable_of_accepted { site with audit := none } targets releases version plan force port
        hplan hresolved 60 answer' audit'' htool' t ht⟩
  · intro h rt push audit timeout course
    exact @UpgradeCourse.accounts_of_readable rt push plan force { site with audit := audit }
      targets releases version hplan hresolved course port timeout h

/-- The target `*` fails, and the audit does not count the failure. -/
theorem star_uncounted : ¬ ∀ (site : Site) (targets : List String) (releases : ReleaseSite)
    (version : String) (plan : UpgradePlan) (force : Bool) (port timeout : Int) (rt : Runtime)
    (push : PushSite), upgradePlan releases version = some plan →
      resolveTargets site.registry targets ≠ [] →
        ∀ course : UpgradeCourse rt push plan force
          ((WriteCall.upgradeRun version force).workers site targets),
        ∃ answer audit', upgradeRunTool site targets version force
            (course.toCourse releases version port timeout) = (.ok answer, audit') ∧
          course.Accounts port site.audit answer audit' := by
  intro h
  let site : Site := ⟨none, none, [], some newLog⟩
  have hplan : upgradePlan taggedReleases "1.9.0" = some (taggedPlan "1.9.0") := rfl
  have hresolved : resolveTargets site.registry ["*"] ≠ [] := List.cons_ne_nil _ _
  obtain ⟨answer, audit', htool, haccounts⟩ := h site ["*"] taggedReleases "1.9.0"
    (taggedPlan "1.9.0") false 9000 60 (tableRuntime [] "") takingSite hplan hresolved
    (unreachedCourse _ _ _ _ _)
  exact no_star_of_unreached hplan hresolved rfl htool haccounts "*" (List.mem_singleton_self _) rfl

/-- An upgrade of one target by its address, which the target accepts. -/
theorem upgrade_accounts_iff_witness : ∃ answer audit',
    upgradeRunTool ⟨none, none, [], some newLog⟩ ["10.0.0.1"] "1.9.0" false
        ((acceptedCourse (taggedPlan "1.9.0") false ["10.0.0.1"]).toCourse taggedReleases "1.9.0"
          9000 60) = (.ok answer, audit') ∧
      (acceptedCourse (taggedPlan "1.9.0") false ["10.0.0.1"]).Accounts 9000 (some newLog) answer
        audit' := by
  have hplan : upgradePlan taggedReleases "1.9.0" = some (taggedPlan "1.9.0") := rfl
  have hread : pollItem 9000 "10.0.0.1" = .ok ⟨"10.0.0.1", "10.0.0.1", 9000⟩ := rfl
  have hall := (upgrade_accounts_iff ⟨none, none, [], none⟩ ["10.0.0.1"] taggedReleases "1.9.0"
    false 9000 hplan (List.cons_ne_nil _ _)).mpr fun t ht => by
      obtain rfl := List.mem_singleton.mp ht
      exact ⟨by decide, _, hread⟩
  exact hall upgradingRuntime takingSite (some newLog) 60 (acceptedCourse _ _ _)

end

end McpSocketServer
