import McpSocketServer.Server.Polling

/-!
# Which results count as failed

For every tool a result counts as failed in the answer exactly when it is one with `ok=False`,
except that `upgrade_run` also lists an accepted upgrade under `failed` when its polling has
not confirmed it.
-/

namespace McpSocketServer

variable {r : TargetResult} {pre post : List TargetResult}

theorem failedOf_append (pre post : List TargetResult) :
    failedOf (pre ++ post) = failedOf pre ++ failedOf post := by
  simp [failedOf]

theorem failedOf_insert (hr : r.ok = false) :
    failedOf (pre ++ r :: post) = failedOf pre ++ (r.target, r.error) :: failedOf post := by
  simp [failedOf, hr]

theorem filter_ok_insert (hr : r.ok = false) :
    (pre ++ r :: post).filter TargetResult.ok = (pre ++ post).filter TargetResult.ok := by
  simp [hr]

/-! ### Failed results -/

theorem reportWith_counts_failed (entry : TargetResult → Entry) (hr : r.ok = false) :
    CountedFailed (fun results => .ok (reportWith entry results)) r := by
  intro pre post rep hrep
  obtain rfl : reportWith entry (pre ++ post) = rep := Except.ok.inj hrep
  refine ⟨_, r.error, failedOf pre, failedOf post, rfl, ?_, ?_, failedOf_append pre post,
    failedOf_insert hr⟩
  · rw [reportWith, reportWith, filter_ok_insert hr]
  · rw [reportWith, reportWith, filter_ok_insert hr]

theorem flowsReport_counts_failed (hr : r.ok = false) : CountedFailed flowsReport r := by
  intro pre post rep hrep
  cases hout : ((pre ++ post).filter TargetResult.ok).mapM flowsEntry with
  | error e =>
      rw [flowsReport, hout] at hrep
      cases hrep
  | ok out =>
      rw [flowsReport, hout] at hrep
      obtain rfl := Except.ok.inj hrep
      refine ⟨⟨((pre ++ post).filter TargetResult.ok).length, failedOf (pre ++ r :: post), out⟩,
        r.error, failedOf pre, failedOf post, ?_, rfl, rfl, failedOf_append pre post,
        failedOf_insert hr⟩
      rw [flowsReport, filter_ok_insert hr, hout]
      rfl

/-- The entries of `failed` for accepted pushes. -/
def unconfirmedOf (confirmed : String → Bool) (results : List TargetResult) :
    List (String × Json) :=
  ((pushedEntries results).filter fun r => !confirmed (entryTarget r)).map fun r =>
    (entryTarget r, .str unconfirmed)

theorem upgradeReport_failed (ver : String) (confirmed : String → Bool)
    (results : List TargetResult) : (upgradeReport ver confirmed results).failed =
      failedOf results ++ unconfirmedOf confirmed results := rfl

theorem unconfirmedOf_append (confirmed : String → Bool) (pre post : List TargetResult) :
    unconfirmedOf confirmed (pre ++ post) =
      unconfirmedOf confirmed pre ++ unconfirmedOf confirmed post := by
  simp [unconfirmedOf, pushedEntries, runBatchReport, reportWith]

/-- A failed result is not polled. -/
theorem pushedEntries_insert (hr : r.ok = false) :
    pushedEntries (pre ++ r :: post) = pushedEntries (pre ++ post) := by
  rw [pushedEntries, pushedEntries, runBatchReport, runBatchReport, reportWith, reportWith,
    filter_ok_insert hr]

theorem upgradeReport_counts_failed (ver : String) (confirmed : String → Bool)
    (hr : r.ok = false) :
    CountedFailed (fun results => .ok (upgradeReport ver confirmed results)) r := by
  intro pre post rep hrep
  obtain rfl : upgradeReport ver confirmed (pre ++ post) = rep := Except.ok.inj hrep
  have hresults : (runBatchReport (pre ++ r :: post)).results =
      (runBatchReport (pre ++ post)).results := by
    rw [runBatchReport, runBatchReport, reportWith, reportWith, filter_ok_insert hr]
  have hsame : unconfirmedOf confirmed (pre ++ r :: post) =
      unconfirmedOf confirmed (pre ++ post) := by
    rw [unconfirmedOf, unconfirmedOf, pushedEntries_insert hr]
  refine ⟨_, r.error, failedOf pre, failedOf post ++ unconfirmedOf confirmed (pre ++ post), rfl,
    ?_, ?_, ?_, ?_⟩
  · simp only [upgradeReport, hresults]
  · simp only [upgradeReport, hresults]
  · rw [upgradeReport_failed, failedOf_append, List.append_assoc]
  · rw [upgradeReport_failed, hsame, failedOf_insert hr, List.append_assoc, List.cons_append]

/-- In every tool a failed result counts as failed. -/
theorem report_counts_failed (confirmed : String → Bool) (call : ToolCall) (hr : r.ok = false) :
    CountedFailed (call.report confirmed) r := by
  cases call with
  | pcapFlowExtract _ => exact flowsReport_counts_failed hr
  | upgradeRun ver _ _ _ => exact upgradeReport_counts_failed ver confirmed hr
  | _ => exact reportWith_counts_failed _ hr

/-! ### Other results -/

theorem report_nil (confirmed : String → Bool) (call : ToolCall) :
    call.report confirmed [] = .ok ⟨0, [], []⟩ := by
  cases call <;> rfl

/-- What increases the `ok` count of an otherwise empty answer does not count as failed. -/
theorem not_counted_of_alone {confirmed : String → Bool} {call : ToolCall}
    (h : ∀ rep, call.report confirmed [r] = .ok rep → rep.ok = 1) :
    ¬ CountedFailed (call.report confirmed) r := by
  intro hcounted
  obtain ⟨rep, _, _, _, hrep, hok, -⟩ := hcounted [] [] _ (report_nil confirmed call)
  rw [h rep hrep] at hok
  cases hok

theorem reportWith_alone (entry : TargetResult → Entry) (hr : r.ok = true) :
    (reportWith entry [r]).ok = 1 := by
  simp [reportWith, hr]

theorem flowsReport_alone {rep : Report} (hr : r.ok = true) (h : flowsReport [r] = .ok rep) :
    rep.ok = 1 := by
  obtain ⟨out, -, hrep⟩ := of_bind_ok h
  obtain rfl := Except.ok.inj hrep
  show ([r].filter TargetResult.ok).length = 1
  simp [hr]

/-- The tools other than `upgrade_run` count a result as failed exactly when it is. -/
theorem report_counts_iff {confirmed : String → Bool} {call : ToolCall}
    (hcall : call.isUpgrade = false) :
    CountedFailed (call.report confirmed) r ↔ r.ok = false := by
  constructor
  · intro hcounted
    by_contra hne
    have hr : r.ok = true := by simpa using hne
    apply not_counted_of_alone _ hcounted
    intro rep hrep
    cases call with
    | pcapFlowExtract _ => exact flowsReport_alone hr hrep
    | upgradeRun _ _ _ _ => cases hcall
    | _ =>
        obtain rfl := Except.ok.inj hrep
        exact reportWith_alone _ hr
  · exact report_counts_failed confirmed call

/-- An accepted upgrade counts as failed exactly when it was not confirmed. -/
theorem upgradeReport_counts_iff {ver : String} {confirmed : String → Bool} (hr : r.ok = true)
    (hpushed : (entryGet (wrap r) "pushed").truthy = true)
    (htarget : entryTarget (wrap r) = r.target) :
    CountedFailed (fun results => .ok (upgradeReport ver confirmed results)) r ↔
      confirmed r.target = false := by
  constructor
  · intro hcounted
    by_contra hne
    have hconfirmed : confirmed r.target = true := by simpa using hne
    obtain ⟨rep, _, _, _, hrep, hok, -⟩ := hcounted [] [] _ rfl
    obtain rfl := Except.ok.inj hrep
    simp [upgradeReport, runBatchReport, reportWith, hr, hpushed, htarget, hconfirmed] at hok
  · intro hconfirmed pre post rep hrep
    obtain rfl : upgradeReport ver confirmed (pre ++ post) = rep := Except.ok.inj hrep
    have hfailed : failedOf (pre ++ r :: post) = failedOf (pre ++ post) := by
      simp [failedOf, hr]
    have hcons : unconfirmedOf confirmed (r :: post) =
        (r.target, .str unconfirmed) :: unconfirmedOf confirmed post := by
      simp [unconfirmedOf, pushedEntries, runBatchReport, reportWith, hr, hpushed, htarget,
        hconfirmed]
    refine ⟨_, .str unconfirmed, failedOf (pre ++ post) ++ unconfirmedOf confirmed pre,
      unconfirmedOf confirmed post, rfl, ?_, ?_, ?_, ?_⟩
    · simp [upgradeReport, runBatchReport, reportWith, hr, hpushed, htarget, hconfirmed]
    · simp [upgradeReport, runBatchReport, reportWith, hr, hpushed, htarget, hconfirmed]
    · rw [upgradeReport_failed, unconfirmedOf_append, List.append_assoc]
    · rw [upgradeReport_failed, hfailed, unconfirmedOf_append, hcons, List.append_assoc]

end McpSocketServer
