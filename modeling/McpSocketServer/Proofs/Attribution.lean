import McpSocketServer.Server.BatchRun
import McpSocketServer.Server.Reports
import Mathlib.Data.List.Perm.Basic

/-!
# Under which names the results of a batch stand

Every worker adds one entry, to `failed` or to `results`. An entry of `failed` stands under
the name of its target; an entry of `results` does so unless the data of the target is an
object with a field `target`, which takes the place of the name.
-/

namespace McpSocketServer

/-- The `target` fields of an answer. -/
def Report.targets (rep : Report) : List PyVal :=
  rep.failed.map (fun f => .json (.str f.1)) ++ rep.results.map fun e => entryGet e "target"

/-- Every resolved target is accounted for once and under its own name, and `ok` counts the
results. -/
def Report.Accounts (rep : Report) (resolved : List String) : Prop :=
  rep.ok = rep.results.length ∧
    rep.targets.Perm (resolved.map fun host => .json (.str host))

/-- The field `target` of an object that counts as the data of a target. -/
def WorkerEnd.claimed : WorkerEnd → Option Json
  | .ran (.ok (.json (.obj fields))) =>
    if (fields.lookup "_error").isSome then none else fields.lookup "target"
  | _ => none

/-- The targets that claim a name, each with the name. -/
def BatchRun.claims {resolved : List String} (run : BatchRun resolved) : List (String × Json) :=
  run.ends.filterMap fun e => e.2.claimed.map fun name => (e.1, name)

/-! ### The entry of one target -/

/-- The name under which a result stands. -/
def TargetResult.field (r : TargetResult) : PyVal :=
  if r.ok then entryGet (wrap r) "target" else .json (.str r.target)

theorem entryGet_withTarget (target : String) (fields : List (String × Json)) :
    entryGet (withTarget target fields) "target" =
      .json ((fields.lookup "target").getD (.str target)) := by
  unfold withTarget
  cases fields.lookup "target" <;> rfl

theorem settle_field (target : String) (outcome : Except PyErr PyVal) :
    (settle target outcome).field =
      .json ((WorkerEnd.ran outcome).claimed.getD (.str target)) := by
  rcases outcome with e | j | b
  · rfl
  · cases j with
    | obj fields =>
        cases herror : fields.lookup "_error" with
        | some reason =>
            simp [settle, WorkerEnd.claimed, herror, TargetResult.field, TargetResult.failure]
        | none =>
            have hsettle : settle target (.ok (.json (.obj fields))) =
                { target := target, ok := true, data := .json (.obj fields) } := by
              simp only [settle, herror]
            rw [hsettle, TargetResult.field, if_pos rfl, wrap, entryGet_withTarget,
              WorkerEnd.claimed, herror]
            rfl
    | bool b => cases b <;> rfl
    | _ => rfl
  · rfl

/-- The entry of a target stands under its name, unless its data claims another. -/
theorem result_field (target : String) (e : WorkerEnd) :
    (e.result target).field = .json (e.claimed.getD (.str target)) := by
  cases e with
  | ran outcome => exact settle_field target outcome
  | _ => rfl

/-! ### The entries of all targets -/

/-- The names in the answer are those of the results, failed ones first. -/
theorem runBatchReport_targets (results : List TargetResult) :
    (runBatchReport results).targets.Perm (results.map TargetResult.field) := by
  have hfailed : (failedOf results).map (fun f => PyVal.json (.str f.1)) =
      (results.filter fun r => !r.ok).map TargetResult.field := by
    rw [failedOf, List.map_map]
    apply List.map_congr_left
    intro r hr
    have hok : r.ok = false := by simpa using (List.mem_filter.mp hr).2
    simp [TargetResult.field, hok]
  have hresults : ((results.filter TargetResult.ok).map wrap).map (fun e => entryGet e "target") =
      (results.filter TargetResult.ok).map TargetResult.field := by
    rw [List.map_map]
    apply List.map_congr_left
    intro r hr
    have hok : r.ok = true := (List.mem_filter.mp hr).2
    simp [TargetResult.field, hok]
  have hsplit : (results.filter (fun r => !r.ok) ++ results.filter TargetResult.ok).Perm
      results := List.perm_append_comm.trans (List.filter_append_perm _ _)
  rw [Report.targets, runBatchReport, reportWith, hfailed, hresults, ← List.map_append]
  exact hsplit.map TargetResult.field

/-- Two functions that agree off `p` give permuted lists exactly when they do on `p`. -/
theorem map_perm_iff_filter {α β : Type} {f g : α → β} {p : α → Bool}
    (hfg : ∀ a, p a = false → f a = g a) (l : List α) :
    (l.map f).Perm (l.map g) ↔ ((l.filter p).map f).Perm ((l.filter p).map g) := by
  have hsplit : ∀ h : α → β,
      (l.map h).Perm ((l.filter p).map h ++ (l.filter fun a => !p a).map h) := by
    intro h
    rw [← List.map_append]
    exact (List.filter_append_perm p l).symm.map h
  have hrest : (l.filter fun a => !p a).map f = (l.filter fun a => !p a).map g := by
    apply List.map_congr_left
    intro a ha
    exact hfg a (by simpa using (List.mem_filter.mp ha).2)
  rw [(hsplit f).congr_left, (hsplit g).congr_right, hrest, List.perm_append_right_iff]

/-- The claimed names, and the names of those who claim them. -/
theorem BatchRun.claims_map {resolved : List String} (run : BatchRun resolved) :
    let claiming := run.ends.filter fun e => e.2.claimed.isSome
    claiming.map (fun e => PyVal.json (e.2.claimed.getD (.str e.1))) =
        (run.claims.map Prod.snd).map PyVal.json ∧
      claiming.map (fun e => PyVal.json (.str e.1)) =
        (run.claims.map fun c => Json.str c.1).map PyVal.json := by
  simp only [BatchRun.claims]
  induction run.ends with
  | nil => exact ⟨rfl, rfl⟩
  | cons e ends ih =>
      obtain ⟨hname, hown⟩ := ih
      cases hclaimed : e.2.claimed with
      | none => simpa [hclaimed] using And.intro hname hown
      | some name => simpa [hclaimed] using And.intro hname hown

/-- Every target is accounted for once and under its own name exactly when the names that the
targets claim in their data are, in some order, their own. -/
theorem accounts_iff (registry : Option Registry) (targets : List String)
    (run : BatchRun (resolveTargets registry targets)) :
    (runBatch registry targets run).Accounts (resolveTargets registry targets) ↔
      (run.claims.map Prod.snd).Perm (run.claims.map fun c => .str c.1) := by
  have hcount : (runBatch registry targets run).ok =
      (runBatch registry targets run).results.length := by
    simp [runBatch, runBatchReport, reportWith]
  have hnames : (runBatch registry targets run).targets.Perm
      (run.ends.map fun e => .json (e.2.claimed.getD (.str e.1))) := by
    have hfields : run.results.map TargetResult.field =
        run.ends.map fun e => .json (e.2.claimed.getD (.str e.1)) := by
      rw [BatchRun.results, List.map_map]
      exact List.map_congr_left fun e _ => result_field e.1 e.2
    exact hfields ▸ runBatchReport_targets run.results
  have hown : ((resolveTargets registry targets).map fun host => PyVal.json (.str host)).Perm
      (run.ends.map fun e => .json (.str e.1)) := by
    have hmap := run.perm.symm.map fun host => PyVal.json (.str host)
    rwa [List.map_map] at hmap
  obtain ⟨hclaimed, hclaiming⟩ := run.claims_map
  have hoff : ∀ e : String × WorkerEnd, e.2.claimed.isSome = false →
      PyVal.json (e.2.claimed.getD (.str e.1)) = .json (.str e.1) := by
    intro e he
    rw [Option.isSome_eq_false_iff, Option.isNone_iff_eq_none] at he
    rw [he]
    rfl
  have hinj : Function.Injective PyVal.json := fun _ _ h => PyVal.json.inj h
  rw [Report.Accounts, and_iff_right hcount, hnames.congr_left, hown.congr_right,
    map_perm_iff_filter hoff, hclaimed, hclaiming, List.map_perm_map_iff hinj]

/-- A target whose data claims the name of another. -/
def posingRun : BatchRun (resolveTargets none ["10.0.0.1"]) where
  ends := [("10.0.0.1", .ran (.ok (.json (.obj [("code", .int 0),
    ("target", .str "10.0.0.2")]))))]
  perm := List.Perm.refl _

/-- The answer does not account for the one target of that batch. -/
theorem not_accounts : ¬ (∀ (registry : Option Registry) (targets : List String)
    (run : BatchRun (resolveTargets registry targets)),
      (runBatch registry targets run).Accounts (resolveTargets registry targets)) := by
  intro h
  have hperm := (h none ["10.0.0.1"] posingRun).2
  have hnames : (runBatch none ["10.0.0.1"] posingRun).targets =
      [.json (.str "10.0.0.2")] := rfl
  rw [hnames] at hperm
  have hname := List.singleton_perm_singleton.mp hperm
  simp at hname

end McpSocketServer
