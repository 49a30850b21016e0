import McpSocketServer.Proofs.AnswerEntries
import McpSocketServer.Proofs.Interleavings
import Mathlib.Data.List.Perm.Basic

/-!
# What one target can change in the answer

Two runs of one call on distinct targets which differ in what one target does, with the steps
of their workers and of other calls in any order. The entries under the names of the other
targets are the same in both, unless the data of that target is an object which claims the name
of another in a field `target`, or cannot be sliced by `pcap_flow_extract`.
-/

namespace McpSocketServer

/-! ### Lists that differ in one member -/

theorem toList_append_perm_iff {α : Type} {o o' : Option α} {l : List α} :
    (o.toList ++ l).Perm (o'.toList ++ l) ↔ o = o' := by
  rw [List.perm_append_right_iff]
  cases o <;> cases o' <;> simp

/-- Mapped over two orders of one list by functions that agree off `b`, a partial function
gives permuted results exactly when it does not tell the values at `b` apart. -/
theorem filterMap_perm_iff {ι α β : Type} {l l' : List ι} (hl : l.Perm l') (hnodup : l.Nodup)
    {b : ι} (hb : b ∈ l) {f f' : ι → α} (hf : ∀ i, i ≠ b → f i = f' i) (g : α → Option β) :
    ((l.map f).filterMap g).Perm ((l'.map f').filterMap g) ↔ g (f b) = g (f' b) := by
  obtain ⟨pre, post, rfl⟩ := List.append_of_mem hb
  have hfront : (pre ++ b :: post).Perm (b :: (pre ++ post)) := List.perm_middle
  have hnotin : b ∉ pre ++ post := (List.nodup_cons.mp (hfront.nodup_iff.mp hnodup)).1
  have hrest : (pre ++ post).map f = (pre ++ post).map f' :=
    List.map_congr_left fun i hi => hf i fun heq => hnotin (heq ▸ hi)
  have hcons : ∀ h : ι → α, ((b :: (pre ++ post)).map h).filterMap g =
      (g (h b)).toList ++ ((pre ++ post).map h).filterMap g := by
    intro h
    rw [List.map_cons, List.filterMap_cons]
    cases g (h b) <;> rfl
  have hleft := (hfront.map f).filterMap g
  have hright := ((hl.symm.trans hfront).map f').filterMap g
  rw [hleft.congr_left, hright.congr_right, hcons, hcons, hrest, toList_append_perm_iff]

/-! ### Two runs -/

/-- The entries under one name are the same in two answers. -/
structure SameEntries (host : String) (a a' : StopReport) : Prop where
  failed : (a.failed.filter fun f => f.1 == host).Perm (a'.failed.filter fun f => f.1 == host)
  results : (a.results.filter (named host)).Perm (a'.results.filter (named host))
  details : (a.failedDetails.filter (named host)).Perm (a'.failedDetails.filter (named host))

/-- The tool answers in both runs, with the same entries under the names of all targets but
one. -/
def Contained (B : String) (resolved : List String) (r r' : Except PyErr StopReport) : Prop :=
  ∃ a a', r = .ok a ∧ r' = .ok a' ∧ ∀ A ∈ resolved, A ≠ B → SameEntries A a a'

/-- `flows[:1000]` and `len(flows)` are defined. -/
def Sliceable : PyVal → Prop
  | .json (.arr _) | .json (.str _) | .bytes _ => True
  | data => data.truthy = false

/-- The data that a target has sent can be presented. -/
def ToolCall.Accepts (call : ToolCall) (r : TargetResult) : Prop :=
  call.isFlows = true → r.ok = true → Sliceable r.data

theorem sliceFlows_ok_iff (data : PyVal) : (∃ p, sliceFlows data = .ok p) ↔ Sliceable data := by
  unfold sliceFlows
  by_cases htruthy : data.truthy = false
  · rw [if_pos htruthy]
    refine iff_of_true ⟨_, rfl⟩ ?_
    rcases data with j | b
    · cases j <;> trivial
    · trivial
  · rw [if_neg htruthy]
    rcases data with j | b
    · cases j <;> simp [Sliceable, htruthy]
    · simp [Sliceable]

theorem presents_iff_accepts {call : ToolCall} (hcall : call.isUpgrade = false)
    (r : TargetResult) : call.Presents r ↔ call.Accepts r := by
  cases hflows : call.isFlows with
  | false =>
      obtain ⟨f, hentry, -⟩ := ToolCall.answer_total hcall hflows (fun _ => false) []
      refine iff_of_true (fun _ => ⟨f r, hentry r⟩) fun h => ?_
      rw [hflows] at h
      cases h
  | true =>
      cases call with
      | pcapFlowExtract pcapDir =>
          have hentry : (∃ e, flowsEntry r = .ok e) ↔ Sliceable r.data := by
            rw [← sliceFlows_ok_iff, flowsEntry]
            cases sliceFlows r.data with
            | error e => exact ⟨by simp [bind, Except.bind], by simp⟩
            | ok p => exact iff_of_true ⟨_, rfl⟩ ⟨_, rfl⟩
          exact ⟨fun h _ hok => hentry.mp (h hok), fun h hok => hentry.mpr (h rfl hok)⟩
      | _ => cases hflows

/-- The entries of two runs under a name are those of all results, in any order. -/
theorem sameEntries_iff {call : ToolCall} (hcall : call.isUpgrade = false)
    {confirmed : String → Bool} {results results' : List TargetResult} {a a' : StopReport}
    (h : call.answer confirmed results = .ok a) (h' : call.answer confirmed results' = .ok a')
    (host : String) : SameEntries host a a' ↔
      (results.filterMap (failedEntry host)).Perm (results'.filterMap (failedEntry host)) ∧
      (results.filterMap (call.resultEntry host)).Perm
        (results'.filterMap (call.resultEntry host)) ∧
      (results.filterMap (call.detailEntry host)).Perm
        (results'.filterMap (call.detailEntry host)) := by
  obtain ⟨hfailed, hresults, hdetails⟩ := answer_entries hcall h host
  obtain ⟨hfailed', hresults', hdetails'⟩ := answer_entries hcall h' host
  rw [← hfailed, ← hresults, ← hdetails, ← hfailed', ← hresults', ← hdetails']
  exact ⟨fun hs => ⟨hs.failed, hs.results, hs.details⟩, fun hs => ⟨hs.1, hs.2.1, hs.2.2⟩⟩

theorem answers_iff {call : ToolCall} (hcall : call.isUpgrade = false) (rt : Runtime)
    (port timeout : Int) (sh : Shared) {resolved : List String} (hnodup : resolved.Nodup)
    (run : TargetsRun resolved) :
    (∃ a, run.answer rt port timeout call sh = .ok a) ↔
      ∀ A ∈ resolved, call.Accepts (workerResult rt port timeout call sh run.does A) := by
  rw [TargetsRun.answer, answer_ok_iff hcall, results_eq run hnodup]
  simp only [List.forall_mem_map, presents_iff_accepts hcall]
  exact forall_congr' fun A => by rw [run.perm.mem_iff]

/-- For a target other than the one in which the runs differ, only what the latter poses with
counts. -/
theorem sameEntries_iff_poses {call : ToolCall} (hcall : call.isUpgrade = false) {rt : Runtime}
    {port timeout : Int} {sh : Shared} {resolved : List String} (hnodup : resolved.Nodup)
    {A B : String} (hB : B ∈ resolved) (hne : A ≠ B) (run run' : TargetsRun resolved)
    (hsame : ∀ A, A ≠ B → run.does A = run'.does A) {a a' : StopReport}
    (h : run.answer rt port timeout call sh = .ok a)
    (h' : run'.answer rt port timeout call sh = .ok a') :
    SameEntries A a a' ↔ call.poses A (workerResult rt port timeout call sh run.does B) =
      call.poses A (workerResult rt port timeout call sh run'.does B) := by
  have hresults : ∀ host, host ≠ B → workerResult rt port timeout call sh run.does host =
      workerResult rt port timeout call sh run'.does host := by
    intro host hhost
    rw [workerResult, workerResult, hsame host hhost]
  have horder : run.order.Perm run'.order := run.perm.trans run'.perm.symm
  have hnodup' : run.order.Nodup := run.perm.nodup_iff.mpr hnodup
  have hmem : B ∈ run.order := run.perm.mem_iff.mpr hB
  have htarget : ∀ does, (workerResult rt port timeout call sh does B).target ≠ A := by
    intro does
    rw [workerResult, ToolCall.result_target]
    exact hne.symm
  have hfailed : ∀ does, failedEntry A (workerResult rt port timeout call sh does B) = none := by
    intro does
    rw [failedEntry, if_neg fun hc => htarget does hc.2]
  rw [sameEntries_iff hcall h h', results_eq run hnodup, results_eq run' hnodup,
    filterMap_perm_iff horder hnodup' hmem hresults, filterMap_perm_iff horder hnodup' hmem hresults,
    filterMap_perm_iff horder hnodup' hmem hresults, hfailed, hfailed, eq_self, true_and]
  exact entries_eq_iff hcall (htarget _) (htarget _)

/-- However the workers of the two runs interleave, one target leaves the entries of the others
alone exactly when all data can be presented and the data of that target claims the name of
another in both runs alike, as it does when it claims none. -/
theorem contained_iff (call : ToolCall) (hcall : call.isUpgrade = false) (rt : Runtime)
    (port timeout : Int) (sh : Shared) (targets : List String)
    (hnodup : (call.resolved sh.registry targets).Nodup) (B : String)
    (hB : B ∈ call.resolved sh.registry targets)
    (run run' : TargetsRun (call.resolved sh.registry targets))
    (hsame : ∀ A, A ≠ B → run.does A = run'.does A) {r r' : Except PyErr StopReport}
    (hr : run.Answers rt port timeout call sh r)
    (hr' : run'.Answers rt port timeout call sh r') :
    Contained B (call.resolved sh.registry targets) r r' ↔
      (∀ A ∈ call.resolved sh.registry targets,
        call.Accepts (workerResult rt port timeout call sh run.does A) ∧
        call.Accepts (workerResult rt port timeout call sh run'.does A)) ∧
      ∀ A ∈ call.resolved sh.registry targets, A ≠ B →
        call.poses A (workerResult rt port timeout call sh run.does B) =
          call.poses A (workerResult rt port timeout call sh run'.does B) := by
  have hanswers := answers_iff hcall rt port timeout sh hnodup run
  have hanswers' := answers_iff hcall rt port timeout sh hnodup run'
  rw [(answers_sequential hnodup run).mp hr, (answers_sequential hnodup run').mp hr']
  constructor
  · intro h
    obtain ⟨a, a', ha, ha', hentries⟩ := h
    refine ⟨fun A hA => ⟨hanswers.mp ⟨a, ha⟩ A hA, hanswers'.mp ⟨a', ha'⟩ A hA⟩, ?_⟩
    intro A hA hne
    exact (sameEntries_iff_poses hcall hnodup hB hne run run' hsame ha ha').mp (hentries A hA hne)
  · intro h
    obtain ⟨haccepts, hposes⟩ := h
    obtain ⟨a, ha⟩ := hanswers.mpr fun A hA => (haccepts A hA).1
    obtain ⟨a', ha'⟩ := hanswers'.mpr fun A hA => (haccepts A hA).2
    refine ⟨a, a', ha, ha', fun A hA hne => ?_⟩
    exact (sameEntries_iff_poses hcall hnodup hB hne run run' hsame ha ha').mpr (hposes A hA hne)

/-! ### An answer that cannot be presented -/

/-- The codecs on the answers below. -/
def erringRuntime : Runtime :=
  tableRuntime [("[]", .arr []), ("\x7b\"error\": \"x\"\x7d", .obj [("error", .str "x")])]
    "\x7b\"pcap_dir\": \"/tmp\"\x7d"

/-- A target that answers every request with the given length-prefixed text. -/
def prefixedTarget (text : String) : Borrowing where
  found := some {}
  now := 0
  connect := .ok fun _ _ =>
    { reply := [.data (packLE 4 (asciiBytes text).length ++ asciiBytes text)] }

/-- Two targets, of which the first has no flows. -/
def flowsRun (second : String) : TargetsRun ["10.0.0.1", "10.0.0.2"] where
  order := ["10.0.0.1", "10.0.0.2"]
  perm := .refl _
  does host := prefixedTarget (if host = "10.0.0.2" then second else "[]")

/-- A target that answers with an object makes the whole call of `pcap_flow_extract` fail. -/
theorem not_contained : ¬ ∀ (call : ToolCall) (rt : Runtime) (port timeout : Int) (sh : Shared)
    (targets : List String) (B : String)
    (run run' : TargetsRun (call.resolved sh.registry targets)), call.isUpgrade = false →
      (call.resolved sh.registry targets).Nodup → B ∈ call.resolved sh.registry targets →
        (∀ A, A ≠ B → run.does A = run'.does A) →
          Contained B (call.resolved sh.registry targets) (run.answer rt port timeout call sh)
            (run'.answer rt port timeout call sh) := by
  intro h
  have hsame : ∀ A, A ≠ "10.0.0.2" →
      (flowsRun "\x7b\"error\": \"x\"\x7d").does A = (flowsRun "[]").does A := by
    intro A hA
    simp only [flowsRun, if_neg hA]
  obtain ⟨a, a', ha, -⟩ := h (.pcapFlowExtract "/tmp") erringRuntime 9000 30
    ⟨LockManager.empty, none⟩ ["10.0.0.1", "10.0.0.2"] "10.0.0.2"
    (flowsRun "\x7b\"error\": \"x\"\x7d") (flowsRun "[]") rfl (by decide) (by decide) hsame
  cases ha

/-- A target that sends flows in one run and no JSON in the other leaves the other target
alone. -/
theorem contained_iff_witness : Contained "10.0.0.2" ["10.0.0.1", "10.0.0.2"]
    ((flowsRun "[]").answer erringRuntime 9000 30 (.pcapFlowExtract "/tmp")
      ⟨LockManager.empty, none⟩)
    ((flowsRun "?").answer erringRuntime 9000 30 (.pcapFlowExtract "/tmp")
      ⟨LockManager.empty, none⟩) := by
  have hsame : ∀ A, A ≠ "10.0.0.2" → (flowsRun "[]").does A = (flowsRun "?").does A := by
    intro A hA
    simp only [flowsRun, if_neg hA]
  refine (contained_iff (.pcapFlowExtract "/tmp") rfl erringRuntime 9000 30
    ⟨LockManager.empty, none⟩ ["10.0.0.1", "10.0.0.2"] (by decide) "10.0.0.2" (by decide)
    (flowsRun "[]") (flowsRun "?") hsame
    ((answers_sequential (by decide) (flowsRun "[]")).mpr rfl)
    ((answers_sequential (by decide) (flowsRun "?")).mpr rfl)).mpr ⟨?_, ?_⟩
  · intro A hA
    rcases List.mem_pair.mp hA with rfl | rfl
    · exact ⟨fun _ _ => trivial, fun _ _ => trivial⟩
    · exact ⟨fun _ _ => trivial, fun _ hok => by cases hok⟩
  · exact fun _ _ _ => rfl

end McpSocketServer
