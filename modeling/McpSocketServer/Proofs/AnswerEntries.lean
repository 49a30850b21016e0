import McpSocketServer.Server.ToolRun

/-!
# The entries of an answer by name

The entries of an answer which stand under the name of one host, as the contributions of the
results one by one. A result contributes to the name of another host only by an object that
claims it in a field `target`.
-/

namespace McpSocketServer

/-! ### Loops over partial computations -/

/-- A loop over computations that all return collects what they return. -/
theorem mapM_ok {ε α β : Type} {f : α → Except ε β} {g : α → β} {l : List α}
    (h : ∀ a ∈ l, f a = .ok (g a)) : l.mapM f = .ok (l.map g) := by
  induction l with
  | nil => rfl
  | cons a l ih =>
      rw [List.mapM_cons, h a List.mem_cons_self, ih fun b hb => h b (List.mem_cons_of_mem a hb)]
      rfl

/-- A loop that returns has met no exception, and has collected what was returned. -/
theorem of_mapM_ok {ε α β : Type} {f : α → Except ε β} {l : List α} {out : List β}
    (h : l.mapM f = .ok out) :
    (∀ a ∈ l, ∃ b, f a = .ok b) ∧ out = l.filterMap fun a => (f a).toOption := by
  induction l generalizing out with
  | nil =>
      obtain rfl := Except.ok.inj h
      exact ⟨fun a ha => absurd ha List.not_mem_nil, rfl⟩
  | cons a l ih =>
      rw [List.mapM_cons] at h
      obtain ⟨b, hf, h⟩ := of_bind_ok h
      obtain ⟨rest, hrest, h⟩ := of_bind_ok h
      obtain rfl := Except.ok.inj h
      obtain ⟨hall, hrest⟩ := ih hrest
      refine ⟨fun c hc => ?_, ?_⟩
      · rcases List.mem_cons.mp hc with rfl | hc
        · exact ⟨b, hf⟩
        · exact hall c hc
      · rw [List.filterMap_cons, hf, hrest]
        rfl

/-! ### The entries of an answer -/

/-- An entry stands under the name of a host. -/
def named (host : String) (e : Entry) : Bool :=
  match entryGet e "target" with
  | .json (.str name) => name == host
  | _ => false

namespace ToolCall

/-- The entry of a tool for an ok result. -/
def entry : ToolCall → TargetResult → Except PyErr Entry
  | .version, r => .ok (dataEntry "version" r)
  | .isfile _, r | .isdir _, r => .ok (dataEntry "exists" r)
  | .pcapFlowExtract _, r => flowsEntry r
  | _, r => .ok (wrap r)

/-- The entry of a tool for a failed result with structured data. -/
def detail : ToolCall → TargetResult → Option Entry
  | .captureStop _, r => failedDetail r
  | _, _ => none

/-- The tool whose entries may fail. -/
def isFlows : ToolCall → Bool
  | .pcapFlowExtract _ => true
  | _ => false

theorem noDetails (results : List TargetResult) :
    results.filterMap (fun _ => (none : Option Entry)) = [] := by
  simp

/-- The entries of most tools are a function of the results. -/
theorem answer_total {call : ToolCall} (hcall : call.isUpgrade = false)
    (hflows : call.isFlows = false) (confirmed : String → Bool) (results : List TargetResult) :
    ∃ f, (∀ r, call.entry r = .ok (f r)) ∧ call.answer confirmed results =
      .ok { reportWith f results with failedDetails := results.filterMap call.detail } := by
  have hplain : ∀ f, (∀ r, call.entry r = .ok (f r)) → call.detail = (fun _ => none) →
      call.answer confirmed results = .ok { reportWith f results with failedDetails := [] } →
      ∃ f, (∀ r, call.entry r = .ok (f r)) ∧ call.answer confirmed results =
        .ok { reportWith f results with failedDetails := results.filterMap call.detail } := by
    intro f hentry hdetail hanswer
    refine ⟨f, hentry, ?_⟩
    rw [hdetail, noDetails]
    exact hanswer
  cases call with
  | upgradeRun _ _ _ _ => cases hcall
  | pcapFlowExtract _ => cases hflows
  | captureStop path => exact ⟨wrap, fun _ => rfl, rfl⟩
  | version => exact hplain (dataEntry "version") (fun _ => rfl) rfl rfl
  | isfile path => exact hplain (dataEntry "exists") (fun _ => rfl) rfl rfl
  | isdir path => exact hplain (dataEntry "exists") (fun _ => rfl) rfl rfl
  | _ => exact hplain wrap (fun _ => rfl) rfl rfl

/-- A tool without polling answers with one entry for each result, or not at all. -/
theorem answer_eq {call : ToolCall} (hcall : call.isUpgrade = false) (confirmed : String → Bool)
    (results : List TargetResult) :
    call.answer confirmed results =
      ((results.filter TargetResult.ok).mapM call.entry).map fun out =>
        { ok := (results.filter TargetResult.ok).length, failed := failedOf results,
          results := out, failedDetails := results.filterMap call.detail } := by
  cases hflows : call.isFlows with
  | false =>
      obtain ⟨f, hentry, hanswer⟩ := answer_total hcall hflows confirmed results
      rw [hanswer, mapM_ok fun r _ => hentry r]
      rfl
  | true =>
      cases call with
      | pcapFlowExtract pcapDir =>
          show (flowsReport results).map _ = _
          rw [show (pcapFlowExtract pcapDir).detail = fun _ => none from rfl, noDetails,
            show (pcapFlowExtract pcapDir).entry = flowsEntry from rfl, flowsReport]
          cases (results.filter TargetResult.ok).mapM flowsEntry <;> rfl
      | _ => cases hflows

/-- The data of a result can be presented. -/
def Presents (call : ToolCall) (r : TargetResult) : Prop :=
  r.ok = true → ∃ e, call.entry r = .ok e

/-- The entries under the name of a host that one result contributes to the answer. -/
def resultEntry (call : ToolCall) (host : String) (r : TargetResult) : Option Entry :=
  if r.ok then (call.entry r).toOption.filter (named host) else none

/-- The entries of `failed_details` under the name of a host that one result contributes. -/
def detailEntry (call : ToolCall) (host : String) (r : TargetResult) : Option Entry :=
  (call.detail r).filter (named host)

end ToolCall

/-- The entry of `failed` under the name of a host that one result contributes. -/
def failedEntry (host : String) (r : TargetResult) : Option (String × Json) :=
  if r.ok = false ∧ r.target = host then some (r.target, r.error) else none

/-- A tool answers when the data of every ok result can be presented. -/
theorem answer_ok_iff {call : ToolCall} (hcall : call.isUpgrade = false)
    (confirmed : String → Bool) (results : List TargetResult) :
    (∃ a, call.answer confirmed results = .ok a) ↔ ∀ r ∈ results, call.Presents r := by
  rw [ToolCall.answer_eq hcall]
  constructor
  · intro h r hr hok
    obtain ⟨a, ha⟩ := h
    cases hout : (results.filter TargetResult.ok).mapM call.entry with
    | error e =>
        rw [hout] at ha
        cases ha
    | ok out => exact (of_mapM_ok hout).1 r (List.mem_filter.mpr ⟨hr, hok⟩)
  · intro h
    have hall : ∀ r ∈ results.filter TargetResult.ok,
        call.entry r = .ok ((call.entry r).toOption.getD []) := by
      intro r hr
      obtain ⟨hmem, hok⟩ := List.mem_filter.mp hr
      obtain ⟨e, he⟩ := h r hmem hok
      rw [he]
      rfl
    rw [mapM_ok hall]
    exact ⟨_, rfl⟩

theorem failedOf_filter (host : String) (results : List TargetResult) :
    ((failedOf results).filter fun f => f.1 == host) = results.filterMap (failedEntry host) := by
  induction results with
  | nil => rfl
  | cons r results ih =>
      rw [List.filterMap_cons, ← ih]
      cases hok : r.ok with
      | true => simp [failedOf, failedEntry, hok]
      | false =>
          by_cases hname : r.target = host
          · simp [failedOf, failedEntry, hok, hname]
          · simp [failedOf, failedEntry, hok, hname]

/-- The entries under one name are the contributions of the results. -/
theorem answer_entries {call : ToolCall} (hcall : call.isUpgrade = false)
    {confirmed : String → Bool} {results : List TargetResult} {a : StopReport}
    (h : call.answer confirmed results = .ok a) (host : String) :
    (a.failed.filter fun f => f.1 == host) = results.filterMap (failedEntry host) ∧
      a.results.filter (named host) = results.filterMap (call.resultEntry host) ∧
      a.failedDetails.filter (named host) = results.filterMap (call.detailEntry host) := by
  rw [ToolCall.answer_eq hcall] at h
  obtain ⟨out, hout, rfl⟩ := of_map_ok h
  refine ⟨failedOf_filter host results, ?_, List.filter_filterMap⟩
  calc out.filter (named host)
      = ((results.filter TargetResult.ok).filterMap fun r => (call.entry r).toOption).filter
          (named host) := by rw [← (of_mapM_ok hout).2]
    _ = (results.filter TargetResult.ok).filterMap fun r =>
          (call.entry r).toOption.filter (named host) := List.filter_filterMap
    _ = results.filterMap (call.resultEntry host) := List.filterMap_filter

/-! ### Data under the name of another target -/

/-- The other fields of an object that claims the name of a host. -/
def posing (host : String) : PyVal → Option (List (String × Json))
  | .json (.obj fields) =>
    match fields.lookup "target" with
    | some (.str name) =>
      if name = host then some (fields.filter fun f => f.1 ≠ "target") else none
    | _ => none
  | _ => none

/-- The results whose data a tool merges into an entry. -/
def ToolCall.merges (call : ToolCall) (r : TargetResult) : Bool :=
  match call with
  | .captureStop _ => true
  | call => call.runsBatch && r.ok

/-- What a result shows under the name of a host that is not its target. -/
def ToolCall.poses (call : ToolCall) (host : String) (r : TargetResult) :
    Option (Bool × List (String × Json)) :=
  if call.merges r then (posing host r.data).map fun rest => (r.ok, rest) else none

/-- The entry of fields under the name of a host. -/
def shown (host : String) (rest : List (String × Json)) : Entry :=
  ("target", .json (.str host)) :: rest.map fun f => (f.1, .json f.2)

theorem shown_injective (host : String) : Function.Injective (shown host) := by
  intro rest rest' h
  have hpair : Function.Injective fun f : String × Json => (f.1, PyVal.json f.2) := by
    intro f f' hf
    obtain ⟨hk, hv⟩ := Prod.mk.inj hf
    exact Prod.ext hk (PyVal.json.inj hv)
  exact List.map_injective_iff.mpr hpair (List.cons.inj h).2

theorem named_withTarget {target host : String} (hne : target ≠ host)
    (fields : List (String × Json)) :
    (some (withTarget target fields)).filter (named host) =
      (posing host (.json (.obj fields))).map (shown host) := by
  unfold posing
  cases hname : fields.lookup "target" with
  | none => simp [withTarget, hname, named, entryGet, hne, Option.filter]
  | some j =>
      cases j with
      | str name =>
          by_cases heq : name = host
          · subst heq
            simp [withTarget, hname, named, entryGet, Option.filter, shown, withTarget.rest]
          · simp [withTarget, hname, named, entryGet, heq, Option.filter]
      | _ => simp [withTarget, hname, named, entryGet, Option.filter]

/-- Without an object as its data a result stands under its own name. -/
theorem named_own {target host : String} (hne : target ≠ host) (rest : Entry) :
    (some (("target", .json (.str target)) :: rest)).filter (named host) = none := by
  simp [named, entryGet, Option.filter, hne]

theorem named_wrap {host : String} {r : TargetResult} (hne : r.target ≠ host) :
    (some (wrap r)).filter (named host) = (posing host r.data).map (shown host) := by
  unfold wrap
  rcases hdata : r.data with j | b
  · cases j with
    | obj fields => exact named_withTarget hne fields
    | _ => exact named_own hne _
  · exact named_own hne _

theorem named_failedDetail {host : String} {r : TargetResult} (hne : r.target ≠ host) :
    (failedDetail r).filter (named host) =
      if r.ok then none else (posing host r.data).map (shown host) := by
  unfold failedDetail
  cases r.ok with
  | true => rfl
  | false =>
      rcases hdata : r.data with j | b
      · cases j with
        | obj fields => exact named_withTarget hne fields
        | _ => rfl
      · rfl

/-- The read tools name the target of every entry. -/
theorem named_entry {call : ToolCall} (hcall : call.isUpgrade = false) {host : String}
    {r : TargetResult} (hok : r.ok = true) (hne : r.target ≠ host) :
    (call.entry r).toOption.filter (named host) =
      if call.merges r then (posing host r.data).map (shown host) else none := by
  cases call with
  | upgradeRun _ _ _ _ => cases hcall
  | version => exact named_own hne _
  | isfile path => exact named_own hne _
  | isdir path => exact named_own hne _
  | pcapFlowExtract pcapDir =>
      show (flowsEntry r).toOption.filter (named host) = none
      rw [flowsEntry]
      cases sliceFlows r.data with
      | error e => rfl
      | ok p => exact named_own hne _
  | captureStop path => exact named_wrap hne
  | _ =>
      simp only [ToolCall.merges, ToolCall.runsBatch, hok, Bool.and_self, if_true]
      exact named_wrap hne

theorem named_detail {call : ToolCall} {host : String} {r : TargetResult}
    (hne : r.target ≠ host) : call.detailEntry host r =
      if r.ok ∨ call.merges r = false then none else (posing host r.data).map (shown host) := by
  cases call with
  | captureStop path =>
      rw [ToolCall.detailEntry, ToolCall.detail, named_failedDetail hne]
      simp [ToolCall.merges]
  | _ =>
      cases hok : r.ok <;>
        simp [ToolCall.detailEntry, ToolCall.detail, ToolCall.merges, hok]

/-- Under the name of another target a result shows what it poses with. -/
theorem entries_of_poses {call : ToolCall} (hcall : call.isUpgrade = false) {host : String}
    {r : TargetResult} (hne : r.target ≠ host) :
    call.resultEntry host r = (call.poses host r).bind (fun p =>
        if p.1 then some (shown host p.2) else none) ∧
      call.detailEntry host r = (call.poses host r).bind fun p =>
        if p.1 then none else some (shown host p.2) := by
  have hresult : call.resultEntry host r =
      if r.ok ∧ call.merges r = true then (posing host r.data).map (shown host) else none := by
    rw [ToolCall.resultEntry]
    cases hok : r.ok with
    | true => simp [named_entry hcall hok hne]
    | false => simp
  rw [hresult, named_detail hne, ToolCall.poses]
  cases r.ok <;> cases call.merges r <;> cases posing host r.data <;> simp

/-- Two results of one target show the same under another name when they pose with the same. -/
theorem entries_eq_iff {call : ToolCall} (hcall : call.isUpgrade = false) {host : String}
    {r r' : TargetResult} (hne : r.target ≠ host) (hne' : r'.target ≠ host) :
    (call.resultEntry host r = call.resultEntry host r' ∧
      call.detailEntry host r = call.detailEntry host r') ↔
      call.poses host r = call.poses host r' := by
  obtain ⟨hresult, hdetail⟩ := entries_of_poses hcall hne
  obtain ⟨hresult', hdetail'⟩ := entries_of_poses hcall hne'
  constructor
  · intro h
    obtain ⟨hr, hd⟩ := h
    rw [hresult, hresult'] at hr
    rw [hdetail, hdetail'] at hd
    have hinj := shown_injective host
    generalize call.poses host r = p at hr hd ⊢
    generalize call.poses host r' = p' at hr hd ⊢
    rcases p with _ | ⟨ok, rest⟩ <;> rcases p' with _ | ⟨ok', rest'⟩
    · rfl
    · cases ok' <;> simp at hr hd
    · cases ok <;> simp at hr hd
    · cases ok <;> cases ok' <;> simp at hr hd
      · rw [hinj hd]
      · rw [hinj hr]
  · intro h
    rw [hresult, hresult', hdetail, hdetail', h]
    exact ⟨rfl, rfl⟩

end McpSocketServer
