import McpSocketServer.Proofs.PollingRounds
import McpSocketServer.Server.WriteTools

/-!
# Which calls leave a record

A call of a write tool appends one row with its counts to the audit log exactly when it is not
refused before its targets are contacted, when UTF-8 encodes the texts of the row, and, for
`upgrade_run`, when no target called `*` fails: the audit of `upgrade_run` leaves such a target
out of the failures.
-/

namespace McpSocketServer

open SocketServerClient

/-- The table takes every row that can be encoded. -/
def AuditLogger.Writable (log : AuditLogger) : Prop :=
  ∀ r : AuditRecord, r.texts.all log.encodable = true → log.insert r = .ok ()

/-- UTF-8 encodes every text of the value. -/
def AuditLogger.Encodes (log : AuditLogger) (j : Json) : Prop :=
  ∀ s ∈ j.texts, log.encodable s = true

/-- One row has been appended to the log: it names the tool and has the counts of the answer. -/
def AuditedAs (tool : String) (answer : WriteAnswer) (log : AuditLogger)
    (log' : Option AuditLogger) : Prop :=
  ∃ r : AuditRecord, log' = some { log with rows := log.rows ++ [r] } ∧ r.tool = tool ∧
    r.okCount = answer.ok ∧ r.failedCount = answer.failed.length

theorem not_auditedAs (tool : String) (answer : WriteAnswer) (log : AuditLogger) :
    ¬ AuditedAs tool answer log (some log) := by
  intro h
  obtain ⟨r, hlog, -⟩ := h
  have hrows := congrArg AuditLogger.rows (Option.some.inj hlog)
  simp at hrows

/-- A call that leaves the log as it is has no record. -/
theorem not_auditedAs_of_kept {log : AuditLogger} {kept log' : Option AuditLogger}
    (hlog : kept = some log) (hkept : kept = log') (tool : String) (answer : WriteAnswer) :
    ¬ AuditedAs tool answer log log' := by
  subst hkept
  rw [hlog]
  exact not_auditedAs tool answer log

theorem audited_writable {log : AuditLogger} (h : log.Writable) (r : AuditRecord) :
    audited (some log) r =
      if r.stored.texts.all log.encodable = true then
        some { log with rows := log.rows ++ [r.stored] }
      else some log := by
  have hwrite : log.write r = if r.stored.texts.all log.encodable = true then
      .ok { log with rows := log.rows ++ [r.stored] } else .error surrogateError := by
    rw [AuditLogger.write]
    split_ifs with hencodable
    · rw [h r.stored hencodable]
      rfl
    · rfl
  rw [audited, Option.map_some, hwrite]
  split_ifs <;> rfl

/-- The record of a call is there when its row can be encoded and has the counts. -/
theorem recorded_iff {log : AuditLogger} (h : log.Writable) (tool : String) (r : AuditRecord)
    (answer : WriteAnswer) :
    AuditedAs tool answer log (audited (some log) r) ↔
      r.stored.texts.all log.encodable = true ∧ r.tool = tool ∧ r.okCount = answer.ok ∧
        r.failedCount = answer.failed.length := by
  rw [audited_writable h]
  split_ifs with hencodable
  · constructor
    · rintro ⟨row, hlog, hrow⟩
      have hrows := congrArg AuditLogger.rows (Option.some.inj hlog)
      obtain rfl := List.singleton_inj.mp (List.append_cancel_left hrows)
      exact ⟨hencodable, hrow⟩
    · rintro ⟨-, hrow⟩
      exact ⟨r.stored, rfl, hrow⟩
  · exact iff_of_false (not_auditedAs tool answer log) fun hrow => hencodable hrow.1

/-! ### The texts of a row -/

theorem mem_textsOfItems {s : String} {items : List Json} :
    s ∈ Json.textsOfItems items ↔ ∃ j ∈ items, s ∈ j.texts := by
  induction items with
  | nil => simp [Json.textsOfItems]
  | cons j items ih => simp [Json.textsOfItems, ih]

theorem mem_textsOfFields {s : String} {fields : List (String × Json)} :
    s ∈ Json.textsOfFields fields ↔ ∃ p ∈ fields, s = p.1 ∨ s ∈ p.2.texts := by
  induction fields with
  | nil => simp [Json.textsOfFields]
  | cons p fields ih => simp [Json.textsOfFields, ih, or_assoc]

section Texts

variable {log : AuditLogger}

@[simp] theorem encodes_str {s : String} : log.Encodes (.str s) ↔ log.encodable s = true := by
  simp [AuditLogger.Encodes, Json.texts]

@[simp] theorem encodes_bool {b : Bool} : log.Encodes (.bool b) := by
  simp [AuditLogger.Encodes, Json.texts]

@[simp] theorem encodes_null : log.Encodes .null := by
  simp [AuditLogger.Encodes, Json.texts]

theorem encodes_arr {items : List Json} :
    log.Encodes (.arr items) ↔ ∀ j ∈ items, log.Encodes j := by
  simp only [AuditLogger.Encodes, Json.texts, mem_textsOfItems]
  exact ⟨fun h j hj s hs => h s ⟨j, hj, hs⟩, fun h s ⟨j, hj, hs⟩ => h j hj s hs⟩

theorem encodes_obj {fields : List (String × Json)} :
    log.Encodes (.obj fields) ↔ ∀ p ∈ fields, log.encodable p.1 = true ∧ log.Encodes p.2 := by
  simp only [AuditLogger.Encodes, Json.texts, mem_textsOfFields]
  constructor
  · exact fun h p hp => ⟨h p.1 ⟨p, hp, Or.inl rfl⟩, fun s hs => h s ⟨p, hp, Or.inr hs⟩⟩
  · rintro h s ⟨p, hp, rfl | hs⟩
    · exact (h p hp).1
    · exact (h p hp).2 s hs

/-- The outcome of a target in the audit of a batch. -/
theorem encodes_batchOutcome {r : TargetResult} :
    log.Encodes (batchOutcome r) ↔ log.encodable r.target = true ∧ log.Encodes r.error := by
  simp [batchOutcome, encodes_obj, log.ascii "target" (by decide), log.ascii "ok" (by decide),
    log.ascii "error" (by decide)]

/-- The outcome of a target in the audit of an upgrade. -/
theorem encodes_upgradeOutcome {ok : Bool} {target : String} :
    log.Encodes (upgradeOutcome ok target) ↔ log.encodable target = true := by
  simp [upgradeOutcome, encodes_obj, log.ascii "target" (by decide), log.ascii "ok" (by decide)]

theorem row_encodable_iff {r : AuditRecord} (hsource : r.sourceIp = "internal")
    (htool : r.tool.toList.all (·.toNat < 128) = true)
    (hkeys : ∀ p ∈ r.params, p.1.toList.all (·.toNat < 128) = true) :
    r.stored.texts.all log.encodable = true ↔
      (∀ p ∈ r.params, log.Encodes (truncateParam p.2)) ∧ ∀ j ∈ r.outcomes, log.Encodes j := by
  have htexts : r.stored.texts.all log.encodable = true ↔ log.encodable r.sourceIp = true ∧
      log.encodable r.tool = true ∧ log.Encodes (.obj (truncateParams r.params)) ∧
        log.Encodes (.arr r.outcomes) := by
    simp only [AuditRecord.texts, AuditRecord.stored, AuditLogger.Encodes, List.all_cons,
      List.all_append, Bool.and_eq_true, List.all_eq_true]
  have hparams : log.Encodes (.obj (truncateParams r.params)) ↔
      ∀ p ∈ r.params, log.Encodes (truncateParam p.2) := by
    rw [encodes_obj]
    simp only [truncateParams, List.forall_mem_map]
    exact ⟨fun h p hp => (h p hp).2, fun h p hp => ⟨log.ascii p.1 (hkeys p hp), h p hp⟩⟩
  rw [htexts, hsource, log.ascii "internal" (by decide), log.ascii r.tool htool, hparams,
    encodes_arr]
  simp only [true_and]

end Texts

/-- The arguments that the audit of a call records; `ver` is the version that `upgrade_run` has
chosen. -/
def WriteCall.auditParams (ver : String) : WriteCall → List (String × Json)
  | .cmdExec args cwd _ wait => [("args", .str args), ("cwd", .str cwd), ("wait", .bool wait)]
  | .captureStart iface path extended singleQueue =>
    [("iface", .str iface), ("path", .str path), ("extended", .str extended),
      ("single_queue", .bool singleQueue)]
  | .captureStop path => [("path", .str path)]
  | .boceRun url count _ _ mode _ =>
    [("url", .str url), ("count", .int count), ("mode", .str mode)]
  | .replayRun pcaps uplinkIface downlinkIface o =>
    [("pcaps", .arr (pcaps.map .str)), ("uplink_iface", .str uplinkIface),
      ("downlink_iface", .str downlinkIface), ("mbps", .int o.mbps)]
  | .socketListen action listenPort file maxBytes =>
    [("action", .str action), ("listen_port", .int listenPort), ("file", .str file),
      ("max_bytes", .int maxBytes)]
  | .upgradeRun _ force => [("version", .str ver), ("force", .bool force)]

/-- The error that the audit of a call records of a worker. `upgrade_run` records none. -/
def WriteCall.auditError : WriteCall → String × WorkerEnd → Json
  | .captureStop path, e => ((ToolCall.captureStop path).result e.1 e.2).error
  | .upgradeRun .., _ => .null
  | _, e => (e.2.result e.1).error

/-- UTF-8 encodes the texts that a call has to record: those of its arguments, shortened to 200
characters, the names of its targets and the errors of their workers. -/
def WriteCall.Encodable (log : AuditLogger) (call : WriteCall) (ver : String)
    (ends : List (String × WorkerEnd)) : Prop :=
  (∀ p ∈ call.auditParams ver, log.Encodes (truncateParam p.2)) ∧
    ∀ e ∈ ends, log.encodable e.1 = true ∧ log.Encodes (call.auditError e)

theorem auditParams_keys (call : WriteCall) (ver : String) :
    ∀ p ∈ call.auditParams ver, p.1.toList.all (·.toNat < 128) = true := by
  cases call <;> simp [WriteCall.auditParams]

theorem tool_ascii (call : WriteCall) : call.tool.toList.all (·.toNat < 128) = true := by
  cases call <;> simp [WriteCall.tool]

/-- The row of a batch has the counts of an answer that is made from the same results. -/
theorem batchRecord_auditedAs_iff {log : AuditLogger} (h : log.Writable) (call : WriteCall)
    (ver : String) (ends : List (String × WorkerEnd)) (result : String × WorkerEnd → TargetResult)
    (htarget : ∀ e, (result e).target = e.1) (herror : ∀ e, (result e).error = call.auditError e)
    (durationMs : Nat) {answer : WriteAnswer}
    (hok : answer.ok = ((ends.map result).filter TargetResult.ok).length)
    (hfailed : answer.failed = failedOf (ends.map result)) :
    AuditedAs call.tool answer log (audited (some log)
        (batchRecord call.tool (call.auditParams ver) (ends.map result) durationMs)) ↔
      call.Encodable log ver ends := by
  have hrow := @row_encodable_iff log
    (batchRecord call.tool (call.auditParams ver) (ends.map result) durationMs) rfl
    (tool_ascii call) (auditParams_keys call ver)
  have houtcomes : (∀ j ∈ (ends.map result).map batchOutcome, log.Encodes j) ↔
      ∀ e ∈ ends, log.encodable e.1 = true ∧ log.Encodes (call.auditError e) := by
    simp only [List.forall_mem_map, encodes_batchOutcome, htarget, herror]
  have hcounts : (batchRecord call.tool (call.auditParams ver) (ends.map result)
      durationMs).failedCount = answer.failed.length := by
    rw [hfailed, failedOf, List.length_map]
    rfl
  rw [recorded_iff h, hrow, hcounts]
  show (_ ∧ ∀ j ∈ (ends.map result).map batchOutcome, log.Encodes j) ∧ _ ↔ _
  rw [houtcomes]
  exact and_iff_left ⟨rfl, hok.symm, rfl⟩

/-! ### Upgrades -/

/-- The row of an upgrade has the counts of its answer when no failure is one of `*`. -/
theorem upgradeRecord_auditedAs_iff {log : AuditLogger} (h : log.Writable) (ver : String)
    (force : Bool) {rep : Report} (durationMs : Nat) {answer : WriteAnswer}
    (hok : rep.ok = rep.results.length) (hanswer : answer.toReport = rep) :
    AuditedAs "upgrade_run" answer log
        (audited (some log) (upgradeRecord ver force rep durationMs)) ↔
      (upgradeRecord ver force rep durationMs).stored.texts.all log.encodable = true ∧
        ∀ f ∈ rep.failed, f.1 ≠ "*" := by
  subst hanswer
  have hcount : (upgradeRecord ver force answer.toReport durationMs).failedCount =
      (answer.failed.filter fun f => f.1 ≠ "*").length := by
    simp [upgradeRecord]
  have hall : (answer.failed.filter fun f => f.1 ≠ "*").length = answer.failed.length ↔
      ∀ f ∈ answer.failed, f.1 ≠ "*" := by
    rw [List.length_filter_eq_length_iff]
    simp
  rw [recorded_iff h, hcount, hall]
  exact and_congr_right fun _ => ⟨fun h => h.2.2, fun h => ⟨rfl, hok.symm, h⟩⟩

/-- The client function of `upgrade_run` returns a reason or reports an accepted push. -/
def UpgradeOutcome (v : PyVal) : Prop :=
  (∃ reason, v = errorField reason) ∨
    ∃ cur : Json, v = .json (.obj [("pushed", .bool true), ("from_version", .str cur.toStr)])

theorem upgradeFn_outcome {rt : Runtime} {ver sha : String} {force : Bool}
    {push : Bool × String} {s : FnState} {v : PyVal}
    (h : ((upgradeFn rt ver sha force push).exec s).1 = .ok v) : UpgradeOutcome v := by
  have htriple : Prog.Triple (fun _ => True) (upgradeFn rt ver sha force push)
      (fun v _ => UpgradeOutcome v) fun _ _ => True := by
    refine .bind .any fun cur => ?_
    split
    · exact .pure fun _ _ => Or.inl ⟨_, rfl⟩
    refine .ite (fun _ => .pure fun _ _ => Or.inl ⟨_, rfl⟩) fun _ => ?_
    refine .bind .any fun resp => ?_
    refine .bind .any fun error => ?_
    refine .ite (fun _ => .pure fun _ _ => Or.inl ⟨_, rfl⟩) fun _ => ?_
    refine .bind .any fun ok => ?_
    refine .ite (fun _ => ?_) fun _ => .pure fun _ _ => Or.inl ⟨_, rfl⟩
    refine .bind .any fun _ => ?_
    exact .pure fun _ _ => Or.inr ⟨_, rfl⟩
  exact htriple.ok trivial (Prod.ext h rfl)

/-- The client function of the worker has ended with an accepted push. -/
def WorkerEnd.Pushed (e : WorkerEnd) : Prop :=
  ∃ cur : Json, e = .ran (.ok (.json (.obj
    [("pushed", .bool true), ("from_version", .str cur.toStr)])))

/-- A worker of `upgrade_run` has an ok result when its push was accepted. -/
theorem WriteRun.pushed_iff {rt : Runtime} {version : String} {force : Bool}
    {port timeout : Int} {resolved : List String}
    (run : WriteRun rt (.upgradeRun version force) port timeout resolved)
    {e : String × WorkerEnd} (he : e ∈ run.ends) :
    (e.2.result e.1).ok = true ↔ e.2.Pushed := by
  obtain ⟨host, worker⟩ := e
  constructor
  · intro hok
    cases worker with
    | ran outcome =>
        obtain ⟨ver, sha, push, ts, s, houtcome⟩ := run.ran host outcome he
        cases outcome with
        | error e => cases hok
        | ok v =>
            rcases upgradeFn_outcome houtcome.symm with ⟨reason, rfl⟩ | ⟨cur, rfl⟩
            · cases hok
            · exact ⟨cur, rfl⟩
    | _ => cases hok
  · rintro ⟨cur, hcur⟩
    have hworker : worker = _ := hcur
    rw [hworker]
    rfl

theorem WriteRun.upgrade_result {rt : Runtime} {version : String} {force : Bool}
    {port timeout : Int} {resolved : List String}
    (run : WriteRun rt (.upgradeRun version force) port timeout resolved)
    {e : String × WorkerEnd} (he : e ∈ run.ends) (hok : (e.2.result e.1).ok = true) :
    ∃ cur, e.2.result e.1 = pushedResult e.1 cur := by
  obtain ⟨cur, hcur⟩ := (run.pushed_iff he).mp hok
  exact ⟨cur, by rw [hcur]; rfl⟩

/-- The results of an upgrade are those of accepted pushes. -/
theorem WriteRun.pushed {rt : Runtime} {version : String} {force : Bool}
    {port timeout : Int} {resolved : List String}
    (run : WriteRun rt (.upgradeRun version force) port timeout resolved) :
    ∀ r ∈ run.results, r.ok = true → ∃ cur, r = pushedResult r.target cur := by
  intro r hr hok
  obtain ⟨e, he, rfl⟩ := List.mem_map.mp hr
  rw [WorkerEnd.result_target]
  exact run.upgrade_result he hok

/-- The entry of an accepted push has its target. -/
theorem entryTarget_of_pushed {r : TargetResult} (h : ∃ cur, r = pushedResult r.target cur) :
    entryTarget (wrap r) = r.target := by
  obtain ⟨cur, hcur⟩ := h
  rw [hcur]
  rfl

/-- Where the ok results are those of accepted pushes, each of them is polled. -/
theorem mem_pushedEntries {results : List TargetResult}
    (hpushed : ∀ r ∈ results, r.ok = true → ∃ cur, r = pushedResult r.target cur)
    {entry : Entry} :
    entry ∈ pushedEntries results ↔ ∃ r ∈ results, r.ok = true ∧ wrap r = entry := by
  constructor
  · intro hentry
    obtain ⟨r, hr, rfl⟩ := List.mem_map.mp (List.mem_filter.mp hentry).1
    obtain ⟨hr, hok⟩ := List.mem_filter.mp hr
    exact ⟨r, hr, hok, rfl⟩
  · intro hresult
    obtain ⟨r, hr, hok, rfl⟩ := hresult
    refine List.mem_filter.mpr ⟨List.mem_map_of_mem (List.mem_filter.mpr ⟨hr, hok⟩), ?_⟩
    obtain ⟨cur, hcur⟩ := hpushed r hr hok
    rw [hcur]
    rfl

/-- The targets that `upgrade_run` reports as failed. -/
theorem upgradeReport_failed_iff (ver : String) (confirmed : String → Bool)
    {results : List TargetResult}
    (hpushed : ∀ r ∈ results, r.ok = true → ∃ cur, r = pushedResult r.target cur)
    (target : String) :
    (∃ f ∈ (upgradeReport ver confirmed results).failed, f.1 = target) ↔
      ∃ r ∈ results, r.target = target ∧ (r.ok = true → confirmed target = false) := by
  rw [upgradeReport_failed]
  constructor
  · intro h
    obtain ⟨f, hf, rfl⟩ := h
    rcases List.mem_append.mp hf with hf | hf
    · obtain ⟨r, hr, rfl⟩ := List.mem_map.mp hf
      obtain ⟨hr, hok⟩ := List.mem_filter.mp hr
      exact ⟨r, hr, rfl, fun h => by simp [h] at hok⟩
    · obtain ⟨entry, hentry, rfl⟩ := List.mem_map.mp hf
      obtain ⟨hentry, hunconfirmed⟩ := List.mem_filter.mp hentry
      obtain ⟨r, hr, hok, rfl⟩ := (mem_pushedEntries hpushed).mp hentry
      exact ⟨r, hr, (entryTarget_of_pushed (hpushed r hr hok)).symm,
        fun _ => by simpa using hunconfirmed⟩
  · intro h
    obtain ⟨r, hr, rfl, hunconfirmed⟩ := h
    cases hok : r.ok with
    | false =>
        refine ⟨_, List.mem_append_left _ (List.mem_map_of_mem (List.mem_filter.mpr ⟨hr, ?_⟩)), rfl⟩
        rw [hok]
        rfl
    | true =>
        have htarget := entryTarget_of_pushed (hpushed r hr hok)
        have hentry : wrap r ∈ pushedEntries results :=
          (mem_pushedEntries hpushed).mpr ⟨r, hr, hok, rfl⟩
        refine ⟨_, List.mem_append_right _ (List.mem_map_of_mem (List.mem_filter.mpr ⟨hentry, ?_⟩)),
          htarget⟩
        rw [htarget, hunconfirmed hok]
        rfl

/-- The targets that `upgrade_run` reports as upgraded. -/
theorem upgradeReport_results_iff (ver : String) (confirmed : String → Bool)
    {results : List TargetResult}
    (hpushed : ∀ r ∈ results, r.ok = true → ∃ cur, r = pushedResult r.target cur)
    (target : String) :
    (∃ entry ∈ (upgradeReport ver confirmed results).results, entryTarget entry = target) ↔
      ∃ r ∈ results, r.target = target ∧ r.ok = true ∧ confirmed target = true := by
  have hresults : (upgradeReport ver confirmed results).results =
      ((pushedEntries results).filter fun r => confirmed (entryTarget r)).map fun r =>
        [("target", .json (.str (entryTarget r))), ("upgraded", .json (.bool true)),
          ("version", .json (.str ver)), ("from_version", entryGet r "from_version")] := rfl
  rw [hresults]
  constructor
  · rintro ⟨entry, hentry, rfl⟩
    obtain ⟨pushed, hpushed', rfl⟩ := List.mem_map.mp hentry
    obtain ⟨hpushed', hconfirmed⟩ := List.mem_filter.mp hpushed'
    obtain ⟨r, hr, hok, rfl⟩ := (mem_pushedEntries hpushed).mp hpushed'
    exact ⟨r, hr, (entryTarget_of_pushed (hpushed r hr hok)).symm, hok, hconfirmed⟩
  · rintro ⟨r, hr, rfl, hok, hconfirmed⟩
    have htarget := entryTarget_of_pushed (hpushed r hr hok)
    have hentry : wrap r ∈ pushedEntries results :=
      (mem_pushedEntries hpushed).mpr ⟨r, hr, hok, rfl⟩
    refine ⟨_, List.mem_map_of_mem (List.mem_filter.mpr ⟨hentry, ?_⟩), htarget⟩
    rwa [htarget]

/-- The row of an upgrade without a failure of `*` names all of its targets. -/
theorem upgradeRecord_encodable_iff {log : AuditLogger} {ver : String} {force : Bool}
    {confirmed : String → Bool} {results : List TargetResult} (durationMs : Nat)
    (hpushed : ∀ r ∈ results, r.ok = true → ∃ cur, r = pushedResult r.target cur)
    (hstar : ∀ f ∈ (upgradeReport ver confirmed results).failed, f.1 ≠ "*") :
    (upgradeRecord ver force (upgradeReport ver confirmed results)
        durationMs).stored.texts.all log.encodable = true ↔
      log.Encodes (truncateParam (.str ver)) ∧
        log.Encodes (truncateParam (.bool force)) ∧
        ∀ r ∈ results, log.encodable r.target = true := by
  have hrow := @row_encodable_iff log (upgradeRecord ver force (upgradeReport ver confirmed
    results) durationMs) rfl (by decide : "upgrade_run".toList.all (·.toNat < 128) = true)
    (by simp [upgradeRecord])
  have hfilter : (upgradeReport ver confirmed results).failed.filter (fun f => f.1 ≠ "*") =
      (upgradeReport ver confirmed results).failed :=
    List.filter_eq_self.mpr fun f hf => by simpa using hstar f hf
  have houtcomes : (upgradeRecord ver force (upgradeReport ver confirmed results)
      durationMs).outcomes =
        (upgradeReport ver confirmed results).results.map
          (fun r => upgradeOutcome true (entryTarget r)) ++
        (upgradeReport ver confirmed results).failed.map fun f => upgradeOutcome false f.1 := by
    rw [upgradeRecord, hfilter]
  have htargets : (∀ j ∈ (upgradeRecord ver force (upgradeReport ver confirmed results)
      durationMs).outcomes, log.Encodes j) ↔ ∀ r ∈ results, log.encodable r.target = true := by
    rw [houtcomes]
    simp only [List.forall_mem_append, List.forall_mem_map, encodes_upgradeOutcome]
    constructor
    · rintro ⟨hresults, hfailed⟩ r hr
      by_cases hunconfirmed : r.ok = true → confirmed r.target = false
      · obtain ⟨f, hf, hname⟩ :=
          (upgradeReport_failed_iff ver confirmed hpushed r.target).mpr ⟨r, hr, rfl, hunconfirmed⟩
        exact hname ▸ hfailed f hf
      · obtain ⟨hok, hconfirmed⟩ := Classical.not_imp.mp hunconfirmed
        obtain ⟨entry, hentry, hname⟩ := (upgradeReport_results_iff ver confirmed hpushed
          r.target).mpr ⟨r, hr, rfl, hok, by simpa using hconfirmed⟩
        exact hname ▸ hresults entry hentry
    · intro hencodable
      constructor
      · intro entry hentry
        obtain ⟨r, hr, hname, -⟩ :=
          (upgradeReport_results_iff ver confirmed hpushed _).mp ⟨entry, hentry, rfl⟩
        exact hname ▸ hencodable r hr
      · intro f hf
        obtain ⟨r, hr, hname, -⟩ :=
          (upgradeReport_failed_iff ver confirmed hpushed _).mp ⟨f, hf, rfl⟩
        exact hname ▸ hencodable r hr
  rw [hrow, htargets]
  simp [upgradeRecord, and_assoc]

/-! ### All tools -/

section

variable {rt : Runtime} {port timeout : Int}

/-- A call gets past its early returns: the command is on the whitelist, the action of
`socket_listen` can be carried out, and `upgrade_run` has targets, a binary and the version
`ver`. A worker of the target `*` moreover has its push accepted, and one of the probes that
the polling makes of `*` meets a network that answers with the version. -/
def WriteCall.Proceeds (site : Site) (targets : List String) (ver : String) (call : WriteCall)
    (course : Course rt call port timeout (call.workers site targets)) : Prop :=
  match call with
  | .cmdExec args _ _ _ => site.whitelist = [] ∨ allowed site.whitelist args = true
  | .socketListen action _ file _ => action ∈ listenActions ∧ (action = "save" → file ≠ "")
  | .upgradeRun version _ =>
    resolveTargets site.registry targets ≠ [] ∧ chooseVersion version course.latest = .ok ver ∧
      (∃ path sha, course.release = .ok (some path, sha)) ∧
      ∀ e ∈ course.run.ends, e.1 = "*" → e.2.Pushed ∧
        ∃ p ∈ pollProbes rt ver course.network port course.pollStart course.run.results,
          p.item.target = "*" ∧ p.read = .ok (.str ver)
  | _ => True

/-- The condition under which a call leaves its record. -/
def WriteCall.LeavesRecord (log : AuditLogger) (site : Site) (targets : List String)
    (call : WriteCall) (course : Course rt call port timeout (call.workers site targets)) : Prop :=
  ∃ ver, call.Proceeds site targets ver course ∧ call.Encodable log ver course.run.ends

/-- No failure of `upgrade_run` is one of the target `*` when a worker of that target has its
push accepted and a probe of it reads the version. -/
theorem no_star_failed_iff {version : String} {force : Bool} {resolved : List String}
    (run : WriteRun rt (.upgradeRun version force) port timeout resolved) (ver : String)
    {net : Network} {start : Nat} {confirmed : List String}
    (hconfirmed : confirmedTargets rt ver port net start run.results = .ok confirmed) :
    (∀ f ∈ (upgradeReport ver (fun t => confirmed.contains t) run.results).failed, f.1 ≠ "*") ↔
      ∀ e ∈ run.ends, e.1 = "*" → e.2.Pushed ∧
        ∃ p ∈ pollProbes rt ver net port start run.results,
          p.item.target = "*" ∧ p.read = .ok (.str ver) := by
  have hiff := upgradeReport_failed_iff ver (fun t => confirmed.contains t) run.pushed "*"
  have hprobes : "*" ∈ confirmed ↔ _ := mem_confirmed_iff hconfirmed
  rw [← hprobes]
  constructor
  · intro h e he hstar
    rw [← run.pushed_iff he]
    by_contra hfails
    have hresult : e.2.result e.1 ∈ run.results := List.mem_map_of_mem he
    obtain ⟨f, hf, hf'⟩ := hiff.mpr ⟨_, hresult, by simpa using hstar, fun hok => by
      simpa [hok] using hfails⟩
    exact h f hf hf'
  · intro h f hf hstar
    obtain ⟨r, hr, htarget, hunconfirmed⟩ := hiff.mp ⟨f, hf, hstar⟩
    obtain ⟨e, he, rfl⟩ := List.mem_map.mp hr
    rw [WorkerEnd.result_target] at htarget
    obtain ⟨hpushed, hmem⟩ := h e he htarget
    have hfalse := hunconfirmed ((run.pushed_iff he).mpr hpushed)
    simp [hmem] at hfalse

/-- A call of `upgrade_run` that returns has ended before the push and kept the log, or it has
polled its targets and recorded what it answers. -/
theorem upgradeRunTool_returned {site : Site} {targets : List String} {version : String}
    {force : Bool} {call : WriteCall} {resolved : List String}
    {log' : Option AuditLogger} {answer : WriteAnswer}
    (course : Course rt call port timeout resolved)
    (h : upgradeRunTool site targets version force course = (.ok answer, log')) :
    (site.audit = log' ∧ (resolveTargets site.registry targets ≠ [] →
      ∀ ver path sha, chooseVersion version course.latest = .ok ver →
        course.release ≠ .ok (some path, sha))) ∨
      ∃ ver path sha confirmed, resolveTargets site.registry targets ≠ [] ∧
        chooseVersion version course.latest = .ok ver ∧ course.release = .ok (some path, sha) ∧
        confirmedTargets rt ver port course.network course.pollStart course.run.results =
          .ok confirmed ∧
        answer.toReport = upgradeReport ver (fun t => confirmed.contains t) course.run.results ∧
        log' = audited site.audit (upgradeRecord ver force answer.toReport course.auditMs) := by
  unfold upgradeRunTool at h
  by_cases hresolved : resolveTargets site.registry targets = []
  · rw [if_pos hresolved] at h
    exact .inl ⟨congrArg Prod.snd h, fun hne => absurd hresolved hne⟩
  rw [if_neg hresolved] at h
  cases hver : chooseVersion version course.latest with
  | error r =>
      rw [hver] at h
      exact .inl ⟨congrArg Prod.snd h, fun _ ver path sha hver' => by cases hver'⟩
  | ok ver =>
      rw [hver] at h
      rcases hrelease : course.release with e | ⟨path, sha⟩
      · rw [hrelease] at h
        cases h
      cases path with
      | none =>
          rw [hrelease] at h
          exact .inl ⟨congrArg Prod.snd h, fun _ ver path sha _ hrelease' => by cases hrelease'⟩
      | some path =>
          rw [hrelease] at h
          dsimp only at h
          rw [upgradePolled] at h
          cases hconfirmed : confirmedTargets rt ver port course.network course.pollStart
              course.run.results with
          | error e =>
              rw [hconfirmed] at h
              cases h
          | ok confirmed =>
              rw [hconfirmed] at h
              obtain ⟨hanswer, rfl⟩ := Prod.mk.inj h
              obtain rfl := Except.ok.inj hanswer
              exact .inr ⟨ver, path, sha, confirmed, hresolved, rfl, rfl, hconfirmed, rfl, rfl⟩

theorem upgradeRunTool_auditedAs_iff {site : Site} {targets : List String} {version : String}
    {force : Bool} {log : AuditLogger} {log' : Option AuditLogger} {answer : WriteAnswer}
    (hlog : site.audit = some log) (hwritable : log.Writable)
    (course : Course rt (.upgradeRun version force) port timeout
      ((WriteCall.upgradeRun version force).workers site targets))
    (h : upgradeRunTool site targets version force course = (.ok answer, log')) :
    AuditedAs "upgrade_run" answer log log' ↔
      WriteCall.LeavesRecord log site targets (.upgradeRun version force) course := by
  rcases upgradeRunTool_returned course h with ⟨hkept, hearly⟩ |
    ⟨ver, path, sha, confirmed, hresolved, hver, hrelease, hconfirmed, hanswer, rfl⟩
  · refine iff_of_false (not_auditedAs_of_kept hlog hkept "upgrade_run" answer) fun hrecord => ?_
    obtain ⟨ver, ⟨hresolved, hver, ⟨path, sha, hrelease⟩, -⟩, -⟩ := hrecord
    exact hearly hresolved ver path sha hver hrelease
  · have hok : answer.ok = answer.results.length := by
      rw [hanswer]
      exact (List.length_map _).symm
    have hstar := no_star_failed_iff course.run ver hconfirmed
    have htargets : (∀ r ∈ course.run.results, log.encodable r.target = true) ↔
        ∀ e ∈ course.run.ends, log.encodable e.1 = true := by
      rw [BatchRun.results, List.forall_mem_map]
      simp only [WorkerEnd.result_target]
    rw [hlog, upgradeRecord_auditedAs_iff hwritable ver force course.auditMs hok rfl, hanswer,
      and_comm, and_congr_right fun h => upgradeRecord_encodable_iff course.auditMs
        course.run.pushed h, hstar, htargets]
    constructor
    · rintro ⟨hpushed, hparam, hforce, hnames⟩
      exact ⟨ver, ⟨hresolved, hver, ⟨path, sha, hrelease⟩, hpushed⟩,
        by simpa [WriteCall.auditParams] using ⟨hparam, hforce⟩,
        fun e he => ⟨hnames e he, encodes_null⟩⟩
    · rintro ⟨ver', ⟨-, hver', -, hpushed⟩, hparams, hnames⟩
      obtain rfl := Except.ok.inj (hver.symm.trans hver')
      have hparams' : log.Encodes (truncateParam (.str ver)) ∧
          log.Encodes (truncateParam (.bool force)) := by
        simpa [WriteCall.auditParams] using hparams
      exact ⟨hpushed, hparams'.1, hparams'.2, fun e he => (hnames e he).1⟩

/-- A call of a tool that runs through `_run_batch`. -/
theorem runBatchTool_auditedAs_iff {site : Site} {log : AuditLogger} (hlog : site.audit = some log)
    (hwritable : log.Writable) {call : WriteCall} {resolved : List String} (ver : String)
    (herror : ∀ e, (e.2.result e.1).error = call.auditError e)
    (course : Course rt call port timeout resolved) :
    AuditedAs call.tool (runBatchTool site call.tool (call.auditParams ver) course).1 log
        (runBatchTool site call.tool (call.auditParams ver) course).2 ↔
      call.Encodable log ver course.run.ends := by
  rw [runBatchTool, hlog]
  exact batchRecord_auditedAs_iff hwritable call ver course.run.ends
    (fun e => e.2.result e.1) (fun e => WorkerEnd.result_target e.1 e.2) herror course.auditMs
    rfl rfl

/-- A tool that records no version leaves its record when it proceeds and the row can be encoded. -/
theorem leavesRecord_iff {site : Site} {targets : List String} {call : WriteCall}
    {course : Course rt call port timeout (call.workers site targets)} {log : AuditLogger}
    (hparams : ∀ ver, call.auditParams ver = call.auditParams "")
    (hproceeds : call.Proceeds site targets "" course) :
    call.Encodable log "" course.run.ends ↔ call.LeavesRecord log site targets course := by
  refine ⟨fun hencodable => ⟨"", hproceeds, hencodable⟩, fun hrecord => ?_⟩
  obtain ⟨ver, -, hencodable⟩ := hrecord
  rwa [WriteCall.Encodable, hparams] at hencodable

/-- A call that returns has left its record exactly when the condition holds. -/
theorem audit_complete_iff (site : Site) (targets : List String) (call : WriteCall)
    (course : Course rt call port timeout (call.workers site targets)) {log : AuditLogger}
    (hlog : site.audit = some log) (hwritable : log.Writable) {answer : WriteAnswer}
    {log' : Option AuditLogger} (h : call.perform site targets course = (.ok answer, log')) :
    AuditedAs call.tool answer log log' ↔ call.LeavesRecord log site targets course := by
  have hbatch : ∀ ver, (∀ e, (e.2.result e.1).error = call.auditError e) →
      runBatchTool site call.tool (call.auditParams ver) course = (answer, log') →
        (AuditedAs call.tool answer log log' ↔ call.Encodable log ver course.run.ends) := by
    intro ver herror heq
    have haudited := runBatchTool_auditedAs_iff hlog hwritable ver herror course
    rwa [heq] at haudited
  have hrefused : site.audit = log' → ¬ AuditedAs call.tool answer log log' :=
    fun hkept => not_auditedAs_of_kept hlog hkept call.tool answer
  have hreturned : ∀ {r : WriteAnswer × Option AuditLogger},
      WriteCall.perform.returned r = (.ok answer, log') → r = (answer, log') := by
    intro r hr
    obtain ⟨hanswer, hlog'⟩ := Prod.mk.inj hr
    exact Prod.ext (Except.ok.inj hanswer) hlog'
  cases call with
  | upgradeRun version force => exact upgradeRunTool_auditedAs_iff hlog hwritable course h
  | cmdExec args cwd env wait =>
      have hr := hreturned h
      unfold cmdExecTool at hr
      split_ifs at hr with hallowed
      · refine iff_of_false (hrefused (congrArg Prod.snd hr)) fun hrecord => ?_
        obtain ⟨ver, hproceeds, hencodable⟩ := hrecord
        rcases hproceeds with hwhitelist | hin
        · exact hallowed.1 hwhitelist
        · exact absurd (hin.symm.trans hallowed.2) (by simp)
      · rw [hbatch "" (fun _ => rfl) hr]
        refine leavesRecord_iff (fun _ => rfl) ?_
        by_cases hwhitelist : site.whitelist = []
        · exact Or.inl hwhitelist
        · exact Or.inr (by simpa using fun h => hallowed ⟨hwhitelist, h⟩)
  | socketListen action listenPort file maxBytes =>
      have hr := hreturned h
      unfold socketListenTool at hr
      split_ifs at hr with hsave haction
      · refine iff_of_false (hrefused (congrArg Prod.snd hr)) fun hrecord => ?_
        obtain ⟨ver, hproceeds, hencodable⟩ := hrecord
        exact hproceeds.2 hsave.1 hsave.2
      · rw [hbatch "" (fun _ => rfl) hr]
        exact leavesRecord_iff (fun _ => rfl) ⟨haction, fun heq hfile => hsave ⟨heq, hfile⟩⟩
      · refine iff_of_false (hrefused (congrArg Prod.snd hr)) fun hrecord => ?_
        obtain ⟨ver, hproceeds, hencodable⟩ := hrecord
        exact haction hproceeds.1
  | captureStop path =>
      have hr := hreturned h
      obtain ⟨rfl, rfl⟩ := Prod.mk.inj hr
      rw [hlog]
      have hrecord : AuditedAs "capture_stop" (captureStopAudited site path course).1 log _ ↔ _ :=
        batchRecord_auditedAs_iff hwritable (.captureStop path) "" course.run.ends
          (fun e => (ToolCall.captureStop path).result e.1 e.2)
          (fun e => ToolCall.result_target _ _ _) (fun _ => rfl) course.auditMs rfl rfl
      exact hrecord.trans (leavesRecord_iff (fun _ => rfl) trivial)
  | _ =>
      rw [hbatch "" (fun _ => rfl) (hreturned h)]
      exact leavesRecord_iff (fun _ => rfl) trivial

end

/-- A new audit log that takes every row. -/
def newLog : AuditLogger := ⟨[], fun _ => true, fun _ _ => rfl, fun _ => .ok ()⟩

theorem audited_newLog (r : AuditRecord) :
    audited (some newLog) r = some { newLog with rows := newLog.rows ++ [r.stored] } := by
  rw [audited_writable fun _ _ => rfl]
  exact if_pos (List.all_eq_true.mpr fun _ _ => rfl)

/-- A server without a registry that allows `ls` only. -/
def listingSite : Site := ⟨none, none, ["ls"], some newLog⟩

/-- A call whose only worker meets a conflict. -/
def conflictCourse (call : WriteCall) (port timeout : Int) :
    Course (tableRuntime [] "") call port timeout ["10.0.0.1"] where
  run :=
    { ends := [("10.0.0.1", .conflict ⟨"10.0.0.1", .shell, none⟩)]
      perm := .refl _
      ran := by simp }
  auditMs := 1
  returnMs := 1
  latest := none
  release := .ok (none, "")
  network := fun _ _ => ⟨.error ⟨.timeoutError, "timed out"⟩, 5000⟩
  pollStart := 0

/-- A command that the whitelist refuses leaves no record. -/
theorem refusal_unrecorded : ¬ ∀ (rt : Runtime) (port timeout : Int) (site : Site)
    (targets : List String) (call : WriteCall)
    (course : Course rt call port timeout (call.workers site targets)) (log : AuditLogger),
    site.audit = some log → log.Writable → ∀ answer log',
      call.perform site targets course = (.ok answer, log') →
        AuditedAs call.tool answer log log' := by
  intro h
  let call : WriteCall := .cmdExec "rm -rf /" "" none true
  have hrefused : cmdExecTool listingSite ["10.0.0.1"] "rm -rf /" "" true
      (conflictCourse call 9000 60) =
        (refuseAll ["10.0.0.1"] "命令不在白名单: rm -rf /", some newLog) :=
    if_pos (by decide)
  exact not_auditedAs _ _ _ (h _ 9000 60 listingSite ["10.0.0.1"] call (conflictCourse call 9000 60)
    newLog rfl (fun _ _ => rfl) _ _ (congrArg WriteCall.perform.returned hrefused))

/-- A command on the whitelist leaves one. -/
theorem audit_complete_iff_witness : ∃ answer log',
    WriteCall.perform listingSite ["10.0.0.1"] (.cmdExec "ls -l" "" none true)
      (conflictCourse _ 9000 60) = (.ok answer, log') ∧
    AuditedAs "cmd_exec" answer newLog log' :=
  ⟨_, _, rfl, (audit_complete_iff listingSite ["10.0.0.1"] (.cmdExec "ls -l" "" none true)
    (conflictCourse _ 9000 60) rfl (fun _ _ => rfl) rfl).mpr
      ⟨"", Or.inr (by decide), fun _ _ _ _ => rfl, fun _ _ => ⟨rfl, fun _ _ => rfl⟩⟩⟩

end McpSocketServer
