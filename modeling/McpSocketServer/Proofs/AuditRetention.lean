import McpSocketServer.Server.AuditTable

/-!
# What the audit log keeps

After any history of writes and starts of the server the table holds exactly the rows that were
young enough at every start since they were written, each under the number of its write. When
the clock does not go back these are the last ones that were written, without a gap.
-/

namespace McpSocketServer

namespace AuditEvent

/-- The write has put a row into the table. -/
def inserts : AuditEvent → Bool
  | .write _ (.ok ()) _ => true
  | _ => false

/-- The clock of a write that has put a row into the table. -/
def insertedAt : AuditEvent → Option Int
  | .write now (.ok ()) _ => some now
  | _ => none

/-- What the event does to the log. -/
def toLog : AuditEvent → Option (LogEvent AuditEntry Int)
  | .write now (.ok ()) r => some (.append ⟨now, { r with params := truncateParams r.params }⟩)
  | .write _ (.error _) _ => none
  | .init now retentionDays =>
    if 0 < retentionDays then some (.prune (now - 86400 * retentionDays)) else none

end AuditEvent

open AuditEvent NumberedLog

/-! ### Parameters -/

/-- A stored parameter is short. -/
theorem truncateParam_short (v : Json) : (truncateParam v).toStr.toList.length ≤ 203 := by
  unfold truncateParam
  split
  · simp [Json.toStr]
  · omega

/-- Truncating again changes nothing. -/
theorem truncateParam_again (v : Json) : truncateParam (truncateParam v) = truncateParam v := by
  by_cases hlong : 200 < v.toStr.toList.length
  · have hcut : truncateParam v = .str (String.ofList (v.toStr.toList.take 200) ++ "...") :=
      if_pos hlong
    have hlen : (v.toStr.toList.take 200).length = 200 := by
      rw [List.length_take]; omega
    have htake : (v.toStr.toList.take 200 ++ "...".toList).take 200 =
        v.toStr.toList.take 200 := by
      rw [List.take_append_of_le_length (by omega), List.take_of_length_le (by omega)]
    rw [hcut, truncateParam, Json.toStr, String.toList_append, String.toList_ofList, htake]
    rw [if_pos (by rw [List.length_append, hlen]; decide)]
  · rw [show truncateParam v = v from if_neg hlong]
    exact if_neg hlong

theorem truncateParams_again (params : List (String × Json)) :
    truncateParams (truncateParams params) = truncateParams params := by
  simp [truncateParams, truncateParam_again]

/-! ### The table as a log -/

theorem after_toLog (t : AuditTable) (e : AuditEvent) :
    t.after e = match e.toLog with
      | some l => t.apply AuditEntry.ts l
      | none => t := by
  rcases e with ⟨now, e | ⟨⟩, r⟩ | ⟨now, retentionDays⟩
  · rfl
  · rfl
  · by_cases hdays : 0 < retentionDays <;>
      simp [AuditTable.after, AuditTable.init, AuditTable.cleanup, toLog, hdays, apply]

theorem auditTable_eq (es : List AuditEvent) (t : AuditTable) :
    es.foldl AuditTable.after t = replay AuditEntry.ts (es.filterMap toLog) t := by
  induction es generalizing t with
  | nil => rfl
  | cons e es ih =>
      rw [List.foldl_cons, ih, after_toLog, List.filterMap_cons]
      cases e.toLog <;> rfl

theorem appends_toLog (es : List AuditEvent) :
    appends (es.filterMap toLog) = es.countP inserts := by
  induction es with
  | nil => rfl
  | cons e es ih =>
      rcases e with ⟨now, e | ⟨⟩, r⟩ | ⟨now, retentionDays⟩
      · simpa [List.filterMap_cons, toLog, inserts] using ih
      · rw [List.countP_cons_of_pos rfl, ← ih]
        exact appends_append _ _
      · by_cases hdays : 0 < retentionDays <;>
          simpa [List.filterMap_cons, toLog, inserts, hdays] using ih

/-- A row lives through the events when it is young enough at every start. -/
theorem spared_toLog {ts : Int} {es : List AuditEvent} :
    Spared ts (es.filterMap toLog) ↔
      ∀ now retentionDays, .init now retentionDays ∈ es → 0 < retentionDays →
        now - 86400 * retentionDays ≤ ts := by
  constructor
  · intro h now retentionDays hmem hdays
    refine h _ (List.mem_filterMap.mpr ⟨_, hmem, ?_⟩)
    simp [toLog, hdays]
  · intro h bound hmem
    obtain ⟨e, he, htoLog⟩ := List.mem_filterMap.mp hmem
    rcases e with ⟨now, e | ⟨⟩, r⟩ | ⟨now, retentionDays⟩
    · cases htoLog
    · cases htoLog
    · by_cases hdays : 0 < retentionDays
      · simp only [toLog, if_pos hdays, Option.some.injEq, LogEvent.prune.injEq] at htoLog
        exact htoLog ▸ h now retentionDays he hdays
      · simp [toLog, hdays] at htoLog

theorem toLog_eq_append {e : AuditEvent} {entry : AuditEntry} :
    e.toLog = some (.append entry) ↔ ∃ now r, e = .write now (.ok ()) r ∧
      entry = ⟨now, { r with params := truncateParams r.params }⟩ := by
  rcases e with ⟨now, e | ⟨⟩, r⟩ | ⟨now, retentionDays⟩
  · simp [toLog]
  · simp [toLog, eq_comm]
  · by_cases hdays : 0 < retentionDays <;> simp [toLog, hdays]

/-! ### Whole histories -/

/-- After every history the table holds the row of a write, under the number of that write,
exactly if the row was young enough at every later start that cleans up. All its parameters
are short, and truncating them again would change nothing. -/
theorem audit_rows_retained (es : List AuditEvent) :
    (∀ (k : Nat) (entry : AuditEntry), (k, entry) ∈ (auditTable es).rows ↔
      ∃ before now r after, es = before ++ .write now (.ok ()) r :: after ∧
        k = before.countP inserts + 1 ∧
        entry = ⟨now, { r with params := truncateParams r.params }⟩ ∧
        ∀ later retentionDays, .init later retentionDays ∈ after → 0 < retentionDays →
          later - 86400 * retentionDays ≤ now) ∧
    (∀ row ∈ (auditTable es).rows,
      truncateParams row.2.record.params = row.2.record.params ∧
        ∀ p ∈ row.2.record.params, p.2.toStr.toList.length ≤ 203) := by
  have hmem : ∀ (k : Nat) (entry : AuditEntry), (k, entry) ∈ (auditTable es).rows ↔
      ∃ before now r after, es = before ++ .write now (.ok ()) r :: after ∧
        k = before.countP inserts + 1 ∧
        entry = ⟨now, { r with params := truncateParams r.params }⟩ ∧
        ∀ later retentionDays, .init later retentionDays ∈ after → 0 < retentionDays →
          later - 86400 * retentionDays ≤ now := by
    intro k entry
    rw [auditTable, auditTable_eq, mem_replay]
    constructor
    · rintro (⟨hnew, -⟩ | ⟨before, after, hsplit, hk, hspared⟩)
      · cases hnew
      obtain ⟨pre, rest, rfl, rfl, hrest⟩ := List.filterMap_eq_append_iff.mp hsplit
      obtain ⟨skipped, e, post, rfl, hskipped, he, rfl⟩ := List.filterMap_eq_cons_iff.mp hrest
      obtain ⟨now, r, rfl, rfl⟩ := toLog_eq_append.mp he
      have hnone : skipped.filterMap toLog = [] := List.filterMap_eq_nil_iff.mpr hskipped
      have hcount : appends (pre.filterMap toLog) = (pre ++ skipped).countP inserts := by
        rw [← appends_toLog, List.filterMap_append, hnone, List.append_nil]
      refine ⟨pre ++ skipped, now, r, post, by rw [List.append_assoc], ?_, rfl,
        spared_toLog.mp hspared⟩
      rw [hk, hcount]
      exact congrArg (· + 1) (Nat.zero_add _)
    · rintro ⟨before, now, r, after, rfl, hk, rfl, hspared⟩
      refine Or.inr ⟨before.filterMap toLog, after.filterMap toLog, ?_, ?_,
        spared_toLog.mpr hspared⟩
      · rw [List.filterMap_append, List.filterMap_cons]
        rfl
      · rw [hk, appends_toLog]
        exact congrArg (· + 1) (Nat.zero_add _).symm
  refine ⟨hmem, fun row hrow => ?_⟩
  obtain ⟨k, entry⟩ := row
  obtain ⟨_, now, r, _, -, -, rfl, -⟩ := (hmem k entry).mp hrow
  refine ⟨truncateParams_again r.params, fun p hp => ?_⟩
  obtain ⟨q, -, rfl⟩ := List.mem_map.mp hp
  exact truncateParam_short q.2

/-- The clocks of the rows that the events write. -/
theorem numbered_toLog (n : Nat) (es : List AuditEvent) :
    (numbered n (es.filterMap toLog)).map (fun row => row.2.ts) = es.filterMap insertedAt := by
  induction es generalizing n with
  | nil => rfl
  | cons e es ih =>
      rcases e with ⟨now, e | ⟨⟩, r⟩ | ⟨now, retentionDays⟩
      · simpa [List.filterMap_cons, toLog, insertedAt] using ih n
      · simpa [List.filterMap_cons, toLog, insertedAt, numbered] using ih (n + 1)
      · by_cases hdays : 0 < retentionDays <;>
          simpa [List.filterMap_cons, toLog, insertedAt, numbered, hdays] using ih n

/-- When the clocks of the writes do not go back, the table holds the last rows that were
written, all of them from some number on. -/
theorem audit_rows_gapless {es : List AuditEvent}
    (hclock : (es.filterMap insertedAt).Pairwise (· ≤ ·)) :
    ∃ dropped, (auditTable es).rows.map Prod.fst =
        List.range' (dropped + 1) (es.countP inserts - dropped) ∧
      (∀ k entry, (k, entry) ∈ (auditTable es).rows → dropped < k ∧ k ≤ es.countP inserts) ∧
      (auditTable es).rows.Pairwise fun row row' => row.2.ts ≤ row'.2.ts := by
  have hsorted : (numbered 0 (es.filterMap toLog)).Pairwise fun row row' =>
      row.2.ts ≤ row'.2.ts := by
    rw [← numbered_toLog 0, List.pairwise_map] at hclock
    exact hclock
  have hsuffix : (auditTable es).rows <:+ numbered 0 (es.filterMap toLog) := by
    rw [auditTable, auditTable_eq]
    exact replay_suffix hsorted
  obtain ⟨cut, hcut⟩ := hsuffix
  have hnumbers : (auditTable es).rows.map Prod.fst =
      List.range' (cut.length + 1) (es.countP inserts - cut.length) := by
    have hall := congrArg (List.drop cut.length) (congrArg (List.map Prod.fst) hcut)
    rw [numbered_numbers, appends_toLog, List.map_append, List.drop_left' (List.length_map _),
      List.drop_range'] at hall
    rw [hall, Nat.zero_add, Nat.mul_one, Nat.add_comm 1]
  refine ⟨cut.length, hnumbers, fun k entry hmem => ?_, ?_⟩
  · have hk : k ∈ (auditTable es).rows.map Prod.fst := List.mem_map.mpr ⟨_, hmem, rfl⟩
    rw [hnumbers, List.mem_range'_1] at hk
    omega
  · rw [← hcut] at hsorted
    exact (List.pairwise_append.mp hsorted).2.1

/-- A record for the witness. -/
def plainRecord : AuditRecord := ⟨"internal", "cmd_exec", [], 1, 0, [], 5⟩

theorem audit_rows_gapless_restart :
    ∃ dropped, (auditTable [.init 0 90, .write 1 (.ok ()) plainRecord,
        .write 8000000 (.ok ()) plainRecord, .init 8000001 90]).rows.map Prod.fst =
      List.range' (dropped + 1) (2 - dropped) := by
  obtain ⟨dropped, hrows, -⟩ := audit_rows_gapless
    (show ([.init 0 90, .write 1 (.ok ()) plainRecord, .write 8000000 (.ok ()) plainRecord,
      .init 8000001 90].filterMap insertedAt).Pairwise (· ≤ ·) from by decide)
  exact ⟨dropped, hrows⟩

end McpSocketServer
