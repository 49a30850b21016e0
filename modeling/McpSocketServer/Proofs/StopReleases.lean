import McpSocketServer.Server.CaptureStop

/-!
# What `capture_stop` releases

A target is released by `capture_stop` exactly when one of its workers could borrow a
client: the release stands in a `finally` block that a failed borrow does not enter.
-/

namespace McpSocketServer

open SocketServerClient

/-- A borrow with this outcome of the waiting loop gets a client: a slot is free, and there is
an idle connection that has not expired, or connecting succeeds. -/
def Borrowing.succeeds (b : Borrowing) (socketTimeout : Int) : Prop :=
  match b.found with
  | none => False
  | some pool =>
    (∃ pc ∈ pool.idle, b.now - pc.lastUsed ≤ idleTimeout) ∨
      ((checkTimeout (1000 * socketTimeout)).isOk = true ∧ b.connect.isOk = true)

/-- A connection can be reused exactly when one has not expired. -/
theorem popIdle_reuse_iff {κ : Type} (now : Int) (idle : List (PooledConn κ)) :
    (TargetPool.popIdle now idle).reuse.isSome = true ↔
      ∃ pc ∈ idle, now - pc.lastUsed ≤ idleTimeout := by
  induction idle with
  | nil => simp [TargetPool.popIdle]
  | cons pc idle ih =>
      rw [TargetPool.popIdle]
      split
      · rename_i hexpired
        have hhead : ¬ now - pc.lastUsed ≤ idleTimeout := by omega
        simp only [ih, List.mem_cons, exists_eq_or_imp, hhead, false_or]
      · rename_i hfresh
        have hhead : now - pc.lastUsed ≤ idleTimeout := by omega
        simp only [Option.isSome_some, List.mem_cons, exists_eq_or_imp, hhead, true_or]

/-- Connecting a new client succeeds exactly when its timeout is valid and the target
answers. -/
theorem connect_isOk (outcome : Except PyErr Endpoint) (host : String) (port timeout : Int) :
    ((connect outcome).exec { host := host, port := port, timeout := timeout }).1.isOk =
      ((checkTimeout (1000 * timeout)).isOk && outcome.isOk) := by
  cases hcheck : checkTimeout (1000 * timeout) <;> cases outcome <;>
    simp [connect, hcheck, Except.isOk, Except.toBool]

theorem acquire_isOk_iff (b : Borrowing) (host : String) (port socketTimeout : Int) :
    (b.acquire host port socketTimeout).isOk = true ↔ b.succeeds socketTimeout := by
  unfold Borrowing.acquire Borrowing.succeeds
  cases b.found with
  | none => simp [Except.isOk, Except.toBool]
  | some pool =>
      have hreuse := popIdle_reuse_iff b.now pool.idle
      have hconnect := connect_isOk b.connect host port socketTimeout
      simp only [TargetPool.takeSlot]
      cases hpop : (TargetPool.popIdle b.now pool.idle).reuse with
      | some client =>
          rw [hpop] at hreuse
          exact ⟨fun _ => Or.inl (hreuse.mp rfl), fun _ => rfl⟩
      | none =>
          rw [hpop] at hreuse
          have hno : ¬ ∃ pc ∈ pool.idle, b.now - pc.lastUsed ≤ idleTimeout := by
            intro h
            cases hreuse.mpr h
          rw [or_iff_right hno, ← Bool.and_eq_true, ← hconnect]
          rcases (connect b.connect).exec _ with ⟨e | u, client⟩ <;>
            simp [Except.isOk, Except.toBool]

/-- One worker frees its target of the path when it can borrow, and does nothing else. -/
theorem captureStopOne_captures (rt : Runtime) (path : String) (port timeout : Int)
    (lm : LockManager) (host u : String) (b : Borrowing) :
    [path] ∈ ((captureStopOne rt path port timeout lm host b).2.lockOf u).captures ↔
      [path] ∈ (lm.lockOf u).captures ∧ ¬ (u = host ∧ b.succeeds timeout) := by
  have hacq := acquire_isOk_iff b host port timeout
  unfold captureStopOne
  cases hb : b.acquire host port timeout with
  | error e =>
      rw [hb] at hacq
      have hno : ¬ b.succeeds timeout := fun h => by cases hacq.mpr h
      simp [hno]
  | ok client =>
      rw [hb] at hacq
      have hyes : b.succeeds timeout := hacq.mp rfl
      simp only [LockManager.lockOf_release, hyes, and_true]
      split_ifs with hu
      · subst hu
        simp [TargetLock.release_captures]
      · simp [hu]

/-- After all workers a target still holds the path when it did before and no worker of it
could borrow. -/
theorem captureStopLoop_captures (rt : Runtime) (path : String) (port timeout : Int)
    (runs : List (String × Borrowing)) (lm : LockManager) (u : String) :
    [path] ∈ ((captureStopLoop rt path port timeout runs lm).2.lockOf u).captures ↔
      [path] ∈ (lm.lockOf u).captures ∧ ¬ ∃ b, (u, b) ∈ runs ∧ b.succeeds timeout := by
  induction runs generalizing lm with
  | nil => simp [captureStopLoop]
  | cons run runs ih =>
      obtain ⟨host, b⟩ := run
      have hhead := captureStopOne_captures rt path port timeout lm host u b
      simp only [captureStopLoop, ih, hhead, List.mem_cons, Prod.mk.injEq]
      constructor
      · rintro ⟨⟨hin, hnot⟩, hrest⟩
        refine ⟨hin, ?_⟩
        rintro ⟨b', ⟨rfl, rfl⟩ | hmem, hsucc⟩
        · exact hnot ⟨rfl, hsucc⟩
        · exact hrest ⟨b', hmem, hsucc⟩
      · rintro ⟨hin, hnot⟩
        refine ⟨⟨hin, ?_⟩, ?_⟩
        · rintro ⟨rfl, hsucc⟩
          exact hnot ⟨b, Or.inl ⟨rfl, rfl⟩, hsucc⟩
        · rintro ⟨b', hmem, hsucc⟩
          exact hnot ⟨b', Or.inr hmem, hsucc⟩

/-- After `capture_stop` no resolved target holds the path. -/
def ReleasesAll (rt : Runtime) (registry : Option Registry) (lm : LockManager)
    (targets : List String) (path : String) (port timeout : Int)
    (c : Completion (resolveTargets registry targets)) : Prop :=
  ∀ host ∈ resolveTargets registry targets,
    [path] ∉ ((captureStopTool rt registry lm targets path port timeout c).2.lockOf host).captures

/-- `capture_stop` releases all its targets exactly when, for each target that holds the path,
a worker could borrow a client. -/
theorem capture_stop_releases_iff (rt : Runtime) (registry : Option Registry) (lm : LockManager)
    (targets : List String) (path : String) (port timeout : Int)
    (c : Completion (resolveTargets registry targets)) :
    ReleasesAll rt registry lm targets path port timeout c ↔
      ∀ host ∈ resolveTargets registry targets, [path] ∈ (lm.lockOf host).captures →
        ∃ b, (host, b) ∈ c.runs ∧ b.succeeds timeout := by
  unfold ReleasesAll
  refine forall₂_congr fun host _ => ?_
  have hloop := captureStopLoop_captures rt path port timeout c.runs lm host
  simp only [captureStopTool]
  rw [hloop, not_and_not_right]

/-- A runtime for concrete runs: no text is JSON. -/
def plainRuntime : Runtime where
  dumps _ := []
  decode _ := ""
  loads _ := .error ⟨.valueError, "Expecting value: line 1 column 1 (char 0)"⟩
  loadsBytes _ := .error ⟨.valueError, "Expecting value: line 1 column 1 (char 0)"⟩
  decompress b := .ok b
  b64encode _ := ""

/-- A host that has gone down after its capture was started. -/
def downCompletion : Completion (resolveTargets none ["10.0.0.1"]) where
  runs := [("10.0.0.1", ⟨some {}, 0, .error ⟨.connectionError, "[Errno 111] Connection refused"⟩⟩)]
  perm := List.Perm.refl _

/-- The target that cannot be reached stays locked. -/
theorem capture_stop_keeps_lock :
    ¬ ∀ rt registry lm targets path port timeout c,
      ReleasesAll rt registry lm targets path port timeout c := by
  intro h
  have hdown := h plainRuntime none
    (LockManager.empty.acquire "10.0.0.1" .capture (some ["/tmp/a.pcap"])).2 ["10.0.0.1"]
    "/tmp/a.pcap" 9000 30 downCompletion "10.0.0.1" (List.mem_singleton.mpr rfl)
  exact hdown (by decide)

end McpSocketServer
