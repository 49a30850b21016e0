import McpSocketServer.Proofs.Exclusion

/-!
# Who may remove a capture lock

A capture lock is meant to stand from the step in which `capture_start` takes it until the
call fails or a later `capture_stop` ends it. The lock carries no owner, and `capture_stop`
releases by key alone, so this holds of the runs in which no `capture_stop` of a path
overlaps a `capture_start` of the same path that has taken its lock.
-/

namespace McpSocketServer

open WorkersState

variable {jobs : Nat → Job} {s s' : WorkersState} {start : LockManager}

/-- Every protected capture lock is held by its owner, and no exclusive client function is
executed on its host. -/
def CaptureOwnership (jobs : Nat → Job) (s : WorkersState) : Prop :=
  ∀ w host key, Protected jobs s w host key →
    (key ∈ (s.locks.lockOf host).captures ∧ s.captureOwner host key = some w) ∧
      ∀ v, ¬ RunsExclusive jobs s v host

/-- The condition on the order of calls: a `capture_start` that gets its lock takes it while no
`capture_stop` of the same path is in progress, and a `capture_stop` begins while no
`capture_start` of the same path has the lock without having returned. -/
def NoOverlap (jobs : Nat → Job) (s : WorkersState) : Nat × WorkerStep → Prop
  | (w, .lock) => ∀ v host key, (jobs w).starts host key → (jobs v).stops host key →
      (s.locks.lockOf host).Free .capture (some key) → (s.stage v).finished = true
  | (v, .call) => ∀ w host key, (jobs v).stops host key → (jobs w).starts host key →
      (s.stage w).keeps = true → (s.stage w).isOver = true
  | _ => True

/-- A `capture_stop` in progress has begun after every `capture_start` of its path that keeps
the lock had returned. -/
def OverlapInv (jobs : Nat → Job) (s : WorkersState) : Prop :=
  ∀ v w host key, (jobs v).stops host key → (jobs w).starts host key →
    (s.stage v).finished = false → (s.stage w).keeps = true →
    (s.stage w).isOver = true ∧ s.seenOver v w = true

theorem Effect.seenOver_ne {x : Nat} (h : Effect jobs s x s') {v : Nat} (hv : v ≠ x) :
    s'.seenOver v = s.seenOver v := by
  cases h with
  | called => simp [goto, hv]
  | _ => rfl

theorem Moves.not_finished {j : Job} {st st' : Stage} (h : Moves j st st')
    (hst' : st'.finished = false) : st.finished = false := by
  cases h <;> first | rfl | cases hst'

/-- The stop `v` moves. -/
theorem OverlapInv.step_stop {v w : Nat} {l : WorkerStep} {host : String} {key : CapKey}
    (h : OverlapInv jobs s) (hC : NoOverlap jobs s (v, l)) (hstep : s.step jobs v l = some s')
    (hv : (jobs v).stops host key) (hw : (jobs w).starts host key)
    (hrun : (s'.stage v).finished = false) (hkeeps : (s.stage w).keeps = true) :
    (s.stage w).isOver = true ∧ s'.seenOver v w = true := by
  cases step_effect hstep with
  | called hst =>
      obtain rfl := step_of_notCalled hstep hst
      have hover := hC w host key hv hw hkeeps
      exact ⟨hover, by simpa [goto] using hover⟩
  | took _ _ _ _ _ _ hjob =>
      obtain ⟨_, _, hstop, -⟩ := hv
      rw [hjob] at hstop
      cases hstop
  | conflicted _ _ _ _ _ _ hjob =>
      obtain ⟨_, _, hstop, -⟩ := hv
      rw [hjob] at hstop
      cases hstop
  | moved st hmove =>
      rw [goto_stage, Function.update_self] at hrun
      exact h v w host key hv hw (hmove.not_finished hrun) hkeeps
  | released ok hrel => simp [Stage.finished] at hrun

/-- The start `w` moves: it cannot come to keep a lock while the stop is in progress. -/
theorem OverlapInv.step_start {v w : Nat} {l : WorkerStep} {host : String} {key : CapKey}
    (h : OverlapInv jobs s) (hC : NoOverlap jobs s (w, l)) (hstep : s.step jobs w l = some s')
    (hv : (jobs v).stops host key) (hw : (jobs w).starts host key)
    (hrun : (s.stage v).finished = false) : (s'.stage w).keeps = false := by
  cases step_effect hstep with
  | called => simp [Stage.keeps, Stage.holdsLock]
  | took host' port cls key' locks hst hjob hfree =>
      obtain rfl := step_of_called hstep hst hjob
      obtain ⟨_, hstart⟩ := hw
      obtain ⟨rfl, rfl, rfl, rfl⟩ := Job.runBatch.inj (hjob.symm.trans hstart)
      rw [hC v host' key' ⟨_, hstart⟩ hv hfree] at hrun
      cases hrun
  | conflicted => simp [Stage.keeps]
  | moved st hmove =>
      rw [goto_stage, Function.update_self, hmove.keeps_eq hw]
      by_contra hkeeps
      have hover := (h v w host key hv hw hrun (by simpa using hkeeps)).1
      rw [hmove.not_over] at hover
      cases hover
  | released ok hrel => simp [Stage.keeps, hrel.starts_failed hw]

theorem OverlapInv.step {x : Nat} {l : WorkerStep} (h : OverlapInv jobs s)
    (hC : NoOverlap jobs s (x, l)) (hstep : s.step jobs x l = some s') : OverlapInv jobs s' := by
  intro v w host key hv hw hrun hkeeps
  have heff := step_effect hstep
  have hvw : v ≠ w := by
    intro heq
    subst heq
    exact not_stops_of_starts hw hv
  by_cases hxv : v = x
  · subst hxv
    rw [heff.stage_ne hvw.symm] at hkeeps ⊢
    exact h.step_stop hC hstep hv hw hrun hkeeps
  · rw [heff.stage_ne hxv] at hrun
    rw [heff.seenOver_ne hxv]
    by_cases hxw : w = x
    · subst hxw
      rw [h.step_start hC hstep hv hw hrun] at hkeeps
      cases hkeeps
    · rw [heff.stage_ne hxw] at hkeeps ⊢
      exact h v w host key hv hw hrun hkeeps

/-- Under the condition, protected capture locks are held. -/
theorem captureInv_noOverlap :
    (workersLts jobs start).Invariant (NoOverlap jobs)
      (fun s => CallInv s ∧ OverlapInv jobs s ∧ CaptureInv jobs s) where
  init s hs := by
    refine ⟨(callInv_invariant (NoOverlap jobs)).init s hs, ?_, captureInv_init hs⟩
    rw [show s = { locks := start } from hs]
    intro v w host key _ _ hrun _
    cases hrun
  step s l s' _ hs hC hstep := by
    obtain ⟨hcall, hoverlap, hcapture⟩ := hs
    have heff := step_effect hstep
    refine ⟨hcall.step heff, hoverlap.step hC hstep, hcapture.step hcall heff ?_⟩
    -- a stop that releases has begun after every protected start had returned
    intro ok hrel v host key hstops hprot
    have hvw : v ≠ l.1 := by
      intro heq
      subst heq
      exact not_stops_of_starts hprot.1 hstops
    have hkeeps : (s.stage v).keeps = true := by simpa [releaseLock, hvw] using hprot.2.1
    have hseen := (hoverlap l.1 v host key hstops hprot.1
      (not_finished_of_holdsLock hrel.holdsLock) hkeeps).2
    have hnot := hprot.2.2 l.1 hstops (by simp [releaseLock, goto])
    change s.seenOver l.1 v = false at hnot
    rw [hseen] at hnot
    cases hnot

/-- In every run whose calls do not overlap, capture locks are owned. -/
theorem capture_ownership (h : (workersLts jobs LockManager.empty).Reachable (NoOverlap jobs) s) :
    CaptureOwnership jobs s := by
  obtain ⟨-, -, hcapture⟩ := captureInv_noOverlap.reachable h
  have hexcl := (exclusiveInv_invariant (fun _ => ⟨rfl, rfl⟩) (NoOverlap jobs)).reachable h
  intro w host key hprot
  have hheld := hcapture.held w host key hprot
  refine ⟨hheld, fun v hv => ?_⟩
  obtain ⟨cls, hholds⟩ := hv.holds
  have hholder := (hexcl.holder v host cls hholds).1
  have hempty := hexcl.noCapture host (by rw [hholder]; nofun)
  rw [hempty] at hheld
  cases hheld.1

/-- A `capture_stop` that is called first, the `capture_start` of the same path, and a
command. -/
def overlapJobs : Nat → Job
  | 0 => .captureStop "10.0.0.1" 9000 "/tmp/a.pcap"
  | 1 => .runBatch "10.0.0.1" 9000 .capture ["/tmp/a.pcap"]
  | _ => .runBatch "10.0.0.1" 9000 .shell []

/-- The stop releases the lock of the start that began after it, and the command runs while
the start is still being executed. -/
def overlapTrace : List (Nat × WorkerStep) :=
  [(0, .call), (0, .borrowed), (1, .call), (1, .lock), (1, .borrowed),
    (0, .fnEnded (.ok (.json (.obj [("stopped", .bool false)])))), (0, .poolReleased),
    (0, .unlock), (2, .call), (2, .lock), (2, .borrowed)]

/-- The state after the overlap. -/
def overlapEnd : WorkersState :=
  ((workersLts overlapJobs LockManager.empty).run overlapTrace
    { locks := LockManager.empty }).get rfl

/-- The order of calls matters: ownership fails in a run with an overlap. -/
theorem capture_ownership_fails :
    ¬ ∀ jobs s, (workersLts jobs LockManager.empty).Reachable Lts.always s →
      CaptureOwnership jobs s := by
  intro h
  have hreach : (workersLts overlapJobs LockManager.empty).Reachable Lts.always overlapEnd :=
    .of_run (.init rfl) (Option.some_get rfl).symm
  have hprot : Protected overlapJobs overlapEnd 1 "10.0.0.1" ["/tmp/a.pcap"] := by
    refine ⟨⟨9000, rfl⟩, rfl, fun v hv _ => ?_⟩
    obtain ⟨port, path, hjob, -⟩ := hv
    match v with
    | 0 => rfl
    | 1 => cases hjob
    | _ + 2 => cases hjob
  exact (h overlapJobs overlapEnd hreach 1 _ _ hprot).2 2
    ⟨rfl, .shell, 9000, [], rfl, rfl⟩

/-- The same calls one after the other: start, stop, command. -/
def orderedTrace : List (Nat × WorkerStep) :=
  [(1, .call), (1, .lock), (1, .borrowed), (1, .fnEnded (.ok (.bytes []))), (1, .poolReleased),
    (1, .unlock), (1, .callReturns)]

/-- The state after the start. -/
def orderedEnd : WorkersState :=
  ((workersLts overlapJobs LockManager.empty).run orderedTrace
    { locks := LockManager.empty }).get rfl

/-- As long as only the start moves, the one stop has not been called and nothing overlaps. -/
theorem orderedEnd_reachable :
    (workersLts overlapJobs LockManager.empty).Reachable (NoOverlap overlapJobs) orderedEnd := by
  have hlabels : ∀ l ∈ orderedTrace, l.1 = 1 := by decide
  refine Lts.Reachable.of_run_within (I := fun s => s.stage 0 = .notCalled) ?_ ?_ hlabels
    (.init rfl) rfl (Option.some_get rfl).symm
  · rintro s ⟨w, l⟩ hzero rfl
    cases l with
    | call =>
        rintro w host key ⟨port, path, hjob, -⟩
        cases hjob
    | lock =>
        rintro v host key - ⟨port, path, hjob, -⟩ -
        match v with
        | 0 => simp [hzero, Stage.finished]
        | 1 => cases hjob
        | _ + 2 => cases hjob
    | _ => trivial
  · rintro s ⟨w, l⟩ s' hzero rfl hstep
    rw [(step_effect hstep).stage_ne (show 0 ≠ 1 by decide)]
    exact hzero

theorem capture_ownership_witness :
    ["/tmp/a.pcap"] ∈ (orderedEnd.locks.lockOf "10.0.0.1").captures := by
  have hprot : Protected overlapJobs orderedEnd 1 "10.0.0.1" ["/tmp/a.pcap"] := by
    refine ⟨⟨9000, rfl⟩, rfl, fun v hv hrel => ?_⟩
    obtain ⟨port, path, hjob, -⟩ := hv
    match v with
    | 0 => rfl
    | 1 => cases hjob
    | _ + 2 => cases hjob
  exact (capture_ownership orderedEnd_reachable 1 _ _ hprot).1.1

end McpSocketServer
