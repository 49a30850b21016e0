import McpSocketServer.Proofs.WorkersInvariant

/-!
# Exclusive tools exclude each other and restore the locks

What holds in every state that any number of write-tool workers can reach, whatever the
outcomes of their steps are.
-/

namespace McpSocketServer

open WorkersState

variable {jobs : Nat → Job} {s s' : WorkersState} {w : Nat} {start : LockManager}

/-- A client function of an exclusive class is being executed on a host. -/
def RunsExclusive (jobs : Nat → Job) (s : WorkersState) (w : Nat) (host : String) : Prop :=
  s.stage w = .running ∧ ∃ cls, (jobs w).excludes host cls

/-- No `capture_stop` has been called. -/
def NoStopCalled (jobs : Nat → Job) (s : WorkersState) : Prop :=
  ∀ v host port path, jobs v = .captureStop host port path → s.stage v = .notCalled

theorem RunsExclusive.holds {host : String} (h : RunsExclusive jobs s w host) :
    ∃ cls, HoldsExclusive jobs s w host cls := by
  obtain ⟨hst, cls, hexcl⟩ := h
  exact ⟨cls, by rw [hst]; rfl, hexcl⟩

/-- A worker with a conflict has ended and failed. -/
def ConflictInv (s : WorkersState) : Prop :=
  ∀ w, (s.blockers w).isSome = true → s.stage w = .ended false ∨ s.stage w = .over false

theorem ConflictInv.step (h : ConflictInv s) (heff : Effect jobs s w s') : ConflictInv s' := by
  intro v hv
  by_cases hvw : v = w
  · subst hvw
    cases heff with
    | called hst =>
        have hold := h v hv
        simp [hst] at hold
    | took _ _ _ _ _ hst =>
        have hold := h v hv
        simp [hst] at hold
    | conflicted => exact Or.inl (by simp)
    | moved st hmove =>
        rcases h v hv with hold | hold <;> rw [hold] at hmove <;> cases hmove
        exact Or.inr (by simp)
    | released ok hrel => rcases h v hv with hold | hold <;> rw [hold] at hrel <;> cases hrel
  · rw [heff.stage_ne hvw]
    apply h v
    cases heff with
    | conflicted => simpa [goto, hvw] using hv
    | _ => exact hv

theorem conflictInv_invariant (C : WorkersState → Nat × WorkerStep → Prop) :
    (workersLts jobs start).Invariant C ConflictInv where
  init s hs := by
    rw [show s = { locks := start } from hs]
    exact fun w hw => by cases hw
  step s l s' _ hs _ hstep := hs.step (step_effect hstep)

/-- No step of a call that meets a conflict changes a lock. -/
theorem conflict_changes_no_lock (h : ConflictInv s) {l : WorkerStep}
    (hstep : s.step jobs w l = some s')
    (hw : s.stage w = .notCalled ∨ (s'.blockers w).isSome = true) (u : String) :
    s'.locks.lockOf u = s.locks.lockOf u := by
  have hinv' : ConflictInv s' := h.step (step_effect hstep)
  cases step_effect hstep with
  | called => rfl
  | took _ _ _ _ _ hst =>
      rcases hw with hw | hw
      · rw [hst] at hw; cases hw
      · have hend := hinv' w hw
        simp at hend
  | conflicted _ _ _ _ _ _ _ _ hlocks => exact hlocks u
  | moved => rfl
  | released ok hrel =>
      rcases hw with hw | hw
      · rw [hw] at hrel; cases hrel
      · have hend := h w hw
        rcases hend with hend | hend <;> rw [hend] at hrel <;> cases hrel

/-- As long as no stop has been called, protected capture locks are held. -/
theorem captureInv_noStop (C : WorkersState → Nat × WorkerStep → Prop) :
    (workersLts jobs start).Invariant C
      (fun s => CallInv s ∧ (NoStopCalled jobs s → CaptureInv jobs s)) where
  init s hs := ⟨(callInv_invariant C).init s hs, fun _ => captureInv_init hs⟩
  step s l s' _ hs _ hstep := by
    obtain ⟨hcall, hcapture⟩ := hs
    have heff := step_effect hstep
    refine ⟨hcall.step heff, fun hno => ?_⟩
    have hbefore : NoStopCalled jobs s := by
      intro v host port path hv
      have hafter := hno v host port path hv
      by_cases hvw : v = l.1
      · rw [hvw] at hafter
        exact absurd hafter heff.stage_called
      · rwa [heff.stage_ne hvw] at hafter
    refine (hcapture hbefore).step hcall heff fun _ _ v host key hstops _ => ?_
    obtain ⟨port, path, hjob, -⟩ := hstops
    exact heff.stage_called (hno l.1 host port path hjob)

/-- The capture lock that a call has taken is held after it exactly when its result is ok. -/
theorem capture_kept_iff (hstart : Lts.Reachable (workersLts jobs start) Lts.always s)
    (hno : NoStopCalled jobs s) {host : String} {key : CapKey} {ok : Bool}
    (hjob : (jobs w).starts host key) (hend : s.stage w = .ended ok ∨ s.stage w = .over ok) :
    (key ∈ (s.locks.lockOf host).captures ∧ s.captureOwner host key = some w) ↔ ok = true := by
  obtain ⟨hcall, hcapture⟩ := (captureInv_noStop Lts.always).reachable hstart
  have hkeeps : (s.stage w).keeps = ok := by rcases hend with hend | hend <;> rw [hend] <;> rfl
  constructor
  · rintro ⟨hmem, howner⟩
    have hown := (ownerInv_invariant Lts.always).reachable hstart
    rw [← hkeeps]
    exact (hown.owner w host key howner hmem).2
  · intro heq
    subst heq
    refine (hcapture hno).held w host key ⟨hjob, hkeeps, fun v hv hrel => ?_⟩
    obtain ⟨port, path, hstop, -⟩ := hv
    exact absurd (hno v host port path hstop) (hcall.released v hrel)

/-- Client functions of exclusive classes exclude each other on a host, a conflicting call
changes no lock, no exclusive lock outlives the calls, and without `capture_stop` a call's
capture lock is held afterwards exactly when its result is ok. -/
theorem workers_exclusion (hstart : NoExclusive start)
    (h : (workersLts jobs start).Reachable Lts.always s) :
    (∀ v w host, RunsExclusive jobs s v host → RunsExclusive jobs s w host → v = w) ∧
    (∀ w l s', s.step jobs w l = some s' →
      (s.stage w = .notCalled ∨ (s'.blockers w).isSome = true) →
      ∀ u, s'.locks.lockOf u = s.locks.lockOf u) ∧
    ((∀ w, (s.stage w).finished = true) →
      ∀ host, (s.locks.lockOf host).exclusiveHolder = none) ∧
    (NoStopCalled jobs s → ∀ w host key ok, (jobs w).starts host key →
      (s.stage w = .ended ok ∨ s.stage w = .over ok) →
      ((key ∈ (s.locks.lockOf host).captures ∧ s.captureOwner host key = some w) ↔
        ok = true)) := by
  have hexcl := (exclusiveInv_invariant hstart Lts.always).reachable h
  have hconflict := (conflictInv_invariant Lts.always).reachable h
  refine ⟨fun v w host hv hw => ?_, fun w l s' hstep hw => ?_, fun hdone host => ?_,
    fun hno w host key ok => capture_kept_iff h hno⟩
  · obtain ⟨_, hv⟩ := hv.holds
    obtain ⟨_, hw⟩ := hw.holds
    exact hexcl.unique hv hw
  · exact conflict_changes_no_lock hconflict hstep hw
  · rcases hexcl.held host with ⟨w, cls, hst, -⟩ | ⟨hnone, -⟩
    · have hfinished := hdone w
      rw [not_finished_of_holdsLock hst] at hfinished
      cases hfinished
    · exact hnone

/-- A command, and two captures of which the first meets it. -/
def exclusionJobs : Nat → Job
  | 0 => .runBatch "10.0.0.1" 9000 .shell []
  | _ => .runBatch "10.0.0.1" 9000 .capture ["/tmp/a.pcap"]

/-- The second capture is called when the command has ended. -/
def exclusionTrace : List (Nat × WorkerStep) :=
  [(0, .call), (0, .lock), (1, .call), (1, .lock), (0, .borrowed), (0, .fnEnded (.ok default)),
    (0, .poolReleased), (0, .unlock), (2, .call), (2, .lock), (2, .borrowed),
    (2, .fnEnded (.ok (.bytes []))), (2, .poolReleased), (2, .unlock)]

/-- The state in the end. -/
def exclusionEnd : WorkersState :=
  ((workersLts exclusionJobs LockManager.empty).run exclusionTrace
    { locks := LockManager.empty }).get rfl

theorem exclusionEnd_reachable :
    (workersLts exclusionJobs LockManager.empty).Reachable Lts.always exclusionEnd :=
  .of_run (.init rfl) (Option.some_get rfl).symm

theorem workers_exclusion_witness :
    exclusionEnd.blockers 1 = some [0] ∧
      (["/tmp/a.pcap"] ∈ (exclusionEnd.locks.lockOf "10.0.0.1").captures ∧
        exclusionEnd.captureOwner "10.0.0.1" ["/tmp/a.pcap"] = some 2) := by
  refine ⟨by decide, ?_⟩
  have hno : NoStopCalled exclusionJobs exclusionEnd := by
    intro v host port path hv
    unfold exclusionJobs at hv
    split at hv <;> cases hv
  have hkept := (workers_exclusion (fun _ => ⟨rfl, rfl⟩) exclusionEnd_reachable).2.2.2 hno 2
    "10.0.0.1" ["/tmp/a.pcap"] true ⟨9000, rfl⟩ (Or.inl rfl)
  exact hkept.mpr rfl

end McpSocketServer
