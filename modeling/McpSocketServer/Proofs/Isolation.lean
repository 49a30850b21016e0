import McpSocketServer.Proofs.WorkersInvariant

/-!
# Calls on distinct targets

A target is a host with a port, and the lock manager is asked with the host alone. Calls
on two targets leave each other alone exactly when the hosts differ.
-/

namespace McpSocketServer

open WorkersState

variable {jobs : Nat → Job} {s s' : WorkersState} {w : Nat}

/-- Calls on the two targets do not disturb each other, in any run over any calls on them: no
conflict is due to a lock of the other target, and no `capture_stop` is about to remove a
capture lock that was taken for the other. -/
def Isolated (T T' : String × Int) : Prop :=
  ∀ jobs : Nat → Job, (∀ w, (jobs w).target = T ∨ (jobs w).target = T') →
    ∀ s, (workersLts jobs LockManager.empty).Reachable Lts.always s →
      (∀ w bs v, s.blockers w = some bs → v ∈ bs → (jobs v).target = (jobs w).target) ∧
      (∀ v ok host key w, (jobs v).stops host key → Releases (jobs v) (s.stage v) ok →
        key ∈ (s.locks.lockOf host).captures → s.captureOwner host key = some w →
        (jobs w).target = (jobs v).target)

/-- Locks of a host are taken by workers of this host. -/
structure HostInv (jobs : Nat → Job) (s : WorkersState) : Prop where
  exclusive : ∀ host v, s.exclusiveOwner host = some v → (jobs v).host = host
  capture : ∀ host key v, s.captureOwner host key = some v → (jobs v).host = host
  blockers : ∀ w bs v, s.blockers w = some bs → v ∈ bs → (jobs v).host = (jobs w).host

/-- The workers behind a conflict work on the host of the conflict. -/
theorem HostInv.owners (h : HostInv jobs s) {host : String} {cls : LockClass} {key : CapKey}
    {v : Nat} (hv : v ∈ s.owners host cls key) : (jobs v).host = host := by
  unfold WorkersState.owners at hv
  split_ifs at hv
  · exact h.exclusive host v (Option.mem_toList.mp hv)
  · exact h.capture host key v (Option.mem_toList.mp hv)
  · obtain ⟨k, -, hk⟩ := List.mem_filterMap.mp hv
    exact h.capture host k v hk

theorem HostInv.step (h : HostInv jobs s) (heff : Effect jobs s w s') : HostInv jobs s' := by
  cases heff with
  | took host port cls key locks hst hjob hfree hlocks =>
      have hhost : (jobs w).host = host := by rw [hjob]; rfl
      refine ⟨fun u v hv => ?_, fun u k v hv => ?_, h.blockers⟩
      · by_cases hcls : cls.isExclusive = true
        · by_cases hu : u = host
          · subst hu
            have hvw : w = v := by simpa [own, goto, hcls] using hv
            exact hvw ▸ hhost
          · exact h.exclusive u v (by simpa [own, goto, hcls, hu] using hv)
        · exact h.exclusive u v (by simpa [own, goto, hcls] using hv)
      · by_cases hcls : cls = .capture
        · by_cases hu : u = host
          · subst hu
            by_cases hk : k = key
            · have hvw : w = v := by simpa [own, goto, hcls, hk] using hv
              exact hvw ▸ hhost
            · exact h.capture u k v (by simpa [own, goto, hcls, hk] using hv)
          · exact h.capture u k v (by simpa [own, goto, hcls, hu] using hv)
        · exact h.capture u k v (by simpa [own, goto, hcls] using hv)
  | conflicted host port cls key locks hst hjob hfree hlocks =>
      have hhost : (jobs w).host = host := by rw [hjob]; rfl
      refine ⟨h.exclusive, h.capture, fun u bs v hu hv => ?_⟩
      by_cases huw : u = w
      · subst huw
        have hbs : s.owners host cls key = bs := by simpa [goto] using hu
        rw [hhost]
        exact h.owners (hbs ▸ hv)
      · exact h.blockers u bs v (by simpa [goto, huw] using hu) hv
  | _ => exact ⟨h.exclusive, h.capture, h.blockers⟩

theorem hostInv_invariant {start : LockManager} (C : WorkersState → Nat × WorkerStep → Prop) :
    (workersLts jobs start).Invariant C (HostInv jobs) where
  init s hs := by
    rw [show s = { locks := start } from hs]
    refine ⟨fun host v hv => ?_, fun host key v hv => ?_, fun w bs v hw => ?_⟩
    · cases hv
    · cases hv
    · cases hw
  step s l s' _ hs _ hstep := hs.step (step_effect hstep)

/-- Targets with different hosts are isolated. -/
theorem isolated_of_host {T T' : String × Int} (hhost : T.1 = T'.1 → T = T') : Isolated T T' := by
  intro jobs hjobs s hs
  have hinv := (hostInv_invariant Lts.always).reachable hs
  have htarget : ∀ v w, (jobs v).host = (jobs w).host → (jobs v).target = (jobs w).target := by
    intro v w hvw
    have hfst : ((jobs v).target).1 = ((jobs w).target).1 := hvw
    rcases hjobs v with hv | hv <;> rcases hjobs w with hw | hw <;> rw [hv, hw] at hfst ⊢
    · exact hhost hfst
    · exact (hhost hfst.symm).symm
  refine ⟨fun w bs v hbs hv => htarget v w (hinv.blockers w bs v hbs hv), ?_⟩
  intro v ok host key w hstops _ _ howner
  apply htarget
  obtain ⟨port, path, hjob, -⟩ := hstops
  rw [hinv.capture host key w howner, hjob]
  rfl

/-- Two commands on one host, on two ports. -/
def twoPortJobs (host : String) (port port' : Int) : Nat → Job
  | 0 => .runBatch host port .shell []
  | _ => .runBatch host port' .shell []

/-- The second command is refused because of the lock of the first. -/
theorem twoPortJobs_conflict (host : String) (port port' : Int) :
    ∃ s, (workersLts (twoPortJobs host port port') LockManager.empty).run
      [(0, .call), (0, .lock), (1, .call), (1, .lock)] { locks := LockManager.empty } = some s ∧
      s.blockers 1 = some [0] := by
  simp [Lts.run, workersLts, WorkersState.step, twoPortJobs, lockStep, LockManager.acquire,
    LockManager.getTargetLock, LockManager.empty, LockManager.set, LockManager.lockOf,
    TargetLock.acquire, TargetLock.acquireExclusive, own, owners, goto, LockClass.isExclusive]

/-- Two ports of one host are not isolated. -/
theorem not_isolated_of_port {host : String} {port port' : Int} (hport : port ≠ port') :
    ¬ Isolated (host, port) (host, port') := by
  intro h
  obtain ⟨s, hrun, hblock⟩ := twoPortJobs_conflict host port port'
  have htargets : ∀ w, (twoPortJobs host port port' w).target = (host, port) ∨
      (twoPortJobs host port port' w).target = (host, port') := by
    intro w
    match w with
    | 0 => exact Or.inl rfl
    | _ + 1 => exact Or.inr rfl
  have hsame := (h _ htargets s (.of_run (.init rfl) hrun)).1 1 [0] 0 hblock
    (List.mem_singleton.mpr rfl)
  exact hport (congrArg Prod.snd hsame)

/-- Calls on two targets are isolated exactly when equal hosts mean equal targets. -/
theorem isolated_iff (T T' : String × Int) : Isolated T T' ↔ (T.1 = T'.1 → T = T') := by
  refine ⟨fun h hhost => ?_, isolated_of_host⟩
  obtain ⟨host, port⟩ := T
  obtain ⟨host', port'⟩ := T'
  obtain rfl : host = host' := hhost
  by_contra hne
  exact not_isolated_of_port (fun hport => hne (by rw [hport])) h

/-- Two servers on one machine are two targets that disturb each other. -/
theorem same_host_not_isolated :
    ¬ ∀ T T' : String × Int, T ≠ T' → Isolated T T' := fun h =>
  not_isolated_of_port (by decide) (h ("10.0.0.1", 9000) ("10.0.0.1", 9001) (by decide))

end McpSocketServer
