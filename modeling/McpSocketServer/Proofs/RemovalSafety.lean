import McpSocketServer.Proofs.WorkersInvariant
import McpSocketServer.Server.Removals

/-!
# Which removals are safe

A removal deletes a target in use only if a lock of the target was taken after the removal had
looked at the locks, or if a successful start of a listener was not written to the registry.
-/

namespace McpSocketServer

open WorkersState RemovalState

variable {works : Nat → Work} {removals : Nat → String × Int} {s s' : RemovalState}

/-! ### The registry -/

namespace Registry

variable {reg : Registry} {host : String} {port : Int}

/-- The registered listener of a target. -/
def liveAt (reg : Registry) (target : String × Int) : Bool :=
  ((reg.find target.1 target.2).map Row.listenLiveness).getD false

theorem find_map_withLiveness (rows : List Row) (host : String) (port : Int) (alive : Bool)
    (key : String × Int) :
    (rows.map (withLiveness host port alive)).find? (fun r => r.key = key) =
      (rows.find? fun r => r.key = key).map (withLiveness host port alive) := by
  rw [List.find?_map]
  have hkey : (fun r : Row => decide (r.key = key)) ∘ withLiveness host port alive =
      fun r => decide (r.key = key) := by
    funext r
    simp only [Function.comp_apply, withLiveness_key]
  rw [hkey]

/-- The flag that is written is read back, where the target has a row. -/
theorem liveAt_setListenLiveness (alive : Bool) (hbind : bindInteger port = .ok ())
    (target : String × Int) :
    (reg.setListenLiveness host alive port).2.liveAt target =
      if target = (host, port) then alive && (reg.find host port).isSome
      else reg.liveAt target := by
  have hfind : (reg.setListenLiveness host alive port).2.find target.1 target.2 =
      (reg.find target.1 target.2).map (withLiveness host port alive) := by
    simp only [setListenLiveness, hbind]
    exact find_map_withLiveness reg.rows host port alive target
  rw [liveAt, hfind, Option.map_map]
  cases hrow : reg.find target.1 target.2 with
  | none =>
      by_cases htarget : target = (host, port)
      · subst htarget
        simp [hrow]
      · simp [htarget, liveAt, hrow]
  | some row =>
      have hkey : row.key = target := by
        simpa using List.find?_some hrow
      by_cases htarget : target = (host, port)
      · subst htarget
        simp [hrow, withLiveness, hkey]
      · simp [htarget, liveAt, hrow, withLiveness, hkey]

/-- `remove_target` reads a listener there, or cannot read the column at all. -/
def Registered (reg : Registry) (target : String × Int) : Prop :=
  bindInteger target.2 = .ok () → reg.liveAt target = true

theorem not_registered (h : reg.getListenLiveness host port = .ok false) :
    ¬ reg.Registered (host, port) := by
  intro hreg
  unfold getListenLiveness at h
  cases hbind : bindInteger port with
  | error e =>
      rw [hbind] at h
      cases h
  | ok u =>
      rw [hbind] at h
      have hlive : reg.liveAt (host, port) = false := Except.ok.inj h
      rw [hreg hbind] at hlive
      cases hlive

theorem setListenLiveness_error (alive : Bool) (hbind : bindInteger port ≠ .ok ()) :
    (reg.setListenLiveness host alive port).2 = reg := by
  unfold setListenLiveness
  cases h : bindInteger port with
  | error e => rfl
  | ok u => exact absurd h hbind

theorem setListenLiveness_raises {alive : Bool} {e : PyErr} {reg' : Registry}
    (h : reg.setListenLiveness host alive port = (.error e, reg')) : reg' = reg := by
  have hbind : bindInteger port ≠ .ok () := by
    intro hbind
    simp only [setListenLiveness, hbind] at h
    cases congrArg Prod.fst h
  have hsame := @setListenLiveness_error reg host port alive hbind
  rwa [h] at hsame

/-- The flag of a target with a row is registered. -/
theorem registered_set (hrow : (reg.find host port).isSome = true) :
    (reg.setListenLiveness host true port).2.Registered (host, port) := by
  intro hbind
  rw [liveAt_setListenLiveness true hbind, if_pos rfl, hrow]
  rfl

theorem Registered.set_true {target : String × Int} (h : reg.Registered target) :
    (reg.setListenLiveness host true port).2.Registered target := by
  by_cases hbind : bindInteger port = .ok ()
  · intro htarget
    rw [liveAt_setListenLiveness true hbind]
    have hlive := h htarget
    split_ifs with heq
    · subst heq
      cases hrow : reg.find host port with
      | none => simp [liveAt, hrow] at hlive
      | some row => rfl
    · exact hlive
  · rwa [setListenLiveness_error true hbind]

theorem Registered.set_ne {target : String × Int} (h : reg.Registered target)
    (hne : target ≠ (host, port)) (alive : Bool) :
    (reg.setListenLiveness host alive port).2.Registered target := by
  by_cases hbind : bindInteger port = .ok ()
  · intro htarget
    rw [liveAt_setListenLiveness alive hbind, if_neg hne]
    exact h htarget
  · rwa [setListenLiveness_error alive hbind]

/-- A registration depends on the row of its target alone. -/
theorem Registered.of_find {reg' : Registry} {target : String × Int} (h : reg.Registered target)
    (hfind : ∀ row, reg.find target.1 target.2 = some row →
      reg'.find target.1 target.2 = some row) : reg'.Registered target := by
  intro htarget
  have hlive := h htarget
  cases hrow : reg.find target.1 target.2 with
  | none => simp [liveAt, hrow] at hlive
  | some row =>
      rw [liveAt, hfind row hrow, ← hrow]
      exact hlive

theorem Registered.addTarget {target : String × Int} (h : reg.Registered target)
    (tags : Option (List String)) (note createdAt : String) :
    (reg.addTarget host port tags note createdAt).2.Registered target := by
  refine h.of_find fun row hrow => ?_
  unfold Registry.addTarget
  split
  · exact hrow
  · simp only [insertOrIgnore]
    split
    · exact hrow
    · simp only [find, List.find?_append]
      rw [show reg.rows.find? (fun r => r.key = (target.1, target.2)) = some row from hrow]
      rfl

theorem Registered.removeTarget {target : String × Int} (h : reg.Registered target)
    (hne : target ≠ (host, port)) : (reg.removeTarget host port).2.Registered target := by
  refine h.of_find fun row hrow => ?_
  unfold Registry.removeTarget
  split
  · exact hrow
  · split
    · exact hrow
    · simp only [find, delete, List.find?_filter]
      rw [← hrow]
      refine congrArg (fun p => List.find? p reg.rows) (funext fun r => ?_)
      by_cases hr : r.key = target
      · simp [hr, hne]
      · simp [hr]

end Registry

/-! ### The locks -/

/-- Releasing does not make a lock active. -/
theorem TargetLock.release_hasActive {tl : TargetLock} (h : tl.hasActive = false)
    (cls : LockClass) (key : Option CapKey) : (tl.release cls key).hasActive = false := by
  simp only [hasActive, Bool.or_eq_false_iff, Bool.not_eq_false', List.isEmpty_iff,
    Option.isSome_eq_false_iff, Option.isNone_iff_eq_none] at h
  obtain ⟨hcaptures, hholder⟩ := h
  cases cls <;> simp [release, releaseCapture, releaseExclusive, hasActive, hcaptures, hholder]

/-! ### The invariant -/

/-- The jobs of the workers. -/
def jobsOf (works : Nat → Work) (w : Nat) : Job := (works w).job

/-- A worker between the answer of a successful start and the registry. -/
def Registering (works : Nat → Work) (s : RemovalState) (w : Nat) (target : String × Int) : Prop :=
  works w = .listenStart target.1 target.2 ∧ s.workers.stage w = .running ∧
    ∃ result, s.phase w = .answered result ∧ (settle target.1 (.ok result)).ok = true

/-- While a removal is under way its target is not locked, a listener is registered or about to be, and
a removal that has checked the liveness has no listener. -/
structure RemovalInv (works : Nat → Work) (removals : Nat → String × Int) (s : RemovalState) :
    Prop where
  exclusive : ExclusiveInv (jobsOf works) s.workers
  unlocked : ∀ r, (s.removal r).pending = true →
    (s.workers.locks.lockOf (removals r).1).hasActive = false
  registered : ∀ target, s.listening target = true →
    s.registry.Registered target ∨ ∃ w, Registering works s w target
  unused : ∀ r, s.removal r = .livenessChecked → s.listening (removals r) = false

/-- The condition on the steps of a run: no lock is taken on a target between the lock check and
the end of its removal, and a successful start is registered, in the row of its target. -/
def Undisturbed (works : Nat → Work) (removals : Nat → String × Int) (s : RemovalState) :
    RemovalStep → Prop
  | .worker w .lock => ∀ host port cls key, (works w).job = .runBatch host port cls key →
      cls ≠ .none → ∀ r, (s.removal r).pending = true → (removals r).1 ≠ host
  | .registered w version => ∀ target, Registering works s w target →
      registers version = true ∧ (s.registry.find target.1 target.2).isSome = true
  | _ => True

/-- The worker of a start or a stop holds the lock of its host while its function runs. -/
theorem ExclusiveInv.hasActive {w : Nat} {host : String} {port : Int}
    (h : ExclusiveInv (jobsOf works) s.workers)
    (hjob : jobsOf works w = .runBatch host port .system [])
    (hst : s.workers.stage w = .running) : (s.workers.locks.lockOf host).hasActive = true := by
  have hholds : HoldsExclusive (jobsOf works) s.workers w host .system :=
    ⟨by rw [hst]; rfl, port, [], hjob, rfl⟩
  rw [TargetLock.hasActive, (h.holder w host .system hholds).1]
  simp

/-- No removal of its host is pending meanwhile. -/
theorem RemovalInv.not_pending (h : RemovalInv works removals s) {w r : Nat} {host : String}
    {port : Int} (hjob : jobsOf works w = .runBatch host port .system [])
    (hst : s.workers.stage w = .running) (hr : (s.removal r).pending = true) :
    (removals r).1 ≠ host := by
  intro heq
  have hunlocked := h.unlocked r hr
  rw [heq, h.exclusive.hasActive hjob hst] at hunlocked
  cases hunlocked

/-! ### The steps of the workers -/

theorem workerStep_step {w : Nat} {l : WorkerStep} {workers : WorkersState}
    (h : s.workerStep works w l = some workers) :
    ∃ l', s.workers.step (jobsOf works) w l' = some workers ∧ (l' = .lock → l = .lock) := by
  unfold workerStep at h
  dsimp only at h
  split at h
  · exact ⟨_, h, id⟩
  · split at h
    · exact ⟨_, h, by simp⟩
    · exact ⟨_, h, by simp⟩
    · cases h
  · exact ⟨_, h, id⟩

/-- No step of a worker ends a start between its answer and its registration. -/
theorem workerStep_registering {w : Nat} {l : WorkerStep} {target : String × Int}
    (h : Registering works s w target) : s.workerStep works w l = none := by
  obtain ⟨hwork, hst, result, hphase, -⟩ := h
  unfold workerStep
  dsimp only
  rw [hwork]
  cases l <;> simp [WorkersState.step, hst, hphase, Work.job]

theorem unlocked_step {w : Nat} {l : WorkerStep} {workers : WorkersState} {host : String}
    (hstep : s.workers.step (jobsOf works) w l = some workers)
    (hhost : l = .lock → ∀ host' port cls key, jobsOf works w = .runBatch host' port cls key →
      cls ≠ .none → host ≠ host')
    (h : (s.workers.locks.lockOf host).hasActive = false) :
    (workers.locks.lockOf host).hasActive = false := by
  cases step_effect hstep with
  | called => exact h
  | moved => exact h
  | conflicted _ _ _ _ locks _ _ _ hlocks =>
      show (locks.lockOf host).hasActive = false
      rw [hlocks]
      exact h
  | took host' port cls key locks hst hjob _ hlocks =>
      show (locks.lockOf host).hasActive = false
      rw [hlocks]
      by_cases hcls : cls = .none
      · subst hcls
        split_ifs with heq
        · exact heq ▸ h
        · exact h
      · rw [if_neg (hhost (step_of_called hstep hst hjob) host' port cls key hjob hcls)]
        exact h
  | released ok hrel =>
      show ((s.workers.locks.release _ _ _).lockOf host).hasActive = false
      rw [LockManager.lockOf_release]
      split_ifs with heq
      · exact TargetLock.release_hasActive (heq ▸ h) _ _
      · exact h

theorem RemovalInv.worker (h : RemovalInv works removals s) {w : Nat} {l : WorkerStep}
    (hc : Undisturbed works removals s (.worker w l)) {workers : WorkersState}
    (hstep : s.workerStep works w l = some workers) :
    RemovalInv works removals { s with workers := workers } := by
  obtain ⟨l', hstep', hlock⟩ := workerStep_step hstep
  refine ⟨h.exclusive.step (step_effect hstep'), fun r hr => ?_, fun target ht => ?_, h.unused⟩
  · refine unlocked_step hstep' (fun hl host' port cls key hjob hcls => ?_) (h.unlocked r hr)
    obtain rfl := hlock hl
    exact hc host' port cls key hjob hcls r hr
  · rcases h.registered target ht with hreg | ⟨v, hv⟩
    · exact Or.inl hreg
    · refine Or.inr ⟨v, ?_⟩
      have hvw : v ≠ w := by
        intro heq
        subst heq
        rw [workerStep_registering hv] at hstep
        cases hstep
      obtain ⟨hwork, hst, hphase⟩ := hv
      exact ⟨hwork, ((step_effect hstep').stage_ne hvw).trans hst, hphase⟩

/-! ### The steps of a start and of a stop -/

/-- Another worker keeps registering when one worker's phase changes. -/
theorem Registering.setPhase {v w : Nat} {target : String × Int} (h : Registering works s v target)
    (hvw : v ≠ w) (p : ListenPhase) : Registering works (s.setPhase w p) v target := by
  obtain ⟨hwork, hst, result, hphase, hok⟩ := h
  exact ⟨hwork, hst, result, (Function.update_of_ne hvw _ _).trans hphase, hok⟩

theorem RemovalInv.answered (h : RemovalInv works removals s) {w : Nat} {result : PyVal}
    (hstep : s.step works removals (.answered w result) = some s') :
    RemovalInv works removals s' := by
  simp only [RemovalState.step] at hstep
  have hother : ∀ v target, s.phase w = .asking → Registering works s v target → v ≠ w := by
    intro v target hphase hv heq
    subst heq
    obtain ⟨-, -, result', hphase', -⟩ := hv
    rw [hphase] at hphase'
    cases hphase'
  split at hstep
  · rename_i host port hst hphase hwork
    have hkept : RemovalInv works removals (s.setPhase w (.answered result)) := by
      refine ⟨h.exclusive, h.unlocked, fun target ht => ?_, h.unused⟩
      rcases h.registered target ht with hreg | ⟨v, hv⟩
      · exact Or.inl hreg
      · exact Or.inr ⟨v, hv.setPhase (hother v target hphase hv) _⟩
    cases hok : (settle host (.ok result)).ok with
    | false =>
        rw [hok, if_neg (by decide)] at hstep
        exact Option.some.inj hstep ▸ hkept
    | true =>
        rw [hok, if_pos rfl] at hstep
        obtain rfl := Option.some.inj hstep
        refine ⟨hkept.exclusive, hkept.unlocked, fun target ht => ?_, fun r hr => ?_⟩
        · by_cases htarget : target = (host, port)
          · subst htarget
            exact Or.inr ⟨w, hwork, hst, result, Function.update_self _ _ _, hok⟩
          · refine hkept.registered target ?_
            rwa [setListening_listening, Function.update_of_ne htarget] at ht
        · have hjob : jobsOf works w = .runBatch host port .system [] := by
            rw [jobsOf, hwork]
            rfl
          have hr' : s.removal r = .livenessChecked := hr
          have hne : removals r ≠ (host, port) := fun heq =>
            h.not_pending (r := r) hjob hst (by rw [hr']; rfl) (congrArg Prod.fst heq)
          exact (Function.update_of_ne hne _ _).trans (h.unused r hr)
  · rename_i host port hst hphase hwork
    obtain rfl := Option.some.inj hstep
    refine ⟨h.exclusive, h.unlocked, fun target ht => ?_, h.unused⟩
    rcases h.registered target ht with hreg | ⟨v, hv⟩
    · exact Or.inl hreg
    · exact Or.inr ⟨v, hv.setPhase (hother v target hphase hv) _⟩
  · cases hstep

theorem RemovalInv.registers (h : RemovalInv works removals s) {w : Nat}
    {version : Except PyErr Json} (hc : Undisturbed works removals s (.registered w version))
    (hstep : s.step works removals (.registered w version) = some s') :
    RemovalInv works removals s' := by
  simp only [RemovalState.step] at hstep
  split at hstep
  · rename_i result host port hst hphase hwork
    obtain rfl := Option.some.inj hstep
    refine ⟨h.exclusive, h.unlocked, fun target ht => ?_, h.unused⟩
    rcases h.registered target ht with hreg | ⟨v, hv⟩
    · left
      show Registry.Registered (if _ then _ else _) target
      split_ifs
      · exact hreg.set_true
      · exact hreg
    · by_cases hvw : v = w
      · subst hvw
        obtain ⟨hversion, hrow⟩ := hc target hv
        have htarget : Work.listenStart host port = .listenStart target.1 target.2 :=
          hwork.symm.trans hv.1
        obtain ⟨rfl, rfl⟩ := Work.listenStart.inj htarget
        left
        show Registry.Registered (if _ then _ else _) target
        rw [if_pos hversion]
        exact Registry.registered_set hrow
      · exact Or.inr ⟨v, hv.setPhase (s := { s with registry := _ }) hvw _⟩
  · cases hstep

theorem RemovalInv.unregisters (h : RemovalInv works removals s) {w : Nat}
    (hstep : s.step works removals (.unregistered w) = some s') :
    RemovalInv works removals s' := by
  simp only [RemovalState.step] at hstep
  split at hstep
  · rename_i result host port hst hphase hwork
    have hother : ∀ v target, Registering works s v target → v ≠ w := by
      intro v target hv heq
      subst heq
      have hwork' := hv.1
      rw [hwork] at hwork'
      cases hwork'
    split at hstep
    · rename_i registry hset
      obtain rfl := Option.some.inj hstep
      have hregistry : registry = (s.registry.setListenLiveness host false port).2 := by
        rw [hset]
      refine ⟨h.exclusive, h.unlocked, fun target ht => ?_, fun r hr => ?_⟩
      · have htarget : target ≠ (host, port) := by
          intro heq
          rw [heq, setListening_listening, Function.update_self] at ht
          cases ht
        rw [setListening_listening, Function.update_of_ne htarget] at ht
        rcases h.registered target ht with hreg | ⟨v, hv⟩
        · left
          show registry.Registered target
          rw [hregistry]
          exact hreg.set_ne htarget false
        · exact Or.inr ⟨v, hv.setPhase (s := { s with registry := registry }) (hother v target hv) _⟩
      · have hunused : s.listening (removals r) = false := h.unused r hr
        show Function.update s.listening (host, port) false (removals r) = false
        rw [Function.update_apply]
        split_ifs
        · rfl
        · exact hunused
    · rename_i e registry hset
      obtain rfl := Option.some.inj hstep
      obtain rfl := Registry.setListenLiveness_raises hset
      refine ⟨h.exclusive, h.unlocked, fun target ht => ?_, h.unused⟩
      rcases h.registered target ht with hreg | ⟨v, hv⟩
      · exact Or.inl hreg
      · exact Or.inr ⟨v, hv.setPhase (hother v target hv) _⟩
  · cases hstep

/-! ### The steps of a removal -/

theorem RemovalInv.addTarget (h : RemovalInv works removals s) {host : String} {port : Int}
    {tags : Option (List String)} {note : String} {force : Bool} {probe : Except PyErr Unit}
    {createdAt : String}
    (hstep : s.step works removals (.addTarget host port tags note force probe createdAt) =
      some s') : RemovalInv works removals s' := by
  simp only [RemovalState.step] at hstep
  obtain ⟨registry, hadd, rfl⟩ := Option.map_eq_some_iff.mp hstep
  refine ⟨h.exclusive, h.unlocked, fun target ht => ?_, h.unused⟩
  rcases h.registered target ht with hreg | hregistering
  · left
    show registry.Registered target
    have hregister := @Registry.Registered.addTarget s.registry (stripBrackets host) port target hreg tags note
      createdAt
    simp only [addTargetTool] at hadd
    split at hadd
    · exact Option.some.inj hadd ▸ hregister
    · split at hadd
      · exact Option.some.inj hadd ▸ hregister
      · split at hadd <;> exact Option.some.inj hadd ▸ hreg
  · exact Or.inr hregistering

/-- A removal goes on to a stage whose checks it has passed. -/
theorem RemovalInv.setRemoval (h : RemovalInv works removals s) {r : Nat} {st : RemovalStage}
    (hlock : st.pending = true → (s.workers.locks.lockOf (removals r).1).hasActive = false)
    (hlive : st = .livenessChecked → s.listening (removals r) = false) :
    RemovalInv works removals (s.setRemoval r st) := by
  refine ⟨h.exclusive, fun q hq => ?_, h.registered, fun q hq => ?_⟩
  · rw [setRemoval_removal, Function.update_apply] at hq
    split_ifs at hq with heq
    · subst heq
      exact hlock hq
    · exact h.unlocked q hq
  · rw [setRemoval_removal, Function.update_apply] at hq
    split_ifs at hq with heq
    · subst heq
      exact hlive hq
    · exact h.unused q hq

theorem RemovalInv.checkLock (h : RemovalInv works removals s) {r : Nat}
    (hstep : s.step works removals (.checkLock r) = some s') : RemovalInv works removals s' := by
  simp only [RemovalState.step] at hstep
  split at hstep
  · split_ifs at hstep with hactive
    · exact Option.some.inj hstep ▸ h.setRemoval (by simp [RemovalStage.pending]) (by simp)
    · rw [LockManager.hasActive_eq] at hactive
      exact Option.some.inj hstep ▸ h.setRemoval (fun _ => by simpa using hactive) (by simp)
  · cases hstep

theorem RemovalInv.checkLiveness (h : RemovalInv works removals s) {r : Nat}
    (hstep : s.step works removals (.checkLiveness r) = some s') :
    RemovalInv works removals s' := by
  simp only [RemovalState.step] at hstep
  split at hstep
  · rename_i hst
    have hpending : (s.removal r).pending = true := by
      rw [hst]
      rfl
    split at hstep
    · rename_i hlive
      refine Option.some.inj hstep ▸ h.setRemoval (fun _ => h.unlocked r hpending) fun _ => ?_
      by_contra hlistening
      rcases h.registered (removals r) (by simpa using hlistening) with hreg | ⟨w, hwork, hst', -⟩
      · exact Registry.not_registered hlive hreg
      · have hjob : jobsOf works w = .runBatch (removals r).1 (removals r).2 .system [] := by
          rw [jobsOf, hwork]
          rfl
        exact h.not_pending hjob hst' hpending rfl
    · exact Option.some.inj hstep ▸ h.setRemoval (by simp [RemovalStage.pending]) (by simp)
  · cases hstep

theorem RemovalInv.delete (h : RemovalInv works removals s) {r : Nat}
    (hstep : s.step works removals (.delete r) = some s') : RemovalInv works removals s' := by
  simp only [RemovalState.step] at hstep
  split at hstep
  · rename_i hst
    have hdeleted : RemovalInv works removals { s with
        registry := (s.registry.removeTarget (removals r).1 (removals r).2).2 } := by
      refine ⟨h.exclusive, h.unlocked, fun target ht => ?_, h.unused⟩
      have hne : target ≠ removals r := by
        intro heq
        rw [heq] at ht
        exact Bool.false_ne_true ((h.unused r hst).symm.trans ht)
      rcases h.registered target ht with hreg | hregistering
      · exact Or.inl (hreg.removeTarget hne)
      · exact Or.inr hregistering
    exact Option.some.inj hstep ▸ hdeleted.setRemoval (by simp [RemovalStage.pending]) (by simp)
  · cases hstep

/-! ### Runs -/

theorem removalInv_invariant :
    (removalLts works removals).Invariant (Undisturbed works removals)
      (RemovalInv works removals) where
  init s hs := by
    obtain ⟨registry, rfl⟩ := hs
    have hexclusive := (@exclusiveInv_invariant (jobsOf works) LockManager.empty
      (fun _ => ⟨rfl, rfl⟩) Lts.always).init _ rfl
    exact ⟨hexclusive, by simp [RemovalStage.pending], by simp, by simp⟩
  step s l s' _ hs hl hstep := by
    cases l with
    | worker w l =>
        obtain ⟨workers, hworkers, rfl⟩ := Option.map_eq_some_iff.mp hstep
        exact hs.worker hl hworkers
    | answered w result => exact hs.answered hstep
    | registered w version => exact hs.registers hl hstep
    | unregistered w => exact hs.unregisters hstep
    | addTarget host port tags note force probe createdAt => exact hs.addTarget hstep
    | checkLock r => exact hs.checkLock hstep
    | checkLiveness r => exact hs.checkLiveness hstep
    | delete r => exact hs.delete hstep

/-- The target of a removal is not in use: no lock is held on its host, and no listener that a
successful start has opened is still open. -/
def NotInUse (s : RemovalState) (target : String × Int) : Prop :=
  (s.workers.locks.lockOf target.1).hasActive = false ∧ s.listening target = false

/-- In an undisturbed run no removal deletes a target in use. -/
theorem removal_not_in_use (works : Nat → Work) (removals : Nat → String × Int)
    {s s' : RemovalState} (h : (removalLts works removals).Reachable (Undisturbed works removals) s)
    {r : Nat} (hdelete : s.step works removals (.delete r) = some s') :
    NotInUse s (removals r) := by
  have hinv := removalInv_invariant.reachable h
  simp only [RemovalState.step] at hdelete
  split at hdelete
  · rename_i hst
    exact ⟨hinv.unlocked r (by rw [hst]; rfl), hinv.unused r hst⟩
  · cases hdelete

/-! ### Runs that go wrong, and one that does not -/

/-- The works and the removal of the runs below: one target, whose listener worker 0 starts and
worker 1 stops. -/
def oneTargetWorks : Nat → Work
  | 0 => .listenStart "10.0.0.1" 9000
  | _ => .listenStop "10.0.0.1" 9000

/-- The removal of the target. -/
def oneTarget (_ : Nat) : String × Int := ("10.0.0.1", 9000)

/-- The target is registered. -/
def registerTarget : RemovalStep := .addTarget "10.0.0.1" 9000 none "" true (.ok ()) ""

/-- A worker of `socket_listen` from its call to its return. -/
def listenRun (w : Nat) (answer : PyVal) (write : RemovalStep) : List RemovalStep :=
  [.worker w .call, .worker w .lock, .worker w .borrowed, .answered w answer, write,
    .worker w (.fnEnded (.ok default)), .worker w .poolReleased, .worker w .unlock,
    .worker w .callReturns]

/-- The listener is started, answered and registered. -/
def startRun : List RemovalStep :=
  listenRun 0 (.json (.obj [("pid", .int 4711)])) (.registered 0 (.ok (.str "1.8.0")))

/-- The listener is stopped. -/
def stopRun : List RemovalStep := listenRun 1 (.bytes [111, 107]) (.unregistered 1)

/-- The server before any call. -/
def unusedServer : RemovalState :=
  { workers := { locks := LockManager.empty }, registry := Registry.empty }

/-- The listener is started before the target is registered. -/
def startedFirst : RemovalState :=
  ((removalLts oneTargetWorks oneTarget).run
    (startRun ++ [registerTarget, .checkLock 0, .checkLiveness 0]) unusedServer).get rfl

/-- The removal of a target with a listener that was started before the target was registered. -/
theorem removal_in_use : ¬ ∀ (works : Nat → Work) (removals : Nat → String × Int)
    (s s' : RemovalState) (r : Nat), (removalLts works removals).Reachable Lts.always s →
      (s.registry.find (removals r).1 (removals r).2).isSome = true →
      s.step works removals (.delete r) = some s' → NotInUse s (removals r) := by
  intro h
  have hreach : (removalLts oneTargetWorks oneTarget).Reachable Lts.always startedFirst :=
    .of_run (.init ⟨Registry.empty, rfl⟩) (Option.some_get rfl).symm
  have hunused := (h oneTargetWorks oneTarget startedFirst _ 0 hreach (by rfl) rfl).2
  exact Bool.noConfusion (hunused.symm.trans (by rfl))

/-- A lock that is taken after the removal has looked at the locks. -/
def lockedLate : RemovalState :=
  ((removalLts oneTargetWorks oneTarget).run
    [registerTarget, .checkLock 0, .checkLiveness 0, .worker 0 .call, .worker 0 .lock]
    unusedServer).get rfl

example : lockedLate.removal 0 = .livenessChecked ∧
    (lockedLate.workers.locks.lockOf "10.0.0.1").hasActive = true := by decide

/-- The steps that belong to no removal and register no listener. -/
def RemovalStep.aside : RemovalStep → Bool
  | .worker .. | .answered .. | .unregistered _ | .addTarget .. => true
  | _ => false

theorem aside_removal {l : RemovalStep} (hl : l.aside = true)
    (hstep : s.step works removals l = some s') : s'.removal = s.removal := by
  cases l with
  | worker w l =>
      obtain ⟨workers, -, rfl⟩ := Option.map_eq_some_iff.mp hstep
      rfl
  | answered w result =>
      simp only [RemovalState.step] at hstep
      split at hstep
      · obtain rfl := Option.some.inj hstep
        split_ifs <;> rfl
      · exact Option.some.inj hstep ▸ rfl
      · cases hstep
  | unregistered w =>
      simp only [RemovalState.step] at hstep
      split at hstep
      · split at hstep <;> exact Option.some.inj hstep ▸ rfl
      · cases hstep
  | addTarget host port tags note force probe createdAt =>
      obtain ⟨registry, -, rfl⟩ := Option.map_eq_some_iff.mp hstep
      rfl
  | _ => cases hl

/-- Such steps disturb nothing while no removal has been called. -/
theorem reachable_aside {ls : List RemovalStep} (hls : ∀ l ∈ ls, l.aside = true)
    (hs : (removalLts works removals).Reachable (Undisturbed works removals) s)
    (hcalled : ∀ r, s.removal r = .notCalled)
    (hrun : (removalLts works removals).run ls s = some s') :
    (removalLts works removals).Reachable (Undisturbed works removals) s' := by
  refine Lts.Reachable.of_run_within (I := fun s => ∀ r, s.removal r = .notCalled)
    (L := fun l => l.aside = true) (fun s l hs hl => ?_) (fun s l s' hs hl hstep r => ?_) hls hs
    hcalled hrun
  · cases l with
    | worker w l =>
        cases l with
        | lock =>
            intro host port cls key _ _ r hr
            rw [hs r] at hr
            cases hr
        | _ => trivial
    | registered w version => cases hl
    | _ => trivial
  · rw [aside_removal hl hstep]
    exact hs r

/-- The start has been answered. -/
def answeredStart : RemovalState :=
  ((removalLts oneTargetWorks oneTarget).run (registerTarget :: startRun.take 4)
    unusedServer).get rfl

/-- The start is registered. -/
def registeredStart : RemovalState :=
  ((removalLts oneTargetWorks oneTarget).step answeredStart
    (.registered 0 (.ok (.str "1.8.0")))).get rfl

/-- The listener has been stopped. -/
def stoppedListener : RemovalState :=
  ((removalLts oneTargetWorks oneTarget).run (startRun.drop 5 ++ stopRun) registeredStart).get rfl

/-- The removal has checked the lock and the liveness. -/
def checkedRemoval : RemovalState :=
  ((removalLts oneTargetWorks oneTarget).run [.checkLock 0, .checkLiveness 0]
    stoppedListener).get rfl

/-- The removal of a target whose listener has been started and stopped. -/
theorem removal_not_in_use_witness : NotInUse checkedRemoval ("10.0.0.1", 9000) := by
  have hanswered : (removalLts oneTargetWorks oneTarget).Reachable
      (Undisturbed oneTargetWorks oneTarget) answeredStart :=
    reachable_aside (by decide) (.init ⟨Registry.empty, rfl⟩) (fun _ => rfl)
      (Option.some_get rfl).symm
  have hregistered : (removalLts oneTargetWorks oneTarget).Reachable
      (Undisturbed oneTargetWorks oneTarget) registeredStart := by
    refine .step (l := .registered 0 (.ok (.str "1.8.0"))) hanswered (fun target htarget => ?_)
      (Option.some_get rfl).symm
    obtain ⟨hhost, hport⟩ := Work.listenStart.inj htarget.1
    rw [← hhost, ← hport]
    decide
  have hstopped : (removalLts oneTargetWorks oneTarget).Reachable
      (Undisturbed oneTargetWorks oneTarget) stoppedListener :=
    reachable_aside (by decide) hregistered (fun _ => rfl) (Option.some_get rfl).symm
  have hchecked : (removalLts oneTargetWorks oneTarget).Reachable
      (Undisturbed oneTargetWorks oneTarget) checkedRemoval :=
    .step (l := .checkLiveness 0) (.step (l := .checkLock 0) hstopped trivial rfl) trivial rfl
  exact removal_not_in_use oneTargetWorks oneTarget hchecked (r := 0) rfl

end McpSocketServer
