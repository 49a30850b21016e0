import McpSocketServer.Server.Workers

/-!
# Invariants of the workers

Which worker stands behind a held lock. Two invariants carry the results about locks: the
exclusive lock of a host is held exactly while one worker is between its acquire and its
release, and a capture lock is held as long as its owner is protected, that is until the
owner fails or a `capture_stop` releases it which began after the owner had returned.
-/

namespace McpSocketServer

open WorkersState

variable {jobs : Nat → Job} {s s' : WorkersState} {w : Nat}

/-- No exclusive lock is held. -/
def NoExclusive (lm : LockManager) : Prop :=
  ∀ host, (lm.lockOf host).exclusiveHolder = none ∧ (lm.lockOf host).exclusiveCount = 0

/-- Worker `w` holds the exclusive lock of a host. -/
def HoldsExclusive (jobs : Nat → Job) (s : WorkersState) (w : Nat) (host : String)
    (cls : LockClass) : Prop :=
  (s.stage w).holdsLock = true ∧ (jobs w).excludes host cls

/-- The capture lock of worker `w` is to be held: it has been taken, and neither its own failure
nor a `capture_stop` that began after the call of `w` had returned has released it. -/
def Protected (jobs : Nat → Job) (s : WorkersState) (w : Nat) (host : String)
    (key : CapKey) : Prop :=
  (jobs w).starts host key ∧ (s.stage w).keeps = true ∧
    ∀ v, (jobs v).stops host key → s.released v = true → s.seenOver v w = false

/-! ### Jobs and stages -/

theorem excludes_unique {j : Job} {host host' : String} {cls cls' : LockClass}
    (h : j.excludes host cls) (h' : j.excludes host' cls') : host' = host ∧ cls' = cls := by
  obtain ⟨port, key, rfl, -⟩ := h
  obtain ⟨port', key', hjob, -⟩ := h'
  cases hjob
  exact ⟨rfl, rfl⟩

theorem not_stops_of_starts {j : Job} {host host' : String} {key key' : CapKey}
    (h : j.starts host key) : ¬ j.stops host' key' := by
  obtain ⟨port, rfl⟩ := h
  rintro ⟨port', path, hjob, -⟩
  cases hjob

/-- Moves do not take or give up an exclusive lock. -/
theorem Moves.holdsLock {j : Job} {st st' : Stage} {host : String} {cls : LockClass}
    (h : Moves j st st') (hj : j.excludes host cls) : st'.holdsLock = st.holdsLock := by
  obtain ⟨port, key, rfl, hcls⟩ := hj
  cases h with
  | stopBorrowed _ _ _ hjob => cases hjob
  | stopNotBorrowed _ _ _ hjob => cases hjob
  | keeps _ _ _ _ hjob => cases hjob; cases hcls
  | _ => rfl

/-- Moves do not take or give up a capture lock. -/
theorem Moves.keeps_eq {j : Job} {st st' : Stage} {host : String} {key : CapKey}
    (h : Moves j st st') (hj : j.starts host key) : st'.keeps = st.keeps := by
  obtain ⟨port, rfl⟩ := hj
  cases h with
  | stopBorrowed _ _ _ hjob => cases hjob
  | stopNotBorrowed _ _ _ hjob => cases hjob
  | _ => rfl

theorem Releases.holdsLock {j : Job} {st : Stage} {ok : Bool} (h : Releases j st ok) :
    st.holdsLock = true := by
  cases h <;> rfl

/-- A capture lock is released only with a failed result. -/
theorem Releases.starts_failed {j : Job} {st : Stage} {ok : Bool} {host : String} {key : CapKey}
    (h : Releases j st ok) (hj : j.starts host key) : ok = false := by
  obtain ⟨port, rfl⟩ := hj
  cases h with
  | poolFailed => rfl
  | unlocking outcome hkeep => exact hkeep

theorem Moves.called {j : Job} {st st' : Stage} (h : Moves j st st') : st' ≠ .notCalled := by
  cases h <;> nofun

theorem Moves.not_over {j : Job} {st st' : Stage} (h : Moves j st st') : st.isOver = false := by
  cases h <;> rfl

theorem not_over_of_holdsLock {st : Stage} (h : st.holdsLock = true) : st.isOver = false := by
  cases st <;> first | rfl | cases h

theorem not_finished_of_holdsLock {st : Stage} (h : st.holdsLock = true) :
    st.finished = false := by
  cases st <;> first | rfl | cases h

theorem keeps_of_holdsLock {st : Stage} (h : st.holdsLock = true) : st.keeps = true := by
  cases st <;> first | rfl | cases h

/-- Every step is a step of one worker's stage. -/
theorem Effect.stage_ne (h : Effect jobs s w s') {v : Nat} (hv : v ≠ w) :
    s'.stage v = s.stage v := by
  cases h <;> simp [hv, releaseLock]

/-! ### The exclusive lock -/

/-- A host whose exclusive lock a worker holds has it counted once, with no captures beside it; a host
whose exclusive lock nobody holds has it free. -/
structure ExclusiveInv (jobs : Nat → Job) (s : WorkersState) : Prop where
  holder : ∀ w host cls, HoldsExclusive jobs s w host cls →
    (s.locks.lockOf host).exclusiveHolder = some cls ∧
      (s.locks.lockOf host).exclusiveCount = 1 ∧ s.exclusiveOwner host = some w
  held : ∀ host, (∃ w cls, HoldsExclusive jobs s w host cls) ∨
    ((s.locks.lockOf host).exclusiveHolder = none ∧ (s.locks.lockOf host).exclusiveCount = 0)
  noCapture : ∀ host, (s.locks.lockOf host).exclusiveHolder ≠ none →
    (s.locks.lockOf host).captures = []

/-- Two workers cannot hold the exclusive lock of one host. -/
theorem ExclusiveInv.unique (h : ExclusiveInv jobs s) {v w : Nat} {host : String}
    {cls cls' : LockClass} (hv : HoldsExclusive jobs s v host cls)
    (hw : HoldsExclusive jobs s w host cls') : v = w := by
  have hownv := (h.holder v host cls hv).2.2
  have hownw := (h.holder w host cls' hw).2.2
  exact Option.some.inj (hownv.symm.trans hownw)

/-- A host without an exclusive holder has no worker behind it. -/
theorem ExclusiveInv.free (h : ExclusiveInv jobs s) {host : String}
    (hnone : (s.locks.lockOf host).exclusiveHolder = none) :
    (s.locks.lockOf host).exclusiveCount = 0 ∧ ∀ w cls, ¬ HoldsExclusive jobs s w host cls := by
  have hno : ∀ w cls, ¬ HoldsExclusive jobs s w host cls := by
    intro w cls hw
    have hholder := (h.holder w host cls hw).1
    rw [hnone] at hholder
    cases hholder
  rcases h.held host with ⟨w, cls, hw⟩ | ⟨-, hcount⟩
  · exact absurd hw (hno w cls)
  · exact ⟨hcount, hno⟩

/-- A step that changes neither the exclusive components nor who holds them. -/
theorem ExclusiveInv.frame (h : ExclusiveInv jobs s)
    (hlock : ∀ host,
      (s'.locks.lockOf host).exclusiveHolder = (s.locks.lockOf host).exclusiveHolder ∧
      (s'.locks.lockOf host).exclusiveCount = (s.locks.lockOf host).exclusiveCount)
    (howner : s'.exclusiveOwner = s.exclusiveOwner)
    (hcapture : ∀ host, (s.locks.lockOf host).exclusiveHolder ≠ none →
      (s'.locks.lockOf host).captures = [])
    (hholds : ∀ v host cls, HoldsExclusive jobs s' v host cls ↔ HoldsExclusive jobs s v host cls) :
    ExclusiveInv jobs s' where
  holder v host cls hv := by
    rw [(hlock host).1, (hlock host).2, howner]
    exact h.holder v host cls ((hholds v host cls).mp hv)
  held host := by
    rw [(hlock host).1, (hlock host).2]
    rcases h.held host with ⟨v, cls, hv⟩ | hnone
    · exact Or.inl ⟨v, cls, (hholds v host cls).mpr hv⟩
    · exact Or.inr hnone
  noCapture host hne := hcapture host ((hlock host).1 ▸ hne)

/-- Only the stage of worker `w` changes, and not whether it holds an exclusive lock. -/
theorem holdsExclusive_iff {st : Stage} (hstage : s'.stage = Function.update s.stage w st)
    (hw : ∀ host cls, (jobs w).excludes host cls → st.holdsLock = (s.stage w).holdsLock)
    (v : Nat) (host : String) (cls : LockClass) :
    HoldsExclusive jobs s' v host cls ↔ HoldsExclusive jobs s v host cls := by
  unfold HoldsExclusive
  rw [hstage]
  by_cases hv : v = w
  · subst hv
    rw [Function.update_self]
    constructor <;> rintro ⟨hst, hexcl⟩
    · exact ⟨hw host cls hexcl ▸ hst, hexcl⟩
    · exact ⟨(hw host cls hexcl).symm ▸ hst, hexcl⟩
  · rw [Function.update_of_ne hv]

/-- A worker that takes an exclusive lock becomes the only holder on its host. -/
theorem ExclusiveInv.tookExclusive {host : String} {port : Int} {cls : LockClass} {key : CapKey}
    {locks : LockManager} (h : ExclusiveInv jobs s) (hjob : jobs w = .runBatch host port cls key)
    (hexcl : cls.isExclusive = true) (hfree : (s.locks.lockOf host).Free cls (some key))
    (hlocks : ∀ u, locks.lockOf u =
      if u = host then (s.locks.lockOf host).hold cls (some key) else s.locks.lockOf u) :
    ExclusiveInv jobs (({ s with locks := locks }.own w host cls key).goto w .locked) := by
  obtain ⟨hholder, hcount⟩ := (s.locks.lockOf host).hold_exclusive cls (some key)
  rw [if_pos hexcl] at hholder hcount
  have hnone := TargetLock.free_holder hfree (by intro heq; subst heq; cases hexcl)
  have hcaptures := TargetLock.free_exclusive hfree hexcl
  obtain ⟨hzero, hno⟩ := h.free hnone
  have hcapture : cls ≠ .capture := by intro heq; subst heq; cases hexcl
  have hothers : ∀ v u c, v ≠ w →
      (HoldsExclusive jobs (({ s with locks := locks }.own w host cls key).goto w .locked) v u c ↔
        HoldsExclusive jobs s v u c) := by
    intro v u c hv
    simp [HoldsExclusive, hv]
  have hself : (jobs w).excludes host cls := ⟨port, key, hjob, hexcl⟩
  have howner : (({ s with locks := locks }.own w host cls key).goto w .locked).exclusiveOwner =
      Function.update s.exclusiveOwner host (some w) := by
    simp [own, hexcl, goto]
  refine ⟨fun v u c hv => ?_, fun u => ?_, fun u hne => ?_⟩
  · rw [howner]
    show (locks.lockOf u).exclusiveHolder = some c ∧ (locks.lockOf u).exclusiveCount = 1 ∧ _
    by_cases hvw : v = w
    · subst hvw
      obtain ⟨rfl, rfl⟩ := excludes_unique hself hv.2
      rw [hlocks, if_pos rfl, hholder, hcount, hzero, Function.update_self]
      exact ⟨rfl, rfl, rfl⟩
    · have hold := (hothers v u c hvw).mp hv
      have hu : u ≠ host := by intro heq; subst heq; exact hno v c hold
      rw [hlocks, if_neg hu, Function.update_of_ne hu]
      exact h.holder v u c hold
  · by_cases hu : u = host
    · subst hu
      exact Or.inl ⟨w, cls, by simp [Stage.holdsLock], hself⟩
    · show _ ∨ ((locks.lockOf u).exclusiveHolder = none ∧ (locks.lockOf u).exclusiveCount = 0)
      rw [hlocks, if_neg hu]
      rcases h.held u with ⟨v, c, hv⟩ | hfreeu
      · have hvw : v ≠ w := by
          intro heq
          subst heq
          exact hu (excludes_unique hself hv.2).1
        exact Or.inl ⟨v, c, (hothers v u c hvw).mpr hv⟩
      · exact Or.inr hfreeu
  · change (locks.lockOf u).exclusiveHolder ≠ none at hne
    show (locks.lockOf u).captures = []
    rw [hlocks] at hne ⊢
    by_cases hu : u = host
    · rw [if_pos hu, TargetLock.hold_captures, if_neg hcapture, hcaptures]
    · rw [if_neg hu] at hne ⊢
      exact h.noCapture u hne

/-- A worker that takes another lock leaves the exclusive components. -/
theorem ExclusiveInv.tookShared {host : String} {port : Int} {cls : LockClass} {key : CapKey}
    {locks : LockManager} (h : ExclusiveInv jobs s) (hjob : jobs w = .runBatch host port cls key)
    (hexcl : cls.isExclusive ≠ true) (hfree : (s.locks.lockOf host).Free cls (some key))
    (hlocks : ∀ u, locks.lockOf u =
      if u = host then (s.locks.lockOf host).hold cls (some key) else s.locks.lockOf u) :
    ExclusiveInv jobs (({ s with locks := locks }.own w host cls key).goto w .locked) := by
  obtain ⟨hholder, hcount⟩ := (s.locks.lockOf host).hold_exclusive cls (some key)
  rw [if_neg hexcl] at hholder hcount
  refine h.frame (fun u => ?_) ?_ (fun u hne => ?_)
    (holdsExclusive_iff rfl fun u c hc => ?_)
  · show (locks.lockOf u).exclusiveHolder = _ ∧ (locks.lockOf u).exclusiveCount = _
    rw [hlocks]
    split_ifs with hu
    · subst hu; exact ⟨hholder, hcount⟩
    · exact ⟨rfl, rfl⟩
  · simp [goto, own, hexcl]
  · show (locks.lockOf u).captures = []
    rw [hlocks]
    split_ifs with hu
    · subst hu
      rw [TargetLock.hold_captures]
      split_ifs with hcap
      · subst hcap
        exact absurd (TargetLock.free_holder hfree nofun) hne
      · exact h.noCapture u hne
    · exact h.noCapture u hne
  · obtain ⟨port', key', hjob', hc'⟩ := hc
    rw [hjob] at hjob'
    cases hjob'
    exact absurd hc' hexcl

section

variable {ok : Bool}

theorem released_lockOf (s : WorkersState) (w : Nat) (job : Job) (ok : Bool) (u : String) :
    ((s.releaseLock w job).goto w (.ended ok)).locks.lockOf u =
      if u = job.host then (s.locks.lockOf u).release job.releases.1 (some job.releases.2)
      else s.locks.lockOf u := by
  show (s.locks.release _ _ _).lockOf u = _
  rw [LockManager.lockOf_release]
  split_ifs with hu
  · rw [hu]
  · rfl

theorem released_captures {s : WorkersState} {w : Nat} {job : Job} {u : String}
    (hempty : (s.locks.lockOf u).captures = []) :
    (((s.releaseLock w job).goto w (.ended ok)).locks.lockOf u).captures = [] := by
  rw [released_lockOf]
  split_ifs
  · rw [TargetLock.release_captures, hempty]
    split_ifs <;> rfl
  · exact hempty

/-- The holder of the exclusive lock of a host leaves the host without one. -/
theorem ExclusiveInv.releasedExclusive {host : String} {cls : LockClass}
    (h : ExclusiveInv jobs s) (hrel : Releases (jobs w) (s.stage w) ok)
    (hself : (jobs w).excludes host cls) :
    ExclusiveInv jobs ((s.releaseLock w (jobs w)).goto w (.ended ok)) := by
  obtain ⟨port, key, hjob, hcls⟩ := id hself
  have hholds : HoldsExclusive jobs s w host cls := ⟨hrel.holdsLock, hself⟩
  obtain ⟨hholder, hcount, howner⟩ := h.holder w host cls hholds
  obtain ⟨hholder', hcount'⟩ := (s.locks.lockOf host).release_exclusive cls (some key)
    fun _ => ⟨hholder, hcount⟩
  rw [if_pos hcls] at hholder' hcount'
  have hlocks := released_lockOf s w (jobs w) ok
  have hhost : (jobs w).host = host := by rw [hjob]; rfl
  have hreleases : (jobs w).releases = (cls, key) := by rw [hjob]; rfl
  rw [hhost, hreleases] at hlocks
  have hothers : ∀ v u c,
      HoldsExclusive jobs ((s.releaseLock w (jobs w)).goto w (.ended ok)) v u c ↔
        (v ≠ w ∧ HoldsExclusive jobs s v u c) := by
    intro v u c
    by_cases hv : v = w
    · subst hv
      simp [HoldsExclusive, Stage.holdsLock]
    · simp [HoldsExclusive, hv, releaseLock]
  refine ⟨fun v u c hv => ?_, fun u => ?_, fun u hne => ?_⟩
  · obtain ⟨hvw, hold⟩ := (hothers v u c).mp hv
    have hu : u ≠ host := by intro heq; subst heq; exact hvw (h.unique hold hholds)
    rw [hlocks, if_neg hu]
    exact h.holder v u c hold
  · rw [hlocks]
    by_cases hu : u = host
    · subst hu
      rw [if_pos rfl]
      exact Or.inr ⟨hholder', hcount'⟩
    · rw [if_neg hu]
      rcases h.held u with ⟨v, c, hv⟩ | hfreeu
      · have hvw : v ≠ w := by
          intro heq
          subst heq
          exact hu (excludes_unique hself hv.2).1
        exact Or.inl ⟨v, c, (hothers v u c).mpr ⟨hvw, hv⟩⟩
      · exact Or.inr hfreeu
  · apply released_captures
    apply h.noCapture
    rw [hlocks] at hne
    split_ifs at hne with hu
    · subst hu; exact absurd hholder' hne
    · exact hne

/-- A release of another lock leaves the exclusive components. -/
theorem ExclusiveInv.releasedShared (h : ExclusiveInv jobs s)
    (hexcl : ¬ ∃ host cls, (jobs w).excludes host cls) :
    ExclusiveInv jobs ((s.releaseLock w (jobs w)).goto w (.ended ok)) := by
  have hclass : (jobs w).releases.1.isExclusive ≠ true := by
    intro hcls
    apply hexcl
    cases hjob : jobs w with
    | runBatch host port cls key =>
        rw [hjob] at hcls
        exact ⟨host, cls, port, key, rfl, hcls⟩
    | captureStop host port path =>
        rw [hjob] at hcls
        cases hcls
  refine h.frame (fun u => ?_) rfl (fun u hne => released_captures (h.noCapture u hne))
    (holdsExclusive_iff rfl fun u c hc => absurd ⟨u, c, hc⟩ hexcl)
  rw [released_lockOf]
  split_ifs with hu
  · have hrelease := (s.locks.lockOf u).release_exclusive (jobs w).releases.1
      (some (jobs w).releases.2) fun hcls => absurd hcls hclass
    rwa [if_neg hclass, if_neg hclass] at hrelease
  · exact ⟨rfl, rfl⟩

theorem ExclusiveInv.released (h : ExclusiveInv jobs s)
    (hrel : Releases (jobs w) (s.stage w) ok) :
    ExclusiveInv jobs ((s.releaseLock w (jobs w)).goto w (.ended ok)) := by
  by_cases hexcl : ∃ host cls, (jobs w).excludes host cls
  · obtain ⟨host, cls, hself⟩ := hexcl
    exact h.releasedExclusive hrel hself
  · exact h.releasedShared hexcl

end

theorem ExclusiveInv.step (h : ExclusiveInv jobs s) (heff : Effect jobs s w s') :
    ExclusiveInv jobs s' := by
  cases heff with
  | called hst =>
      exact h.frame (fun _ => ⟨rfl, rfl⟩) rfl h.noCapture
        (holdsExclusive_iff rfl fun _ _ _ => by rw [hst]; rfl)
  | took host port cls key locks hst hjob hfree hlocks =>
      by_cases hexcl : cls.isExclusive = true
      · exact h.tookExclusive hjob hexcl hfree hlocks
      · exact h.tookShared hjob hexcl hfree hlocks
  | conflicted host port cls key locks hst hjob hfree hlocks =>
      refine h.frame (fun u => ?_) rfl (fun u hne => ?_)
        (holdsExclusive_iff rfl fun _ _ _ => by rw [hst]; rfl)
      · show (locks.lockOf u).exclusiveHolder = _ ∧ (locks.lockOf u).exclusiveCount = _
        rw [hlocks]
        exact ⟨rfl, rfl⟩
      · show (locks.lockOf u).captures = []
        rw [hlocks]
        exact h.noCapture u hne
  | moved st hmove =>
      exact h.frame (fun _ => ⟨rfl, rfl⟩) rfl h.noCapture
        (holdsExclusive_iff rfl fun _ _ hexcl => hmove.holdsLock hexcl)
  | released ok hrel => exact h.released hrel

theorem exclusiveInv_invariant {start : LockManager} (hstart : NoExclusive start)
    (C : WorkersState → Nat × WorkerStep → Prop) :
    (workersLts jobs start).Invariant C (ExclusiveInv jobs) where
  init s hs := by
    rw [show s = { locks := start } from hs]
    refine ⟨fun w host cls hw => ?_, fun host => Or.inr (hstart host),
      fun host hne => absurd (hstart host).1 hne⟩
    cases hw.1
  step s l s' _ hs _ hstep := hs.step (step_effect hstep)

/-! ### The capture locks -/

/-- What the ghost fields record of calls. -/
structure CallInv (s : WorkersState) : Prop where
  seen : ∀ v w, s.seenOver v w = true → (s.stage w).isOver = true
  released : ∀ v, s.released v = true → s.stage v ≠ .notCalled

theorem Effect.stage_called (h : Effect jobs s w s') : s'.stage w ≠ .notCalled := by
  cases h with
  | moved st hmove =>
      rw [goto_stage, Function.update_self]
      exact hmove.called
  | _ => simp

theorem Effect.over (h : Effect jobs s w s') {v : Nat} (hv : (s.stage v).isOver = true) :
    (s'.stage v).isOver = true := by
  by_cases hvw : v = w
  · subst hvw
    exfalso
    cases h with
    | called hst => simp [hst, Stage.isOver] at hv
    | took _ _ _ _ _ hst => simp [hst, Stage.isOver] at hv
    | conflicted _ _ _ _ _ hst => simp [hst, Stage.isOver] at hv
    | moved st hmove => simp [hmove.not_over] at hv
    | released ok hrel => simp [not_over_of_holdsLock hrel.holdsLock] at hv
  · rwa [h.stage_ne hvw]

theorem CallInv.step (h : CallInv s) (heff : Effect jobs s w s') : CallInv s' := by
  have hstage : ∀ v, s.stage v ≠ .notCalled → s'.stage v ≠ .notCalled := by
    intro v hv
    by_cases hvw : v = w
    · exact hvw ▸ heff.stage_called
    · rwa [heff.stage_ne hvw]
  have hkept : s'.seenOver = s.seenOver ∨
      s'.seenOver = Function.update s.seenOver w fun v => (s.stage v).isOver := by
    cases heff <;> first | exact Or.inl rfl | exact Or.inr rfl
  have hreleased : ∀ v, s'.released v = true → s.released v = true ∨ v = w := by
    intro v hv
    by_cases hvw : v = w
    · exact Or.inr hvw
    · refine Or.inl ?_
      cases heff with
      | released => simpa [releaseLock, goto, hvw] using hv
      | _ => exact hv
  refine ⟨fun v u hseen => ?_, fun v hv => ?_⟩
  · rcases hkept with hsame | hcall
    · rw [hsame] at hseen
      exact heff.over (h.seen v u hseen)
    · rw [hcall] at hseen
      by_cases hvw : v = w
      · subst hvw
        rw [Function.update_self] at hseen
        exact heff.over hseen
      · rw [Function.update_of_ne hvw] at hseen
        exact heff.over (h.seen v u hseen)
  · rcases hreleased v hv with hold | rfl
    · exact hstage v (h.released v hold)
    · exact heff.stage_called

/-- The owner of a held capture lock is a capture worker that keeps it. -/
structure OwnerInv (jobs : Nat → Job) (s : WorkersState) : Prop where
  owner : ∀ w host key, s.captureOwner host key = some w → key ∈ (s.locks.lockOf host).captures →
    (jobs w).starts host key ∧ (s.stage w).keeps = true

/-- A protected capture lock is held, by its owner. -/
structure CaptureInv (jobs : Nat → Job) (s : WorkersState) : Prop where
  held : ∀ w host key, Protected jobs s w host key →
    key ∈ (s.locks.lockOf host).captures ∧ s.captureOwner host key = some w

theorem starts_runBatch {host host' : String} {port : Int} {cls : LockClass}
    {key key' : CapKey} (hjob : jobs w = .runBatch host port cls key)
    (h : (jobs w).starts host' key') : cls = .capture ∧ host' = host ∧ key' = key := by
  obtain ⟨port', hstart⟩ := h
  rw [hjob] at hstart
  cases hstart
  exact ⟨rfl, rfl, rfl⟩

/-- The captures of a host after a worker has taken a lock. -/
theorem mem_captures_took {host : String} {cls : LockClass} {key : CapKey} {locks : LockManager}
    (hlocks : ∀ u, locks.lockOf u =
      if u = host then (s.locks.lockOf host).hold cls (some key) else s.locks.lockOf u)
    (u : String) (k : CapKey) :
    k ∈ (locks.lockOf u).captures ↔
      k ∈ (s.locks.lockOf u).captures ∨ (cls = .capture ∧ u = host ∧ k = key) := by
  rw [hlocks]
  split_ifs with hu
  · subst hu
    rw [TargetLock.hold_captures]
    split_ifs with hcap <;> simp [hcap]
  · simp [hu]

/-- The captures of a host after a worker has released its lock. -/
theorem mem_captures_released (w : Nat) (j : Job) (u : String) (k : CapKey) :
    k ∈ ((s.releaseLock w j).locks.lockOf u).captures ↔
      k ∈ (s.locks.lockOf u).captures ∧ ¬ (j.starts u k ∨ j.stops u k) := by
  show k ∈ ((s.locks.release j.host j.releases.1 (some j.releases.2)).lockOf u).captures ↔ _
  have hmatch : (j.starts u k ∨ j.stops u k) ↔
      u = j.host ∧ j.releases.1 = .capture ∧ k = j.releases.2 := by
    cases j with
    | runBatch host port cls key =>
        constructor
        · rintro (⟨port', hjob⟩ | ⟨port', path, hjob, -⟩)
          · cases hjob; exact ⟨rfl, rfl, rfl⟩
          · cases hjob
        · rintro ⟨rfl, hcls, rfl⟩
          change cls = .capture at hcls
          subst hcls
          exact Or.inl ⟨port, rfl⟩
    | captureStop host port path =>
        constructor
        · rintro (⟨port', hjob⟩ | ⟨port', path', hjob, rfl⟩)
          · cases hjob
          · cases hjob; exact ⟨rfl, rfl, rfl⟩
        · rintro ⟨rfl, -, rfl⟩
          exact Or.inr ⟨port, path, rfl, rfl⟩
  rw [LockManager.lockOf_release, hmatch]
  split_ifs with hu
  · subst hu
    rw [TargetLock.release_captures]
    split_ifs with hcap <;> simp [hcap]
  · simp [hu]

/-- A worker that keeps a lock is not one that keeps none. -/
theorem ne_of_keeps {v : Nat} (hv : (s.stage v).keeps = true) (hw : (s.stage w).keeps = false) :
    v ≠ w := by
  intro heq
  rw [heq, hw] at hv
  cases hv

theorem OwnerInv.step (h : OwnerInv jobs s) (heff : Effect jobs s w s') : OwnerInv jobs s' := by
  refine ⟨fun v host key howner hmem => ?_⟩
  cases heff with
  | called hst =>
      obtain ⟨hstart, hkeeps⟩ := h.owner v host key howner hmem
      have hvw : v ≠ w := ne_of_keeps hkeeps (by rw [hst]; rfl)
      exact ⟨hstart, by simpa [hvw] using hkeeps⟩
  | took host' port cls key' locks hst hjob hfree hlocks =>
      by_cases hnew : cls = .capture ∧ host = host' ∧ key = key'
      · obtain ⟨rfl, rfl, rfl⟩ := hnew
        have hvw : w = v := by simpa [own, goto] using howner
        subst hvw
        exact ⟨⟨port, hjob⟩, by simp [Stage.keeps, Stage.holdsLock]⟩
      · have hold : s.captureOwner host key = some v := by
          by_cases hcls : cls = .capture
          · by_cases hhost : host = host'
            · have hkey : key ≠ key' := fun hkey => hnew ⟨hcls, hhost, hkey⟩
              subst hhost
              simpa [own, goto, hcls, hkey] using howner
            · simpa [own, goto, hcls, hhost] using howner
          · simpa [own, goto, hcls] using howner
        have hin := ((mem_captures_took hlocks host key).mp hmem).resolve_right hnew
        obtain ⟨hstart, hkeeps⟩ := h.owner v host key hold hin
        have hvw : v ≠ w := ne_of_keeps hkeeps (by rw [hst]; rfl)
        exact ⟨hstart, by simpa [hvw] using hkeeps⟩
  | conflicted host' port cls key' locks hst hjob hfree hlocks =>
      change key ∈ (locks.lockOf host).captures at hmem
      rw [hlocks] at hmem
      obtain ⟨hstart, hkeeps⟩ := h.owner v host key howner hmem
      have hvw : v ≠ w := ne_of_keeps hkeeps (by rw [hst]; rfl)
      exact ⟨hstart, by simpa [hvw] using hkeeps⟩
  | moved st hmove =>
      obtain ⟨hstart, hkeeps⟩ := h.owner v host key howner hmem
      refine ⟨hstart, ?_⟩
      by_cases hvw : v = w
      · subst hvw
        rw [goto_stage, Function.update_self, hmove.keeps_eq hstart]
        exact hkeeps
      · simpa [hvw] using hkeeps
  | released ok hrel =>
      obtain ⟨hin, hother⟩ := (mem_captures_released w (jobs w) host key).mp hmem
      obtain ⟨hstart, hkeeps⟩ := h.owner v host key howner hin
      have hvw : v ≠ w := by intro heq; subst heq; exact hother (Or.inl hstart)
      exact ⟨hstart, by simpa [hvw, releaseLock] using hkeeps⟩

/-- A protected worker has been protected before the step, or takes its lock in it. -/
theorem Protected.back (hcall : CallInv s) (heff : Effect jobs s w s') {v : Nat} {host : String}
    {key : CapKey} (h : Protected jobs s' v host key) :
    Protected jobs s v host key ∨ (v = w ∧ s.stage w = .called) := by
  obtain ⟨hstart, hkeeps, hstops⟩ := h
  by_cases hvw : v = w
  · subst hvw
    cases heff with
    | called => simp [Stage.keeps, Stage.holdsLock] at hkeeps
    | took _ _ _ _ _ hst => exact Or.inr ⟨rfl, hst⟩
    | conflicted => simp [Stage.keeps] at hkeeps
    | moved st hmove =>
        rw [goto_stage, Function.update_self, hmove.keeps_eq hstart] at hkeeps
        exact Or.inl ⟨hstart, hkeeps, hstops⟩
    | released ok hrel => simp [Stage.keeps, hrel.starts_failed hstart] at hkeeps
  · rw [heff.stage_ne hvw] at hkeeps
    refine Or.inl ⟨hstart, hkeeps, fun u hu hrel => ?_⟩
    cases heff with
    | called hst =>
        have huw : u ≠ w := by intro heq; subst heq; exact hcall.released u hrel hst
        simpa [goto, huw] using hstops u hu hrel
    | released ok _ =>
        refine hstops u hu ?_
        show Function.update s.released w true u = true
        by_cases huw : u = w
        · rw [huw, Function.update_self]
        · rw [Function.update_of_ne huw]
          exact hrel
    | _ => exact hstops u hu hrel

/-- A worker before its release is protected: no call has seen it return. -/
theorem protected_of_holdsLock (hcall : CallInv s) {v : Nat} {host : String} {key : CapKey}
    (hstart : (jobs v).starts host key) (hst : (s.stage v).holdsLock = true) :
    Protected jobs s v host key := by
  refine ⟨hstart, keeps_of_holdsLock hst, fun u _ _ => ?_⟩
  by_contra hseen
  have hover := hcall.seen u v (by simpa using hseen)
  rw [not_over_of_holdsLock hst] at hover
  cases hover

/-- Protected locks stay held in every step that is not the release of a stop which leaves the
lock's owner protected. -/
theorem CaptureInv.step (h : CaptureInv jobs s) (hcall : CallInv s)
    (heff : Effect jobs s w s')
    (hstop : ∀ ok, Releases (jobs w) (s.stage w) ok → ∀ v host key, (jobs w).stops host key →
      ¬ Protected jobs ((s.releaseLock w (jobs w)).goto w (.ended ok)) v host key) :
    CaptureInv jobs s' := by
  refine ⟨fun v host key hprot => ?_⟩
  have hback := hprot.back hcall heff
  cases heff with
  | called hst =>
      rcases hback with hold | ⟨-, hst'⟩
      · exact h.held v host key hold
      · rw [hst] at hst'; cases hst'
  | took host' port cls key' locks hst hjob hfree hlocks =>
      have hmem := mem_captures_took hlocks host key
      rcases hback with hold | ⟨rfl, -⟩
      · obtain ⟨hin, howner⟩ := h.held v host key hold
        refine ⟨hmem.mpr (Or.inl hin), ?_⟩
        by_cases hcls : cls = .capture
        · by_cases hhost : host = host'
          · have hkey : key ≠ key' := by
              intro heq
              subst heq
              subst hcls hhost
              exact TargetLock.free_capture hfree hin
            subst hhost
            simpa [own, goto, hcls, hkey] using howner
          · simpa [own, goto, hcls, hhost] using howner
        · simpa [own, goto, hcls] using howner
      · obtain ⟨rfl, rfl, rfl⟩ := starts_runBatch hjob hprot.1
        exact ⟨hmem.mpr (Or.inr ⟨rfl, rfl, rfl⟩), by simp [own, goto]⟩
  | conflicted host' port cls key' locks hst hjob hfree hlocks =>
      rcases hback with hold | ⟨rfl, -⟩
      · obtain ⟨hin, howner⟩ := h.held v host key hold
        refine ⟨?_, howner⟩
        show key ∈ (locks.lockOf host).captures
        rw [hlocks]
        exact hin
      · simp [Protected, Stage.keeps] at hprot
  | moved st hmove =>
      rcases hback with hold | ⟨rfl, hst⟩
      · exact h.held v host key hold
      · rw [hst] at hmove
        obtain ⟨port, hjob⟩ := hprot.1
        cases hmove with
        | stopBorrowed _ _ _ hjob' => rw [hjob] at hjob'; cases hjob'
        | stopNotBorrowed _ _ _ hjob' => rw [hjob] at hjob'; cases hjob'
  | released ok hrel =>
      rcases hback with hold | ⟨rfl, hst⟩
      · obtain ⟨hin, howner⟩ := h.held v host key hold
        refine ⟨(mem_captures_released w (jobs w) host key).mpr ⟨hin, ?_⟩, howner⟩
        rintro (hstart | hstops)
        · -- the lock that `w` releases is its own
          have hown := (h.held w host key (protected_of_holdsLock hcall hstart hrel.holdsLock)).2
          obtain rfl : w = v := Option.some.inj (hown.symm.trans howner)
          have hkeeps := hprot.2.1
          simp [Stage.keeps, hrel.starts_failed hstart] at hkeeps
        · exact hstop ok hrel v host key hstops hprot
      · rw [hst] at hrel
        cases hrel

theorem callInv_invariant {start : LockManager} (C : WorkersState → Nat × WorkerStep → Prop) :
    (workersLts jobs start).Invariant C CallInv where
  init s hs := by
    rw [show s = { locks := start } from hs]
    refine ⟨fun v w hseen => ?_, fun v hrel => ?_⟩
    · cases hseen
    · cases hrel
  step s l s' _ hs _ hstep := hs.step (step_effect hstep)

theorem ownerInv_invariant {start : LockManager} (C : WorkersState → Nat × WorkerStep → Prop) :
    (workersLts jobs start).Invariant C (OwnerInv jobs) where
  init s hs := by
    rw [show s = { locks := start } from hs]
    refine ⟨fun w host key howner => ?_⟩
    cases howner
  step s l s' _ hs _ hstep := hs.step (step_effect hstep)

/-- Before the first step nobody is protected. -/
theorem captureInv_init {start : LockManager} (hs : (workersLts jobs start).init s) :
    CaptureInv jobs s := by
  rw [show s = { locks := start } from hs]
  refine ⟨fun w host key hprot => ?_⟩
  have hkeeps := hprot.2.1
  cases hkeeps

end McpSocketServer
