import McpSocketServer.Proofs.WorkerFrames
import McpSocketServer.Server.BatchThreads

/-!
# Every interleaving of a batch ends like a sequential run

The workers of a call on distinct targets share the locks and the registry, but each of them
sees the lock of its own target only, and no client function depends on what the registry holds.
However their steps and those of other calls interleave, every worker ends as it does in the
sequential run of the call, and leaves the lock of its target as there.
-/

namespace McpSocketServer

variable {rt : Runtime} {port timeout : Int} {call : ToolCall} {does : String → Borrowing}
  {sh : Shared} {resolved : List String} {s s' : BatchThreads} {host : String}

/-! ### One target -/

theorem LockManager.acquire_own {lm lm' : LockManager} {target : String}
    (h : lm.lockOf target = lm'.lockOf target) (cls : LockClass) (key : Option CapKey) :
    (lm.acquire target cls key).2.lockOf target = (lm'.acquire target cls key).2.lockOf target := by
  by_cases hfree : (lm.lockOf target).Free cls key
  · have hfree' : (lm'.lockOf target).Free cls key := h ▸ hfree
    rw [(acquire_free hfree).2, (acquire_free hfree').2, if_pos rfl, if_pos rfl, h]
  · have hfree' : ¬ (lm'.lockOf target).Free cls key := h ▸ hfree
    rw [(acquire_conflict hfree).2, (acquire_conflict hfree').2, h]

theorem locksAfter_own {locks locks' : LockManager} (outcome : Except PyErr PyVal)
    (h : locks.lockOf host = locks'.lockOf host) :
    (call.locksAfter host outcome locks).lockOf host =
      (call.locksAfter host outcome locks').lockOf host := by
  unfold ToolCall.locksAfter
  split
  · rw [LockManager.lockOf_release, LockManager.lockOf_release, h]
  · split
    · exact h
    · rw [LockManager.lockOf_release, LockManager.lockOf_release, h]

/-- The lock of a target after a successful acquire at the begin of the call. -/
def LockedAtBegin (call : ToolCall) (sh : Shared) (s : BatchThreads) (host : String) : Prop :=
  (sh.locks.acquire host call.lockClass (some call.lockKey)).1 = .ok () ∧
    s.shared.locks.lockOf host =
      (sh.locks.acquire host call.lockClass (some call.lockKey)).2.lockOf host

/-- The worker is where it would be if it had run alone. -/
def AsAlone (rt : Runtime) (port timeout : Int) (call : ToolCall) (does : String → Borrowing)
    (sh : Shared) (s : BatchThreads) (host : String) : BatchStage → Prop
  | .waiting => s.shared.locks.lockOf host = sh.locks.lockOf host
  | .locked => LockedAtBegin call sh s host
  | .notBorrowed e => LockedAtBegin call sh s host ∧
      (does host).acquire host port (call.socketTimeout timeout) = .error e
  | .ran outcome => LockedAtBegin call sh s host ∧
      ∃ client, (does host).acquire host port (call.socketTimeout timeout) = .ok client ∧
        ((call.fn rt port).exec ⟨client, sh.registry⟩).1 = outcome
  | .ended e => (call.runOne rt port timeout sh host (does host)).1 = e ∧
      s.shared.locks.lockOf host =
        (call.runOne rt port timeout sh host (does host)).2.locks.lockOf host

/-- Only the lock of the target counts. -/
theorem AsAlone.congr {st : BatchStage} (h : AsAlone rt port timeout call does sh s host st)
    (hlock : s'.shared.locks.lockOf host = s.shared.locks.lockOf host) :
    AsAlone rt port timeout call does sh s' host st := by
  have hlocked : LockedAtBegin call sh s host → LockedAtBegin call sh s' host :=
    fun hlocked => ⟨hlocked.1, hlock.trans hlocked.2⟩
  cases st with
  | waiting => exact hlock.trans h
  | locked => exact hlocked h
  | notBorrowed e => exact ⟨hlocked h.1, h.2⟩
  | ran outcome => exact ⟨hlocked h.1, h.2⟩
  | ended e => exact ⟨h.1, hlock.trans h.2⟩

/-! ### All targets -/

/-- Every worker is where it would be alone, and there is a registry if there was one. -/
structure BatchInv (rt : Runtime) (port timeout : Int) (call : ToolCall)
    (does : String → Borrowing) (resolved : List String) (sh : Shared) (s : BatchThreads) :
    Prop where
  registry : s.shared.registry.isSome = sh.registry.isSome
  alone : ∀ host ∈ resolved, AsAlone rt port timeout call does sh s host (s.stage host)

/-- A worker moves and touches no lock but its own. -/
theorem BatchInv.goto (h : BatchInv rt port timeout call does resolved sh s) {st : BatchStage}
    {shared : Shared} (hregistry : shared.registry.isSome = s.shared.registry.isSome)
    (hlocks : ∀ host', host' ≠ host →
      shared.locks.lockOf host' = s.shared.locks.lockOf host')
    (hst : AsAlone rt port timeout call does sh { s with shared := shared } host st) :
    BatchInv rt port timeout call does resolved sh ({ s with shared := shared }.goto host st) := by
  refine ⟨hregistry.trans h.registry, fun host' hmem => ?_⟩
  by_cases hsame : host' = host
  · subst hsame
    rw [BatchThreads.goto_stage, Function.update_self]
    exact hst.congr rfl
  · rw [BatchThreads.goto_stage, Function.update_of_ne hsame]
    exact (h.alone host' hmem).congr (hlocks host' hsame)

theorem BatchInv.lock (h : BatchInv rt port timeout call does resolved sh s)
    (hmem : host ∈ resolved) (hst : s.stage host = .waiting) {r : Except LockConflict Unit}
    {locks : LockManager}
    (hacq : s.shared.locks.acquire host call.lockClass (some call.lockKey) = (r, locks)) :
    BatchInv rt port timeout call does resolved sh
      ((s.setLocks locks).goto host (.afterLock r)) := by
  have hwaiting : s.shared.locks.lockOf host = sh.locks.lockOf host := by
    have halone := h.alone host hmem
    rw [hst] at halone
    exact halone
  have houtcome := LockManager.acquire_outcome hwaiting call.lockClass (some call.lockKey)
  have hown := LockManager.acquire_own hwaiting call.lockClass (some call.lockKey)
  rw [hacq] at houtcome hown
  refine h.goto rfl (fun host' hne => ?_) ?_
  · have hframe := s.shared.locks.acquire_lockOf_ne hne call.lockClass (some call.lockKey)
    rwa [hacq] at hframe
  · cases r with
    | ok u => exact ⟨houtcome.symm, hown⟩
    | error e =>
        show (call.runOne rt port timeout sh host (does host)).1 = .conflict e ∧ _ = _
        rcases hsh : sh.locks.acquire host call.lockClass (some call.lockKey) with ⟨e' | u, locks'⟩
        · rw [hsh] at houtcome hown
          obtain rfl : e = e' := Except.error.inj houtcome
          simp only [ToolCall.runOne, hsh]
          exact ⟨trivial, hown⟩
        · rw [hsh] at houtcome
          cases houtcome

theorem BatchInv.work (h : BatchInv rt port timeout call does resolved sh s)
    (hmem : host ∈ resolved) (hst : s.stage host = .locked) {client : SocketServerClient}
    {outcome : Except PyErr PyVal} {after : FnState}
    (hborrow : (does host).acquire host port (call.socketTimeout timeout) = .ok client)
    (hfn : (call.fn rt port).exec ⟨client, s.shared.registry⟩ = (outcome, after)) :
    BatchInv rt port timeout call does resolved sh
      ({ s with shared := { s.shared with registry := after.registry } }.goto host
        (.ran outcome)) := by
  have hlocked : LockedAtBegin call sh s host := by
    have halone := h.alone host hmem
    rw [hst] at halone
    exact halone
  have hagree := fn_agrees rt port call ⟨client, s.shared.registry⟩ ⟨client, sh.registry⟩
    ⟨rfl, h.registry, rfl⟩
  rw [hfn] at hagree
  refine h.goto ?_ (fun _ _ => rfl) ⟨hlocked, client, hborrow, hagree.1.symm⟩
  exact hagree.2.2.1.trans h.registry.symm

theorem BatchInv.released (h : BatchInv rt port timeout call does resolved sh s)
    {locks : LockManager} {e : WorkerEnd}
    (hlocks : ∀ host', host' ≠ host → locks.lockOf host' = s.shared.locks.lockOf host')
    (hend : (call.runOne rt port timeout sh host (does host)).1 = e)
    (hlock : locks.lockOf host =
      (call.runOne rt port timeout sh host (does host)).2.locks.lockOf host) :
    BatchInv rt port timeout call does resolved sh ((s.setLocks locks).goto host (.ended e)) :=
  h.goto rfl hlocks ⟨hend, hlock⟩

theorem BatchInv.release (h : BatchInv rt port timeout call does resolved sh s)
    (hmem : host ∈ resolved)
    (hstep : s.step rt port timeout call does (.release host) = some s') :
    BatchInv rt port timeout call does resolved sh s' := by
  have halone := h.alone host hmem
  rcases BatchThreads.step_release hstep with ⟨e, hst, rfl⟩ | ⟨outcome, hst, rfl⟩
  · rw [hst] at halone
    obtain ⟨⟨hok, hown⟩, hborrow⟩ := halone
    rcases hsh : sh.locks.acquire host call.lockClass (some call.lockKey) with ⟨e' | u, locks'⟩
    · rw [hsh] at hok
      cases hok
    · rw [hsh] at hown
      refine h.released (fun host' hne => ?_) ?_ ?_
      · rw [LockManager.lockOf_release, if_neg hne]
      · simp only [ToolCall.runOne, hsh, hborrow]
      · simp only [ToolCall.runOne, hsh, hborrow]
        rw [LockManager.lockOf_release, LockManager.lockOf_release, hown]
  · rw [hst] at halone
    obtain ⟨⟨hok, hown⟩, client, hborrow, hfn⟩ := halone
    rcases hsh : sh.locks.acquire host call.lockClass (some call.lockKey) with ⟨e' | u, locks'⟩
    · rw [hsh] at hok
      cases hok
    · rw [hsh] at hown
      refine h.released (fun host' hne => locksAfter_lockOf_ne call hne outcome _) ?_ ?_
      · simp only [ToolCall.runOne, hsh, hborrow, hfn]
      · simp only [ToolCall.runOne, hsh, hborrow, hfn]
        exact locksAfter_own outcome hown

theorem BatchInv.step (h : BatchInv rt port timeout call does resolved sh s) {l : BatchStep}
    (hC : s.Apart resolved l) (hstep : s.step rt port timeout call does l = some s') :
    BatchInv rt port timeout call does resolved sh s' := by
  cases l with
  | lock host =>
      obtain ⟨hst, r, locks, hacq, rfl⟩ := BatchThreads.step_lock hstep
      exact h.lock hC hst hacq
  | work host =>
      obtain ⟨hst, ⟨e, hborrow, rfl⟩ | ⟨client, outcome, after, hborrow, hfn, rfl⟩⟩ :=
        BatchThreads.step_work hstep
      · have halone := h.alone host hC
        rw [hst] at halone
        have hsame : BatchInv rt port timeout call does resolved sh
            ({ s with shared := s.shared }.goto host (.notBorrowed e)) :=
          h.goto rfl (fun _ _ => rfl) ⟨halone, hborrow⟩
        exact hsame
      · exact h.work hC hst hborrow hfn
  | release host => exact h.release hC hstep
  | outside shared =>
      obtain rfl : { s with shared := shared } = s' := Option.some.inj hstep
      exact ⟨hC.2.trans h.registry, fun host hmem => (h.alone host hmem).congr (hC.1 host hmem)⟩

/-! ### Whole calls -/

theorem BatchInv.results (h : BatchInv rt port timeout call does resolved sh s)
    (hended : ∀ host ∈ resolved, s.Ended host) {order : List String}
    (horder : ∀ host ∈ order, host ∈ resolved) :
    s.results call order = order.map (workerResult rt port timeout call sh does) := by
  induction order with
  | nil => rfl
  | cons host order ih =>
      have hmem : host ∈ resolved := horder host List.mem_cons_self
      obtain ⟨e, he⟩ := hended host hmem
      have halone := h.alone host hmem
      rw [he] at halone
      rw [BatchThreads.results, List.filterMap_cons, he, List.map_cons, workerResult, halone.1]
      exact congrArg _ (ih fun host' hmem' => horder host' (List.mem_cons_of_mem _ hmem'))

theorem interleavings_sequential (hnodup : resolved.Nodup) (run : TargetsRun resolved)
    {ls : List BatchStep}
    (hrun : (batchLts rt port timeout call run.does sh).Run (BatchThreads.Apart resolved)
      { shared := sh } ls s')
    (hended : ∀ host ∈ resolved, s'.Ended host) :
    s'.results call run.order = run.results rt port timeout call sh ∧
      ∀ host ∈ resolved, s'.shared.locks.lockOf host =
        (call.runOne rt port timeout sh host (run.does host)).2.locks.lockOf host := by
  have hbegin : BatchInv rt port timeout call run.does resolved sh { shared := sh } :=
    ⟨rfl, fun _ _ => rfl⟩
  have hinv : BatchInv rt port timeout call run.does resolved sh s' :=
    hrun.invariant (fun _ _ _ h hC hstep => h.step hC hstep) hbegin
  refine ⟨?_, fun host hmem => ?_⟩
  · rw [hinv.results hended fun host hmem => run.perm.mem_iff.mp hmem, results_eq run hnodup]
  · obtain ⟨e, he⟩ := hended host hmem
    have halone := hinv.alone host hmem
    rw [he] at halone
    exact halone.2

/-! ### The answer of the call -/

/-- Another state in which all targets but one are where they were. -/
def BatchThreads.Elsewhere (s s' : BatchThreads) (host : String) : Prop :=
  ∀ host', host' ≠ host → s'.stage host' = s.stage host'

theorem BatchThreads.lock_moves (rt : Runtime) (port timeout : Int) (call : ToolCall)
    (does : String → Borrowing) (h : s.stage host = .waiting) :
    ∃ s', s.step rt port timeout call does (.lock host) = some s' ∧
      (s'.stage host = .locked ∨ s'.Ended host) ∧ s.Elsewhere s' host := by
  rcases hacq : s.shared.locks.acquire host call.lockClass (some call.lockKey) with ⟨r, locks⟩
  refine ⟨(s.setLocks locks).goto host (.afterLock r), ?_, ?_, ?_⟩
  · simp only [BatchThreads.step, h, hacq]
  · rw [BatchThreads.Ended, BatchThreads.goto_stage, Function.update_self]
    cases r with
    | error e => exact Or.inr ⟨.conflict e, rfl⟩
    | ok u => exact Or.inl rfl
  · exact fun host' hne => Function.update_of_ne hne _ _

theorem BatchThreads.work_moves (rt : Runtime) (port timeout : Int) (call : ToolCall)
    (does : String → Borrowing) (h : s.stage host = .locked) :
    ∃ s', s.step rt port timeout call does (.work host) = some s' ∧
      ((∃ e, s'.stage host = .notBorrowed e) ∨ ∃ outcome, s'.stage host = .ran outcome) ∧
      s.Elsewhere s' host := by
  cases hborrow : (does host).acquire host port (call.socketTimeout timeout) with
  | error e =>
      refine ⟨s.goto host (.notBorrowed e), ?_, Or.inl ⟨e, ?_⟩, ?_⟩
      · simp only [BatchThreads.step, h, hborrow]
      · exact Function.update_self host _ _
      · exact fun host' hne => Function.update_of_ne hne _ _
  | ok client =>
      let r := (call.fn rt port).exec ⟨client, s.shared.registry⟩
      refine ⟨{ s with shared := { s.shared with registry := r.2.registry } }.goto host (.ran r.1),
        ?_, Or.inr ⟨r.1, ?_⟩, ?_⟩
      · simp only [BatchThreads.step, h, hborrow, r]
      · exact Function.update_self host _ _
      · exact fun host' hne => Function.update_of_ne hne _ _

theorem BatchThreads.release_moves (rt : Runtime) (port timeout : Int) (call : ToolCall)
    (does : String → Borrowing)
    (h : (∃ e, s.stage host = .notBorrowed e) ∨ ∃ outcome, s.stage host = .ran outcome) :
    ∃ s', s.step rt port timeout call does (.release host) = some s' ∧ s'.Ended host ∧
      s.Elsewhere s' host := by
  rcases h with ⟨e, h⟩ | ⟨outcome, h⟩ <;> simp only [BatchThreads.step, h]
  · exact ⟨_, rfl, ⟨_, Function.update_self host _ _⟩,
      fun host' hne => Function.update_of_ne hne _ _⟩
  · exact ⟨_, rfl, ⟨_, Function.update_self host _ _⟩,
      fun host' hne => Function.update_of_ne hne _ _⟩

/-- A worker that waits can go on to its end while all others stand still. -/
theorem BatchThreads.worker_ends (rt : Runtime) (port timeout : Int) (call : ToolCall)
    (does : String → Borrowing) (sh : Shared) (hmem : host ∈ resolved)
    (h : s.stage host = .waiting) :
    ∃ ls s', (batchLts rt port timeout call does sh).Run (BatchThreads.Apart resolved) s ls s' ∧
      s'.Ended host ∧ s.Elsewhere s' host := by
  obtain ⟨s₁, hlock, hlocked | hended, hframe₁⟩ :=
    BatchThreads.lock_moves rt port timeout call does h
  · obtain ⟨s₂, hwork, hworked, hframe₂⟩ :=
      BatchThreads.work_moves rt port timeout call does hlocked
    obtain ⟨s₃, hrelease, hended, hframe₃⟩ :=
      BatchThreads.release_moves rt port timeout call does hworked
    refine ⟨[.lock host, .work host, .release host], s₃,
      .cons hmem hlock (.cons hmem hwork (.cons hmem hrelease (.nil s₃))), hended, ?_⟩
    intro host' hne
    rw [hframe₃ host' hne, hframe₂ host' hne, hframe₁ host' hne]
  · exact ⟨[.lock host], s₁, .cons hmem hlock (.nil s₁), hended, hframe₁⟩

/-- The workers can come to their ends one after another. -/
theorem BatchThreads.all_end (rt : Runtime) (port timeout : Int) (call : ToolCall)
    (does : String → Borrowing) (sh : Shared) {hosts : List String}
    (hsub : ∀ host ∈ hosts, host ∈ resolved) (hnodup : hosts.Nodup)
    (hwaiting : ∀ host ∈ hosts, s.stage host = .waiting) :
    ∃ ls s', (batchLts rt port timeout call does sh).Run (BatchThreads.Apart resolved) s ls s' ∧
      (∀ host ∈ hosts, s'.Ended host) ∧
      ∀ host, host ∉ hosts → s'.stage host = s.stage host := by
  induction hosts generalizing s with
  | nil => exact ⟨[], s, .nil s, nofun, fun _ _ => rfl⟩
  | cons host hosts ih =>
      obtain ⟨hfresh, hnodup⟩ := List.nodup_cons.mp hnodup
      obtain ⟨ls, s₁, hrun, ⟨e, hended⟩, hframe⟩ :=
        BatchThreads.worker_ends rt port timeout call does sh (hsub host List.mem_cons_self)
          (hwaiting host List.mem_cons_self)
      obtain ⟨ls', s₂, hrun', hended', hframe'⟩ :=
        ih (s := s₁) (fun host' h => hsub host' (List.mem_cons_of_mem _ h)) hnodup
          fun host' h => by
            rw [hframe host' fun heq => hfresh (heq ▸ h)]
            exact hwaiting host' (List.mem_cons_of_mem _ h)
      refine ⟨ls ++ ls', s₂, hrun.append hrun', List.forall_mem_cons.mpr ⟨⟨e, ?_⟩, hended'⟩, ?_⟩
      · rw [hframe' host hfresh, hended]
      · intro host' hnot
        rw [hframe' host' (List.not_mem_of_not_mem_cons hnot),
          hframe host' (List.ne_of_not_mem_cons hnot)]

/-- Whatever the order of the steps, the call returns or raises what it does in the sequential
run. -/
theorem answers_sequential (hnodup : resolved.Nodup) (run : TargetsRun resolved)
    {r : Except PyErr StopReport} :
    run.Answers rt port timeout call sh r ↔ r = run.answer rt port timeout call sh := by
  constructor
  · intro h
    obtain ⟨ls, s, hrun, hended, hanswer⟩ := h
    rw [← hanswer, (interleavings_sequential hnodup run hrun hended).1, TargetsRun.answer]
  · intro h
    have hsub : ∀ host ∈ resolved, host ∈ resolved := fun _ hmem => hmem
    obtain ⟨ls, s, hrun, hended, -⟩ := BatchThreads.all_end (s := { shared := sh }) rt port
      timeout call run.does sh hsub hnodup fun _ _ => rfl
    refine ⟨ls, s, hrun, hended, ?_⟩
    rw [(interleavings_sequential hnodup run hrun hended).1, h, TargetsRun.answer]

end McpSocketServer
