import McpSocketServer.Proofs.TargetConnections
import McpSocketServer.Server.Concurrency

/-!
# The number of operations at once

The executors of the schedulers and of the calls in progress bound together what is executed at
once. As long as the threads that they can come to use fit in the global limit whenever a call
begins, the limit is kept; nothing in the program makes a call wait for that.
-/

namespace McpSocketServer

open CallsState

variable {rt : Runtime} {calls : Nat → ToolStart} {s s' : CallsState}

/-- The threads that a call can come to use beside the executors of the schedulers: those of its
own executor, and for `upgrade_run` the thread of the call itself. -/
def CallsState.ownDemand (calls : Nat → ToolStart) (s : CallsState) (c : Nat) : Nat :=
  match (calls c).kind with
  | .read => 0
  | .write => (s.own c).demand
  | .upgrade => max 1 (s.own c).demand

/-- The threads that the executors of all schedulers can come to use. -/
def CallsState.sharedDemand (s : CallsState) : Nat :=
  ((List.range s.schedulers.made).map fun k => (s.shared k).demand).sum

/-- The threads that all calls in progress can come to use. -/
def CallsState.demand (calls : Nat → ToolStart) (s : CallsState) : Nat :=
  s.sharedDemand + (s.active.map (s.ownDemand calls)).sum

/-- A call begins only when the threads of all calls fit in the global limit, with those that it
adds to the executor of the scheduler that it has got, or in an executor of its own. -/
def Fits (calls : Nat → ToolStart) (s : CallsState) : CallsStep → Prop
  | .call c => ∀ k ∈ (s.schedulers.threads c).scheduler,
      (s.begin calls c k).demand calls ≤ maxGlobalConcurrency
  | _ => True

/-- The worker of a target has a thread of the executor of its call. -/
def InExecutor (calls : Nat → ToolStart) (s : CallsState) (c i : Nat) : Prop :=
  if (calls c).kind = .read then ∃ k, (c, i) ∈ (s.shared k).running
  else i ∈ (s.own c).running

/-- Workers run in threads of executors, those of schedulers that have been made and of calls in
progress, and these can come to use no more threads than the limit. -/
structure BoundInv (rt : Runtime) (calls : Nat → ToolStart) (s : CallsState) : Prop where
  schedulers : SchedulersInv rt s.schedulers
  unmade : ∀ k, s.schedulers.made ≤ k → (s.shared k).load = 0
  inExecutor : ∀ c i, (s.stage c i).inThread = true → InExecutor calls s c i
  called : ∀ c ∈ s.active, s.called c = true
  idle : ∀ c, c ∉ s.active ∨ (calls c).kind = .read → (s.own c).load = 0
  probing : ∀ c, s.probing c = true →
    (calls c).kind = .upgrade ∧ c ∈ s.active ∧ (s.own c).load = 0
  demand : s.demand calls ≤ maxGlobalConcurrency

theorem ownDemand_le {c : Nat} (h : (s'.own c).demand ≤ (s.own c).demand) :
    s'.ownDemand calls c ≤ s.ownDemand calls c := by
  unfold ownDemand
  split
  · exact Nat.le_refl _
  · exact h
  · exact max_le_max_left 1 h

/-- Executors that demand no more keep the whole demand. -/
theorem demand_le (hmade : s'.schedulers = s.schedulers) (hactive : s'.active.Sublist s.active)
    (hshared : ∀ k, (s'.shared k).demand ≤ (s.shared k).demand)
    (hown : ∀ c, (s'.own c).demand ≤ (s.own c).demand) : s'.demand calls ≤ s.demand calls := by
  have hexecutors : s'.sharedDemand ≤ s.sharedDemand := by
    rw [sharedDemand, sharedDemand, hmade]
    exact List.sum_le_sum fun k _ => hshared k
  have hsum : (s'.active.map (s'.ownDemand calls)).sum ≤ (s.active.map (s.ownDemand calls)).sum :=
    calc (s'.active.map (s'.ownDemand calls)).sum
        ≤ (s'.active.map (s.ownDemand calls)).sum :=
          List.sum_le_sum fun c _ => ownDemand_le (hown c)
      _ ≤ (s.active.map (s.ownDemand calls)).sum :=
          (hactive.map _).sum_le_sum fun _ _ => Nat.zero_le _
  exact Nat.add_le_add hexecutors hsum

/-! ### What is executed -/

/-- The threads in use. -/
def threads (s : CallsState) : List TargetOp :=
  ((List.range s.schedulers.made).flatMap fun k => (s.shared k).running.map fun t =>
    .fn t.1 t.2) ++ s.active.flatMap fun c =>
    (s.own c).running.map (.fn c) ++ if s.probing c then [.probe c] else []

theorem BoundInv.mem_threads (h : BoundInv rt calls s) {op : TargetOp} (hop : s.InFlight op) :
    op ∈ threads s := by
  cases op with
  | fn c i =>
      have hstage : (s.stage c i).inThread = true := by
        rw [show s.stage c i = .executing from hop]
        rfl
      have hin := h.inExecutor c i hstage
      unfold InExecutor at hin
      split_ifs at hin
      · obtain ⟨k, hk⟩ := hin
        have hmade : k < s.schedulers.made := by
          by_contra hnot
          rw [ThreadPool.running_eq_nil (h.unmade k (Nat.not_lt.mp hnot))] at hk
          cases hk
        refine List.mem_append_left _ (List.mem_flatMap.mpr ⟨k, List.mem_range.mpr hmade, ?_⟩)
        exact List.mem_map.mpr ⟨(c, i), hk, rfl⟩
      · have hactive : c ∈ s.active := by
          by_contra hc
          rw [ThreadPool.running_eq_nil (h.idle c (Or.inl hc))] at hin
          cases hin
        refine List.mem_append_right _ (List.mem_flatMap.mpr ⟨c, hactive, ?_⟩)
        exact List.mem_append_left _ (List.mem_map_of_mem hin)
  | probe c =>
      obtain ⟨-, hactive, -⟩ := h.probing c hop
      refine List.mem_append_right _ (List.mem_flatMap.mpr ⟨c, hactive, ?_⟩)
      rw [if_pos (show s.probing c = true from hop)]
      exact List.mem_append_right _ List.mem_cons_self

theorem BoundInv.own_threads (h : BoundInv rt calls s) (c : Nat) :
    ((s.own c).running.map (TargetOp.fn c) ++
      if s.probing c then [TargetOp.probe c] else []).length ≤ s.ownDemand calls c := by
  have hrunning := (s.own c).running_le_demand
  rw [List.length_append, List.length_map]
  cases hprobing : s.probing c with
  | true =>
      obtain ⟨hkind, -, hload⟩ := h.probing c hprobing
      rw [ThreadPool.running_eq_nil hload, ownDemand, hkind]
      exact Nat.le_max_left _ _
  | false =>
      unfold ownDemand
      cases hkind : (calls c).kind with
      | read =>
          rw [ThreadPool.running_eq_nil (h.idle c (Or.inr hkind))]
          exact Nat.le_refl _
      | write => exact hrunning
      | upgrade => exact Nat.le_trans hrunning (Nat.le_max_right _ _)

theorem BoundInv.threads_length (h : BoundInv rt calls s) :
    (threads s).length ≤ s.demand calls := by
  rw [threads, List.length_append, List.length_flatMap, List.length_flatMap]
  refine Nat.add_le_add (List.sum_le_sum fun k _ => ?_)
    (List.sum_le_sum fun c _ => h.own_threads c)
  rw [List.length_map]
  exact (s.shared k).running_le_demand

/-! ### Steps -/

/-- The schedulers and their pools move on. A new scheduler has an executor without tasks. -/
theorem BoundInv.scheduling (h : BoundInv rt calls s) {l : SchedulersStep}
    {schedulers : SchedulersState} (hstep : s.schedulers.step rt l = some schedulers) :
    BoundInv rt calls { s with schedulers := schedulers } := by
  have hdemand : sharedDemand { s with schedulers := schedulers } = s.sharedDemand := by
    unfold sharedDemand
    dsimp only
    rcases SchedulersState.step_made hstep with hmade | hmade
    · rw [hmade]
    · have hnew : (s.shared s.schedulers.made).demand = 0 := by
        rw [ThreadPool.demand, h.unmade s.schedulers.made (Nat.le_refl _), Nat.min_zero]
      rw [hmade, List.range_succ, List.map_append, List.sum_append, List.map_singleton, hnew]
      simp
  refine ⟨h.schedulers.step hstep, fun k hk => ?_, h.inExecutor, h.called, h.idle, h.probing, ?_⟩
  · refine h.unmade k (Nat.le_trans ?_ hk)
    rcases SchedulersState.step_made hstep with hmade | hmade
    · exact hmade.ge
    · exact (Nat.le_succ _).trans hmade.ge
  · rw [CallsState.demand, hdemand]
    exact h.demand

theorem BoundInv.begin (h : BoundInv rt calls s) {c k : Nat} (hcalled : s.called c = false)
    (hk : s.schedulers.threads c = .holding k) (hfits : Fits calls s (.call c)) :
    BoundInv rt calls (s.begin calls c k) := by
  have hactive : c ∉ s.active := by
    intro hc
    rw [h.called c hc] at hcalled
    cases hcalled
  have hidle : (s.own c).load = 0 := h.idle c (Or.inl hactive)
  have hcalled' : ∀ d ∈ c :: s.active, Function.update s.called c true d = true := by
    intro d hd
    rw [Function.update_apply]
    split_ifs with hdc
    · rfl
    · exact h.called d ((List.mem_cons.mp hd).resolve_left hdc)
  have hheld : (s.schedulers.threads c).scheduler = some k := by rw [hk]; rfl
  have hmade : k < s.schedulers.made := h.schedulers.held c k hheld
  have hdemand : (s.begin calls c k).demand calls ≤ maxGlobalConcurrency := hfits k hheld
  unfold CallsState.begin at hdemand ⊢
  dsimp only at hdemand ⊢
  split_ifs at hdemand ⊢ with hread
  · refine ⟨h.schedulers, fun j hj => ?_, fun d i hi => ?_, hcalled', fun d hd => ?_,
      fun d hd => ?_, hdemand⟩
    · rw [setShared_ne _ _ (Nat.ne_of_gt (Nat.lt_of_lt_of_le hmade hj))]
      exact h.unmade j hj
    · have hin := h.inExecutor d i hi
      unfold InExecutor at hin ⊢
      split_ifs at hin ⊢ with hkind
      · obtain ⟨j, hj⟩ := hin
        refine ⟨j, ?_⟩
        by_cases hjk : j = k
        · subst hjk
          rw [setShared_same]
          exact hj
        · rwa [setShared_ne _ _ hjk]
      · exact hin
    · rcases hd with hd | hd
      · exact h.idle d (Or.inl fun hmem => hd (List.mem_cons_of_mem c hmem))
      · exact h.idle d (Or.inr hd)
    · obtain ⟨hkind, hmem, hload⟩ := h.probing d hd
      exact ⟨hkind, List.mem_cons_of_mem c hmem, hload⟩
  · refine ⟨h.schedulers, h.unmade, fun d i hi => ?_, hcalled', fun d hd => ?_, fun d hd => ?_,
      hdemand⟩
    · have hin := h.inExecutor d i hi
      unfold InExecutor at hin ⊢
      split_ifs at hin ⊢ with hkind
      · exact hin
      · by_cases hdc : d = c
        · subst hdc
          rw [ThreadPool.running_eq_nil hidle] at hin
          cases hin
        · rwa [setOwn_ne _ _ hdc]
    · have hdc : d ≠ c := by
        intro hdc
        subst hdc
        exact hd.elim (fun hd => hd List.mem_cons_self) hread
      rw [setOwn_ne _ _ hdc]
      rcases hd with hd | hd
      · exact h.idle d (Or.inl fun hmem => hd (List.mem_cons_of_mem c hmem))
      · exact h.idle d (Or.inr hd)
    · obtain ⟨hkind, hmem, hload⟩ := h.probing d hd
      have hdc : d ≠ c := fun hdc => hactive (hdc ▸ hmem)
      refine ⟨hkind, List.mem_cons_of_mem c hmem, ?_⟩
      rwa [setOwn_ne _ _ hdc]

/-- A worker moves on within its thread. -/
theorem BoundInv.setStage (h : BoundInv rt calls s) {c i : Nat} {st : TargetStage}
    (hst : st.inThread = true → InExecutor calls s c i) : BoundInv rt calls (s.setStage c i st) := by
  refine ⟨h.schedulers, h.unmade, fun d j hj => ?_, h.called, h.idle, h.probing, h.demand⟩
  rw [setStage_stage] at hj
  split_ifs at hj with heq
  · obtain ⟨rfl, rfl⟩ := heq
    exact hst hj
  · exact h.inExecutor d j hj

/-- The executor of a scheduler starts or ends a task, and keeps the threads of the others. -/
theorem BoundInv.setShared (h : BoundInv rt calls s) {k c i : Nat} {p : ThreadPool (Nat × Nat)}
    (hload : p.load ≤ (s.shared k).load) (hdemand : p.demand ≤ (s.shared k).demand)
    {st : TargetStage} (hkept : ∀ t ∈ (s.shared k).running, t ≠ (c, i) → t ∈ p.running)
    (hread : (calls c).kind = .read) (hst : st.inThread = true → (c, i) ∈ p.running) :
    BoundInv rt calls ((s.setShared k p).setStage c i st) := by
  have hshared : ∀ j, ((s.setShared k p).shared j).load ≤ (s.shared j).load ∧
      ((s.setShared k p).shared j).demand ≤ (s.shared j).demand := by
    intro j
    by_cases hjk : j = k
    · subst hjk
      rw [setShared_same]
      exact ⟨hload, hdemand⟩
    · rw [setShared_ne _ _ hjk]
      exact ⟨Nat.le_refl _, Nat.le_refl _⟩
  have hle : ((s.setShared k p).setStage c i st).demand calls ≤ s.demand calls :=
    demand_le (s := s) rfl (List.Sublist.refl _) (fun j => (hshared j).2) fun _ => Nat.le_refl _
  refine ⟨h.schedulers, fun j hj => ?_, fun d j hj => ?_, h.called, h.idle, h.probing,
    Nat.le_trans hle h.demand⟩
  · exact Nat.eq_zero_of_le_zero ((hshared j).1.trans_eq (h.unmade j hj))
  rw [setStage_stage] at hj
  unfold InExecutor
  split_ifs at hj with heq
  · obtain ⟨rfl, rfl⟩ := heq
    rw [if_pos hread]
    refine ⟨k, ?_⟩
    change (d, j) ∈ ((s.setShared k p).shared k).running
    rw [setShared_same]
    exact hst hj
  · have hin := h.inExecutor d j hj
    unfold InExecutor at hin
    split_ifs at hin ⊢
    · obtain ⟨m, hm⟩ := hin
      refine ⟨m, ?_⟩
      change (d, j) ∈ ((s.setShared k p).shared m).running
      by_cases hmk : m = k
      · subst hmk
        rw [setShared_same]
        exact hkept _ hm (by simpa using heq)
      · rwa [setShared_ne _ _ hmk]
    · exact hin

/-- So does the executor of a call. -/
theorem BoundInv.setOwn (h : BoundInv rt calls s) {c i : Nat} {p : ThreadPool Nat}
    (hload : p.load ≤ (s.own c).load) (hdemand : p.demand ≤ (s.own c).demand)
    {st : TargetStage} (hkept : ∀ j ∈ (s.own c).running, j ≠ i → j ∈ p.running)
    (hread : (calls c).kind ≠ .read) (hst : st.inThread = true → i ∈ p.running) :
    BoundInv rt calls ((s.setOwn c p).setStage c i st) := by
  have hown : ∀ d, ((s.setOwn c p).own d).load ≤ (s.own d).load ∧
      ((s.setOwn c p).own d).demand ≤ (s.own d).demand := by
    intro d
    by_cases hdc : d = c
    · subst hdc
      rw [setOwn_same]
      exact ⟨hload, hdemand⟩
    · rw [setOwn_ne _ _ hdc]
      exact ⟨Nat.le_refl _, Nat.le_refl _⟩
  have hle : ((s.setOwn c p).setStage c i st).demand calls ≤ s.demand calls :=
    demand_le (s := s) rfl (List.Sublist.refl _) (fun _ => Nat.le_refl _) fun d => (hown d).2
  refine ⟨h.schedulers, h.unmade, fun d j hj => ?_, h.called, fun d hd => ?_, fun d hd => ?_,
    Nat.le_trans hle h.demand⟩
  · rw [setStage_stage] at hj
    unfold InExecutor
    split_ifs at hj with heq
    · obtain ⟨rfl, rfl⟩ := heq
      rw [if_neg hread]
      change j ∈ ((s.setOwn d p).own d).running
      rw [setOwn_same]
      exact hst hj
    · have hin := h.inExecutor d j hj
      unfold InExecutor at hin
      split_ifs at hin ⊢
      · exact hin
      · change j ∈ ((s.setOwn c p).own d).running
        by_cases hdc : d = c
        · subst hdc
          rw [setOwn_same]
          exact hkept j hin fun hji => heq ⟨rfl, hji⟩
        · rwa [setOwn_ne _ _ hdc]
  · exact Nat.eq_zero_of_le_zero ((hown d).1.trans_eq (h.idle d hd))
  · obtain ⟨hkind, hmem, hzero⟩ := h.probing d hd
    exact ⟨hkind, hmem, Nat.eq_zero_of_le_zero ((hown d).1.trans_eq hzero)⟩

/-- `upgrade_run` turns to a target, or has its answer. -/
theorem BoundInv.setProbing (h : BoundInv rt calls s) {c : Nat} {b : Bool}
    (hb : b = true → (calls c).kind = .upgrade ∧ c ∈ s.active ∧ (s.own c).load = 0) :
    BoundInv rt calls { s with probing := Function.update s.probing c b } := by
  refine ⟨h.schedulers, h.unmade, h.inExecutor, h.called, h.idle, fun d hd => ?_, h.demand⟩
  change Function.update s.probing c b d = true at hd
  rw [Function.update_apply] at hd
  split_ifs at hd with hdc
  · subst hdc
    exact hb hd
  · exact h.probing d hd

/-- A call returns when its executor is shut down. -/
theorem BoundInv.ret (h : BoundInv rt calls s) {c : Nat} (hload : (s.own c).load = 0)
    (hprobing : s.probing c = false) :
    BoundInv rt calls { s with active := s.active.erase c } := by
  have hle : CallsState.demand calls { s with active := s.active.erase c } ≤ s.demand calls :=
    demand_le (s := s) rfl List.erase_sublist (fun _ => Nat.le_refl _) fun _ => Nat.le_refl _
  refine ⟨h.schedulers, h.unmade, h.inExecutor, fun d hd => h.called d (List.mem_of_mem_erase hd),
    fun d hd => ?_, fun d hd => ?_, Nat.le_trans hle h.demand⟩
  · by_cases hdc : d = c
    · subst hdc
      exact hload
    · refine h.idle d (hd.imp_left fun hmem hactive => hmem ?_)
      exact (List.mem_erase_of_ne hdc).mpr hactive
  · obtain ⟨hkind, hmem, hzero⟩ := h.probing d hd
    have hdc : d ≠ c := by
      intro hdc
      subst hdc
      rw [show s.probing d = true from hd] at hprobing
      cases hprobing
    exact ⟨hkind, (List.mem_erase_of_ne hdc).mpr hmem, hzero⟩

theorem BoundInv.step (h : BoundInv rt calls s) {l : CallsStep} (hfits : Fits calls s l)
    (hstep : s.step rt calls l = some s') : BoundInv rt calls s' := by
  cases l with
  | scheduling l =>
      obtain ⟨schedulers, hl, rfl⟩ := Option.map_eq_some_iff.mp hstep
      exact h.scheduling hl
  | call c =>
      simp only [CallsState.step] at hstep
      split at hstep
      · rename_i k hk
        split_ifs at hstep with hcalled
        obtain rfl := Option.some.inj hstep
        exact h.begin (Bool.eq_false_iff.mpr hcalled) hk hfits
      · cases hstep
  | start c i =>
      simp only [CallsState.step] at hstep
      split_ifs at hstep with hread
      · obtain ⟨p, hp, rfl⟩ := Option.map_eq_some_iff.mp hstep
        obtain ⟨-, -, hload⟩ := ThreadPool.start_spec hp
        exact h.setShared hload.le (ThreadPool.start_demand hp).le
          (fun t ht _ => ThreadPool.mem_start hp (Or.inl ht)) hread
          fun _ => ThreadPool.mem_start hp (Or.inr rfl)
      · obtain ⟨p, hp, rfl⟩ := Option.map_eq_some_iff.mp hstep
        obtain ⟨-, -, hload⟩ := ThreadPool.start_spec hp
        exact h.setOwn hload.le (ThreadPool.start_demand hp).le
          (fun t ht _ => ThreadPool.mem_start hp (Or.inl ht)) hread
          fun _ => ThreadPool.mem_start hp (Or.inr rfl)
  | enter c i =>
      simp only [CallsState.step] at hstep
      split_ifs at hstep with hstage
      obtain rfl := Option.some.inj hstep
      exact h.setStage fun _ => h.inExecutor c i (by rw [hstage]; rfl)
  | leave c i =>
      simp only [CallsState.step] at hstep
      split_ifs at hstep with hstage
      obtain rfl := Option.some.inj hstep
      exact h.setStage fun _ => h.inExecutor c i (by rw [hstage]; rfl)
  | finish c i =>
      simp only [CallsState.step] at hstep
      split_ifs at hstep with hstage hread
      · obtain rfl := Option.some.inj hstep
        exact h.setShared (ThreadPool.finish_load _ _) (ThreadPool.finish_demand _ _)
          (fun t ht hne => ThreadPool.mem_finish ht hne) hread fun hst => Bool.noConfusion hst
      · obtain rfl := Option.some.inj hstep
        exact h.setOwn (ThreadPool.finish_load _ _) (ThreadPool.finish_demand _ _)
          (fun t ht hne => ThreadPool.mem_finish ht hne) hread fun hst => Bool.noConfusion hst
  | probe c =>
      simp only [CallsState.step] at hstep
      split_ifs at hstep with hprobe
      obtain rfl := Option.some.inj hstep
      exact h.setProbing fun _ => ⟨hprobe.1, hprobe.2.1, hprobe.2.2.1⟩
  | probed c =>
      simp only [CallsState.step] at hstep
      split_ifs at hstep
      obtain rfl := Option.some.inj hstep
      exact h.setProbing fun hb => Bool.noConfusion hb
  | ret c =>
      simp only [CallsState.step] at hstep
      split_ifs at hstep with hret
      obtain rfl := Option.some.inj hstep
      exact h.ret hret.2.1 hret.2.2.1

theorem BoundInv.init : BoundInv rt calls {} := by
  refine ⟨.init, fun k _ => rfl, fun c i hi => ?_, fun c hc => ?_, fun c _ => rfl, fun c hc => ?_,
    Nat.zero_le _⟩
  · cases hi
  · cases hc
  · cases hc

/-! ### The bound -/

theorem bound_invariant : (callsLts rt calls).Invariant (Fits calls) (BoundInv rt calls) where
  init s hs := by
    subst hs
    exact BoundInv.init
  step s l s' _ h hfits hstep := h.step hfits hstep

/-- If every call begins while the threads of all calls fit in the global limit, no more
operations than the limit are ever executed at once. -/
theorem concurrency_bounded (h : (callsLts rt calls).Reachable (Fits calls) s)
    {ops : List TargetOp} (hnodup : ops.Nodup) (hops : ∀ op ∈ ops, s.InFlight op) :
    ops.length ≤ maxGlobalConcurrency := by
  have hinv : BoundInv rt calls s := bound_invariant.reachable h
  calc ops.length
      ≤ (threads s).length :=
        length_le_of_nodup_subset hnodup fun op hop => hinv.mem_threads (hops op hop)
    _ ≤ s.demand calls := hinv.threads_length
    _ ≤ maxGlobalConcurrency := hinv.demand

/-! ### Runs -/

instance (s : CallsState) : DecidablePred s.InFlight
  | .fn c i => inferInstanceAs (Decidable (s.stage c i = .executing))
  | .probe c => inferInstanceAs (Decidable (s.probing c = true))

instance (s : CallsState) : DecidablePred (Fits calls s)
  | .call c => inferInstanceAs (Decidable (∀ k ∈ (s.schedulers.threads c).scheduler,
      (s.begin calls c k).demand calls ≤ maxGlobalConcurrency))
  | .scheduling _ | .start .. | .enter .. | .leave .. | .finish .. | .probe _ | .probed _
  | .ret _ => inferInstanceAs (Decidable True)

/-- Two calls begin, one after the other: the first one makes the scheduler. -/
def beginBoth : List CallsStep :=
  [.scheduling (.check 0), .scheduling (.assign 0), .scheduling (.ret 0), .call 0,
    .scheduling (.check 1), .scheduling (.ret 1), .call 1]

/-- All workers of a call enter their client functions. -/
def enterAll (calls : Nat → ToolStart) (c : Nat) : List CallsStep :=
  (List.range (calls c).targets).flatMap fun i => [.start c i, .enter c i]

/-- A read tool on two targets, beside a write tool on two more. -/
def smallCalls : Nat → ToolStart
  | 0 => ⟨.read, 2⟩
  | _ => ⟨.write, 2⟩

/-- Both calls have all their client functions running. -/
def smallRun : List CallsStep :=
  beginBoth ++ enterAll smallCalls 0 ++ enterAll smallCalls 1

/-- The state in which they run. -/
def smallEnd : CallsState :=
  ((callsLts (tableRuntime [] "") smallCalls).runWhen (Fits smallCalls) smallRun {}).get
    (by decide +kernel)

theorem concurrency_bounded_witness :
    [TargetOp.fn 0 0, .fn 0 1, .fn 1 0, .fn 1 1].length ≤ maxGlobalConcurrency :=
  concurrency_bounded (.of_runWhen (.init rfl) (Option.some_get (by decide +kernel :
    ((callsLts (tableRuntime [] "") smallCalls).runWhen (Fits smallCalls) smallRun {}).isSome)).symm)
    (by decide) (s := smallEnd) (by decide +kernel)

/-- Two write calls on 26 targets each. -/
def wideCalls : Nat → ToolStart := fun _ => ⟨.write, 26⟩

/-- Both calls have all their client functions running. -/
def wideRun : List CallsStep := beginBoth ++ enterAll wideCalls 0 ++ enterAll wideCalls 1

/-- The state in which they run. -/
def wideEnd : CallsState :=
  ((callsLts (tableRuntime [] "") wideCalls).run wideRun {}).get (by decide +kernel)

/-- The 52 client functions. -/
def wideOps : List TargetOp :=
  (List.range 26).map (.fn 0) ++ (List.range 26).map (.fn 1)

/-- Each call has executors for all its targets. -/
theorem executors_unbounded :
    (callsLts (tableRuntime [] "") wideCalls).Reachable Lts.always wideEnd ∧
      wideOps.Nodup ∧ (∀ op ∈ wideOps, wideEnd.InFlight op) ∧
      maxGlobalConcurrency < wideOps.length := by
  refine ⟨.of_run (.init rfl) (Option.some_get _).symm, ?_⟩
  decide +kernel

end McpSocketServer
