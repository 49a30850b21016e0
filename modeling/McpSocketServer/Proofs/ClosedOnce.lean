import McpSocketServer.Misc.OnePlace
import McpSocketServer.Proofs.OpenSockets

/-!
# Every client is closed once

A thread that evicts expired connections, one that releases an unhealthy client and the calls of
`close_all` all close clients outside of the lock. No two of them have the same client to close,
and a client that one of them has closed stays out of circulation, so that the pool closes no
client twice.
-/

namespace McpSocketServer

open TargetPool

variable {κ ω ν : Type} {K : ClientKind κ ω ν}

/-! ### Who closes what -/

/-- The clients that each thread and each call of `close_all` is about to close. -/
def toClose (s : DrainState κ) : Nat ⊕ Nat → List Nat :=
  Sum.elim (fun t => (s.base.threads t).dropping) s.draining

/-- The client that the pool closes in the step. -/
def closedClient (s : DrainState κ) : DrainStep ω ν → Option Nat
  | .thread t .evict | .thread t .close => (s.base.threads t).dropping.head?
  | .closeNext u => (s.draining u).head?
  | _ => none

theorem closing_iff {s : DrainState κ} {c : Nat} : Closing s c ↔ ∃ k, c ∈ toClose s k := by
  constructor
  · rintro (⟨t, ht⟩ | ⟨u, hu⟩)
    · exact ⟨.inl t, ht⟩
    · exact ⟨.inr u, hu⟩
  · rintro ⟨t | u, hc⟩
    · exact Or.inl ⟨t, hc⟩
    · exact Or.inr ⟨u, hc⟩

theorem toClose_thread {s : DrainState κ} {base : PoolState κ} {t : Nat} (ph : Phase)
    (h : base.threads = Function.update s.base.threads t ph) :
    toClose { s with base := base } = Function.update (toClose s) (.inl t) ph.dropping := by
  funext k
  rcases k with u | u
  · by_cases hut : u = t
    · subst hut
      simp [toClose, h]
    · simp [toClose, h, hut]
  · simp [toClose]

theorem toClose_drain {s : DrainState κ} {base : PoolState κ} {u : Nat} {cs : List Nat}
    (h : base.threads = s.base.threads) :
    toClose { base := base, draining := Function.update s.draining u cs } =
      Function.update (toClose s) (.inr u) cs := by
  rw [toClose, toClose, Sum.update_elim_inr, h]

/-- A step that closes a client takes it off its list. Any other fills one list, which was empty,
with clients that were in use. -/
structure Filled (s s' : DrainState κ) (k : Nat ⊕ Nat) (cs : List Nat) : Prop where
  empty : toClose s k = []
  lists : toClose s' = Function.update (toClose s) k cs
  nodup : cs.Nodup
  inUse : ∀ c ∈ cs, InUse s.base c

theorem Filled.thread {s : DrainState κ} {base : PoolState κ} {t : Nat} {ph : Phase}
    (hdrop : (s.base.threads t).dropping = [])
    (hthreads : base.threads = Function.update s.base.threads t ph) (hnodup : ph.dropping.Nodup)
    (huse : ∀ c ∈ ph.dropping, InUse s.base c) :
    Filled s { s with base := base } (.inl t) ph.dropping :=
  ⟨hdrop, toClose_thread ph hthreads, hnodup, huse⟩

/-- A step that gives the thread no client to close. -/
theorem Filled.nothing {s : DrainState κ} {base : PoolState κ} {t : Nat} {ph : Phase}
    (hdrop : (s.base.threads t).dropping = [])
    (hthreads : base.threads = Function.update s.base.threads t ph) (hph : ph.dropping = []) :
    Filled s { s with base := base } (.inl t) [] := by
  rw [← hph]
  exact Filled.thread hdrop hthreads (by rw [hph]; exact List.nodup_nil) (by simp [hph])

theorem step_toClose {s s' : DrainState κ} {l : DrainStep ω ν} (howned : Owned s.base)
    (h : s.step K l = some s') :
    (∃ c k cs, closedClient s l = some c ∧ toClose s k = c :: cs ∧
      toClose s' = Function.update (toClose s) k cs) ∨
    (closedClient s l = none ∧ ∃ k cs, Filled s s' k cs) := by
  cases l with
  | takeAll u =>
      obtain ⟨hu, rfl⟩ := DrainState.step_takeAll h
      refine Or.inr ⟨rfl, .inr u, _, hu, toClose_drain rfl, ?_, fun c hc => Or.inl ?_⟩
      · exact List.nodup_reverse.mpr howned.idleNodup
      · exact List.mem_reverse.mp hc
  | closeNext u =>
      obtain ⟨c, cs, hu, rfl⟩ := DrainState.step_closeNext h
      exact Or.inl ⟨c, .inr u, cs, by simp [closedClient, hu], hu, toClose_drain rfl⟩
  | thread t l =>
      obtain ⟨base, hbase, rfl⟩ := DrainState.step_thread h
      cases l with
      | call now timeout socketTimeout =>
          obtain ⟨hph, rfl⟩ := PoolState.step_call hbase
          exact Or.inr ⟨rfl, _, _, .nothing (by rw [hph]; rfl) rfl rfl⟩
      | timeoutError now =>
          obtain ⟨_, _, hph, -, rfl⟩ := PoolState.step_timeoutError hbase
          exact Or.inr ⟨rfl, _, _, .nothing (by rw [hph]; rfl) rfl rfl⟩
      | takeSlot now =>
          obtain ⟨_, _, hph, -, rfl⟩ := PoolState.step_takeSlot hbase
          have hsplit : idleClients s.base = (popIdle now s.base.pool.idle).expired ++
              (popIdle now s.base.pool.idle).reuse.toList ++
              (popIdle now s.base.pool.idle).idle.map PooledConn.client :=
            popIdle_clients now s.base.pool.idle
          have hnodup := howned.idleNodup
          rw [hsplit, List.append_assoc] at hnodup
          refine Or.inr ⟨rfl, _, _, .thread (by rw [hph]; rfl) rfl
            (List.Nodup.of_append_left hnodup) fun c hc => Or.inl ?_⟩
          rw [hsplit, List.append_assoc]
          exact List.mem_append_left _ hc
      | evict =>
          obtain ⟨c, expired, reuse, socketTimeout, hph, rfl⟩ := PoolState.step_evict hbase
          refine Or.inl ⟨c, .inl t, expired, ?_, ?_,
            toClose_thread (.evicting expired reuse socketTimeout) rfl⟩
          · rw [closedClient, hph]
            rfl
          · show (s.base.threads t).dropping = _
            rw [hph]
            rfl
      | reuse =>
          obtain ⟨_, _, hph, rfl⟩ := PoolState.step_reuse hbase
          exact Or.inr ⟨rfl, _, _, .nothing (by rw [hph]; rfl) rfl rfl⟩
      | create =>
          obtain ⟨_, hph, rfl⟩ := PoolState.step_create hbase
          exact Or.inr ⟨rfl, _, _, .nothing (by rw [hph]; rfl) rfl rfl⟩
      | connected outcome =>
          obtain ⟨_, r, _, hph, -, rfl⟩ := PoolState.step_connected hbase
          exact Or.inr ⟨rfl, _, _, .nothing (by rw [hph]; rfl) rfl (by cases r <;> rfl)⟩
      | giveSlotBack =>
          obtain ⟨hph, rfl⟩ := PoolState.step_giveSlotBack hbase
          exact Or.inr ⟨rfl, _, _, .nothing (by rw [hph]; rfl) rfl rfl⟩
      | perform work =>
          obtain ⟨_, hph, rfl⟩ := PoolState.step_perform hbase
          exact Or.inr ⟨rfl, _, _, .nothing (by rw [hph]; rfl) rfl rfl⟩
      | release now =>
          obtain ⟨c, healthy, hph, rfl⟩ := PoolState.step_release hbase
          refine Or.inr ⟨rfl, _, _, .thread (by rw [hph]; rfl) rfl ?_ fun d hd => ?_⟩
          · cases healthy <;> simp [Phase.dropping]
          · cases healthy with
            | true => simp [Phase.dropping] at hd
            | false =>
                obtain rfl := List.mem_singleton.mp hd
                exact Or.inr ⟨t, by rw [hph]; rfl⟩
      | close =>
          obtain ⟨c, hph, rfl⟩ := PoolState.step_close hbase
          refine Or.inl ⟨c, .inl t, [], ?_, ?_, toClose_thread .out rfl⟩
          · rw [closedClient, hph]
            rfl
          · show (s.base.threads t).dropping = _
            rw [hph]
            rfl

/-! ### Runs -/

variable {s s' : DrainState κ}

/-- What is being closed is out of circulation, and on one list at one place only. -/
structure ClosingInv (s : DrainState κ) : Prop where
  drain : DrainInv (fun _ => False) s
  onePlace : OnePlace (toClose s)

theorem closes_nothing : Closes K fun _ => False := ⟨by simp, by simp, by simp⟩

/-- A client that somebody is about to close is out of circulation. -/
theorem ClosingInv.not_inUse (h : ClosingInv s) {c : Nat} {k : Nat ⊕ Nat}
    (hc : c ∈ toClose s k) : ¬ InUse s.base c := by
  obtain ⟨-, hidle, hfree⟩ := h.drain.outside c (closing_iff.mpr ⟨k, hc⟩)
  rintro (hin | ⟨t, ht⟩)
  · exact hidle hin
  · exact hfree t ht

theorem ClosingInv.init (hs : (drainLts K).init s) : ClosingInv s := by
  refine ⟨DrainInv.init hs, ?_⟩
  have hnone : ∀ k, toClose s k = [] := by
    rintro (t | u)
    · show (s.base.threads t).dropping = []
      rw [hs.1.2.2 t]
      rfl
    · exact hs.2 u
  exact ⟨fun k => by rw [hnone]; exact List.nodup_nil, fun k _ c hc => by simp [hnone] at hc⟩

theorem ClosingInv.step (h : ClosingInv s) {l : DrainStep ω ν} (hstep : s.step K l = some s') :
    ClosingInv s' := by
  refine ⟨h.drain.step closes_nothing hstep, ?_⟩
  rcases step_toClose h.drain.pool.owned hstep with
    ⟨c, k, cs, -, hk, hlists⟩ | ⟨-, k, cs, hfilled⟩
  · rw [hlists]
    exact h.onePlace.tail hk
  · rw [hfilled.lists]
    exact h.onePlace.fill hfilled.nodup fun c hc j hj => h.not_inUse hj (hfilled.inUse c hc)

/-- The client is out of circulation, and nobody is going to close it. -/
def Gone (s : DrainState κ) (c : Nat) : Prop := Outside s.base c ∧ ¬ Closing s c

/-- An old client that is not in use stays out. -/
theorem outside_drainStep {c : Nat} {l : DrainStep ω ν} (h : Outside s.base c)
    (hstep : s.step K l = some s') : Outside s'.base c := by
  cases l with
  | thread t l =>
      obtain ⟨base, hbase, rfl⟩ := DrainState.step_thread hstep
      exact h.step hbase
  | takeAll u =>
      obtain ⟨-, rfl⟩ := DrainState.step_takeAll hstep
      exact ⟨h.1, List.not_mem_nil, h.2.2⟩
  | closeNext u =>
      obtain ⟨_, _, -, rfl⟩ := DrainState.step_closeNext hstep
      exact h

theorem Gone.step (hinv : ClosingInv s) {c : Nat} (h : Gone s c) {l : DrainStep ω ν}
    (hstep : s.step K l = some s') : Gone s' c := by
  refine ⟨outside_drainStep h.1 hstep, fun hclosing => h.2 ?_⟩
  obtain ⟨j, hj⟩ := closing_iff.mp hclosing
  rcases step_toClose hinv.drain.pool.owned hstep with
    ⟨d, k, cs, -, hk, hlists⟩ | ⟨-, k, cs, hfilled⟩
  · rw [hlists] at hj
    by_cases hjk : j = k
    · subst hjk
      rw [Function.update_self] at hj
      exact closing_iff.mpr ⟨j, hk ▸ List.mem_cons_of_mem _ hj⟩
    · rw [Function.update_of_ne hjk] at hj
      exact closing_iff.mpr ⟨j, hj⟩
  · rw [hfilled.lists] at hj
    by_cases hjk : j = k
    · subst hjk
      rw [Function.update_self] at hj
      obtain ⟨-, hidle, hfree⟩ := h.1
      exact (hfilled.inUse c hj).elim (absurd · hidle) fun ⟨t, ht⟩ => absurd ht (hfree t)
    · rw [Function.update_of_ne hjk] at hj
      exact closing_iff.mpr ⟨j, hj⟩

/-- The client that the pool has just closed is gone. -/
theorem Gone.of_closed (hinv : ClosingInv s) {c : Nat} {l : DrainStep ω ν}
    (hstep : s.step K l = some s') (hclosed : closedClient s l = some c) :
    ¬ Gone s c ∧ Gone s' c := by
  rcases step_toClose hinv.drain.pool.owned hstep with
    ⟨d, k, cs, hd, hk, hlists⟩ | ⟨hnone, -⟩
  · obtain rfl : d = c := Option.some.inj (hd.symm.trans hclosed)
    have hclosing : Closing s d := closing_iff.mpr ⟨k, hk ▸ List.mem_cons_self⟩
    refine ⟨fun hgone => hgone.2 hclosing,
      outside_drainStep (hinv.drain.outside d hclosing) hstep, fun hagain => ?_⟩
    obtain ⟨j, hj⟩ := closing_iff.mp hagain
    rw [hlists] at hj
    exact hinv.onePlace.not_mem_tail hk j hj
  · rw [hnone] at hclosed
    cases hclosed

/-- The step closes the client. -/
def closesClient (c : Nat) (s : DrainState κ) (l : DrainStep ω ν) : Nat :=
  if closedClient s l = some c then 1 else 0

open Classical in
/-- How often the pool may still close the client. -/
noncomputable def closesLeft (c : Nat) (s : DrainState κ) : Nat := if Gone s c then 0 else 1

theorem closes_pay (hinv : ClosingInv s) (c : Nat) {l : DrainStep ω ν}
    (hstep : s.step K l = some s') : closesClient c s l + closesLeft c s' ≤ closesLeft c s + 0 := by
  by_cases hclosed : closedClient s l = some c
  · obtain ⟨hbefore, hafter⟩ := Gone.of_closed hinv hstep hclosed
    rw [closesClient, if_pos hclosed, closesLeft, if_pos hafter, closesLeft, if_neg hbefore]
  · rw [closesClient, if_neg hclosed, closesLeft, closesLeft]
    by_cases hgone : Gone s c
    · rw [if_pos hgone, if_pos (hgone.step hinv hstep)]
    · rw [if_neg hgone]
      split <;> omega

theorem closed_once {c : Nat} {ls : List (DrainStep ω ν)} (hs : (drainLts K).init s)
    (hrun : (drainLts K).Run Lts.always s ls s') :
    (drainLts K).total (closesClient c) ls s ≤ 1 ∧
      ((drainLts K).total (closesClient c) ls s = 1 →
        ¬ InUse s'.base c ∧ ¬ Closing s' c) := by
  have hbound : (drainLts K).total (closesClient c) ls s + closesLeft c s' ≤
      closesLeft c s + (drainLts K).total (fun _ _ => 0) ls s :=
    hrun.amortized (I := ClosingInv) (fun _ _ _ h _ hstep => h.step hstep)
      (fun _ _ _ h _ hstep => closes_pay h c hstep) (ClosingInv.init hs)
  have hstart : closesLeft c s ≤ 1 := by
    rw [closesLeft]
    split <;> omega
  rw [Lts.total_zero] at hbound
  refine ⟨by omega, fun hone => ?_⟩
  have hleft : closesLeft c s' = 0 := by omega
  have hgone : Gone s' c := by
    by_contra hnot
    rw [closesLeft, if_neg hnot] at hleft
    exact one_ne_zero hleft
  exact ⟨fun huse => huse.elim (absurd · hgone.1.2.1) fun ⟨t, ht⟩ => hgone.1.2.2 t ht, hgone.2⟩

/-! ### A client of each kind -/

/-- The idle client is closed by `close_all`, and another one by a thread that cannot use it. -/
def closingTrace : List (DrainStep (Except PyErr Endpoint) ToolUse) :=
  drainTrace ++ [.closeNext 0, .thread 1 (.perform ⟨.version, none⟩), .thread 1 (.release 3),
    .thread 1 .close]

/-- The state after both have been closed. -/
def closingEnd : DrainState SocketServerClient :=
  (drainedLts.run closingTrace ⟨unusedPool, fun _ => []⟩).get rfl

theorem closed_once_both :
    drainedLts.total (closesClient 0) closingTrace ⟨unusedPool, fun _ => []⟩ ≤ 1 ∧
      (¬ InUse closingEnd.base 0 ∧ ¬ Closing closingEnd 0) ∧
      (¬ InUse closingEnd.base 1 ∧ ¬ Closing closingEnd 1) := by
  have hrun : drainedLts.Run Lts.always ⟨unusedPool, fun _ => []⟩ closingTrace closingEnd :=
    .of_run (Option.some_get rfl).symm
  have hinit : drainedLts.init ⟨unusedPool, fun _ => []⟩ := ⟨⟨rfl, rfl, fun _ => rfl⟩, fun _ => rfl⟩
  exact ⟨(closed_once hinit hrun).1, (closed_once hinit hrun).2 rfl, (closed_once hinit hrun).2 rfl⟩

end McpSocketServer
