import McpSocketServer.PoolDraining
import McpSocketServer.Proofs.ConnectedClients
import McpSocketServer.Proofs.ServingTargets

/-!
# No socket is lost

Every client with an open socket is idle, in the hands of a thread, or about to be closed,
also beside calls of `close_all`. Who closes a client has it alone: it is neither idle nor lent
out, and it never comes back. Apart from the sockets that are being closed there are never more
than the pool may have connections.
-/

namespace McpSocketServer

open TargetPool

variable {κ ω ν : Type} {K : ClientKind κ ω ν} {Open : κ → Prop}

/-- A client is open when `connect` has returned, at the earliest, and until `close`. -/
structure Closes (K : ClientKind κ ω ν) (Open : κ → Prop) : Prop where
  new : ∀ timeout, ¬ Open (K.new timeout)
  connect : ∀ c outcome e, ¬ Open c → (K.connect c outcome).1 = .error e →
    ¬ Open (K.connect c outcome).2
  close : ∀ c, ¬ Open (K.close c)

/-! ### Open clients -/

/-- The client is idle or in the hands of a thread. -/
def InUse (s : PoolState κ) (c : Nat) : Prop :=
  c ∈ idleClients s ∨ ∃ t, (s.threads t).held = some c

/-- The client is in use, or a thread is about to close it. -/
def Handled (s : PoolState κ) (c : Nat) : Prop := InUse s c ∨ ∃ t, c ∈ (s.threads t).dropping

theorem Handled.mine {s : PoolState κ} {t c : Nat}
    (h : (s.threads t).held = some c ∨ c ∈ (s.threads t).dropping) : Handled s c :=
  h.elim (fun hc => Or.inl (Or.inr ⟨t, hc⟩)) fun hc => Or.inr ⟨t, hc⟩

/-- Where the thread lets go of no open client, an open client is handled afterwards, or nothing
has happened to it. -/
theorem Handled.goto {s : PoolState κ} {t fresh : Nat} {ph : Phase} {pool : TargetPool Nat}
    {clients : Nat → κ}
    (hmine : ∀ c, Open (clients c) → c ∈ idleClients s ∨ (s.threads t).held = some c ∨
        c ∈ (s.threads t).dropping →
      c ∈ pool.idle.map PooledConn.client ∨ ph.held = some c ∨ c ∈ ph.dropping)
    (hsame : ∀ c, ¬ Handled s c → c < fresh →
      (c < s.fresh ∧ clients c = s.clients c) ∨ ph.held = some c)
    {c : Nat} (hc : c < fresh) (hopen : Open (clients c)) :
    Handled (PoolState.goto ⟨pool, clients, fresh, s.threads⟩ t ph) c ∨
      (¬ Handled s c ∧ c < s.fresh ∧ Open (s.clients c)) := by
  have hnew : c ∈ pool.idle.map PooledConn.client ∨ ph.held = some c ∨ c ∈ ph.dropping →
      Handled (PoolState.goto ⟨pool, clients, fresh, s.threads⟩ t ph) c := by
    rintro (hin | hheld | hdrop)
    · exact Or.inl (Or.inl hin)
    · exact Handled.mine (t := t) (Or.inl (by simpa using hheld))
    · exact Handled.mine (t := t) (Or.inr (by simpa using hdrop))
  by_cases hhandled : Handled s c
  · left
    rcases hhandled with (hin | ⟨u, hu⟩) | ⟨u, hu⟩
    · exact hnew (hmine c hopen (Or.inl hin))
    · by_cases hut : u = t
      · subst hut
        exact hnew (hmine c hopen (Or.inr (Or.inl hu)))
      · exact Handled.mine (t := u) (Or.inl (by simpa [hut] using hu))
    · by_cases hut : u = t
      · subst hut
        exact hnew (hmine c hopen (Or.inr (Or.inr hu)))
      · exact Handled.mine (t := u) (Or.inr (by simpa [hut] using hu))
  · rcases hsame c hhandled hc with ⟨hold, hclient⟩ | hheld
    · exact Or.inr ⟨hhandled, hold, hclient ▸ hopen⟩
    · exact Or.inl (hnew (Or.inr (Or.inl hheld)))

/-- A thread without clients. -/
theorem idle_of_free {s : PoolState κ} {c : Nat} {ph : Phase} (hheld : ph.held = none)
    (hdrop : ph.dropping = []) (h : c ∈ idleClients s ∨ ph.held = some c ∨ c ∈ ph.dropping) :
    c ∈ idleClients s := by
  rcases h with hin | hmine | hmine
  · exact hin
  · rw [hheld] at hmine
    cases hmine
  · rw [hdrop] at hmine
    cases hmine

/-- A thread works on a client of its own. -/
theorem update_unhandled {s : PoolState κ} {t d : Nat} {client : κ}
    (hd : (s.threads t).held = some d ∨ d ∈ (s.threads t).dropping) {ph : Phase} (c : Nat)
    (hc : ¬ Handled s c) (hold : c < s.fresh) :
    (c < s.fresh ∧ Function.update s.clients d client c = s.clients c) ∨ ph.held = some c := by
  have hcd : c ≠ d := by
    rintro rfl
    exact hc (Handled.mine hd)
  exact Or.inl ⟨hold, Function.update_of_ne hcd _ _⟩

/-- A step of a thread loses no open client. -/
theorem open_step (hK : Closes K Open) {s s' : PoolState κ} {t : Nat} {l : PoolStep ω ν}
    (hconn : ∀ u c, s.threads u = .connecting c → ¬ Open (s.clients c))
    (hstep : s.step K t l = some s') {c : Nat} (hc : c < s'.fresh) (hopen : Open (s'.clients c)) :
    Handled s' c ∨ (¬ Handled s c ∧ c < s.fresh ∧ Open (s.clients c)) := by
  have hkeep : ∀ {ph : Phase} (d : Nat), ¬ Handled s d → d < s.fresh →
      (d < s.fresh ∧ s.clients d = s.clients d) ∨ ph.held = some d :=
    fun d _ hold => Or.inl ⟨hold, rfl⟩
  cases l with
  | call now timeout socketTimeout =>
      obtain ⟨hph, rfl⟩ := PoolState.step_call hstep
      refine Handled.goto (fun d _ hd => ?_) hkeep hc hopen
      rw [hph] at hd
      exact Or.inl (idle_of_free rfl rfl hd)
  | timeoutError now =>
      obtain ⟨_, _, hph, -, rfl⟩ := PoolState.step_timeoutError hstep
      refine Handled.goto (fun d _ hd => ?_) hkeep hc hopen
      rw [hph] at hd
      exact Or.inl (idle_of_free rfl rfl hd)
  | takeSlot now =>
      obtain ⟨_, _, hph, -, rfl⟩ := PoolState.step_takeSlot hstep
      refine Handled.goto (fun d _ hd => ?_) hkeep hc hopen
      rw [hph] at hd
      have hin : d ∈ idleClients s := idle_of_free rfl rfl hd
      rw [idleClients, popIdle_clients now s.pool.idle] at hin
      rcases List.mem_append.mp hin with hin | hrest
      · rcases List.mem_append.mp hin with hexpired | hreuse
        · exact Or.inr (Or.inr hexpired)
        · exact Or.inr (Or.inl (Option.mem_toList.mp hreuse))
      · exact Or.inl hrest
  | evict =>
      obtain ⟨e, expired, reuse, _, hph, rfl⟩ := PoolState.step_evict hstep
      have he : (s.threads t).held = some e ∨ e ∈ (s.threads t).dropping :=
        Or.inr (by rw [hph]; exact List.mem_cons_self)
      refine Handled.goto (fun d hd hmine => ?_) (update_unhandled he) hc hopen
      have hde : d ≠ e := by
        rintro rfl
        rw [Function.update_self] at hd
        exact hK.close _ hd
      rw [hph] at hmine
      rcases hmine with hin | hheld | hdrop
      · exact Or.inl hin
      · exact Or.inr (Or.inl hheld)
      · exact Or.inr (Or.inr ((List.mem_cons.mp hdrop).resolve_left hde))
  | reuse =>
      obtain ⟨e, _, hph, rfl⟩ := PoolState.step_reuse hstep
      have he : (s.threads t).held = some e ∨ e ∈ (s.threads t).dropping :=
        Or.inl (by rw [hph]; rfl)
      refine Handled.goto (fun d _ hmine => ?_) (update_unhandled he) hc hopen
      rw [hph] at hmine
      rcases hmine with hin | hheld | hdrop
      · exact Or.inl hin
      · exact Or.inr (Or.inl hheld)
      · cases hdrop
  | create =>
      obtain ⟨socketTimeout, hph, rfl⟩ := PoolState.step_create hstep
      have hgoto : Handled (PoolState.goto ⟨s.pool, Function.update s.clients s.fresh
          (K.new socketTimeout), s.fresh + 1, s.threads⟩ t (.connecting s.fresh)) c ∨
          (¬ Handled s c ∧ c < s.fresh ∧ Open (s.clients c)) := by
        refine Handled.goto (fun d _ hmine => ?_) (fun d _ hd => ?_) hc hopen
        · rw [hph] at hmine
          exact Or.inl (idle_of_free rfl rfl hmine)
        · rcases Nat.lt_succ_iff_lt_or_eq.mp hd with hold | rfl
          · exact Or.inl ⟨hold, Function.update_of_ne (Nat.ne_of_lt hold) _ _⟩
          · exact Or.inr rfl
      exact hgoto
  | connected outcome =>
      obtain ⟨e, r, client, hph, hconnect, rfl⟩ := PoolState.step_connected hstep
      have he : (s.threads t).held = some e ∨ e ∈ (s.threads t).dropping :=
        Or.inl (by rw [hph]; rfl)
      refine Handled.goto (fun d hd hmine => ?_) (update_unhandled he) hc hopen
      rw [hph] at hmine
      rcases hmine with hin | hheld | hdrop
      · exact Or.inl hin
      · obtain rfl := Option.some.inj hheld
        cases r with
        | ok _ => exact Or.inr (Or.inl rfl)
        | error err =>
            have hclosed := hK.connect _ outcome err (hconn t e hph) (by rw [hconnect])
            rw [hconnect] at hclosed
            rw [Function.update_self] at hd
            exact absurd hd hclosed
      · cases hdrop
  | giveSlotBack =>
      obtain ⟨hph, rfl⟩ := PoolState.step_giveSlotBack hstep
      refine Handled.goto (fun d _ hd => ?_) hkeep hc hopen
      rw [hph] at hd
      exact Or.inl (idle_of_free rfl rfl hd)
  | perform work =>
      obtain ⟨e, hph, rfl⟩ := PoolState.step_perform hstep
      have he : (s.threads t).held = some e ∨ e ∈ (s.threads t).dropping :=
        Or.inl (by rw [hph]; rfl)
      refine Handled.goto (fun d _ hmine => ?_) (update_unhandled he) hc hopen
      rw [hph] at hmine
      rcases hmine with hin | hheld | hdrop
      · exact Or.inl hin
      · exact Or.inr (Or.inl hheld)
      · cases hdrop
  | release now =>
      obtain ⟨e, healthy, hph, rfl⟩ := PoolState.step_release hstep
      refine Handled.goto (fun d _ hmine => ?_) hkeep hc hopen
      rw [hph] at hmine
      rcases hmine with hin | hheld | hdrop
      · cases healthy with
        | true => exact Or.inl (List.mem_cons_of_mem _ hin)
        | false => exact Or.inl hin
      · obtain rfl := Option.some.inj hheld
        cases healthy with
        | true => exact Or.inl List.mem_cons_self
        | false => exact Or.inr (Or.inr List.mem_cons_self)
      · cases hdrop
  | close =>
      obtain ⟨e, hph, rfl⟩ := PoolState.step_close hstep
      have he : (s.threads t).held = some e ∨ e ∈ (s.threads t).dropping :=
        Or.inr (by rw [hph]; exact List.mem_cons_self)
      refine Handled.goto (fun d hd hmine => ?_) (update_unhandled he) hc hopen
      have hde : d ≠ e := by
        rintro rfl
        rw [Function.update_self] at hd
        exact hK.close _ hd
      rw [hph] at hmine
      rcases hmine with hin | hheld | hdrop
      · exact Or.inl hin
      · cases hheld
      · exact absurd (List.mem_singleton.mp hdrop) hde

/-- A client that a thread begins to connect is new. -/
theorem step_connecting {s s' : PoolState κ} {t c : Nat} {l : PoolStep ω ν}
    (h : s.step K t l = some s') (hc : s'.threads t = .connecting c) :
    ∃ timeout, s'.clients c = K.new timeout := by
  cases l with
  | create =>
      obtain ⟨timeout, -, rfl⟩ := PoolState.step_create h
      obtain rfl : s.fresh = c := by simpa using hc
      exact ⟨timeout, Function.update_self _ _ _⟩
  | call => obtain ⟨-, rfl⟩ := PoolState.step_call h; simp at hc
  | timeoutError => obtain ⟨_, _, -, -, rfl⟩ := PoolState.step_timeoutError h; simp at hc
  | takeSlot => obtain ⟨_, _, -, -, rfl⟩ := PoolState.step_takeSlot h; simp at hc
  | evict => obtain ⟨_, _, _, _, -, rfl⟩ := PoolState.step_evict h; simp at hc
  | reuse => obtain ⟨_, _, -, rfl⟩ := PoolState.step_reuse h; simp at hc
  | connected =>
      obtain ⟨_, r, _, -, -, rfl⟩ := PoolState.step_connected h
      cases r <;> simp at hc
  | giveSlotBack => obtain ⟨-, rfl⟩ := PoolState.step_giveSlotBack h; simp at hc
  | perform => obtain ⟨_, -, rfl⟩ := PoolState.step_perform h; simp at hc
  | release =>
      obtain ⟨_, healthy, -, rfl⟩ := PoolState.step_release h
      cases healthy <;> simp at hc
  | close => obtain ⟨_, -, rfl⟩ := PoolState.step_close h; simp at hc

/-! ### Runs -/

/-- Somebody is about to close the client. -/
def Closing (s : DrainState κ) (c : Nat) : Prop :=
  (∃ t, c ∈ (s.base.threads t).dropping) ∨ ∃ u, c ∈ s.draining u

/-- The pool is in order, what is being closed is out of circulation, and every open client is in
use or about to be closed. -/
structure DrainInv (Open : κ → Prop) (s : DrainState κ) : Prop where
  pool : PoolInv s.base
  outside : ∀ c, Closing s c → Outside s.base c
  connecting : ∀ t c, s.base.threads t = .connecting c → ¬ Open (s.base.clients c)
  kept : ∀ c, c < s.base.fresh → Open (s.base.clients c) → InUse s.base c ∨ Closing s c

variable {s s' : DrainState κ}

theorem DrainInv.dropped (h : DrainInv Open s) : Dropped s.base :=
  fun t c hc => h.outside c (Or.inl ⟨t, hc⟩)

/-- A client that is being connected changes by its own thread alone. -/
theorem DrainInv.connecting_step (hK : Closes K Open) (h : DrainInv Open s) {t : Nat}
    {l : PoolStep ω ν} {base : PoolState κ} (hstep : s.base.step K t l = some base) {u c : Nat}
    (hc : base.threads u = .connecting c) : ¬ Open (base.clients c) := by
  by_cases hut : u = t
  · subst hut
    obtain ⟨timeout, hnew⟩ := step_connecting hstep hc
    rw [hnew]
    exact hK.new timeout
  · rw [PoolState.step_threads hstep hut] at hc
    have hheld : (s.base.threads u).held = some c := by rw [hc]; rfl
    have hold := h.pool.owned.heldOld u c hheld
    rcases step_clients hstep hold with hsame | hmine | ⟨hdrop, -⟩
    · rw [hsame]
      exact h.connecting u c hc
    · exact absurd (h.pool.owned.heldOnce u t c hheld hmine) hut
    · exact absurd hheld ((h.outside c (Or.inl ⟨t, hdrop⟩)).2.2 u)

theorem DrainInv.thread (hK : Closes K Open) (h : DrainInv Open s) {t : Nat} {l : PoolStep ω ν}
    {base : PoolState κ} (hstep : s.base.step K t l = some base) :
    DrainInv Open { s with base := base } := by
  refine ⟨h.pool.step hstep, fun c hc => ?_, fun u c hc => h.connecting_step hK hstep hc,
    fun c hc hopen => ?_⟩
  · rcases hc with ⟨u, hu⟩ | ⟨u, hu⟩
    · exact h.dropped.step h.pool.owned hstep u c hu
    · exact (h.outside c (Or.inr ⟨u, hu⟩)).step hstep
  · rcases open_step hK h.connecting hstep hc hopen with (huse | hdrop) | ⟨hnot, hold, hbefore⟩
    · exact Or.inl huse
    · exact Or.inr (Or.inl hdrop)
    · -- a call of `close_all` has it
      rcases h.kept c hold hbefore with huse | hdrop | hdrain
      · exact absurd (Or.inl huse) hnot
      · exact absurd (Or.inr hdrop) hnot
      · exact Or.inr (Or.inr hdrain)

theorem DrainInv.takeAll (h : DrainInv Open s) {u : Nat} (hu : s.draining u = []) :
    DrainInv Open
      { base := { s.base with pool := { s.base.pool with idle := [] } }
        draining := Function.update s.draining u
          (s.base.pool.idle.map PooledConn.client).reverse } := by
  obtain ⟨hcounted, hbound, howned⟩ := h.pool
  have hself : ∀ c, c ∈ (s.base.pool.idle.map PooledConn.client).reverse ↔
      c ∈ idleClients s.base := fun c => List.mem_reverse
  refine ⟨⟨hcounted, ?_, ?_⟩, fun c hc => ?_, h.connecting, fun c hc hopen => ?_⟩
  · show s.base.pool.inuse + ((0 : Nat) : Int) ≤ maxConnPerTarget
    omega
  · exact ⟨List.nodup_nil, fun c hc => absurd hc List.not_mem_nil, howned.heldOld,
      fun _ _ _ => List.not_mem_nil, howned.heldOnce⟩
  · have hwas : Closing s c ∨ c ∈ idleClients s.base := by
      rcases hc with hdrop | ⟨v, hv⟩
      · exact Or.inl (Or.inl hdrop)
      · by_cases hvu : v = u
        · subst hvu
          exact Or.inr ((hself c).mp (by simpa using hv))
        · exact Or.inl (Or.inr ⟨v, by simpa [hvu] using hv⟩)
    rcases hwas with hclosing | hidle
    · obtain ⟨hold, -, hfree⟩ := h.outside c hclosing
      exact ⟨hold, by simp [idleClients], hfree⟩
    · exact ⟨howned.idleOld c hidle, by simp [idleClients],
        fun t ht => howned.heldOut t c ht hidle⟩
  · have hdrained : ∀ v, c ∈ s.draining v → Closing
        { base := { s.base with pool := { s.base.pool with idle := [] } }
          draining := Function.update s.draining u
            (s.base.pool.idle.map PooledConn.client).reverse } c := by
      intro v hv
      have hvu : v ≠ u := by
        rintro rfl
        rw [hu] at hv
        cases hv
      exact Or.inr ⟨v, by simpa [hvu] using hv⟩
    rcases h.kept c hc hopen with (hidle | hheld) | hdrop | ⟨v, hv⟩
    · exact Or.inr (Or.inr ⟨u, by simpa using (hself c).mpr hidle⟩)
    · exact Or.inl (Or.inr hheld)
    · exact Or.inr (Or.inl hdrop)
    · exact Or.inr (hdrained v hv)

theorem DrainInv.closeNext (hK : Closes K Open) (h : DrainInv Open s) {u c : Nat} {cs : List Nat}
    (hu : s.draining u = c :: cs) :
    DrainInv Open
      { base := s.base.setClient c (K.close (s.base.clients c))
        draining := Function.update s.draining u cs } := by
  have hback : ∀ v d, d ∈ Function.update s.draining u cs v → d ∈ s.draining v := by
    intro v d hd
    by_cases hvu : v = u
    · subst hvu
      rw [hu]
      exact List.mem_cons_of_mem _ (by simpa using hd)
    · simpa [hvu] using hd
  refine ⟨h.pool.setClient c _, fun d hd => ?_, fun t d hd => ?_, fun d hd hopen => ?_⟩
  · exact h.outside d (hd.elim Or.inl fun ⟨v, hv⟩ => Or.inr ⟨v, hback v d hv⟩)
  · show ¬ Open (Function.update s.base.clients c (K.close (s.base.clients c)) d)
    by_cases hdc : d = c
    · rw [hdc, Function.update_self]
      exact hK.close _
    · rw [Function.update_of_ne hdc]
      exact h.connecting t d hd
  · have hopen' : Open (Function.update s.base.clients c (K.close (s.base.clients c)) d) := hopen
    have hdc : d ≠ c := by
      rintro rfl
      rw [Function.update_self] at hopen'
      exact hK.close _ hopen'
    rw [Function.update_of_ne hdc] at hopen'
    rcases h.kept d hd hopen' with huse | hdrop | ⟨v, hv⟩
    · exact Or.inl huse
    · exact Or.inr (Or.inl hdrop)
    · refine Or.inr (Or.inr ⟨v, ?_⟩)
      by_cases hvu : v = u
      · subst hvu
        rw [hu] at hv
        simpa using (List.mem_cons.mp hv).resolve_left hdc
      · simpa [hvu] using hv

theorem DrainInv.init (hs : (drainLts K).init s) : DrainInv Open s := by
  obtain ⟨hbase, hdrain⟩ := hs
  have hpool : PoolInv s.base := PoolInv.init hbase
  obtain ⟨-, hfresh, hout⟩ := hbase
  refine ⟨hpool, ?_, fun t c hc => ?_, fun c hc => ?_⟩
  · rintro c (⟨t, ht⟩ | ⟨u, hu⟩)
    · rw [hout] at ht
      cases ht
    · rw [hdrain] at hu
      cases hu
  · rw [hout] at hc
    cases hc
  · rw [hfresh] at hc
    cases hc

theorem DrainInv.step (hK : Closes K Open) (h : DrainInv Open s) {l : DrainStep ω ν}
    (hstep : s.step K l = some s') : DrainInv Open s' := by
  cases l with
  | thread t l =>
      obtain ⟨base, hbase, rfl⟩ := DrainState.step_thread hstep
      exact h.thread hK hbase
  | takeAll u =>
      obtain ⟨hu, rfl⟩ := DrainState.step_takeAll hstep
      exact h.takeAll hu
  | closeNext u =>
      obtain ⟨c, cs, hu, rfl⟩ := DrainState.step_closeNext hstep
      exact h.closeNext hK hu

theorem drainInv_invariant (hK : Closes K Open) :
    (drainLts K).Invariant Lts.always (DrainInv Open) where
  init _ hs := DrainInv.init hs
  step _ _ _ _ hs _ hstep := hs.step hK hstep

theorem held_active (ph : Phase) (c : Nat) (h : ph.held = some c) : ph.active = true := by
  cases ph <;> first | rfl | cases h

/-- There are no more open clients that nobody is about to close than the pool may have
connections. -/
theorem DrainInv.open_bound (h : DrainInv Open s) :
    {c | c < s.base.fresh ∧ Open (s.base.clients c) ∧ ¬ Closing s c}.Finite ∧
      {c | c < s.base.fresh ∧ Open (s.base.clients c) ∧ ¬ Closing s c}.ncard ≤
        maxConnPerTarget := by
  obtain ⟨hfinite, hbound⟩ := hands_bound h.pool held_active
  have hsub : {c | c < s.base.fresh ∧ Open (s.base.clients c) ∧ ¬ Closing s c} ⊆
      {c | c ∈ idleClients s.base ∨ ∃ t, (s.base.threads t).held = some c} := by
    rintro c ⟨hold, hopen, hnot⟩
    exact (h.kept c hold hopen).resolve_right hnot
  exact ⟨hfinite.subset hsub, (Set.ncard_le_ncard hsub hfinite).trans hbound⟩

/-! ### The clients of the tools -/

theorem connect_closed {outcome : Except PyErr Endpoint} {c : SocketServerClient} {e : PyErr}
    (hclosed : ¬ Connected c)
    (h : ((SocketServerClient.connect outcome).exec c).1 = .error e) :
    ¬ Connected ((SocketServerClient.connect outcome).exec c).2 := by
  have htriple : Prog.Triple (fun c => ¬ Connected c) (SocketServerClient.connect outcome)
      (fun _ _ => True) (fun _ c => ¬ Connected c) := by
    unfold SocketServerClient.connect
    refine Prog.Triple.bind (Q := fun _ c => ¬ Connected c) (.get fun _ hc => hc) fun r =>
      .ite (fun _ => .pure fun _ _ => trivial) fun _ => ?_
    refine .bind (Q := fun _ c => ¬ Connected c)
      (.ofExcept (fun _ _ _ hc => hc) fun _ _ _ hc => hc) fun ms => ?_
    refine .bind (Q := fun _ c => ¬ Connected c)
      (.ofExcept (fun _ _ _ hc => hc) fun _ _ _ hc => hc) fun ep => ?_
    exact .modify fun _ _ => trivial
  exact htriple.error hclosed (Prod.ext h rfl)

theorem tools_close (rt : Runtime) (host : String) (port : Int) :
    Closes (toolClients rt host port) Connected where
  new _ h := Bool.noConfusion h
  connect _ _ _ hclosed h := connect_closed hclosed h
  close _ h := Bool.noConfusion h

theorem no_socket_lost (rt : Runtime) (host : String) (port : Int)
    {s : DrainState SocketServerClient}
    (h : (drainLts (toolClients rt host port)).Reachable Lts.always s) :
    (∀ c, c < s.base.fresh → Connected (s.base.clients c) → InUse s.base c ∨ Closing s c) ∧
      (∀ c, Closing s c → ¬ InUse s.base c) ∧
      {c | c < s.base.fresh ∧ Connected (s.base.clients c) ∧ ¬ Closing s c}.ncard ≤
        maxConnPerTarget := by
  have hinv := (drainInv_invariant (tools_close rt host port)).reachable h
  refine ⟨hinv.kept, fun c hc huse => ?_, hinv.open_bound.2⟩
  obtain ⟨-, hidle, hfree⟩ := hinv.outside c hc
  rcases huse with hin | ⟨t, ht⟩
  · exact hidle hin
  · exact hfree t ht

/-! ### An idle client and a lent one -/

/-- The pool of the serving target, and calls of `close_all`. -/
abbrev drainedLts : Lts (DrainState SocketServerClient)
    (DrainStep (Except PyErr Endpoint) ToolUse) :=
  drainLts (toolClients servingRuntime "10.0.0.1" 9000)

/-- The pool is emptied after the first call, and a second one connects anew. -/
def drainTrace : List (DrainStep (Except PyErr Endpoint) ToolUse) :=
  [.thread 0 (.call 0 60 60), .thread 0 (.takeSlot 0), .thread 0 .create,
    .thread 0 (.connected (.ok servingLink.endpoint)), .thread 0 (.perform ⟨.version, none⟩),
    .thread 0 (.release 1), .takeAll 0, .thread 1 (.call 2 60 60), .thread 1 (.takeSlot 2),
    .thread 1 .create, .thread 1 (.connected (.ok fun _ _ => { reply := [.eof] }))]

/-- The state in which the second call has connected. -/
def drainedEnd : DrainState SocketServerClient :=
  (drainedLts.run drainTrace ⟨unusedPool, fun _ => []⟩).get rfl

theorem no_socket_lost_drained :
    (InUse drainedEnd.base 0 ∨ Closing drainedEnd 0) ∧
      (InUse drainedEnd.base 1 ∨ Closing drainedEnd 1) ∧ ¬ InUse drainedEnd.base 0 := by
  have hreach : drainedLts.Reachable Lts.always drainedEnd :=
    .of_run (.init ⟨⟨rfl, rfl, fun _ => rfl⟩, fun _ => rfl⟩) (Option.some_get rfl).symm
  obtain ⟨hkept, hout, -⟩ := no_socket_lost servingRuntime "10.0.0.1" 9000 hreach
  exact ⟨hkept 0 (by decide) rfl, hkept 1 (by decide) rfl, hout 0 (Or.inr ⟨0, by decide⟩)⟩

end McpSocketServer
