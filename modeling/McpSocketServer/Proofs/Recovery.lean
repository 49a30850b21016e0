import McpSocketServer.Misc.Amortized
import McpSocketServer.Proofs.PoolClients

/-!
# The pool recovers

When a target restarts, the connections that the pool holds or has lent out go bad, and the
calls on them fail. A failed call takes its connection out of the pool, so there are no more
failures than there were connections, whatever the threads do. A call that returns and yet
leaves its connection bad, as an accepted upgrade does, may cost one failure more.
-/

namespace McpSocketServer

open TargetPool

variable {κ ω ν : Type} {K : ClientKind κ ω ν} {W : ω → Prop} {C : κ → ν → Prop}
  {Good : κ → Prop}

/-- Work on a good client does not fail, and newly connected clients are good. Connecting is
considered for the outcomes in `W`, and work for the clients and uses in `C`. -/
structure Serves (K : ClientKind κ ω ν) (W : ω → Prop) (C : κ → ν → Prop) (Good : κ → Prop) :
    Prop where
  connect : ∀ timeout outcome, W outcome → (K.connect (K.new timeout) outcome).1 = .ok () →
    Good (K.connect (K.new timeout) outcome).2
  setTimeout : ∀ c timeout, Good c → Good (K.setTimeout c timeout)
  perform : ∀ c work, Good c → C c work → (K.perform c work).1 = true

/-- The client is idle, or a thread has obtained it and not spoilt it. -/
def Circulates (s : PoolState κ) (c : Nat) : Prop :=
  c ∈ idleClients s ∨ ∃ t, (s.threads t).clean = some c

/-- The clients with which a call may still fail. -/
def badClients (Good : κ → Prop) (s : PoolState κ) : Set Nat :=
  {c | Circulates s c ∧ ¬ Good (s.clients c)}

/-- The work that a step does, and the client on which it does it. -/
def workOf (s : PoolState κ) : Nat × PoolStep ω ν → Option (κ × ν)
  | (t, .perform work) =>
    match s.threads t with
    | .borrowed c => some (s.clients c, work)
    | _ => none
  | _ => none

/-- The step is work that gives its client back unhealthy. -/
def failedCall (K : ClientKind κ ω ν) (s : PoolState κ) (l : Nat × PoolStep ω ν) : Nat :=
  match workOf s l with
  | some (client, work) => if (K.perform client work).1 then 0 else 1
  | none => 0

open Classical in
/-- The step is a call that returns and leaves a good client bad. -/
noncomputable def spoiltClient (K : ClientKind κ ω ν) (Good : κ → Prop) (s : PoolState κ)
    (l : Nat × PoolStep ω ν) : Nat :=
  match workOf s l with
  | some (client, work) =>
    if (K.perform client work).1 = true ∧ Good client ∧ ¬ Good (K.perform client work).2 then 1
    else 0
  | none => 0

/-! ### How many connections there are -/

theorem clean_active {ph : Phase} {c : Nat} (h : ph.clean = some c) : ph.active = true := by
  cases ph <;> first | rfl | cases h

/-- There are no more clients than the pool may have connections among the idle ones and those in
the hands of the threads, as long as only active threads have a client. -/
theorem hands_bound {s : PoolState κ} (h : PoolInv s) {hand : Phase → Option Nat}
    (hactive : ∀ ph c, hand ph = some c → ph.active = true) :
    {c | c ∈ idleClients s ∨ ∃ t, hand (s.threads t) = some c}.Finite ∧
      {c | c ∈ idleClients s ∨ ∃ t, hand (s.threads t) = some c}.ncard ≤ maxConnPerTarget := by
  obtain ⟨n, hn, hcensus⟩ := h.counted
  have hfinite : {t | (s.threads t).active = true}.Finite := hcensus.1
  have hcard : {t | (s.threads t).active = true}.ncard = n := hcensus.2
  have hsub : {c | c ∈ idleClients s ∨ ∃ t, hand (s.threads t) = some c} ⊆
      {c | c ∈ idleClients s} ∪
        (fun t => (hand (s.threads t)).getD 0) '' {t | (s.threads t).active = true} := by
    rintro c (hc | ⟨t, ht⟩)
    · exact Or.inl hc
    · refine Or.inr ⟨t, hactive _ _ ht, ?_⟩
      simp only [ht, Option.getD_some]
  have hidle : {c | c ∈ idleClients s}.Finite := List.finite_toSet (idleClients s)
  have hheld := hfinite.image fun t => (hand (s.threads t)).getD 0
  refine ⟨(hidle.union hheld).subset hsub, ?_⟩
  have hlen : {c | c ∈ idleClients s}.ncard ≤ s.pool.idle.length := by
    have hcoe : {c | c ∈ idleClients s} = ((idleClients s).toFinset : Set Nat) := by
      ext c
      simp
    rw [hcoe, Set.ncard_coe_finset]
    exact (List.toFinset_card_le _).trans (Nat.le_of_eq (List.length_map _))
  have hle := Set.ncard_le_ncard hsub (hidle.union hheld)
  have hunion := Set.ncard_union_le {c | c ∈ idleClients s}
    ((fun t => (hand (s.threads t)).getD 0) '' {t | (s.threads t).active = true})
  have himage := Set.ncard_image_le hfinite (f := fun t => (hand (s.threads t)).getD 0)
  have hbound := h.bound
  omega

/-- No more clients circulate than the pool may have connections. -/
theorem circulating_bound {s : PoolState κ} (h : PoolInv s) :
    {c | Circulates s c}.Finite ∧ {c | Circulates s c}.ncard ≤ maxConnPerTarget :=
  hands_bound h fun _ _ => clean_active

theorem badClients_finite {s : PoolState κ} (h : PoolInv s) : (badClients Good s).Finite :=
  (circulating_bound h).1.subset fun _ hc => hc.1

theorem badClients_bound {s : PoolState κ} (h : PoolInv s) :
    (badClients Good s).ncard ≤ maxConnPerTarget :=
  (Set.ncard_le_ncard (fun _ hc => hc.1) (circulating_bound h).1).trans (circulating_bound h).2

/-! ### What one step does to the bad clients -/

/-- Clients are handed on. -/
theorem badClients_goto {s : PoolState κ} {t : Nat} {ph : Phase} {pool : TargetPool Nat}
    (hidle : ∀ c ∈ pool.idle.map PooledConn.client, Circulates s c)
    (hclean : ∀ c, ph.clean = some c → Circulates s c) :
    badClients Good ({ s with pool := pool }.goto t ph) ⊆ badClients Good s := by
  rintro c ⟨hc, hbad⟩
  refine ⟨?_, hbad⟩
  rcases hc with hc | ⟨u, hu⟩
  · exact hidle c hc
  · by_cases hut : u = t
    · subst hut
      exact hclean c (by simpa using hu)
    · exact Or.inr ⟨u, by simpa [hut] using hu⟩

/-- A client that is in no other hand changes. -/
theorem badClients_setClient {s : PoolState κ} {t c : Nat} {client : κ} {ph : Phase}
    (hidle : c ∉ idleClients s) (hheld : ∀ u, u ≠ t → (s.threads u).held ≠ some c)
    (hclean : ∀ d, ph.clean = some d → d ≠ c → (s.threads t).clean = some d) {d : Nat}
    (hd : d ∈ badClients Good ((s.setClient c client).goto t ph)) :
    (d ∈ badClients Good s ∧ d ≠ c) ∨ (d = c ∧ ph.clean = some c ∧ ¬ Good client) := by
  obtain ⟨hcirc, hbad⟩ := hd
  by_cases hdc : d = c
  · subst hdc
    right
    have hnot : ¬ Good (Function.update s.clients d client d) := hbad
    rw [Function.update_self] at hnot
    refine ⟨rfl, ?_, hnot⟩
    rcases hcirc with hin | ⟨u, hu⟩
    · exact absurd hin hidle
    · by_cases hut : u = t
      · subst hut
        simpa using hu
      · exact absurd (held_of_clean (by simpa [hut] using hu)) (hheld u hut)
  · left
    have hnot : ¬ Good (Function.update s.clients c client d) := hbad
    rw [Function.update_of_ne hdc] at hnot
    refine ⟨⟨?_, hnot⟩, hdc⟩
    rcases hcirc with hin | ⟨u, hu⟩
    · exact Or.inl hin
    · by_cases hut : u = t
      · subst hut
        exact Or.inr ⟨u, hclean d (by simpa using hu) hdc⟩
      · exact Or.inr ⟨u, by simpa [hut] using hu⟩

/-- What the steps keep: the representation of the pool, and that clients are connected as they
were made. -/
structure Sane (K : ClientKind κ ω ν) (s : PoolState κ) : Prop where
  inv : PoolInv s
  dropped : Dropped s
  fresh : ∀ t c, s.threads t = .connecting c → ∃ timeout, s.clients c = K.new timeout

theorem sane_of_reachable {s : PoolState κ} (h : (poolLts K).Reachable Lts.always s) :
    Sane K s := by
  have hcarries : Carries K (fun _ => True) (fun _ _ => True) (fun _ => True) fun _ => True :=
    ⟨fun _ _ => trivial, fun _ => trivial, fun _ _ _ => ⟨trivial, fun _ => trivial⟩,
      fun _ _ _ => trivial, fun _ _ => trivial, fun _ _ _ _ => ⟨trivial, fun _ => trivial⟩⟩
  have hanyway : (poolLts K).Reachable (PoolCondition (fun _ => True) fun _ _ => True) s := by
    induction h with
    | init hs => exact .init hs
    | @step s s' l _ _ hstep ih =>
        refine .step ih ?_ hstep
        obtain ⟨t, l⟩ := l
        cases l <;> first | trivial | exact fun _ _ => trivial
  exact ⟨(poolInv_invariant Lts.always).reachable h, (dropped_invariant Lts.always).reachable h,
    (clients_carried hcarries hanyway).connecting⟩

/-- Steps that are not calls make no client bad. -/
theorem badClients_step (hK : Serves K W C Good) {s s' : PoolState κ} {t : Nat}
    {l : PoolStep ω ν} (hs : Sane K s) (hC : PoolCondition W C s (t, l))
    (hstep : s.step K t l = some s') (hl : ∀ work, l ≠ .perform work) :
    badClients Good s' ⊆ badClients Good s := by
  have howned := hs.inv.owned
  have hmine : ∀ c, (s.threads t).held = some c → ∀ u, u ≠ t → (s.threads u).held ≠ some c :=
    fun c hc u hut hu => hut (howned.heldOnce u t c hu hc)
  cases l with
  | call now timeout socketTimeout =>
      obtain ⟨-, rfl⟩ := PoolState.step_call hstep
      exact badClients_goto (fun c hc => Or.inl hc) (by simp [Phase.clean])
  | timeoutError now =>
      obtain ⟨_, _, -, -, rfl⟩ := PoolState.step_timeoutError hstep
      exact badClients_goto (fun c hc => Or.inl hc) (by simp [Phase.clean])
  | takeSlot now =>
      obtain ⟨_, _, -, -, rfl⟩ := PoolState.step_takeSlot hstep
      have hsplit : idleClients s = (popIdle now s.pool.idle).expired ++
          (popIdle now s.pool.idle).reuse.toList ++
          (popIdle now s.pool.idle).idle.map PooledConn.client := popIdle_clients now s.pool.idle
      refine badClients_goto (fun c hc => Or.inl ?_) fun c hc => Or.inl ?_
      · rw [hsplit]
        exact List.mem_append_right _ hc
      · rw [hsplit]
        exact List.mem_append_left _ (List.mem_append_right _ (Option.mem_toList.mpr hc))
  | evict =>
      obtain ⟨c, expired, reuse, _, hph, rfl⟩ := PoolState.step_evict hstep
      obtain ⟨-, hidle, hfree⟩ := hs.dropped t c (by rw [hph]; exact List.mem_cons_self)
      intro d hd
      rcases badClients_setClient hidle (fun u _ => hfree u)
        (fun e he _ => by rw [hph]; exact he) hd with ⟨hbad, -⟩ | ⟨rfl, hreuse, -⟩
      · exact hbad
      · exact absurd (by rw [hph]; exact hreuse) (hfree t)
  | reuse =>
      obtain ⟨c, socketTimeout, hph, rfl⟩ := PoolState.step_reuse hstep
      have hc : (s.threads t).held = some c := by rw [hph]; rfl
      intro d hd
      rcases badClients_setClient (howned.heldOut t c hc) (hmine c hc)
        (fun e he _ => by rw [hph]; exact he) hd with ⟨hbad, -⟩ | ⟨rfl, -, hnot⟩
      · exact hbad
      · exact ⟨Or.inr ⟨t, by rw [hph]; rfl⟩, fun hgood => hnot (hK.setTimeout _ _ hgood)⟩
  | create =>
      obtain ⟨socketTimeout, hph, rfl⟩ := PoolState.step_create hstep
      intro d hd
      have hd' : d ∈ badClients Good
          ((s.setClient s.fresh (K.new socketTimeout)).goto t (.connecting s.fresh)) := hd
      rcases badClients_setClient (fun hin => Nat.lt_irrefl _ (howned.idleOld _ hin))
        (fun u _ hu => Nat.lt_irrefl _ (howned.heldOld u _ hu)) (fun _ he _ => by cases he) hd' with
        ⟨hbad, -⟩ | ⟨-, hclean, -⟩
      · exact hbad
      · cases hclean
  | connected outcome =>
      obtain ⟨c, r, client, hph, hconnect, rfl⟩ := PoolState.step_connected hstep
      have hc : (s.threads t).held = some c := by rw [hph]; rfl
      obtain ⟨timeout, hnew⟩ := hs.fresh t c hph
      intro d hd
      rcases badClients_setClient (howned.heldOut t c hc) (hmine c hc)
        (fun e he hne => by cases r <;> simp_all [Phase.clean]) hd with
        ⟨hbad, -⟩ | ⟨rfl, hclean, hnot⟩
      · exact hbad
      · cases r with
        | ok u =>
            have hgood := hK.connect timeout outcome hC
            rw [← hnew, hconnect] at hgood
            exact absurd (hgood rfl) hnot
        | error e => cases hclean
  | giveSlotBack =>
      obtain ⟨-, rfl⟩ := PoolState.step_giveSlotBack hstep
      exact badClients_goto (fun c hc => Or.inl hc) (by simp [Phase.clean])
  | perform work => exact absurd rfl (hl work)
  | release now =>
      obtain ⟨c, healthy, hph, rfl⟩ := PoolState.step_release hstep
      cases healthy with
      | true =>
          refine badClients_goto (fun d hd => ?_) (by simp [Phase.clean])
          have hcases : d = c ∨ d ∈ idleClients s := by
            simpa [idleClients, TargetPool.release, giveSlotBack] using hd
          rcases hcases with rfl | hin
          · exact Or.inr ⟨t, by rw [hph]; rfl⟩
          · exact Or.inl hin
      | false => exact badClients_goto (fun c hc => Or.inl hc) (by simp [Phase.clean])
  | close =>
      obtain ⟨c, hph, rfl⟩ := PoolState.step_close hstep
      obtain ⟨-, hidle, hfree⟩ :=
        hs.dropped t c (by rw [hph]; exact List.mem_singleton.mpr rfl)
      intro d hd
      rcases badClients_setClient hidle (fun u _ => hfree u) (fun _ he _ => by cases he) hd with
        ⟨hbad, -⟩ | ⟨-, hclean, -⟩
      · exact hbad
      · cases hclean

/-- A call pays for its failure with a bad client, and a spoilt client is paid for. -/
theorem call_pays (hK : Serves K W C Good) {s s' : PoolState κ} {t : Nat} {work : ν}
    (hs : Sane K s) (hC : PoolCondition W C s (t, .perform work))
    (hstep : s.step K t (.perform work) = some s') :
    failedCall K s (t, (.perform work : PoolStep ω ν)) + (badClients Good s').ncard ≤
      (badClients Good s).ncard + spoiltClient K Good s (t, (.perform work : PoolStep ω ν)) := by
  classical
  obtain ⟨c, hph, rfl⟩ := PoolState.step_perform hstep
  have hc : (s.threads t).held = some c := by rw [hph]; rfl
  have hmine : ∀ u, u ≠ t → (s.threads u).held ≠ some c :=
    fun u hut hu => hut (hs.inv.owned.heldOnce u t c hu hc)
  have hwork : workOf s (t, (.perform work : PoolStep ω ν)) = some (s.clients c, work) := by
    rw [workOf, hph]
  have hfinite : (badClients Good s).Finite := badClients_finite hs.inv
  have hafter : ∀ d ∈ badClients Good ((s.setClient c (K.perform (s.clients c) work).2).goto t
      (.used c (K.perform (s.clients c) work).1)), (d ∈ badClients Good s ∧ d ≠ c) ∨
        (d = c ∧ (K.perform (s.clients c) work).1 = true ∧
          ¬ Good (K.perform (s.clients c) work).2) := by
    intro d hd
    have hclean : ∀ e, (Phase.used c (K.perform (s.clients c) work).1).clean = some e →
        e = c ∧ (K.perform (s.clients c) work).1 = true := by
      intro e he
      simp only [Phase.clean] at he
      split at he
      · next hok => exact ⟨(Option.some.inj he).symm, hok⟩
      · cases he
    rcases badClients_setClient (hs.inv.owned.heldOut t c hc) hmine
      (fun e he hne => absurd (hclean e he).1 hne) hd with hold | ⟨rfl, hclean', hnot⟩
    · exact Or.inl hold
    · exact Or.inr ⟨rfl, (hclean _ hclean').2, hnot⟩
  have hfailed : failedCall K s (t, (.perform work : PoolStep ω ν)) =
      if (K.perform (s.clients c) work).1 then 0 else 1 := by
    rw [failedCall, hwork]
  have hspoilt : spoiltClient K Good s (t, (.perform work : PoolStep ω ν)) =
      if (K.perform (s.clients c) work).1 = true ∧ Good (s.clients c) ∧
        ¬ Good (K.perform (s.clients c) work).2 then 1 else 0 := by
    rw [spoiltClient, hwork]
  rw [hfailed, hspoilt]
  by_cases hgood : Good (s.clients c)
  · -- the call succeeds, and at most this client goes bad
    have hok := hK.perform (s.clients c) work hgood (hC c hph)
    rw [if_pos hok, Nat.zero_add]
    by_cases hnext : Good (K.perform (s.clients c) work).2
    · exact (Set.ncard_le_ncard
        (fun d hd => (hafter d hd).elim And.left fun h => absurd hnext h.2.2) hfinite).trans
        (Nat.le_add_right _ _)
    · rw [if_pos ⟨hok, hgood, hnext⟩]
      exact (Set.ncard_le_ncard (t := insert c (badClients Good s))
        (fun d hd => (hafter d hd).elim (fun h => Or.inr h.1) fun h => Or.inl h.1)
        (hfinite.insert c)).trans (Set.ncard_insert_le c (badClients Good s))
  · -- the client was bad already, and a failure takes it out of circulation
    have hbad : c ∈ badClients Good s := ⟨Or.inr ⟨t, by rw [hph]; rfl⟩, hgood⟩
    have hunspoilt : ¬ ((K.perform (s.clients c) work).1 = true ∧ Good (s.clients c) ∧
        ¬ Good (K.perform (s.clients c) work).2) := fun h => hgood h.2.1
    rw [if_neg hunspoilt, Nat.add_zero]
    by_cases hok : (K.perform (s.clients c) work).1 = true
    · rw [if_pos hok, Nat.zero_add]
      exact Set.ncard_le_ncard
        (fun d hd => (hafter d hd).elim And.left fun h => by rw [h.1]; exact hbad) hfinite
    · have hsub := Set.ncard_le_ncard (t := badClients Good s \ {c})
        (fun d hd => (hafter d hd).elim id fun h => absurd h.2.1 hok) hfinite.sdiff
      have hless := Set.ncard_sdiff_singleton_add_one hbad hfinite
      rw [if_neg hok]
      omega

/-- A step pays for itself. -/
theorem step_pays (hK : Serves K W C Good) {s s' : PoolState κ} {l : Nat × PoolStep ω ν}
    (hs : Sane K s) (hC : PoolCondition W C s l) (hstep : (poolLts K).step s l = some s') :
    failedCall K s l + (badClients Good s').ncard ≤
      (badClients Good s).ncard + spoiltClient K Good s l := by
  obtain ⟨t, l⟩ := l
  by_cases hl : ∃ work, l = .perform work
  · obtain ⟨work, rfl⟩ := hl
    exact call_pays hK hs hC hstep
  · have hno : ∀ work, l ≠ .perform work := fun work heq => hl ⟨work, heq⟩
    have hnowork : workOf s (t, l) = none := by
      cases l <;> first | rfl | exact absurd rfl (hno _)
    have hle := Set.ncard_le_ncard (badClients_step hK hs hC hstep hno)
      (badClients_finite hs.inv)
    have hfailed : failedCall K s (t, l) = 0 := by rw [failedCall, hnowork]
    rw [hfailed, Nat.zero_add]
    exact hle.trans (Nat.le_add_right _ _)

/-- From any state that the pool can be in, while the targets serve, no more calls fail than there
are bad clients about, of which there are no more than the pool may have connections, and than
calls return that `income` allows to spoil their clients. -/
theorem failures_bounded (hK : Serves K W C Good) {income : PoolState κ → Nat × PoolStep ω ν → Nat}
    (hincome : ∀ s l, PoolCondition W C s l → spoiltClient K Good s l ≤ income s l)
    {s s' : PoolState κ} {ls : List (Nat × PoolStep ω ν)}
    (hs : (poolLts K).Reachable Lts.always s) (hrun : (poolLts K).Run (PoolCondition W C) s ls s') :
    (poolLts K).total (failedCall K) ls s + (badClients Good s').ncard ≤
        (badClients Good s).ncard + (poolLts K).total income ls s ∧
      (badClients Good s).ncard ≤ maxConnPerTarget := by
  refine ⟨?_, badClients_bound (sane_of_reachable hs).inv⟩
  have hkeep : ∀ s l s', (poolLts K).Reachable Lts.always s → PoolCondition W C s l →
      (poolLts K).step s l = some s' → (poolLts K).Reachable Lts.always s' :=
    fun _ _ _ hr _ hstep => .step hr trivial hstep
  have hpay : ∀ s l s', (poolLts K).Reachable Lts.always s → PoolCondition W C s l →
      (poolLts K).step s l = some s' → failedCall K s l + (badClients Good s').ncard ≤
        (badClients Good s).ncard + income s l := by
    intro s l s' hr hC hstep
    exact (step_pays hK (sane_of_reachable hr) hC hstep).trans
      (Nat.add_le_add_left (hincome s l hC) _)
  exact hrun.amortized hkeep hpay hs

end McpSocketServer
