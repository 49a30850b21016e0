import McpSocketServer.PoolThreads

/-!
# The representation invariant of the pool

Under any number of threads the counter of a pool is exactly the number of clients that
are borrowed or being connected, counter and idle list together stay within the limit,
and no client is in two hands. A slot is taken when the counter is below the limit: either
an idle client moves to the thread, or the idle list has been drained and the new
client is the only addition.
-/

namespace McpSocketServer

open TargetPool

variable {κ ω ν : Type} {K : ClientKind κ ω ν}

/-- The clients in the idle list. -/
def idleClients (s : PoolState κ) : List Nat := s.pool.idle.map PooledConn.client

/-- The counter of the pool counts the active threads. -/
def Counted (s : PoolState κ) : Prop :=
  ∃ n : Nat, s.pool.inuse = n ∧ Census (fun ph => Phase.active ph = true) s.threads n

/-- No client is in two hands, where a hand is a thread or the idle list, and a client
object that is still to be created is in no hand. -/
structure Owned (s : PoolState κ) : Prop where
  idleNodup : (idleClients s).Nodup
  idleOld : ∀ c ∈ idleClients s, c < s.fresh
  heldOld : ∀ t c, (s.threads t).held = some c → c < s.fresh
  heldOut : ∀ t c, (s.threads t).held = some c → c ∉ idleClients s
  heldOnce : ∀ t u c, (s.threads t).held = some c → (s.threads u).held = some c → t = u

/-- The counter is right, the limit is kept, and every client is in one hand. -/
structure PoolInv (s : PoolState κ) : Prop where
  counted : Counted s
  bound : s.pool.inuse + s.pool.idle.length ≤ maxConnPerTarget
  owned : Owned s

/-! ### The counter -/

theorem Counted.pos {s : PoolState κ} (h : Counted s) {t : Nat}
    (ht : (s.threads t).active = true) : 1 ≤ s.pool.inuse := by
  obtain ⟨n, hn, hcensus⟩ := h
  have hpos : 0 < n := hcensus.pos ht
  omega

/-- Lowering the counter for an active thread does not meet the clamp. -/
theorem Counted.clamp {s : PoolState κ} (h : Counted s) {t : Nat}
    (ht : (s.threads t).active = true) :
    max 0 (s.pool.inuse - 1) = s.pool.inuse - 1 := by
  have hpos := h.pos ht
  omega

theorem Counted.goto {s : PoolState κ} {t : Nat} {ph : Phase} (h : Counted s)
    (hactive : ph.active = (s.threads t).active) : Counted (s.goto t ph) := by
  obtain ⟨n, hn, hcensus⟩ := h
  exact ⟨n, hn, hcensus.update_same (by rw [hactive])⟩

theorem Counted.enter {s : PoolState κ} {t : Nat} {ph : Phase} {pool : TargetPool Nat}
    (h : Counted s) (hout : (s.threads t).active = false) (hin : ph.active = true)
    (hpool : pool.inuse = s.pool.inuse + 1) : Counted ({ s with pool := pool }.goto t ph) := by
  obtain ⟨n, hn, hcensus⟩ := h
  refine ⟨n + 1, ?_, hcensus.update_enter (by simp [hout]) hin⟩
  show pool.inuse = ((n + 1 : Nat) : Int)
  rw [hpool, hn]
  push_cast
  rfl

theorem Counted.leave {s : PoolState κ} {t : Nat} {ph : Phase} {pool : TargetPool Nat}
    (h : Counted s) (hin : (s.threads t).active = true) (hout : ph.active = false)
    (hpool : pool.inuse = max 0 (s.pool.inuse - 1)) :
    Counted ({ s with pool := pool }.goto t ph) := by
  have hclamp := h.clamp hin
  obtain ⟨n, hn, hcensus⟩ := h
  have hpos : 0 < n := hcensus.pos hin
  obtain ⟨m, rfl⟩ : ∃ m, n = m + 1 := ⟨n - 1, by omega⟩
  refine ⟨m, ?_, hcensus.update_leave hin (by simp [hout])⟩
  show pool.inuse = (m : Int)
  rw [hpool, hclamp, hn]
  push_cast
  omega

/-! ### The hands -/

/-- A thread that goes on with the client it held, or gives it up. -/
theorem Owned.goto {s : PoolState κ} {t : Nat} {ph : Phase} (h : Owned s)
    (hheld : ∀ c, ph.held = some c → (s.threads t).held = some c) : Owned (s.goto t ph) := by
  have hback : ∀ u c, ((s.goto t ph).threads u).held = some c → (s.threads u).held = some c := by
    intro u c hu
    by_cases hut : u = t
    · subst hut
      exact hheld c (by simpa using hu)
    · simpa [hut] using hu
  exact {
    idleNodup := h.idleNodup
    idleOld := h.idleOld
    heldOld := fun u c hu => h.heldOld u c (hback u c hu)
    heldOut := fun u c hu => h.heldOut u c (hback u c hu)
    heldOnce := fun u v c hu hv => h.heldOnce u v c (hback u c hu) (hback v c hv) }

/-- Clients leave the idle list, at most one of them into the hands of thread `t`. -/
theorem Owned.takeSlot {s : PoolState κ} {t : Nat} {ph : Phase} {now : Int} (h : Owned s)
    (hheld : ph.held = (s.pool.takeSlot now).1.reuse) :
    Owned ({ s with pool := (s.pool.takeSlot now).2 }.goto t ph) := by
  have hsplit : idleClients s = (popIdle now s.pool.idle).expired ++
      (popIdle now s.pool.idle).reuse.toList ++
      (popIdle now s.pool.idle).idle.map PooledConn.client := popIdle_clients now s.pool.idle
  have hidle : idleClients ({ s with pool := (s.pool.takeSlot now).2 }.goto t ph) =
      (popIdle now s.pool.idle).idle.map PooledConn.client := rfl
  have hsub : ∀ c ∈ idleClients ({ s with pool := (s.pool.takeSlot now).2 }.goto t ph),
      c ∈ idleClients s := by
    intro c hc
    rw [hsplit]
    exact List.mem_append_right _ (hidle ▸ hc)
  have hnodup := h.idleNodup
  rw [hsplit, List.nodup_append] at hnodup
  obtain ⟨-, hrest, hdisjoint⟩ := hnodup
  have hhand : ∀ u c, (({ s with pool := (s.pool.takeSlot now).2 }.goto t ph).threads u).held =
      some c → (s.threads u).held = some c ∨ (u = t ∧ c ∈ (popIdle now s.pool.idle).reuse) := by
    intro u c hu
    by_cases hut : u = t
    · subst hut
      right
      refine ⟨rfl, ?_⟩
      have hph : ph.held = some c := by simpa using hu
      exact hheld.symm.trans hph
    · left
      simpa [hut] using hu
  have hreuse : ∀ c, c ∈ (popIdle now s.pool.idle).reuse → c ∈ idleClients s := by
    intro c hc
    rw [hsplit]
    exact List.mem_append_left _ (List.mem_append_right _ (Option.mem_toList.mpr hc))
  exact {
    idleNodup := hidle ▸ hrest
    idleOld := fun c hc => h.idleOld c (hsub c hc)
    heldOld := fun u c hu => by
      rcases hhand u c hu with hold | ⟨-, hnew⟩
      · exact h.heldOld u c hold
      · exact h.idleOld c (hreuse c hnew)
    heldOut := fun u c hu hc => by
      rcases hhand u c hu with hold | ⟨-, hnew⟩
      · exact h.heldOut u c hold (hsub c hc)
      · exact hdisjoint c (List.mem_append_right _ (Option.mem_toList.mpr hnew)) c (hidle ▸ hc) rfl
    heldOnce := fun u v c hu hv => by
      rcases hhand u c hu with hu | ⟨hut, hnew⟩ <;> rcases hhand v c hv with hv | ⟨hvt, hnew'⟩
      · exact h.heldOnce u v c hu hv
      · exact absurd (hreuse c hnew') (h.heldOut u c hu)
      · exact absurd (hreuse c hnew) (h.heldOut v c hv)
      · rw [hut, hvt] }

/-- A thread without a client creates one. -/
theorem Owned.create {s : PoolState κ} {t : Nat} {client : κ} (h : Owned s) :
    Owned ({ s.setClient s.fresh client with fresh := s.fresh + 1 }.goto t
      (.connecting s.fresh)) := by
  have hhand : ∀ u c, (({ s.setClient s.fresh client with fresh := s.fresh + 1 }.goto t
      (.connecting s.fresh)).threads u).held = some c →
      (s.threads u).held = some c ∨ (u = t ∧ c = s.fresh) := by
    intro u c hu
    by_cases hut : u = t
    · subst hut
      right
      refine ⟨rfl, ?_⟩
      simpa [Phase.held] using hu.symm
    · left
      simpa [hut] using hu
  exact {
    idleNodup := h.idleNodup
    idleOld := fun c hc => Nat.lt_succ_of_lt (h.idleOld c hc)
    heldOld := fun u c hu => by
      rcases hhand u c hu with hold | ⟨-, rfl⟩
      · exact Nat.lt_succ_of_lt (h.heldOld u c hold)
      · exact Nat.lt_succ_self _
    heldOut := fun u c hu hc => by
      rcases hhand u c hu with hold | ⟨-, rfl⟩
      · exact h.heldOut u c hold hc
      · exact Nat.lt_irrefl _ (h.idleOld _ hc)
    heldOnce := fun u v c hu hv => by
      rcases hhand u c hu with hu | ⟨hut, hc⟩ <;> rcases hhand v c hv with hv | ⟨hvt, hc'⟩
      · exact h.heldOnce u v c hu hv
      · exact absurd (h.heldOld u c hu) (by omega)
      · exact absurd (h.heldOld v c hv) (by omega)
      · rw [hut, hvt] }

/-- The client that thread `t` held goes to the idle list or out of the pool. -/
theorem Owned.release {s : PoolState κ} {t c : Nat} {healthy : Bool} {now : Int} (h : Owned s)
    (hc : (s.threads t).held = some c) :
    Owned ({ s with pool := s.pool.release c healthy now }.goto t
      (if healthy then .out else .closing c)) := by
  have hidle : ∀ d ∈ idleClients ({ s with pool := s.pool.release c healthy now }.goto t
      (if healthy then .out else .closing c)), d = c ∨ d ∈ idleClients s := by
    intro d hd
    cases healthy with
    | true => simpa [idleClients, TargetPool.release, giveSlotBack] using hd
    | false => exact Or.inr hd
  have hhand : ∀ u d, (({ s with pool := s.pool.release c healthy now }.goto t
      (if healthy then .out else .closing c)).threads u).held = some d →
      u ≠ t ∧ (s.threads u).held = some d := by
    intro u d hu
    by_cases hut : u = t
    · subst hut
      cases healthy <;> simp [Phase.held] at hu
    · exact ⟨hut, by simpa [hut] using hu⟩
  exact {
    idleNodup := by
      cases healthy with
      | true =>
          show (c :: idleClients s).Nodup
          exact List.nodup_cons.mpr ⟨h.heldOut t c hc, h.idleNodup⟩
      | false => exact h.idleNodup
    idleOld := fun d hd => by
      rcases hidle d hd with rfl | hold
      · exact h.heldOld t _ hc
      · exact h.idleOld d hold
    heldOld := fun u d hu => h.heldOld u d (hhand u d hu).2
    heldOut := fun u d hu hd => by
      obtain ⟨hut, hold⟩ := hhand u d hu
      rcases hidle d hd with rfl | hin
      · exact hut (h.heldOnce u t _ hold hc)
      · exact h.heldOut u d hold hin
    heldOnce := fun u v d hu hv => h.heldOnce u v d (hhand u d hu).2 (hhand v d hv).2 }

/-! ### The limit -/

/-- Taking a free slot keeps the sum within the limit: without a client to reuse, the idle
list is empty afterwards. -/
theorem takeSlot_bound {p : TargetPool Nat} {now : Int} (hfree : ¬ p.full)
    (h : p.inuse + p.idle.length ≤ maxConnPerTarget) :
    (p.takeSlot now).2.inuse + (p.takeSlot now).2.idle.length ≤ maxConnPerTarget := by
  have hlt : p.inuse < maxConnPerTarget := Int.not_le.mp hfree
  have hlen := congrArg List.length (popIdle_clients now p.idle)
  simp only [List.length_append, List.length_map] at hlen
  show p.inuse + 1 + (popIdle now p.idle).idle.length ≤ maxConnPerTarget
  cases hreuse : (popIdle now p.idle).reuse with
  | none =>
      rw [popIdle_none hreuse, List.length_nil]
      omega
  | some c =>
      rw [hreuse, Option.toList_some, List.length_singleton] at hlen
      omega

/-- Giving a slot back makes room for the client that joins the idle list. -/
theorem release_bound {p : TargetPool Nat} {c : Nat} {healthy : Bool} {now : Int}
    (hpos : 1 ≤ p.inuse) (h : p.inuse + p.idle.length ≤ maxConnPerTarget) :
    (p.release c healthy now).inuse + (p.release c healthy now).idle.length ≤
      maxConnPerTarget := by
  cases healthy <;> simp only [TargetPool.release, giveSlotBack, if_true, Bool.false_eq_true,
    if_false, List.length_cons] <;> push_cast <;> omega

theorem giveSlotBack_bound {p : TargetPool Nat} (hpos : 1 ≤ p.inuse)
    (h : p.inuse + p.idle.length ≤ maxConnPerTarget) :
    p.giveSlotBack.inuse + p.giveSlotBack.idle.length ≤ maxConnPerTarget := by
  simp only [giveSlotBack]
  omega

/-! ### Runs -/

/-- A thread that goes on as active as before, with no client but the one it held. -/
theorem PoolInv.goto {s : PoolState κ} {t : Nat} {ph : Phase} (h : PoolInv s)
    (hactive : ph.active = (s.threads t).active)
    (hheld : ∀ c, ph.held = some c → (s.threads t).held = some c) : PoolInv (s.goto t ph) :=
  ⟨h.counted.goto hactive, h.bound, h.owned.goto hheld⟩

/-- The client objects play no role in the invariant. -/
theorem PoolInv.setClient {s : PoolState κ} (h : PoolInv s) (c : Nat) (client : κ) :
    PoolInv (s.setClient c client) :=
  ⟨h.counted, h.bound, ⟨h.owned.idleNodup, h.owned.idleOld, h.owned.heldOld, h.owned.heldOut,
    h.owned.heldOnce⟩⟩

theorem PoolInv.init {s : PoolState κ} (h : (poolLts K).init s) : PoolInv s := by
  obtain ⟨hpool, -, hout⟩ := h
  have hempty : idleClients s = [] := by rw [idleClients, hpool]; rfl
  have hfree : ∀ t c, (s.threads t).held ≠ some c := by
    intro t c
    rw [hout t]
    exact nofun
  refine ⟨⟨0, by rw [hpool]; rfl, Census.of_forall_not fun t => by rw [hout t]; exact nofun⟩,
    by rw [hpool]; decide, ?_⟩
  exact {
    idleNodup := hempty ▸ List.nodup_nil
    idleOld := fun c hc => absurd hc (by simp [hempty])
    heldOld := fun t c hc => absurd hc (hfree t c)
    heldOut := fun t c hc => absurd hc (hfree t c)
    heldOnce := fun t _ c hc => absurd hc (hfree t c) }

theorem PoolInv.step {s s' : PoolState κ} {t : Nat} {l : PoolStep ω ν} (h : PoolInv s)
    (hstep : s.step K t l = some s') : PoolInv s' := by
  cases l with
  | call now timeout socketTimeout =>
      obtain ⟨hph, rfl⟩ := PoolState.step_call hstep
      exact h.goto (by rw [hph]; rfl) (by simp [Phase.held])
  | timeoutError now =>
      obtain ⟨_, _, hph, -, rfl⟩ := PoolState.step_timeoutError hstep
      exact h.goto (by rw [hph]; rfl) (by simp [Phase.held])
  | takeSlot now =>
      obtain ⟨_, _, hph, hfree, rfl⟩ := PoolState.step_takeSlot hstep
      exact ⟨h.counted.enter (by rw [hph]; rfl) rfl rfl, takeSlot_bound hfree h.bound,
        h.owned.takeSlot rfl⟩
  | evict =>
      obtain ⟨c, _, _, _, hph, rfl⟩ := PoolState.step_evict hstep
      exact (h.setClient c _).goto (by simp [hph, Phase.active]) (by simp [hph, Phase.held])
  | reuse =>
      obtain ⟨c, _, hph, rfl⟩ := PoolState.step_reuse hstep
      exact (h.setClient c _).goto (by simp [hph, Phase.active]) (by simp [hph, Phase.held])
  | create =>
      obtain ⟨_, hph, rfl⟩ := PoolState.step_create hstep
      exact ⟨h.counted.goto (by rw [hph]; rfl), h.bound, h.owned.create⟩
  | connected outcome =>
      obtain ⟨c, r, client, hph, -, rfl⟩ := PoolState.step_connected hstep
      cases r with
      | ok _ =>
          exact (h.setClient c _).goto (by simp [hph, Phase.active]) (by simp [hph, Phase.held])
      | error _ =>
          exact (h.setClient c _).goto (by simp [hph, Phase.active]) (by simp [Phase.held])
  | giveSlotBack =>
      obtain ⟨hph, rfl⟩ := PoolState.step_giveSlotBack hstep
      have hactive : (s.threads t).active = true := by rw [hph]; rfl
      have howned : Owned (s.goto t .out) := h.owned.goto (by simp [Phase.held])
      exact ⟨h.counted.leave hactive rfl rfl, giveSlotBack_bound (h.counted.pos hactive) h.bound,
        ⟨howned.idleNodup, howned.idleOld, howned.heldOld, howned.heldOut, howned.heldOnce⟩⟩
  | perform work =>
      obtain ⟨c, hph, rfl⟩ := PoolState.step_perform hstep
      exact (h.setClient c _).goto (by simp [hph, Phase.active]) (by simp [hph, Phase.held])
  | release now =>
      obtain ⟨c, healthy, hph, rfl⟩ := PoolState.step_release hstep
      have hactive : (s.threads t).active = true := by rw [hph]; rfl
      exact ⟨h.counted.leave hactive (by cases healthy <;> rfl) (by cases healthy <;> rfl),
        release_bound (h.counted.pos hactive) h.bound, h.owned.release (by rw [hph]; rfl)⟩
  | close =>
      obtain ⟨c, hph, rfl⟩ := PoolState.step_close hstep
      exact (h.setClient c _).goto (by simp [hph, Phase.active]) (by simp [Phase.held])

theorem poolInv_invariant (C : PoolState κ → Nat × PoolStep ω ν → Prop) :
    (poolLts K).Invariant C PoolInv where
  init _ hs := PoolInv.init hs
  step _ _ _ _ hs _ hstep := hs.step hstep

/-! ### Clients out of circulation -/

/-- An old client that is neither idle nor in the hands of a thread. -/
def Outside (s : PoolState κ) (c : Nat) : Prop :=
  c < s.fresh ∧ c ∉ idleClients s ∧ ∀ t, (s.threads t).held ≠ some c

/-- The idle list and the hands of the thread come from the idle list and the hands before. -/
theorem Outside.goto {s : PoolState κ} {t c : Nat} {ph : Phase} {pool : TargetPool Nat}
    (h : Outside s c)
    (hidle : ∀ d ∈ pool.idle.map PooledConn.client,
      d ∈ idleClients s ∨ (s.threads t).held = some d)
    (hheld : ∀ d, ph.held = some d → d ∈ idleClients s ∨ (s.threads t).held = some d) :
    Outside ({ s with pool := pool }.goto t ph) c := by
  obtain ⟨hold, hin, hfree⟩ := h
  refine ⟨hold, fun hc => ?_, fun u hu => ?_⟩
  · exact (hidle c hc).elim hin (hfree t)
  · by_cases hut : u = t
    · subst hut
      exact (hheld c (by simpa using hu)).elim hin (hfree u)
    · exact hfree u (by simpa [hut] using hu)

/-- It stays out. -/
theorem Outside.step {s s' : PoolState κ} {t c : Nat} {l : PoolStep ω ν} (h : Outside s c)
    (hstep : s.step K t l = some s') : Outside s' c := by
  cases l with
  | call now timeout socketTimeout =>
      obtain ⟨-, rfl⟩ := PoolState.step_call hstep
      exact h.goto (fun d hd => Or.inl hd) (by simp [Phase.held])
  | timeoutError now =>
      obtain ⟨_, _, -, -, rfl⟩ := PoolState.step_timeoutError hstep
      exact h.goto (fun d hd => Or.inl hd) (by simp [Phase.held])
  | takeSlot now =>
      obtain ⟨_, _, -, -, rfl⟩ := PoolState.step_takeSlot hstep
      have hsplit : idleClients s = (popIdle now s.pool.idle).expired ++
          (popIdle now s.pool.idle).reuse.toList ++
          (popIdle now s.pool.idle).idle.map PooledConn.client := popIdle_clients now s.pool.idle
      refine h.goto (fun d hd => Or.inl ?_) fun d hd => Or.inl ?_
      · rw [hsplit]
        exact List.mem_append_right _ hd
      · rw [hsplit]
        exact List.mem_append_left _ (List.mem_append_right _ (Option.mem_toList.mpr hd))
  | evict =>
      obtain ⟨d, expired, reuse, _, hph, rfl⟩ := PoolState.step_evict hstep
      exact Outside.goto (s := s.setClient d _) h (fun e he => Or.inl he)
        fun e he => Or.inr (by rw [PoolState.setClient_threads, hph]; exact he)
  | reuse =>
      obtain ⟨d, socketTimeout, hph, rfl⟩ := PoolState.step_reuse hstep
      exact Outside.goto (s := s.setClient d _) h (fun e he => Or.inl he)
        fun e he => Or.inr (by rw [PoolState.setClient_threads, hph]; exact he)
  | create =>
      obtain ⟨socketTimeout, -, rfl⟩ := PoolState.step_create hstep
      obtain ⟨hold, hin, hfree⟩ := h
      refine ⟨Nat.lt_succ_of_lt hold, hin, fun u hu => ?_⟩
      by_cases hut : u = t
      · subst hut
        obtain rfl : s.fresh = c := by simpa [Phase.held] using hu
        exact Nat.lt_irrefl _ hold
      · exact hfree u (by simpa [hut] using hu)
  | connected outcome =>
      obtain ⟨d, r, client, hph, -, rfl⟩ := PoolState.step_connected hstep
      refine Outside.goto (s := s.setClient d client) h (fun e he => Or.inl he) fun e he => ?_
      rw [PoolState.setClient_threads, hph]
      cases r with
      | ok _ => exact Or.inr he
      | error _ => cases he
  | giveSlotBack =>
      obtain ⟨-, rfl⟩ := PoolState.step_giveSlotBack hstep
      exact h.goto (fun d hd => Or.inl hd) (by simp [Phase.held])
  | perform work =>
      obtain ⟨d, hph, rfl⟩ := PoolState.step_perform hstep
      exact Outside.goto (s := s.setClient d _) h (fun e he => Or.inl he)
        fun e he => Or.inr (by rw [PoolState.setClient_threads, hph]; exact he)
  | release now =>
      obtain ⟨d, healthy, hph, rfl⟩ := PoolState.step_release hstep
      refine h.goto (fun e he => ?_) (by cases healthy <;> simp [Phase.held])
      cases healthy with
      | true =>
          have hcases : e = d ∨ e ∈ idleClients s := by
            simpa [idleClients, TargetPool.release, giveSlotBack] using he
          rcases hcases with rfl | hin
          · exact Or.inr (by rw [hph]; rfl)
          · exact Or.inl hin
      | false => exact Or.inl he
  | close =>
      obtain ⟨d, -, rfl⟩ := PoolState.step_close hstep
      exact Outside.goto (s := s.setClient d _) h (fun e he => Or.inl he) (by simp [Phase.held])

/-- A thread changes no clients but its own and the one that it creates, and closes those that it
has taken out. -/
theorem step_clients {s s' : PoolState κ} {t : Nat} {l : PoolStep ω ν}
    (h : s.step K t l = some s') {c : Nat} (hc : c < s.fresh) :
    s'.clients c = s.clients c ∨ (s.threads t).held = some c ∨
      (c ∈ (s.threads t).dropping ∧ s'.clients c = K.close (s.clients c)) := by
  have hheld : ∀ {d : Nat} {client : κ}, (s.threads t).held = some d →
      Function.update s.clients d client c = s.clients c ∨ (s.threads t).held = some c ∨
        (c ∈ (s.threads t).dropping ∧
          Function.update s.clients d client c = K.close (s.clients c)) := by
    intro d client hd
    by_cases hcd : c = d
    · exact Or.inr (Or.inl (hcd ▸ hd))
    · exact Or.inl (Function.update_of_ne hcd _ _)
  have hclosed : ∀ {d : Nat}, d ∈ (s.threads t).dropping →
      Function.update s.clients d (K.close (s.clients d)) c = s.clients c ∨
        (s.threads t).held = some c ∨ (c ∈ (s.threads t).dropping ∧
          Function.update s.clients d (K.close (s.clients d)) c = K.close (s.clients c)) := by
    intro d hd
    by_cases hcd : c = d
    · subst hcd
      exact Or.inr (Or.inr ⟨hd, Function.update_self ..⟩)
    · exact Or.inl (Function.update_of_ne hcd _ _)
  cases l with
  | call => obtain ⟨-, rfl⟩ := PoolState.step_call h; exact Or.inl rfl
  | timeoutError => obtain ⟨_, _, -, -, rfl⟩ := PoolState.step_timeoutError h; exact Or.inl rfl
  | takeSlot => obtain ⟨_, _, -, -, rfl⟩ := PoolState.step_takeSlot h; exact Or.inl rfl
  | evict =>
      obtain ⟨d, _, _, _, hph, rfl⟩ := PoolState.step_evict h
      exact hclosed (by rw [hph]; exact List.mem_cons_self)
  | reuse =>
      obtain ⟨d, _, hph, rfl⟩ := PoolState.step_reuse h
      exact hheld (by rw [hph]; rfl)
  | create =>
      obtain ⟨_, -, rfl⟩ := PoolState.step_create h
      exact Or.inl (Function.update_of_ne (Nat.ne_of_lt hc) _ _)
  | connected =>
      obtain ⟨d, _, _, hph, -, rfl⟩ := PoolState.step_connected h
      exact hheld (by rw [hph]; rfl)
  | giveSlotBack => obtain ⟨-, rfl⟩ := PoolState.step_giveSlotBack h; exact Or.inl rfl
  | perform =>
      obtain ⟨d, hph, rfl⟩ := PoolState.step_perform h
      exact hheld (by rw [hph]; rfl)
  | release => obtain ⟨_, _, -, rfl⟩ := PoolState.step_release h; exact Or.inl rfl
  | close =>
      obtain ⟨d, hph, rfl⟩ := PoolState.step_close h
      exact hclosed (by rw [hph]; exact List.mem_cons_self)

/-- Whoever still has it to close can do nothing else to it. -/
theorem Outside.client {s s' : PoolState κ} {t c : Nat} {l : PoolStep ω ν} (h : Outside s c)
    (hstep : s.step K t l = some s') :
    s'.clients c = s.clients c ∨ s'.clients c = K.close (s.clients c) := by
  rcases step_clients hstep h.1 with hsame | hmine | ⟨-, hclosed⟩
  · exact Or.inl hsame
  · exact absurd hmine (h.2.2 t)
  · exact Or.inr hclosed

/-! ### Clients that leave the pool -/

/-- A client that a thread is about to close is in no hand any more. -/
def Dropped (s : PoolState κ) : Prop :=
  ∀ t, ∀ c ∈ (s.threads t).dropping,
    c < s.fresh ∧ c ∉ idleClients s ∧ ∀ u, (s.threads u).held ≠ some c

/-- An expired client comes from the idle list, where it was in one place. -/
theorem Owned.outside_expired {s : PoolState κ} {t c : Nat} {now socketTimeout : Int}
    (h : Owned s) (hc : c ∈ (s.pool.takeSlot now).1.expired) :
    Outside ({ s with pool := (s.pool.takeSlot now).2 }.goto t
      (.evicting (s.pool.takeSlot now).1.expired (s.pool.takeSlot now).1.reuse
        socketTimeout)) c := by
  have hsplit : idleClients s = (popIdle now s.pool.idle).expired ++
      (popIdle now s.pool.idle).reuse.toList ++
      (popIdle now s.pool.idle).idle.map PooledConn.client := popIdle_clients now s.pool.idle
  have hnodup := h.idleNodup
  rw [hsplit, List.nodup_append, List.nodup_append] at hnodup
  obtain ⟨⟨-, -, hreuse⟩, -, hidle⟩ := hnodup
  have hold : c ∈ idleClients s := by
    rw [hsplit]
    exact List.mem_append_left _ (List.mem_append_left _ hc)
  refine ⟨h.idleOld c hold, fun hrest => ?_, fun v hv => ?_⟩
  · exact hidle c (List.mem_append_left _ hc) c hrest rfl
  · by_cases hvt : v = t
    · subst hvt
      have hsame : (popIdle now s.pool.idle).reuse = some c := by
        simpa [Phase.held, TargetPool.takeSlot] using hv
      exact hreuse c hc c (by rw [hsame]; simp) rfl
    · exact h.heldOut v c (by simpa [hvt] using hv) hold

/-- A client that is given back unhealthy was in one hand. -/
theorem Owned.outside_released {s : PoolState κ} {t c : Nat} {now : Int} (h : Owned s)
    (hc : (s.threads t).held = some c) :
    Outside ({ s with pool := s.pool.release c false now }.goto t (.closing c)) c := by
  refine ⟨h.heldOld t c hc, h.heldOut t c hc, fun v hv => ?_⟩
  by_cases hvt : v = t
  · subst hvt
    simp [Phase.held] at hv
  · exact hvt (h.heldOnce v t c (by simpa [hvt] using hv) hc)

/-- What a thread is about to close it was about to close before, or it has just taken it out. -/
theorem Dropped.step {s s' : PoolState κ} {t : Nat} {l : PoolStep ω ν} (h : Dropped s)
    (howned : Owned s) (hstep : s.step K t l = some s') : Dropped s' := by
  intro u c hc
  by_cases hold : c ∈ (s.threads u).dropping
  · exact Outside.step (h u c hold) hstep
  have hut : u = t := by
    by_contra hne
    exact hold (by rwa [PoolState.step_threads hstep hne] at hc)
  subst hut
  cases l with
  | takeSlot now =>
      obtain ⟨_, _, -, -, rfl⟩ := PoolState.step_takeSlot hstep
      exact howned.outside_expired (by simpa [Phase.dropping] using hc)
  | release now =>
      obtain ⟨d, healthy, hph, rfl⟩ := PoolState.step_release hstep
      cases healthy with
      | true => simp [Phase.dropping] at hc
      | false =>
          obtain rfl : c = d := by simpa [Phase.dropping] using hc
          exact howned.outside_released (by rw [hph]; rfl)
  | evict =>
      obtain ⟨d, expired, _, _, hph, rfl⟩ := PoolState.step_evict hstep
      have hexpired : c ∈ expired := by simpa [Phase.dropping] using hc
      exact absurd (by rw [hph]; exact List.mem_cons_of_mem _ hexpired) hold
  | connected outcome =>
      obtain ⟨_, r, _, -, -, rfl⟩ := PoolState.step_connected hstep
      cases r <;> simp [Phase.dropping] at hc
  | call =>
      obtain ⟨-, rfl⟩ := PoolState.step_call hstep
      simp [Phase.dropping] at hc
  | timeoutError =>
      obtain ⟨_, _, -, -, rfl⟩ := PoolState.step_timeoutError hstep
      simp [Phase.dropping] at hc
  | reuse =>
      obtain ⟨_, _, -, rfl⟩ := PoolState.step_reuse hstep
      simp [Phase.dropping] at hc
  | create =>
      obtain ⟨_, -, rfl⟩ := PoolState.step_create hstep
      simp [Phase.dropping] at hc
  | giveSlotBack =>
      obtain ⟨-, rfl⟩ := PoolState.step_giveSlotBack hstep
      simp [Phase.dropping] at hc
  | perform =>
      obtain ⟨_, -, rfl⟩ := PoolState.step_perform hstep
      simp [Phase.dropping] at hc
  | close =>
      obtain ⟨_, -, rfl⟩ := PoolState.step_close hstep
      simp [Phase.dropping] at hc

theorem dropped_invariant (C : PoolState κ → Nat × PoolStep ω ν → Prop) :
    (poolLts K).Invariant C Dropped where
  init s hs t c hc := by
    rw [hs.2.2 t] at hc
    cases hc
  step s l s' hr hs _ hstep :=
    hs.step ((poolInv_invariant C).reachable hr).owned hstep

/-! ### The representation -/

/-- A thread that is about to lower the counter. -/
def Lowering (ph : Phase) : Prop := ph = .connectFailed ∨ ∃ c healthy, ph = .used c healthy

/-- The counter of a pool counts the borrowed and connecting clients, the limit holds, the
clamps change nothing, and no client is in two hands. -/
theorem pool_representation {s : PoolState κ} (h : (poolLts K).Reachable Lts.always s) :
    (∃ n : Nat, s.pool.inuse = n ∧ Census (fun ph => Phase.active ph = true) s.threads n) ∧
    s.pool.inuse + s.pool.idle.length ≤ maxConnPerTarget ∧
    (∀ t, Lowering (s.threads t) → max 0 (s.pool.inuse - 1) = s.pool.inuse - 1) ∧
    (idleClients s).Nodup ∧
    (∀ t c, (s.threads t).held = some c → c ∉ idleClients s) ∧
    (∀ t u c, (s.threads t).held = some c → (s.threads u).held = some c → t = u) ∧
    ((∀ t, s.threads t = .out) → s.pool.inuse = 0) := by
  have hinv : PoolInv s := (poolInv_invariant Lts.always).reachable h
  refine ⟨hinv.counted, hinv.bound, fun t ht => hinv.counted.clamp (t := t) ?_,
    hinv.owned.idleNodup, hinv.owned.heldOut, hinv.owned.heldOnce, fun hout => ?_⟩
  · rcases ht with ht | ⟨c, healthy, ht⟩ <;> rw [ht] <;> rfl
  · obtain ⟨n, hn, hcensus⟩ := hinv.counted
    have hzero : Census (fun ph => Phase.active ph = true) s.threads 0 :=
      Census.of_forall_not fun t => by rw [hout t]; exact nofun
    rw [hn, hcensus.unique hzero]
    rfl

/-- Clients without a state, whose connects fail as the label says. -/
def plainClients : ClientKind Unit Bool Bool where
  new _ := ()
  connect _ ok := (if ok then .ok () else .error ⟨.connectionError, "refused"⟩, ())
  setTimeout _ _ := ()
  close _ := ()
  perform _ healthy := (healthy, ())

/-- One thread connects and returns its client, a second reuses it while a third connects
in vain. -/
def poolTrace : List (Nat × PoolStep Bool Bool) :=
  [(0, .call 0 10 30), (0, .takeSlot 1), (0, .create), (0, .connected true), (0, .perform true),
    (0, .release 5), (1, .call 6 10 30), (1, .takeSlot 7), (1, .reuse), (2, .call 8 10 30),
    (2, .takeSlot 9), (2, .create), (2, .connected false)]

/-- The state after it. -/
def poolTraceEnd : PoolState Unit :=
  ((poolLts plainClients).run poolTrace { clients := fun _ => () }).get rfl

theorem poolTraceEnd_reachable : (poolLts plainClients).Reachable Lts.always poolTraceEnd :=
  .of_run (.init ⟨rfl, rfl, fun _ => rfl⟩) (Option.some_get rfl).symm

theorem pool_representation_witness :
    poolTraceEnd.pool.inuse = 2 ∧
      poolTraceEnd.pool.inuse + poolTraceEnd.pool.idle.length ≤ maxConnPerTarget :=
  ⟨rfl, (pool_representation poolTraceEnd_reachable).2.1⟩

end McpSocketServer
