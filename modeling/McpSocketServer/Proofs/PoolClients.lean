import McpSocketServer.Proofs.PoolInvariant

/-!
# What the pool guarantees of its clients

The rule that carries a property of client objects through the runs of a pool: if every kind
of work either keeps a client good or reports it as unhealthy, then every client in the
idle list, and every client that a thread has obtained, is good. The rule rests on the
representation invariant, by which a client is in one hand at a time. At the end the rule by
which the runs of a pool are those of another one, with clients that keep less.
-/

namespace McpSocketServer

open TargetPool

variable {κ ω ν : Type} {K : ClientKind κ ω ν}

/-- `Good` holds of clients that may be handed out and `Fair` of all clients. Connecting is
considered for the outcomes in `W`, and work for the clients and uses in `C`. -/
structure Carries (K : ClientKind κ ω ν) (W : ω → Prop) (C : κ → ν → Prop)
    (Fair Good : κ → Prop) : Prop where
  fair : ∀ c, Good c → Fair c
  new : ∀ timeout, Fair (K.new timeout)
  connect : ∀ timeout outcome, W outcome → Fair (K.connect (K.new timeout) outcome).2 ∧
    ((K.connect (K.new timeout) outcome).1 = .ok () → Good (K.connect (K.new timeout) outcome).2)
  setTimeout : ∀ c timeout, Good c → Good (K.setTimeout c timeout)
  close : ∀ c, Fair c → Fair (K.close c)
  perform : ∀ c work, Good c → C c work → Fair (K.perform c work).2 ∧
    ((K.perform c work).1 = true → Good (K.perform c work).2)

/-- Every connect has an outcome in `W` and every use is in `C`. -/
def PoolCondition (W : ω → Prop) (C : κ → ν → Prop) (s : PoolState κ) : Nat × PoolStep ω ν → Prop
  | (_, .connected outcome) => W outcome
  | (t, .perform work) => ∀ c, s.threads t = .borrowed c → C (s.clients c) work
  | _ => True

/-- The client that a thread has obtained and not spoilt. -/
def Phase.clean : Phase → Option Nat
  | .evicting _ reuse _ => reuse
  | .borrowed c => some c
  | .used c healthy => if healthy then some c else none
  | _ => none

/-- All clients are fair, those in the idle list and in the hands of threads are good, and one that is
being connected is new. -/
structure ClientsInv (K : ClientKind κ ω ν) (Fair Good : κ → Prop) (s : PoolState κ) : Prop where
  all : ∀ c, c < s.fresh → Fair (s.clients c)
  idle : ∀ c ∈ idleClients s, Good (s.clients c)
  clean : ∀ t c, (s.threads t).clean = some c → Good (s.clients c)
  connecting : ∀ t c, s.threads t = .connecting c → ∃ timeout, s.clients c = K.new timeout

theorem held_of_clean {ph : Phase} {c : Nat} (h : ph.clean = some c) : ph.held = some c := by
  cases ph with
  | used d healthy =>
      cases healthy with
      | true => exact h
      | false => cases h
  | _ => first | exact h | cases h

variable {Fair Good : κ → Prop}

/-- A client that is in no other hand changes. -/
theorem ClientsInv.setClient {s : PoolState κ} {t c : Nat} {client : κ} {ph : Phase}
    (h : ClientsInv K Fair Good s) (hidle : c ∉ idleClients s)
    (hheld : ∀ u, u ≠ t → (s.threads u).held ≠ some c) (hfair : Fair client)
    (hclean : ∀ d, ph.clean = some d → Good (Function.update s.clients c client d))
    (hconn : ∀ d, ph ≠ .connecting d) :
    ClientsInv K Fair Good ((s.setClient c client).goto t ph) := by
  refine ⟨fun d hd => ?_, fun d hd => ?_, fun u d hu => ?_, fun u d hu => ?_⟩
  · show Fair (Function.update s.clients c client d)
    by_cases hdc : d = c
    · rw [hdc, Function.update_self]
      exact hfair
    · rw [Function.update_of_ne hdc]
      exact h.all d hd
  · show Good (Function.update s.clients c client d)
    have hdc : d ≠ c := by
      intro heq
      subst heq
      exact hidle hd
    rw [Function.update_of_ne hdc]
    exact h.idle d hd
  · show Good (Function.update s.clients c client d)
    by_cases hut : u = t
    · subst hut
      exact hclean d (by simpa using hu)
    · have hold : (s.threads u).clean = some d := by simpa [hut] using hu
      have hdc : d ≠ c := by
        intro heq
        subst heq
        exact hheld u hut (held_of_clean hold)
      rw [Function.update_of_ne hdc]
      exact h.clean u d hold
  · show ∃ timeout, Function.update s.clients c client d = K.new timeout
    by_cases hut : u = t
    · subst hut
      exact absurd (by simpa using hu) (hconn d)
    · have hold : s.threads u = .connecting d := by simpa [hut] using hu
      have hdc : d ≠ c := by
        intro heq
        subst heq
        exact hheld u hut (by rw [hold]; rfl)
      rw [Function.update_of_ne hdc]
      exact h.connecting u d hold

/-- The clients stay as they are, and clients are handed on. -/
theorem ClientsInv.goto {s : PoolState κ} {t : Nat} {ph : Phase} {pool : TargetPool Nat}
    (h : ClientsInv K Fair Good s)
    (hidle : ∀ c ∈ pool.idle.map PooledConn.client, Good (s.clients c))
    (hclean : ∀ c, ph.clean = some c → Good (s.clients c))
    (hconn : ∀ c, ph ≠ .connecting c) :
    ClientsInv K Fair Good ({ s with pool := pool }.goto t ph) := by
  refine ⟨h.all, hidle, fun u c hu => ?_, fun u c hu => ?_⟩
  · by_cases hut : u = t
    · subst hut
      exact hclean c (by simpa using hu)
    · exact h.clean u c (by simpa [hut] using hu)
  · by_cases hut : u = t
    · subst hut
      exact absurd (by simpa using hu) (hconn c)
    · exact h.connecting u c (by simpa [hut] using hu)

theorem ClientsInv.create {s : PoolState κ} {t : Nat} {timeout : Int}
    (h : ClientsInv K Fair Good s) (howned : Owned s) (hfair : Fair (K.new timeout)) :
    ClientsInv K Fair Good ({ s.setClient s.fresh (K.new timeout) with
      fresh := s.fresh + 1 }.goto t (.connecting s.fresh)) := by
  have hne : ∀ c, c < s.fresh → c ≠ s.fresh := fun c hc => Nat.ne_of_lt hc
  refine ⟨fun c hc => ?_, fun c hc => ?_, fun u c hu => ?_, fun u c hu => ?_⟩
  · show Fair (Function.update s.clients s.fresh (K.new timeout) c)
    by_cases hcf : c = s.fresh
    · rw [hcf, Function.update_self]
      exact hfair
    · rw [Function.update_of_ne hcf]
      exact h.all c (by change c < s.fresh + 1 at hc; omega)
  · show Good (Function.update s.clients s.fresh (K.new timeout) c)
    rw [Function.update_of_ne (hne c (howned.idleOld c hc))]
    exact h.idle c hc
  · show Good (Function.update s.clients s.fresh (K.new timeout) c)
    by_cases hut : u = t
    · subst hut
      simp [Phase.clean] at hu
    · have hold : (s.threads u).clean = some c := by simpa [hut] using hu
      rw [Function.update_of_ne (hne c (howned.heldOld u c (held_of_clean hold)))]
      exact h.clean u c hold
  · show ∃ τ, Function.update s.clients s.fresh (K.new timeout) c = K.new τ
    by_cases hut : u = t
    · subst hut
      obtain rfl : s.fresh = c := by simpa using hu
      exact ⟨timeout, by rw [Function.update_self]⟩
    · have hold : s.threads u = .connecting c := by simpa [hut] using hu
      rw [Function.update_of_ne (hne c (howned.heldOld u c (by rw [hold]; rfl)))]
      exact h.connecting u c hold

theorem ClientsInv.step {W : ω → Prop} {C : κ → ν → Prop} (hK : Carries K W C Fair Good)
    {s s' : PoolState κ} {t : Nat} {l : PoolStep ω ν} (h : ClientsInv K Fair Good s)
    (howned : Owned s) (hdropped : Dropped s) (hC : PoolCondition W C s (t, l))
    (hstep : s.step K t l = some s') : ClientsInv K Fair Good s' := by
  have hmine : ∀ c, (s.threads t).held = some c → ∀ u, u ≠ t → (s.threads u).held ≠ some c :=
    fun c hc u hut hu => hut (howned.heldOnce u t c hu hc)
  cases l with
  | call now timeout socketTimeout =>
      obtain ⟨hph, rfl⟩ := PoolState.step_call hstep
      exact h.goto h.idle (by simp [Phase.clean]) (by simp)
  | timeoutError now =>
      obtain ⟨_, _, hph, -, rfl⟩ := PoolState.step_timeoutError hstep
      exact h.goto h.idle (by simp [Phase.clean]) (by simp)
  | takeSlot now =>
      obtain ⟨_, _, hph, -, rfl⟩ := PoolState.step_takeSlot hstep
      have hsplit : idleClients s = (popIdle now s.pool.idle).expired ++
          (popIdle now s.pool.idle).reuse.toList ++
          (popIdle now s.pool.idle).idle.map PooledConn.client := popIdle_clients now s.pool.idle
      refine h.goto (fun c hc => h.idle c ?_) (fun c hc => h.idle c ?_) (by simp)
      · rw [hsplit]
        exact List.mem_append_right _ hc
      · rw [hsplit]
        exact List.mem_append_left _ (List.mem_append_right _ (Option.mem_toList.mpr hc))
  | evict =>
      obtain ⟨c, expired, reuse, _, hph, rfl⟩ := PoolState.step_evict hstep
      obtain ⟨hold, hidle, hfree⟩ := hdropped t c (by rw [hph]; exact List.mem_cons_self)
      refine h.setClient hidle (fun u _ => hfree u) (hK.close _ (h.all c hold)) (fun d hd => ?_)
        (by simp)
      have hreuse : (s.threads t).held = some d := by rw [hph]; exact hd
      have hdc : d ≠ c := by
        intro heq
        subst heq
        exact hfree t hreuse
      rw [Function.update_of_ne hdc]
      exact h.clean t d (by rw [hph]; exact hd)
  | reuse =>
      obtain ⟨c, socketTimeout, hph, rfl⟩ := PoolState.step_reuse hstep
      have hc : (s.threads t).held = some c := by rw [hph]; rfl
      have hgood := hK.setTimeout _ socketTimeout (h.clean t c (by rw [hph]; rfl))
      refine h.setClient (howned.heldOut t c hc) (hmine c hc) (hK.fair _ hgood) (fun d hd => ?_)
        (by simp)
      obtain rfl : c = d := by simpa [Phase.clean] using hd
      rw [Function.update_self]
      exact hgood
  | create =>
      obtain ⟨socketTimeout, hph, rfl⟩ := PoolState.step_create hstep
      exact h.create howned (hK.new socketTimeout)
  | connected outcome =>
      obtain ⟨c, r, client, hph, hconnect, rfl⟩ := PoolState.step_connected hstep
      have hc : (s.threads t).held = some c := by rw [hph]; rfl
      obtain ⟨timeout, hnew⟩ := h.connecting t c hph
      obtain ⟨hfair, hgood⟩ := hK.connect timeout outcome hC
      rw [← hnew, hconnect] at hfair hgood
      refine h.setClient (howned.heldOut t c hc) (hmine c hc) hfair (fun d hd => ?_) ?_
      · cases r with
        | ok _ =>
            obtain rfl : c = d := by simpa [Phase.clean] using hd
            rw [Function.update_self]
            exact hgood rfl
        | error _ => cases hd
      · cases r <;> simp
  | giveSlotBack =>
      obtain ⟨hph, rfl⟩ := PoolState.step_giveSlotBack hstep
      exact h.goto h.idle (by simp [Phase.clean]) (by simp)
  | perform work =>
      obtain ⟨c, hph, rfl⟩ := PoolState.step_perform hstep
      have hc : (s.threads t).held = some c := by rw [hph]; rfl
      obtain ⟨hfair, hgood⟩ := hK.perform _ work (h.clean t c (by rw [hph]; rfl)) (hC c hph)
      refine h.setClient (howned.heldOut t c hc) (hmine c hc) hfair (fun d hd => ?_) (by simp)
      simp only [Phase.clean] at hd
      split at hd
      · rename_i hhealthy
        obtain rfl : c = d := Option.some.inj hd
        rw [Function.update_self]
        exact hgood hhealthy
      · cases hd
  | release now =>
      obtain ⟨c, healthy, hph, rfl⟩ := PoolState.step_release hstep
      cases healthy with
      | true =>
          refine h.goto (fun d hd => ?_) (by simp [Phase.clean]) (by simp)
          have hcases : d = c ∨ d ∈ idleClients s := by
            simpa [idleClients, TargetPool.release, giveSlotBack] using hd
          rcases hcases with rfl | hin
          · exact h.clean t d (by rw [hph]; rfl)
          · exact h.idle d hin
      | false => exact h.goto h.idle (by simp [Phase.clean]) (by simp)
  | close =>
      obtain ⟨c, hph, rfl⟩ := PoolState.step_close hstep
      obtain ⟨hold, hidle, hfree⟩ := hdropped t c (by rw [hph]; exact List.mem_singleton.mpr rfl)
      exact h.setClient hidle (fun u _ => hfree u) (hK.close _ (h.all c hold))
        (by simp [Phase.clean]) (by simp)

/-- The rule: in every run within the conditions, all clients are fair, and the clients that are
idle or obtained are good. -/
theorem clients_carried {W : ω → Prop} {C : κ → ν → Prop} (hK : Carries K W C Fair Good)
    {s : PoolState κ} (h : (poolLts K).Reachable (PoolCondition W C) s) :
    ClientsInv K Fair Good s := by
  have hinv : (poolLts K).Invariant (PoolCondition W C) (ClientsInv K Fair Good) := by
    refine ⟨fun s hs => ?_, fun s l s' hr hs hC hstep => ?_⟩
    · obtain ⟨hpool, hfresh, hout⟩ := hs
      refine ⟨fun c hc => ?_, fun c hc => ?_, fun t c hc => ?_, fun t c hc => ?_⟩
      · rw [hfresh] at hc
        cases hc
      · rw [idleClients, hpool] at hc
        cases hc
      · rw [hout t] at hc
        cases hc
      · rw [hout t] at hc
        cases hc
    · exact hs.step hK ((poolInv_invariant _).reachable hr).owned
        ((dropped_invariant _).reachable hr) hC hstep
  exact hinv.reachable h

/-! ### Pools of different clients -/

section Maps

variable {κ κ' ω ν : Type} {K : ClientKind κ ω ν} {K' : ClientKind κ' ω ν} {f : κ → κ'}

/-- Two kinds of clients of which `f` takes the one to the other, with all that can be done. -/
structure ClientKind.Maps (K : ClientKind κ ω ν) (K' : ClientKind κ' ω ν) (f : κ → κ') :
    Prop where
  new : ∀ timeout, K'.new timeout = f (K.new timeout)
  connect : ∀ c outcome, K'.connect (f c) outcome =
    ((K.connect c outcome).1, f (K.connect c outcome).2)
  setTimeout : ∀ c timeout, K'.setTimeout (f c) timeout = f (K.setTimeout c timeout)
  close : ∀ c, K'.close (f c) = f (K.close c)
  perform : ∀ c work, K'.perform (f c) work = ((K.perform c work).1, f (K.perform c work).2)

/-- The state with `f` of every client. -/
def PoolState.map (f : κ → κ') (s : PoolState κ) : PoolState κ' where
  pool := s.pool
  clients c := f (s.clients c)
  fresh := s.fresh
  threads := s.threads

@[simp] theorem PoolState.map_threads (s : PoolState κ) : (s.map f).threads = s.threads := rfl

@[simp] theorem PoolState.map_clients (s : PoolState κ) (c : Nat) :
    (s.map f).clients c = f (s.clients c) := rfl

@[simp] theorem PoolState.map_goto (s : PoolState κ) (t : Nat) (ph : Phase) :
    (s.goto t ph).map f = (s.map f).goto t ph := rfl

@[simp] theorem PoolState.map_setClient (s : PoolState κ) (c : Nat) (client : κ) :
    (s.setClient c client).map f = (s.map f).setClient c (f client) :=
  congrArg (PoolState.mk s.pool · s.fresh s.threads) (Function.comp_update f s.clients c client)

/-- A step of the one pool is a step of the other. -/
theorem ClientKind.Maps.step (hf : K.Maps K' f) {s s' : PoolState κ} {t : Nat}
    {l : PoolStep ω ν} (h : s.step K t l = some s') :
    (s.map f).step K' t l = some (s'.map f) := by
  cases l with
  | call =>
      obtain ⟨hph, rfl⟩ := PoolState.step_call h
      simp [PoolState.step, PoolState.map, PoolState.goto, hph]
  | timeoutError =>
      obtain ⟨_, _, hph, _, rfl⟩ := PoolState.step_timeoutError h
      simpa [PoolState.step, PoolState.map, PoolState.goto, hph] using h
  | takeSlot =>
      obtain ⟨_, _, hph, hfull, rfl⟩ := PoolState.step_takeSlot h
      simp [PoolState.step, PoolState.map, PoolState.goto, hph, hfull]
  | evict =>
      obtain ⟨c, _, _, _, hph, rfl⟩ := PoolState.step_evict h
      simp [PoolState.step, hph, hf.close]
  | reuse =>
      obtain ⟨c, _, hph, rfl⟩ := PoolState.step_reuse h
      simp [PoolState.step, hph, hf.setTimeout]
  | create =>
      obtain ⟨timeout, hph, rfl⟩ := PoolState.step_create h
      have hnew := s.map_setClient (f := f) s.fresh (K.new timeout)
      simp only [PoolState.step, PoolState.map_threads, hph, hf.new]
      exact congrArg (fun s' : PoolState κ' => some
        (PoolState.goto { s' with fresh := s.fresh + 1 } t (.connecting s.fresh))) hnew.symm
  | connected outcome =>
      obtain ⟨c, r, client, hph, hconnect, rfl⟩ := PoolState.step_connected h
      have hc : K'.connect (f (s.clients c)) outcome = (r, f client) := by
        rw [hf.connect, hconnect]
      cases r <;> simp [PoolState.step, hph, hc]
  | giveSlotBack =>
      obtain ⟨hph, rfl⟩ := PoolState.step_giveSlotBack h
      simp [PoolState.step, PoolState.map, PoolState.goto, hph]
  | perform work =>
      obtain ⟨c, hph, rfl⟩ := PoolState.step_perform h
      simp [PoolState.step, hph, hf.perform]
  | release =>
      obtain ⟨_, _, hph, rfl⟩ := PoolState.step_release h
      simp [PoolState.step, PoolState.map, PoolState.goto, hph]
  | close =>
      obtain ⟨c, hph, rfl⟩ := PoolState.step_close h
      simp [PoolState.step, hph, hf.close]

/-- A run of the one pool is a run of the other. -/
theorem ClientKind.Maps.reachable (hf : K.Maps K' f) {s : PoolState κ}
    (h : (poolLts K).Reachable Lts.always s) : (poolLts K').Reachable Lts.always (s.map f) := by
  induction h with
  | init hs => exact .init hs
  | step _ _ hstep ih => exact .step ih trivial (hf.step hstep)

end Maps

end McpSocketServer
