import Mathlib
import McpSocketServer.Proofs.OpenSockets
import McpSocketServer.Schedulers

/-!
# How many connections a target has

A pool bounds the connections that it makes. Every host and port has a key of its own, and so a
pool of its own in each scheduler; the whole process then keeps the bound as far as it has one
scheduler, which `get_scheduler` does not ensure when its calls overlap.
-/

namespace McpSocketServer

/-! ### Keys -/

theorem colon_not_mem_toString (port : Int) : ':' ∉ (toString port).toList := by
  have hdigits : ∀ n : Nat, ':' ∉ n.repr.toList := by
    intro n hmem
    rw [Nat.toList_repr] at hmem
    exact absurd (Nat.isDigit_of_mem_toDigits (by decide) (by decide) hmem) (by decide)
  rw [Int.toString_eq_repr, Int.repr_eq_if]
  split
  · exact hdigits _
  · simpa using hdigits _

theorem poolKey_parts (host : String) (port : Int) :
    beforeLast ':' (poolKey host port) = host ∧
      afterLast ':' (poolKey host port) = (toString port).toList := by
  have hne : ∀ c ∈ (toString port).toList.reverse, (c != ':') = true := by
    intro c hc
    rw [bne_iff_ne]
    rintro rfl
    exact colon_not_mem_toString port (List.mem_reverse.mp hc)
  have hrev : (poolKey host port).toList.reverse =
      (toString port).toList.reverse ++ ':' :: host.toList.reverse := by
    simp [poolKey]
  constructor
  · rw [beforeLast, hrev, List.dropWhile_append_of_pos hne]
    simp
  · rw [afterLast, hrev, List.takeWhile_append_of_pos hne]
    simp

/-- Two targets never share a key. -/
theorem poolKey_inj {host host' : String} {port port' : Int}
    (h : poolKey host port = poolKey host' port') : host = host' ∧ port = port' := by
  obtain ⟨hhost, hport⟩ := poolKey_parts host port
  obtain ⟨hhost', hport'⟩ := poolKey_parts host' port'
  rw [h] at hhost hport
  refine ⟨hhost.symm.trans hhost', Int.repr_injective ?_⟩
  exact String.toList_inj.mp (hport.symm.trans hport')

/-! ### The address of a client -/

section Lasting

variable {κ ω ν : Type} {K : ClientKind κ ω ν} {P : κ → Prop}

/-- `P` holds of new clients, and nothing that the pool and its borrowers do ends it. -/
structure Lasting (K : ClientKind κ ω ν) (P : κ → Prop) : Prop where
  new : ∀ timeout, P (K.new timeout)
  connect : ∀ c outcome, P c → P (K.connect c outcome).2
  setTimeout : ∀ c timeout, P c → P (K.setTimeout c timeout)
  close : ∀ c, P c → P (K.close c)
  perform : ∀ c work, P c → P (K.perform c work).2

theorem update_all {fresh d : Nat} {clients : Nat → κ} {client : κ}
    (h : ∀ c < fresh, P (clients c)) (hd : P (clients d) → P client) :
    ∀ c < fresh, P (Function.update clients d client c) := by
  intro c hc
  by_cases hcd : c = d
  · subst hcd
    rw [Function.update_self]
    exact hd (h c hc)
  · rw [Function.update_of_ne hcd]
    exact h c hc

theorem Lasting.thread (hK : Lasting K P) {s s' : PoolState κ} {t : Nat} {l : PoolStep ω ν}
    (h : ∀ c < s.fresh, P (s.clients c)) (hstep : s.step K t l = some s') :
    ∀ c < s'.fresh, P (s'.clients c) := by
  cases l with
  | call => obtain ⟨-, rfl⟩ := PoolState.step_call hstep; exact h
  | timeoutError => obtain ⟨_, _, -, -, rfl⟩ := PoolState.step_timeoutError hstep; exact h
  | takeSlot => obtain ⟨_, _, -, -, rfl⟩ := PoolState.step_takeSlot hstep; exact h
  | evict =>
      obtain ⟨_, _, _, _, -, rfl⟩ := PoolState.step_evict hstep
      exact update_all h (hK.close _)
  | reuse =>
      obtain ⟨_, _, -, rfl⟩ := PoolState.step_reuse hstep
      exact update_all h (hK.setTimeout _ _)
  | create =>
      obtain ⟨timeout, -, rfl⟩ := PoolState.step_create hstep
      intro c hc
      show P (Function.update s.clients s.fresh (K.new timeout) c)
      rcases Nat.lt_succ_iff_lt_or_eq.mp hc with hold | rfl
      · rw [Function.update_of_ne (Nat.ne_of_lt hold)]
        exact h c hold
      · rw [Function.update_self]
        exact hK.new timeout
  | connected outcome =>
      obtain ⟨d, r, client, -, hconnect, rfl⟩ := PoolState.step_connected hstep
      have hclient : client = (K.connect (s.clients d) outcome).2 := by rw [hconnect]
      exact update_all h fun hd => hclient ▸ hK.connect _ _ hd
  | giveSlotBack => obtain ⟨-, rfl⟩ := PoolState.step_giveSlotBack hstep; exact h
  | perform work =>
      obtain ⟨_, -, rfl⟩ := PoolState.step_perform hstep
      exact update_all h (hK.perform _ _)
  | release => obtain ⟨_, _, -, rfl⟩ := PoolState.step_release hstep; exact h
  | close =>
      obtain ⟨_, -, rfl⟩ := PoolState.step_close hstep
      exact update_all h (hK.close _)

theorem lasting_invariant (hK : Lasting K P) :
    (drainLts K).Invariant Lts.always fun s => ∀ c < s.base.fresh, P (s.base.clients c) where
  init s hs c hc := by
    rw [hs.1.2.1] at hc
    cases hc
  step s l s' _ hs _ hstep := by
    cases l with
    | thread t l =>
        obtain ⟨base, hbase, rfl⟩ := DrainState.step_thread hstep
        exact hK.thread hs hbase
    | takeAll u =>
        obtain ⟨-, rfl⟩ := DrainState.step_takeAll (K := K) hstep
        exact hs
    | closeNext u =>
        obtain ⟨_, _, -, rfl⟩ := DrainState.step_closeNext (K := K) hstep
        exact update_all hs (hK.close _)

end Lasting

/-- The client is for this target. -/
def SocketServerClient.At (host : String) (port : Int) (c : SocketServerClient) : Prop :=
  c.host = host ∧ c.port = port

theorem tools_lasting (rt : Runtime) (host : String) (port : Int) :
    Lasting (toolClients rt host port) (SocketServerClient.At host port) where
  new _ := ⟨rfl, rfl⟩
  connect c outcome hc := by
    have hkeeps : Prog.Keeps (SocketServerClient.At host port) (SocketServerClient.At host port)
        (SocketServerClient.connect outcome) := by
      unfold SocketServerClient.connect
      refine Prog.Keeps.get.bind fun c => ?_
      split
      · exact .pure ()
      · exact (Prog.Keeps.ofExcept (fun _ => id) _).bind fun _ =>
          (Prog.Keeps.ofExcept (fun _ => id) _).bind fun _ => .modify fun _ => id
    exact hkeeps.exec (fun _ => id) hc
  setTimeout _ _ hc := hc
  close _ hc := hc
  perform c use hc := by
    have hexchanges : Exchanges rt (SocketServerClient.At host port)
        (SocketServerClient.At host port) := Steady.exchanges (fun _ _ _ h => h) rt
    exact (fn_keeps hexchanges port hc
      (fun _ _ _ _ hstart => hexchanges.keeps_version.exec (fun _ => id)
        (Prog.Triple.ok (hexchanges.keeps_listenStart _) hc hstart))
      fun _ _ h => h).1

/-! ### One scheduler -/

/-- A pool is in its place, and in a state that it can reach. -/
structure PlacedPool (rt : Runtime) (made i : Nat) (key : String) (p : TargetPoolObject) :
    Prop where
  old : i < made
  key : key = poolKey p.host p.port
  reachable : (drainLts (toolClients rt p.host p.port)).Reachable Lts.always p.state

/-- Schedulers in use have been made, and every pool is in its place. -/
structure SchedulersInv (rt : Runtime) (s : SchedulersState) : Prop where
  current : ∀ i, s.scheduler = some i → i < s.made
  held : ∀ t i, (s.threads t).scheduler = some i → i < s.made
  pools : ∀ i key p, s.pools i key = some p → PlacedPool rt s.made i key p

namespace SchedulersInv

variable {rt : Runtime} {s s' : SchedulersState}

theorem init : SchedulersInv rt {} := by
  refine ⟨fun i hi => ?_, fun t i hi => ?_, fun i key p hp => ?_⟩
  · cases hi
  · cases hi
  · cases hp

theorem goto (h : SchedulersInv rt s) {t : Nat} {ph : SchedulerPhase}
    (hph : ∀ i, ph.scheduler = some i → i < s.made) : SchedulersInv rt (s.goto t ph) := by
  refine ⟨h.current, fun u i hu => ?_, h.pools⟩
  by_cases hut : u = t
  · subst hut
    exact hph i (by simpa using hu)
  · exact h.held u i (by simpa [hut] using hu)

theorem setPool (h : SchedulersInv rt s) {i : Nat} {key : String} {p : TargetPoolObject}
    (hp : PlacedPool rt s.made i key p) : SchedulersInv rt (s.setPool i key p) := by
  refine ⟨h.current, h.held, fun j key' q hq => ?_⟩
  rcases SchedulersState.setPool_eq_some hq with ⟨rfl, rfl, rfl⟩ | hold
  · exact hp
  · exact h.pools j key' q hold

/-- `get_pool` puts a new pool where there is none. -/
theorem ensurePool (h : SchedulersInv rt s) {i : Nat} (hi : i < s.made) (host : String)
    (port : Int) :
    SchedulersInv rt (s.ensurePool i host port) := by
  rcases s.ensurePool_cases i host port with hsame | hnew
  · rw [hsame]
    exact h
  · rw [hnew]
    exact h.setPool ⟨hi, rfl, .init ⟨⟨rfl, rfl, fun _ => rfl⟩, fun _ => rfl⟩⟩

theorem assign (h : SchedulersInv rt s) (t : Nat) :
    SchedulersInv rt
      ({ s with scheduler := some s.made, made := s.made + 1 }.goto t .returning) := by
  have hmade : SchedulersInv rt { s with scheduler := some s.made, made := s.made + 1 } := by
    refine ⟨fun i hi => ?_, fun u i hu => Nat.lt_succ_of_lt (h.held u i hu), fun i key p hp => ?_⟩
    · obtain rfl : s.made = i := Option.some.inj hi
      exact Nat.lt_succ_self _
    · obtain ⟨hold, hkey, hreach⟩ := h.pools i key p hp
      exact ⟨Nat.lt_succ_of_lt hold, hkey, hreach⟩
  exact hmade.goto (by simp [SchedulerPhase.scheduler])

theorem step (h : SchedulersInv rt s) {l : SchedulersStep} (hstep : s.step rt l = some s') :
    SchedulersInv rt s' := by
  cases l with
  | check t =>
      obtain rfl := SchedulersState.step_check hstep
      exact h.goto fun i hi => by split at hi <;> cases hi
  | assign t =>
      obtain rfl := SchedulersState.step_assign hstep
      exact h.assign t
  | ret t =>
      obtain ⟨i, hi, rfl⟩ := SchedulersState.step_ret hstep
      exact h.goto fun j hj => Option.some.inj hj ▸ h.current i hi
  | handOver t u =>
      obtain ⟨i, hph, rfl⟩ := SchedulersState.step_handOver hstep
      exact h.goto fun j hj => Option.some.inj hj ▸ h.held t i (by rw [hph]; rfl)
  | getPool t host port =>
      obtain ⟨i, hph, rfl⟩ := SchedulersState.step_getPool hstep
      have hi : i < s.made := h.held t i (by rw [hph]; rfl)
      refine (h.ensurePool hi host port).goto fun j hj => ?_
      rw [SchedulersState.ensurePool_made]
      exact Option.some.inj hj ▸ hi
  | inPool i key l =>
      obtain ⟨p, state, hp, hstate, rfl⟩ := SchedulersState.step_inPool hstep
      obtain ⟨hold, hkey, hreach⟩ := h.pools i key p hp
      exact h.setPool ⟨hold, hkey, hreach.step trivial hstate⟩
  | leave t =>
      obtain ⟨i, key, hph, rfl⟩ := SchedulersState.step_leave hstep
      exact h.goto fun j hj => Option.some.inj hj ▸ h.held t i (by rw [hph]; rfl)
  | done t =>
      obtain rfl := SchedulersState.step_done hstep
      exact h.goto (by simp [SchedulerPhase.scheduler])

end SchedulersInv

/-! ### The connections of a target -/

/-- An open client for the target: its scheduler, the key of its pool and its number there.
Clients that somebody is about to close do not count. -/
def openConnections (s : SchedulersState) (host : String) (port : Int) :
    Set (Nat × String × Nat) :=
  {x | ∃ p, s.pools x.1 x.2.1 = some p ∧ x.2.2 < p.state.base.fresh ∧
    (p.state.base.clients x.2.2).At host port ∧ Connected (p.state.base.clients x.2.2) ∧
    ¬ Closing p.state x.2.2}

variable {rt : Runtime} {s s' : SchedulersState}

theorem PlacedPool.clients {made i : Nat} {key : String} {p : TargetPoolObject}
    (h : PlacedPool rt made i key p) :
    ∀ c < p.state.base.fresh, (p.state.base.clients c).At p.host p.port :=
  (lasting_invariant (tools_lasting rt p.host p.port)).reachable h.reachable

/-- The open clients of one scheduler for the target are in one pool. -/
theorem openConnections_scheduler (h : SchedulersInv rt s) (host : String) (port : Int) (i : Nat) :
    {x ∈ openConnections s host port | x.1 = i}.Finite ∧
      {x ∈ openConnections s host port | x.1 = i}.ncard ≤ maxConnPerTarget := by
  have hplace : ∀ x ∈ openConnections s host port, x.2.1 = poolKey host port := by
    rintro ⟨j, key, c⟩ ⟨p, hp, hold, hat, -⟩
    have hplaced := h.pools j key p hp
    obtain ⟨hhost, hport⟩ := hplaced.clients c hold
    have hkey : key = poolKey p.host p.port := hplaced.key
    rw [← hhost, ← hport, hat.1, hat.2] at hkey
    exact hkey
  cases hp : s.pools i (poolKey host port) with
  | none =>
      have hempty : {x ∈ openConnections s host port | x.1 = i} = ∅ := by
        rw [Set.eq_empty_iff_forall_notMem]
        rintro ⟨j, key, c⟩ ⟨hx, rfl⟩
        obtain rfl := hplace _ hx
        obtain ⟨p, hsome, -⟩ := hx
        rw [hp] at hsome
        cases hsome
      rw [hempty]
      exact ⟨Set.finite_empty, by simp⟩
  | some p =>
      obtain ⟨-, -, hreach⟩ := h.pools i (poolKey host port) p hp
      obtain ⟨hfinite, hbound⟩ :=
        ((drainInv_invariant (tools_close rt p.host p.port)).reachable hreach).open_bound
      have hsub : {x ∈ openConnections s host port | x.1 = i} ⊆
          (fun c => (i, poolKey host port, c)) '' {c | c < p.state.base.fresh ∧
            Connected (p.state.base.clients c) ∧ ¬ Closing p.state c} := by
        rintro ⟨j, key, c⟩ ⟨hx, rfl⟩
        obtain rfl := hplace _ hx
        obtain ⟨q, hq, hold, -, hopen, hnot⟩ := hx
        obtain rfl : p = q := Option.some.inj (hp.symm.trans hq)
        exact ⟨c, ⟨hold, hopen, hnot⟩, rfl⟩
      refine ⟨(hfinite.image _).subset hsub, ?_⟩
      exact (Set.ncard_le_ncard hsub (hfinite.image _)).trans
        ((Set.ncard_image_le hfinite).trans hbound)

theorem openConnections_bound (h : SchedulersInv rt s) (host : String) (port : Int) :
    (openConnections s host port).Finite ∧
      (openConnections s host port).ncard ≤ maxConnPerTarget * s.made := by
  classical
  have hfinite := fun i => (openConnections_scheduler h host port i).1
  have hcover : openConnections s host port =
      ((Finset.range s.made).biUnion fun i => (hfinite i).toFinset : Set (Nat × String × Nat)) := by
    ext x
    simp only [Finset.coe_biUnion, Finset.coe_range, Set.mem_Iio, Set.Finite.coe_toFinset,
      Set.mem_iUnion, Set.mem_sep_iff, exists_prop]
    constructor
    · rintro hx
      obtain ⟨p, hp, -⟩ := id hx
      exact ⟨x.1, (h.pools _ _ p hp).old, hx, rfl⟩
    · rintro ⟨i, -, hx, -⟩
      exact hx
  rw [hcover]
  refine ⟨Finset.finite_toSet _, ?_⟩
  rw [Set.ncard_coe_finset, Nat.mul_comm]
  have hcard := Finset.card_biUnion_le_card_mul (Finset.range s.made)
    (fun i => (hfinite i).toFinset) maxConnPerTarget fun i _ => by
      rw [← Set.ncard_eq_toFinset_card _ (hfinite i)]
      exact (openConnections_scheduler h host port i).2
  rwa [Finset.card_range] at hcard

/-! ### Runs -/

/-- The step puts a scheduler in the place of another. -/
def replacesScheduler (s : SchedulersState) : SchedulersStep → Nat
  | .assign _ => if s.scheduler = none then 0 else 1
  | _ => 0

/-- The schedulers made, and the first one as long as there is none. -/
def schedulersDue (s : SchedulersState) : Nat := s.made + if s.scheduler = none then 1 else 0

theorem ensurePool_due (s : SchedulersState) (i : Nat) (host : String) (port : Int) :
    schedulersDue (s.ensurePool i host port) = schedulersDue s := by
  rcases s.ensurePool_cases i host port with hsame | hnew
  · rw [hsame]
  · rw [hnew]
    rfl

theorem due_step {l : SchedulersStep} (hstep : s.step rt l = some s') :
    schedulersDue s' ≤ schedulersDue s + replacesScheduler s l := by
  cases l with
  | check => obtain rfl := SchedulersState.step_check hstep; exact Nat.le_refl _
  | assign t =>
      obtain rfl := SchedulersState.step_assign hstep
      simp only [schedulersDue, replacesScheduler, SchedulersState.goto_made,
        SchedulersState.goto_scheduler, reduceCtorEq, if_false]
      split <;> omega
  | ret => obtain ⟨_, -, rfl⟩ := SchedulersState.step_ret hstep; exact Nat.le_refl _
  | handOver => obtain ⟨_, -, rfl⟩ := SchedulersState.step_handOver hstep; exact Nat.le_refl _
  | getPool t host port =>
      obtain ⟨i, -, rfl⟩ := SchedulersState.step_getPool hstep
      exact Nat.le_of_eq (ensurePool_due s i host port)
  | inPool => obtain ⟨_, _, -, -, rfl⟩ := SchedulersState.step_inPool hstep; exact Nat.le_refl _
  | leave => obtain ⟨_, _, -, rfl⟩ := SchedulersState.step_leave hstep; exact Nat.le_refl _
  | done => obtain rfl := SchedulersState.step_done hstep; exact Nat.le_refl _

theorem target_connections_bounded (rt : Runtime) (host : String) (port : Int)
    {ls : List SchedulersStep} (hs : (schedulersLts rt).init s)
    (hrun : (schedulersLts rt).Run Lts.always s ls s') :
    (openConnections s' host port).Finite ∧
      (openConnections s' host port).ncard ≤
        maxConnPerTarget * (1 + (schedulersLts rt).total replacesScheduler ls s) ∧
      ∀ i p, s'.pools i (poolKey host port) = some p →
        ∀ c < p.state.base.fresh, (p.state.base.clients c).At host port := by
  obtain rfl : s = {} := hs
  have hinv : SchedulersInv rt s' :=
    hrun.invariant (fun _ _ _ h _ hstep => h.step hstep) SchedulersInv.init
  have hdue : (schedulersLts rt).total (fun _ _ => 0) ls {} + schedulersDue s' ≤
      schedulersDue {} + (schedulersLts rt).total replacesScheduler ls {} :=
    hrun.amortized (I := fun _ => True) (fun _ _ _ _ _ _ => trivial)
      (fun _ _ _ _ _ hstep => by simpa using due_step hstep) trivial
  have hmade : s'.made ≤ 1 + (schedulersLts rt).total replacesScheduler ls {} := by
    rw [Lts.total_zero, Nat.zero_add] at hdue
    exact (Nat.le_add_right _ _).trans hdue
  obtain ⟨hfinite, hbound⟩ := openConnections_bound hinv host port
  refine ⟨hfinite, hbound.trans (Nat.mul_le_mul_left _ hmade), fun i p hp => ?_⟩
  have hplaced := hinv.pools i (poolKey host port) p hp
  obtain ⟨rfl, rfl⟩ := poolKey_inj hplaced.key
  exact hplaced.clients

/-! ### Two calls that begin together -/

/-- A thread connects in the pool that it has been given. -/
def connectIn (i t : Nat) : List SchedulersStep :=
  [.getPool t "h" 1, .inPool i "h:1" (.thread t (.call 0 60 60)),
    .inPool i "h:1" (.thread t (.takeSlot 0)), .inPool i "h:1" (.thread t .create),
    .inPool i "h:1" (.thread t (.connected (.ok servingLink.endpoint)))]

/-- Both calls find no scheduler, and the first one has returned its own when the second one
replaces it. -/
def twoSchedulersTrace : List SchedulersStep :=
  [.check 0, .check 1, .assign 0, .ret 0, .assign 1, .ret 1] ++ connectIn 0 0 ++ connectIn 1 1

/-- The state in which both threads have connected. -/
def twoSchedulersEnd : SchedulersState :=
  ((schedulersLts servingRuntime).run twoSchedulersTrace {}).get rfl

theorem target_connections_bounded_overlap :
    (schedulersLts servingRuntime).total replacesScheduler twoSchedulersTrace {} = 1 ∧
      (openConnections twoSchedulersEnd "h" 1).ncard ≤ maxConnPerTarget *
        (1 + (schedulersLts servingRuntime).total replacesScheduler twoSchedulersTrace {}) :=
  ⟨rfl, (target_connections_bounded servingRuntime "h" 1 rfl
    (.of_run (Option.some_get rfl).symm)).2.1⟩

end McpSocketServer
