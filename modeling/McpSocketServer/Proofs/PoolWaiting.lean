import McpSocketServer.Proofs.PoolInvariant
import Mathlib.Algebra.BigOperators.Group.Finset.Basic

/-!
# Waiting for a connection

A thread that finds the pool full sleeps on the condition variable until a connection is
given back or its deadline passes. Nobody sleeps while there is a free slot, and the callers
that are in the pool get through it without the help of any deadline: whatever the schedule,
after a bounded number of steps all of them have returned.
-/

namespace McpSocketServer

open TargetPool

variable {κ ω ν : Type} {K : ClientKind κ ω ν}

/-- A thread in the loop of `acquire`. -/
def InLoop (s : PoolState κ) (t : Nat) : Prop :=
  ∃ deadline socketTimeout, s.threads t = .waiting deadline socketTimeout

theorem patient_inLoop (s : PoolState κ) (t : Nat) (now : Int) (h : s.patient t now = true) :
    InLoop s t := by
  cases hph : s.threads t <;> simp [PoolState.patient, hph] at h
  exact ⟨_, _, hph⟩

theorem inLoop_step (s : PoolState κ) (l : Nat × PoolStep ω ν) (s' : PoolState κ) (t : Nat)
    (h : (poolLts K).step s l = some s') (ht : t ≠ l.1) (hloop : InLoop s t) : InLoop s' t := by
  obtain ⟨deadline, socketTimeout, hph⟩ := hloop
  exact ⟨deadline, socketTimeout, (PoolState.step_threads h ht).trans hph⟩

/-! ### No lost wakeup -/

/-- A full pool stays full until a step notifies. -/
theorem full_step {s s' : PoolState κ} {t : Nat} {l : PoolStep ω ν}
    (h : s.step K t l = some s') (hl : l.notifies = false) (hfull : s.pool.full) :
    s'.pool.full := by
  cases l with
  | call => obtain ⟨-, rfl⟩ := PoolState.step_call h; exact hfull
  | timeoutError => obtain ⟨_, _, -, -, rfl⟩ := PoolState.step_timeoutError h; exact hfull
  | takeSlot => obtain ⟨_, _, -, hfree, -⟩ := PoolState.step_takeSlot h; exact absurd hfull hfree
  | evict => obtain ⟨_, _, _, _, -, rfl⟩ := PoolState.step_evict h; exact hfull
  | reuse => obtain ⟨_, _, -, rfl⟩ := PoolState.step_reuse h; exact hfull
  | create => obtain ⟨_, -, rfl⟩ := PoolState.step_create h; exact hfull
  | connected => obtain ⟨_, _, _, -, -, rfl⟩ := PoolState.step_connected h; exact hfull
  | giveSlotBack => cases hl
  | perform => obtain ⟨_, -, rfl⟩ := PoolState.step_perform h; exact hfull
  | release => cases hl
  | close => obtain ⟨_, -, rfl⟩ := PoolState.step_close h; exact hfull

/-- In a full pool all connections are borrowed and none is idle. -/
theorem full_spent {s : PoolState κ} (h : (poolLts K).Reachable Lts.always s)
    (hfull : s.pool.full) : s.pool.inuse = maxConnPerTarget ∧ s.pool.idle = [] := by
  have hbound := ((poolInv_invariant Lts.always).reachable h).bound
  rw [TargetPool.full] at hfull
  have hlen : s.pool.idle.length = 0 := by omega
  exact ⟨by omega, List.length_eq_zero_iff.mp hlen⟩

/-- A thread that sleeps is in the loop, and all connections are borrowed. -/
theorem asleep_spent {w : Monitored (PoolState κ)}
    (hw : (poolMonitor K).lts.Reachable Lts.always w) {t : Nat} (ht : w.asleep t = true) :
    InLoop w.state t ∧ w.state.pool.inuse = maxConnPerTarget ∧ w.state.pool.idle = [] ∧
      Census (fun ph => Phase.active ph = true) w.state.threads maxConnPerTarget := by
  have hreach : (poolLts K).Reachable Lts.always w.state := Monitor.forget hw
  have hloop : InLoop w.state t := Monitor.asleep_waiting patient_inLoop inLoop_step hw ht
  have hready : (poolMonitor K).ready w.state = false :=
    Monitor.asleep_not_ready (fun _ _ _ _ hstep hl hs => by
      simp only [poolMonitor, Bool.not_eq_false', decide_eq_true_eq] at hs hl ⊢
      exact full_step hstep hl hs) hw ht
  have hfull : w.state.pool.full := by
    simpa only [poolMonitor, Bool.not_eq_false', decide_eq_true_eq] using hready
  obtain ⟨hinuse, hidle⟩ := full_spent hreach hfull
  obtain ⟨m, hm, hcensus⟩ := ((poolInv_invariant Lts.always).reachable hreach).counted
  have hmax : m = maxConnPerTarget := by omega
  exact ⟨hloop, hinuse, hidle, hmax ▸ hcensus⟩

/-- The condition variable changes nothing that the threads of a pool do, and whenever a thread
sleeps on it, all connections are borrowed. -/
theorem sleepers_wait_for_borrowers :
    (∀ s : PoolState κ, (poolLts K).Reachable Lts.always s ↔
      ∃ w, (poolMonitor K).lts.Reachable Lts.always w ∧ w.state = s) ∧
    ∀ w : Monitored (PoolState κ), (poolMonitor K).lts.Reachable Lts.always w →
      ∀ t, w.asleep t = true → InLoop w.state t ∧ w.state.pool.inuse = maxConnPerTarget ∧
        w.state.pool.idle = [] ∧
        Census (fun ph => Phase.active ph = true) w.state.threads maxConnPerTarget :=
  ⟨fun _ => ⟨fun h => ⟨_, Monitor.lift h, rfl⟩, fun ⟨_, hw, hs⟩ => hs ▸ Monitor.forget hw⟩,
    fun _ hw _ ht => asleep_spent hw ht⟩

/-! ### Everybody gets through -/

/-- The steps by which the callers in the pool are served: no new call, and nobody gives up. -/
def Serving (l : Nat × PoolStep ω ν) : Prop :=
  match l.2 with
  | .call _ _ _ | .timeoutError _ => False
  | _ => True

/-- How many steps a thread has before it, apart from the closing of expired connections that
are still in the idle list. -/
def Phase.toGo : Phase → Nat
  | .out => 0
  | .waiting _ _ => 7
  | .evicting expired _ _ => 6 + expired.length
  | .connecting _ => 5
  | .borrowed _ => 4
  | .used _ _ => 3
  | .connectFailed | .closing _ => 1

/-- What the first `n` threads have before them. -/
def stepsToGo (n : Nat) (s : PoolState κ) : Nat :=
  s.pool.idle.length + ∑ t ∈ Finset.range n, (s.threads t).toGo

/-- Only the first `n` threads are in the pool. -/
def Within (n : Nat) (s : PoolState κ) : Prop := ∀ t, n ≤ t → s.threads t = .out

/-- A thread outside can only call. -/
theorem serving_not_out {s s' : PoolState κ} {t : Nat} {l : PoolStep ω ν}
    (h : s.step K t l = some s') (hl : Serving (t, l)) : s.threads t ≠ .out := by
  intro hout
  cases l with
  | call => exact hl
  | timeoutError => exact hl
  | takeSlot => obtain ⟨_, _, hph, -⟩ := PoolState.step_takeSlot h; rw [hout] at hph; cases hph
  | evict => obtain ⟨_, _, _, _, hph, -⟩ := PoolState.step_evict h; rw [hout] at hph; cases hph
  | reuse => obtain ⟨_, _, hph, -⟩ := PoolState.step_reuse h; rw [hout] at hph; cases hph
  | create => obtain ⟨_, hph, -⟩ := PoolState.step_create h; rw [hout] at hph; cases hph
  | connected =>
      obtain ⟨_, _, _, hph, -⟩ := PoolState.step_connected h; rw [hout] at hph; cases hph
  | giveSlotBack =>
      obtain ⟨hph, -⟩ := PoolState.step_giveSlotBack h; rw [hout] at hph; cases hph
  | perform => obtain ⟨_, hph, -⟩ := PoolState.step_perform h; rw [hout] at hph; cases hph
  | release => obtain ⟨_, _, hph, -⟩ := PoolState.step_release h; rw [hout] at hph; cases hph
  | close => obtain ⟨_, hph, -⟩ := PoolState.step_close h; rw [hout] at hph; cases hph

theorem Within.step {n : Nat} {s s' : PoolState κ} {t : Nat} {l : PoolStep ω ν}
    (hn : Within n s) (h : s.step K t l = some s') (hl : Serving (t, l)) : Within n s' := by
  intro u hu
  have hne : u ≠ t := fun heq => serving_not_out h hl (heq ▸ hn u hu)
  rw [PoolState.step_threads h hne]
  exact hn u hu

/-- One thread moves on. -/
theorem sum_toGo_update {n t : Nat} (ht : t < n) (threads : Nat → Phase) (ph : Phase) :
    (∑ u ∈ Finset.range n, (Function.update threads t ph u).toGo) + (threads t).toGo =
      (∑ u ∈ Finset.range n, (threads u).toGo) + ph.toGo := by
  have hmem : t ∈ Finset.range n := Finset.mem_range.mpr ht
  have hrest : ∑ u ∈ (Finset.range n).erase t, (Function.update threads t ph u).toGo =
      ∑ u ∈ (Finset.range n).erase t, (threads u).toGo :=
    Finset.sum_congr rfl fun u hu => by
      rw [Function.update_of_ne (Finset.ne_of_mem_erase hu)]
  rw [← Finset.add_sum_erase _ _ hmem, hrest, Function.update_self,
    ← Finset.add_sum_erase _ (fun u => (threads u).toGo) hmem]
  omega

/-- A thread moves on to a phase with less before it. -/
theorem stepsToGo_lt {n t : Nat} {s s' : PoolState κ} {ph : Phase} (ht : t < n)
    (hthreads : s'.threads = Function.update s.threads t ph)
    (hless : s'.pool.idle.length + ph.toGo < s.pool.idle.length + (s.threads t).toGo) :
    stepsToGo n s' < stepsToGo n s := by
  have hsum := sum_toGo_update ht s.threads ph
  rw [stepsToGo, stepsToGo, hthreads]
  omega

/-- What a slot takes out of the idle list is at most what was in it. -/
theorem takeSlot_length (p : TargetPool Nat) (now : Int) :
    (p.takeSlot now).2.idle.length + (p.takeSlot now).1.expired.length ≤ p.idle.length := by
  have hlen := congrArg List.length (popIdle_clients now p.idle)
  simp only [List.length_map, List.length_append] at hlen
  simp only [takeSlot]
  omega

/-- Every step that serves a caller lowers the measure. -/
theorem stepsToGo_step {n : Nat} {s s' : PoolState κ} {t : Nat} {l : PoolStep ω ν}
    (hn : Within n s) (h : s.step K t l = some s') (hl : Serving (t, l)) :
    stepsToGo n s' < stepsToGo n s := by
  have ht : t < n := by
    by_contra hge
    exact serving_not_out h hl (hn t (Nat.le_of_not_lt hge))
  cases l with
  | call => exact absurd hl id
  | timeoutError => exact absurd hl id
  | takeSlot now =>
      obtain ⟨_, _, hph, -, rfl⟩ := PoolState.step_takeSlot h
      refine stepsToGo_lt ht rfl ?_
      have hlen := takeSlot_length s.pool now
      simp only [hph, Phase.toGo, PoolState.goto_pool]
      omega
  | evict =>
      obtain ⟨_, expired, _, _, hph, rfl⟩ := PoolState.step_evict h
      refine stepsToGo_lt ht rfl ?_
      simp [hph, Phase.toGo]
  | reuse =>
      obtain ⟨_, _, hph, rfl⟩ := PoolState.step_reuse h
      refine stepsToGo_lt ht rfl ?_
      simp [hph, Phase.toGo]
  | create =>
      obtain ⟨_, hph, rfl⟩ := PoolState.step_create h
      refine stepsToGo_lt ht rfl ?_
      simp [hph, Phase.toGo]
  | connected =>
      obtain ⟨_, r, _, hph, -, rfl⟩ := PoolState.step_connected h
      refine stepsToGo_lt ht rfl ?_
      rcases r with e | u <;> simp [hph, Phase.toGo]
  | giveSlotBack =>
      obtain ⟨hph, rfl⟩ := PoolState.step_giveSlotBack h
      refine stepsToGo_lt ht rfl ?_
      simp [hph, Phase.toGo, TargetPool.giveSlotBack]
  | perform =>
      obtain ⟨_, hph, rfl⟩ := PoolState.step_perform h
      refine stepsToGo_lt ht rfl ?_
      simp [hph, Phase.toGo]
  | release =>
      obtain ⟨_, healthy, hph, rfl⟩ := PoolState.step_release h
      refine stepsToGo_lt ht rfl ?_
      cases healthy <;> simp [hph, Phase.toGo, TargetPool.release, TargetPool.giveSlotBack]
  | close =>
      obtain ⟨_, hph, rfl⟩ := PoolState.step_close h
      refine stepsToGo_lt ht rfl ?_
      simp [hph, Phase.toGo]

/-- The callers in the pool settle. -/
theorem poolMonitor_settles (n : Nat) :
    (poolMonitor K).Settles Serving (Within n) (stepsToGo n) n where
  keeps _ _ _ hn hl h := hn.step h hl
  falls _ _ _ hn hl h := stepsToGo_step hn h hl
  few s t now hn h := by
    obtain ⟨_, _, hph⟩ := patient_inLoop s t now h
    by_contra hge
    rw [hn t (Nat.le_of_not_lt hge)] at hph
    cases hph

/-- Only finitely many threads are in the pool. -/
theorem exists_within {s : PoolState κ} (h : (poolLts K).Reachable Lts.always s) :
    ∃ n, Within n s := by
  induction h with
  | init hs => exact ⟨0, fun t _ => hs.2.2 t⟩
  | @step s s' l _ _ hstep ih =>
      obtain ⟨n, hn⟩ := ih
      refine ⟨max n (l.1 + 1), fun t ht => ?_⟩
      rw [PoolState.step_threads hstep (by omega)]
      exact hn t (by omega)

/-- A thread that is in the pool and not in the loop can go on. -/
theorem serving_enabled [Nonempty ω] [Nonempty ν] {s : PoolState κ} {t : Nat}
    (hin : s.threads t ≠ .out) (hloop : ¬ InLoop s t) :
    ∃ l : PoolStep ω ν, Serving (t, l) ∧ (s.step K t l).isSome := by
  obtain ⟨outcome⟩ := ‹Nonempty ω›
  obtain ⟨work⟩ := ‹Nonempty ν›
  rcases hph : s.threads t with _ | ⟨deadline, socketTimeout⟩ |
    ⟨_ | ⟨c, expired⟩, _ | reuse, socketTimeout⟩ | c | _ | c | ⟨c, healthy⟩ | c
  · exact absurd hph hin
  · exact absurd ⟨deadline, socketTimeout, hph⟩ hloop
  · exact ⟨.create, trivial, by simp [PoolState.step, hph]⟩
  · exact ⟨.reuse, trivial, by simp [PoolState.step, hph]⟩
  · exact ⟨.evict, trivial, by simp [PoolState.step, hph]⟩
  · exact ⟨.evict, trivial, by simp [PoolState.step, hph]⟩
  · refine ⟨.connected outcome, trivial, ?_⟩
    rcases hr : K.connect (s.clients c) outcome with ⟨e | u, client⟩ <;>
      simp [PoolState.step, hph, hr]
  · exact ⟨.giveSlotBack, trivial, by simp [PoolState.step, hph]⟩
  · exact ⟨.perform work, trivial, by simp [PoolState.step, hph]⟩
  · exact ⟨.release 0, trivial, by simp [PoolState.step, hph]⟩
  · exact ⟨.close, trivial, by simp [PoolState.step, hph]⟩

/-- A move of a thread that is awake. -/
theorem move_isSome {w : Monitored (PoolState κ)} {t : Nat} {l : PoolStep ω ν}
    (hawake : w.asleep t = false) (h : (w.state.step K t l).isSome) :
    ((poolMonitor K).lts.step w (.move (t, l))).isSome := by
  obtain ⟨s, hs⟩ := Option.isSome_iff_exists.mp h
  simp [Monitor.lts, poolMonitor, poolLts, hawake, hs]

/-- Where somebody is in the pool, somebody can go on. -/
theorem somebody_moves [Nonempty ω] [Nonempty ν] {w : Monitored (PoolState κ)}
    (hw : (poolMonitor K).lts.Reachable Lts.always w) {t : Nat} (hin : w.state.threads t ≠ .out) :
    ∃ l : MonitorStep (Nat × PoolStep ω ν) Int, Monitor.Calm Serving l ∧
      ((poolMonitor K).lts.step w l).isSome := by
  by_cases hasleep : w.asleep t = true
  · -- all connections are borrowed, and a borrower is awake
    obtain ⟨-, -, -, hcensus⟩ := asleep_spent hw hasleep
    obtain ⟨u, hu⟩ : ∃ u, (w.state.threads u).active = true := by
      by_contra hnone
      have hzero := Census.of_forall_not (p := fun ph => Phase.active ph = true)
        (f := w.state.threads) fun u hu => hnone ⟨u, hu⟩
      exact absurd (hcensus.unique hzero) (by decide)
    have hloop : ¬ InLoop w.state u := fun ⟨_, _, hph⟩ => by rw [hph] at hu; cases hu
    have hawake : w.asleep u = false := by
      by_contra hne
      exact hloop (asleep_spent hw (Bool.eq_true_of_not_eq_false hne)).1
    obtain ⟨l, hl, hsome⟩ := serving_enabled (K := K)
      (fun hout => by rw [hout] at hu; cases hu) hloop
    exact ⟨.move (u, l), hl, move_isSome hawake hsome⟩
  · have hawake : w.asleep t = false := Bool.eq_false_of_not_eq_true hasleep
    by_cases hloop : InLoop w.state t
    · obtain ⟨deadline, socketTimeout, hph⟩ := hloop
      by_cases hfull : w.state.pool.full
      · refine ⟨.sleep t (deadline - 1), trivial, ?_⟩
        simp [Monitor.lts, poolMonitor, PoolState.patient, hawake, hph, hfull]
      · refine ⟨.move (t, .takeSlot 0), trivial, move_isSome hawake ?_⟩
        simp [PoolState.step, hph, hfull]
    · obtain ⟨l, hl, hsome⟩ := serving_enabled (K := K) hin hloop
      exact ⟨.move (t, l), hl, move_isSome hawake hsome⟩

/-- From every state that the pool reaches, each schedule of the threads in it comes to an end
within a bound, and where nothing is left to do everybody has returned, although no wait ended
by its deadline and nobody gave up. -/
theorem borrowers_served [Nonempty ω] [Nonempty ν] {w : Monitored (PoolState κ)}
    (hw : (poolMonitor K).lts.Reachable Lts.always w) :
    ∃ bound : Nat, ∀ (ls : List (MonitorStep (Nat × PoolStep ω ν) Int)) w',
      (∀ l ∈ ls, Monitor.Calm Serving l) → (poolMonitor K).lts.run ls w = some w' →
      ls.length ≤ bound ∧
        ((∀ l, Monitor.Calm Serving l → (poolMonitor K).lts.step w' l = none) →
          ∀ t, w'.state.threads t = .out) := by
  obtain ⟨n, hn⟩ := exists_within (Monitor.forget hw)
  refine ⟨(n + 1) * stepsToGo n w.state + Monitor.awake n w.asleep, fun ls w' hls hrun => ?_⟩
  refine ⟨?_, fun hstuck t => ?_⟩
  · have hbound := ((poolMonitor_settles n).run_length hls hn hrun).2
    omega
  · by_contra hin
    obtain ⟨l, hl, hsome⟩ := somebody_moves (hw.of_run hrun) hin
    rw [hstuck l hl] at hsome
    cases hsome

/-- Five threads hold a connection each, and a sixth sleeps. -/
def crowdedTrace : List (MonitorStep (Nat × PoolStep Bool Bool) Int) :=
  ((List.range 5).flatMap fun t =>
    [.move (t, .call 0 10 30), .move (t, .takeSlot 0), .move (t, .create),
      .move (t, .connected true)]) ++ [.move (5, .call 1 10 30), .sleep 5 2]

/-- The state in which it sleeps. -/
def crowded : Monitored (PoolState Unit) :=
  ((poolMonitor plainClients).lts.run crowdedTrace { state := { clients := fun _ => () } }).get rfl

theorem crowded_reachable : (poolMonitor plainClients).lts.Reachable Lts.always crowded :=
  .of_run (.init ⟨⟨rfl, rfl, fun _ => rfl⟩, fun _ => rfl⟩) (Option.some_get rfl).symm

theorem sleepers_wait_for_borrowers_crowded :
    crowded.asleep 5 = true ∧ crowded.state.pool.inuse = maxConnPerTarget :=
  ⟨rfl, (sleepers_wait_for_borrowers.2 crowded crowded_reachable 5 rfl).2.1⟩

theorem borrowers_served_crowded :
    ∃ bound : Nat, ∀ (ls : List (MonitorStep (Nat × PoolStep Bool Bool) Int)) w',
      (∀ l ∈ ls, Monitor.Calm Serving l) → (poolMonitor plainClients).lts.run ls crowded = some w' →
      ls.length ≤ bound ∧
        ((∀ l, Monitor.Calm Serving l → (poolMonitor plainClients).lts.step w' l = none) →
          ∀ t, w'.state.threads t = .out) :=
  borrowers_served crowded_reachable

end McpSocketServer
