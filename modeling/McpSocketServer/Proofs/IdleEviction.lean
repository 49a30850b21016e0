import McpSocketServer.Proofs.PoolInvariant
import McpSocketServer.Misc.Watched
import Mathlib.Data.List.TakeWhile

/-!
# Idle eviction

The idle list of a pool is a stack, and under a clock that does not go back its clients are
ordered by the time of their release, the newest on top. `acquire` takes clients off the top
until it finds one that has not expired, so what it has looked at is right: a client that it
reuses was idle for `IDLE_TIMEOUT` at most, and those it found older are closed. What lies
below the client that it reuses it has not looked at. The call leaves no expired client
behind exactly if the newest client has expired as well or no client has, and a load that
needs one client only keeps the others in the list for ever.
-/

namespace McpSocketServer

open TargetPool

variable {κ ω ν : Type} {K : ClientKind κ ω ν}

/-- A connection that has been idle for longer than `IDLE_TIMEOUT` at time `now`. -/
def PooledConn.Expired {κ : Type} (now : Int) (pc : PooledConn κ) : Prop :=
  idleTimeout < now - pc.lastUsed

instance {κ : Type} (now : Int) (pc : PooledConn κ) : Decidable (pc.Expired now) :=
  inferInstanceAs (Decidable (_ < _))

/-- The idle list with the newest connection on top. -/
def NewestFirst {κ : Type} (idle : List (PooledConn κ)) : Prop :=
  idle.Pairwise fun newer older => older.lastUsed ≤ newer.lastUsed

/-- With the newest connection, every connection is within its time. -/
def TopTells {κ : Type} (now : Int) (idle : List (PooledConn κ)) : Prop :=
  ∀ newest ∈ idle.head?, ¬ newest.Expired now → ∀ pc ∈ idle, ¬ pc.Expired now

instance {κ : Type} (now : Int) (idle : List (PooledConn κ)) : Decidable (TopTells now idle) :=
  inferInstanceAs (Decidable (∀ newest ∈ idle.head?, _))

/-! ### One look through the idle list -/

/-- The loop takes out the expired connections on top and the one below them. -/
theorem popIdle_eq {κ : Type} (now : Int) (idle : List (PooledConn κ)) :
    popIdle now idle =
      ⟨(idle.takeWhile fun pc => decide (pc.Expired now)).map PooledConn.client,
        (idle.dropWhile fun pc => decide (pc.Expired now)).head?.map PooledConn.client,
        (idle.dropWhile fun pc => decide (pc.Expired now)).tail⟩ := by
  induction idle with
  | nil => rfl
  | cons pc idle ih =>
      rw [popIdle]
      by_cases hpc : idleTimeout < now - pc.lastUsed
      · have hexpired : decide (pc.Expired now) = true := decide_eq_true hpc
        simp [hpc, ih, hexpired]
      · have hfresh : decide (pc.Expired now) = false := decide_eq_false hpc
        simp [hpc, hfresh]

/-- What is left was in the list. -/
theorem popIdle_subset {κ : Type} (now : Int) (idle : List (PooledConn κ)) :
    (popIdle now idle).idle.Sublist idle := by
  rw [popIdle_eq]
  exact (List.tail_sublist _).trans (List.dropWhile_sublist _)

/-- A client that is reused was within its time. -/
theorem popIdle_reuse {κ : Type} {now : Int} {idle : List (PooledConn κ)} {c : κ}
    (h : (popIdle now idle).reuse = some c) :
    ∃ pc ∈ idle, pc.client = c ∧ ¬ pc.Expired now := by
  rw [popIdle_eq] at h
  obtain ⟨pc, hpc, hclient⟩ := Option.map_eq_some_iff.mp h
  have hfresh := List.head?_dropWhile_not (fun pc => decide (pc.Expired now)) idle
  rw [hpc] at hfresh
  exact ⟨pc, (List.dropWhile_sublist _).subset (List.mem_of_head? hpc), hclient, by
    simpa using hfresh⟩

/-- Under an expired connection there are expired connections only. -/
theorem NewestFirst.expired {κ : Type} {now : Int} {newest : PooledConn κ}
    {idle : List (PooledConn κ)} (h : NewestFirst (newest :: idle)) (hnewest : newest.Expired now) :
    ∀ pc ∈ newest :: idle, pc.Expired now := by
  intro pc hpc
  rcases List.mem_cons.mp hpc with rfl | hpc
  · exact hnewest
  · have hle := (List.pairwise_cons.mp h).1 pc hpc
    unfold PooledConn.Expired at hnewest ⊢
    omega

/-- No expired connection is left exactly if the newest one tells for all. -/
theorem popIdle_left_iff {κ : Type} {now : Int} {idle : List (PooledConn κ)}
    (h : NewestFirst idle) :
    (∀ pc ∈ (popIdle now idle).idle, ¬ pc.Expired now) ↔ TopTells now idle := by
  cases idle with
  | nil => simp [popIdle, TopTells]
  | cons newest idle =>
      by_cases hnewest : newest.Expired now
      · have hall : (popIdle now (newest :: idle)).idle = [] := by
          rw [popIdle_eq, List.dropWhile_eq_nil_iff.mpr fun pc hpc =>
            decide_eq_true (h.expired hnewest pc hpc), List.tail_nil]
        simp [hall, TopTells, hnewest]
      · have hrest : (popIdle now (newest :: idle)).idle = idle := by
          have hfresh : ¬ idleTimeout < now - newest.lastUsed := hnewest
          rw [popIdle, if_neg hfresh]
        simp [hrest, TopTells, hnewest]

/-- All expired connections are taken out if the newest one tells for all. -/
theorem popIdle_expired {κ : Type} {now : Int} {idle : List (PooledConn κ)} {pc : PooledConn κ}
    (h : NewestFirst idle) (htop : TopTells now idle) (hpc : pc ∈ idle)
    (hexpired : pc.Expired now) : pc.client ∈ (popIdle now idle).expired := by
  cases idle with
  | nil => simp at hpc
  | cons newest idle =>
      have hnewest : newest.Expired now := by
        by_contra hfresh
        exact htop newest rfl hfresh pc hpc hexpired
      rw [popIdle_eq, List.takeWhile_eq_self_iff.mpr fun pc hpc =>
        decide_eq_true (h.expired hnewest pc hpc)]
      exact List.mem_map_of_mem hpc

/-! ### The pool under a clock -/

/-- What a step says about idle clients: an `acquire` call of a thread looked through the
idle list at time `now` and took a client to reuse, or a client was closed. -/
inductive PoolNote where
  | scanned (thread : Nat) (now : Int) (idle : List (PooledConn Nat)) (reuse : Option Nat)
  | closed (client : Nat)

/-- The reading of `time.time()` in a step. -/
def clockReading : Nat × PoolStep ω ν → Option Int
  | (_, .call now _ _) | (_, .timeoutError now) | (_, .takeSlot now) | (_, .release now) =>
    some now
  | _ => none

/-- The notes of a step. -/
def poolNote (s : PoolState κ) : Nat × PoolStep ω ν → List PoolNote
  | (t, .takeSlot now) => [.scanned t now s.pool.idle (s.pool.takeSlot now).1.reuse]
  | (t, .evict) | (t, .close) => (s.threads t).dropping.head?.toList.map .closed
  | _ => []

/-- The pool under any number of threads and a clock that does not go back. -/
def timedPool (K : ClientKind κ ω ν) :
    Lts (Watched (PoolState κ) PoolNote) (Nat × PoolStep ω ν) :=
  (poolLts K).watched clockReading poolNote

/-- What is promised of every `acquire` call so far: a client it reused was within its time,
what is idle now was within its time then, and what it found older is closed, or about to be
closed while the call goes on. -/
structure Evicted (w : Watched (PoolState κ) PoolNote) : Prop where
  reused : ∀ {t now idle c}, .scanned t now idle (some c) ∈ w.log →
    ∃ pc ∈ idle, pc.client = c ∧ ¬ pc.Expired now
  left : ∀ {t now idle reuse}, .scanned t now idle reuse ∈ w.log →
    ∀ pc ∈ w.state.pool.idle, ¬ pc.Expired now
  closed : ∀ {t now idle reuse}, .scanned t now idle reuse ∈ w.log →
    ∀ pc ∈ idle, pc.Expired now →
      .closed pc.client ∈ w.log ∨ pc.client ∈ (w.state.threads t).dropping

/-- Every `acquire` call finds the newest idle client expired, or no idle client. -/
def Telling (w : Watched (PoolState κ) PoolNote) : Nat × PoolStep ω ν → Prop
  | (_, .takeSlot now) => TopTells now w.state.pool.idle
  | _ => True

/-! ### What a step does to the idle list and to the clients that are closed -/

variable {s s' : PoolState κ} {t : Nat} {l : PoolStep ω ν}

theorem scanned_poolNote {u : Nat} {now : Int} {idle : List (PooledConn Nat)}
    {reuse : Option Nat} (h : .scanned u now idle reuse ∈ poolNote s (t, l)) :
    l = .takeSlot now ∧ u = t ∧ idle = s.pool.idle ∧
      reuse = (popIdle now s.pool.idle).reuse := by
  cases l with
  | takeSlot now' =>
      obtain ⟨rfl, rfl, rfl, rfl⟩ : u = t ∧ now = now' ∧ idle = s.pool.idle ∧
          reuse = (s.pool.takeSlot now').1.reuse := by simpa [poolNote] using h
      exact ⟨rfl, rfl, rfl, rfl⟩
  | _ => simp [poolNote] at h

/-- A step of an `acquire` call takes connections out, a release of a healthy client puts it
on top, and no other step changes the idle list. -/
theorem idle_step (h : s.step K t l = some s') :
    (∃ now, l = .takeSlot now ∧ s'.pool.idle = (popIdle now s.pool.idle).idle) ∨
    (∃ now c, l = .release now ∧ s'.pool.idle = ⟨c, now⟩ :: s.pool.idle) ∨
    s'.pool.idle = s.pool.idle := by
  cases l with
  | takeSlot now =>
      obtain ⟨_, _, -, -, rfl⟩ := PoolState.step_takeSlot h
      exact .inl ⟨now, rfl, rfl⟩
  | release now =>
      obtain ⟨c, healthy, -, rfl⟩ := PoolState.step_release h
      cases healthy with
      | true => exact .inr (.inl ⟨now, c, rfl, rfl⟩)
      | false => exact .inr (.inr rfl)
  | call =>
      obtain ⟨-, rfl⟩ := PoolState.step_call h
      exact .inr (.inr rfl)
  | timeoutError =>
      obtain ⟨_, _, -, -, rfl⟩ := PoolState.step_timeoutError h
      exact .inr (.inr rfl)
  | evict =>
      obtain ⟨_, _, _, _, -, rfl⟩ := PoolState.step_evict h
      exact .inr (.inr rfl)
  | reuse =>
      obtain ⟨_, _, -, rfl⟩ := PoolState.step_reuse h
      exact .inr (.inr rfl)
  | create =>
      obtain ⟨_, -, rfl⟩ := PoolState.step_create h
      exact .inr (.inr rfl)
  | connected =>
      obtain ⟨_, _, _, -, -, rfl⟩ := PoolState.step_connected h
      exact .inr (.inr rfl)
  | giveSlotBack =>
      obtain ⟨-, rfl⟩ := PoolState.step_giveSlotBack h
      exact .inr (.inr rfl)
  | perform =>
      obtain ⟨_, -, rfl⟩ := PoolState.step_perform h
      exact .inr (.inr rfl)
  | close =>
      obtain ⟨_, -, rfl⟩ := PoolState.step_close h
      exact .inr (.inr rfl)

/-- A client that a step notes as closed is closed by it. -/
theorem closed_poolNote (h : s.step K t l = some s') {c : Nat}
    (hc : .closed c ∈ poolNote s (t, l)) : s'.clients c = K.close (s.clients c) := by
  cases l with
  | evict =>
      obtain ⟨d, expired, reuse, socketTimeout, hph, rfl⟩ := PoolState.step_evict h
      obtain rfl : c = d := by simpa [poolNote, hph, Phase.dropping] using hc
      simp
  | close =>
      obtain ⟨d, hph, rfl⟩ := PoolState.step_close h
      obtain rfl : c = d := by simpa [poolNote, hph, Phase.dropping] using hc
      simp
  | _ => simp [poolNote] at hc

/-- Only a thread that has the client to close closes it. -/
theorem closed_dropping {c : Nat} (hc : .closed c ∈ poolNote s (t, l)) :
    c ∈ (s.threads t).dropping := by
  have hhead : (s.threads t).dropping.head? = some c := by
    cases l with
    | evict => simpa [poolNote] using hc
    | close => simpa [poolNote] using hc
    | _ => simp [poolNote] at hc
  exact List.mem_of_mem_head? hhead

/-- A client that a thread has to close stays with the thread until it is closed. -/
theorem dropping_step (h : s.step K t l = some s') {u c : Nat}
    (hc : c ∈ (s.threads u).dropping) :
    c ∈ (s'.threads u).dropping ∨ .closed c ∈ poolNote s (t, l) := by
  by_cases hu : u = t
  · subst hu
    cases l with
    | evict =>
        obtain ⟨d, expired, reuse, socketTimeout, hph, rfl⟩ := PoolState.step_evict h
        have hcases : c = d ∨ c ∈ expired := by simpa [hph, Phase.dropping] using hc
        rcases hcases with rfl | hc
        · exact .inr (by simp [poolNote, hph, Phase.dropping])
        · exact .inl (by simpa [Phase.dropping] using hc)
    | close =>
        obtain ⟨d, hph, rfl⟩ := PoolState.step_close h
        obtain rfl : c = d := by simpa [hph, Phase.dropping] using hc
        exact .inr (by simp [poolNote, hph, Phase.dropping])
    | call => simp [(PoolState.step_call h).1, Phase.dropping] at hc
    | timeoutError =>
        obtain ⟨_, _, hph, -⟩ := PoolState.step_timeoutError h
        simp [hph, Phase.dropping] at hc
    | takeSlot =>
        obtain ⟨_, _, hph, -⟩ := PoolState.step_takeSlot h
        simp [hph, Phase.dropping] at hc
    | reuse =>
        obtain ⟨_, _, hph, -⟩ := PoolState.step_reuse h
        simp [hph, Phase.dropping] at hc
    | create =>
        obtain ⟨_, hph, -⟩ := PoolState.step_create h
        simp [hph, Phase.dropping] at hc
    | connected =>
        obtain ⟨_, _, _, hph, -⟩ := PoolState.step_connected h
        simp [hph, Phase.dropping] at hc
    | giveSlotBack => simp [(PoolState.step_giveSlotBack h).1, Phase.dropping] at hc
    | perform =>
        obtain ⟨_, hph, -⟩ := PoolState.step_perform h
        simp [hph, Phase.dropping] at hc
    | release =>
        obtain ⟨_, _, hph, -⟩ := PoolState.step_release h
        simp [hph, Phase.dropping] at hc
  · exact .inl (by rwa [PoolState.step_threads h hu])

/-! ### Runs -/

variable {w w' : Watched (PoolState κ) PoolNote}

/-- The idle list is in the order of the releases, nothing is later than the clock, and what
was reused was within its time. -/
structure Aged (w : Watched (PoolState κ) PoolNote) : Prop where
  newestFirst : NewestFirst w.state.pool.idle
  past : ∀ pc ∈ w.state.pool.idle, pc.lastUsed ≤ w.clock
  scanPast : ∀ {t now idle reuse}, .scanned t now idle reuse ∈ w.log → now ≤ w.clock
  reused : ∀ {t now idle c}, .scanned t now idle (some c) ∈ w.log →
    ∃ pc ∈ idle, pc.client = c ∧ ¬ pc.Expired now

theorem Aged.step (h : Aged w) {t : Nat} {l : PoolStep ω ν}
    (hstep : (timedPool K).step w (t, l) = some w') : Aged w' := by
  obtain ⟨hpool, hclock, hreading, hlog⟩ := Lts.step_watched hstep
  change w.state.step K t l = some w'.state at hpool
  have hscan : ∀ {u now idle reuse}, .scanned u now idle reuse ∈ w'.log → now ≤ w'.clock := by
    intro u now idle reuse hu
    rw [hlog] at hu
    rcases List.mem_append.mp hu with hu | hu
    · exact (h.scanPast hu).trans hclock
    · obtain ⟨rfl, -⟩ := scanned_poolNote hu
      exact hreading.ge
  have hreused : ∀ {u now idle c}, .scanned u now idle (some c) ∈ w'.log →
      ∃ pc ∈ idle, pc.client = c ∧ ¬ pc.Expired now := by
    intro u now idle c hu
    rw [hlog] at hu
    rcases List.mem_append.mp hu with hu | hu
    · exact h.reused hu
    · obtain ⟨-, -, rfl, hreuse⟩ := scanned_poolNote hu
      exact popIdle_reuse hreuse.symm
  rcases idle_step hpool with ⟨now, rfl, hidle⟩ | ⟨now, c, rfl, hidle⟩ | hidle
  · have hsub := popIdle_subset now w.state.pool.idle
    exact {
      newestFirst := hidle ▸ h.newestFirst.sublist hsub
      past := fun pc hpc => (h.past pc (hsub.subset (hidle ▸ hpc))).trans hclock
      scanPast := hscan
      reused := hreused }
  · -- the clock has reached the time at which the client is put on top
    have hnow : w'.clock = now := hreading
    exact {
      newestFirst := by
        rw [hidle]
        exact List.pairwise_cons.mpr
          ⟨fun pc hpc => (h.past pc hpc).trans (hclock.trans hnow.le), h.newestFirst⟩
      past := fun pc hpc => by
        rw [hidle] at hpc
        rcases List.mem_cons.mp hpc with rfl | hpc
        · exact hnow.ge
        · exact (h.past pc hpc).trans hclock
      scanPast := hscan
      reused := hreused }
  · exact {
      newestFirst := hidle ▸ h.newestFirst
      past := fun pc hpc => (h.past pc (hidle ▸ hpc)).trans hclock
      scanPast := hscan
      reused := hreused }

theorem aged_invariant (C : Watched (PoolState κ) PoolNote → Nat × PoolStep ω ν → Prop) :
    (timedPool K).Invariant C Aged where
  init w hw := by
    obtain ⟨⟨hpool, -, -⟩, hlog⟩ := hw
    exact {
      newestFirst := hpool ▸ List.Pairwise.nil
      past := fun pc hpc => absurd hpc (by simp [hpool])
      scanPast := fun hu => absurd hu (by simp [hlog])
      reused := fun hu => absurd hu (by simp [hlog]) }
  step _ _ _ _ h _ hstep := h.step hstep

theorem Evicted.step (h : Evicted w) (haged : Aged w) {t : Nat} {l : PoolStep ω ν}
    (htell : Telling w (t, l)) (hstep : (timedPool K).step w (t, l) = some w') : Evicted w' := by
  obtain ⟨hpool, hclock, hreading, hlog⟩ := Lts.step_watched hstep
  change w.state.step K t l = some w'.state at hpool
  -- what an earlier call found older is closed, still with its thread, or closed by this step
  have hkept : ∀ {u c}, .closed c ∈ w.log ∨ c ∈ (w.state.threads u).dropping →
      .closed c ∈ w'.log ∨ c ∈ (w'.state.threads u).dropping := by
    intro u c hc
    rw [hlog]
    rcases hc with hc | hc
    · exact .inl (List.mem_append_left _ hc)
    · rcases dropping_step hpool hc with hc | hc
      · exact .inr hc
      · exact .inl (List.mem_append_right _ hc)
  have hsplit : ∀ {u now idle reuse}, .scanned u now idle reuse ∈ w'.log →
      .scanned u now idle reuse ∈ w.log ∨
        (l = .takeSlot now ∧ u = t ∧ idle = w.state.pool.idle ∧
          reuse = (popIdle now w.state.pool.idle).reuse) := by
    intro u now idle reuse hu
    rw [hlog] at hu
    exact (List.mem_append.mp hu).imp_right scanned_poolNote
  refine ⟨(haged.step hstep).reused, fun hu pc hpc => ?_, fun hu pc hpc hexpired => ?_⟩
  · rcases hsplit hu with hu | ⟨rfl, -, rfl, -⟩
    · rcases idle_step hpool with ⟨now, rfl, hidle⟩ | ⟨now, c, rfl, hidle⟩ | hidle
      · exact h.left hu pc ((popIdle_subset now _).subset (hidle ▸ hpc))
      · rw [hidle] at hpc
        rcases List.mem_cons.mp hpc with rfl | hpc
        · -- a client released after the call has been idle for no time before it
          have hscan := (haged.scanPast hu).trans hclock
          have hnow : w'.clock = now := hreading
          unfold PooledConn.Expired idleTimeout
          dsimp only
          omega
        · exact h.left hu pc hpc
      · exact h.left hu pc (hidle ▸ hpc)
    · obtain ⟨_, _, -, -, hs'⟩ := PoolState.step_takeSlot hpool
      rw [hs'] at hpc
      exact (popIdle_left_iff haged.newestFirst).mpr htell pc hpc
  · rcases hsplit hu with hu | ⟨rfl, rfl, rfl, -⟩
    · exact hkept (h.closed hu pc hpc hexpired)
    · obtain ⟨_, _, -, -, hs'⟩ := PoolState.step_takeSlot hpool
      right
      rw [hs']
      simpa [Phase.dropping, TargetPool.takeSlot] using popIdle_expired haged.newestFirst htell hpc hexpired

theorem evicted_invariant : (timedPool K).Invariant Telling Evicted where
  init w hw := by
    have hlog : w.log = [] := hw.2
    refine ⟨fun hu => ?_, fun hu => ?_, fun hu => ?_⟩ <;>
    · rw [hlog] at hu
      simp at hu
  step _ _ _ hr h htell hstep := h.step ((aged_invariant _).reachable hr) htell hstep

/-- What has been noted as closed is out of circulation and as `close` has left it. -/
def Shut (K : ClientKind κ ω ν) (w : Watched (PoolState κ) PoolNote) : Prop :=
  ∀ c, .closed c ∈ w.log → Outside w.state c ∧ ∃ client, w.state.clients c = K.close client

theorem shut_invariant (C : Watched (PoolState κ) PoolNote → Nat × PoolStep ω ν → Prop) :
    (timedPool K).Invariant C (Shut K) where
  init w hw c hc := by
    have hlog : w.log = [] := hw.2
    rw [hlog] at hc
    cases hc
  step w l w' hr h _ hstep c hc := by
    obtain ⟨t, l⟩ := l
    obtain ⟨hpool, -, -, hlog⟩ := Lts.step_watched hstep
    change w.state.step K t l = some w'.state at hpool
    rw [hlog] at hc
    rcases List.mem_append.mp hc with hc | hc
    · -- closed before: nothing but another `close` can happen to it
      obtain ⟨hout, client, hclient⟩ := h c hc
      refine ⟨hout.step hpool, ?_⟩
      rcases hout.client hpool with hsame | hclosed
      · exact ⟨client, hsame.trans hclient⟩
      · exact ⟨_, hclosed⟩
    · have hdropped := (dropped_invariant (K := K) Lts.always).reachable hr.unwatched
      have hmine : c ∈ (w.state.threads t).dropping := closed_dropping hc
      have hout : Outside w.state c := hdropped t c hmine
      exact ⟨hout.step hpool, _, closed_poolNote hpool hc⟩

/-- Whatever has happened to the pool before, an `acquire` call leaves no expired client in
the idle list exactly if the client released last has expired or no client has. -/
theorem takeSlot_left_iff {C : Watched (PoolState κ) PoolNote → Nat × PoolStep ω ν → Prop}
    (hw : (timedPool K).Reachable C w) {now : Int}
    (hstep : (timedPool K).step w (t, .takeSlot now) = some w') :
    (∀ pc ∈ w'.state.pool.idle, ¬ pc.Expired now) ↔ TopTells now w.state.pool.idle := by
  have hpool : w.state.step K t (.takeSlot now) = some w'.state := (Lts.step_watched hstep).1
  obtain ⟨_, _, -, -, hs'⟩ := PoolState.step_takeSlot hpool
  rw [hs']
  exact popIdle_left_iff ((aged_invariant C).reachable hw).newestFirst

/-! ### The eviction -/

/-- As long as every `acquire` call finds the newest idle client expired or none, a reused
client was within its time, no idle client is older than `IDLE_TIMEOUT` after a call, and
all that were are closed and stay so. -/
theorem idle_evicted (h : (timedPool K).Reachable Telling w) :
    Evicted w ∧ ∀ c, .closed c ∈ w.log →
      c ∉ idleClients w.state ∧ (∀ t, (w.state.threads t).held ≠ some c) ∧
        ∃ client, w.state.clients c = K.close client := by
  refine ⟨evicted_invariant.reachable h, fun c hc => ?_⟩
  obtain ⟨⟨-, hidle, hfree⟩, hclient⟩ := (shut_invariant Telling).reachable h c hc
  exact ⟨hidle, hfree, hclient⟩

/-- Clients 0 and 1 are connected and idle since time 0. -/
def bothReleased : List (Nat × PoolStep Bool Bool) :=
  [(0, .call 0 10 30), (0, .takeSlot 0), (0, .create), (0, .connected true), (0, .perform true),
    (1, .call 0 10 30), (1, .takeSlot 0), (1, .create), (1, .connected true), (1, .perform true),
    (0, .release 0), (1, .release 0)]

/-- The pool of plain clients before any call. -/
def restingPool : Watched (PoolState Unit) PoolNote := ⟨{ clients := fun _ => () }, 0, []⟩

theorem restingPool_init : (timedPool plainClients).init restingPool :=
  ⟨⟨rfl, rfl, fun _ => rfl⟩, rfl⟩

instance (w : Watched (PoolState κ) PoolNote) (l : Nat × PoolStep ω ν) :
    Decidable (Telling w l) :=
  match l with
  | (_, .takeSlot now) => inferInstanceAs (Decidable (TopTells now w.state.pool.idle))
  | (_, .call ..) | (_, .timeoutError _) | (_, .evict) | (_, .reuse) | (_, .create)
  | (_, .connected _) | (_, .giveSlotBack) | (_, .perform _) | (_, .release _) | (_, .close) =>
    .isTrue trivial

/-- After more than the idle timeout, `acquire` closes both clients and connects anew. -/
def quietTrace : List (Nat × PoolStep Bool Bool) :=
  bothReleased ++
    [(0, .call 700000 10 30), (0, .takeSlot 700000), (0, .evict), (0, .evict), (0, .create)]

/-- The state in which both are closed. -/
def quietTraceEnd : Watched (PoolState Unit) PoolNote :=
  ((timedPool plainClients).runWhen Telling quietTrace restingPool).get rfl

theorem quietTraceEnd_reachable : (timedPool plainClients).Reachable Telling quietTraceEnd :=
  .of_runWhen (.init restingPool_init) (Option.some_get rfl).symm

theorem quietTraceEnd_log : quietTraceEnd.log = [.scanned 0 0 [] none, .scanned 1 0 [] none,
    .scanned 0 700000 [⟨1, 0⟩, ⟨0, 0⟩] none, .closed 1, .closed 0] := rfl

theorem idle_evicted_witness :
    .scanned 0 700000 [⟨1, 0⟩, ⟨0, 0⟩] none ∈ quietTraceEnd.log ∧
      (.closed 0 ∈ quietTraceEnd.log ∨ 0 ∈ (quietTraceEnd.state.threads 0).dropping) := by
  have hscan : .scanned 0 700000 [⟨1, 0⟩, ⟨0, 0⟩] none ∈ quietTraceEnd.log := by
    simp [quietTraceEnd_log]
  exact ⟨hscan,
    (idle_evicted quietTraceEnd_reachable).1.closed hscan ⟨0, 0⟩ (by simp) (by decide)⟩

/-- Client 1 is used in time, and once more when client 0 has expired. -/
def busyTrace : List (Nat × PoolStep Bool Bool) :=
  bothReleased ++
    [(0, .call 500000 10 30), (0, .takeSlot 500000), (0, .reuse), (0, .perform true),
      (0, .release 500000), (0, .call 700000 10 30), (0, .takeSlot 700000), (0, .reuse)]

/-- The state after the second use. -/
def busyTraceEnd : Watched (PoolState Unit) PoolNote :=
  ((timedPool plainClients).run busyTrace restingPool).get rfl

theorem busyTraceEnd_reachable : (timedPool plainClients).Reachable Lts.always busyTraceEnd :=
  .of_run (.init restingPool_init) (Option.some_get rfl).symm

theorem busyTraceEnd_log : busyTraceEnd.log = [.scanned 0 0 [] none, .scanned 1 0 [] none,
    .scanned 0 500000 [⟨1, 0⟩, ⟨0, 0⟩] (some 1),
    .scanned 0 700000 [⟨1, 500000⟩, ⟨0, 0⟩] (some 1)] := rfl

/-- Client 0 stays idle: the call at time 700000 looks at client 1 only. -/
theorem expired_left_behind :
    ¬ ∀ w, (timedPool plainClients).Reachable Lts.always w → Evicted w := by
  intro h
  have hscan : .scanned 0 700000 [⟨1, 500000⟩, ⟨0, 0⟩] (some 1) ∈ busyTraceEnd.log := by
    simp [busyTraceEnd_log]
  have hidle : busyTraceEnd.state.pool.idle = [⟨0, 0⟩] := rfl
  exact (h _ busyTraceEnd_reachable).left hscan ⟨0, 0⟩ (by simp [hidle]) (by decide)

end McpSocketServer
