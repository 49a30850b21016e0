import McpSocketServer.Proofs.WorkersInvariant
import Mathlib.Data.List.GetD
import Mathlib.Data.List.Induction
import Mathlib.Data.List.Nodup

/-!
# One call alone

The workers of a single `_run_batch` call in the thread pool that the call makes for itself,
while no other call runs. They get in each other's way exactly when the resolved list names a
target twice.
-/

namespace McpSocketServer

open WorkersState

/-- The work of one `_run_batch` call: a worker for each resolved target, in this order. -/
def batchJobs (resolved : List String) (port : Int) (cls : LockClass) (keyOf : String → CapKey)
    (w : Nat) : Job :=
  .runBatch (resolved.getD w "") port cls (keyOf (resolved.getD w ""))

/-- `max_workers` of the executor for `n` targets: `min(50, len(resolved) or 1)`. -/
def maxWorkers (n : Nat) : Nat := min 50 (max n 1)

/-- The workers of the first `n` jobs that have begun and not ended. -/
def busy (n : Nat) (s : WorkersState) : Nat :=
  ((List.range n).filter fun w => !(s.stage w).finished).length

/-- A step of a call on `n` targets: the executor begins its tasks in order, each in a free
thread. -/
def OfCall (n : Nat) (s : WorkersState) (l : Nat × WorkerStep) : Prop :=
  l.1 < n ∧ (l.2 = .call → (∀ v < l.1, s.stage v ≠ .notCalled) ∧ busy n s < maxWorkers n)

/-- No lock is held on any target. -/
def Unlocked (lm : LockManager) : Prop := ∀ target, lm.lockOf target = {}

/-- In no schedule of the call does a worker meet a conflict. -/
def NeverConflicts (resolved : List String) (port : Int) (cls : LockClass)
    (keyOf : String → CapKey) (start : LockManager) : Prop :=
  ∀ s, (workersLts (batchJobs resolved port cls keyOf) start).Reachable
    (OfCall resolved.length) s → ∀ w, s.blockers w = none

variable {resolved : List String} {port : Int} {cls : LockClass} {keyOf : String → CapKey}
  {start : LockManager} {s s' : WorkersState} {w : Nat}

theorem free_fresh (cls : LockClass) (key : Option CapKey) : ({} : TargetLock).Free cls key := by
  cases cls <;> simp [TargetLock.Free]

/-! ### Distinct targets -/

/-- The lock of a target is free until its worker takes it. -/
structure AloneInv (resolved : List String) (s : WorkersState) : Prop where
  free : ∀ w < resolved.length, s.stage w = .notCalled ∨ s.stage w = .called →
    s.locks.lockOf (resolved.getD w "") = {}
  blockers : ∀ w, s.blockers w = none

theorem host_ne (hnodup : resolved.Nodup) {v w : Nat} (hv : v < resolved.length)
    (hw : w < resolved.length) (hne : v ≠ w) : resolved.getD v "" ≠ resolved.getD w "" := by
  rw [List.getD_eq_getElem _ _ hv, List.getD_eq_getElem _ _ hw]
  exact fun heq => hne ((hnodup.getElem_inj_iff).mp heq)

theorem Moves.not_called {j : Job} {st st' : Stage} (h : Moves j st st') :
    st' ≠ .notCalled ∧ st' ≠ .called := by
  cases h <;> simp

theorem AloneInv.step (hnodup : resolved.Nodup) (h : AloneInv resolved s)
    (hw : w < resolved.length) (heff : Effect (batchJobs resolved port cls keyOf) s w s') :
    AloneInv resolved s' := by
  -- the steps of `w` touch the lock of its own target only
  have hother : ∀ v < resolved.length, v ≠ w →
      s'.locks.lockOf (resolved.getD v "") = s.locks.lockOf (resolved.getD v "") →
      s'.stage v = .notCalled ∨ s'.stage v = .called →
      s'.locks.lockOf (resolved.getD v "") = {} := by
    intro v hv hne hlock hst
    rw [heff.stage_ne hne] at hst
    rw [hlock]
    exact h.free v hv hst
  cases heff with
  | called hst =>
      refine ⟨fun v hv hv' => ?_, h.blockers⟩
      by_cases hne : v = w
      · subst hne
        exact h.free v hv (Or.inl hst)
      · exact hother v hv hne rfl hv'
  | took host port' cls' key locks hst hjob hfree hlocks =>
      obtain ⟨rfl, -, -, -⟩ := Job.runBatch.inj hjob
      refine ⟨fun v hv hv' => ?_, h.blockers⟩
      by_cases hne : v = w
      · subst hne
        simp at hv'
      · refine hother v hv hne ?_ hv'
        exact (hlocks _).trans (if_neg (host_ne hnodup hv hw hne))
  | conflicted host port' cls' key locks hst hjob hfree hlocks =>
      obtain ⟨rfl, -, -, -⟩ := Job.runBatch.inj hjob
      rw [h.free w hw (Or.inr hst)] at hfree
      exact absurd (free_fresh _ _) hfree
  | moved st hmoves =>
      refine ⟨fun v hv hv' => ?_, h.blockers⟩
      by_cases hne : v = w
      · subst hne
        rw [goto_stage, Function.update_self] at hv'
        exact absurd hv' (not_or.mpr hmoves.not_called)
      · exact hother v hv hne rfl hv'
  | released ok hreleases =>
      refine ⟨fun v hv hv' => ?_, h.blockers⟩
      by_cases hne : v = w
      · subst hne
        simp at hv'
      · refine hother v hv hne ?_ hv'
        exact (LockManager.lockOf_release _ _ _ _ _).trans (if_neg (host_ne hnodup hv hw hne))

theorem aloneInv_invariant (hnodup : resolved.Nodup) (hstart : Unlocked start) :
    (workersLts (batchJobs resolved port cls keyOf) start).Invariant (OfCall resolved.length)
      (AloneInv resolved) where
  init s hs := by
    rw [show s = { locks := start } from hs]
    exact ⟨fun w _ _ => hstart _, fun _ => rfl⟩
  step s l s' _ hs hl hstep := hs.step hnodup hl.1 (step_effect hstep)

/-! ### No lock class -/

theorem noBlockers_invariant (C : WorkersState → Nat × WorkerStep → Prop) :
    (workersLts (batchJobs resolved port .none keyOf) start).Invariant C
      (fun s => ∀ w, s.blockers w = none) where
  init s hs := by
    rw [show s = { locks := start } from hs]
    exact fun _ => rfl
  step s l s' _ hs _ hstep := by
    have heff := step_effect hstep
    cases heff with
    | conflicted host port' cls' key locks hst hjob hfree hlocks =>
        obtain ⟨-, -, rfl, -⟩ := Job.runBatch.inj hjob
        exact absurd trivial hfree
    | _ => exact hs

/-! ### A target twice -/

/-- A list with a repetition, at its first repetition. -/
theorem exists_repetition {α : Type} {l : List α} (h : ¬ l.Nodup) :
    ∃ pre a mid post, l = (pre ++ a :: mid) ++ a :: post ∧ (pre ++ a :: mid).Nodup := by
  induction l using List.reverseRecOn with
  | nil => exact absurd List.nodup_nil h
  | append_singleton l x ih =>
      by_cases hl : l.Nodup
      · have hmem : x ∈ l := by
          by_contra hx
          refine h (List.nodup_append.mpr ⟨hl, List.nodup_singleton x, fun a ha b hb heq => ?_⟩)
          rw [List.mem_singleton] at hb
          exact hx (hb ▸ heq ▸ ha)
        obtain ⟨pre, mid, rfl⟩ := List.append_of_mem hmem
        exact ⟨pre, x, mid, [], rfl, hl⟩
      · obtain ⟨pre, a, mid, post, rfl, hnodup⟩ := ih hl
        exact ⟨pre, a, mid, post ++ [x], by simp, hnodup⟩

theorem release_hold_fresh (cls : LockClass) (key : CapKey) :
    (({} : TargetLock).hold cls (some key)).release cls (some key) = {} := by
  cases cls <;> simp [TargetLock.hold, TargetLock.release, TargetLock.releaseCapture,
    TargetLock.releaseExclusive, TargetLock.capKeyOf]

/-- A class and a key exclude themselves. -/
theorem not_free_hold (hcls : cls ≠ .none) (key : CapKey) :
    ¬ (({} : TargetLock).hold cls (some key)).Free cls (some key) := by
  cases cls <;> simp_all [TargetLock.hold, TargetLock.Free, TargetLock.capKeyOf]

theorem lockStep_free {host : String} {key : CapKey}
    (hfree : (s.locks.lockOf host).Free cls (some key)) :
    (s.lockStep w host cls key).stage = Function.update s.stage w .locked ∧
      ∀ u, (s.lockStep w host cls key).locks.lockOf u =
        if u = host then (s.locks.lockOf host).hold cls (some key) else s.locks.lockOf u := by
  obtain ⟨hok, hlocks⟩ := LockManager.acquire_free hfree
  unfold lockStep
  rcases hacq : s.locks.acquire host cls (some key) with ⟨e | u, locks⟩
  · rw [hacq] at hok
    cases hok
  · rw [hacq] at hlocks
    exact ⟨rfl, hlocks⟩

theorem lockStep_conflict {host : String} {key : CapKey}
    (hfree : ¬ (s.locks.lockOf host).Free cls (some key)) :
    (s.lockStep w host cls key).blockers w = some (s.owners host cls key) := by
  obtain ⟨⟨e, he⟩, -⟩ := LockManager.acquire_conflict hfree
  unfold lockStep
  rcases hacq : s.locks.acquire host cls (some key) with ⟨e' | u, locks⟩
  · simp [goto]
  · rw [hacq] at he
    cases he

/-- The first `k` workers have begun and all of them have ended, but for one which holds the
lock of its target. -/
structure Progress (resolved : List String) (port : Int) (cls : LockClass)
    (keyOf : String → CapKey) (start : LockManager) (holding : Option Nat) (k : Nat)
    (s : WorkersState) : Prop where
  reach : (workersLts (batchJobs resolved port cls keyOf) start).Reachable
    (OfCall resolved.length) s
  begun : ∀ v < k, s.stage v ≠ .notCalled
  queued : ∀ v, k ≤ v → s.stage v = .notCalled
  ended : ∀ v, holding ≠ some v → (s.stage v).finished = true
  free : ∀ u, (∀ v, holding = some v → u ≠ resolved.getD v "") → s.locks.lockOf u = {}

theorem Progress.init (hstart : Unlocked start) :
    Progress resolved port cls keyOf start none 0 { locks := start } where
  reach := .init rfl
  begun v hv := absurd hv (Nat.not_lt_zero v)
  queued _ _ := rfl
  ended _ _ := rfl
  free u _ := hstart u

/-- At most one worker is busy. -/
theorem Progress.busy_le {holding : Option Nat} {k : Nat}
    (h : Progress resolved port cls keyOf start holding k s) (n : Nat) : busy n s ≤ 1 := by
  have hsub : ((List.range n).filter fun w => !(s.stage w).finished) ⊆ holding.toList := by
    intro v hv
    have hst : (s.stage v).finished = false := by simpa using (List.mem_filter.mp hv).2
    by_contra hne
    rw [h.ended v (fun heq => hne (Option.mem_toList.mpr heq))] at hst
    cases hst
  calc busy n s ≤ holding.toList.length :=
        (List.nodup_range.filter _).length_le_of_subset hsub
    _ ≤ 1 := by cases holding <;> simp

/-- The next worker begins and meets the lock of its target. -/
theorem Progress.lock {holding : Option Nat} {k : Nat}
    (h : Progress resolved port cls keyOf start holding k s) (hk : k < resolved.length)
    (hn : 2 ≤ resolved.length) :
    ∃ s₁ : WorkersState, s₁.locks = s.locks ∧ s₁.stage = Function.update s.stage k .called ∧
      (workersLts (batchJobs resolved port cls keyOf) start).Reachable (OfCall resolved.length)
        (s₁.lockStep k (resolved.getD k "") cls (keyOf (resolved.getD k ""))) := by
  have hthread : busy resolved.length s < maxWorkers resolved.length := by
    have hbusy := h.busy_le resolved.length
    rw [maxWorkers]
    omega
  let s₁ : WorkersState := { s with
    seenOver := Function.update s.seenOver k fun v => (s.stage v).isOver }.goto k .called
  have hbegin : s.step (batchJobs resolved port cls keyOf) k .call = some s₁ := by
    simp only [WorkersState.step, h.queued k (Nat.le_refl k), s₁]
  have hlock : s₁.step (batchJobs resolved port cls keyOf) k .lock =
      some (s₁.lockStep k (resolved.getD k "") cls (keyOf (resolved.getD k ""))) := by
    simp [WorkersState.step, batchJobs, s₁]
  have hreach := h.reach.step (l := (k, WorkerStep.call))
    ⟨hk, fun _ => ⟨h.begun, hthread⟩⟩ hbegin
  exact ⟨s₁, rfl, rfl, hreach.step (l := (k, WorkerStep.lock)) ⟨hk, by simp⟩ hlock⟩

/-- The next worker takes the lock of a free target and goes on to hold it. -/
theorem Progress.hold {k : Nat} (h : Progress resolved port cls keyOf start none k s)
    (hk : k < resolved.length) (hn : 2 ≤ resolved.length) :
    ∃ s', Progress resolved port cls keyOf start (some k) (k + 1) s' ∧
      s'.locks.lockOf (resolved.getD k "") =
        ({} : TargetLock).hold cls (some (keyOf (resolved.getD k ""))) := by
  obtain ⟨s₁, hlocks, hstage, hreach⟩ := h.lock hk hn
  have hfresh : s₁.locks.lockOf (resolved.getD k "") = {} := by
    rw [hlocks]
    exact h.free _ (by simp)
  have hfree : (s₁.locks.lockOf (resolved.getD k "")).Free cls
      (some (keyOf (resolved.getD k ""))) := hfresh ▸ free_fresh _ _
  obtain ⟨hstage', hlocks'⟩ := lockStep_free (w := k) hfree
  refine ⟨_, ⟨hreach, ?_, ?_, ?_, ?_⟩, ?_⟩
  · intro v hv
    rw [hstage', hstage, Function.update_idem]
    by_cases hvk : v = k
    · simp [hvk]
    · simpa [hvk] using h.begun v (by omega)
  · intro v hv
    rw [hstage', hstage, Function.update_idem, Function.update_of_ne (by omega)]
    exact h.queued v (by omega)
  · intro v hv
    have hvk : v ≠ k := fun heq => hv (heq ▸ rfl)
    rw [hstage', hstage, Function.update_idem, Function.update_of_ne hvk]
    exact h.ended v (by simp)
  · intro u hu
    rw [hlocks', if_neg (hu k rfl), hlocks]
    exact h.free u (by simp)
  · rw [hlocks', if_pos rfl, hfresh]

/-- A worker that holds its lock can fail to borrow a client and end. -/
theorem reach_ended (hreach : (workersLts (batchJobs resolved port cls keyOf) start).Reachable
      (OfCall resolved.length) s) (hw : w < resolved.length) (hst : s.stage w = .locked) :
    ∃ s', (workersLts (batchJobs resolved port cls keyOf) start).Reachable
        (OfCall resolved.length) s' ∧
      s'.stage = Function.update s.stage w (.ended false) ∧
      ∀ u, s'.locks.lockOf u = if u = resolved.getD w "" then
        (s.locks.lockOf (resolved.getD w "")).release cls (some (keyOf (resolved.getD w "")))
      else s.locks.lockOf u := by
  let e : PyErr := ⟨.timeoutError, "timed out"⟩
  have hfail : s.step (batchJobs resolved port cls keyOf) w (.borrowFailed e) =
      some (s.goto w (.poolFailed e)) := by
    simp [WorkersState.step, hst, batchJobs]
  have hunlock : (s.goto w (.poolFailed e)).step (batchJobs resolved port cls keyOf) w .unlock =
      some (((s.goto w (.poolFailed e)).releaseLock w (batchJobs resolved port cls keyOf w)).goto w
        (.ended false)) := by
    simp [WorkersState.step]
  have hfailed := hreach.step (l := (w, WorkerStep.borrowFailed e)) ⟨hw, by simp⟩ hfail
  refine ⟨_, hfailed.step (l := (w, WorkerStep.unlock)) ⟨hw, by simp⟩ hunlock, ?_, fun u => ?_⟩
  · simp [releaseLock]
  · exact LockManager.lockOf_release _ _ _ _ _

/-- The next worker runs to its end on a free target. -/
theorem Progress.finish {holding : Option Nat} {k : Nat}
    (h : Progress resolved port cls keyOf start holding k s) (hk : k < resolved.length)
    (hn : 2 ≤ resolved.length)
    (hother : ∀ v, holding = some v → v ≠ k ∧ resolved.getD k "" ≠ resolved.getD v "") :
    ∃ s', Progress resolved port cls keyOf start holding (k + 1) s' ∧
      ∀ u, u ≠ resolved.getD k "" → s'.locks.lockOf u = s.locks.lockOf u := by
  obtain ⟨s₁, hlocks, hstage, hreach⟩ := h.lock hk hn
  have hfresh : s₁.locks.lockOf (resolved.getD k "") = {} := by
    rw [hlocks]
    exact h.free _ fun v hv => (hother v hv).2
  have hfree : (s₁.locks.lockOf (resolved.getD k "")).Free cls
      (some (keyOf (resolved.getD k ""))) := hfresh ▸ free_fresh _ _
  obtain ⟨hstage₂, hlocks₂⟩ := lockStep_free (w := k) hfree
  obtain ⟨s', hreach', hstage', hlocks'⟩ := reach_ended hreach hk
    (by rw [hstage₂, Function.update_self])
  have hst : s'.stage = Function.update s.stage k (.ended false) := by
    rw [hstage', hstage₂, hstage, Function.update_idem, Function.update_idem]
  have hleft : ∀ u, u ≠ resolved.getD k "" → s'.locks.lockOf u = s.locks.lockOf u := by
    intro u hu
    rw [hlocks', if_neg hu, hlocks₂, if_neg hu, hlocks]
  refine ⟨s', ⟨hreach', ?_, ?_, ?_, ?_⟩, hleft⟩
  · intro v hv
    by_cases hvk : v = k
    · simp [hst, hvk]
    · simpa [hst, hvk] using h.begun v (by omega)
  · intro v hv
    rw [hst, Function.update_of_ne (by omega)]
    exact h.queued v (by omega)
  · intro v hv
    by_cases hvk : v = k
    · simp [hst, hvk, Stage.finished]
    · rw [hst, Function.update_of_ne hvk]
      exact h.ended v hv
  · intro u hu
    by_cases huk : u = resolved.getD k ""
    · rw [hlocks', if_pos huk, hlocks₂, if_pos rfl, hfresh]
      exact release_hold_fresh cls _
    · rw [hleft u huk]
      exact h.free u hu

/-- The first workers run to their ends one after the other. -/
theorem exists_progress (port : Int) (cls : LockClass) (keyOf : String → CapKey)
    (hstart : Unlocked start) (hn : 2 ≤ resolved.length) {k : Nat} (hk : k ≤ resolved.length) :
    ∃ s, Progress resolved port cls keyOf start none k s := by
  induction k with
  | zero => exact ⟨_, .init hstart⟩
  | succ k ih =>
      obtain ⟨s, hs⟩ := ih (by omega)
      obtain ⟨s', hs', -⟩ := hs.finish hk hn (by simp)
      exact ⟨s', hs'⟩

/-- The workers behind one that holds its lock run to their ends, as long as their targets
are others. -/
theorem Progress.pass {i k : Nat} {tl : TargetLock} (hik : i < k)
    (h : Progress resolved port cls keyOf start (some i) k s)
    (htl : s.locks.lockOf (resolved.getD i "") = tl) (hn : 2 ≤ resolved.length) {m : Nat}
    (hm : k + m ≤ resolved.length)
    (hother : ∀ v, k ≤ v → v < k + m → resolved.getD v "" ≠ resolved.getD i "") :
    ∃ s', Progress resolved port cls keyOf start (some i) (k + m) s' ∧
      s'.locks.lockOf (resolved.getD i "") = tl := by
  induction m with
  | zero => exact ⟨s, h, htl⟩
  | succ m ih =>
      obtain ⟨s₁, hs₁, htl₁⟩ := ih (by omega) fun v hv hv' => hother v hv (by omega)
      have hne := hother (k + m) (by omega) (by omega)
      obtain ⟨s', hs', hlocks⟩ := hs₁.finish (by omega) hn fun v hv => by
        obtain rfl := Option.some.inj hv
        exact ⟨by omega, hne⟩
      exact ⟨s', hs', (hlocks _ hne.symm).trans htl₁⟩

/-- A target that is named twice conflicts with itself. -/
theorem conflicts_of_repetition (hstart : Unlocked start) (hcls : cls ≠ .none)
    (hnodup : ¬ resolved.Nodup) : ¬ NeverConflicts resolved port cls keyOf start := by
  intro h
  obtain ⟨pre, a, mid, post, hsplit, hfirst⟩ := exists_repetition hnodup
  have hlen : resolved.length = pre.length + mid.length + post.length + 2 := by
    rw [hsplit]
    simp
    omega
  -- the two workers of the target `a`
  have hi : resolved.getD pre.length "" = a := by
    rw [hsplit]
    simp
  have hj : resolved.getD (pre.length + 1 + mid.length) "" = a := by
    rw [hsplit, List.getD_append_right _ _ _ _ (by simp; omega)]
    have hzero : pre.length + 1 + mid.length - (pre ++ a :: mid).length = 0 := by
      rw [List.length_append, List.length_cons]
      omega
    rw [hzero]
    rfl
  have hbetween : ∀ v, pre.length + 1 ≤ v → v < pre.length + 1 + mid.length →
      resolved.getD v "" ≠ resolved.getD pre.length "" := by
    intro v hv hv'
    have hfront : ∀ u, u < pre.length + 1 + mid.length →
        resolved.getD u "" = (pre ++ a :: mid).getD u "" := by
      intro u hu
      rw [hsplit, List.getD_append _ _ _ _ (by simp; omega)]
    rw [hfront v hv', hfront pre.length (by omega)]
    exact host_ne hfirst (by simp; omega) (by simp) (by omega)
  obtain ⟨s₀, hs₀⟩ := exists_progress port cls keyOf hstart (by omega)
    (by omega : pre.length ≤ resolved.length)
  obtain ⟨s₁, hs₁, htl⟩ := hs₀.hold (by omega) (by omega)
  obtain ⟨s₂, hs₂, htl₂⟩ := hs₁.pass (by omega) htl (by omega) (m := mid.length) (by omega)
    hbetween
  obtain ⟨s₃, hlocks, -, hreach⟩ := hs₂.lock (by omega) (by omega)
  have hconflict : ¬ (s₃.locks.lockOf (resolved.getD (pre.length + 1 + mid.length) "")).Free cls
      (some (keyOf (resolved.getD (pre.length + 1 + mid.length) ""))) := by
    rw [hlocks, hj, ← hi, htl₂]
    exact not_free_hold hcls _
  have hblocked := h _ hreach (pre.length + 1 + mid.length)
  rw [lockStep_conflict hconflict] at hblocked
  cases hblocked

/-- A call alone never conflicts with itself exactly when it takes no lock or its targets are
distinct. -/
theorem never_conflicts_iff (registry : Option Registry) (targets : List String) (port : Int)
    (cls : LockClass) (keyOf : String → CapKey) (start : LockManager) (hstart : Unlocked start) :
    NeverConflicts (resolveTargets registry targets) port cls keyOf start ↔
      cls = .none ∨ (resolveTargets registry targets).Nodup := by
  constructor
  · intro h
    by_contra hor
    obtain ⟨hcls, hnodup⟩ := not_or.mp hor
    exact conflicts_of_repetition hstart hcls hnodup h
  · intro hor s hs
    rcases hor with rfl | hnodup
    · exact (noBlockers_invariant _).reachable hs
    · exact ((aloneInv_invariant hnodup hstart).reachable hs).blockers

/-- A registry in which one target stands in two tags. -/
def twoTagRegistry : Registry where
  rows := [⟨"10.0.0.1", 9000, ["web", "lab"], "", "", false⟩]
  unique := by decide

/-- A command on two tags of one target conflicts with itself. -/
theorem self_conflict : ¬ ∀ (registry : Option Registry) (targets : List String) (port : Int)
    (cls : LockClass) (keyOf : String → CapKey) (start : LockManager), Unlocked start →
      NeverConflicts (resolveTargets registry targets) port cls keyOf start := by
  intro h
  exact conflicts_of_repetition (fun _ => rfl) (by decide) (by decide)
    (h (some twoTagRegistry) ["@web", "@lab"] 9000 .shell (fun _ => []) LockManager.empty
      fun _ => rfl)

/-- On one of the tags it does not. -/
theorem never_conflicts_iff_witness :
    NeverConflicts (resolveTargets (some twoTagRegistry) ["@web"]) 9000 .shell (fun _ => [])
      LockManager.empty :=
  (never_conflicts_iff (some twoTagRegistry) ["@web"] 9000 .shell (fun _ => []) LockManager.empty
    fun _ => rfl).mpr (Or.inr (by decide))

end McpSocketServer
