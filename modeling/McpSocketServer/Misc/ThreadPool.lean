import Mathlib.Data.List.Perm.Subperm

/-!
# Thread pools of bounded size

A pool runs its tasks in at most `capacity` threads. Which waiting task starts next is left
open. The demand of a pool bounds the threads that it can come to use without new tasks: it is
at least the number of running tasks, and no task that starts or ends raises it.
-/

namespace McpSocketServer

/-- A pool with the tasks that wait and the tasks that run. -/
structure ThreadPool (τ : Type) where
  capacity : Nat
  waiting : List τ
  running : List τ
  bounded : running.length ≤ capacity

namespace ThreadPool

variable {τ : Type}

/-- A pool without running tasks. -/
def new (capacity : Nat) (tasks : List τ) : ThreadPool τ :=
  ⟨capacity, tasks, [], Nat.zero_le _⟩

/-- Tasks are handed to the pool. -/
def submit (p : ThreadPool τ) (tasks : List τ) : ThreadPool τ :=
  { p with waiting := p.waiting ++ tasks }

/-- The tasks that have not ended. -/
def load (p : ThreadPool τ) : Nat := p.waiting.length + p.running.length

/-- The threads that the pool can come to use. -/
def demand (p : ThreadPool τ) : Nat := min p.capacity p.load

variable [DecidableEq τ]

/-- A waiting task gets a free thread. -/
def start (p : ThreadPool τ) (t : τ) : Option (ThreadPool τ) :=
  if h : t ∈ p.waiting ∧ p.running.length < p.capacity then
    some
      { p with
        waiting := p.waiting.erase t
        running := p.running ++ [t]
        bounded := by
          rw [List.length_append]
          exact h.2 }
  else none

/-- A running task ends. -/
def finish (p : ThreadPool τ) (t : τ) : ThreadPool τ :=
  { p with
    running := p.running.erase t
    bounded := Nat.le_trans (List.erase_sublist.length_le) p.bounded }

omit [DecidableEq τ] in
theorem running_le_demand (p : ThreadPool τ) : p.running.length ≤ p.demand :=
  Nat.le_min.mpr ⟨p.bounded, Nat.le_add_left _ _⟩

omit [DecidableEq τ] in
theorem running_eq_nil {p : ThreadPool τ} (h : p.load = 0) : p.running = [] :=
  List.eq_nil_of_length_eq_zero (Nat.eq_zero_of_add_eq_zero_left h)

/-- What a start does. -/
theorem start_spec {p p' : ThreadPool τ} {t : τ} (h : p.start t = some p') :
    p'.capacity = p.capacity ∧ p'.running = p.running ++ [t] ∧ p'.load = p.load := by
  unfold start at h
  split at h
  · rename_i hfree
    obtain rfl := Option.some.inj h
    have hpos := List.length_pos_of_mem hfree.1
    refine ⟨rfl, rfl, ?_⟩
    simp only [load, List.length_erase_of_mem hfree.1, List.length_append, List.length_singleton]
    omega
  · cases h

/-- A start leaves the others running. -/
theorem mem_start {p p' : ThreadPool τ} {t u : τ} (h : p.start t = some p')
    (hu : u ∈ p.running ∨ u = t) : u ∈ p'.running := by
  obtain ⟨-, hrunning, -⟩ := start_spec h
  rw [hrunning, List.mem_append, List.mem_singleton]
  exact hu

theorem start_demand {p p' : ThreadPool τ} {t : τ} (h : p.start t = some p') :
    p'.demand = p.demand := by
  obtain ⟨hcapacity, -, hload⟩ := start_spec h
  rw [demand, demand, hcapacity, hload]

theorem finish_load (p : ThreadPool τ) (t : τ) : (p.finish t).load ≤ p.load :=
  Nat.add_le_add_left List.erase_sublist.length_le _

theorem finish_demand (p : ThreadPool τ) (t : τ) : (p.finish t).demand ≤ p.demand :=
  Nat.le_min.mpr ⟨Nat.min_le_left _ _, Nat.le_trans (Nat.min_le_right _ _) (p.finish_load t)⟩

/-- Ending one task leaves the others running. -/
theorem mem_finish {p : ThreadPool τ} {t u : τ} (hu : u ∈ p.running) (hne : u ≠ t) :
    u ∈ (p.finish t).running :=
  (List.mem_erase_of_ne hne).mpr hu

end ThreadPool

/-- Distinct items that all stand in a list are no more than its items. -/
theorem length_le_of_nodup_subset {α : Type} {l l' : List α} (hnodup : l.Nodup)
    (hsubset : ∀ a ∈ l, a ∈ l') : l.length ≤ l'.length :=
  (List.subperm_of_subset hnodup hsubset).length_le

end McpSocketServer
