import Mathlib.Data.List.Nodup
import Mathlib.Logic.Function.Basic

/-!
# Lists without a common element

A family of lists in which every element has one place at most: it is in no two of the lists
and not twice in one. The family stays so when one of the lists loses its first element, which
is then in none, and when a list is filled with elements that were in none.
-/

namespace McpSocketServer

/-- No element is in two of the lists, or twice in one. -/
structure OnePlace {ι α : Type} (lists : ι → List α) : Prop where
  nodup : ∀ k, (lists k).Nodup
  once : ∀ k j x, x ∈ lists k → x ∈ lists j → k = j

namespace OnePlace

variable {ι α : Type} [DecidableEq ι] {lists : ι → List α} {k : ι}

/-- A list loses its first element. -/
theorem tail (h : OnePlace lists) {x : α} {xs : List α} (hk : lists k = x :: xs) :
    OnePlace (Function.update lists k xs) := by
  have hback : ∀ j y, y ∈ Function.update lists k xs j → y ∈ lists j := by
    intro j y hy
    by_cases hjk : j = k
    · subst hjk
      rw [hk]
      exact List.mem_cons_of_mem _ (by simpa using hy)
    · simpa [hjk] using hy
  refine ⟨fun j => ?_, fun i j y hi hj => h.once i j y (hback i y hi) (hback j y hj)⟩
  by_cases hjk : j = k
  · subst hjk
    have hnodup := h.nodup j
    rw [hk] at hnodup
    simpa using hnodup.of_cons
  · simpa [hjk] using h.nodup j

/-- The first element of a list is in none when it is gone from there. -/
theorem not_mem_tail (h : OnePlace lists) {x : α} {xs : List α} (hk : lists k = x :: xs)
    (j : ι) : x ∉ Function.update lists k xs j := by
  by_cases hjk : j = k
  · subst hjk
    have hnodup := h.nodup j
    rw [hk] at hnodup
    simpa using (List.nodup_cons.mp hnodup).1
  · rw [Function.update_of_ne hjk]
    intro hx
    exact hjk (h.once j k x hx (hk ▸ List.mem_cons_self))

/-- A list is filled anew with elements that are in no list. -/
theorem fill (h : OnePlace lists) {xs : List α} (hnodup : xs.Nodup)
    (hnew : ∀ x ∈ xs, ∀ j, x ∉ lists j) : OnePlace (Function.update lists k xs) := by
  have hcases : ∀ j y, y ∈ Function.update lists k xs j → (j = k ∧ y ∈ xs) ∨ y ∈ lists j := by
    intro j y hy
    by_cases hjk : j = k
    · subst hjk
      exact Or.inl ⟨rfl, by simpa using hy⟩
    · exact Or.inr (by simpa [hjk] using hy)
  refine ⟨fun j => ?_, fun i j y hi hj => ?_⟩
  · by_cases hjk : j = k
    · subst hjk
      simpa using hnodup
    · simpa [hjk] using h.nodup j
  · rcases hcases i y hi with ⟨rfl, hyi⟩ | hyi <;> rcases hcases j y hj with ⟨rfl, hyj⟩ | hyj
    · rfl
    · exact absurd hyj (hnew y hyi j)
    · exact absurd hyi (hnew y hyj i)
    · exact h.once i j y hyi hyj

end OnePlace

end McpSocketServer
