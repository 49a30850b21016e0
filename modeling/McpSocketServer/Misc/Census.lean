import Mathlib.Data.Finset.Card
import Mathlib.Data.Set.Card

/-!
# Counting the members of a family that satisfy a predicate

`Census p f n` says that exactly `n` indices `i` have `p (f i)`, although the index
type may be infinite. It is the abstract meaning of a counter that a program raises
when some thread enters a section and lowers when it leaves: a pointwise update of
`f` changes the count by the membership of the one index it touches.
-/

namespace McpSocketServer

/-- Exactly `n` members of the family `f` satisfy `p`. -/
def Census {ι α : Type} (p : α → Prop) (f : ι → α) (n : Nat) : Prop :=
  {i | p (f i)}.Finite ∧ {i | p (f i)}.ncard = n

namespace Census

variable {ι α : Type} {p : α → Prop} {f : ι → α} {n : Nat}

/-- No member: the count is zero. -/
theorem of_forall_not (h : ∀ i, ¬ p (f i)) : Census p f 0 := by
  have hempty : {i | p (f i)} = ∅ := Set.eq_empty_of_forall_notMem h
  exact ⟨by simp [hempty], by simp [hempty]⟩

/-- A count of zero leaves no member. -/
theorem not_of_zero (h : Census p f 0) (i : ι) : ¬ p (f i) := by
  have hempty : {i | p (f i)} = ∅ := (Set.ncard_eq_zero h.1).mp h.2
  exact fun hi => (Set.mem_empty_iff_false i).mp (hempty ▸ hi)

/-- Where there is a member the count is positive. -/
theorem pos (h : Census p f n) {i : ι} (hi : p (f i)) : 0 < n := by
  rcases Nat.eq_zero_or_pos n with rfl | hn
  · exact absurd hi (h.not_of_zero i)
  · exact hn

/-- The count is determined by the family. -/
theorem unique {m : Nat} (h : Census p f n) (h' : Census p f m) : n = m :=
  h.2.symm.trans h'.2

variable [DecidableEq ι]

/-- An update that does not change the membership of its index keeps the count. -/
theorem update_same (h : Census p f n) {i : ι} {a : α} (hi : p a ↔ p (f i)) :
    Census p (Function.update f i a) n := by
  have hset : {j | p (Function.update f i a j)} = {j | p (f j)} := by
    ext j
    by_cases hj : j = i
    · subst hj; simp [hi]
    · simp [hj]
  rw [Census, hset]
  exact h

/-- An update by which one index enters raises the count by one. -/
theorem update_enter (h : Census p f n) {i : ι} {a : α} (hout : ¬ p (f i)) (hin : p a) :
    Census p (Function.update f i a) (n + 1) := by
  have hset : {j | p (Function.update f i a j)} = insert i {j | p (f j)} := by
    ext j
    by_cases hj : j = i
    · subst hj; simp [hin]
    · simp [hj]
  rw [Census, hset]
  refine ⟨h.1.insert i, ?_⟩
  rw [Set.ncard_insert_of_notMem (by simpa using hout) h.1, h.2]

/-- An update by which one index leaves lowers the count by one. -/
theorem update_leave (h : Census p f (n + 1)) {i : ι} {a : α} (hin : p (f i)) (hout : ¬ p a) :
    Census p (Function.update f i a) n := by
  have hset : {j | p (Function.update f i a j)} = {j | p (f j)} \ {i} := by
    ext j
    by_cases hj : j = i
    · subst hj; simp [hout]
    · simp [hj]
  rw [Census, hset]
  have hmem : i ∈ {j | p (f j)} := hin
  refine ⟨h.1.subset Set.sdiff_subset, ?_⟩
  rw [Set.ncard_sdiff_singleton_of_mem hmem, h.2]
  rfl

end Census

end McpSocketServer
