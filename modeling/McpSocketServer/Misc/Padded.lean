import Mathlib.Data.List.Lex
import Mathlib.Order.Lattice

/-!
# Lists compared by their first entries

In the lexicographic order a proper prefix is smaller. Where lists stand for the same sequence
with and without its trailing entries `d`, the order of the sequences is that of the padded lists.
Against a list with no entry below `d` the two orders differ in one case: the list is too short
and becomes equal by padding.
-/

namespace McpSocketServer

variable {α : Type} [LinearOrder α] {d : α}

omit [LinearOrder α] in
theorem rightpad_cons (n : Nat) (a : α) (as : List α) :
    (a :: as).rightpad (n + 1) d = a :: as.rightpad n d := by
  simp [List.rightpad]

omit [LinearOrder α] in
/-- Padding does not reach a list that ends with another entry. -/
theorem rightpad_ne {as bs : List α} {n : Nat} (hlen : as.length < n)
    (hlast : bs.getLast? ≠ some d) : as.rightpad n d ≠ bs := by
  rintro rfl
  have hpad : (List.replicate (n - as.length) d).getLast? = some d := by
    rw [List.getLast?_replicate, if_neg (by omega)]
  apply hlast
  rw [List.rightpad, List.getLast?_append, hpad]
  rfl

/-- The smallest list of a length. -/
theorem replicate_lt_or_eq {bs : List α} (hd : ∀ b ∈ bs, d ≤ b) :
    List.replicate bs.length d < bs ∨ List.replicate bs.length d = bs := by
  induction bs with
  | nil => exact Or.inr rfl
  | cons b bs ih =>
      rw [List.length_cons, List.replicate_succ, List.cons_lt_cons_iff]
      rcases lt_or_eq_of_le (hd b List.mem_cons_self) with hlt | rfl
      · exact Or.inl (Or.inl hlt)
      · rcases ih fun b hb => hd b (List.mem_cons_of_mem _ hb) with hlt | heq
        · exact Or.inl (Or.inr ⟨rfl, hlt⟩)
        · exact Or.inr (by rw [heq])

/-- A shorter list is smaller if it is so after padding, or if padding makes it equal. -/
theorem lt_iff_rightpad {as bs : List α} (hlen : as.length ≤ bs.length) (hd : ∀ b ∈ bs, d ≤ b) :
    as < bs ↔ as.rightpad bs.length d < bs ∨
      (as.length < bs.length ∧ as.rightpad bs.length d = bs) := by
  induction as generalizing bs with
  | nil =>
      cases bs with
      | nil => simp [List.rightpad]
      | cons b bs =>
          have hpad : ([] : List α).rightpad (b :: bs).length d =
              List.replicate (b :: bs).length d := rfl
          rw [hpad]
          refine iff_of_true (List.nil_lt_cons b bs) ?_
          exact (replicate_lt_or_eq hd).imp_right fun heq => ⟨Nat.succ_pos _, heq⟩
  | cons a as ih =>
      cases bs with
      | nil => cases hlen
      | cons b bs =>
          have hrest := @ih bs (Nat.le_of_succ_le_succ hlen)
            fun b hb => hd b (List.mem_cons_of_mem _ hb)
          rw [List.length_cons, rightpad_cons, List.cons_lt_cons_iff, List.cons_lt_cons_iff, hrest,
            List.length_cons, List.cons.injEq, Nat.succ_lt_succ_iff]
          tauto

end McpSocketServer
