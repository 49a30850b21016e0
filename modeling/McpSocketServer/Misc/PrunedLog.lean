import Mathlib.Data.List.Basic
import Mathlib.Data.List.Infix
import Mathlib.Order.Lattice

/-!
# Numbered logs that are appended to and pruned

Entries carry a stamp. An entry is appended at the end under the next number, which is never
given again, and pruning at a bound takes out every entry whose stamp is below it. An entry is
in the log in the end exactly if it was at or above every later bound. When the stamps do not
go back, each pruning cuts off a prefix, so the log is at all times a suffix of what was ever
appended and its numbers have no gap.
-/

namespace McpSocketServer

/-- An entry comes in, or everything below a bound goes out. -/
inductive LogEvent (α τ : Type) where
  | append (a : α)
  | prune (bound : τ)

/-- The entries with their numbers, and the last number that was given. -/
structure NumberedLog (α : Type) where
  rows : List (Nat × α) := []
  last : Nat := 0

namespace NumberedLog

variable {α τ : Type}

/-- The log with `a` under the next number. -/
def append (log : NumberedLog α) (a : α) : NumberedLog α :=
  { rows := log.rows ++ [(log.last + 1, a)], last := log.last + 1 }

/-- How many entries the events append. -/
def appends (es : List (LogEvent α τ)) : Nat :=
  es.countP fun
    | .append _ => true
    | .prune _ => false

/-- Everything that the events append, with the numbers after `n`. -/
def numbered : Nat → List (LogEvent α τ) → List (Nat × α)
  | _, [] => []
  | n, .append a :: es => (n + 1, a) :: numbered (n + 1) es
  | n, .prune _ :: es => numbered n es

@[simp] theorem appends_append (a : α) (es : List (LogEvent α τ)) :
    appends (.append a :: es) = appends es + 1 := List.countP_cons_of_pos rfl

@[simp] theorem appends_prune (bound : τ) (es : List (LogEvent α τ)) :
    appends (.prune bound :: es) = appends es := List.countP_cons_of_neg nofun

/-- The numbers that the events give follow one another. -/
theorem numbered_numbers (n : Nat) (es : List (LogEvent α τ)) :
    (numbered n es).map Prod.fst = List.range' (n + 1) (appends es) := by
  induction es generalizing n with
  | nil => rfl
  | cons e es ih =>
      cases e with
      | append a => rw [numbered, List.map_cons, ih, appends_append, List.range'_succ]
      | prune bound => rw [numbered, ih, appends_prune]

variable [LinearOrder τ]

/-- The log without the entries whose stamp is below the bound. -/
def prune (stamp : α → τ) (log : NumberedLog α) (bound : τ) : NumberedLog α :=
  { log with rows := log.rows.filter fun row => bound ≤ stamp row.2 }

/-- The log after an event. -/
def apply (stamp : α → τ) (log : NumberedLog α) : LogEvent α τ → NumberedLog α
  | .append a => log.append a
  | .prune bound => log.prune stamp bound

/-- The log after a sequence of events. -/
def replay (stamp : α → τ) (es : List (LogEvent α τ)) (log : NumberedLog α) : NumberedLog α :=
  es.foldl (apply stamp) log

/-- An entry with the stamp `t` lives through the events. -/
def Spared (t : τ) (es : List (LogEvent α τ)) : Prop := ∀ bound, .prune bound ∈ es → bound ≤ t

@[simp] theorem spared_append_cons (t : τ) (a : α) (es : List (LogEvent α τ)) :
    Spared t (.append a :: es) ↔ Spared t es := by
  simp [Spared]

@[simp] theorem spared_prune_cons (t bound : τ) (es : List (LogEvent α τ)) :
    Spared t (.prune bound :: es) ↔ bound ≤ t ∧ Spared t es := by
  simp [Spared]

variable {stamp : α → τ} {log : NumberedLog α}

omit [LinearOrder τ] in
/-- The entries of a history that begins with `e`. -/
theorem exists_split_cons {e : LogEvent α τ} {es : List (LogEvent α τ)} {n k : Nat} {a : α}
    {p : List (LogEvent α τ) → Prop} :
    (∃ before after, e :: es = before ++ .append a :: after ∧ k = n + appends before + 1 ∧
      p after) ↔ (e = .append a ∧ k = n + 1 ∧ p es) ∨
        ∃ before after, es = before ++ .append a :: after ∧
          k = n + appends (e :: before) + 1 ∧ p after := by
  constructor
  · rintro ⟨_ | ⟨b, before⟩, after, hsplit, hk, hp⟩
    · obtain ⟨he, hes⟩ := List.cons.inj hsplit
      exact Or.inl ⟨he, hk, hes ▸ hp⟩
    · obtain ⟨he, hes⟩ := List.cons.inj hsplit
      exact Or.inr ⟨before, after, hes, he ▸ hk, hp⟩
  · rintro (⟨rfl, hk, hp⟩ | ⟨before, after, rfl, hk, hp⟩)
    · exact ⟨[], es, rfl, hk, hp⟩
    · exact ⟨e :: before, after, rfl, hk, hp⟩

/-- An entry is left exactly if it is spared by the events since it came into the log. -/
theorem mem_replay {es : List (LogEvent α τ)} {k : Nat} {a : α} :
    (k, a) ∈ (replay stamp es log).rows ↔ ((k, a) ∈ log.rows ∧ Spared (stamp a) es) ∨
      ∃ before after, es = before ++ .append a :: after ∧ k = log.last + appends before + 1 ∧
        Spared (stamp a) after := by
  induction es generalizing log with
  | nil => simp [replay, Spared]
  | cons e es ih =>
      rw [exists_split_cons]
      cases e with
      | append b =>
          have hstep : replay stamp (.append b :: es) log = replay stamp es (log.append b) := rfl
          have hcount : ∀ before : List (LogEvent α τ),
              log.last + 1 + appends before + 1 = log.last + appends (.append b :: before) + 1 :=
            fun before => by rw [appends_append]; omega
          simp only [hstep, ih, append, List.mem_append, List.mem_singleton, Prod.mk.injEq,
            LogEvent.append.injEq, spared_append_cons, hcount]
          constructor
          · rintro (⟨hlog | ⟨hk, rfl⟩, hspared⟩ | hafter)
            · exact Or.inl ⟨hlog, hspared⟩
            · exact Or.inr (Or.inl ⟨rfl, hk, hspared⟩)
            · exact Or.inr (Or.inr hafter)
          · rintro (⟨hlog, hspared⟩ | ⟨rfl, hk, hspared⟩ | hafter)
            · exact Or.inl ⟨Or.inl hlog, hspared⟩
            · exact Or.inl ⟨Or.inr ⟨hk, rfl⟩, hspared⟩
            · exact Or.inr hafter
      | prune bound =>
          have hstep : replay stamp (.prune bound :: es) log =
            replay stamp es (log.prune stamp bound) := rfl
          simp only [hstep, ih, prune, List.mem_filter, decide_eq_true_eq, spared_prune_cons,
            appends_prune]
          constructor
          · rintro (⟨⟨hlog, hbound⟩, hspared⟩ | hafter)
            · exact Or.inl ⟨hlog, hbound, hspared⟩
            · exact Or.inr (Or.inr hafter)
          · rintro (⟨hlog, hbound, hspared⟩ | ⟨he, -⟩ | hafter)
            · exact Or.inl ⟨⟨hlog, hbound⟩, hspared⟩
            · cases he
            · exact Or.inr hafter

/-- Pruning entries in the order of their stamps cuts off a prefix. -/
theorem filter_suffix {rows : List (Nat × α)}
    (hsorted : rows.Pairwise fun r s => stamp r.2 ≤ stamp s.2) (bound : τ) :
    (rows.filter fun row => bound ≤ stamp row.2) <:+ rows := by
  induction rows with
  | nil => exact List.suffix_rfl
  | cons row rows ih =>
      obtain ⟨hhead, hrest⟩ := List.pairwise_cons.mp hsorted
      by_cases hrow : bound ≤ stamp row.2
      · have hall : (row :: rows).filter (fun row => bound ≤ stamp row.2) = row :: rows := by
          rw [List.filter_eq_self]
          intro r hr
          rcases List.mem_cons.mp hr with rfl | hr
          · exact decide_eq_true hrow
          · exact decide_eq_true (hrow.trans (hhead r hr))
        rw [hall]
      · rw [List.filter_cons, if_neg (by simpa using hrow)]
        exact (ih hrest).trans (List.suffix_cons row rows)

/-- When the stamps do not go back, the log is a suffix of what was appended. -/
theorem replay_suffix {es : List (LogEvent α τ)} {log : NumberedLog α}
    (hsorted : (log.rows ++ numbered log.last es).Pairwise fun r s => stamp r.2 ≤ stamp s.2) :
    (replay stamp es log).rows <:+ log.rows ++ numbered log.last es := by
  induction es generalizing log with
  | nil => simp [replay, numbered]
  | cons e es ih =>
      cases e with
      | append a =>
          have hassoc : log.rows ++ numbered log.last (.append a :: es) =
              (log.append a).rows ++ numbered (log.append a).last es := by
            rw [numbered, append, List.append_assoc, List.singleton_append]
          rw [hassoc] at hsorted ⊢
          exact ih hsorted
      | prune bound =>
          obtain ⟨cut, hcut⟩ := filter_suffix (List.pairwise_append.mp hsorted).1 bound
          have hrest : log.rows ++ numbered log.last (.prune bound :: es) =
              cut ++ ((log.prune stamp bound).rows ++ numbered (log.prune stamp bound).last es) := by
            rw [← List.append_assoc, prune, hcut, numbered]
          rw [hrest] at hsorted ⊢
          exact (ih (List.pairwise_append.mp hsorted).2.1).trans (List.suffix_append _ _)

end NumberedLog

end McpSocketServer
