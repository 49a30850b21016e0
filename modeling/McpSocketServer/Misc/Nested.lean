import Mathlib.Data.List.Nodup

/-!
# Nested dictionaries

A value is a leaf or a dictionary of values, whose items stand in the order of insertion. Values
are read along paths of keys. In a value with unique keys every key of a dictionary stands for
one item, at every depth.
-/

namespace McpSocketServer

/-- A leaf, or a dictionary from keys to nested values. -/
inductive Nested (κ α : Type) where
  | leaf (a : α)
  | dict (items : List (κ × Nested κ α))

/-! ### Items -/

section Items

variable {κ β : Type} [DecidableEq κ]

/-- `items[k] = v`: an item of the key keeps its place, a new one stands at the end. -/
def setItem (items : List (κ × β)) (k : κ) (v : β) : List (κ × β) :=
  match items with
  | [] => [(k, v)]
  | (k', v') :: items => if k' = k then (k', v) :: items else (k', v') :: setItem items k v

theorem lookup_cons_ite (item : κ × β) (items : List (κ × β)) (k : κ) :
    (item :: items).lookup k = if k = item.1 then some item.2 else items.lookup k := by
  rw [List.lookup_cons]
  by_cases h : k = item.1
  · rw [if_pos h, beq_iff_eq.mpr h]
  · rw [if_neg h, beq_eq_false_iff_ne.mpr h]

theorem lookup_setItem (items : List (κ × β)) (k : κ) (v : β) (k' : κ) :
    (setItem items k v).lookup k' = if k' = k then some v else items.lookup k' := by
  induction items with
  | nil => exact lookup_cons_ite (k, v) [] k'
  | cons item items ih =>
      obtain ⟨k₀, v₀⟩ := item
      by_cases h₀ : k₀ = k
      · subst h₀
        rw [setItem, if_pos rfl, lookup_cons_ite, lookup_cons_ite]
        by_cases h : k' = k₀
        · rw [if_pos h, if_pos h]
        · rw [if_neg h, if_neg h, if_neg h]
      · rw [setItem, if_neg h₀, lookup_cons_ite, lookup_cons_ite, ih]
        by_cases h : k' = k₀
        · rw [if_pos h, if_pos h, if_neg (h ▸ h₀)]
        · rw [if_neg h, if_neg h]

/-- Setting a key to its value changes nothing. -/
theorem setItem_lookup {items : List (κ × β)} {k : κ} {v : β} (h : items.lookup k = some v) :
    setItem items k v = items := by
  induction items with
  | nil => cases h
  | cons item items ih =>
      obtain ⟨k₀, v₀⟩ := item
      rw [lookup_cons_ite] at h
      by_cases h₀ : k = k₀
      · rw [if_pos h₀] at h
        have hv : v₀ = v := Option.some.inj h
        rw [setItem, if_pos h₀.symm, hv]
      · rw [if_neg h₀] at h
        rw [setItem, if_neg (Ne.symm h₀), ih h]

theorem mem_setItem {items : List (κ × β)} {k : κ} {v : β} {item : κ × β}
    (h : item ∈ setItem items k v) : item = (k, v) ∨ item ∈ items := by
  induction items with
  | nil => exact .inl (List.mem_singleton.mp h)
  | cons first items ih =>
      obtain ⟨k₀, v₀⟩ := first
      by_cases h₀ : k₀ = k
      · rw [setItem, if_pos h₀, h₀] at h
        rcases List.mem_cons.mp h with h | h
        · exact .inl h
        · exact .inr (List.mem_cons_of_mem _ h)
      · rw [setItem, if_neg h₀] at h
        rcases List.mem_cons.mp h with h | h
        · exact .inr (h ▸ List.mem_cons_self)
        · exact (ih h).imp_right (List.mem_cons_of_mem _)

theorem nodup_setItem {items : List (κ × β)} (h : (items.map Prod.fst).Nodup) (k : κ) (v : β) :
    ((setItem items k v).map Prod.fst).Nodup := by
  induction items with
  | nil => exact List.nodup_singleton k
  | cons item items ih =>
      obtain ⟨k₀, v₀⟩ := item
      rw [List.map_cons, List.nodup_cons] at h
      by_cases h₀ : k₀ = k
      · rw [setItem, if_pos h₀, List.map_cons, List.nodup_cons]
        exact h
      · rw [setItem, if_neg h₀, List.map_cons, List.nodup_cons]
        refine ⟨fun hmem => ?_, ih h.2⟩
        obtain ⟨item, hitem, hkey⟩ := List.mem_map.mp hmem
        rcases mem_setItem hitem with rfl | hold
        · exact h₀ hkey.symm
        · exact h.1 (hkey ▸ List.mem_map_of_mem hold)

/-- Where keys are unique, an item is what its key is looked up to. -/
theorem lookup_eq_some_of_mem {items : List (κ × β)} (h : (items.map Prod.fst).Nodup) {k : κ}
    {v : β} (hmem : (k, v) ∈ items) : items.lookup k = some v := by
  induction items with
  | nil => cases hmem
  | cons item items ih =>
      rw [List.map_cons, List.nodup_cons] at h
      rcases List.mem_cons.mp hmem with rfl | hmem
      · rw [lookup_cons_ite, if_pos rfl]
      · have hne : k ≠ item.1 := by
          intro heq
          rw [← heq] at h
          exact h.1 (List.mem_map_of_mem hmem)
        rw [lookup_cons_ite, if_neg hne]
        exact ih h.2 hmem

theorem mem_of_lookup_eq_some {items : List (κ × β)} {k : κ} {v : β}
    (h : items.lookup k = some v) : (k, v) ∈ items := by
  obtain ⟨before, after, rfl, -⟩ := List.lookup_eq_some_iff.mp h
  exact List.mem_append_right _ List.mem_cons_self

end Items

/-! ### Paths -/

namespace Nested

section Paths

variable {κ α : Type} [DecidableEq κ]

/-- The value at a path of keys. -/
def get? : List κ → Nested κ α → Option (Nested κ α)
  | [], v => some v
  | _ :: _, .leaf _ => none
  | k :: path, .dict items => (items.lookup k).bind (get? path)

@[simp] theorem get?_nil (v : Nested κ α) : v.get? [] = some v := rfl

@[simp] theorem get?_leaf (k : κ) (path : List κ) (a : α) :
    (leaf a : Nested κ α).get? (k :: path) = none := rfl

@[simp] theorem get?_dict (k : κ) (path : List κ) (items : List (κ × Nested κ α)) :
    (dict items).get? (k :: path) = (items.lookup k).bind (get? path) := rfl

theorem get?_setItem (items : List (κ × Nested κ α)) (k : κ) (w : Nested κ α) (k' : κ)
    (path : List κ) :
    (dict (setItem items k w)).get? (k' :: path) =
      if k' = k then w.get? path else (dict items).get? (k' :: path) := by
  rw [get?_dict, lookup_setItem]
  by_cases h : k' = k
  · rw [if_pos h, if_pos h, Option.bind_some]
  · rw [if_neg h, if_neg h, get?_dict]

/-- Neither of the paths leads on to the other. -/
def Apart (path other : List κ) : Prop := ¬path <+: other ∧ ¬other <+: path

/-- Setting a key leaves the paths alone that are apart from it. -/
theorem get?_setItem_apart {path : List κ} {k : κ} (h : Apart path [k])
    (items : List (κ × Nested κ α)) (w : Nested κ α) :
    (dict (setItem items k w)).get? path = (dict items).get? path := by
  cases path with
  | nil => exact absurd List.nil_prefix h.1
  | cons k' path =>
      have hne : k' ≠ k := by
        rintro rfl
        exact h.2 (List.prefix_append [k'] path)
      rw [get?_setItem, if_neg hne]

/-- Setting a key of an inner dictionary does, too. -/
theorem get?_setItem_inner_apart {path : List κ} {k k' : κ} (h : Apart path [k, k'])
    {items inner : List (κ × Nested κ α)} (hk : items.lookup k = some (dict inner))
    (w : Nested κ α) :
    (dict (setItem items k (dict (setItem inner k' w)))).get? path = (dict items).get? path := by
  cases path with
  | nil => exact absurd List.nil_prefix h.1
  | cons k₀ path =>
      rw [get?_setItem]
      by_cases h₀ : k₀ = k
      · subst h₀
        have hinner : Apart path [k'] :=
          ⟨fun hpath => h.1 ((List.prefix_cons_inj k₀).mpr hpath),
            fun hpath => h.2 ((List.prefix_cons_inj k₀).mpr hpath)⟩
        rw [if_pos rfl, get?_setItem_apart hinner, get?_dict, hk, Option.bind_some]
      · rw [if_neg h₀]

end Paths

/-- Every key of a dictionary in the value stands for one item. -/
inductive UniqueKeys {κ α : Type} : Nested κ α → Prop
  | leaf (a : α) : UniqueKeys (.leaf a)
  | dict {items : List (κ × Nested κ α)} (keys : (items.map Prod.fst).Nodup)
      (values : ∀ k v, (k, v) ∈ items → UniqueKeys v) : UniqueKeys (.dict items)

namespace UniqueKeys

variable {κ α : Type} [DecidableEq κ] {items : List (κ × Nested κ α)} {v : Nested κ α}

omit [DecidableEq κ] in
theorem singleton (k : κ) (hv : v.UniqueKeys) : (Nested.dict [(k, v)]).UniqueKeys := by
  refine .dict (List.nodup_singleton k) fun k' v' hmem => ?_
  cases List.mem_singleton.mp hmem
  exact hv

theorem of_setItem (h : (Nested.dict items).UniqueKeys) (k : κ) (hv : v.UniqueKeys) :
    (Nested.dict (setItem items k v)).UniqueKeys := by
  cases h with
  | dict keys values =>
      refine .dict (nodup_setItem keys k v) fun k' v' hmem => ?_
      rcases mem_setItem hmem with heq | hmem
      · cases heq
        exact hv
      · exact values k' v' hmem

omit [DecidableEq κ] in
theorem nodup (h : (Nested.dict items).UniqueKeys) : (items.map Prod.fst).Nodup := by
  cases h with
  | dict keys values => exact keys

theorem of_lookup (h : (Nested.dict items).UniqueKeys) {k : κ} (hk : items.lookup k = some v) :
    v.UniqueKeys := by
  cases h with
  | dict keys values => exact values k v (mem_of_lookup_eq_some hk)

end UniqueKeys

end Nested

/-- A dictionary with unique keys at every depth. -/
structure NestedDict (κ α : Type) where
  items : List (κ × Nested κ α)
  unique : (Nested.dict items).UniqueKeys

namespace NestedDict

variable {κ α : Type}

theorem ext {d e : NestedDict κ α} (h : d.items = e.items) : d = e := by
  cases d
  cases e
  cases h
  rfl

/-- The dictionary without items. -/
def empty : NestedDict κ α := ⟨[], .dict List.nodup_nil fun _ _ h => absurd h List.not_mem_nil⟩

/-- The value at a path of keys. -/
def get? [DecidableEq κ] (d : NestedDict κ α) (path : List κ) : Option (Nested κ α) :=
  (Nested.dict d.items).get? path

end NestedDict

end McpSocketServer
