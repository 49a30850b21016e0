import McpSocketServer.Config

/-!
# Configurations are merged path by path

What a merge gives along every path of keys. Merging the same dictionary again, or an empty one,
changes nothing.
-/

namespace McpSocketServer

open Nested

/-! ### Merging -/

section Merging

variable {κ α : Type} [DecidableEq κ] {base out overrides items : List (κ × Nested κ α)}
  {old : Option (Nested κ α)} {k : κ} {v w : Nested κ α}

/-- What is merged into no dictionary, or is none, replaces what was there. -/
theorem mergedItem_replaces (h : (∀ items, v ≠ dict items) ∨ ∀ items, old ≠ some (dict items)) :
    mergedItem old v = v := by
  cases v with
  | leaf a => rw [mergedItem]
  | dict items =>
      rcases h with hv | hold
      · exact absurd rfl (hv items)
      · rcases old with _ | a | base
        · rw [mergedItem]
          exact fun base h => hold base h
        · rw [mergedItem]
          exact fun base h => hold base h
        · exact absurd rfl (hold base)

theorem mergedItem_dict (base items : List (κ × Nested κ α)) :
    mergedItem (some (dict base)) (dict items) = dict (deepMerge base items) := by
  rw [mergedItem]

theorem lookup_deepMerge_none (h : overrides.lookup k = none) :
    (deepMerge out overrides).lookup k = out.lookup k := by
  induction overrides generalizing out with
  | nil => rw [deepMerge]
  | cons item overrides ih =>
      obtain ⟨k₀, v₀⟩ := item
      rw [lookup_cons_ite] at h
      by_cases h₀ : k = k₀
      · rw [if_pos h₀] at h
        cases h
      · rw [if_neg h₀] at h
        rw [deepMerge, ih h, lookup_setItem, if_neg h₀]

theorem lookup_deepMerge_some (hkeys : (overrides.map Prod.fst).Nodup)
    (h : overrides.lookup k = some v) :
    (deepMerge out overrides).lookup k = some (mergedItem (out.lookup k) v) := by
  induction overrides generalizing out with
  | nil => cases h
  | cons item overrides ih =>
      obtain ⟨k₀, v₀⟩ := item
      rw [List.map_cons, List.nodup_cons] at hkeys
      rw [lookup_cons_ite] at h
      by_cases h₀ : k = k₀
      · subst h₀
        rw [if_pos rfl] at h
        obtain rfl := Option.some.inj h
        -- the key does not come again
        have hrest : overrides.lookup k = none := by
          cases hk : overrides.lookup k with
          | none => rfl
          | some u => exact absurd (List.mem_map_of_mem (mem_of_lookup_eq_some hk)) hkeys.1
        rw [deepMerge, lookup_deepMerge_none hrest, lookup_setItem, if_pos rfl]
      · rw [if_neg h₀] at h
        rw [deepMerge, ih hkeys.2 h, lookup_setItem, if_neg h₀]

/-- A value is merged into a dictionary, or into none and then replaces what there is. -/
theorem dict_or_replaced (old : Option (Nested κ α)) :
    (∃ base, old = some (dict base)) ∨
      (∀ v, mergedItem old v = v) ∧ ∀ k path, old.bind (Nested.get? (k :: path)) = none := by
  rcases old with _ | a | base
  · exact .inr ⟨fun v => mergedItem_replaces (.inr fun _ h => by cases h), fun _ _ => rfl⟩
  · exact .inr ⟨fun v => mergedItem_replaces (.inr fun _ h => by cases h), fun _ _ => rfl⟩
  · exact .inl ⟨base, rfl⟩

/-- Along a path of `overrides` the two values there are merged. -/
theorem get?_mergedItem (hw : w.UniqueKeys) {path : List κ} (h : w.get? path = some v)
    (old : Option (Nested κ α)) :
    (mergedItem old w).get? path = some (mergedItem (old.bind (Nested.get? path)) v) := by
  induction path generalizing w old with
  | nil =>
      obtain rfl := Option.some.inj h
      cases old <;> rfl
  | cons k path ih =>
      cases hw with
      | leaf a => cases h
      | @dict items keys values =>
          obtain ⟨u, hu, hpath⟩ := Option.bind_eq_some_iff.mp h
          rcases dict_or_replaced old with ⟨base, rfl⟩ | ⟨hreplaced, hnone⟩
          · rw [mergedItem_dict, get?_dict, lookup_deepMerge_some keys hu]
            exact ih (values k u (mem_of_lookup_eq_some hu)) hpath _
          · have hnew : mergedItem none v = v :=
              mergedItem_replaces (.inr fun _ h => by cases h)
            rw [hreplaced, hnone, hnew, h]

/-- A path that `overrides` does not reach, and that it does not cut off, keeps its value. -/
theorem get?_mergedItem_none (hw : w.UniqueKeys) {path : List κ} (h : w.get? path = none)
    (hcut : ∀ before, before <+: path → ∀ a, w.get? before ≠ some (leaf a))
    (old : Option (Nested κ α)) :
    (mergedItem old w).get? path = old.bind (Nested.get? path) := by
  induction path generalizing w old with
  | nil => cases h
  | cons k path ih =>
      cases hw with
      | leaf a => exact absurd rfl (hcut [] List.nil_prefix a)
      | @dict items keys values =>
          rcases dict_or_replaced old with ⟨base, rfl⟩ | ⟨hreplaced, hnone⟩
          · rw [mergedItem_dict, get?_dict, Option.bind_some, get?_dict]
            rw [get?_dict] at h
            cases hk : items.lookup k with
            | none => rw [lookup_deepMerge_none hk]
            | some u =>
                rw [hk] at h
                have hinner : ∀ before, before <+: path → ∀ a, u.get? before ≠ some (leaf a) := by
                  intro before hbefore a hleaf
                  refine hcut (k :: before) ((List.prefix_cons_inj k).mpr hbefore) a ?_
                  rw [get?_dict, hk]
                  exact hleaf
                rw [lookup_deepMerge_some keys hk]
                exact ih (values k u (mem_of_lookup_eq_some hk)) h hinner _
          · rw [hreplaced, hnone, h]

/-! ### Merging again -/

/-- A merge changes nothing where every value of `overrides` is merged into what stands there. -/
theorem deepMerge_eq_self
    (h : ∀ k v, (k, v) ∈ overrides → ∃ w, out.lookup k = some w ∧ mergedItem (some w) v = w) :
    deepMerge out overrides = out := by
  induction overrides with
  | nil => rw [deepMerge]
  | cons item overrides ih =>
      obtain ⟨k, v⟩ := item
      obtain ⟨w, hw, hmerged⟩ := h k v List.mem_cons_self
      rw [deepMerge, hw, hmerged, setItem_lookup hw]
      exact ih fun k v hmem => h k v (List.mem_cons_of_mem _ hmem)

theorem mergedItem_self (hv : v.UniqueKeys) : mergedItem (some v) v = v := by
  induction hv with
  | leaf a => rw [mergedItem]
  | @dict items keys values ih =>
      rw [mergedItem_dict, deepMerge_eq_self fun k v hmem =>
        ⟨v, lookup_eq_some_of_mem keys hmem, ih k v hmem⟩]

/-- What has been merged in once is merged in without effect. -/
theorem mergedItem_again (hv : v.UniqueKeys) (old : Option (Nested κ α)) :
    mergedItem (some (mergedItem old v)) v = mergedItem old v := by
  induction hv generalizing old with
  | leaf a => rw [mergedItem, mergedItem]
  | @dict items keys values ih =>
      rcases dict_or_replaced old with ⟨base, rfl⟩ | ⟨hreplaced, -⟩
      · rw [mergedItem_dict, mergedItem_dict, deepMerge_eq_self fun k v hmem =>
          ⟨_, lookup_deepMerge_some keys (lookup_eq_some_of_mem keys hmem), ih k v hmem _⟩]
      · rw [hreplaced]
        exact mergedItem_self (.dict keys values)

/-! ### Unique keys -/

theorem deepMerge_uniqueKeys
    (h : ∀ k v, (k, v) ∈ overrides → ∀ old : Option (Nested κ α),
      (∀ w ∈ old, w.UniqueKeys) → (mergedItem old v).UniqueKeys)
    (hout : (dict out).UniqueKeys) : (dict (deepMerge out overrides)).UniqueKeys := by
  induction overrides generalizing out with
  | nil =>
      rw [deepMerge]
      exact hout
  | cons item overrides ih =>
      obtain ⟨k, v⟩ := item
      rw [deepMerge]
      refine ih (fun k v hmem => h k v (List.mem_cons_of_mem _ hmem)) (hout.of_setItem k ?_)
      exact h k v List.mem_cons_self _ fun w hw => hout.of_lookup hw

theorem mergedItem_uniqueKeys (hv : v.UniqueKeys) (hold : ∀ w ∈ old, w.UniqueKeys) :
    (mergedItem old v).UniqueKeys := by
  induction hv generalizing old with
  | leaf a =>
      rw [mergedItem]
      exact .leaf a
  | @dict items keys values ih =>
      rcases dict_or_replaced old with ⟨base, rfl⟩ | ⟨hreplaced, -⟩
      · rw [mergedItem_dict]
        exact deepMerge_uniqueKeys (fun k v hmem old hold => ih k v hmem hold) (hold _ rfl)
      · rw [hreplaced]
        exact .dict keys values

/-- `_deep_merge` of two dictionaries with unique keys. -/
def NestedDict.deepMerge (base overrides : NestedDict κ α) : NestedDict κ α where
  items := McpSocketServer.deepMerge base.items overrides.items
  unique := by
    rw [← mergedItem_dict]
    exact mergedItem_uniqueKeys overrides.unique fun w hw => Option.some.inj hw ▸ base.unique

/-- The dictionary does not mention the path, and gives no value that is none on the way. -/
def NestedDict.Omits (overrides : NestedDict κ α) (path : List κ) : Prop :=
  overrides.get? path = none ∧
    ∀ before, before <+: path → ∀ a, overrides.get? before ≠ some (leaf a)

/-- What a merge gives at a path. -/
structure MergedAt (base overrides : NestedDict κ α) (path : List κ) : Prop where
  replaces : ∀ v, overrides.get? path = some v →
    ((∀ items, v ≠ dict items) ∨ ∀ items, base.get? path ≠ some (dict items)) →
      (base.deepMerge overrides).get? path = some v
  merges : ∀ d e, base.get? path = some (dict d) → overrides.get? path = some (dict e) →
    (base.deepMerge overrides).get? path = some (dict (deepMerge d e))
  keeps : overrides.Omits path → (base.deepMerge overrides).get? path = base.get? path

theorem mergedAt (base overrides : NestedDict κ α) (path : List κ) :
    MergedAt base overrides path := by
  have hmerge : (base.deepMerge overrides).get? path =
      (mergedItem (some (dict base.items)) (dict overrides.items)).get? path := by
    rw [mergedItem_dict]
    rfl
  refine ⟨?_, ?_, ?_⟩
  · intro v hv h
    rw [hmerge, get?_mergedItem overrides.unique hv]
    exact congrArg some (mergedItem_replaces h)
  · intro d e hd he
    rw [hmerge, get?_mergedItem overrides.unique he, ← mergedItem_dict, ← hd]
    rfl
  · rintro ⟨hnone, hcut⟩
    rw [hmerge]
    exact get?_mergedItem_none overrides.unique hnone hcut _

theorem deepMerge_again (base overrides : NestedDict κ α) :
    (base.deepMerge overrides).deepMerge overrides = base.deepMerge overrides := by
  have h := mergedItem_again overrides.unique (some (dict base.items))
  rw [mergedItem_dict, mergedItem_dict] at h
  exact NestedDict.ext (Nested.dict.inj h)

theorem deepMerge_empty (base : NestedDict κ α) : base.deepMerge .empty = base := by
  apply NestedDict.ext
  change deepMerge base.items [] = base.items
  rw [deepMerge]

end Merging

end McpSocketServer
