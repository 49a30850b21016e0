import McpSocketServer.Server.TargetTools
import Mathlib.Data.List.TakeWhile

/-!
# Resolving a target list twice

The read tools apply `Registry.resolve` once and the locked write tools twice. A second
resolution leaves alone every item that came from a bare target of the list; the hosts
that a tag stands for are parsed again, and stay only where a stored host has neither the
form of a tag nor that of `host:port`.
-/

namespace McpSocketServer

open Registry

/-- A stored host with the form `name:digits`, which `resolve` would cut. -/
def HasPortSuffix (host : String) : Prop :=
  ':' ∈ host.toList ∧ isdigit (afterFirst ':' host) = true

/-- A host that is neither read as a tag nor cut at a port: `resolve` returns it as it is. -/
def PlainHost (host : String) : Prop := startsWith '@' host = false ∧ ¬ HasPortSuffix host

instance (host : String) : Decidable (HasPortSuffix host) :=
  inferInstanceAs (Decidable (_ ∧ _))

instance (host : String) : Decidable (PlainHost host) := inferInstanceAs (Decidable (_ ∧ _))

/-- The stored hosts that the tags of a target list stand for. -/
def taggedHosts (reg : Registry) (targets : List String) : List String :=
  targets.flatMap fun item =>
    if startsWith '@' item then tagMap reg.rows (dropFirst item) else []

/-- What `resolve` makes of an item that is not a tag. -/
def bareHost (item : String) : String :=
  if ':' ∈ item.toList ∧ isdigit (afterFirst ':' item) = true then beforeFirst ':' item else item

theorem expandItem_of_tag {tags : String → List String} {item : String}
    (h : startsWith '@' item = true) : expandItem tags item = tags (dropFirst item) := by
  simp [expandItem, h]

theorem expandItem_of_bare {tags : String → List String} {item : String}
    (h : startsWith '@' item = false) : expandItem tags item = [bareHost item] := by
  have htag : ¬ startsWith '@' item = true := by simp [h]
  rw [expandItem, if_neg htag, bareHost]
  split <;> rfl

theorem bareHost_of_plain {host : String} (h : PlainHost host) : bareHost host = host :=
  if_neg h.2

/-- A plain host is a fixed point of the expansion. -/
theorem expandItem_of_plain {tags : String → List String} {host : String} (h : PlainHost host) :
    expandItem tags host = [host] := by
  rw [expandItem_of_bare h.1, bareHost_of_plain h]

theorem colon_not_mem_beforeFirst (s : String) : ':' ∉ (beforeFirst ':' s).toList := by
  intro h
  rw [beforeFirst, String.toList_ofList] at h
  simpa using List.mem_takeWhile_imp h

/-- Cutting the port off changes a host that has one. -/
theorem bareHost_ne_of_port {host : String} (h : HasPortSuffix host) : bareHost host ≠ host := by
  intro heq
  have hcut : bareHost host = beforeFirst ':' host := if_pos h
  exact colon_not_mem_beforeFirst host (by rw [← hcut, heq]; exact h.1)

/-- The first character of a part before a separator is the first character of the whole. -/
theorem startsWith_beforeFirst {c d : Char} {s : String}
    (h : startsWith d s = false) : startsWith d (beforeFirst c s) = false := by
  unfold startsWith beforeFirst at *
  rw [String.toList_ofList]
  cases hs : s.toList with
  | nil => simp
  | cons a as =>
      rw [hs] at h
      by_cases ha : a = c
      · simp [ha]
      · simpa [ha] using h

/-- What a bare item resolves to is plain. -/
theorem plain_bareHost {item : String} (h : startsWith '@' item = false) :
    PlainHost (bareHost item) := by
  unfold bareHost
  split
  · exact ⟨startsWith_beforeFirst h, fun hport => colon_not_mem_beforeFirst item hport.1⟩
  · rename_i hport
    exact ⟨h, hport⟩

/-- Every resolved host is plain or comes from a tag. -/
theorem mem_resolve {reg : Registry} {targets : List String} {host : String}
    (h : host ∈ reg.resolve targets) : PlainHost host ∨ host ∈ taggedHosts reg targets := by
  obtain ⟨item, hitem, hhost⟩ := List.mem_flatMap.mp h
  cases htag : startsWith '@' item with
  | true =>
      rw [expandItem_of_tag htag] at hhost
      exact Or.inr (List.mem_flatMap.mpr ⟨item, hitem, by simpa [htag] using hhost⟩)
  | false =>
      rw [expandItem_of_bare htag, List.mem_singleton] at hhost
      exact Or.inl (hhost ▸ plain_bareHost htag)

theorem taggedHosts_subset_resolve {reg : Registry} {targets : List String} {host : String}
    (h : host ∈ taggedHosts reg targets) : host ∈ reg.resolve targets := by
  obtain ⟨item, hitem, hhost⟩ := List.mem_flatMap.mp h
  cases htag : startsWith '@' item with
  | true =>
      refine List.mem_flatMap.mpr ⟨item, hitem, ?_⟩
      rw [expandItem_of_tag htag]
      simpa [htag] using hhost
  | false => simp [htag] at hhost

/-- A list of fixed points of the expansion is resolved to itself. -/
theorem resolve_of_plain {reg : Registry} {hosts : List String}
    (h : ∀ host ∈ hosts, PlainHost host) : reg.resolve hosts = hosts := by
  induction hosts with
  | nil => rfl
  | cons host hosts ih =>
      have hhead : expandItem (tagMap reg.rows) host = [host] :=
        expandItem_of_plain (h host List.mem_cons_self)
      have htail : reg.resolve hosts = hosts :=
        ih fun other hmem => h other (List.mem_cons_of_mem _ hmem)
      calc reg.resolve (host :: hosts)
          = expandItem (tagMap reg.rows) host ++ reg.resolve hosts := List.flatMap_cons
        _ = host :: hosts := by rw [hhead, htail]; rfl

/-- Resolving twice is resolving once where every host behind a tag of the list is plain. -/
theorem resolve_twice_of_plain {reg : Registry} {targets : List String}
    (h : ∀ host ∈ taggedHosts reg targets, PlainHost host) :
    reg.resolve (reg.resolve targets) = reg.resolve targets :=
  resolve_of_plain fun host hmem => (mem_resolve hmem).elim id (h host)

/-! ### Lists that resolve to themselves

A bare item resolves to one bare item and a tag to any number, so the bare items of a list
that resolves to itself are the bare items of their own expansion, cut one by one. -/

/-- The items that are not tags. -/
def bareItems (items : List String) : List String :=
  items.filter fun item => startsWith '@' item = false

theorem bareItems_append (items others : List String) :
    bareItems (items ++ others) = bareItems items ++ bareItems others := List.filter_append ..

theorem bareItems_cons_of_bare {item : String} {items : List String}
    (h : startsWith '@' item = false) : bareItems (item :: items) = item :: bareItems items := by
  simp [bareItems, h]

theorem bareItems_cons_of_tag {item : String} {items : List String}
    (h : startsWith '@' item = true) : bareItems (item :: items) = bareItems items := by
  simp [bareItems, h]

/-- The bare items of a list stay in the expansion, each cut at its port. -/
theorem bareItems_expand (tags : String → List String) (items : List String) :
    ((bareItems items).map bareHost).Sublist (bareItems (items.flatMap (expandItem tags))) := by
  induction items with
  | nil => exact List.nil_sublist _
  | cons item items ih =>
      rw [List.flatMap_cons, bareItems_append]
      cases htag : startsWith '@' item with
      | true =>
          rw [bareItems_cons_of_tag htag]
          exact ih.trans (List.sublist_append_right _ _)
      | false =>
          rw [bareItems_cons_of_bare htag, expandItem_of_bare htag,
            bareItems_cons_of_bare (plain_bareHost htag).1]
          exact ih.cons_cons _

/-- An expansion with no more bare items than the list has no tag that adds one. -/
theorem no_bareItems_of_tag {tags : String → List String} {items : List String}
    (h : (bareItems (items.flatMap (expandItem tags))).length ≤ (bareItems items).length)
    {item : String} (hmem : item ∈ items) (htag : startsWith '@' item = true) :
    bareItems (tags (dropFirst item)) = [] := by
  induction items with
  | nil => cases hmem
  | cons head items ih =>
      have hrest := (bareItems_expand tags items).length_le
      rw [List.length_map] at hrest
      rw [List.flatMap_cons, bareItems_append, List.length_append] at h
      cases hhead : startsWith '@' head with
      | true =>
          rw [expandItem_of_tag hhead, bareItems_cons_of_tag hhead] at h
          rcases List.mem_cons.mp hmem with rfl | hin
          · exact List.eq_nil_of_length_eq_zero (by omega)
          · exact ih (by omega) hin
      | false =>
          rw [expandItem_of_bare hhead, bareItems_cons_of_bare (plain_bareHost hhead).1,
            bareItems_cons_of_bare hhead, List.length_cons, List.length_cons] at h
          rcases List.mem_cons.mp hmem with rfl | hin
          · rw [hhead] at htag
            cases htag
          · exact ih (by omega) hin

/-- In a list that resolves to itself every item is plain, or a tag that stands for hosts
written like tags only. -/
theorem plain_of_fixed {reg : Registry} {hosts : List String} (h : reg.resolve hosts = hosts)
    {host : String} (hmem : host ∈ hosts) :
    PlainHost host ∨ startsWith '@' host = true ∧
      ∀ other ∈ tagMap reg.rows (dropFirst host), startsWith '@' other = true := by
  have hexpand : bareItems (hosts.flatMap (expandItem (tagMap reg.rows))) = bareItems hosts :=
    congrArg bareItems h
  cases htag : startsWith '@' host with
  | true =>
      have hnone := no_bareItems_of_tag (Nat.le_of_eq (congrArg List.length hexpand)) hmem htag
      refine Or.inr ⟨rfl, fun other hother => ?_⟩
      have hbare := List.filter_eq_nil_iff.mp hnone other hother
      simpa using hbare
  | false =>
      have hsub := bareItems_expand (tagMap reg.rows) hosts
      rw [hexpand] at hsub
      have hcut : (bareItems hosts).map bareHost = (bareItems hosts).map id := by
        rw [List.map_id]
        exact hsub.eq_of_length (List.length_map _)
      have hin : host ∈ bareItems hosts := List.mem_filter.mpr ⟨hmem, by simpa using htag⟩
      exact Or.inl ⟨htag, fun hport =>
        bareHost_ne_of_port hport (List.map_inj_left.mp hcut host hin)⟩

/-- The condition under which the read tools and the write tools address the same hosts: the
hosts behind the tags of the list are plain. Where they are not, the second resolution can
give the same list only through hosts that are tags in turn, which stand for such hosts
again. -/
theorem resolve_idempotent (reg : Registry) (targets : List String) :
    ((∀ host ∈ taggedHosts reg targets, PlainHost host) →
      reg.resolve (reg.resolve targets) = reg.resolve targets) ∧
    (reg.resolve (reg.resolve targets) = reg.resolve targets →
      ∀ host ∈ taggedHosts reg targets, PlainHost host ∨ startsWith '@' host = true ∧
        ∀ other ∈ tagMap reg.rows (dropFirst host), startsWith '@' other = true) :=
  ⟨resolve_twice_of_plain, fun htwice _ hmem =>
    plain_of_fixed htwice (taggedHosts_subset_resolve hmem)⟩

/-- A registry with one forced registration of `10.0.0.1:9000` under the tag `web`. -/
def portSuffixRegistry : Registry :=
  Registry.empty.insertOrIgnore ⟨"10.0.0.1:9000", 9000, ["web"], "", "2026-07-08 00:00:00", false⟩

theorem portSuffixRegistry_reachable : registryLts.Reachable Lts.always portSuffixRegistry :=
  .step (.init rfl) trivial (l := .add "10.0.0.1:9000" 9000 (some ["web"]) "" true (.ok ())
    "2026-07-08 00:00:00") rfl

/-- After that registration the write tools address another host than the read tools. -/
theorem resolve_not_idempotent :
    ¬ ∀ reg, registryLts.Reachable Lts.always reg →
      ∀ targets, reg.resolve (reg.resolve targets) = reg.resolve targets := by
  intro h
  have hweb := h portSuffixRegistry portSuffixRegistry_reachable ["@web"]
  revert hweb
  decide

end McpSocketServer
