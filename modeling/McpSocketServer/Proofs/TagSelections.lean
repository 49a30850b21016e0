import McpSocketServer.Registry
import McpSocketServer.Misc.Lts

/-!
# The two ways to select by tag

`list_targets` keeps the rows that have a tag, so a row counts once. `resolve` walks every
stored occurrence of a tag and appends the host of its row each time, and `add_target` stores
the tags as they are given. So the two agree for all tags exactly if no row stores a tag
twice; a repeated tag runs a command twice on its target.
-/

namespace McpSocketServer

open Registry

/-- The `host` field of an entry of `list_targets`. -/
def listedHost (entry : Json) : String :=
  match entry with
  | .obj fields =>
    match fieldD fields "host" .null with
    | .str host => host
    | _ => ""
  | _ => ""

/-- The two selections by the tag `t` have the same hosts, each as often. -/
def SelectionsAgree (reg : Registry) (t : String) : Prop :=
  (reg.resolve ["@" ++ t]).Perm ((reg.listTargets (some [t])).map listedHost)

/-! ### The index of `resolve` -/

theorem tagMap_row (host t : String) (tags : List String) (m : String → List String) :
    tags.foldl (fun m t => Function.update m t (m t ++ [host])) m t =
      m t ++ List.replicate (tags.count t) host := by
  induction tags generalizing m with
  | nil => simp
  | cons u tags ih =>
      rw [List.foldl_cons, ih]
      by_cases hu : u = t
      · subst hu
        rw [Function.update_self, List.count_cons_self, List.replicate_succ, List.append_assoc,
          List.singleton_append]
      · rw [Function.update_of_ne (Ne.symm hu), List.count_cons_of_ne hu]

/-- A tag stands for the host of every row, once for each occurrence of the tag. -/
theorem tagMap_eq (rows : List Row) (t : String) :
    tagMap rows t = rows.flatMap fun r => List.replicate (r.tags.count t) r.host := by
  have hfold : ∀ m : String → List String,
      rows.foldl (fun m r => r.tags.foldl (fun m t => Function.update m t (m t ++ [r.host])) m) m
        t = m t ++ rows.flatMap fun r => List.replicate (r.tags.count t) r.host := by
    induction rows with
    | nil => simp
    | cons r rows ih =>
        intro m
        rw [List.foldl_cons, ih, tagMap_row, List.append_assoc, List.flatMap_cons]
  simpa [tagMap] using hfold fun _ => []

theorem resolve_tag (reg : Registry) (t : String) :
    reg.resolve ["@" ++ t] =
      reg.rows.flatMap fun r => List.replicate (r.tags.count t) r.host := by
  have hitem : expandItem (tagMap reg.rows) ("@" ++ t) = tagMap reg.rows t := by
    simp [expandItem, startsWith, dropFirst]
  rw [resolve, List.flatMap_singleton, hitem, tagMap_eq]

theorem listTargets_tag (reg : Registry) (t : String) :
    (reg.listTargets (some [t])).map listedHost =
      (reg.rows.filter fun r => decide (t ∈ r.tags)).map Row.host := by
  have hhost : listedHost ∘ listing = Row.host := rfl
  simp [listTargets, hhost]

/-! ### Multiplicities -/

/-- Without repetitions the index lists the rows that have the tag. -/
theorem index_of_distinct {rows : List Row} {t : String} (h : ∀ r ∈ rows, r.tags.count t ≤ 1) :
    (rows.flatMap fun r => List.replicate (r.tags.count t) r.host) =
      (rows.filter fun r => decide (t ∈ r.tags)).map Row.host := by
  induction rows with
  | nil => rfl
  | cons r rows ih =>
      have hrest := ih fun r' hr' => h r' (List.mem_cons_of_mem _ hr')
      rw [List.flatMap_cons, hrest]
      by_cases ht : t ∈ r.tags
      · have hone : r.tags.count t = 1 := by
          have hle := h r List.mem_cons_self
          have hpos := List.count_pos_iff.mpr ht
          omega
        simp [ht, hone]
      · simp [ht, List.count_eq_zero_of_not_mem ht]

/-- The index is never shorter than the filter, and longer where a row has the tag twice. -/
theorem index_length (rows : List Row) (t : String) :
    (rows.filter fun r => decide (t ∈ r.tags)).length ≤
        (rows.flatMap fun r => List.replicate (r.tags.count t) r.host).length ∧
      ((rows.filter fun r => decide (t ∈ r.tags)).length =
        (rows.flatMap fun r => List.replicate (r.tags.count t) r.host).length →
          ∀ r ∈ rows, r.tags.count t ≤ 1) := by
  induction rows with
  | nil => simp
  | cons r rows ih =>
      obtain ⟨hle, hdistinct⟩ := ih
      rw [List.flatMap_cons, List.length_append, List.length_replicate]
      by_cases ht : t ∈ r.tags
      · have hpos := List.count_pos_iff.mpr ht
        rw [List.filter_cons_of_pos (by simpa using ht), List.length_cons]
        refine ⟨by omega, fun heq r' hr' => ?_⟩
        rcases List.mem_cons.mp hr' with rfl | hr'
        · omega
        · exact hdistinct (by omega) r' hr'
      · have hzero := List.count_eq_zero_of_not_mem ht
        rw [List.filter_cons_of_neg (by simpa using ht)]
        refine ⟨by omega, fun heq r' hr' => ?_⟩
        rcases List.mem_cons.mp hr' with rfl | hr'
        · omega
        · exact hdistinct (by omega) r' hr'

/-- The two selections by `t` agree exactly if no row stores `t` twice. -/
theorem selectionsAgree_iff (reg : Registry) (t : String) :
    SelectionsAgree reg t ↔ ∀ r ∈ reg.rows, r.tags.count t ≤ 1 := by
  rw [SelectionsAgree, resolve_tag, listTargets_tag]
  constructor
  · intro hperm
    apply (index_length reg.rows t).2
    rw [hperm.length_eq, List.length_map]
  · intro h
    rw [index_of_distinct h]

/-! ### Runs -/

/-- A call of the registry, with the database's clock. -/
inductive RegistryCall where
  | add (host : String) (port : Int) (tags : Option (List String)) (note createdAt : String)
  | remove (host : String) (port : Int)

/-- The registry under `add_target` and `remove_target`. -/
def registryCalls : Lts Registry RegistryCall where
  init reg := reg = Registry.empty
  step reg
    | .add host port tags note createdAt => some (reg.addTarget host port tags note createdAt).2
    | .remove host port => some (reg.removeTarget host port).2

/-- A call that adds a row gives it each tag once. -/
def TagsDistinct (reg : Registry) : RegistryCall → Prop
  | .add host port tags _ _ =>
    bindInteger port = .ok () → reg.find host port = none → (tags.getD []).Nodup
  | .remove _ _ => True

theorem distinct_invariant : registryCalls.Invariant TagsDistinct fun reg =>
    ∀ r ∈ reg.rows, r.tags.Nodup where
  init reg hreg := by
    rw [show reg = Registry.empty from hreg]
    simp [Registry.empty]
  step reg call reg' _ h hcall hstep := by
    cases call with
    | add host port tags note createdAt =>
        obtain rfl := Option.some.inj hstep
        unfold addTarget
        cases hbind : bindInteger port with
        | error e => exact h
        | ok u =>
            intro r hr
            rcases mem_insertOrIgnore hr with hr | hnew
            · exact h r hr
            · rw [hnew.2]
              exact hcall hbind hnew.1
    | remove host port =>
        obtain rfl := Option.some.inj hstep
        unfold removeTarget
        split
        · exact h
        · split
          · exact h
          · exact fun r hr => h r (List.mem_of_mem_filter hr)

/-- Where every row is given each tag once, the two selections agree for every tag; and
`resolve` always is the concatenation of the expansions of the items. -/
theorem tag_selections_agree {reg : Registry} (h : registryCalls.Reachable TagsDistinct reg) :
    (∀ t, SelectionsAgree reg t) ∧
      ∀ targets, reg.resolve targets = targets.flatMap fun item => reg.resolve [item] := by
  refine ⟨fun t => (selectionsAgree_iff reg t).mpr fun r hr => ?_, fun targets => ?_⟩
  · exact List.nodup_iff_count_le_one.mp (distinct_invariant.reachable h r hr) t
  · simp [resolve]

/-- Two ports of one host with the tag `web`, each of them once. -/
def webCalls : List RegistryCall :=
  [.add "10.0.0.1" 9000 (some ["web", "prod"]) "" "", .add "10.0.0.1" 9001 (some ["web"]) "" ""]

/-- The registry with both. -/
def webRegistry : Registry := (registryCalls.run webCalls .empty).get rfl

theorem webRegistry_reachable : registryCalls.Reachable TagsDistinct webRegistry := by
  have hempty : registryCalls.Reachable TagsDistinct Registry.empty := .init rfl
  refine .step (l := .add "10.0.0.1" 9001 (some ["web"]) "" "")
    (.step (l := .add "10.0.0.1" 9000 (some ["web", "prod"]) "" "") hempty ?_ rfl) ?_ rfl
  · exact fun _ _ => by decide
  · exact fun _ _ => by decide

theorem tag_selections_agree_witness :
    webRegistry.resolve ["@web"] = ["10.0.0.1", "10.0.0.1"] ∧
      SelectionsAgree webRegistry "web" :=
  ⟨by decide +kernel, (tag_selections_agree webRegistry_reachable).1 "web"⟩

/-- The host of a row with a repeated tag is resolved twice and listed once. -/
theorem repeated_tag_resolved_twice :
    ¬ ∀ reg, registryCalls.Reachable Lts.always reg → ∀ t, SelectionsAgree reg t := by
  intro h
  have hreach : registryCalls.Reachable Lts.always
      (Registry.empty.addTarget "10.0.0.1" 9000 (some ["web", "web"]) "" "").2 :=
    .step (l := .add "10.0.0.1" 9000 (some ["web", "web"]) "" "")
      (.init (s := Registry.empty) rfl) trivial rfl
  have hlength := (h _ hreach "web").length_eq
  revert hlength
  decide +kernel

end McpSocketServer
