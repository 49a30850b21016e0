import Mathlib.Data.List.Infix
import Mathlib.Tactic.ByContra
import Mathlib.Tactic.SplitIfs
import McpSocketServer.Misc.ExceptState
import McpSocketServer.Proofs.ConfigMerge

/-!
# Omitted items have their defaults

`load_config` raises where the file replaces `bind` by no dictionary and where the port of the
environment is no number. Everywhere else it returns the defaults of what the file omits and
the environment does not override.
-/

namespace McpSocketServer

open Nested

/-- The dictionary that a file gives. -/
abbrev YamlDict := NestedDict YamlKey YamlLeaf

/-- `overrides` is what is merged for the file: nothing, where there is no file or no document. -/
def FileGives (file : Option (Except PyErr Yaml)) (overrides : YamlItems) : Prop :=
  match file with
  | none => overrides = []
  | some content => ∃ document, content = .ok document ∧ orEmpty document = .dict overrides

/-- The variables that `load_config` reads, and where their texts go. -/
def envItems : List (String × List YamlKey) :=
  [("MCP_BIND_HOST", [.str "bind", .str "host"]),
    ("MCP_BIND_PORT", [.str "bind", .str "port"]),
    ("MCP_LOG_LEVEL", [.str "log_level"])]

/-- A variable that is set overrides the item, a part of it, or what it is a part of. -/
def EnvOverrides (env : String → Option String) (path : List YamlKey) : Prop :=
  ∃ item ∈ envItems, (envText env item.1).isSome ∧ ¬Apart path item.2

/-- The file does not replace `bind` by a value that is no dictionary. -/
def BindIsDict (overrides : YamlDict) : Prop := ∀ a, overrides.get? [.str "bind"] ≠ some (.leaf a)

/-- The port of the environment is a number, where it is set. -/
def PortReadable (env : String → Option String) : Prop :=
  ∀ text, envText env "MCP_BIND_PORT" = some text → (parseInt text).isSome

/-- The keys beside `bind` from which the record is read. -/
def configKeys : List String :=
  ["db_path", "behind_proxy", "audit_retention_days", "download_dir", "proxy", "log_level",
    "default_timeout", "pool", "cmd_exec_whitelist"]

/-- The record as a dictionary of the form of the defaults. -/
def Config.data (c : Config) : YamlItems :=
  [(.str "bind", .dict [(.str "host", c.host), (.str "port", c.port)]),
    (.str "db_path", c.dbPath),
    (.str "behind_proxy", c.behindProxy),
    (.str "audit_retention_days", c.auditRetentionDays),
    (.str "download_dir", c.downloadDir),
    (.str "proxy", c.proxy),
    (.str "log_level", c.logLevel),
    (.str "default_timeout", c.defaultTimeout),
    (.str "pool", c.pool),
    (.str "cmd_exec_whitelist", c.cmdExecWhitelist)]

/-- The data has every key that the record is read from; `b` is its `bind`. -/
structure Complete (data b : YamlItems) : Prop where
  bind : data.lookup (.str "bind") = some (.dict b)
  host : (b.lookup (.str "host")).isSome
  port : (b.lookup (.str "port")).isSome
  rest : ∀ key ∈ configKeys, (data.lookup (.str key)).isSome

variable {file : Option (Except PyErr Yaml)} {env : String → Option String} {overrides : YamlDict}
  {data b : YamlItems} {c : Config}

theorem getKey_of_lookup {items : YamlItems} {key : String} {v : Yaml}
    (h : items.lookup (.str key) = some v) : getKey (.dict items) key = .ok v := by
  rw [getKey, h]

/-! ### The merge -/

theorem mergeFile_of_gives (h : FileGives file overrides.items) :
    mergeFile file = .ok (deepMerge configDefaults overrides.items) := by
  unfold FileGives at h
  split at h
  · rw [h, deepMerge]
    rfl
  · obtain ⟨document, rfl, hdocument⟩ := h
    have hitems : yamlItems (orEmpty document) = .ok overrides.items := by rw [hdocument, yamlItems]
    rw [mergeFile, bind_of_ok rfl, bind_of_ok hitems]
    rfl

theorem lookup_deepMerge_isSome {items given : YamlItems} (hgiven : (dict given).UniqueKeys)
    {k : YamlKey} (h : (items.lookup k).isSome) :
    ((deepMerge items given).lookup k).isSome := by
  cases hk : given.lookup k with
  | none =>
      rw [lookup_deepMerge_none hk]
      exact h
  | some v =>
      rw [lookup_deepMerge_some hgiven.nodup hk]
      rfl

/-- What is merged into the defaults is complete, unless it replaces `bind`. -/
theorem complete_merged (h : BindIsDict overrides) :
    ∃ b, Complete (deepMerge configDefaults overrides.items) b := by
  have hrest : ∀ key ∈ configKeys,
      ((deepMerge configDefaults overrides.items).lookup (.str key)).isSome := by
    intro key hkey
    have hdefault : ∀ key ∈ configKeys, (configDefaults.lookup (.str key)).isSome := by decide
    exact lookup_deepMerge_isSome overrides.unique (hdefault key hkey)
  have hbind : configDefaults.lookup (.str "bind") = some (.dict
      [(.str "host", .leaf (.str "0.0.0.0")), (.str "port", .leaf (.int 8080))]) := rfl
  cases hover : overrides.items.lookup (.str "bind") with
  | none => exact ⟨_, (lookup_deepMerge_none hover).trans hbind, rfl, rfl, hrest⟩
  | some v =>
      cases v with
      | leaf a => exact absurd (congrArg (Option.bind · some) hover) (h a)
      | dict inner =>
          have hmerged : (deepMerge configDefaults overrides.items).lookup (.str "bind") =
              some (mergedItem (configDefaults.lookup (.str "bind")) (dict inner)) :=
            lookup_deepMerge_some overrides.unique.nodup hover
          rw [hbind, mergedItem_dict] at hmerged
          have hinner : (dict inner).UniqueKeys := overrides.unique.of_lookup hover
          exact ⟨_, hmerged, lookup_deepMerge_isSome hinner rfl,
            lookup_deepMerge_isSome hinner rfl, hrest⟩

/-- A value of the file that is no dictionary stands for `bind` after the merge. -/
theorem lookup_merged_leaf {a : YamlLeaf} (h : overrides.get? [.str "bind"] = some (.leaf a)) :
    (deepMerge configDefaults overrides.items).lookup (.str "bind") = some (.leaf a) := by
  obtain ⟨v, hv, hleaf⟩ := Option.bind_eq_some_iff.mp h
  obtain rfl := Option.some.inj hleaf
  rw [lookup_deepMerge_some overrides.unique.nodup hv, mergedItem]

/-! ### The environment -/

theorem setBind_complete (h : Complete data b) (key : String) (v : Yaml) :
    setBind data key v = .ok (setItem data (.str "bind") (.dict (setItem b (.str key) v))) := by
  rw [setBind, bind_of_ok (getKey_of_lookup h.bind)]
  rfl

theorem isSome_lookup_setItem {items : YamlItems} {k k' : YamlKey} (v : Yaml)
    (h : (items.lookup k').isSome) : ((setItem items k v).lookup k').isSome := by
  rw [lookup_setItem]
  split_ifs
  · rfl
  · exact h

theorem Complete.setBind (h : Complete data b) (key : String) (v : Yaml) :
    Complete (setItem data (.str "bind") (.dict (setItem b (.str key) v)))
      (setItem b (.str key) v) where
  bind := by rw [lookup_setItem, if_pos rfl]
  host := isSome_lookup_setItem v h.host
  port := isSome_lookup_setItem v h.port
  rest key hkey := isSome_lookup_setItem _ (h.rest key hkey)

theorem Complete.setItem (h : Complete data b) {key : String} (hkey : key ≠ "bind") (v : Yaml) :
    Complete (setItem data (.str key) v) b where
  bind := by
    rw [lookup_setItem, if_neg fun heq => hkey (YamlKey.str.inj heq).symm]
    exact h.bind
  host := h.host
  port := h.port
  rest key hkey := isSome_lookup_setItem v (h.rest key hkey)

/-- A variable leaves the paths alone that are apart from where its text goes, if it is set. -/
theorem whenSet_complete (env : String → Option String) (name : String) (path : List YamlKey)
    (assign : String → YamlItems → Except PyErr YamlItems) (h : Complete data b)
    (hassign : ∀ text, envText env name = some text → ∃ data' b', assign text data = .ok data' ∧
      Complete data' b' ∧ ∀ p, Apart p path → (dict data').get? p = (dict data).get? p) :
    ∃ data' b', whenSet env name assign data = .ok data' ∧ Complete data' b' ∧
      ∀ p, ¬((envText env name).isSome ∧ ¬Apart p path) →
        (dict data').get? p = (dict data).get? p := by
  unfold whenSet
  cases htext : envText env name with
  | none => exact ⟨data, b, rfl, h, fun _ _ => rfl⟩
  | some text =>
      obtain ⟨data', b', hdata, hcomplete, hframe⟩ := hassign text htext
      refine ⟨data', b', hdata, hcomplete, fun p hp => hframe p ?_⟩
      by_contra hapart
      exact hp ⟨rfl, hapart⟩

theorem assignPort_ok {text : String} (htext : (parseInt text).isSome) :
    ∃ n, ∀ data, assignPort text data = setBind data "port" (.leaf (.int n)) := by
  obtain ⟨n, hn⟩ := Option.isSome_iff_exists.mp htext
  refine ⟨n, fun data => ?_⟩
  rw [assignPort, envInt, hn]
  rfl

/-- The environment overrides what its variables stand for and nothing else. -/
theorem overrideEnv_complete (h : Complete data b) (hport : PortReadable env) :
    ∃ data' b', overrideEnv env data = .ok data' ∧ Complete data' b' ∧
      ∀ p, ¬EnvOverrides env p → (dict data').get? p = (dict data).get? p := by
  obtain ⟨data₁, b₁, hdata₁, h₁, hframe₁⟩ :=
    whenSet_complete env "MCP_BIND_HOST" [.str "bind", .str "host"] assignHost h fun text _ =>
      ⟨_, _, setBind_complete h "host" _, h.setBind "host" _,
        fun p hp => get?_setItem_inner_apart hp h.bind _⟩
  obtain ⟨data₂, b₂, hdata₂, h₂, hframe₂⟩ :=
    whenSet_complete env "MCP_BIND_PORT" [.str "bind", .str "port"] assignPort h₁
      fun text htext => by
        obtain ⟨n, hn⟩ := assignPort_ok (hport text htext)
        exact ⟨_, _, (hn data₁).trans (setBind_complete h₁ "port" _), h₁.setBind "port" _,
          fun p hp => get?_setItem_inner_apart hp h₁.bind _⟩
  obtain ⟨data₃, b₃, hdata₃, h₃, hframe₃⟩ :=
    whenSet_complete env "MCP_LOG_LEVEL" [.str "log_level"] assignLogLevel h₂ fun text _ =>
      ⟨_, _, rfl, h₂.setItem (by decide) _, fun p hp => get?_setItem_apart hp _ _⟩
  refine ⟨data₃, b₃, ?_, h₃, fun p hp => ?_⟩
  · rw [overrideEnv, bind_of_ok hdata₁, bind_of_ok hdata₂]
    exact hdata₃
  · have hitem : ∀ item ∈ envItems, ¬((envText env item.1).isSome ∧ ¬Apart p item.2) :=
      fun item hitem hset => hp ⟨item, hitem, hset⟩
    rw [hframe₃ p (hitem ("MCP_LOG_LEVEL", [.str "log_level"]) (by decide)),
      hframe₂ p (hitem ("MCP_BIND_PORT", [.str "bind", .str "port"]) (by decide)),
      hframe₁ p (hitem ("MCP_BIND_HOST", [.str "bind", .str "host"]) (by decide))]

/-! ### The record -/

/-- The record of complete data, and what it reads. -/
theorem readConfig_complete (h : Complete data b) :
    ∃ c, readConfig data = .ok c ∧ b.lookup (.str "host") = some c.host ∧
      b.lookup (.str "port") = some c.port ∧
      ∀ key ∈ configKeys, c.data.lookup (.str key) = data.lookup (.str key) := by
  have hrest : ∀ key ∈ configKeys, ∃ v, data.lookup (.str key) = some v :=
    fun key hkey => Option.isSome_iff_exists.mp (h.rest key hkey)
  obtain ⟨host, hhost⟩ := Option.isSome_iff_exists.mp h.host
  obtain ⟨port, hport⟩ := Option.isSome_iff_exists.mp h.port
  obtain ⟨dbPath, hdbPath⟩ := hrest "db_path" (by decide)
  obtain ⟨behindProxy, hbehindProxy⟩ := hrest "behind_proxy" (by decide)
  obtain ⟨retention, hretention⟩ := hrest "audit_retention_days" (by decide)
  obtain ⟨downloadDir, hdownloadDir⟩ := hrest "download_dir" (by decide)
  obtain ⟨proxy, hproxy⟩ := hrest "proxy" (by decide)
  obtain ⟨logLevel, hlogLevel⟩ := hrest "log_level" (by decide)
  obtain ⟨timeout, htimeout⟩ := hrest "default_timeout" (by decide)
  obtain ⟨pool, hpool⟩ := hrest "pool" (by decide)
  obtain ⟨whitelist, hwhitelist⟩ := hrest "cmd_exec_whitelist" (by decide)
  refine ⟨⟨host, port, dbPath, behindProxy, retention, downloadDir, proxy, logLevel, timeout, pool,
    whitelist⟩, ?_, hhost, hport, ?_⟩
  · rw [readConfig, bind_of_ok (getKey_of_lookup h.bind), bind_of_ok (getKey_of_lookup hhost),
      bind_of_ok (getKey_of_lookup hport), bind_of_ok (getKey_of_lookup hdbPath),
      bind_of_ok (getKey_of_lookup hbehindProxy), bind_of_ok (getKey_of_lookup hretention),
      bind_of_ok (getKey_of_lookup hdownloadDir), bind_of_ok (getKey_of_lookup hproxy),
      bind_of_ok (getKey_of_lookup hlogLevel), bind_of_ok (getKey_of_lookup htimeout),
      bind_of_ok (getKey_of_lookup hpool), bind_of_ok (getKey_of_lookup hwhitelist)]
    rfl
  · intro key hkey
    simp only [configKeys, List.mem_cons, List.not_mem_nil, or_false] at hkey
    rcases hkey with rfl | rfl | rfl | rfl | rfl | rfl | rfl | rfl | rfl
    exacts [hdbPath.symm, hbehindProxy.symm, hretention.symm, hdownloadDir.symm, hproxy.symm,
      hlogLevel.symm, htimeout.symm, hpool.symm, hwhitelist.symm]

/-- A key of the defaults is `bind` or one of the others. -/
theorem mem_configKeys {k : YamlKey} {v : Yaml} (h : configDefaults.lookup k = some v) :
    k = .str "bind" ∨ ∃ key ∈ configKeys, k = .str key := by
  have hkeys : configDefaults.map Prod.fst = .str "bind" :: configKeys.map .str := rfl
  have hmem : k ∈ configDefaults.map Prod.fst := List.mem_map_of_mem (mem_of_lookup_eq_some h)
  rw [hkeys] at hmem
  rcases List.mem_cons.mp hmem with hbind | hkey
  · exact .inl hbind
  · obtain ⟨key, hkey, heq⟩ := List.mem_map.mp hkey
    exact .inr ⟨key, hkey, heq.symm⟩

/-- The record has the value of the data at every path at which this is the default. -/
theorem data_get? (h : Complete data b) (hhost : b.lookup (.str "host") = some c.host)
    (hport : b.lookup (.str "port") = some c.port)
    (hrest : ∀ key ∈ configKeys, c.data.lookup (.str key) = data.lookup (.str key))
    {path : List YamlKey} {v : Yaml} (hpath : path ≠ [])
    (hdefault : (dict configDefaults).get? path = some v)
    (hdata : (dict data).get? path = some v) : (dict c.data).get? path = some v := by
  cases path with
  | nil => exact absurd rfl hpath
  | cons k path =>
      obtain ⟨u, hu, hdefault⟩ := Option.bind_eq_some_iff.mp hdefault
      rcases mem_configKeys hu with rfl | ⟨key, hkey, rfl⟩
      · obtain rfl := Option.some.inj hu
        rw [get?_dict, h.bind, Option.bind_some] at hdata
        cases path with
        | nil =>
            -- all of `bind` is the default
            obtain rfl := Option.some.inj hdefault
            obtain rfl := Nested.dict.inj (Option.some.inj hdata)
            have hhost : Nested.leaf (.str "0.0.0.0") = c.host := Option.some.inj hhost
            have hport : Nested.leaf (.int 8080) = c.port := Option.some.inj hport
            rw [hhost, hport]
            rfl
        | cons k path =>
            obtain ⟨w, hw, -⟩ := Option.bind_eq_some_iff.mp hdefault
            rw [get?_dict] at hdata
            rw [lookup_cons_ite] at hw
            by_cases hk : k = .str "host"
            · subst hk
              rw [hhost] at hdata
              exact hdata
            · rw [if_neg hk, lookup_cons_ite] at hw
              by_cases hk : k = .str "port"
              · subst hk
                rw [hport] at hdata
                exact hdata
              · rw [if_neg hk] at hw
                cases hw
      · rw [get?_dict, hrest key hkey]
        exact hdata

/-! ### What raises -/

theorem of_whenSet {name : String} {assign : String → YamlItems → Except PyErr YamlItems}
    {data' : YamlItems} (h : whenSet env name assign data = .ok data') :
    (envText env name = none ∧ data' = data) ∨
      ∃ text, envText env name = some text ∧ assign text data = .ok data' := by
  unfold whenSet at h
  cases htext : envText env name with
  | none =>
      rw [htext] at h
      exact .inl ⟨rfl, (Except.ok.inj h).symm⟩
  | some text =>
      rw [htext] at h
      exact .inr ⟨text, rfl, h⟩

/-- An item of `bind` is set in a dictionary only. -/
theorem of_setBind {key : String} {v : Yaml} {data' : YamlItems}
    (h : setBind data key v = .ok data') (a : YamlLeaf) :
    data.lookup (.str "bind") ≠ some (.leaf a) := by
  intro hleaf
  rw [setBind, bind_of_ok (getKey_of_lookup hleaf)] at h
  cases h

theorem of_assignPort {text : String} {data' : YamlItems}
    (h : assignPort text data = .ok data') :
    (parseInt text).isSome ∧ ∃ n, setBind data "port" (.leaf (.int n)) = .ok data' := by
  obtain ⟨n, hn, hset⟩ := of_bind_ok h
  refine ⟨?_, n, hset⟩
  cases htext : parseInt text with
  | none =>
      rw [envInt, htext] at hn
      cases hn
  | some n => rfl

/-- Overrides that do not raise have read the port, and have not made `bind` a dictionary. -/
theorem of_overrideEnv {data' : YamlItems} (h : overrideEnv env data = .ok data') :
    PortReadable env ∧ ∀ a, data.lookup (.str "bind") = some (.leaf a) →
      data'.lookup (.str "bind") = some (.leaf a) := by
  obtain ⟨data₁, hhost, h⟩ := of_bind_ok h
  obtain ⟨data₂, hport, hlevel⟩ := of_bind_ok h
  constructor
  · intro text htext
    rcases of_whenSet hport with ⟨hunset, -⟩ | ⟨text', htext', hassign⟩
    · rw [hunset] at htext
      cases htext
    · obtain rfl := Option.some.inj (htext'.symm.trans htext)
      exact (of_assignPort hassign).1
  · intro a hleaf
    have hleaf₁ : data₁.lookup (.str "bind") = some (.leaf a) := by
      rcases of_whenSet hhost with ⟨-, rfl⟩ | ⟨text, -, hassign⟩
      · exact hleaf
      · exact absurd hleaf (of_setBind hassign a)
    have hleaf₂ : data₂.lookup (.str "bind") = some (.leaf a) := by
      rcases of_whenSet hport with ⟨-, rfl⟩ | ⟨text, -, hassign⟩
      · exact hleaf₁
      · obtain ⟨-, n, hset⟩ := of_assignPort hassign
        exact absurd hleaf₁ (of_setBind hset a)
    rcases of_whenSet hlevel with ⟨-, rfl⟩ | ⟨text, -, hassign⟩
    · exact hleaf₂
    · obtain rfl := Except.ok.inj hassign
      rw [lookup_setItem, if_neg (by decide)]
      exact hleaf₂

/-! ### `load_config` -/

theorem loadConfig_eq (h : FileGives file overrides.items) :
    loadConfig file env =
      overrideEnv env (deepMerge configDefaults overrides.items) >>= readConfig := by
  rw [loadConfig, bind_of_ok (mergeFile_of_gives h)]

/-- A configuration that is returned had a dictionary for `bind` and a number for the port. -/
theorem of_loadConfig (hfile : FileGives file overrides.items) (h : loadConfig file env = .ok c) :
    BindIsDict overrides ∧ PortReadable env := by
  rw [loadConfig_eq hfile] at h
  obtain ⟨data, hdata, hread⟩ := of_bind_ok h
  obtain ⟨hport, hleaf⟩ := of_overrideEnv hdata
  refine ⟨fun a ha => ?_, hport⟩
  obtain ⟨v, hv, hread⟩ := of_bind_ok hread
  rw [getKey_of_lookup (hleaf a (lookup_merged_leaf ha))] at hv
  obtain rfl := Except.ok.inj hv
  obtain ⟨w, hw, -⟩ := of_bind_ok hread
  cases hw

/-- Every other configuration is returned, with the defaults of the omitted items. -/
theorem loadConfig_complete (hfile : FileGives file overrides.items) (hbind : BindIsDict overrides)
    (hport : PortReadable env) :
    ∃ c, loadConfig file env = .ok c ∧ ∀ path v, (dict configDefaults).get? path = some v →
      overrides.Omits path → ¬EnvOverrides env path → (dict c.data).get? path = some v := by
  obtain ⟨b, hmerged⟩ := complete_merged hbind
  obtain ⟨data, b', hdata, hcomplete, hframe⟩ := overrideEnv_complete hmerged hport
  obtain ⟨c, hc, hhost, hport, hrest⟩ := readConfig_complete hcomplete
  refine ⟨c, ?_, ?_⟩
  · rw [loadConfig_eq hfile, bind_of_ok hdata, hc]
  · rintro path v hdefault ⟨hnone, hcut⟩ henv
    have hpath : path ≠ [] := by
      rintro rfl
      cases hnone
    refine data_get? hcomplete hhost hport hrest hpath hdefault ?_
    rw [hframe path henv, ← mergedItem_dict, get?_mergedItem_none overrides.unique hnone hcut]
    exact hdefault

/-- Merging configurations. -/
theorem config_merging :
    (∀ (κ α : Type) [DecidableEq κ] (base overrides : NestedDict κ α),
      (∀ path, MergedAt base overrides path) ∧
        (base.deepMerge overrides).deepMerge overrides = base.deepMerge overrides ∧
        base.deepMerge .empty = base) ∧
    ∀ (file : Option (Except PyErr Yaml)) (env : String → Option String) (overrides : YamlDict),
      FileGives file overrides.items →
        ((∃ c, loadConfig file env = .ok c) ↔ BindIsDict overrides ∧ PortReadable env) ∧
        ∀ c, loadConfig file env = .ok c →
          ∀ path v, (dict configDefaults).get? path = some v → overrides.Omits path →
            ¬EnvOverrides env path → (dict c.data).get? path = some v := by
  refine ⟨fun κ α _ base overrides => ⟨mergedAt base overrides, deepMerge_again base overrides,
    deepMerge_empty base⟩, fun file env overrides hfile => ⟨⟨?_, ?_⟩, ?_⟩⟩
  · rintro ⟨c, hc⟩
    exact of_loadConfig hfile hc
  · rintro ⟨hbind, hport⟩
    obtain ⟨c, hc, -⟩ := loadConfig_complete hfile hbind hport
    exact ⟨c, hc⟩
  · intro c hc
    obtain ⟨hbind, hport⟩ := of_loadConfig hfile hc
    obtain ⟨c', hc', hdefaults⟩ := loadConfig_complete hfile hbind hport
    obtain rfl := Except.ok.inj (hc.symm.trans hc')
    exact hdefaults

/-- A file that sets one item of the pool, and a host in the environment. -/
theorem config_merging_pool :
    ∃ c, loadConfig
        (some (.ok (dict [(.str "pool", dict [(.str "max_conn_per_target", leaf (.int 9))])])))
        (fun name => if name = "MCP_BIND_HOST" then some "1.2.3.4" else none) = .ok c ∧
      (dict c.data).get? [.str "pool", .str "idle_timeout"] = some (leaf (.int 600)) := by
  let overrides : YamlDict :=
    ⟨[(.str "pool", dict [(.str "max_conn_per_target", leaf (.int 9))])],
      .singleton _ (.singleton _ (.leaf _))⟩
  obtain ⟨hreturns, hdefaults⟩ := config_merging.2 (some (.ok (dict overrides.items)))
    (fun name => if name = "MCP_BIND_HOST" then some "1.2.3.4" else none) overrides ⟨_, rfl, rfl⟩
  have hbind : BindIsDict overrides := by
    intro a ha
    cases ha
  obtain ⟨c, hc⟩ := hreturns.mpr ⟨hbind, fun text htext => by cases htext⟩
  refine ⟨c, hc, hdefaults c hc _ _ rfl ⟨rfl, ?_⟩ ?_⟩
  · intro before hbefore a ha
    have hmem := (List.mem_inits _ _).mpr hbefore
    simp only [List.inits, List.map_cons, List.map_nil, List.mem_cons, List.not_mem_nil,
      or_false] at hmem
    rcases hmem with rfl | rfl | rfl <;> cases ha
  · rintro ⟨item, hitem, hset, hapart⟩
    simp only [envItems, List.mem_cons, List.not_mem_nil, or_false] at hitem
    rcases hitem with rfl | rfl | rfl
    · exact hapart ⟨by decide, by decide⟩
    · cases hset
    · cases hset

/-- A file with the key `bind` and nothing below it: the configuration is not returned, though
the file omits `db_path` and the environment is empty. -/
theorem config_merging_fails_bind_null :
    ∃ overrides : YamlDict, overrides.items = [(.str "bind", leaf .null)] ∧
      overrides.Omits [.str "db_path"] ∧
      (∀ path, ¬EnvOverrides (fun _ => none) path) ∧
      (dict configDefaults).get? [.str "db_path"] =
        some (leaf (.str "./mcp_socket_server.db")) ∧
      loadConfig (some (.ok (dict overrides.items))) (fun _ => none) =
        .error ⟨.typeError, "'NoneType' object is not subscriptable"⟩ ∧
      ¬∃ c, loadConfig (some (.ok (dict overrides.items))) (fun _ => none) = .ok c ∧
        (dict c.data).get? [.str "db_path"] = some (leaf (.str "./mcp_socket_server.db")) := by
  refine ⟨⟨[(.str "bind", leaf .null)], .singleton _ (.leaf _)⟩, rfl, ⟨rfl, ?_⟩, ?_, rfl, rfl, ?_⟩
  · intro before hbefore a ha
    have hmem := (List.mem_inits _ _).mpr hbefore
    simp only [List.inits, List.map_cons, List.map_nil, List.mem_cons, List.not_mem_nil,
      or_false] at hmem
    rcases hmem with rfl | rfl <;> cases ha
  · rintro path ⟨item, -, hset, -⟩
    cases hset
  · rintro ⟨c, hc, -⟩
    cases hc

end McpSocketServer
