import McpSocketServer.Server.TargetTools

/-!
# Removing a target by the name under which it was added

`add_target` strips the brackets of an IPv6 address and registers what is left, and
`remove_target` takes the host as it is given: for the lock check, for the liveness check and
for the delete. A target added as `[v6]` is registered as `v6` and cannot be removed as
`[v6]`. The two tools cancel exactly for the hosts that stripping does not change.
-/

namespace McpSocketServer

open Registry

/-- The answer `{"ok": True, …}`. -/
def answersOk (reply : Json) : Bool :=
  match reply with
  | .obj fields => (fieldD fields "ok" .null).truthy
  | _ => false

/-- `remove_target(host, port)` returns ok and leaves the rows `rows`. -/
def RemovesTo (reg : Registry) (lockManager : Option LockManager) (host : String) (port : Int)
    (rows : List Row) : Prop :=
  ∃ reply reg', removeTargetTool (some reg) lockManager host port = (.ok reply, some reg') ∧
    answersOk reply = true ∧ reg'.rows = rows

/-- No lock is held on the host. -/
def HostUnlocked (lockManager : Option LockManager) (host : String) : Prop :=
  (lockManager.map fun lm => lm.hasActive host).getD false = false

section

variable {reg reg' : Registry} {lockManager : Option LockManager} {host : String} {port : Int}

theorem answersOk_refusal (error : String) : answersOk (refusal error) = false := rfl

/-- A forced call that returns ok has registered the stripped host. -/
theorem addTargetTool_ok {tags : Option (List String)} {note createdAt : String}
    {probe : Except PyErr Unit} {reply : Json}
    (hnew : reg.find (stripBrackets host) port = none)
    (hadd : addTargetTool (some reg) host port tags note true probe createdAt =
      (.ok reply, some reg')) (hok : answersOk reply = true) :
    bindInteger port = .ok () ∧
      reg'.rows = reg.rows ++ [⟨stripBrackets host, port, tags.getD [], note, createdAt, false⟩] := by
  simp only [addTargetTool, if_true, Registry.addTarget] at hadd
  cases hbind : bindInteger port with
  | error e =>
      rw [hbind] at hadd
      obtain rfl : refusal e.message = reply := Except.ok.inj (congrArg Prod.fst hadd)
      rw [answersOk_refusal] at hok
      cases hok
  | ok u =>
      rw [hbind] at hadd
      obtain rfl := Option.some.inj (congrArg Prod.snd hadd)
      refine ⟨rfl, ?_⟩
      exact insertOrIgnore_fresh (find_eq_none_iff.mp hnew)

/-- A row that was added last, and no other, is deleted by its key. -/
theorem filter_added {rows : List Row} {row : Row} (h : row.key ∉ rows.map Row.key) :
    (rows ++ [row]).filter (fun r => r.key ≠ row.key) = rows := by
  rw [List.filter_append, List.filter_eq_self.mpr, List.filter_cons_of_neg (by simp),
    List.filter_nil, List.append_nil]
  intro r hr
  have hne : r.key ≠ row.key := fun heq => h (List.mem_map.mpr ⟨r, hr, heq⟩)
  simpa using hne

/-- What `remove_target` leaves when it returns ok. -/
theorem removeTargetTool_ok {rows : List Row} (h : RemovesTo reg lockManager host port rows) :
    rows = reg.rows.filter fun r => r.key ≠ (host, port) := by
  obtain ⟨reply, reg', hremove, hok, rfl⟩ := h
  simp only [removeTargetTool] at hremove
  split at hremove
  · obtain rfl := Except.ok.inj (congrArg Prod.fst hremove)
    cases hok
  split at hremove
  · cases congrArg Prod.fst hremove
  · obtain rfl := Except.ok.inj (congrArg Prod.fst hremove)
    cases hok
  unfold Registry.removeTarget at hremove
  split at hremove
  · cases congrArg Prod.fst hremove
  · split at hremove
    · obtain rfl := Except.ok.inj (congrArg Prod.fst hremove)
      cases hok
    · obtain rfl := Option.some.inj (congrArg Prod.snd hremove)
      rfl

/-- A target without a lock and without a listener is removed. -/
theorem removeTargetTool_removes (hunlocked : HostUnlocked lockManager host)
    (hbind : bindInteger port = .ok ()) {row : Row} (hrow : reg.find host port = some row)
    (hquiet : row.listenLiveness = false) :
    RemovesTo reg lockManager host port (reg.rows.filter fun r => r.key ≠ (host, port)) := by
  have hunlocked' : ¬ (lockManager.map fun lm => lm.hasActive host).getD false = true := by
    rw [show (lockManager.map fun lm => lm.hasActive host).getD false = false from hunlocked]
    exact nofun
  refine ⟨.obj [("ok", .bool true)], reg.delete host port, ?_, rfl, rfl⟩
  simp [removeTargetTool, hunlocked', getListenLiveness, Registry.removeTarget, hbind, hrow, hquiet]

/-- A forced `add_target` of a target that is not registered and `remove_target` with the same
arguments cancel exactly if the host is written as it is registered. -/
theorem add_remove_cancel_iff {tags : Option (List String)} {note createdAt : String}
    {probe : Except PyErr Unit} {reply : Json}
    (hnew : reg.find (stripBrackets host) port = none)
    (hunlocked : HostUnlocked lockManager (stripBrackets host))
    (hadd : addTargetTool (some reg) host port tags note true probe createdAt =
      (.ok reply, some reg')) (hok : answersOk reply = true) :
    RemovesTo reg' lockManager host port reg.rows ↔ stripBrackets host = host := by
  obtain ⟨hbind, hrows⟩ := addTargetTool_ok hnew hadd hok
  have hfresh : (stripBrackets host, port) ∉ reg.rows.map Row.key := find_eq_none_iff.mp hnew
  constructor
  · intro hremove
    -- the row that was added has another key than the one that is removed, so it stays
    by_contra hne
    have hsame := removeTargetTool_ok hremove
    have hstays : (⟨stripBrackets host, port, tags.getD [], note, createdAt, false⟩ : Row) ∈
        reg.rows := by
      rw [hsame, hrows]
      exact List.mem_filter.mpr ⟨by simp, by simpa [Row.key] using hne⟩
    exact hfresh (List.mem_map.mpr ⟨_, hstays, rfl⟩)
  · intro hhost
    rw [hhost] at hnew hunlocked hrows hfresh
    let row : Row := ⟨host, port, tags.getD [], note, createdAt, false⟩
    have hkey : row.key = (host, port) := rfl
    have hfind : reg'.find host port = some row := by
      have hold : reg.rows.find? (fun r => decide (r.key = (host, port))) = none := hnew
      rw [Registry.find, hrows, List.find?_append, hold, Option.none_or]
      exact List.find?_cons_of_pos (decide_eq_true hkey)
    have hremove := removeTargetTool_removes hunlocked hbind hfind rfl
    rw [hrows, ← hkey] at hremove
    rwa [filter_added (hkey ▸ hfresh)] at hremove

end

theorem add_remove_cancel_witness :
    RemovesTo (Registry.empty.addTarget "fd00::5" 9000 (some ["lab"]) "" "").2 none "fd00::5" 9000
      [] := by
  have hadd : addTargetTool (some .empty) "fd00::5" 9000 (some ["lab"]) "" true (.ok ()) "" =
      (.ok (.obj [("ok", .bool true), ("host", .str "fd00::5"), ("port", .int 9000)]),
        some (Registry.empty.addTarget "fd00::5" 9000 (some ["lab"]) "" "").2) := rfl
  have hunlocked : HostUnlocked none (stripBrackets "fd00::5") := rfl
  exact (add_remove_cancel_iff rfl hunlocked hadd rfl).mpr (by decide +kernel)

/-- The target that was added as `[fd00::5]` is not found under this name. -/
theorem bracketed_host_stays :
    ¬ ∀ (reg reg' : Registry) (lockManager : Option LockManager) (host : String) (port : Int)
      (tags : Option (List String)) (note createdAt : String) (probe : Except PyErr Unit)
      (reply : Json), reg.find (stripBrackets host) port = none →
      HostUnlocked lockManager host → HostUnlocked lockManager (stripBrackets host) →
      addTargetTool (some reg) host port tags note true probe createdAt = (.ok reply, some reg') →
      answersOk reply = true → RemovesTo reg' lockManager host port reg.rows := by
  intro h
  have hremove := h .empty _ none "[fd00::5]" 9000 none "" "" (.ok ()) _ (by decide +kernel) rfl
    rfl rfl rfl
  have hrows := removeTargetTool_ok hremove
  revert hrows
  decide +kernel

end McpSocketServer
