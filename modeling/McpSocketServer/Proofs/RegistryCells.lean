import McpSocketServer.Misc.Cells
import McpSocketServer.Proofs.RemovalSafety
import McpSocketServer.Proofs.TagSelections

/-!
# The registry as one register for each target

What the registry is for: every pair of host and port has a register, which is empty or holds
a registration. The first `add_target` fills it, later ones leave it, `remove_target` empties
it, and the liveness flag can be written while it is full. The table behaves like these
registers, each on its own: no call on one target is seen by a call on another. What the two
global queries return is read off the registers, up to the order of the rows.
-/

namespace McpSocketServer

/-- A call of the registry that names one target. -/
inductive RowCall where
  | addTarget (host : String) (port : Int) (tags : Option (List String)) (note createdAt : String)
  | removeTarget (host : String) (port : Int)
  | setListenLiveness (host : String) (alive : Bool) (port : Int)
  | getListenLiveness (host : String) (port : Int)
  deriving DecidableEq, Repr

/-- How such a call ends. -/
inductive RowAnswer where
  | reply (r : Except PyErr Json)
  | done (r : Except PyErr Unit)
  | alive (r : Except PyErr Bool)

/-- The target that a call names. -/
def RowCall.target : RowCall → String × Int
  | .addTarget host port _ _ _ | .removeTarget host port | .setListenLiveness host _ port
  | .getListenLiveness host port => (host, port)

/-- The methods of `Registry`. -/
def registryMachine : Machine Registry RowCall RowAnswer where
  start := .empty
  step reg
    | .addTarget host port tags note createdAt =>
      let (reply, reg) := reg.addTarget host port tags note createdAt
      (.reply (.ok reply), reg)
    | .removeTarget host port =>
      let (reply, reg) := reg.removeTarget host port
      (.reply reply, reg)
    | .setListenLiveness host alive port =>
      let (r, reg) := reg.setListenLiveness host alive port
      (.done r, reg)
    | .getListenLiveness host port => (.alive (reg.getListenLiveness host port), reg)

/-- The register of one target. A port that the database cannot bind changes nothing. -/
def rowMachine : Machine (Option Row) RowCall RowAnswer where
  start := none
  step row
    | .addTarget host port tags note createdAt =>
      match bindInteger port with
      | .error e => (.reply (.ok (.obj [("ok", .bool false), ("error", .str e.message)])), row)
      | .ok () =>
        (.reply (.ok (.obj [("ok", .bool true), ("host", .str host), ("port", .int port)])),
          some (row.getD ⟨host, port, tags.getD [], note, createdAt, false⟩))
    | .removeTarget _ port =>
      match bindInteger port with
      | .error e => (.reply (.error e), row)
      | .ok () =>
        match row with
        | none =>
          (.reply (.ok (.obj [("ok", .bool false), ("error", .str "靶机不存在")])), none)
        | some _ => (.reply (.ok (.obj [("ok", .bool true)])), none)
    | .setListenLiveness _ alive port =>
      match bindInteger port with
      | .error e => (.done (.error e), row)
      | .ok () => (.done (.ok ()), row.map fun r => { r with listenLiveness := alive })
    | .getListenLiveness _ port =>
      match bindInteger port with
      | .error e => (.alive (.error e), row)
      | .ok () => (.alive (.ok ((row.map Row.listenLiveness).getD false)), row)

namespace Registry

variable {reg : Registry} {host : String} {port : Int}

/-- The register of a target in the table. -/
def register (reg : Registry) (target : String × Int) : Option Row :=
  reg.find target.1 target.2

theorem register_key {target : String × Int} {row : Row} (h : reg.register target = some row) :
    row.key = target := by
  simpa using List.find?_some h

/-- An insertion fills an empty register and leaves every other one. -/
theorem register_insertOrIgnore (row : Row) (target : String × Int) :
    (reg.insertOrIgnore row).register target =
      if target = row.key then some ((reg.register target).getD row) else reg.register target := by
  by_cases hkey : row.key ∈ reg.rows.map Row.key
  · obtain ⟨old, hmem, hold⟩ := List.mem_map.mp hkey
    rw [insertOrIgnore, dif_pos hkey]
    split
    · rename_i htarget
      subst htarget
      cases hrow : reg.register row.key with
      | none => exact absurd hkey (find_eq_none_iff.mp hrow)
      | some r => rfl
    · rfl
  · rw [register, find, insertOrIgnore_fresh hkey, List.find?_append]
    split
    · rename_i htarget
      subst htarget
      have hnone : reg.rows.find? (fun r => r.key = (row.key.1, row.key.2)) = none :=
        find_eq_none_iff.mpr hkey
      rw [hnone]
      have hrow : reg.register row.key = none := hnone
      rw [hrow]
      simp
    · rename_i htarget
      have hother : ([row].find? fun r => r.key = (target.1, target.2)) = none := by
        simpa using Ne.symm htarget
      rw [hother, Option.or_none]
      rfl

/-- A deletion empties a register and leaves every other one. -/
theorem register_delete (target : String × Int) :
    (reg.delete host port).register target =
      if target = (host, port) then none else reg.register target := by
  rw [register, find, delete, List.find?_filter]
  split
  · rename_i htarget
    subst htarget
    simp
  · rename_i htarget
    rw [register, find]
    congr 1
    funext r
    by_cases hr : r.key = target
    · simp [hr, htarget]
    · simp [hr]

/-- The flag is written to a register that is full. -/
theorem register_setListenLiveness {alive : Bool} (hbind : bindInteger port = .ok ())
    (target : String × Int) :
    (reg.setListenLiveness host alive port).2.register target =
      if target = (host, port) then
        (reg.register target).map fun r => { r with listenLiveness := alive }
      else reg.register target := by
  simp only [setListenLiveness, hbind]
  refine (find_map_withLiveness reg.rows host port alive target).trans ?_
  have hrow : reg.rows.find? (fun r => r.key = target) = reg.register target := rfl
  rw [hrow]
  cases h : reg.register target with
  | none => split <;> rfl
  | some r => simp only [Option.map_some, withLiveness, register_key h]; split <;> rfl

end Registry

/-! ### The table is made of the registers -/

/-- The table answers like the registers of the targets. -/
def registryCells : Cells registryMachine rowMachine (String × Int) where
  key := RowCall.target
  cell := Registry.register
  start _ := rfl
  answer reg call := by
    cases call with
    | addTarget host port tags note createdAt =>
        simp only [registryMachine, rowMachine, Registry.addTarget]
        cases bindInteger port <;> rfl
    | removeTarget host port =>
        simp only [registryMachine, rowMachine, Registry.removeTarget, RowCall.target]
        cases bindInteger port with
        | error e => rfl
        | ok u =>
            have hrow : reg.find host port = reg.register (host, port) := rfl
            rw [hrow]
            cases reg.register (host, port) <;> rfl
    | setListenLiveness host alive port =>
        simp only [registryMachine, rowMachine, Registry.setListenLiveness]
        cases bindInteger port <;> rfl
    | getListenLiveness host port =>
        simp only [registryMachine, rowMachine, Registry.getListenLiveness, RowCall.target]
        cases bindInteger port <;> rfl
  own reg call := by
    cases call with
    | addTarget host port tags note createdAt =>
        simp only [registryMachine, rowMachine, Registry.addTarget, RowCall.target]
        cases bindInteger port with
        | error e => rfl
        | ok u => exact (Registry.register_insertOrIgnore _ _).trans (if_pos rfl)
    | removeTarget host port =>
        simp only [registryMachine, rowMachine, Registry.removeTarget, RowCall.target]
        cases bindInteger port with
        | error e => rfl
        | ok u =>
            have hrow : reg.find host port = reg.register (host, port) := rfl
            rw [hrow]
            cases h : reg.register (host, port) with
            | none => exact h
            | some r => exact (Registry.register_delete _).trans (if_pos rfl)
    | setListenLiveness host alive port =>
        simp only [registryMachine, rowMachine, RowCall.target]
        cases hbind : bindInteger port with
        | error e => simp [Registry.setListenLiveness, hbind]
        | ok u => exact (Registry.register_setListenLiveness hbind _).trans (if_pos rfl)
    | getListenLiveness host port =>
        simp only [registryMachine, rowMachine, RowCall.target]
        cases bindInteger port <;> rfl
  frame reg call target htarget := by
    cases call with
    | addTarget host port tags note createdAt =>
        simp only [registryMachine, Registry.addTarget]
        cases bindInteger port with
        | error e => rfl
        | ok u => exact (Registry.register_insertOrIgnore _ _).trans (if_neg htarget)
    | removeTarget host port =>
        simp only [registryMachine, Registry.removeTarget]
        cases bindInteger port with
        | error e => rfl
        | ok u =>
            cases reg.find host port with
            | none => rfl
            | some r => exact (Registry.register_delete _).trans (if_neg htarget)
    | setListenLiveness host alive port =>
        simp only [registryMachine]
        cases hbind : bindInteger port with
        | error e => simp [Registry.setListenLiveness, hbind]
        | ok u => exact (Registry.register_setListenLiveness hbind _).trans (if_neg htarget)
    | getListenLiveness host port => rfl

/-! ### What the queries read off the registers -/

namespace Registry

variable {reg reg' : Registry}

theorem mem_rows_iff {row : Row} : row ∈ reg.rows ↔ reg.register row.key = some row := by
  constructor
  · intro hmem
    cases hrow : reg.register row.key with
    | none => exact absurd (List.mem_map.mpr ⟨row, hmem, rfl⟩) (find_eq_none_iff.mp hrow)
    | some r =>
        have hr : r ∈ reg.rows := List.mem_of_find?_eq_some hrow
        rw [List.inj_on_of_nodup_map reg.unique hr hmem (register_key hrow)]
  · intro hrow
    exact List.mem_of_find?_eq_some hrow

/-- A row of the table is what some register holds. -/
theorem exists_mem_rows {p : Row → Prop} :
    (∃ row ∈ reg.rows, p row) ↔ ∃ target row, reg.register target = some row ∧ p row := by
  constructor
  · rintro ⟨row, hmem, hp⟩
    exact ⟨row.key, row, mem_rows_iff.mp hmem, hp⟩
  · rintro ⟨target, row, hrow, hp⟩
    exact ⟨row, mem_rows_iff.mpr (register_key hrow ▸ hrow), hp⟩

theorem mem_listTargets {tags : Option (List String)} {j : Json} :
    j ∈ reg.listTargets tags ↔
      ∃ row ∈ reg.rows, (∀ t ∈ tags.getD [], t ∈ row.tags) ∧ listing row = j := by
  rcases tags with _ | _ | ⟨t, ts⟩ <;> simp [listTargets, and_assoc]

theorem mem_resolve_tag {t host : String} :
    host ∈ reg.resolve ["@" ++ t] ↔ ∃ row ∈ reg.rows, t ∈ row.tags ∧ row.host = host := by
  rw [resolve_tag, List.mem_flatMap]
  refine exists_congr fun row => and_congr_right fun _ => ?_
  rw [List.mem_replicate, Ne, List.count_eq_zero, not_not, eq_comm (a := host)]

/-- Tables with the same registers have the same rows, up to their order. -/
theorem rows_perm (h : ∀ target, reg.register target = reg'.register target) :
    reg.rows.Perm reg'.rows := by
  rw [List.perm_ext_iff_of_nodup (List.Nodup.of_map _ reg.unique)
    (List.Nodup.of_map _ reg'.unique)]
  intro row
  rw [mem_rows_iff, mem_rows_iff, h]

theorem listTargets_perm (h : reg.rows.Perm reg'.rows) (tags : Option (List String)) :
    (reg.listTargets tags).Perm (reg'.listTargets tags) := by
  have hsorted : (reg.listTargets none).Perm (reg'.listTargets none) :=
    (((List.mergeSort_perm reg.rows _).trans h).trans (List.mergeSort_perm reg'.rows _).symm).map _
  rcases tags with _ | _ | ⟨t, ts⟩
  · exact hsorted
  · exact hsorted
  · exact (h.filter _).map _

theorem resolve_perm (h : reg.rows.Perm reg'.rows) (targets : List String) :
    (reg.resolve targets).Perm (reg'.resolve targets) := by
  refine List.Perm.flatMap_left _ fun item _ => ?_
  unfold expandItem
  split
  · rw [tagMap_eq, tagMap_eq]
    exact h.flatMap_right _
  · exact .refl _

end Registry

/-- After every sequence of calls each target has been answered as by a register of its own,
which no call on another target changes, and the queries return what the registers hold. -/
theorem registry_is_registers (calls : List RowCall) :
    let reg := (registryMachine.run calls .empty).2
    let register target := (rowMachine.run (calls.filter fun c => c.target = target) none).2
    (∀ target, Cells.answersTo (fun c => c.target = target) calls
        (registryMachine.run calls .empty).1 =
      (rowMachine.run (calls.filter fun c => c.target = target) none).1) ∧
    (∀ tags j, j ∈ reg.listTargets tags ↔ ∃ target row, register target = some row ∧
      (∀ t ∈ tags.getD [], t ∈ row.tags) ∧ Registry.listing row = j) ∧
    (∀ t host, host ∈ reg.resolve ["@" ++ t] ↔ ∃ target row, register target = some row ∧
      t ∈ row.tags ∧ row.host = host) := by
  have hcell := registryCells.run_cell calls .empty
  refine ⟨fun target => (hcell target).1, fun tags j => ?_, fun t host => ?_⟩
  · rw [Registry.mem_listTargets, Registry.exists_mem_rows]
    exact exists_congr fun target => exists_congr fun row =>
      and_congr_left fun _ => Eq.congr_left (hcell target).2
  · rw [Registry.mem_resolve_tag, Registry.exists_mem_rows]
    exact exists_congr fun target => exists_congr fun row =>
      and_congr_left fun _ => Eq.congr_left (hcell target).2

/-- Callers that each keep to targets of their own: whatever the schedule, each of them gets the
same answers, and the queries return the same in the end, up to the order of the rows. -/
theorem registry_schedules_agree (owner : String × Int → Nat) {calls calls' : List (Nat × RowCall)}
    (hown : ∀ c ∈ calls, owner c.2.target = c.1) (hown' : ∀ c ∈ calls', owner c.2.target = c.1)
    (hsame : ∀ t, calls.filter (fun c => c.1 = t) = calls'.filter fun c => c.1 = t)
    (reg : Registry) :
    let after := registryMachine.run (calls.map Prod.snd) reg
    let after' := registryMachine.run (calls'.map Prod.snd) reg
    (∀ t, Cells.answersTo (fun c => c.1 = t) calls after.1 =
      Cells.answersTo (fun c => c.1 = t) calls' after'.1) ∧
    (∀ tags, (after.2.listTargets tags).Perm (after'.2.listTargets tags)) ∧
    (∀ targets, (after.2.resolve targets).Perm (after'.2.resolve targets)) := by
  obtain ⟨hanswers, hcells⟩ := registryCells.callers_agree hown hown' hsame reg
  have hrows := Registry.rows_perm hcells
  exact ⟨hanswers, Registry.listTargets_perm hrows, Registry.resolve_perm hrows⟩

/-- Two callers, one of which registers its target and the other its own and removes it. -/
def twoCallers : List (Nat × RowCall) :=
  [(0, .addTarget "a" 9000 none "" "t0"), (1, .addTarget "b" 9000 none "" "t1"),
    (1, .removeTarget "b" 9000)]

theorem registry_schedules_agree_two :
    Cells.answersTo (fun c => c.1 = 1) twoCallers
        (registryMachine.run (twoCallers.map Prod.snd) .empty).1 =
      Cells.answersTo (fun c => c.1 = 1) (twoCallers.rotate 1)
        (registryMachine.run ((twoCallers.rotate 1).map Prod.snd) .empty).1 :=
  (registry_schedules_agree (fun target => if target.1 = "a" then 0 else 1) (by decide)
    (by decide) (fun t => by
      by_cases h0 : t = 0
      · subst h0; decide
      · by_cases h1 : t = 1
        · subst h1; decide
        · simp [twoCallers, List.rotate, Ne.symm h0, Ne.symm h1]) .empty).1 1

end McpSocketServer
