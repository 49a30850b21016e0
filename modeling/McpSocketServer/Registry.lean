import McpSocketServer.Python.Value
import Mathlib.Algebra.Group.Int.Defs
import Mathlib.Data.List.Nodup
import Mathlib.Logic.Function.Basic

/-!
# Target registry (`registry.py`)

The `targets` table as its list of rows in table order, with the constraint
`UNIQUE(host, port)` carried by the type. The tags column holds the JSON text of a list
of strings and is read back by `json.loads`; here it is that list. The lock of the
connection makes every method one atomic step. A write whose parameters cannot be bound leaves
the transaction of the connection open, which this model does not follow: it matters where another
connection writes to the same file.
-/

namespace McpSocketServer

/-- A row of `targets`. The column `id` orders the rows and is read by no query. -/
structure Row where
  host : String
  port : Int
  tags : List String
  note : String
  createdAt : String
  listenLiveness : Bool := false
  deriving DecidableEq, Repr

/-- The columns of the uniqueness constraint. -/
def Row.key (r : Row) : String × Int := (r.host, r.port)

/-- The table, with `UNIQUE(host, port)`. -/
structure Registry where
  rows : List Row
  unique : (rows.map Row.key).Nodup

/-- Binding a Python integer as a statement parameter. -/
def bindInteger (n : Int) : Except PyErr Unit :=
  if -2 ^ 63 ≤ n ∧ n < 2 ^ 63 then .ok ()
  else .error ⟨.other, "Python int too large to convert to SQLite INTEGER"⟩

namespace Registry

/-- A new database. -/
def empty : Registry := ⟨[], List.nodup_nil⟩

/-- `SELECT … WHERE host=? AND port=?`. -/
def find (reg : Registry) (host : String) (port : Int) : Option Row :=
  reg.rows.find? fun r => r.key = (host, port)

/-- `INSERT OR IGNORE INTO targets`. -/
def insertOrIgnore (reg : Registry) (row : Row) : Registry :=
  if h : row.key ∈ reg.rows.map Row.key then reg
  else ⟨reg.rows ++ [row], by
    rw [List.map_append]
    exact List.nodup_append.mpr ⟨reg.unique, List.nodup_singleton _, fun k hk k' hk' heq => by
      rw [List.map_singleton, List.mem_singleton] at hk'
      exact h (hk' ▸ heq ▸ hk)⟩⟩

theorem find_eq_none_iff {reg : Registry} {host : String} {port : Int} :
    reg.find host port = none ↔ (host, port) ∉ reg.rows.map Row.key := by
  simp [find, List.find?_eq_none]

theorem insertOrIgnore_fresh {reg : Registry} {row : Row}
    (h : row.key ∉ reg.rows.map Row.key) :
    (reg.insertOrIgnore row).rows = reg.rows ++ [row] := by
  rw [insertOrIgnore, dif_neg h]

/-- A row after an insertion was there before, or it is the new one and its key had no row. -/
theorem mem_insertOrIgnore {reg : Registry} {row r : Row}
    (h : r ∈ (reg.insertOrIgnore row).rows) :
    r ∈ reg.rows ∨ (reg.find row.host row.port = none ∧ r = row) := by
  by_cases hkey : row.key ∈ reg.rows.map Row.key
  · rw [insertOrIgnore, dif_pos hkey] at h
    exact Or.inl h
  · rw [insertOrIgnore_fresh hkey, List.mem_append, List.mem_singleton] at h
    exact h.imp_right fun heq => ⟨find_eq_none_iff.mpr hkey, heq⟩

/-- `Registry.add_target`; `createdAt` is the database's clock. -/
def addTarget (reg : Registry) (host : String) (port : Int) (tags : Option (List String))
    (note createdAt : String) : Json × Registry :=
  match bindInteger port with
  | .error e => (.obj [("ok", .bool false), ("error", .str e.message)], reg)
  | .ok () =>
    (.obj [("ok", .bool true), ("host", .str host), ("port", .int port)],
      reg.insertOrIgnore ⟨host, port, tags.getD [], note, createdAt, false⟩)

/-- `DELETE FROM targets WHERE host=? AND port=?`. -/
def delete (reg : Registry) (host : String) (port : Int) : Registry :=
  ⟨reg.rows.filter (fun r => r.key ≠ (host, port)),
    reg.unique.sublist (List.filter_sublist.map Row.key)⟩

/-- `Registry.remove_target`. -/
def removeTarget (reg : Registry) (host : String) (port : Int) :
    Except PyErr Json × Registry :=
  match bindInteger port with
  | .error e => (.error e, reg)
  | .ok () =>
    if (reg.find host port).isNone then
      (.ok (.obj [("ok", .bool false), ("error", .str "靶机不存在")]), reg)
    else (.ok (.obj [("ok", .bool true)]), reg.delete host port)

/-- The row with the liveness column replaced where its key matches. -/
def withLiveness (host : String) (port : Int) (alive : Bool) (r : Row) : Row :=
  if r.key = (host, port) then { r with listenLiveness := alive } else r

theorem withLiveness_key (host : String) (port : Int) (alive : Bool) (r : Row) :
    (withLiveness host port alive r).key = r.key := by
  unfold withLiveness
  split <;> rfl

/-- `Registry.set_listen_liveness`. -/
def setListenLiveness (reg : Registry) (host : String) (alive : Bool) (port : Int) :
    Except PyErr Unit × Registry :=
  match bindInteger port with
  | .error e => (.error e, reg)
  | .ok () =>
    (.ok (), ⟨reg.rows.map (withLiveness host port alive), by
      have hkeys : Row.key ∘ withLiveness host port alive = Row.key :=
        funext (withLiveness_key host port alive)
      rw [List.map_map, hkeys]
      exact reg.unique⟩)

/-- `Registry.get_listen_liveness`. -/
def getListenLiveness (reg : Registry) (host : String) (port : Int) : Except PyErr Bool :=
  match bindInteger port with
  | .error e => .error e
  | .ok () => .ok (((reg.find host port).map Row.listenLiveness).getD false)

/-- The dictionary for a row in `Registry.list_targets`. -/
def listing (r : Row) : Json :=
  .obj [("host", .str r.host), ("port", .int r.port), ("tags", .arr (r.tags.map .str)),
    ("note", .str r.note), ("created_at", .str r.createdAt)]

/-- `Registry.list_targets`; without tags the rows come in the order of `created_at`. -/
def listTargets (reg : Registry) (tags : Option (List String)) : List Json :=
  match tags with
  | some (t :: ts) =>
    (reg.rows.filter fun r => (t :: ts).all fun t => r.tags.contains t).map listing
  | some [] | none =>
    (reg.rows.mergeSort fun r r' => decide (r.createdAt ≤ r'.createdAt)).map listing

/-- The dictionary that `Registry.resolve` builds: `tag_map.setdefault(t, []).append(host)`
for every stored occurrence of a tag, with `[]` for an unknown tag. -/
def tagMap (rows : List Row) : String → List String :=
  rows.foldl
    (fun m r => r.tags.foldl (fun m t => Function.update m t (m t ++ [r.host])) m)
    fun _ => []

/-- One turn of the loop over the targets in `Registry.resolve`. -/
def expandItem (tags : String → List String) (item : String) : List String :=
  if startsWith '@' item then tags (dropFirst item)
  else if ':' ∈ item.toList ∧ isdigit (afterFirst ':' item) = true then [beforeFirst ':' item]
  else [item]

/-- `Registry.resolve`. -/
def resolve (reg : Registry) (targets : List String) : List String :=
  targets.flatMap (expandItem (tagMap reg.rows))

end Registry

/-- `server._resolve_targets`. -/
def resolveTargets (registry : Option Registry) (rawTargets : List String) : List String :=
  match registry with
  | none => rawTargets
  | some reg => reg.resolve rawTargets

end McpSocketServer
