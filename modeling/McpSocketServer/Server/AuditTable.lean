import McpSocketServer.Misc.PrunedLog
import McpSocketServer.Server.WriteTools

/-!
# The table of the audit log (`audit.py`)

`audit_log` with the columns that the database fills in: `id` counts up and is never given
again (`AUTOINCREMENT`), and `ts` is `datetime('now')`, kept as its number of seconds, since the
texts compare like these numbers. The rows outlive the process: every start of the server opens
the table again and deletes what is older than its retention.
-/

namespace McpSocketServer

/-- A row of `audit_log` without its `id`. -/
structure AuditEntry where
  ts : Int
  record : AuditRecord

/-- The table `audit_log`, of which SQLite gives the `id`s. -/
abbrev AuditTable := NumberedLog AuditEntry

namespace AuditTable

/-- `INSERT` in `AuditLogger.write`, which may raise. -/
def write (t : AuditTable) (now : Int) (outcome : Except PyErr Unit) (r : AuditRecord) :
    AuditTable :=
  match outcome with
  | .error _ => t
  | .ok () => t.append ⟨now, { r with params := truncateParams r.params }⟩

/-- `AuditLogger._cleanup`: `DELETE … WHERE ts < datetime('now', '-<days> days')`. -/
def cleanup (t : AuditTable) (now days : Int) : AuditTable :=
  t.prune AuditEntry.ts (now - 86400 * days)

/-- `AuditLogger.__init__` on a table that may be there already. -/
def init (t : AuditTable) (now retentionDays : Int) : AuditTable :=
  if 0 < retentionDays then t.cleanup now retentionDays else t

end AuditTable

/-- What happens to the table. -/
inductive AuditEvent where
  | write (now : Int) (outcome : Except PyErr Unit) (r : AuditRecord)
  | init (now retentionDays : Int)

/-- The table after an event. -/
def AuditTable.after (t : AuditTable) : AuditEvent → AuditTable
  | .write now outcome r => t.write now outcome r
  | .init now retentionDays => t.init now retentionDays

/-- The table after a history that begins with the new file. -/
def auditTable (es : List AuditEvent) : AuditTable := es.foldl AuditTable.after {}

end McpSocketServer
