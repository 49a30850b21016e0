import McpSocketServer.Misc.FileStore
import McpSocketServer.Misc.Lts
import McpSocketServer.Python.Value

/-!
# Fetching a release binary (`upgrades.ensure_release_binary`)

Any number of calls for one version and one directory, which share the name of the binary and
the name of the temporary file. Each step is one operation on the file system, or one
download; a call can fail with an exception or be killed at any step. Every download of the
version gives the same bytes and the same published checksum.
-/

namespace McpSocketServer

/-- The two names in the directory of a version. -/
inductive BinaryName where
  | binary
  | tmp
  deriving DecidableEq, Repr

/-- The directory of a version. -/
abbrev ReleaseStore := FileStore BinaryName UInt8

/-- What the release server has for the version, and the hash function. -/
structure Release where
  content : Bytes
  published : String
  sha256 : Bytes → String

/-- Where a call is. `returning` stands before the return: with the hash and the path, or with
`None` and a reason. -/
inductive FetchStage where
  | notCalled
  | checkFile
  | checkAccess
  | openForHash
  | hashing (file : Nat) (read : Bytes)
  | downloading
  | verified
  | writing (file offset : Nat)
  | written
  | executable
  | returning (sha : Option String)
  | returned
  | killed
  deriving DecidableEq, Repr

/-- The directory, and where every call is. -/
structure FetchState where
  store : ReleaseStore
  stage : Nat → FetchStage := fun _ => .notCalled

/-- What a call does next. Reads and writes stop short where the operating system lets them. -/
inductive FetchStep where
  | call
  | isfile
  | access
  | openForHash
  | read (amount : Nat)
  | download
  | openTmp
  | write (amount : Nat)
  | chmod
  | replace
  | fail
  | kill
  | ret
  deriving DecidableEq, Repr

namespace FetchState

/-- Call `c` goes on to stage `st`. -/
def goto (s : FetchState) (c : Nat) (st : FetchStage) : FetchState :=
  { s with stage := Function.update s.stage c st }

/-- One step of call `c`. -/
def step (rel : Release) (s : FetchState) (c : Nat) : FetchStep → Option FetchState
  | .call =>
    match s.stage c with
    | .notCalled => some (s.goto c .checkFile)
    | _ => none
  | .isfile =>
    match s.stage c with
    | .checkFile =>
      some (s.goto c (if (s.store.names .binary).isSome then .checkAccess else .downloading))
    | _ => none
  | .access =>
    match s.stage c with
    | .checkAccess =>
      let executable := ((s.store.names .binary).map fun i => (s.store.files i).executable).getD
        false
      some (s.goto c (if executable then .openForHash else .downloading))
    | _ => none
  | .openForHash =>
    match s.stage c, s.store.names .binary with
    | .openForHash, some i => some (s.goto c (.hashing i []))
    | _, _ => none
  | .read amount =>
    match s.stage c with
    | .hashing i read =>
      let rest := (s.store.files i).content.drop read.length
      if rest = [] then some (s.goto c (.returning (some (rel.sha256 read))))
      else if amount = 0 then none
      else some (s.goto c (.hashing i (read ++ rest.take amount)))
    | _ => none
  | .download =>
    match s.stage c with
    | .downloading =>
      some (s.goto c
        (if rel.sha256 rel.content = rel.published then .verified else .returning none))
    | _ => none
  | .openTmp =>
    match s.stage c with
    | .verified =>
      let (i, store) := s.store.openTruncate .tmp
      some ({ s with store := store }.goto c (.writing i 0))
    | _ => none
  | .write amount =>
    match s.stage c with
    | .writing i offset =>
      let chunk := (rel.content.drop offset).take amount
      if rel.content.length ≤ offset then some (s.goto c .written)
      else if amount = 0 then none
      else
        some ({ s with store := s.store.writeAt 0 i offset chunk }.goto c
          (.writing i (offset + chunk.length)))
    | _ => none
  | .chmod =>
    match s.stage c with
    | .written =>
      (s.store.makeExecutable .tmp).map fun store => { s with store := store }.goto c .executable
    | _ => none
  | .replace =>
    match s.stage c with
    | .executable =>
      (s.store.replace .tmp .binary).map fun store =>
        { s with store := store }.goto c (.returning (some (rel.sha256 rel.content)))
    | _ => none
  | .fail =>
    match s.stage c with
    | .notCalled | .returning _ | .returned | .killed => none
    | _ => some (s.goto c (.returning none))
  | .kill =>
    match s.stage c with
    | .notCalled | .returned | .killed => none
    | _ => some (s.goto c .killed)
  | .ret =>
    match s.stage c with
    | .returning _ => some (s.goto c .returned)
    | _ => none

/-- A step changes the stage of its own call only. -/
theorem step_stage_ne {rel : Release} {s s' : FetchState} {c d : Nat} {l : FetchStep}
    (h : s.step rel c l = some s') (hd : d ≠ c) : s'.stage d = s.stage d := by
  have hgoto : ∀ (t : FetchState) (st : FetchStage), (t.goto c st).stage d = t.stage d :=
    fun t st => Function.update_of_ne hd _ _
  cases l <;> simp only [step] at h <;> repeat' split at h
  all_goals first
    | exact Option.some.inj h ▸ hgoto _ _
    | obtain ⟨store, -, rfl⟩ := Option.map_eq_some_iff.mp h; exact hgoto _ _
    | cases h

end FetchState

/-- A download of the release that matched the published checksum. -/
def Release.Verified (rel : Release) (content : Bytes) : Prop :=
  content = rel.content ∧ rel.sha256 content = rel.published

/-- The names lead to files that exist, and no file has both names. -/
structure StoreWf (fs : ReleaseStore) : Prop where
  old : ∀ n i, fs.names n = some i → i < fs.fresh
  apart : ∀ i, fs.names .binary = some i → fs.names .tmp ≠ some i

/-- Any number of calls, in a directory whose binary is absent or a verified download; the
temporary file may be anything that an earlier call left behind. -/
def fetchLts (rel : Release) : Lts FetchState (Nat × FetchStep) where
  init s := (∀ c, s.stage c = .notCalled) ∧ StoreWf s.store ∧
    ∀ content, s.store.contentOf .binary = some content → rel.Verified content
  step s l := s.step rel l.1 l.2

end McpSocketServer
