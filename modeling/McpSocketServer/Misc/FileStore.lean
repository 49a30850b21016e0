import Mathlib.Data.List.Basic
import Mathlib.Logic.Function.Basic

/-!
# Named files with identity

A directory maps names to files, and an open file is a reference that stays valid when the
name is renamed or replaced. Opening for writing truncates the file behind a name, a write
goes to an offset of a file, and `replace` moves a file to another name in one step.
-/

namespace McpSocketServer

/-- What is behind a name: the content, and whether it may be executed. -/
structure File (β : Type) where
  content : List β := []
  executable : Bool := false
  deriving DecidableEq, Repr

/-- Files named by `ν`. References from `fresh` on are unused. -/
structure FileStore (ν β : Type) where
  names : ν → Option Nat
  files : Nat → File β
  fresh : Nat

/-- `chunk` written at `offset` over `old`; a gap is filled with `zero`. -/
def overwrite {β : Type} (zero : β) (old : List β) (offset : Nat) (chunk : List β) : List β :=
  old.take offset ++ List.replicate (offset - old.length) zero ++ chunk ++
    old.drop (offset + chunk.length)

/-- Writing at the end appends. -/
theorem overwrite_end {β : Type} (zero : β) (old chunk : List β) :
    overwrite zero old old.length chunk = old ++ chunk := by
  simp [overwrite]

namespace FileStore

variable {ν β : Type}

/-- The file behind a reference changes. -/
def setFile (fs : FileStore ν β) (i : Nat) (file : File β) : FileStore ν β :=
  { fs with files := Function.update fs.files i file }

@[simp] theorem setFile_names (fs : FileStore ν β) (i : Nat) (file : File β) :
    (fs.setFile i file).names = fs.names := rfl

@[simp] theorem setFile_fresh (fs : FileStore ν β) (i : Nat) (file : File β) :
    (fs.setFile i file).fresh = fs.fresh := rfl

/-- The content behind a name. -/
def contentOf (fs : FileStore ν β) (n : ν) : Option (List β) :=
  (fs.names n).map fun i => (fs.files i).content

variable [DecidableEq ν]

/-- `open(n, "wb")`: truncate the file behind the name, or create one. -/
def openTruncate (fs : FileStore ν β) (n : ν) : Nat × FileStore ν β :=
  match fs.names n with
  | some i => (i, fs.setFile i { fs.files i with content := [] })
  | none =>
    (fs.fresh, { names := Function.update fs.names n (some fs.fresh)
                 files := Function.update fs.files fs.fresh {}
                 fresh := fs.fresh + 1 })

/-- Write a chunk at an offset of an open file. -/
def writeAt (fs : FileStore ν β) (zero : β) (i offset : Nat) (chunk : List β) :
    FileStore ν β :=
  fs.setFile i { fs.files i with content := overwrite zero (fs.files i).content offset chunk }

/-- `chmod` by name; `none` when the name does not exist. -/
def makeExecutable (fs : FileStore ν β) (n : ν) : Option (FileStore ν β) :=
  (fs.names n).map fun i => fs.setFile i { fs.files i with executable := true }

/-- `replace` by name; `none` when the source does not exist. -/
def replace (fs : FileStore ν β) (src dst : ν) : Option (FileStore ν β) :=
  (fs.names src).map fun i =>
    { fs with names := Function.update (Function.update fs.names dst (some i)) src none }

/-- What opening for writing does: the returned reference is behind the name and empty, all
other names and files are as before. -/
theorem openTruncate_spec {fs fs' : FileStore ν β} {n : ν} {i : Nat}
    (hold : ∀ m j, fs.names m = some j → j < fs.fresh) (h : fs.openTruncate n = (i, fs')) :
    fs'.names n = some i ∧ (fs'.files i).content = [] ∧ (fs.names n = some i ∨ i = fs.fresh) ∧
      (∀ m, m ≠ n → fs'.names m = fs.names m) ∧ (∀ j, j ≠ i → fs'.files j = fs.files j) ∧
      fs.fresh ≤ fs'.fresh ∧ i < fs'.fresh := by
  unfold openTruncate at h
  cases hn : fs.names n with
  | some j =>
      rw [hn] at h
      obtain ⟨rfl, rfl⟩ := Prod.mk.inj h
      refine ⟨hn, by simp [setFile], Or.inl rfl, fun _ _ => rfl, fun k hk => ?_, Nat.le_refl _,
        hold n j hn⟩
      simp [setFile, hk]
  | none =>
      rw [hn] at h
      obtain ⟨rfl, rfl⟩ := Prod.mk.inj h
      refine ⟨by simp, by simp, Or.inr rfl, fun m hm => by simp [hm], fun j hj => by simp [hj],
        Nat.le_succ _, Nat.lt_succ_self _⟩

end FileStore

end McpSocketServer
