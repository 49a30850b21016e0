import McpSocketServer.Python.Value
import Mathlib.Logic.Function.Basic

/-!
# State locks (`locks.py`, `commands.LockClass`)

Per-target locks, acquired fail-fast: a capture lock excludes by `(target, path)`, every
other class but `NONE` excludes the whole target. The manager keys its locks by the
target string alone. A lock that is missing from the manager's dictionary and a fresh
`TargetLock` cannot be told apart, so the results are stated of `LockManager.lockOf`.
-/

namespace McpSocketServer

/-- `commands.LockClass`. -/
inductive LockClass where
  | none | capture | fileIo | shell | browser | system | replay
  deriving DecidableEq, Repr

/-- The enumeration's string value. -/
def LockClass.value : LockClass → String
  | .none => "none"
  | .capture => "capture"
  | .fileIo => "file_io"
  | .shell => "shell"
  | .browser => "browser"
  | .system => "system"
  | .replay => "replay"

/-- The classes that `TargetLock.acquire` sends to `_acquire_exclusive`. -/
def LockClass.isExclusive : LockClass → Bool
  | .none | .capture => false
  | _ => true

/-- A capture key: the tuple `(path,)`, or `()`. -/
abbrev CapKey := List String

/-- `LockConflict`. The key is the text that the raising method passes. -/
structure LockConflict where
  target : String
  lockClass : LockClass
  key : Option String := Option.none
  deriving DecidableEq, Repr

/-- `LockConflict._rebuild_message`. -/
def LockConflict.message (e : LockConflict) : String :=
  let keyPart := match e.key with
    | some k => if k = "" then [] else ["key=" ++ k]
    | Option.none => []
  " ".intercalate
    (["靶机 " ++ e.target, "锁类 " ++ e.lockClass.value] ++ keyPart ++ ["冲突"])

/-- `TargetLock`: the keys of `_captures` in insertion order (the counts are never read),
the exclusive holder and its count. -/
structure TargetLock where
  captures : List CapKey := []
  exclusiveHolder : Option LockClass := Option.none
  exclusiveCount : Int := 0
  deriving DecidableEq, Repr

namespace TargetLock

/-- `key or ()`. -/
def capKeyOf (key : Option CapKey) : CapKey := key.getD []

/-- `TargetLock._acquire_capture`. -/
def acquireCapture (tl : TargetLock) (key : Option CapKey) : Except LockConflict TargetLock :=
  let capKey := capKeyOf key
  if tl.exclusiveHolder ≠ Option.none then .error ⟨"?", .capture, some (reprTuple capKey)⟩
  else if capKey ∈ tl.captures then .error ⟨"?", .capture, some (reprTuple capKey)⟩
  else .ok { tl with captures := tl.captures ++ [capKey] }

/-- `TargetLock._release_capture`. -/
def releaseCapture (tl : TargetLock) (key : Option CapKey) : TargetLock :=
  { tl with captures := tl.captures.filter (· ≠ capKeyOf key) }

/-- `TargetLock._acquire_exclusive`. -/
def acquireExclusive (tl : TargetLock) (cls : LockClass) : Except LockConflict TargetLock :=
  if tl.exclusiveHolder ≠ Option.none then .error ⟨"?", cls, Option.none⟩
  else if tl.captures ≠ [] then
    .error ⟨"?", cls, some ("[" ++ ", ".intercalate (tl.captures.map reprTuple) ++ "]")⟩
  else .ok { tl with exclusiveHolder := some cls, exclusiveCount := tl.exclusiveCount + 1 }

/-- `TargetLock._release_exclusive`. -/
def releaseExclusive (tl : TargetLock) (cls : LockClass) : TargetLock :=
  if tl.exclusiveHolder = some cls then
    let count := tl.exclusiveCount - 1
    { tl with
      exclusiveCount := count
      exclusiveHolder := if count ≤ 0 then Option.none else tl.exclusiveHolder }
  else tl

/-- `TargetLock.acquire`. -/
def acquire (tl : TargetLock) (cls : LockClass) (key : Option CapKey) :
    Except LockConflict TargetLock :=
  if cls = .none then .ok tl
  else if cls = .capture then tl.acquireCapture key
  else tl.acquireExclusive cls

/-- `TargetLock.release`. -/
def release (tl : TargetLock) (cls : LockClass) (key : Option CapKey) : TargetLock :=
  if cls = .none then tl
  else if cls = .capture then tl.releaseCapture key
  else tl.releaseExclusive cls

/-- `TargetLock.has_active`. -/
def hasActive (tl : TargetLock) : Bool :=
  !tl.captures.isEmpty || tl.exclusiveHolder.isSome

/-- No conflict stands in the way of acquiring `cls` with `key`. -/
def Free (tl : TargetLock) (cls : LockClass) (key : Option CapKey) : Prop :=
  match cls with
  | .none => True
  | .capture => tl.exclusiveHolder = Option.none ∧ capKeyOf key ∉ tl.captures
  | _ => tl.exclusiveHolder = Option.none ∧ tl.captures = []

/-- The lock after a successful acquire. -/
def hold (tl : TargetLock) (cls : LockClass) (key : Option CapKey) : TargetLock :=
  match cls with
  | .none => tl
  | .capture => { tl with captures := tl.captures ++ [capKeyOf key] }
  | cls => { tl with exclusiveHolder := some cls, exclusiveCount := tl.exclusiveCount + 1 }

/-- An acquire succeeds exactly when nothing conflicts, and then takes the lock. -/
theorem acquire_of_free {tl : TargetLock} {cls : LockClass} {key : Option CapKey}
    (h : tl.Free cls key) : tl.acquire cls key = .ok (tl.hold cls key) := by
  cases cls <;> simp_all [Free, acquire, hold, acquireCapture, acquireExclusive]

/-- A conflicting acquire raises. -/
theorem acquire_of_not_free {tl : TargetLock} {cls : LockClass} {key : Option CapKey}
    (h : ¬ tl.Free cls key) : ∃ e, tl.acquire cls key = .error e := by
  by_cases hholder : tl.exclusiveHolder = Option.none
  · cases cls <;> simp_all [Free, acquire, acquireCapture, acquireExclusive]
  · cases cls <;> simp_all [Free, acquire, acquireCapture, acquireExclusive]

/-! ### The two components of a lock -/

theorem hold_captures (tl : TargetLock) (cls : LockClass) (key : CapKey) :
    (tl.hold cls (some key)).captures =
      if cls = .capture then tl.captures ++ [key] else tl.captures := by
  cases cls <;> rfl

theorem hold_exclusive (tl : TargetLock) (cls : LockClass) (key : Option CapKey) :
    (tl.hold cls key).exclusiveHolder =
        (if cls.isExclusive then some cls else tl.exclusiveHolder) ∧
      (tl.hold cls key).exclusiveCount =
        if cls.isExclusive then tl.exclusiveCount + 1 else tl.exclusiveCount := by
  cases cls <;> exact ⟨rfl, rfl⟩

theorem release_captures (tl : TargetLock) (cls : LockClass) (key : CapKey) :
    (tl.release cls (some key)).captures =
      if cls = .capture then tl.captures.filter (· ≠ key) else tl.captures := by
  have hexclusive : ∀ c, (tl.releaseExclusive c).captures = tl.captures := by
    intro c
    unfold releaseExclusive
    split <;> rfl
  cases cls with
  | none => rfl
  | capture => rfl
  | _ => exact hexclusive _

/-- Releasing the one exclusive lock frees the target, and no other release touches it. -/
theorem release_exclusive (tl : TargetLock) (cls : LockClass) (key : Option CapKey)
    (hheld : cls.isExclusive = true → tl.exclusiveHolder = some cls ∧ tl.exclusiveCount = 1) :
    (tl.release cls key).exclusiveHolder =
        (if cls.isExclusive then Option.none else tl.exclusiveHolder) ∧
      (tl.release cls key).exclusiveCount =
        if cls.isExclusive then 0 else tl.exclusiveCount := by
  cases cls with
  | none => exact ⟨rfl, rfl⟩
  | capture => exact ⟨rfl, rfl⟩
  | _ =>
      obtain ⟨hholder, hcount⟩ := hheld rfl
      simp [release, releaseExclusive, hholder, hcount, LockClass.isExclusive]

/-- What stands in the way of a class. -/
theorem free_holder {tl : TargetLock} {cls : LockClass} {key : Option CapKey}
    (h : tl.Free cls key) (hcls : cls ≠ .none) : tl.exclusiveHolder = Option.none := by
  cases cls <;> simp_all [Free]

theorem free_exclusive {tl : TargetLock} {cls : LockClass} {key : Option CapKey}
    (h : tl.Free cls key) (hcls : cls.isExclusive = true) : tl.captures = [] := by
  cases cls <;> simp_all [Free, LockClass.isExclusive]

theorem free_capture {tl : TargetLock} {key : CapKey} (h : tl.Free .capture (some key)) :
    key ∉ tl.captures := h.2

end TargetLock

/-- `LockManager`: its dictionary from target strings to locks. -/
structure LockManager where
  locks : String → Option TargetLock

namespace LockManager

/-- `LockManager()`. -/
def empty : LockManager := ⟨fun _ => Option.none⟩

/-- The lock of a target, a fresh one where the dictionary has none. -/
def lockOf (lm : LockManager) (target : String) : TargetLock := (lm.locks target).getD {}

/-- `self._locks[target] = tl`, and the new state of a lock that is already there. -/
def set (lm : LockManager) (target : String) (tl : TargetLock) : LockManager :=
  ⟨Function.update lm.locks target (some tl)⟩

/-- `LockManager._get_target_lock`. -/
def getTargetLock (lm : LockManager) (target : String) : TargetLock × LockManager :=
  match lm.locks target with
  | some tl => (tl, lm)
  | Option.none => ({}, lm.set target {})

/-- `LockManager.acquire`: a conflict is raised again with the target filled in. -/
def acquire (lm : LockManager) (target : String) (cls : LockClass) (key : Option CapKey) :
    Except LockConflict Unit × LockManager :=
  if cls = .none then (.ok (), lm)
  else
    let (tl, lm) := lm.getTargetLock target
    match tl.acquire cls key with
    | .ok tl => (.ok (), lm.set target tl)
    | .error e => (.error { e with target := target }, lm)

/-- `LockManager.release`. -/
def release (lm : LockManager) (target : String) (cls : LockClass) (key : Option CapKey) :
    LockManager :=
  if cls = .none then lm
  else
    match lm.locks target with
    | Option.none => lm
    | some tl => lm.set target (tl.release cls key)

/-- `LockManager.has_active`. -/
def hasActive (lm : LockManager) (target : String) : Bool :=
  match lm.locks target with
  | Option.none => false
  | some tl => tl.hasActive

@[simp] theorem lockOf_empty (target : String) : empty.lockOf target = {} := rfl

@[simp] theorem lockOf_set (lm : LockManager) (target u : String) (tl : TargetLock) :
    (lm.set target tl).lockOf u = if u = target then tl else lm.lockOf u := by
  by_cases h : u = target
  · subst h; simp [lockOf, set]
  · simp [lockOf, set, h]

theorem hasActive_eq (lm : LockManager) (target : String) :
    lm.hasActive target = (lm.lockOf target).hasActive := by
  unfold hasActive lockOf
  cases lm.locks target <;> rfl

/-- Looking a lock up does not change any lock. -/
theorem getTargetLock_lockOf (lm : LockManager) (target : String) :
    (lm.getTargetLock target).1 = lm.lockOf target ∧
      ∀ u, (lm.getTargetLock target).2.lockOf u = lm.lockOf u := by
  unfold getTargetLock
  cases h : lm.locks target with
  | some tl => exact ⟨by simp [lockOf, h], fun _ => rfl⟩
  | none =>
      refine ⟨by simp [lockOf, h], fun u => ?_⟩
      rw [lockOf_set]
      split
      · rename_i hu; subst hu; simp [lockOf, h]
      · rfl

/-- A free acquire returns and takes the lock of the one target. -/
theorem acquire_free {lm : LockManager} {target : String} {cls : LockClass}
    {key : Option CapKey} (h : (lm.lockOf target).Free cls key) :
    (lm.acquire target cls key).1 = .ok () ∧
      ∀ u, (lm.acquire target cls key).2.lockOf u =
        if u = target then (lm.lockOf target).hold cls key else lm.lockOf u := by
  obtain ⟨hlock, hrest⟩ := lm.getTargetLock_lockOf target
  by_cases hnone : cls = .none
  · subst hnone
    refine ⟨rfl, fun u => ?_⟩
    by_cases hu : u = target
    · subst hu; simp [acquire, TargetLock.hold]
    · simp [acquire, hu]
  · have hacq := TargetLock.acquire_of_free h
    refine ⟨by simp only [acquire, if_neg hnone, hlock, hacq], fun u => ?_⟩
    simp only [acquire, if_neg hnone, hlock, hacq, lockOf_set, hrest]

/-- A conflicting acquire raises and changes no lock. -/
theorem acquire_conflict {lm : LockManager} {target : String} {cls : LockClass}
    {key : Option CapKey} (h : ¬ (lm.lockOf target).Free cls key) :
    (∃ e, (lm.acquire target cls key).1 = .error e) ∧
      ∀ u, (lm.acquire target cls key).2.lockOf u = lm.lockOf u := by
  obtain ⟨hlock, hrest⟩ := lm.getTargetLock_lockOf target
  have hnone : cls ≠ .none := by
    intro heq
    subst heq
    exact h trivial
  obtain ⟨e, he⟩ := TargetLock.acquire_of_not_free h
  refine ⟨⟨{ e with target := target }, ?_⟩, fun u => ?_⟩
  · simp only [acquire, if_neg hnone, hlock, he]
  · simp only [acquire, if_neg hnone, hlock, he, hrest]

/-- An acquire leaves the locks of the other targets. -/
theorem acquire_lockOf_ne (lm : LockManager) {target u : String} (hu : u ≠ target)
    (cls : LockClass) (key : Option CapKey) :
    (lm.acquire target cls key).2.lockOf u = lm.lockOf u := by
  by_cases hfree : (lm.lockOf target).Free cls key
  · rw [(acquire_free hfree).2 u, if_neg hu]
  · exact (acquire_conflict hfree).2 u

/-- The outcome of an acquire depends on the lock of its target alone. -/
theorem acquire_outcome {lm lm' : LockManager} {target : String}
    (h : lm.lockOf target = lm'.lockOf target) (cls : LockClass) (key : Option CapKey) :
    (lm.acquire target cls key).1 = (lm'.acquire target cls key).1 := by
  unfold acquire
  split
  · rfl
  · have hlock := (lm.getTargetLock_lockOf target).1
    have hlock' := (lm'.getTargetLock_lockOf target).1
    simp only [hlock, hlock', h]
    cases (lm'.lockOf target).acquire cls key <;> rfl

/-- A release acts on the lock of the one target. -/
@[simp] theorem lockOf_release (lm : LockManager) (target u : String) (cls : LockClass)
    (key : Option CapKey) :
    (lm.release target cls key).lockOf u =
      if u = target then (lm.lockOf target).release cls key else lm.lockOf u := by
  unfold release
  by_cases hnone : cls = .none
  · subst hnone
    by_cases hu : u = target
    · subst hu; simp [TargetLock.release]
    · simp [hu]
  · simp only [if_neg hnone]
    cases h : lm.locks target with
    | some tl =>
        rw [lockOf_set]
        simp [lockOf, h]
    | none =>
        by_cases hu : u = target
        · subst hu
          cases cls <;> simp_all [lockOf, TargetLock.release, TargetLock.releaseCapture,
            TargetLock.releaseExclusive]
        · simp [hu]

end LockManager

end McpSocketServer
