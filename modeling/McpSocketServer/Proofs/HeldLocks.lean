import McpSocketServer.Locks
import McpSocketServer.Misc.Machine
import Mathlib.Data.Finset.Image

/-!
# The lock manager as a set of held locks

What the lock manager is for: every target has a finite set of held entries, each of them an
exclusive class or a capture key. An exclusive class can be had while nothing is held, a
capture key while no exclusive class and not the same key is held, and a release takes out the
entry that it names. The holder, its count and the capture keys of a `TargetLock` represent
such a set: no sequence of calls tells the two apart, not even one whose releases match
nothing that is held.
-/

namespace McpSocketServer

/-- An entry that is held on a target. -/
inductive HeldLock where
  | exclusive (cls : LockClass)
  | capture (key : CapKey)
  deriving DecidableEq, Repr

/-- A call of the lock manager. -/
inductive LockCall where
  | acquire (target : String) (cls : LockClass) (key : Option CapKey)
  | release (target : String) (cls : LockClass) (key : Option CapKey)
  | hasActive (target : String)
  deriving DecidableEq, Repr

/-- How a call ends; a `LockConflict` names the target and the class that was asked for. -/
inductive LockAnswer where
  | done
  | conflict (target : String) (cls : LockClass)
  | active (b : Bool)
  deriving DecidableEq, Repr

/-! ### The set of held locks -/

/-- The held entries of every target. -/
abbrev HeldLocks := String → Finset HeldLock

namespace HeldLocks

/-- The entry that a call names; `None` and `()` are the same key. -/
def entry (cls : LockClass) (key : Option CapKey) : HeldLock :=
  if cls = .capture then .capture (TargetLock.capKeyOf key) else .exclusive cls

/-- The entries `held` allow the acquire. -/
def Admits (held : Finset HeldLock) (cls : LockClass) (key : Option CapKey) : Prop :=
  match cls with
  | .none => True
  | .capture =>
    (∀ e ∈ held, ∀ c, e ≠ .exclusive c) ∧ .capture (TargetLock.capKeyOf key) ∉ held
  | _ => held = ∅

instance (held : Finset HeldLock) (cls : LockClass) (key : Option CapKey) :
    Decidable (Admits held cls key) :=
  haveI : DecidablePred fun e : HeldLock => ∀ c, e ≠ .exclusive c := fun e =>
    match e with
    | .exclusive c => .isFalse fun h => h c rfl
    | .capture _ => .isTrue fun _ => nofun
  match cls with
  | .none => .isTrue trivial
  | .capture => inferInstanceAs (Decidable (_ ∧ _))
  | .fileIo | .shell | .browser | .system | .replay => inferInstanceAs (Decidable (held = ∅))

/-- `acquire`: a refused call changes nothing. -/
def acquire (h : HeldLocks) (target : String) (cls : LockClass) (key : Option CapKey) :
    LockAnswer × HeldLocks :=
  if cls = .none then (.done, h)
  else if Admits (h target) cls key then
    (.done, Function.update h target (insert (entry cls key) (h target)))
  else (.conflict target cls, h)

/-- `release` of an entry that may be held or not. -/
def release (h : HeldLocks) (target : String) (cls : LockClass) (key : Option CapKey) :
    HeldLocks :=
  if cls = .none then h
  else Function.update h target ((h target).erase (entry cls key))

end HeldLocks

/-- The lock manager as a set of held locks. -/
def heldMachine : Machine HeldLocks LockCall LockAnswer where
  start _ := ∅
  step h
    | .acquire target cls key => h.acquire target cls key
    | .release target cls key => (.done, h.release target cls key)
    | .hasActive target => (.active (decide (h target ≠ ∅)), h)

/-- `LockManager`, with the answers of its methods. -/
def lockMachine : Machine LockManager LockCall LockAnswer where
  start := .empty
  step lm
    | .acquire target cls key =>
      match lm.acquire target cls key with
      | (.ok (), lm) => (.done, lm)
      | (.error e, lm) => (.conflict e.target e.lockClass, lm)
    | .release target cls key => (.done, lm.release target cls key)
    | .hasActive target => (.active (lm.hasActive target), lm)

/-! ### What a lock represents -/

namespace TargetLock

/-- The entries that a `TargetLock` holds. -/
def held (tl : TargetLock) : Finset HeldLock :=
  (tl.captures.map HeldLock.capture ++ tl.exclusiveHolder.toList.map HeldLock.exclusive).toFinset

/-- A holder is alone, and the count is the number of holders. -/
structure Consistent (tl : TargetLock) : Prop where
  alone : tl.exclusiveHolder ≠ none → tl.captures = []
  count : tl.exclusiveCount = if tl.exclusiveHolder = none then 0 else 1

variable {tl : TargetLock}

@[simp] theorem capture_mem_held {key : CapKey} : .capture key ∈ tl.held ↔ key ∈ tl.captures := by
  simp [held]

@[simp] theorem exclusive_mem_held {cls : LockClass} :
    .exclusive cls ∈ tl.held ↔ tl.exclusiveHolder = some cls := by
  simp [held]

theorem held_eq_empty : tl.held = ∅ ↔ tl.exclusiveHolder = none ∧ tl.captures = [] := by
  cases hholder : tl.exclusiveHolder <;> simp [held, hholder]

theorem no_exclusive_held : (∀ e ∈ tl.held, ∀ c, e ≠ .exclusive c) ↔ tl.exclusiveHolder = none := by
  constructor
  · intro h
    cases hholder : tl.exclusiveHolder with
    | none => rfl
    | some cls => exact absurd rfl (h _ (exclusive_mem_held.mpr hholder) cls)
  · rintro hholder e he cls rfl
    rw [exclusive_mem_held, hholder] at he
    cases he

/-- An acquire is free exactly when the held entries allow it. -/
theorem free_iff_admits {cls : LockClass} {key : Option CapKey} :
    tl.Free cls key ↔ HeldLocks.Admits tl.held cls key := by
  cases cls with
  | none => exact Iff.rfl
  | capture => simp only [Free, HeldLocks.Admits, no_exclusive_held, capture_mem_held]
  | _ => simp only [Free, HeldLocks.Admits, held_eq_empty]

theorem held_hold {cls : LockClass} {key : Option CapKey} (hcls : cls ≠ .none)
    (hfree : tl.Free cls key) :
    (tl.hold cls key).held = insert (HeldLocks.entry cls key) tl.held := by
  have hholder := free_holder hfree hcls
  ext e
  cases e with
  | capture k =>
      cases cls <;> simp_all [hold, HeldLocks.entry, or_comm]
  | exclusive c =>
      cases cls <;> simp_all [hold, HeldLocks.entry, eq_comm]

theorem held_release {cls : LockClass} {key : Option CapKey} (hcls : cls ≠ .none)
    (h : tl.Consistent) :
    (tl.release cls key).held = tl.held.erase (HeldLocks.entry cls key) := by
  by_cases hcapture : cls = .capture
  · subst hcapture
    ext e
    cases e <;> simp [release, releaseCapture, HeldLocks.entry, and_comm]
  · have hentry : HeldLocks.entry cls key = .exclusive cls := by
      simp [HeldLocks.entry, hcapture]
    simp only [release, if_neg hcls, if_neg hcapture, releaseExclusive, hentry]
    by_cases hholder : tl.exclusiveHolder = some cls
    · -- the one holder goes, and nothing else was held
      have hcount : tl.exclusiveCount = 1 := by simpa [hholder] using h.count
      have hcaptures : tl.captures = [] := h.alone (by simp [hholder])
      ext e
      cases e with
      | capture k => simp [hholder, hcount, hcaptures]
      | exclusive c => simp [hholder, hcount, eq_comm]
    · rw [if_neg hholder, Finset.erase_eq_of_notMem]
      simpa using hholder

namespace Consistent

theorem hold {cls : LockClass} {key : Option CapKey} (h : tl.Consistent)
    (hfree : tl.Free cls key) : (tl.hold cls key).Consistent := by
  by_cases hexclusive : cls.isExclusive = true
  · have hcls : cls ≠ .none := by
      rintro rfl
      cases hexclusive
    have hholder := free_holder hfree hcls
    have hcount : tl.exclusiveCount = 0 := by simpa [hholder] using h.count
    have hcaptures : (tl.hold cls key).captures = [] := by
      have hsame : (tl.hold cls key).captures = tl.captures := by
        cases cls <;> first | rfl | cases hexclusive
      rw [hsame, free_exclusive hfree hexclusive]
    obtain ⟨hholder', hcount'⟩ := hold_exclusive tl cls key
    rw [if_pos hexclusive] at hholder' hcount'
    exact ⟨fun _ => hcaptures, by simp [hholder', hcount', hcount]⟩
  · cases cls with
    | none => exact h
    | capture =>
        have hholder : tl.exclusiveHolder = none := hfree.1
        exact ⟨fun hne => absurd hholder hne, h.count⟩
    | _ => exact absurd rfl hexclusive

theorem release {cls : LockClass} {key : Option CapKey} (h : tl.Consistent) :
    (tl.release cls key).Consistent := by
  unfold TargetLock.release
  split_ifs
  · exact h
  · exact ⟨fun hne => by simp [releaseCapture, h.alone hne], h.count⟩
  · unfold releaseExclusive
    split_ifs with hholder
    · have hcount : tl.exclusiveCount = 1 := by simpa [hholder] using h.count
      exact ⟨fun _ => h.alone (by simp [hholder]), by simp [hcount]⟩
    · exact h

end Consistent

end TargetLock

/-! ### The refinement -/

/-- Every lock of the manager is consistent and holds the entries of its target. -/
def Represents (lm : LockManager) (h : HeldLocks) : Prop :=
  ∀ target, (lm.lockOf target).held = h target ∧ (lm.lockOf target).Consistent

theorem TargetLock.acquire_error {tl : TargetLock} {cls : LockClass} {key : Option CapKey}
    {e : LockConflict} (h : tl.acquire cls key = .error e) : e.lockClass = cls := by
  unfold acquire at h
  split_ifs at h with hnone hcapture
  · simp only [acquireCapture] at h
    split_ifs at h <;>
    · obtain rfl := Except.error.inj h
      exact hcapture.symm
  · simp only [acquireExclusive] at h
    split_ifs at h <;>
    · obtain rfl := Except.error.inj h
      rfl

/-- A conflict is raised with the target and the class of the call. -/
theorem LockManager.acquire_error {lm : LockManager} {target : String} {cls : LockClass}
    {key : Option CapKey} {e : LockConflict} (h : (lm.acquire target cls key).1 = .error e) :
    e.target = target ∧ e.lockClass = cls := by
  by_cases hnone : cls = .none
  · simp [acquire, hnone] at h
  · simp only [acquire, if_neg hnone] at h
    cases hacquire : (lm.getTargetLock target).1.acquire cls key with
    | ok tl => simp [hacquire] at h
    | error e' =>
        rw [hacquire] at h
        obtain rfl := Except.error.inj h
        have hcls : e'.lockClass = cls := TargetLock.acquire_error hacquire
        exact ⟨rfl, hcls⟩

theorem acquire_represents {lm : LockManager} {h : HeldLocks} (hrep : Represents lm h)
    (target : String) (cls : LockClass) (key : Option CapKey) :
    (lockMachine.step lm (.acquire target cls key)).1 = (h.acquire target cls key).1 ∧
      Represents (lockMachine.step lm (.acquire target cls key)).2
        (h.acquire target cls key).2 := by
  by_cases hnone : cls = .none
  · subst hnone
    exact ⟨rfl, hrep⟩
  obtain ⟨hheld, hconsistent⟩ := hrep target
  by_cases hfree : (lm.lockOf target).Free cls key
  · have hadmits : HeldLocks.Admits (h target) cls key := hheld ▸ TargetLock.free_iff_admits.mp hfree
    obtain ⟨hok, hlocks⟩ := LockManager.acquire_free hfree
    rcases hex : lm.acquire target cls key with ⟨_ | _, lm'⟩ <;> rw [hex] at hok hlocks
    · cases hok
    refine ⟨by simp [lockMachine, hex, HeldLocks.acquire, hnone, hadmits], fun u => ?_⟩
    simp only [lockMachine, hex, HeldLocks.acquire, if_neg hnone, if_pos hadmits, hlocks]
    by_cases hu : u = target
    · subst hu
      rw [if_pos rfl, Function.update_self, TargetLock.held_hold hnone hfree, hheld]
      exact ⟨rfl, hconsistent.hold hfree⟩
    · rw [if_neg hu, Function.update_of_ne hu]
      exact hrep u
  · have hrefused : ¬ HeldLocks.Admits (h target) cls key :=
      hheld ▸ mt TargetLock.free_iff_admits.mpr hfree
    obtain ⟨⟨e, he⟩, hlocks⟩ := LockManager.acquire_conflict hfree
    obtain ⟨htarget, hcls⟩ := LockManager.acquire_error he
    rcases hex : lm.acquire target cls key with ⟨_ | _, lm'⟩ <;> rw [hex] at he hlocks <;>
      cases he
    refine ⟨by simp [lockMachine, hex, HeldLocks.acquire, hnone, hrefused, htarget, hcls],
      fun u => ?_⟩
    simp only [lockMachine, hex, HeldLocks.acquire, if_neg hnone, if_neg hrefused, hlocks]
    exact hrep u

theorem release_represents {lm : LockManager} {h : HeldLocks} (hrep : Represents lm h)
    (target : String) (cls : LockClass) (key : Option CapKey) :
    Represents (lm.release target cls key) (h.release target cls key) := by
  intro u
  obtain ⟨hheld, hconsistent⟩ := hrep u
  rw [LockManager.lockOf_release]
  by_cases hnone : cls = .none
  · subst hnone
    by_cases hu : u = target
    · subst hu
      simpa [HeldLocks.release, TargetLock.release] using hrep u
    · simpa [HeldLocks.release, hu] using hrep u
  · simp only [HeldLocks.release, if_neg hnone]
    by_cases hu : u = target
    · subst hu
      rw [if_pos rfl, Function.update_self, TargetLock.held_release hnone hconsistent, hheld]
      exact ⟨rfl, hconsistent.release⟩
    · rw [if_neg hu, Function.update_of_ne hu]
      exact hrep u

theorem hasActive_represents {lm : LockManager} {h : HeldLocks} (hrep : Represents lm h)
    (target : String) : lm.hasActive target = decide (h target ≠ ∅) := by
  rw [← (hrep target).1, LockManager.hasActive_eq, Bool.eq_iff_iff, decide_eq_true_iff, ne_eq,
    TargetLock.held_eq_empty]
  cases hholder : (lm.lockOf target).exclusiveHolder <;> simp [TargetLock.hasActive, hholder]

theorem locks_simulate : Machine.Simulates lockMachine heldMachine Represents where
  start target := ⟨rfl, fun hne => absurd rfl hne, rfl⟩
  answer lm h call hrep := by
    cases call with
    | acquire target cls key => exact (acquire_represents hrep target cls key).1
    | release target cls key => rfl
    | hasActive target => exact congrArg LockAnswer.active (hasActive_represents hrep target)
  step lm h call hrep := by
    cases call with
    | acquire target cls key => exact (acquire_represents hrep target cls key).2
    | release target cls key => exact release_represents hrep target cls key
    | hasActive target => exact hrep

/-- No sequence of calls tells the lock manager from the set of held locks. After it, every lock
holds the entries of its target, a holder is alone, and the count is 1 with a holder and 0
without. -/
theorem lock_manager_refines (calls : List LockCall) :
    (lockMachine.run calls lockMachine.start).1 = (heldMachine.run calls heldMachine.start).1 ∧
      ∀ target,
        ((lockMachine.run calls lockMachine.start).2.lockOf target).held =
            (heldMachine.run calls heldMachine.start).2 target ∧
          ((lockMachine.run calls lockMachine.start).2.lockOf target).Consistent :=
  locks_simulate.run calls

/-- A release of the wrong class or key changes nothing, and `None` names the key `()`. -/
example : (lockMachine.run
    [.acquire "h" .capture none, .acquire "h" .shell none, .release "h" .capture (some ["p"]),
      .release "h" .shell none, .acquire "h" .capture (some []), .release "h" .capture (some []),
      .acquire "h" .shell none, .release "h" .replay none, .hasActive "h"] .empty).1 =
    [.done, .conflict "h" .shell, .done, .done, .conflict "h" .capture, .done, .done, .done,
      .active true] := by
  decide +kernel

end McpSocketServer
