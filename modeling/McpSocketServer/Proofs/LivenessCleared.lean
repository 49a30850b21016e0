import McpSocketServer.Proofs.ClientFunctions
import McpSocketServer.Proofs.RemovalSafety
import McpSocketServer.Server.ListenRuns

/-!
# The liveness flag after a stop

`stop` raises on every answer but `ok`, and the flag is cleared after it. So a target that has
restarted, and that says for this reason that no listener has been started, keeps the flag of the
listener it had. In the runs in which no flagged target gives that answer, and in which the
registry can store the ports that it is given, the flag is cleared wherever a target has said that
no listener runs.
-/

namespace McpSocketServer

open SocketServerClient

variable {rt : Runtime} {noneStarted : Json → Bool} {port : Int} {c : SocketServerClient}
  {reg : Registry}

/-! ### What a call does to the registry -/

theorem version_host {c c' : SocketServerClient} {v : Except PyErr Json}
    (h : (version rt).exec c = (v, c')) : c'.host = c.host := by
  have hkept := (ofHost_exchanges rt c.host).keeps_version.exec (fun _ => id) rfl
  rwa [h] at hkept

theorem listenStart_host {listenPort : Int} {c c' : SocketServerClient} {result : Json}
    (h : (listenStart rt listenPort).exec c = (.ok result, c')) : c'.host = c.host :=
  Prog.Triple.ok ((ofHost_exchanges rt c.host).keeps_listenStart listenPort) rfl h

/-- A flag is set in the row of its target. -/
theorem Registry.liveAt_iff {target : String × Int} :
    reg.liveAt target = true ↔ ∃ row ∈ reg.rows, row.key = target ∧ row.listenLiveness = true := by
  constructor
  · intro h
    unfold Registry.liveAt at h
    cases hrow : reg.find target.1 target.2 with
    | none => simp [hrow] at h
    | some row =>
        rw [hrow] at h
        exact ⟨row, List.mem_of_find?_eq_some hrow, by simpa using List.find?_some hrow, h⟩
  · intro h
    obtain ⟨row, hrow, rfl, hlive⟩ := h
    have hfind : reg.find row.key.1 row.key.2 = some row := by
      cases hfound : reg.find row.key.1 row.key.2 with
      | none =>
          have hnone := List.find?_eq_none.mp hfound row hrow
          simp at hnone
      | some found =>
          have hkey : found.key = row.key := by simpa using List.find?_some hfound
          rw [List.inj_on_of_nodup_map reg.unique (List.mem_of_find?_eq_some hfound) hrow hkey]
    rw [Registry.liveAt, hfind]
    exact hlive

/-- A registry that comes from another: every port of a row can be stored, and no flag is set
that was not set there. -/
structure Registry.Quieter (reg' reg : Registry) : Prop where
  bindable : (∀ row ∈ reg.rows, bindInteger row.port = .ok ()) →
    ∀ row ∈ reg'.rows, bindInteger row.port = .ok ()
  live : ∀ target, reg'.liveAt target = true → reg.liveAt target = true

namespace Registry.Quieter

theorem refl (reg : Registry) : reg.Quieter reg := ⟨fun h => h, fun _ h => h⟩

/-- Fewer rows have fewer flags. -/
theorem of_subset {reg' : Registry} (h : reg'.rows ⊆ reg.rows) : reg'.Quieter reg := by
  refine ⟨fun hbind row hrow => hbind row (h hrow), fun target htarget => ?_⟩
  obtain ⟨row, hrow, hkey⟩ := liveAt_iff.mp htarget
  exact liveAt_iff.mpr ⟨row, h hrow, hkey⟩

theorem insertOrIgnore {row : Row} (hport : bindInteger row.port = .ok ())
    (hlive : row.listenLiveness = false) : (reg.insertOrIgnore row).Quieter reg := by
  constructor
  · intro h other hother
    rcases mem_insertOrIgnore hother with hother | hnew
    · exact h other hother
    · exact hnew.2 ▸ hport
  · intro target htarget
    obtain ⟨other, hother, htarget, hflag⟩ := liveAt_iff.mp htarget
    rcases mem_insertOrIgnore hother with hother | hnew
    · exact liveAt_iff.mpr ⟨other, hother, htarget, hflag⟩
    · rw [hnew.2, hlive] at hflag
      cases hflag

theorem addTargetTool {host : String} {tags : Option (List String)} {note : String}
    {force : Bool} {probe : Except PyErr Unit} {createdAt : String} {reg' : Registry}
    (h : (addTargetTool (some reg) host port tags note force probe createdAt).2 = some reg') :
    reg'.Quieter reg := by
  have hadd : (reg.addTarget (stripBrackets host) port tags note createdAt).2.Quieter reg := by
    unfold Registry.addTarget
    split
    · exact .refl reg
    · rename_i hbind
      exact .insertOrIgnore hbind rfl
  unfold McpSocketServer.addTargetTool at h
  dsimp only at h
  split_ifs at h
  · exact Option.some.inj h ▸ hadd
  split at h
  · exact Option.some.inj h ▸ hadd
  · split_ifs at h <;> exact Option.some.inj h ▸ .refl reg

theorem removeTargetTool {host : String} {lm : Option LockManager} {reg' : Registry}
    (h : (removeTargetTool (some reg) lm host port).2 = some reg') : reg'.Quieter reg := by
  have hremove : (reg.removeTarget host port).2.Quieter reg := by
    unfold Registry.removeTarget
    split
    · exact .refl reg
    · split_ifs
      · exact .refl reg
      · exact of_subset (fun _ hr => List.mem_of_mem_filter hr)
  unfold McpSocketServer.removeTargetTool at h
  dsimp only at h
  split_ifs at h
  · exact Option.some.inj h ▸ .refl reg
  split at h
  · exact Option.some.inj h ▸ .refl reg
  · exact Option.some.inj h ▸ .refl reg
  · exact Option.some.inj h ▸ hremove

end Registry.Quieter

theorem rows_setListenLiveness {host : String} {alive : Bool}
    (h : ∀ row ∈ reg.rows, bindInteger row.port = .ok ()) :
    ∀ row ∈ (reg.setListenLiveness host alive port).2.rows, bindInteger row.port = .ok () := by
  unfold Registry.setListenLiveness
  split
  · exact h
  · intro row hrow
    obtain ⟨old, hold, rfl⟩ := List.mem_map.mp hrow
    have hkey := congrArg Prod.snd (Registry.withLiveness_key host port alive old)
    exact (congrArg bindInteger hkey).trans (h old hold)

/-! ### Runs -/

/-- The step hands the registry no port that SQLite cannot bind: such a statement fails within the
transaction that it has opened, and the connection stays in it. A stop is moreover not answered,
in other words than `ok`, that no listener runs where the flag is set. -/
def StopsCleanly (rt : Runtime) (noneStarted : Json → Bool) (s : ListenState) : ListenStep → Prop
  | .addTarget _ port _ _ force probe _ =>
    force = true ∨ probe = .ok () → bindInteger port = .ok ()
  | .call (.listenStart _) port _ => bindInteger port = .ok ()
  | .call .listenStop port c => bindInteger port = .ok () ∧
      (saysStopped rt noneStarted c = true →
        stopAnswer c = .ok okBytes ∨ s.registry.liveAt (c.host, port) = false)
  | _ => True

/-- The ports of the rows can be stored, and the targets that have said that no listener runs have
no flag. -/
structure ListenInv (s : ListenState) : Prop where
  bindable : ∀ row ∈ s.registry.rows, bindInteger row.port = .ok ()
  stored : ∀ target, s.stopped target = true → bindInteger target.2 = .ok ()
  cleared : ∀ target, s.stopped target = true → s.registry.liveAt target = false

variable {s s' : ListenState}

theorem ListenInv.start (h : ListenInv s) {listenPort : Int}
    (hreg : reg = s.registry ∨ reg = (s.registry.setListenLiveness c.host true port).2)
    (listening : String × Int → Bool) : ListenInv
      ⟨reg, listening, s.stoppedAfter rt noneStarted (.listenStart listenPort) port c⟩ := by
  have hstopped : ∀ target, s.stoppedAfter rt noneStarted (.listenStart listenPort) port c target =
      true → target ≠ (c.host, port) ∧ s.stopped target = true := by
    intro target htarget
    simp only [ListenState.stoppedAfter, Function.update_apply] at htarget
    split_ifs at htarget with hne
    exact ⟨hne, htarget⟩
  refine ⟨?_, fun target htarget => h.stored target (hstopped target htarget).2, ?_⟩
  · rcases hreg with rfl | rfl
    · exact h.bindable
    · exact rows_setListenLiveness h.bindable
  · intro target htarget
    obtain ⟨hne, hbefore⟩ := hstopped target htarget
    rcases hreg with rfl | rfl
    · exact h.cleared target hbefore
    · by_cases hbind : bindInteger port = .ok ()
      · rw [Registry.liveAt_setListenLiveness true hbind, if_neg hne]
        exact h.cleared target hbefore
      · rw [Registry.setListenLiveness_error true hbind]
        exact h.cleared target hbefore

/-- After a stop the flag of its target is cleared exactly when the answer was `ok`, or when the
flag was not set before. -/
theorem stop_clears_iff (hbind : bindInteger port = .ok ()) :
    (if stopAnswer c = .ok okBytes then (reg.setListenLiveness c.host false port).2
        else reg).liveAt (c.host, port) = false ↔
      stopAnswer c = .ok okBytes ∨ reg.liveAt (c.host, port) = false := by
  split_ifs with hok
  · rw [Registry.liveAt_setListenLiveness false hbind, if_pos rfl]
    exact iff_of_true rfl (Or.inl hok)
  · exact (or_iff_right hok).symm

theorem ListenInv.stop (h : ListenInv s)
    (hclean : StopsCleanly rt noneStarted s (.call .listenStop port c))
    (listening : String × Int → Bool) : ListenInv
      ⟨if stopAnswer c = .ok okBytes then (s.registry.setListenLiveness c.host false port).2
        else s.registry, listening, s.stoppedAfter rt noneStarted .listenStop port c⟩ := by
  have hstopped : ∀ target, s.stoppedAfter rt noneStarted .listenStop port c target = true →
      s.stopped target = true ∨ (target = (c.host, port) ∧ saysStopped rt noneStarted c = true ∧
        (s.registry.find c.host port).isSome = true) := by
    intro target htarget
    simp only [ListenState.stoppedAfter, Bool.and_eq_true] at htarget
    split_ifs at htarget with hsays
    · rw [Function.update_apply] at htarget
      split_ifs at htarget with heq
      · exact Or.inr ⟨heq, hsays⟩
      · exact Or.inl htarget
    · exact Or.inl htarget
  have hrow : (s.registry.find c.host port).isSome = true → bindInteger port = .ok () := by
    intro hsome
    obtain ⟨row, hrow⟩ := Option.isSome_iff_exists.mp hsome
    have hkey : row.key = (c.host, port) := by simpa using List.find?_some hrow
    have hport : row.port = port := congrArg Prod.snd hkey
    exact hport ▸ h.bindable row (List.mem_of_find?_eq_some hrow)
  refine ⟨?_, fun target htarget => ?_, fun target htarget => ?_⟩
  · split_ifs
    · exact rows_setListenLiveness h.bindable
    · exact h.bindable
  · rcases hstopped target htarget with hbefore | ⟨rfl, -, hsome⟩
    · exact h.stored target hbefore
    · exact hrow hsome
  · rcases hstopped target htarget with hbefore | ⟨rfl, hsays, hsome⟩
    · have hflag := h.cleared target hbefore
      dsimp only
      split_ifs
      · by_cases hbind : bindInteger port = .ok ()
        · rw [Registry.liveAt_setListenLiveness false hbind, hflag]
          exact ite_self _
        · rwa [Registry.setListenLiveness_error false hbind]
      · exact hflag
    · exact (stop_clears_iff (hrow hsome)).mpr (hclean.2 hsays)

end McpSocketServer
