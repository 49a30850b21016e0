import McpSocketServer.Server.ToolRun

/-!
# What a worker sees of the others

The workers of one call share the locks and the registry. What becomes of one of them depends
only on the lock of its own target and on whether there is a registry, and the workers of the
other targets leave both as they are.
-/

namespace McpSocketServer

open Prog

variable {rt : Runtime} {port timeout : Int} {call : ToolCall} {sh sh' : Shared}
  {host host' : String} {b : Borrowing}

/-! ### The registry -/

/-- The same client, and a registry in both states, or in none. -/
def SameClient (listed : Bool) (s t : FnState) : Prop :=
  s.client = t.client ∧ s.registry.isSome = listed ∧ t.registry.isSome = listed

variable {listed : Bool}

theorem onClient_agrees {α : Type} (m : Client α) : Agrees (SameClient listed) (onClient m) :=
  .zoom (fun _ _ h => h.1) (fun _ _ _ h => ⟨rfl, h.2⟩) m

/-- Only the port can make the update of the liveness fail. -/
theorem setListenLiveness_outcome (reg : Registry) (host : String) (alive : Bool) (port : Int) :
    (reg.setListenLiveness host alive port).1 = bindInteger port := by
  unfold Registry.setListenLiveness
  split
  · rename_i e h
    exact h.symm
  · rename_i h
    exact h.symm

theorem setLiveness_agrees (alive : Bool) (port : Int) :
    Agrees (SameClient listed) (setLiveness alive port) := by
  intro s t h
  obtain ⟨hclient, hs, ht⟩ := id h
  cases listed with
  | false =>
      rw [Option.isSome_eq_false_iff, Option.isNone_iff_eq_none] at hs ht
      simp only [setLiveness, exec_bind, exec_get, follow_ok, hs, ht, exec_pure]
      exact ⟨trivial, h⟩
  | true =>
      obtain ⟨reg, hs⟩ := Option.isSome_iff_exists.mp hs
      obtain ⟨reg', ht⟩ := Option.isSome_iff_exists.mp ht
      simp only [setLiveness, exec_bind, exec_get, follow_ok, hs, ht, exec_set, exec_ofExcept,
        setListenLiveness_outcome]
      exact ⟨trivial, hclient, rfl, rfl⟩

theorem registerLiveness_agrees (rt : Runtime) (port : Int) :
    Agrees (SameClient listed) (registerLiveness rt port) := by
  apply (onClient_agrees _).bind
  intro v
  cases v with
  | str v =>
      simp only
      split
      · exact .throw _
      · split
        · exact .pure _
        · exact setLiveness_agrees true port
  | _ => exact .throw _

theorem captureStartFn_agrees (rt : Runtime) (iface path extended : String)
    (singleQueue : Bool) :
    Agrees (SameClient listed) (captureStartFn rt iface path extended singleQueue) := by
  apply (onClient_agrees _).bind
  intro d
  apply (Agrees.ofExcept _).bind
  intro res
  split
  · exact .pure _
  · apply (Agrees.ofExcept _).bind
    intro error
    split <;> exact .pure _

theorem listenStartFn_agrees (rt : Runtime) (listenPort port : Int) :
    Agrees (SameClient listed) (listenStartFn rt listenPort port) := by
  apply (onClient_agrees _).bind
  intro result
  apply ((registerLiveness_agrees rt port).tryCatch fun _ => .pure _).bind
  intro _
  exact .pure _

theorem listenStopFn_agrees (rt : Runtime) (port : Int) :
    Agrees (SameClient listed) (listenStopFn rt port) := by
  apply (onClient_agrees _).bind
  intro r
  exact (setLiveness_agrees false port).bind fun _ => .pure _

theorem listenFetchFn_agrees (rt : Runtime) (maxBytes : Int) (ts : String) :
    Agrees (SameClient listed) (listenFetchFn rt maxBytes ts) := by
  apply (onClient_agrees _).bind
  intro data
  split
  · exact .pure _
  · exact (onClient_agrees _).bind fun _ => .pure _

theorem upgradeFn_agrees (rt : Runtime) (ver sha : String) (force : Bool)
    (push : Bool × String) : Agrees (SameClient listed) (upgradeFn rt ver sha force push) := by
  apply (onClient_agrees _).bind
  intro cur
  split
  · exact .pure _
  · split
    · exact .pure _
    · apply (onClient_agrees _).bind
      intro resp
      apply (Agrees.ofExcept _).bind
      intro error
      split
      · exact .pure _
      · apply (Agrees.ofExcept _).bind
        intro ok
        split
        · apply (Agrees.modify fun s t h => ⟨congrArg SocketServerClient.close h.1, h.2⟩).bind
          intro _
          exact .pure _
        · exact .pure _

/-- No client function depends on what the registry holds. -/
theorem fn_agrees (rt : Runtime) (port : Int) (call : ToolCall) :
    Agrees (SameClient listed) (call.fn rt port) := by
  cases call with
  | captureStart iface path extended singleQueue =>
      exact captureStartFn_agrees rt iface path extended singleQueue
  | listenStart listenPort => exact listenStartFn_agrees rt listenPort port
  | listenStop => exact listenStopFn_agrees rt port
  | listenFetch maxBytes ts => exact listenFetchFn_agrees rt maxBytes ts
  | upgradeRun ver sha force push => exact upgradeFn_agrees rt ver sha force push
  | _ => exact (onClient_agrees _).bind fun _ => .pure _

/-! ### The worker of one target -/

theorem locksAfter_lockOf_ne (call : ToolCall) (hhost : host' ≠ host)
    (outcome : Except PyErr PyVal) (locks : LockManager) :
    (call.locksAfter host outcome locks).lockOf host' = locks.lockOf host' := by
  have hrelease : ∀ cls key, (locks.release host cls key).lockOf host' = locks.lockOf host' := by
    intro cls key
    rw [LockManager.lockOf_release, if_neg hhost]
  unfold ToolCall.locksAfter
  split
  · exact hrelease _ _
  · split
    · rfl
    · exact hrelease _ _

/-- A worker leaves the locks of the other targets, and a registry where there is one. -/
theorem runOne_frame (rt : Runtime) (port timeout : Int) (call : ToolCall) (sh : Shared)
    (hhost : host' ≠ host) (b : Borrowing) :
    (call.runOne rt port timeout sh host b).2.locks.lockOf host' = sh.locks.lockOf host' ∧
      (call.runOne rt port timeout sh host b).2.registry.isSome = sh.registry.isSome := by
  have hacquire := sh.locks.acquire_lockOf_ne hhost call.lockClass (some call.lockKey)
  unfold ToolCall.runOne
  rcases hacq : sh.locks.acquire host call.lockClass (some call.lockKey) with ⟨e | u, locks⟩
  · rw [hacq] at hacquire
    exact ⟨hacquire, rfl⟩
  · rw [hacq] at hacquire
    cases b.acquire host port (call.socketTimeout timeout) with
    | error e =>
        refine ⟨?_, rfl⟩
        show (locks.release host call.lockClass (some call.lockKey)).lockOf host' = _
        rw [LockManager.lockOf_release, if_neg hhost]
        exact hacquire
    | ok client =>
        refine ⟨?_, ?_⟩
        · show (call.locksAfter host _ locks).lockOf host' = _
          rw [locksAfter_lockOf_ne call hhost]
          exact hacquire
        · exact (fn_agrees rt port call ⟨client, sh.registry⟩ _ ⟨rfl, rfl, rfl⟩).2.2.1

/-- How a worker ends depends on the lock of its target, on whether there is a registry, and on
what the target does. -/
theorem runOne_end (call : ToolCall) (hlock : sh.locks.lockOf host = sh'.locks.lockOf host)
    (hreg : sh.registry.isSome = sh'.registry.isSome) (b : Borrowing) :
    (call.runOne rt port timeout sh host b).1 = (call.runOne rt port timeout sh' host b).1 := by
  have hacquire := LockManager.acquire_outcome hlock call.lockClass (some call.lockKey)
  unfold ToolCall.runOne
  rcases hacq : sh.locks.acquire host call.lockClass (some call.lockKey) with ⟨e | u, locks⟩ <;>
    rcases hacq' : sh'.locks.acquire host call.lockClass (some call.lockKey) with
      ⟨e' | u', locks'⟩ <;>
    rw [hacq, hacq'] at hacquire <;> cases hacquire
  · rfl
  · cases b.acquire host port (call.socketTimeout timeout) with
    | error e => rfl
    | ok client =>
        have hout := (fn_agrees rt port call ⟨client, sh.registry⟩ ⟨client, sh'.registry⟩
          ⟨rfl, hreg, rfl⟩).1
        exact congrArg WorkerEnd.ran hout

/-! ### The workers of one call -/

theorem runAll_cons (call : ToolCall) (does : String → Borrowing) (order : List String) :
    (call.runAll rt port timeout does (host :: order) sh).1 =
      (host, (call.runOne rt port timeout sh host (does host)).1) ::
        (call.runAll rt port timeout does order
          (call.runOne rt port timeout sh host (does host)).2).1 := rfl

/-- On distinct targets every worker ends as if it had run first. -/
theorem runAll_ends (call : ToolCall) (does : String → Borrowing) {order : List String}
    (hnodup : order.Nodup) :
    (call.runAll rt port timeout does order sh).1 =
      order.map fun host => (host, (call.runOne rt port timeout sh host (does host)).1) := by
  induction order generalizing sh with
  | nil => rfl
  | cons host order ih =>
      obtain ⟨hnotin, hnodup⟩ := List.nodup_cons.mp hnodup
      rw [runAll_cons, ih hnodup, List.map_cons, List.cons_inj_right]
      apply List.map_congr_left
      intro host' hhost'
      have hne : host' ≠ host := fun heq => hnotin (heq ▸ hhost')
      obtain ⟨hlock, hreg⟩ :=
        runOne_frame rt port timeout call sh hne (does host)
      rw [runOne_end call hlock hreg]

/-- What becomes of one target, by itself. -/
def workerResult (rt : Runtime) (port timeout : Int) (call : ToolCall) (sh : Shared)
    (does : String → Borrowing) (host : String) : TargetResult :=
  call.result host (call.runOne rt port timeout sh host (does host)).1

/-- The results of a run on distinct targets. -/
theorem results_eq {resolved : List String} (run : TargetsRun resolved) (hnodup : resolved.Nodup)
    (rt : Runtime) (port timeout : Int) (call : ToolCall) (sh : Shared) :
    run.results rt port timeout call sh =
      run.order.map (workerResult rt port timeout call sh run.does) := by
  rw [TargetsRun.results, runAll_ends call run.does (run.perm.nodup_iff.mpr hnodup), List.map_map]
  rfl

end McpSocketServer
