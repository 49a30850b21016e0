import McpSocketServer.Server.Reports

/-!
# The polling of `upgrade_run` (`server.py`)

After the pushes `upgrade_run` asks every accepted target for its version until the target
answers with the new one or the time is up. The clock is explicit, in milliseconds: a sleep
takes its time, and a probe takes as long as the network makes it take.
-/

namespace McpSocketServer

/-- What one probe of a target meets: the target or the exception of the connect, and the time
that the probe takes. -/
structure Probe where
  connect : Except PyErr Endpoint
  elapsed : Nat

/-- What a probe of `host:port` meets that begins at a given time. -/
abbrev Network := String × Int → Nat → Probe

/-- The version that a probe reads: `connect` and `version` of a new client with a timeout of
five seconds. -/
def Probe.version (rt : Runtime) (host : String) (port : Int) (p : Probe) : Except PyErr Json :=
  ((do SocketServerClient.connect p.connect; SocketServerClient.version rt :
    Client Json).exec { host := host, port := port, timeout := 5 }).1

/-- The probe reads exactly the version that was pushed: `v == ver`. -/
def Probe.confirms (rt : Runtime) (ver host : String) (port : Int) (p : Probe) : Bool :=
  match p.version rt host port with
  | .ok (.str v) => v == ver
  | _ => false

/-- An item of `pending`. -/
structure PollItem where
  target : String
  host : String
  port : Int
  deriving DecidableEq, Repr

/-- Where the probes of an item go. -/
def PollItem.address (item : PollItem) : String × Int := (item.host, item.port)

/-- The item of a target: a port after the last colon is taken for the port of the target. -/
def pollItem (port : Int) (target : String) : Except PyErr PollItem :=
  if ':' ∈ target.toList ∧ isdigit (afterLast ':' target) then
    match parseInt (String.ofList (afterLast ':' target)) with
    | some p => .ok ⟨target, beforeLast ':' target, p⟩
    | none => .error (intError (String.ofList (afterLast ':' target)))
  else .ok ⟨target, target, port⟩

/-- The clock, `pending` and `confirmed`. -/
structure PollState where
  now : Nat
  pending : List PollItem
  confirmed : List String := []

/-- One probe: the clock runs on, and an item that is confirmed is not asked again. -/
def PollState.probe (rt : Runtime) (ver : String) (net : Network) (s : PollState)
    (item : PollItem) : PollState :=
  let p := net item.address s.now
  if p.confirms rt ver item.host item.port then
    { now := s.now + p.elapsed
      pending := s.pending.erase item
      confirmed := s.confirmed ++ [item.target] }
  else { s with now := s.now + p.elapsed }

/-- One turn of the polling loop: a sleep of three seconds and a probe of every item that is
pending after it, one after the other. -/
def PollState.turn (rt : Runtime) (ver : String) (net : Network) (s : PollState) : PollState :=
  s.pending.foldl (PollState.probe rt ver net) { s with now := s.now + 3000 }

/-- `while pending and time.time() < deadline`, for at most the given number of turns. -/
def pollLoop (rt : Runtime) (ver : String) (net : Network) (deadline : Nat) :
    Nat → PollState → PollState
  | 0, s => s
  | turns + 1, s =>
    if s.pending = [] ∨ deadline ≤ s.now then s
    else pollLoop rt ver net deadline turns (s.turn rt ver net)

/-- The polling that begins at the time `start`. Every turn takes three seconds at least, so
that no more than 60 turns fit in the 180 seconds. -/
def poll (rt : Runtime) (ver : String) (net : Network) (start : Nat) (items : List PollItem) :
    PollState :=
  pollLoop rt ver net (start + 180000) 60 { now := start, pending := items }

/-- The results of the pushes that were accepted. -/
def pushedEntries (results : List TargetResult) : List Entry :=
  (runBatchReport results).results.filter fun r => (entryGet r "pushed").truthy

/-- The polling of the accepted pushes: the targets that it confirms. -/
def confirmedTargets (rt : Runtime) (ver : String) (port : Int) (net : Network) (start : Nat)
    (results : List TargetResult) : Except PyErr (List String) := do
  let items ← ((pushedEntries results).map entryTarget).mapM (pollItem port)
  pure (poll rt ver net start items).confirmed

/-- `upgrade_run` from the results of the pushes on: the polling and the answer. -/
def upgradePolled (rt : Runtime) (ver : String) (port : Int) (net : Network) (start : Nat)
    (results : List TargetResult) : Except PyErr Report := do
  let confirmed ← confirmedTargets rt ver port net start results
  pure (upgradeReport ver (fun target => confirmed.contains target) results)

/-! ### The probes of the polling -/

/-- A probe of the polling loop: when it begins, what it reads, and the version with which that
is compared. The program keeps no such log. -/
structure PollEvent where
  item : PollItem
  start : Nat
  read : Except PyErr Json
  expected : String

section

variable (rt : Runtime) (ver : String) (net : Network)

/-- The probes of one turn. -/
def turnProbes : List PollItem → PollState → List PollEvent
  | [], _ => []
  | item :: items, s =>
    ⟨item, s.now, (net item.address s.now).version rt item.host item.port, ver⟩ ::
      turnProbes items (s.probe rt ver net item)

/-- The probes of the polling loop. -/
def loopProbes (deadline : Nat) : Nat → PollState → List PollEvent
  | 0, _ => []
  | turns + 1, s =>
    if s.pending = [] ∨ deadline ≤ s.now then []
    else turnProbes rt ver net s.pending { s with now := s.now + 3000 } ++
      loopProbes deadline turns (s.turn rt ver net)

/-- The probes of a polling that begins at the time `start`. -/
def itemProbes (start : Nat) (items : List PollItem) : List PollEvent :=
  loopProbes rt ver net (start + 180000) 60 { now := start, pending := items }

/-- The probes of the accepted pushes. -/
def pollProbes (port : Int) (start : Nat) (results : List TargetResult) : List PollEvent :=
  match ((pushedEntries results).map entryTarget).mapM (pollItem port) with
  | .ok items => itemProbes rt ver net start items
  | .error _ => []

end

variable {rt : Runtime} {ver : String} {net : Network} {deadline : Nat}

/-! ### The clock -/

theorem PollState.probe_now (s : PollState) (item : PollItem) :
    (s.probe rt ver net item).now = s.now + (net item.address s.now).elapsed := by
  unfold PollState.probe
  dsimp only
  split_ifs <;> rfl

theorem PollState.foldl_probe_now (items : List PollItem) (s : PollState) :
    s.now ≤ (items.foldl (PollState.probe rt ver net) s).now := by
  induction items generalizing s with
  | nil => exact Nat.le_refl _
  | cons item items ih =>
      have hstep := ih (s.probe rt ver net item)
      rw [probe_now] at hstep
      exact Nat.le_trans (Nat.le_add_right _ _) hstep

theorem PollState.turn_now (s : PollState) : s.now + 3000 ≤ (s.turn rt ver net).now :=
  foldl_probe_now s.pending { s with now := s.now + 3000 }

/-- A bound that covers the time until the deadline does not cut the loop short. -/
theorem pollLoop_done {turns : Nat} {s : PollState} (h : deadline ≤ s.now + 3000 * turns) :
    (pollLoop rt ver net deadline turns s).pending = [] ∨
      deadline ≤ (pollLoop rt ver net deadline turns s).now := by
  induction turns generalizing s with
  | zero => exact Or.inr h
  | succ turns ih =>
      rw [pollLoop]
      split_ifs with hexit
      · exact hexit
      · have hnow := @PollState.turn_now rt ver net s
        exact ih (by omega)

/-- The polling ends because everything is confirmed or because the time is up. -/
theorem poll_done (start : Nat) (items : List PollItem) :
    (poll rt ver net start items).pending = [] ∨
      start + 180000 ≤ (poll rt ver net start items).now :=
  pollLoop_done (Nat.le_refl _)

end McpSocketServer
