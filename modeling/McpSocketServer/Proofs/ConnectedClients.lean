import McpSocketServer.Proofs.ClientFunctions
import McpSocketServer.Proofs.PoolClients

/-!
# Clients that the pool hands out are connected

No client function closes its client, except that of `upgrade_run`, which closes it when the
target has accepted the upgrade and then lets it go back as healthy. In the runs without an
accepted upgrade every client that `acquire` returns has an open socket.
-/

namespace McpSocketServer

open SocketServerClient

variable (rt : Runtime)

/-- The client has an open socket. -/
def Connected (c : SocketServerClient) : Prop := c.sock.isSome = true

theorem connected_exchanges : Exchanges rt Connected Connected :=
  Steady.exchanges (fun _ _ _ _ => rfl) rt

/-! ### Runs -/

theorem connect_connected {outcome : Except PyErr Endpoint} {c c' : SocketServerClient}
    (h : (connect outcome).exec c = (.ok (), c')) : Connected c' := by
  have htriple : Prog.Triple (fun _ => True) (connect outcome) (fun _ => Connected)
      (fun _ _ => True) := by
    unfold connect
    refine Prog.Triple.bind (Q := fun r s => r = s) (.get fun _ _ => rfl) fun r => .ite ?_ ?_
    · intro hopen
      exact .pure fun s hs => by rw [← hs]; exact hopen
    · intro _
      refine .bind (Q := fun _ _ => True)
        (.ofExcept (fun _ _ _ _ => trivial) fun _ _ _ _ => trivial) fun ms => ?_
      refine .bind (Q := fun _ _ => True)
        (.ofExcept (fun _ _ _ _ => trivial) fun _ _ _ _ => trivial) fun ep => ?_
      exact .modify fun _ _ => rfl
  exact htriple.ok trivial h

/-- Connected clients are carried by the uses in which no upgrade is accepted. -/
theorem connected_carries (host : String) (port : Int) :
    Carries (toolClients rt host port) (fun _ => True) (fun c use => ¬ UpgradeAccepted rt c use)
      (fun _ => True) Connected where
  fair _ _ := trivial
  new _ := trivial
  connect timeout outcome _ := by
    refine ⟨trivial, fun hok => ?_⟩
    exact connect_connected (Prod.ext hok rfl)
  setTimeout _ _ hc := hc
  close _ _ := trivial
  perform _ _ hc hno := by
    have hfn := fn_keeps (connected_exchanges rt) port hc
      (fun _ _ _ _ hstart => (connected_exchanges rt).keeps_version.exec (fun _ => id)
        (Prog.Triple.ok ((connected_exchanges rt).keeps_listenStart _) hc hstart))
      fun hacc => absurd hacc hno
    exact ⟨trivial, hfn.2⟩

/-- No use in the step is an accepted upgrade. -/
abbrev NoUpgradeAccepted : PoolState SocketServerClient →
    Nat × PoolStep (Except PyErr Endpoint) ToolUse → Prop :=
  PoolCondition (fun _ => True) fun c use => ¬ UpgradeAccepted rt c use

/-- Every client that `acquire` has returned is connected. -/
def AcquiresConnected (s : PoolState SocketServerClient) : Prop :=
  ∀ t c, s.threads t = .borrowed c → Connected (s.clients c)

/-- In every run without an accepted upgrade, `acquire` returns connected clients, and the idle
clients are connected. -/
theorem acquired_connected {host : String} {port : Int} {s : PoolState SocketServerClient}
    (h : (poolLts (toolClients rt host port)).Reachable (NoUpgradeAccepted rt) s) :
    AcquiresConnected s ∧ ∀ c ∈ idleClients s, Connected (s.clients c) := by
  have hinv := clients_carried (connected_carries rt host port) h
  exact ⟨fun t c ht => hinv.clean t c (by rw [ht]; rfl), hinv.idle⟩

/-! ### An accepted upgrade -/

/-- The target runs version 1.8.0 and accepts upgrades. -/
def upgradingEndpoint : Endpoint := fun _ r =>
  if r.datatype = 14 then { reply := [.data (asciiBytes "\"1.8.0\"")] }
  else { reply := [.data (asciiBytes "\x7b\"ok\": true\x7d")] }

/-- The codecs on its answers. -/
def upgradingRuntime : Runtime :=
  tableRuntime [("\"1.8.0\"", .str "1.8.0"), ("\x7b\"ok\": true\x7d", .obj [("ok", .bool true)])]
    "\x7b\"version\": \"1.9.0\", \"sha256\": \"ab\", \"force\": false\x7d"

/-- A call upgrades the target, and the next call on the target reuses its client. -/
def upgradeTrace : List (Nat × PoolStep (Except PyErr Endpoint) ToolUse) :=
  [(0, .call 0 60 60), (0, .takeSlot 0), (0, .create), (0, .connected (.ok upgradingEndpoint)),
    (0, .perform ⟨.upgradeRun "1.9.0" "ab" false (true, ""), none⟩), (0, .release 1),
    (1, .call 2 60 60), (1, .takeSlot 2), (1, .reuse)]

/-- The state in which the next call has got the client. -/
def upgradeEnd : PoolState SocketServerClient :=
  ((poolLts (toolClients upgradingRuntime "10.0.0.1" 9000)).run upgradeTrace unusedPool).get rfl

/-- The client of an upgraded target is handed out closed. -/
theorem acquired_closed :
    ¬ ∀ rt host port s, (poolLts (toolClients rt host port)).Reachable Lts.always s →
      AcquiresConnected s := by
  intro h
  have hreach : (poolLts (toolClients upgradingRuntime "10.0.0.1" 9000)).Reachable Lts.always
      upgradeEnd := .of_run (.init ⟨rfl, rfl, fun _ => rfl⟩) (Option.some_get rfl).symm
  have hopen : Connected (upgradeEnd.clients 0) := h _ _ _ _ hreach 1 0 rfl
  have hclosed : (upgradeEnd.clients 0).sock.isSome = false := rfl
  rw [Connected, hclosed] at hopen
  cases hopen

/-- A call reads the version of the target, and the next call reuses its client. -/
def versionTrace : List (Nat × PoolStep (Except PyErr Endpoint) ToolUse) :=
  [(0, .call 0 60 60), (0, .takeSlot 0), (0, .create), (0, .connected (.ok upgradingEndpoint)),
    (0, .perform ⟨.version, none⟩), (0, .release 1), (1, .call 2 60 60), (1, .takeSlot 2),
    (1, .reuse)]

/-- The state in which the next call has got the client. -/
def versionEnd : PoolState SocketServerClient :=
  ((poolLts (toolClients upgradingRuntime "10.0.0.1" 9000)).run versionTrace unusedPool).get rfl

theorem versionEnd_reachable : (poolLts (toolClients upgradingRuntime "10.0.0.1" 9000)).Reachable
    (NoUpgradeAccepted upgradingRuntime) versionEnd := by
  have hlabels : ∀ l ∈ versionTrace, ∀ use, l.2 = .perform use → use.call = .version := by
    intro l hl use huse
    simp only [versionTrace, List.mem_cons, List.not_mem_nil, or_false] at hl
    rcases hl with rfl | rfl | rfl | rfl | rfl | rfl | rfl | rfl | rfl <;> cases huse
    rfl
  refine Lts.Reachable.of_run_within (I := fun _ => True) (L := fun l => ∀ use, l.2 = .perform use →
    use.call = .version) ?_ (fun _ _ _ _ _ _ => trivial) hlabels (.init ⟨rfl, rfl, fun _ => rfl⟩)
    trivial (Option.some_get rfl).symm
  rintro s ⟨t, l⟩ - hl
  cases l with
  | perform use =>
      intro c _ hacc
      rw [UpgradeAccepted, hl use rfl] at hacc
      exact hacc
  | _ => trivial

theorem acquired_connected_witness :
    versionEnd.threads 1 = .borrowed 0 ∧ Connected (versionEnd.clients 0) :=
  ⟨rfl, (acquired_connected upgradingRuntime versionEnd_reachable).1 1 0 rfl⟩

end McpSocketServer
