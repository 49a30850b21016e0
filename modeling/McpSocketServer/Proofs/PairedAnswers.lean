import McpSocketServer.Proofs.AnswerReads
import McpSocketServer.Proofs.PoolClients

/-!
# Answers stay paired with requests on pooled connections

A client goes back to the pool as healthy only after a client function has returned, and
every exchange that returns has read its whole answer. The start of a listener makes a second
exchange, whose exceptions it swallows: where the answer to that one is late, it stays on the
connection and is read as the answer to the next request.
-/

namespace McpSocketServer

open SocketServerClient

variable {rt : Runtime}

/-- Targets that are connected to answer in the framing of each datatype. -/
def AnsweringTarget (rt : Runtime) (outcome : Except PyErr Endpoint) : Prop :=
  ∀ ep, outcome = .ok ep → Answers rt ep

/-- If the use starts a listener on the client, the version request that follows is answered
in time. -/
def ProbeInTime (rt : Runtime) (c : SocketServerClient) (use : ToolUse) : Prop :=
  ∀ listenPort, use.call = .listenStart listenPort → ∀ result c₁,
    (listenStart rt listenPort).exec c = (.ok result, c₁) → AnsweredInTime c₁ ⟨14, []⟩

theorem connect_paired {outcome : Except PyErr Endpoint} (hout : AnsweringTarget rt outcome)
    {c : SocketServerClient} (hstale : c.stale = false) (hclosed : c.sock = none) :
    Fair rt ((connect outcome).exec c).2 ∧
      (((connect outcome).exec c).1 = .ok () → Paired rt ((connect outcome).exec c).2) := by
  have hfair : Fair rt c := by
    refine ⟨hstale, fun s hs => ?_⟩
    rw [hclosed] at hs
    cases hs
  cases hms : checkTimeout (1000 * c.timeout) with
  | error e => simp [connect, hclosed, hms, hfair]
  | ok ms =>
      cases outcome with
      | error e => simp [connect, hclosed, hms, hfair]
      | ok ep =>
          have hpaired : Paired rt { c with sock := some { timeout := ms, endpoint := ep } } :=
            .of_sock hstale rfl (hout ep rfl) rfl
          simp [connect, hclosed, hms, hpaired, hpaired.fair]

/-- Paired clients are carried by the uses that start no listener with a late version answer. -/
theorem paired_carries (hempty : ∀ j, rt.loads (rt.decode []) ≠ .ok j) (host : String)
    (port : Int) :
    Carries (toolClients rt host port) (AnsweringTarget rt) (ProbeInTime rt) (Fair rt)
      (Paired rt) where
  fair _ := Paired.fair
  new _ := ⟨rfl, nofun⟩
  connect _ _ hout := connect_paired hout rfl rfl
  setTimeout _ _ hc := hc
  close _ hc := ⟨hc.1, nofun⟩
  perform c use hc hprobe := by
    apply fn_keeps (paired_exchanges hempty) port hc
    · intro listenPort hcall result c₁ hstart
      have hpaired : Paired rt c₁ :=
        Prog.Triple.ok ((paired_exchanges hempty).keeps_listenStart listenPort) hc hstart
      exact version_in_time hpaired (hprobe listenPort hcall result c₁ hstart)
    · exact fun _ c hc => ⟨hc.1, nofun⟩

/-- Every client that was put into the idle list has read the answers to all its requests. -/
def AnswersRead (s : PoolState SocketServerClient) : Prop :=
  ∀ c ∈ idleClients s, ∀ sock, (s.clients c).sock = some sock → sock.wire.contents = []

/-- No client has read a byte that answers an earlier request. -/
def NothingStale (s : PoolState SocketServerClient) : Prop :=
  ∀ c, c < s.fresh → (s.clients c).stale = false

/-- In every run on answering targets that answer the version request after the start of a
listener in time, idle clients have read all answers, and no client reads an answer to an
earlier request. -/
theorem answers_paired (hempty : ∀ j, rt.loads (rt.decode []) ≠ .ok j) {host : String}
    {port : Int} {s : PoolState SocketServerClient}
    (h : (poolLts (toolClients rt host port)).Reachable
      (PoolCondition (AnsweringTarget rt) (ProbeInTime rt)) s) :
    AnswersRead s ∧ NothingStale s := by
  have hinv := clients_carried (paired_carries hempty host port) h
  constructor
  · intro c hc sock hsock
    exact ((hinv.idle c hc).2 sock hsock).2
  · intro c hc
    exact (hinv.all c hc).1

/-! ### A late version answer -/

/-- A target that starts listeners and answers the version request after `delay`. -/
def listeningEndpoint (delay : Nat) : Endpoint := fun _ r =>
  if r.datatype = 14 then { reply := [.silence delay, .data (asciiBytes "\"1.8.0\"")] }
  else if r.datatype ∈ commandDatatypes then { reply := [.data okBytes] }
  else if r.datatype = 1 ∨ r.datatype ∈ lenprefixedDatatypes then
    { reply := [.data (packLE 4 2 ++ asciiBytes "\x7b\x7d")] }
  else { reply := [.data (asciiBytes "\x7b\"pid\": 7\x7d")] }

/-- The codecs on its answers. -/
def listeningRuntime : Runtime :=
  tableRuntime [("\"1.8.0\"", .str "1.8.0"), ("\x7b\"pid\": 7\x7d", .obj [("pid", .int 7)])]
    "\x7b\"host\": null, \"port\": 5000\x7d"

theorem listeningRuntime_empty (j : Json) :
    listeningRuntime.loads (listeningRuntime.decode []) ≠ .ok j := by
  have herror : listeningRuntime.loads (listeningRuntime.decode []) =
      .error ⟨.valueError, "Expecting value"⟩ := rfl
  rw [herror]
  exact nofun

theorem listeningEndpoint_answers (delay : Nat) :
    Answers listeningRuntime (listeningEndpoint delay) := by
  intro n hpre
  obtain ⟨datatype, payload⟩ := hpre
  simp only [listeningEndpoint]
  split_ifs with hversion hcommand hprefixed
  · refine ⟨fun _ τ hacc => ?_, fun hd => ?_, fun hd => ?_⟩
    · by_cases hτ : delay ≤ τ
      · simp only [Wire.Drains, Wire.burst, if_pos hτ]
        rfl
      · simp only [Wire.burst, if_neg hτ] at hacc
        exact absurd hacc (not_accepted_nil listeningRuntime_empty)
    · rw [hversion] at hd
      exact absurd hd (by decide)
    · rw [hversion] at hd
      cases hd
  · refine ⟨fun _ τ _ => Wire.drains_data 500 τ _, fun hd => ?_, fun hd => ?_⟩
    · simp only [commandDatatypes, lenprefixedDatatypes, List.mem_cons, List.not_mem_nil,
        or_false] at hcommand hd
      omega
    · rw [hd] at hcommand
      exact absurd hcommand (by decide)
  · refine ⟨fun _ τ _ => Wire.drains_data 500 τ _, fun _ => ?_, fun hd => ?_⟩
    · exact ⟨asciiBytes "\x7b\x7d", by decide, rfl⟩
    · rw [hd] at hprefixed
      exact absurd hprefixed (by decide)
  · refine ⟨fun _ τ _ => Wire.drains_data 500 τ _, fun hd => absurd hd hprefixed, fun _ => ?_⟩
    exact Or.inl rfl

/-- A call connects to the target. -/
def connectTrace (delay : Nat) : List (Nat × PoolStep (Except PyErr Endpoint) ToolUse) :=
  [(0, .call 0 60 60), (0, .takeSlot 0), (0, .create),
    (0, .connected (.ok (listeningEndpoint delay)))]

/-- It starts a listener and the client goes back. -/
def listenTrace : List (Nat × PoolStep (Except PyErr Endpoint) ToolUse) :=
  [(0, .perform ⟨.listenStart 5000, none⟩), (0, .release 61)]

/-- The next call on the target reads its version. -/
def nextVersionTrace : List (Nat × PoolStep (Except PyErr Endpoint) ToolUse) :=
  [(1, .call 62 60 60), (1, .takeSlot 62), (1, .reuse), (1, .perform ⟨.version, none⟩)]

/-- The pool of the listening target. -/
abbrev listeningLts : Lts (PoolState SocketServerClient)
    (Nat × PoolStep (Except PyErr Endpoint) ToolUse) :=
  poolLts (toolClients listeningRuntime "10.0.0.1" 9000)

/-- Connects in the label reach answering targets, and its use is in `C` on any client. -/
def AnsweringLabel (C : SocketServerClient → ToolUse → Prop) :
    Nat × PoolStep (Except PyErr Endpoint) ToolUse → Prop
  | (_, .connected outcome) => AnsweringTarget listeningRuntime outcome
  | (_, .perform use) => ∀ c, C c use
  | _ => True

variable {C : SocketServerClient → ToolUse → Prop}

theorem connectTrace_answering (delay : Nat) : ∀ l ∈ connectTrace delay, AnsweringLabel C l := by
  intro l hl
  simp only [connectTrace, List.mem_cons, List.not_mem_nil, or_false] at hl
  rcases hl with rfl | rfl | rfl | rfl
  · trivial
  · trivial
  · trivial
  · intro ep hep
    rw [← Except.ok.inj hep]
    exact listeningEndpoint_answers delay

theorem reachable_answering (ls : List (Nat × PoolStep (Except PyErr Endpoint) ToolUse))
    {s s' : PoolState SocketServerClient}
    (hs : listeningLts.Reachable (PoolCondition (AnsweringTarget listeningRuntime) C) s)
    (hls : ∀ l ∈ ls, AnsweringLabel C l) (hrun : listeningLts.run ls s = some s') :
    listeningLts.Reachable (PoolCondition (AnsweringTarget listeningRuntime) C) s' := by
  apply Lts.Reachable.of_run_within (I := fun _ => True) (L := AnsweringLabel C) _ _ hls hs trivial
    hrun
  · intro s l _ hl
    obtain ⟨t, l⟩ := l
    cases l with
    | connected outcome => exact hl
    | perform use => exact fun _ _ => hl _
    | _ => trivial
  · exact fun _ _ _ _ _ _ => trivial

/-- A client is connected to a target whose version answer comes after `delay`. -/
def connectedEnd (delay : Nat) : PoolState SocketServerClient :=
  (listeningLts.run (connectTrace delay) unusedPool).get rfl

theorem connectedEnd_reachable (delay : Nat) :
    listeningLts.Reachable (PoolCondition (AnsweringTarget listeningRuntime) C)
      (connectedEnd delay) :=
  reachable_answering _ (.init ⟨rfl, rfl, fun _ => rfl⟩) (connectTrace_answering delay)
    (Option.some_get rfl).symm

/-- The version answer comes one second after the timeout. -/
def lateEnd : PoolState SocketServerClient :=
  (listeningLts.run listenTrace (connectedEnd 61000)).get rfl

/-- The next call has read the version that was sent too late. -/
def staleEnd : PoolState SocketServerClient :=
  (listeningLts.run nextVersionTrace lateEnd).get rfl

/-- Runs on answering targets, whenever the answers come. -/
abbrev OnAnsweringTargets (rt : Runtime) : PoolState SocketServerClient →
    Nat × PoolStep (Except PyErr Endpoint) ToolUse → Prop :=
  PoolCondition (AnsweringTarget rt) fun _ _ => True

theorem lateEnd_reachable :
    listeningLts.Reachable (OnAnsweringTargets listeningRuntime) lateEnd := by
  apply reachable_answering listenTrace (connectedEnd_reachable 61000)
  · intro l hl
    simp only [listenTrace, List.mem_cons, List.not_mem_nil, or_false] at hl
    rcases hl with rfl | rfl
    · exact fun _ => trivial
    · trivial
  · exact (Option.some_get rfl).symm

theorem staleEnd_reachable :
    listeningLts.Reachable (OnAnsweringTargets listeningRuntime) staleEnd := by
  apply reachable_answering nextVersionTrace lateEnd_reachable
  · intro l hl
    simp only [nextVersionTrace, List.mem_cons, List.not_mem_nil, or_false] at hl
    rcases hl with rfl | rfl | rfl | rfl
    · trivial
    · trivial
    · trivial
    · exact fun _ => trivial
  · exact (Option.some_get rfl).symm

/-- A late version answer stays on an idle connection, and the next call reads it as its own. -/
theorem answers_shifted :
    (¬ ∀ rt, (∀ j, rt.loads (rt.decode []) ≠ .ok j) → ∀ host port s,
      (poolLts (toolClients rt host port)).Reachable (OnAnsweringTargets rt) s → AnswersRead s) ∧
    ¬ ∀ rt, (∀ j, rt.loads (rt.decode []) ≠ .ok j) → ∀ host port s,
      (poolLts (toolClients rt host port)).Reachable (OnAnsweringTargets rt) s →
        NothingStale s := by
  constructor
  · intro h
    have hread := h _ listeningRuntime_empty _ _ _ lateEnd_reachable 0 List.mem_cons_self _ rfl
    have hpending : (asciiBytes "\"1.8.0\"").map (WireByte.mk 1) = [] := hread
    cases hpending
  · intro h
    have hfresh := h _ listeningRuntime_empty _ _ _ staleEnd_reachable 0 (by decide)
    have hstale : (staleEnd.clients 0).stale = true := rfl
    rw [hstale] at hfresh
    cases hfresh

/-- The version answer comes after one second. -/
def timelyEnd : PoolState SocketServerClient :=
  (listeningLts.run listenTrace (connectedEnd 1000)).get rfl

theorem probe_in_time : ProbeInTime listeningRuntime ((connectedEnd 1000).clients 0)
    ⟨.listenStart 5000, none⟩ := by
  intro listenPort hcall result c₁ hstart
  obtain rfl : 5000 = listenPort := ToolCall.listenStart.inj hcall
  have hend : ((listenStart listeningRuntime 5000).exec ((connectedEnd 1000).clients 0)).2 = c₁ :=
    congrArg Prod.snd hstart
  intro s hs
  rw [← hend] at hs
  cases hs
  rw [← hend]
  exact ⟨rfl, rfl⟩

theorem timelyEnd_reachable : listeningLts.Reachable
    (PoolCondition (AnsweringTarget listeningRuntime) (ProbeInTime listeningRuntime))
    timelyEnd := by
  have hrun : listeningLts.run listenTrace (connectedEnd 1000) = some timelyEnd :=
    (Option.some_get rfl).symm
  obtain ⟨s, hperform, hrelease⟩ := Option.bind_eq_some_iff.mp hrun
  apply reachable_answering [(0, .release 61)] _ _ hrelease
  · refine .step (connectedEnd_reachable 1000) ?_ hperform
    intro c hc
    obtain rfl : 0 = c := Phase.borrowed.inj hc
    exact probe_in_time
  · intro l hl
    rw [List.mem_singleton.mp hl]
    trivial

theorem answers_paired_witness :
    idleClients timelyEnd = [0] ∧ AnswersRead timelyEnd ∧ NothingStale timelyEnd :=
  ⟨rfl, answers_paired listeningRuntime_empty timelyEnd_reachable⟩

end McpSocketServer
