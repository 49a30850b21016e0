import McpSocketServer.Proofs.ClientFunctions
import McpSocketServer.Proofs.Recovery
import McpSocketServer.Proofs.SteadyExchanges

/-!
# Tool calls on targets that serve

A target that answers within a second, in the framing of each request, lets the calls of the
batch tools return. From whatever has happened before, no more calls to it fail than the pool
may have connections, and one more for every upgrade that it has accepted since.
-/

namespace McpSocketServer

open SocketServerClient

variable {rt : Runtime} {l : Link} {ms n : Nat} {c : SocketServerClient}

/-- The target answers requests of these kinds within a second and without long pauses. -/
structure Prompt (rt : Runtime) (l : Link) : Prop where
  text : ∀ n datatype payload, datatype ∈ [5, 6, 7, 8, 14, 20] → ∃ w j,
    l n (Request.body ⟨datatype, payload⟩) = { reply := w } ∧ w.Steady 500 1000 ∧
      rt.loads (rt.decode w.contents) = .ok j ∧ (datatype ≠ 14 → ∃ fields, j = .obj fields)
  lenprefixed : ∀ n payload, ∃ w body j, l n (Request.body ⟨200, payload⟩) = { reply := w } ∧
    w.Steady 1000 1000 ∧ w.contents = packLE 4 body.length ++ body ∧ body.length < 2 ^ 31 ∧
      rt.loads (rt.decode body) = .ok j
  gzip : ∀ n payload, ∃ w gz body j, l n (Request.body ⟨1, payload⟩) = { reply := w } ∧
    w.Steady 1000 1000 ∧ w.contents = packLE 4 gz.length ++ gz ∧ gz.length < 2 ^ 31 ∧
      rt.decompress gz = .ok body ∧ rt.loadsBytes body = .ok j

/-- The client is connected to such a target and has read all answers. -/
def Usable (rt : Runtime) (c : SocketServerClient) : Prop :=
  ∃ l s, Prompt rt l ∧ c.sock = some s ∧ s.endpoint = l.endpoint ∧ s.wire.contents = [] ∧
    Wire.Steady 0 0 s.wire

/-- It may also wait for a second. -/
def Ready (rt : Runtime) (c : SocketServerClient) : Prop :=
  ∃ l ms n, Prompt rt l ∧ 1000 ≤ ms ∧ Holds l ms 500 n [] c

theorem Ready.usable (h : Ready rt c) : Usable rt c := by
  obtain ⟨l, ms, n, hl, -, -, s, hs, hep, -, hb, hsteady⟩ := h
  have hcont : s.wire.contents = [] := List.map_eq_nil_iff.mp hb
  exact ⟨l, s, hl, hs, hep, hcont, hsteady.of_nil hcont 0 0⟩

theorem Usable.ready (h : Usable rt c) (hlow : 1 ≤ c.timeout)
    (hhigh : 1000 * c.timeout ≤ 9223372036854) : Ready rt c := by
  obtain ⟨l, s, hl, hs, hep, hcont, hsteady⟩ := h
  have hms : checkTimeout (1000 * c.timeout) = .ok (1000 * c.timeout).toNat := by
    rw [checkTimeout, if_neg (by omega), if_neg (by omega)]
  refine ⟨l, (1000 * c.timeout).toNat, s.requests, hl, by omega, hms, s, hs, hep, rfl, ?_,
    hsteady.of_nil hcont _ _⟩
  rw [hcont, List.map_nil]

/-! ### The exchanges -/

theorem ask_text (hc : Ready rt c) {datatype : Nat} (hd : datatype ∈ [5, 6, 7, 8, 14, 20])
    {payload : Bytes} (hlen : payload.length + 4 < 2 ^ 31) :
    ∃ j c', (send datatype payload >>= fun _ => recvJson rt).exec c = (.ok j, c') ∧
      Ready rt c' ∧ (datatype ≠ 14 → ∃ fields, j = .obj fields) := by
  obtain ⟨l, ms, n, hl, hms, hholds⟩ := hc
  obtain ⟨w, j, hreply, hsteady, hj, hobj⟩ := hl.text n datatype payload hd
  have hsends := send_sends hholds datatype hlen
  rw [hreply] at hsends
  obtain ⟨c₁, hex₁, h₁⟩ := hsends.holds (hsteady.mono (Nat.le_refl 500) hms)
  obtain ⟨c₂, hex₂, h₂⟩ := recvJson_holds h₁ (by omega) (Nat.le_refl 500) hj
  refine ⟨j, c₂, ?_, ⟨l, ms, n + 1, hl, hms, h₂⟩, hobj⟩
  rw [Prog.exec_bind, hex₁, Prog.follow_ok, hex₂]

/-- A length and a body are read. -/
theorem recvPrefixed_holds {body : Bytes} (hlen : body.length < 2 ^ 31)
    (hc : Holds l ms ms n (packLE 4 body.length ++ body) c) {α : Type} (f : Bytes → Client α) :
    ∃ c', (recvN 4 >>= fun n => recvN (unpackInt n) >>= f).exec c = (f body).exec c' ∧
      Holds l ms ms n [] c' := by
  obtain ⟨c₁, hhead, h₁⟩ := recvN_holds hc (k := 4) (packLE_length 4 body.length).symm
  rw [← List.append_nil body] at h₁
  obtain ⟨c₂, hbody, h₂⟩ := recvN_holds h₁ (k := unpackInt (packLE 4 body.length)) (by
    rw [unpackInt_packLE hlen]
    rfl)
  refine ⟨c₂, ?_, h₂⟩
  rw [Prog.exec_bind, hhead, Prog.follow_ok, Prog.exec_bind, hbody, Prog.follow_ok]

theorem ask_lenprefixed (hc : Ready rt c) {payload : Bytes} (hlen : payload.length + 4 < 2 ^ 31) :
    ∃ j c', (send 200 payload >>= fun _ => recvLenprefixedJson rt).exec c = (.ok j, c') ∧
      Ready rt c' := by
  obtain ⟨l, ms, n, hl, hms, hholds⟩ := hc
  obtain ⟨w, body, j, hreply, hsteady, hcont, hbody, hj⟩ := hl.lenprefixed n payload
  have hsends := send_sends hholds 200 hlen
  rw [hreply] at hsends
  obtain ⟨c₁, hex₁, h₁⟩ := hsends.holds (hsteady.mono hms hms)
  rw [hcont] at h₁
  obtain ⟨c₂, hex₂, h₂⟩ := recvPrefixed_holds hbody h₁
    fun b => Prog.ofExcept (rt.loads (rt.decode b))
  refine ⟨j, c₂, ?_, l, ms, n + 1, hl, hms, h₂.quiet 500⟩
  rw [Prog.exec_bind, hex₁, Prog.follow_ok]
  exact hex₂.trans (by rw [Prog.exec_ofExcept, hj])

theorem ask_gzip (hc : Ready rt c) {payload : Bytes} (hlen : payload.length + 4 < 2 ^ 31) :
    ∃ j c', (send 1 payload >>= fun _ => recvGzipResponse rt).exec c = (.ok j, c') ∧
      Ready rt c' := by
  obtain ⟨l, ms, n, hl, hms, hholds⟩ := hc
  obtain ⟨w, gz, body, j, hreply, hsteady, hcont, hgz, hbody, hj⟩ := hl.gzip n payload
  have hsends := send_sends hholds 1 hlen
  rw [hreply] at hsends
  obtain ⟨c₁, hex₁, h₁⟩ := hsends.holds (hsteady.mono hms hms)
  rw [hcont] at h₁
  obtain ⟨c₂, hex₂, h₂⟩ := recvPrefixed_holds hgz h₁ fun b => do
    let body ← Prog.ofExcept (rt.decompress b)
    Prog.ofExcept (rt.loadsBytes body)
  refine ⟨j, c₂, ?_, l, ms, n + 1, hl, hms, h₂.quiet 500⟩
  rw [Prog.exec_bind, hex₁, Prog.follow_ok]
  refine hex₂.trans ?_
  rw [Prog.exec_bind, Prog.exec_ofExcept, hbody, Prog.follow_ok, Prog.exec_ofExcept, hj]

/-! ### The client functions -/

/-- What the calls send to which such a target always has an answer. -/
def ToolCall.payload (rt : Runtime) : ToolCall → Option Bytes
  | .version => some []
  | .isfile path => some (rt.dumps (.obj [("file", .str path)]))
  | .isdir path => some (rt.dumps (.obj [("dir", .str path)]))
  | .pcapFlowExtract pcapDir => some (rt.dumps (.obj [("pcap_dir", .str pcapDir)]))
  | .cmdExec args cwd env wait => some (rt.dumps (cmdExecParams args (orNone cwd) env wait))
  | .captureStart iface path extended singleQueue =>
    some (rt.dumps (captureStartParams (orNone iface) (some path) extended singleQueue))
  | .captureStop path => some (rt.dumps (.obj [("path", .str path)]))
  | .upgradeRun ver sha force _ =>
    some (rt.dumps (.obj [("version", .str ver), ("sha256", .str sha), ("force", .bool force)]))
  | _ => none

/-- The call is one of these and small enough to be sent. -/
def Sendable (rt : Runtime) (call : ToolCall) : Prop :=
  ∃ payload, call.payload rt = some payload ∧ payload.length + 4 < 2 ^ 31

/-- The client function returns, and its client can be used again unless an upgrade has been
accepted. -/
def Served (rt : Runtime) (port : Int) (c : SocketServerClient) (use : ToolUse) : Prop :=
  ∃ v s', (use.call.fn rt port).exec ⟨c, use.registry⟩ = (.ok v, s') ∧
    (UpgradeAccepted rt c use ∨ Ready rt s'.client)

theorem version_served (hc : Ready rt c) :
    ∃ j c', (version rt).exec c = (.ok j, c') ∧ Ready rt c' := by
  have hshort : ([] : Bytes).length + 4 < 2 ^ 31 := by decide
  obtain ⟨j, c', hex, hready, -⟩ := ask_text hc (by decide : 14 ∈ _) hshort
  exact ⟨j, c', hex, hready⟩

theorem probePath_served (hc : Ready rt c) {datatype : Nat} (hd : datatype ∈ [7, 8])
    {field path : String} (hlen : (rt.dumps (.obj [(field, .str path)])).length + 4 < 2 ^ 31) :
    ∃ j c', (probePath rt datatype field path).exec c = (.ok j, c') ∧ Ready rt c' := by
  have hmem : datatype ∈ [5, 6, 7, 8, 14, 20] := by
    simp only [List.mem_cons, List.not_mem_nil, or_false] at hd ⊢
    omega
  have hne : datatype ≠ 14 := by
    simp only [List.mem_cons, List.not_mem_nil, or_false] at hd
    omega
  obtain ⟨j, c', hex, hready, hobj⟩ := ask_text hc hmem hlen
  obtain ⟨fields, rfl⟩ := hobj hne
  refine ⟨fieldD fields "res" (.bool false), c', ?_, hready⟩
  rw [probePath, Prog.exec_bind_bind, hex, Prog.follow_ok]
  rfl

theorem captureStartFn_served (hc : Ready rt c) {iface path extended : String}
    {singleQueue : Bool} {registry : Option Registry}
    (hlen : (rt.dumps (captureStartParams (orNone iface) (some path) extended
      singleQueue)).length + 4 < 2 ^ 31) :
    ∃ v s', (captureStartFn rt iface path extended singleQueue).exec ⟨c, registry⟩ =
      (.ok v, s') ∧ Ready rt s'.client := by
  obtain ⟨j, c', hex, hready, hobj⟩ := ask_text hc (by decide : 5 ∈ _) hlen
  obtain ⟨fields, rfl⟩ := hobj (by decide)
  have hmethod : ∃ fields', (captureStart rt (orNone iface) (some path) extended
      singleQueue).exec c = (.ok (.obj fields'), c') := by
    rw [captureStart, Prog.exec_bind_bind, hex, Prog.follow_ok]
    split
    · exact ⟨fields, rfl⟩
    · exact ⟨_, rfl⟩
  obtain ⟨fields', hmethod⟩ := hmethod
  simp only [captureStartFn, onClient, Prog.exec_bind, Prog.exec_zoom, hmethod, Prog.follow_ok,
    Prog.exec_ofExcept, Json.get]
  split
  · exact ⟨_, _, rfl, hready⟩
  · rw [Prog.exec_bind, Prog.exec_ofExcept, Prog.follow_ok]
    split
    · exact ⟨_, _, rfl, hready⟩
    · exact ⟨_, _, rfl, hready⟩

theorem upgradeFn_served (hc : Ready rt c) {ver sha : String} {force : Bool}
    {push : Bool × String} {registry : Option Registry}
    (hlen : (rt.dumps (.obj [("version", .str ver), ("sha256", .str sha),
      ("force", .bool force)])).length + 4 < 2 ^ 31) :
    ∃ v s', (upgradeFn rt ver sha force push).exec ⟨c, registry⟩ = (.ok v, s') ∧
      (UpgradeAccepted rt c ⟨.upgradeRun ver sha force push, registry⟩ ∨ Ready rt s'.client) := by
  obtain ⟨cur, c₁, hversion, h₁⟩ := version_served hc
  obtain ⟨j, c₂, hask, h₂, hobj⟩ := ask_text h₁ (by decide : 20 ∈ _) hlen
  obtain ⟨fields, rfl⟩ := hobj (by decide)
  have happly : (upgradeApply rt ver sha force).exec c₁ = (.ok (.obj fields), c₂) := by
    rw [upgradeApply, Prog.exec_bind_bind, hask, Prog.follow_ok]
    rfl
  cases hrefusal : upgradeRefusal cur with
  | some reason =>
      exact ⟨errorField (.str reason), ⟨c₁, registry⟩,
        by simp [upgradeFn, onClient, hversion, hrefusal], Or.inr h₁⟩
  | none =>
      cases hpush : push.1 with
      | false =>
          exact ⟨errorField (.str push.2), ⟨c₁, registry⟩,
            by simp [upgradeFn, onClient, hversion, hrefusal, hpush], Or.inr h₁⟩
      | true =>
          by_cases herror : (fieldD fields "error" .null).truthy = true
          · exact ⟨errorField (fieldD fields "error" .null), ⟨c₂, registry⟩,
              by simp [upgradeFn, onClient, hversion, hrefusal, hpush, happly, Json.get, herror],
              Or.inr h₂⟩
          · by_cases hok : (fieldD fields "ok" .null).truthy = true
            · refine ⟨.json (.obj [("pushed", .bool true), ("from_version", .str cur.toStr)]),
                ⟨c₂.close, registry⟩, ?_, Or.inl ⟨cur, c₁, _, c₂, hversion, hrefusal, hpush,
                  happly, by simp [acceptsUpgrade, herror, hok]⟩⟩
              simp [upgradeFn, onClient, hversion, hrefusal, hpush, happly, Json.get, herror, hok]
            · refine ⟨errorField (.str ("无法解析的 dt20 响应: " ++ (Json.obj fields).repr)),
                ⟨c₂, registry⟩, ?_, Or.inr h₂⟩
              simp [upgradeFn, onClient, hversion, hrefusal, hpush, happly, Json.get, herror, hok]

/-- A method that returns, and what the client function makes of it. -/
theorem served_of_method {m : Client Json} {c' : SocketServerClient} {j : Json} {port : Int}
    {use : ToolUse} (hm : m.exec c = (.ok j, c')) (hready : Ready rt c')
    (hfn : use.call.fn rt port = do pure (.json (← onClient m))) : Served rt port c use := by
  refine ⟨.json j, ⟨c', use.registry⟩, ?_, Or.inr hready⟩
  rw [hfn, onClient, Prog.exec_bind, Prog.exec_zoom, hm, Prog.follow_ok, Prog.exec_pure]

/-- One case for each kind of call. -/
theorem call_served (hc : Ready rt c) {use : ToolUse} (hcall : Sendable rt use.call)
    (port : Int) : Served rt port c use := by
  obtain ⟨payload, hpayload, hlen⟩ := hcall
  obtain ⟨call, registry⟩ := use
  cases call with
  | version =>
      obtain ⟨j, c', hex, hready⟩ := version_served hc
      exact served_of_method hex hready rfl
  | isfile path =>
      obtain rfl := Option.some.inj hpayload
      obtain ⟨j, c', hex, hready⟩ := probePath_served hc (by decide : 7 ∈ _) hlen
      exact served_of_method hex hready rfl
  | isdir path =>
      obtain rfl := Option.some.inj hpayload
      obtain ⟨j, c', hex, hready⟩ := probePath_served hc (by decide : 8 ∈ _) hlen
      exact served_of_method hex hready rfl
  | pcapFlowExtract pcapDir =>
      obtain rfl := Option.some.inj hpayload
      obtain ⟨j, c', hex, hready⟩ := ask_lenprefixed hc hlen
      exact served_of_method hex hready rfl
  | cmdExec args cwd env wait =>
      obtain rfl := Option.some.inj hpayload
      obtain ⟨j, c', hex, hready⟩ := ask_gzip hc hlen
      have hmethod : (cmdExec rt args (orNone cwd) env wait).exec c =
          (.ok (truncateStdout j), c') := by
        rw [cmdExec, Prog.exec_bind_bind, hex, Prog.follow_ok, Prog.exec_pure]
      exact served_of_method hmethod hready rfl
  | captureStart iface path extended singleQueue =>
      obtain rfl := Option.some.inj hpayload
      obtain ⟨v, s', hex, hready⟩ := captureStartFn_served hc hlen
      exact ⟨v, s', hex, Or.inr hready⟩
  | captureStop path =>
      obtain rfl := Option.some.inj hpayload
      obtain ⟨j, c', hex, hready, -⟩ := ask_text hc (by decide : 6 ∈ _) hlen
      have hmethod : (captureStop rt path).exec c = (.ok (captureStopAnswer j), c') := by
        rw [captureStop, Prog.exec_bind_bind, hex, Prog.follow_ok, Prog.exec_pure]
      exact served_of_method hmethod hready rfl
  | upgradeRun ver sha force push =>
      obtain rfl := Option.some.inj hpayload
      exact upgradeFn_served hc hlen
  | _ => cases hpayload

/-! ### The pool of a target -/

/-- Connecting reaches nothing but targets that serve. -/
def PromptTarget (rt : Runtime) (outcome : Except PyErr Endpoint) : Prop :=
  ∀ ep, outcome = .ok ep → ∃ l, ep = l.endpoint ∧ Prompt rt l

/-- The call is one that such targets answer, and it waits for at least a second. -/
def Patient (rt : Runtime) (c : SocketServerClient) (use : ToolUse) : Prop :=
  Sendable rt use.call ∧ 1 ≤ c.timeout ∧ 1000 * c.timeout ≤ 9223372036854

theorem tools_serve (rt : Runtime) (host : String) (port : Int) :
    Serves (toolClients rt host port) (PromptTarget rt) (Patient rt) (Usable rt) where
  connect timeout outcome hout hok := by
    have hsock : ((toolClients rt host port).new timeout).sock = none := rfl
    cases hms : checkTimeout (1000 * ((toolClients rt host port).new timeout).timeout) with
    | error e =>
        simp only [toolClients] at hok hms hsock
        simp [connect, hms] at hok
    | ok ms =>
        cases outcome with
        | error e =>
            simp only [toolClients] at hok hms
            simp [connect, hms] at hok
        | ok ep =>
            obtain ⟨l, rfl, hl⟩ := hout ep rfl
            refine ⟨l, { timeout := ms, endpoint := l.endpoint }, hl, ?_, rfl, rfl, trivial⟩
            simp only [toolClients] at hms
            simp [toolClients, connect, hms]
  setTimeout _ _ hc := hc
  perform c use hc hC := by
    obtain ⟨hcall, hlow, hhigh⟩ := hC
    obtain ⟨v, s', hex, -⟩ := call_served (hc.ready hlow hhigh) hcall port
    simp only [toolClients, hex]
    rfl

open Classical in
/-- The step is a call in which the target accepts an upgrade. -/
noncomputable def acceptedUpgrade (rt : Runtime) (s : PoolState SocketServerClient)
    (l : Nat × PoolStep (Except PyErr Endpoint) ToolUse) : Nat :=
  match workOf s l with
  | some (client, use) => if UpgradeAccepted rt client use then 1 else 0
  | none => 0

/-- A call that returns leaves its client usable, unless it upgrades the target. -/
theorem spoilt_by_upgrades (host : String) (port : Int) {s : PoolState SocketServerClient}
    {l : Nat × PoolStep (Except PyErr Endpoint) ToolUse}
    (hC : PoolCondition (PromptTarget rt) (Patient rt) s l) :
    spoiltClient (toolClients rt host port) (Usable rt) s l ≤ acceptedUpgrade rt s l := by
  obtain ⟨t, l⟩ := l
  cases hwork : workOf s (t, l) with
  | none => rw [spoiltClient, hwork]; exact Nat.zero_le _
  | some w =>
      obtain ⟨client, use⟩ := w
      simp only [spoiltClient, acceptedUpgrade, hwork]
      split
      · next hspoilt =>
        obtain ⟨-, hgood, hbad⟩ := hspoilt
        have huse : Patient rt client use := by
          simp only [workOf] at hwork
          split at hwork
          · next heq =>
            obtain ⟨rfl, rfl⟩ := Prod.mk.inj heq
            split at hwork
            · next c hph =>
              obtain ⟨rfl, rfl⟩ := Prod.mk.inj (Option.some.inj hwork)
              exact hC c hph
            · cases hwork
          · cases hwork
        obtain ⟨v, s', hex, haccepted | hready⟩ :=
          call_served (hgood.ready huse.2.1 huse.2.2) huse.1 port
        · rw [if_pos haccepted]
        · refine absurd hready.usable ?_
          simpa only [toolClients, hex] using hbad
      · exact Nat.zero_le _

/-- Whatever has happened to the pool of a target: as long as the target serves, no more client
functions raise than the pool may have connections and upgrades are accepted. -/
theorem tool_failures_bounded {host : String} {port : Int}
    {s s' : PoolState SocketServerClient}
    {ls : List (Nat × PoolStep (Except PyErr Endpoint) ToolUse)}
    (hs : (poolLts (toolClients rt host port)).Reachable Lts.always s)
    (hrun : (poolLts (toolClients rt host port)).Run
      (PoolCondition (PromptTarget rt) (Patient rt)) s ls s') :
    (poolLts (toolClients rt host port)).total (failedCall (toolClients rt host port)) ls s +
        (badClients (Usable rt) s').ncard ≤
      (badClients (Usable rt) s).ncard +
        (poolLts (toolClients rt host port)).total (acceptedUpgrade rt) ls s ∧
      (badClients (Usable rt) s).ncard ≤ maxConnPerTarget :=
  failures_bounded (tools_serve rt host port) (fun _ _ hC => spoilt_by_upgrades host port hC) hs
    hrun

/-! ### A target that restarts -/

/-- The codecs on the answers below. -/
def servingRuntime : Runtime :=
  { tableRuntime [("\"1.8.0\"", .str "1.8.0"), ("\x7b\x7d", .obj [])] "\x7b\x7d" with
    decompress := .ok }

/-- A target that answers every request at once. -/
def servingLink : Link := fun _ body =>
  if body.take 4 = packLE 4 14 then { reply := [.data (asciiBytes "\"1.8.0\"")] }
  else if body.take 4 = packLE 4 200 ∨ body.take 4 = packLE 4 1 then
    { reply := [.data (packLE 4 2 ++ asciiBytes "\x7b\x7d")] }
  else { reply := [.data (asciiBytes "\x7b\x7d")] }

theorem body_take (datatype : Nat) (payload : Bytes) :
    (Request.body ⟨datatype, payload⟩).take 4 = packLE 4 datatype :=
  List.take_left' (packLE_length 4 datatype)

theorem servingLink_prompt : Prompt servingRuntime servingLink where
  text n datatype payload hd := by
    have hhead := body_take datatype payload
    have hobject : servingRuntime.loads (servingRuntime.decode (asciiBytes "\x7b\x7d")) =
        .ok (.obj []) := rfl
    by_cases hversion : datatype = 14
    · subst hversion
      refine ⟨_, .str "1.8.0", if_pos hhead, trivial, rfl, fun h => absurd rfl h⟩
    · refine ⟨[.data (asciiBytes "\x7b\x7d")], .obj [], ?_, trivial, hobject, fun _ => ⟨[], rfl⟩⟩
      simp only [List.mem_cons, List.not_mem_nil, or_false] at hd
      rw [servingLink, hhead]
      rcases hd with rfl | rfl | rfl | rfl | rfl | rfl <;> first | rfl | exact absurd rfl hversion
  lenprefixed n payload := by
    refine ⟨[.data (packLE 4 2 ++ asciiBytes "\x7b\x7d")], asciiBytes "\x7b\x7d", .obj [], ?_,
      trivial, rfl, by decide, rfl⟩
    rw [servingLink, body_take]
    rfl
  gzip n payload := by
    refine ⟨[.data (packLE 4 2 ++ asciiBytes "\x7b\x7d")], asciiBytes "\x7b\x7d",
      asciiBytes "\x7b\x7d", .obj [], ?_, trivial, rfl, by decide, rfl, rfl⟩
    rw [servingLink, body_take]
    rfl

/-- A target that restarts after it has answered one request of the connection. -/
def restartingEndpoint : Endpoint := fun n r =>
  if n = 0 then servingLink.endpoint n r else { reply := [.eof] }

/-- The pool of the target. -/
abbrev servingLts : Lts (PoolState SocketServerClient)
    (Nat × PoolStep (Except PyErr Endpoint) ToolUse) :=
  poolLts (toolClients servingRuntime "10.0.0.1" 9000)

/-- A call is answered before the target restarts. -/
def beforeRestartTrace : List (Nat × PoolStep (Except PyErr Endpoint) ToolUse) :=
  [(0, .call 0 60 60), (0, .takeSlot 0), (0, .create), (0, .connected (.ok restartingEndpoint)),
    (0, .perform ⟨.version, none⟩), (0, .release 1)]

/-- The state before the restart. -/
def beforeRestartEnd : PoolState SocketServerClient :=
  (servingLts.run beforeRestartTrace unusedPool).get rfl

/-- The next call fails on the old connection, and the one after it connects anew. -/
def recoveryTrace : List (Nat × PoolStep (Except PyErr Endpoint) ToolUse) :=
  [(1, .call 2 60 60), (1, .takeSlot 2), (1, .reuse), (1, .perform ⟨.version, none⟩),
    (1, .release 3), (1, .close), (2, .call 4 60 60), (2, .takeSlot 4), (2, .create),
    (2, .connected (.ok servingLink.endpoint)), (2, .perform ⟨.version, none⟩), (2, .release 5)]

/-- The state after the reconnect. -/
def recoveryEnd : PoolState SocketServerClient :=
  (servingLts.run recoveryTrace beforeRestartEnd).get rfl

theorem version_patient {c : SocketServerClient} (h : c.timeout = 60) :
    Patient servingRuntime c ⟨.version, none⟩ :=
  ⟨⟨[], rfl, by decide⟩, by rw [h]; decide, by rw [h]; decide⟩

theorem recoveryRun : servingLts.Run
    (PoolCondition (PromptTarget servingRuntime) (Patient servingRuntime)) beforeRestartEnd
    recoveryTrace recoveryEnd := by
  refine .cons trivial rfl (.cons trivial rfl (.cons trivial rfl (.cons ?_ rfl (.cons trivial rfl
    (.cons trivial rfl (.cons trivial rfl (.cons trivial rfl (.cons trivial rfl (.cons ?_ rfl
    (.cons ?_ rfl (.cons trivial rfl (.nil _))))))))))))
  · intro c hc
    obtain rfl : 0 = c := Phase.borrowed.inj hc
    exact version_patient rfl
  · intro ep hep
    exact ⟨servingLink, (Except.ok.inj hep).symm, servingLink_prompt⟩
  · intro c hc
    obtain rfl : 1 = c := Phase.borrowed.inj hc
    exact version_patient rfl

theorem tool_failures_bounded_restart :
    servingLts.total (failedCall (toolClients servingRuntime "10.0.0.1" 9000)) recoveryTrace
        beforeRestartEnd = 1 ∧
      servingLts.total (failedCall (toolClients servingRuntime "10.0.0.1" 9000)) recoveryTrace
          beforeRestartEnd + (badClients (Usable servingRuntime) recoveryEnd).ncard ≤
        (badClients (Usable servingRuntime) beforeRestartEnd).ncard +
          servingLts.total (acceptedUpgrade servingRuntime) recoveryTrace beforeRestartEnd ∧
      (badClients (Usable servingRuntime) beforeRestartEnd).ncard ≤ maxConnPerTarget := by
  refine ⟨rfl, tool_failures_bounded ?_ recoveryRun⟩
  exact .of_run (.init ⟨rfl, rfl, fun _ => rfl⟩) (Option.some_get rfl).symm

end McpSocketServer
