import McpSocketServer.Server.Tools

/-!
# One exchange after the other

Every method of the client sends one request and reads its answer in one of five ways, and
every client function is made of such exchanges. A property of clients that each exchange
keeps is therefore kept by all client functions, up to the two that do more than that: the
start of a listener, which swallows what its second exchange raises, and an upgrade, which
closes the client.
-/

namespace McpSocketServer

open SocketServerClient

/-- The requests that are answered by a bare JSON text. -/
def rawJsonDatatypes : List Nat := [0, 5, 6, 7, 8, 14, 20, 171]

/-- The requests that are answered by a length and a JSON text. -/
def lenprefixedDatatypes : List Nat := [131, 200]

/-- The requests that are answered by `ok`. -/
def commandDatatypes : List Nat := [172, 173, 175]

/-- Every exchange keeps `I` when it returns and leaves `J` when it raises. -/
structure Exchanges (rt : Runtime) (I J : SocketServerClient → Prop) : Prop where
  weaken : ∀ c, I c → J c
  json : ∀ datatype payload, datatype ∈ rawJsonDatatypes →
    Prog.Keeps I J (send datatype payload >>= fun _ => recvJson rt)
  lenprefixed : ∀ datatype payload, datatype ∈ lenprefixedDatatypes →
    Prog.Keeps I J (send datatype payload >>= fun _ => recvLenprefixedJson rt)
  gzip : ∀ payload, Prog.Keeps I J (send 1 payload >>= fun _ => recvGzipResponse rt)
  command : ∀ datatype payload action, datatype ∈ commandDatatypes →
    Prog.Keeps I J (listenCommand rt datatype payload action)
  fetch : Prog.Keeps I J (listenFetch rt)

namespace Exchanges

variable {rt : Runtime} {I J : SocketServerClient → Prop}

/-! ### The methods -/

theorem keeps_version (h : Exchanges rt I J) : Prog.Keeps I J (version rt) :=
  h.json 14 [] (by decide)

theorem keeps_probePath (h : Exchanges rt I J) {datatype : Nat} (field path : String)
    (hd : datatype ∈ rawJsonDatatypes) : Prog.Keeps I J (probePath rt datatype field path) :=
  (h.json datatype _ hd).together fun _ => .ofExcept h.weaken _

theorem keeps_cmdExec (h : Exchanges rt I J) (args : String) (cwd : Option String)
    (env : Option Json) (wait : Bool) : Prog.Keeps I J (cmdExec rt args cwd env wait) :=
  (h.gzip _).together fun _ => .pure _

theorem keeps_captureStart (h : Exchanges rt I J) (eth path : Option String) (extended : String)
    (singleQueue : Bool) : Prog.Keeps I J (captureStart rt eth path extended singleQueue) := by
  apply (h.json 5 _ (by decide)).together
  intro data
  split
  · exact .pure _
  · exact (Prog.Keeps.ofExcept h.weaken _).bind fun _ => .pure _

theorem keeps_captureStop (h : Exchanges rt I J) (path : String) :
    Prog.Keeps I J (captureStop rt path) :=
  (h.json 6 _ (by decide)).together fun _ => .pure _

theorem keeps_boceRun (h : Exchanges rt I J) (url : String)
    (count interval threadCount timeout : Int) (mode : String) (chromiumPath : Option String) :
    Prog.Keeps I J (boceRun rt url count interval threadCount timeout mode chromiumPath) := by
  apply (h.lenprefixed 131 _ (by decide)).together
  intro data
  split
  · exact (Prog.Keeps.ofExcept h.weaken _).bind fun _ => .throw h.weaken _
  · exact .pure _

theorem keeps_replayRun (h : Exchanges rt I J) (pcaps : List String)
    (uplinkIface downlinkIface : String) (o : ReplayOptions) :
    Prog.Keeps I J (replayRun rt pcaps uplinkIface downlinkIface o) := by
  apply (h.json 0 _ (by decide)).together
  intro result
  split
  · exact (Prog.Keeps.ofExcept h.weaken _).bind fun _ => .throw h.weaken _
  · exact .pure _

theorem keeps_listenStart (h : Exchanges rt I J) (listenPort : Int) :
    Prog.Keeps I J (listenStart rt listenPort) := by
  apply (h.json 171 _ (by decide)).together
  intro result
  apply (Prog.Keeps.ofExcept h.weaken _).bind
  intro pid
  split
  · exact .pure _
  · exact .throw h.weaken _

theorem keeps_listenSave (h : Exchanges rt I J) (file : String) :
    Prog.Keeps I J (listenSave rt file) := by
  unfold listenSave
  split
  · exact .throw h.weaken _
  · exact h.command 173 _ _ (by decide)

theorem keeps_upgradeApply (h : Exchanges rt I J) (ver sha : String) (force : Bool) :
    Prog.Keeps I J (upgradeApply rt ver sha force) := by
  apply (h.json 20 _ (by decide)).together
  intro data
  cases data <;> exact .pure _

end Exchanges

/-! ### Properties that survive every exchange -/

/-- The property stays when the socket is replaced by an open one. -/
def Steady (I : SocketServerClient → Prop) : Prop :=
  ∀ c s stale, I c → I { c with sock := some s, stale := stale }

namespace Steady

variable {I : SocketServerClient → Prop}

theorem keeps_putSock (h : Steady I) (s : Socket) : Prog.Keeps I I (putSock s) :=
  Prog.Keeps.modify fun c hc => h c s c.stale hc

theorem keeps_theSock : Prog.Keeps I I theSock := by
  unfold theSock
  refine Prog.Keeps.get.bind fun c => ?_
  cases c.sock with
  | none => exact .throw (fun _ => id) _
  | some s => exact .pure s

theorem keeps_afterRead (h : Steady I) (s : Socket) (items : List WireByte)
    (wire : Wire WireByte PyErr) : Prog.Keeps I I (afterRead s items wire) :=
  Prog.Keeps.modify fun c hc => h c { s with wire := wire } _ hc

theorem keeps_settimeout (h : Steady I) (ms : Int) : Prog.Keeps I I (settimeout ms) := by
  unfold settimeout
  apply keeps_theSock.bind
  intro s
  exact (Prog.Keeps.ofExcept (fun _ => id) _).bind fun _ => h.keeps_putSock _

theorem keeps_sendall (h : Steady I) (r : Request) : Prog.Keeps I I (sendall r) := by
  unfold sendall
  refine keeps_theSock.bind fun s => (h.keeps_putSock _).bind fun _ => ?_
  cases (s.endpoint s.requests r).fault with
  | none => exact .pure ()
  | some e => exact .throw (fun _ => id) e

theorem keeps_send (h : Steady I) (datatype : Nat) (payload : Bytes) :
    Prog.Keeps I I (send datatype payload) := by
  unfold send
  refine keeps_theSock.bind fun _ => Prog.Keeps.get.bind fun c =>
    (h.keeps_settimeout _).bind fun _ => ?_
  split
  · exact .throw (fun _ => id) _
  · exact h.keeps_sendall _

theorem keeps_recvN (h : Steady I) (n : Int) : Prog.Keeps I I (recvN n) := by
  unfold recvN
  refine keeps_theSock.bind fun _ => Prog.Keeps.get.bind fun c =>
    (h.keeps_settimeout _).bind fun _ => keeps_theSock.bind fun s => ?_
  split
  · exact (h.keeps_afterRead _ _ _).bind fun _ => .pure _
  · exact (h.keeps_afterRead _ _ _).bind fun _ => .throw (fun _ => id) _

theorem keeps_passTimeout (timeout : Nat) (e : Ending PyErr) :
    Prog.Keeps I I (passTimeout timeout e) := by
  unfold passTimeout
  split_ifs
  · exact .pure _
  · exact .pure _
  · exact .throw (fun _ => id) _

theorem keeps_recvUntilTimeout (h : Steady I) (gap : Nat) :
    Prog.Keeps I I (recvUntilTimeout gap) := by
  unfold recvUntilTimeout
  refine keeps_theSock.bind fun _ => Prog.Keeps.get.bind fun c =>
    (h.keeps_settimeout _).bind fun _ => keeps_theSock.bind fun s => ?_
  split
  · exact (h.keeps_afterRead _ _ _).bind fun _ => (keeps_passTimeout _ _).bind fun _ => .pure _
  · exact (h.keeps_afterRead _ _ _).bind fun _ => (keeps_passTimeout _ _).bind fun _ => .pure _

/-- Every exchange keeps the property, even when it raises. -/
theorem exchanges (h : Steady I) (rt : Runtime) : Exchanges rt I I where
  weaken _ hc := hc
  json _ _ _ := (h.keeps_send _ _).bind fun _ => (h.keeps_recvUntilTimeout 500).bind fun _ =>
    .ofExcept (fun _ => id) _
  lenprefixed _ _ _ := (h.keeps_send _ _).bind fun _ => (h.keeps_recvN 4).bind fun _ =>
    (h.keeps_recvN _).bind fun _ => .ofExcept (fun _ => id) _
  gzip _ := (h.keeps_send _ _).bind fun _ => (h.keeps_recvN 4).bind fun _ =>
    (h.keeps_recvN _).bind fun _ => (Prog.Keeps.ofExcept (fun _ => id) _).bind fun _ =>
      .ofExcept (fun _ => id) _
  command datatype payload action _ := by
    apply (h.keeps_send datatype payload).bind
    intro _
    apply (h.keeps_recvUntilTimeout 500).bind
    intro resp
    split
    · exact .pure _
    · exact (Prog.Keeps.ofExcept (fun _ => id) _).bind fun _ => .throw (fun _ => id) _
  fetch := by
    apply (h.keeps_send 174 []).bind
    intro _
    apply (h.keeps_recvN 8).bind
    intro head
    split
    · apply (h.keeps_recvUntilTimeout 500).bind
      intro _
      exact (Prog.Keeps.ofExcept (fun _ => id) _).bind fun _ => .throw (fun _ => id) _
    · exact (h.keeps_recvN _).bind fun _ => .ofExcept (fun _ => id) _

end Steady

/-- The clients of a host. -/
abbrev OfHost (host : String) (c : SocketServerClient) : Prop := c.host = host

theorem ofHost_exchanges (rt : Runtime) (host : String) :
    Exchanges rt (OfHost host) (OfHost host) :=
  Steady.exchanges (fun _ _ _ h => h) rt

/-! ### The client functions -/

variable {rt : Runtime} {I J : SocketServerClient → Prop}

/-- A property of the client of a function. -/
abbrev OfClient (I : SocketServerClient → Prop) (s : FnState) : Prop := I s.client

theorem keeps_onClient {α : Type} {m : Client α} (h : Prog.Keeps I J m) :
    Prog.Keeps (OfClient I) (OfClient J) (onClient m) :=
  Prog.Keeps.zoom (fun _ _ => rfl) h

theorem keeps_setLiveness (hIJ : ∀ c, I c → J c) (alive : Bool) (port : Int) :
    Prog.Keeps (OfClient I) (OfClient J) (setLiveness alive port) := by
  unfold setLiveness
  apply Prog.Triple.bind (Q := fun r s => r = s ∧ OfClient I s)
  · exact Prog.Triple.get fun s hs => ⟨rfl, hs⟩
  · rintro s₀ s ⟨rfl, hs⟩
    cases hreg : s₀.registry with
    | none => simpa [hreg] using hs
    | some reg =>
        have hset : OfClient I { s₀ with
            registry := some (reg.setListenLiveness s₀.client.host alive port).2 } := hs
        exact Prog.Keeps.ofExcept (fun s : FnState => hIJ s.client) _ _ hset

theorem keeps_listenFetchFn (h : Exchanges rt I J) (maxBytes : Int) (ts : String) :
    Prog.Keeps (OfClient I) (OfClient J) (listenFetchFn rt maxBytes ts) := by
  apply (keeps_onClient h.fetch).bind
  intro data
  split
  · exact .pure _
  · exact (keeps_onClient (h.keeps_listenSave _)).bind fun _ => .pure _

theorem keeps_captureStartFn (h : Exchanges rt I J) (iface path extended : String)
    (singleQueue : Bool) :
    Prog.Keeps (OfClient I) (OfClient J) (captureStartFn rt iface path extended singleQueue) := by
  have hIJ : ∀ s : FnState, OfClient I s → OfClient J s := fun s => h.weaken s.client
  apply (keeps_onClient (h.keeps_captureStart _ _ _ _)).bind
  intro d
  apply (Prog.Keeps.ofExcept hIJ _).bind
  intro res
  split
  · exact .pure _
  · apply (Prog.Keeps.ofExcept hIJ _).bind
    intro error
    split <;> exact .pure _

/-- The registration of liveness touches the client by its version exchange only. -/
theorem registerLiveness_client {port : Int} {s : FnState}
    (h : I ((version rt).exec s.client).2) :
    I ((registerLiveness rt port).exec s).2.client := by
  have hversion : Prog.Triple (fun s' => s' = s) (onClient (version rt)) (fun _ => OfClient I)
      fun _ => OfClient I := by
    apply Prog.Triple.intro
    · rintro s₁ v s' rfl hex
      obtain rfl : ((onClient (version rt)).exec s₁).2 = s' := congrArg Prod.snd hex
      exact h
    · rintro s₁ e s' rfl hex
      obtain rfl : ((onClient (version rt)).exec s₁).2 = s' := congrArg Prod.snd hex
      exact h
  have hall : Prog.Triple (fun s' => s' = s) (registerLiveness rt port) (fun _ => OfClient I)
      fun _ => OfClient I := by
    apply hversion.bind
    intro v
    cases v with
    | str v =>
        simp only
        split
        · exact Prog.Keeps.throw (fun _ hs => hs) _
        · split
          · exact Prog.Keeps.pure _
          · exact keeps_setLiveness (fun _ hc => hc) _ _
    | _ => exact Prog.Keeps.throw (fun _ hs => hs) _
  rcases hex : (registerLiveness rt port).exec s with ⟨e | a, s'⟩
  · exact hall.error rfl hex
  · exact hall.ok rfl hex

/-- The start of a listener, where the version exchange keeps the property however it ends. -/
theorem listenStartFn_keeps (h : Exchanges rt I J) {listenPort port : Int} {s : FnState}
    (hs : I s.client)
    (hprobe : ∀ result c₁, (listenStart rt listenPort).exec s.client = (.ok result, c₁) →
      I ((version rt).exec c₁).2) :
    J ((listenStartFn rt listenPort port).exec s).2.client ∧
      (healthyAfter ((listenStartFn rt listenPort port).exec s).1 = true →
        I ((listenStartFn rt listenPort port).exec s).2.client) := by
  rcases hstart : (listenStart rt listenPort).exec s.client with ⟨e | result, c₁⟩
  · have hJ : J c₁ := Prog.Triple.error (h.keeps_listenStart listenPort) hs hstart
    simp [listenStartFn, onClient, hstart, hJ, healthyAfter]
  · have hI : I ((registerLiveness rt port).exec { s with client := c₁ }).2.client :=
      registerLiveness_client (hprobe result c₁ hstart)
    rcases hreg : (registerLiveness rt port).exec { s with client := c₁ } with ⟨e | u, s'⟩ <;>
    · rw [hreg] at hI
      simp [listenStartFn, onClient, hstart, hreg, hI, h.weaken _ hI, healthyAfter]

/-- The answer to an upgrade request with which `upgrade_run.run_one` closes the client. -/
def acceptsUpgrade (resp : Json) : Bool :=
  match resp with
  | .obj fields => !(fieldD fields "error" .null).truthy && (fieldD fields "ok" .null).truthy
  | _ => false

/-- The use is an `upgrade_run` whose target passes the pre-check, gets the binary and accepts
the upgrade. -/
def UpgradeAccepted (rt : Runtime) (c : SocketServerClient) (use : ToolUse) : Prop :=
  match use.call with
  | .upgradeRun ver sha force push =>
    ∃ cur c₁ resp c₂, (version rt).exec c = (.ok cur, c₁) ∧ upgradeRefusal cur = none ∧
      push.1 = true ∧ (upgradeApply rt ver sha force).exec c₁ = (.ok resp, c₂) ∧
      acceptsUpgrade resp = true
  | _ => False

/-- An upgrade, where the property does not prevent an accepted one from closing the client. -/
theorem upgradeFn_keeps (h : Exchanges rt I J) {ver sha : String} {force : Bool}
    {push : Bool × String} {s : FnState} (hs : I s.client)
    (hclose : UpgradeAccepted rt s.client ⟨.upgradeRun ver sha force push, s.registry⟩ →
      ∀ c, I c → I c.close) :
    J ((upgradeFn rt ver sha force push).exec s).2.client ∧
      (healthyAfter ((upgradeFn rt ver sha force push).exec s).1 = true →
        I ((upgradeFn rt ver sha force push).exec s).2.client) := by
  have hIJ := h.weaken
  rcases hv : (version rt).exec s.client with ⟨e | cur, c₁⟩
  · have hJ : J c₁ := Prog.Triple.error h.keeps_version hs hv
    simp [upgradeFn, onClient, hv, hJ, healthyAfter]
  have hI₁ : I c₁ := Prog.Triple.ok h.keeps_version hs hv
  cases hrefusal : upgradeRefusal cur with
  | some reason => simp [upgradeFn, onClient, hv, hrefusal, hI₁, hIJ]
  | none =>
      cases hpush : push.1 with
      | false => simp [upgradeFn, onClient, hv, hrefusal, hpush, hI₁, hIJ]
      | true =>
          rcases ha : (upgradeApply rt ver sha force).exec c₁ with ⟨e | resp, c₂⟩
          · have hJ : J c₂ := Prog.Triple.error (h.keeps_upgradeApply ver sha force) hI₁ ha
            simp [upgradeFn, onClient, hv, hrefusal, hpush, ha, hJ, healthyAfter]
          have hI₂ : I c₂ := Prog.Triple.ok (h.keeps_upgradeApply ver sha force) hI₁ ha
          cases resp with
          | obj fields =>
              by_cases herror : (fieldD fields "error" .null).truthy = true
              · simp [upgradeFn, onClient, hv, hrefusal, hpush, ha, herror, hI₂, hIJ]
              · by_cases hok : (fieldD fields "ok" .null).truthy = true
                · have hI₃ : I c₂.close := by
                    apply hclose _ _ hI₂
                    exact ⟨cur, c₁, _, c₂, hv, hrefusal, hpush, ha,
                      by simp [acceptsUpgrade, herror, hok]⟩
                  simp [upgradeFn, onClient, hv, hrefusal, hpush, ha, herror, hok, hI₃, hIJ]
                · simp [upgradeFn, onClient, hv, hrefusal, hpush, ha, herror, hok, hI₂, hIJ]
          | _ => simp [upgradeFn, onClient, hv, hrefusal, hpush, ha, Json.get, hI₂, hIJ]

/-- What a kept property gives after a run. -/
theorem keeps_outcome {m : TargetFn} {s : FnState} (hIJ : ∀ c, I c → J c)
    (h : Prog.Keeps (OfClient I) (OfClient J) m) (hs : I s.client) :
    J (m.exec s).2.client ∧ (healthyAfter (m.exec s).1 = true → I (m.exec s).2.client) := by
  rcases hex : m.exec s with ⟨e | a, s'⟩
  · have hJ : J s'.client := Prog.Triple.error h hs hex
    exact ⟨hJ, nofun⟩
  · have hI : I s'.client := Prog.Triple.ok h hs hex
    exact ⟨hIJ _ hI, fun _ => hI⟩

/-- What every exchange keeps, every client function keeps, where the two functions that do
more than exchanges respect it. -/
theorem fn_keeps (h : Exchanges rt I J) (port : Int) {c : SocketServerClient} {use : ToolUse}
    (hc : I c)
    (hprobe : ∀ listenPort, use.call = .listenStart listenPort → ∀ result c₁,
      (listenStart rt listenPort).exec c = (.ok result, c₁) → I ((version rt).exec c₁).2)
    (hclose : UpgradeAccepted rt c use → ∀ c, I c → I c.close) :
    J ((use.call.fn rt port).exec ⟨c, use.registry⟩).2.client ∧
      (healthyAfter ((use.call.fn rt port).exec ⟨c, use.registry⟩).1 = true →
        I ((use.call.fn rt port).exec ⟨c, use.registry⟩).2.client) := by
  have hplain : ∀ m : TargetFn, Prog.Keeps (OfClient I) (OfClient J) m →
      J (m.exec ⟨c, use.registry⟩).2.client ∧ (healthyAfter (m.exec ⟨c, use.registry⟩).1 = true →
        I (m.exec ⟨c, use.registry⟩).2.client) := fun m hm => keeps_outcome h.weaken hm hc
  obtain ⟨call, registry⟩ := use
  cases call with
  | version => exact hplain _ ((keeps_onClient h.keeps_version).bind fun _ => .pure _)
  | isfile path =>
      exact hplain _ ((keeps_onClient (h.keeps_probePath _ _ (by decide))).bind fun _ => .pure _)
  | isdir path =>
      exact hplain _ ((keeps_onClient (h.keeps_probePath _ _ (by decide))).bind fun _ => .pure _)
  | pcapFlowExtract pcapDir =>
      exact hplain _ ((keeps_onClient (h.lenprefixed 200 _ (by decide))).bind fun _ => .pure _)
  | cmdExec args cwd env wait =>
      exact hplain _ ((keeps_onClient (h.keeps_cmdExec _ _ _ _)).bind fun _ => .pure _)
  | captureStart iface path extended singleQueue =>
      exact hplain _ (keeps_captureStartFn h _ _ _ _)
  | captureStop path =>
      exact hplain _ ((keeps_onClient (h.keeps_captureStop path)).bind fun _ => .pure _)
  | boceRun url count interval threadCount timeout mode chromiumPath =>
      exact hplain _ ((keeps_onClient (h.keeps_boceRun _ _ _ _ _ _ _)).bind fun _ => .pure _)
  | replayRun pcaps uplinkIface downlinkIface o =>
      exact hplain _ ((keeps_onClient (h.keeps_replayRun _ _ _ _)).bind fun _ => .pure _)
  | listenStart listenPort => exact listenStartFn_keeps h hc (hprobe listenPort rfl)
  | listenStop =>
      apply hplain
      apply (keeps_onClient (h.command 175 _ _ (by decide))).bind
      intro r
      exact (keeps_setLiveness h.weaken _ _).bind fun _ => .pure _
  | listenClean =>
      exact hplain _ ((keeps_onClient (h.command 172 _ _ (by decide))).bind fun _ => .pure _)
  | listenSave file =>
      exact hplain _ ((keeps_onClient (h.keeps_listenSave file)).bind fun _ => .pure _)
  | listenFetch maxBytes ts => exact hplain _ (keeps_listenFetchFn h _ _)
  | upgradeRun ver sha force push => exact upgradeFn_keeps h hc hclose

end McpSocketServer
