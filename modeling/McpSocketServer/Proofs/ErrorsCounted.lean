import McpSocketServer.Proofs.ErrorAnswers

/-!
# Which error answers the tools count as failures

Each client method and each tool looks for failures in fields of its own. For every tool,
`error_counted_iff` gives the condition on an object with the key `error` under which the
target that has sent it as its answer counts as failed.
-/

namespace McpSocketServer

open SocketServerClient

variable {rt : Runtime}

/-- On the client `c`, the call sends the request of its tool from the given client state. The
functions of an accepted start of the listener, of a truncated fetch and of an upgrade send
two. -/
inductive Asks (rt : Runtime) (c : SocketServerClient) :
    ToolCall → SocketServerClient → Request → Prop
  | version : Asks rt c .version c ⟨14, []⟩
  | isfile (path : String) : Asks rt c (.isfile path) c ⟨7, rt.dumps (.obj [("file", .str path)])⟩
  | isdir (path : String) : Asks rt c (.isdir path) c ⟨8, rt.dumps (.obj [("dir", .str path)])⟩
  | pcapFlowExtract (pcapDir : String) :
    Asks rt c (.pcapFlowExtract pcapDir) c
      ⟨200, rt.dumps (.obj [("pcap_dir", .str pcapDir)])⟩
  | cmdExec (args cwd : String) (env : Option Json) (wait : Bool) :
    Asks rt c (.cmdExec args cwd env wait) c
      ⟨1, rt.dumps (cmdExecParams args (orNone cwd) env wait)⟩
  | captureStart (iface path extended : String) (singleQueue : Bool) :
    Asks rt c (.captureStart iface path extended singleQueue) c
      ⟨5, rt.dumps (captureStartParams (orNone iface) (some path) extended singleQueue)⟩
  | captureStop (path : String) :
    Asks rt c (.captureStop path) c ⟨6, rt.dumps (.obj [("path", .str path)])⟩
  | boceRun (url : String) (count interval threadCount timeout : Int)
      (mode chromiumPath : String) :
    Asks rt c (.boceRun url count interval threadCount timeout mode chromiumPath) c
      ⟨131, rt.dumps (boceRunParams url count interval threadCount (max 3 (timeout - 10)) mode
        (orNone chromiumPath))⟩
  | replayRun (pcaps : List String) (uplinkIface downlinkIface : String) (o : ReplayOptions) :
    Asks rt c (.replayRun pcaps uplinkIface downlinkIface o) c
      ⟨0, rt.dumps (replayRunParams pcaps uplinkIface downlinkIface o)⟩
  | listenStart (listenPort : Int) :
    Asks rt c (.listenStart listenPort) c
      ⟨171, rt.dumps (.obj [("host", .null), ("port", .int listenPort)])⟩
  | listenStartVersion {listenPort : Int} {result : Json} {c₁ : SocketServerClient} :
    (listenStart rt listenPort).exec c = (.ok result, c₁) →
    Asks rt c (.listenStart listenPort) c₁ ⟨14, []⟩
  | listenStop : Asks rt c .listenStop c ⟨175, []⟩
  | listenClean : Asks rt c .listenClean c ⟨172, []⟩
  | listenSave (file : String) :
    Asks rt c (.listenSave file) c ⟨173, rt.dumps (.obj [("file", .str file)])⟩
  | listenFetch (maxBytes : Int) (ts : String) : Asks rt c (.listenFetch maxBytes ts) c ⟨174, []⟩
  | listenFetchSave {maxBytes : Int} {ts : String} {data : Bytes} {c₁ : SocketServerClient} :
    (listenFetch rt).exec c = (.ok data, c₁) → maxBytes < data.length →
    Asks rt c (.listenFetch maxBytes ts) c₁
      ⟨173, rt.dumps (.obj [("file", .str (listenLogPath ts))])⟩
  | upgradeVersion (ver sha : String) (force : Bool) (push : Bool × String) :
    Asks rt c (.upgradeRun ver sha force push) c ⟨14, []⟩
  | upgradeApply {ver sha : String} {force : Bool} {push : Bool × String} {cur : Json}
      {c₁ : SocketServerClient} :
    (version rt).exec c = (.ok cur, c₁) → upgradeRefusal cur = none → push.1 = true →
    Asks rt c (.upgradeRun ver sha force push) c₁
      ⟨20, rt.dumps (.obj [("version", .str ver), ("sha256", .str sha), ("force", .bool force)])⟩

/-- An answer to `capture_stop` with which the target counts as failed. -/
def stopFails (fields : List (String × Json)) : Prop :=
  if (fields.lookup "stopped").isSome then
    ((fieldD fields "stopped" .null).truthy ∧ (fieldD fields "pcap_complete" .null).isFalse) ∨
      ((fieldD fields "stopped" .null).isFalse ∧ (fieldD fields "error" .null).truthy)
  else ∀ res, fields.lookup "res" = some res → res.truthy = false

/-- The listener has been started with an answer that is a failure for `_run_batch`. -/
def StartFlagged (rt : Runtime) (c : SocketServerClient) (listenPort : Int) : Prop :=
  ∃ result c₁, (listenStart rt listenPort).exec c = (.ok result, c₁) ∧
    result.hasKey "_error" = true

/-- The tool passes over whatever comes of the request: the one for the version, with which an
accepted start of the listener registers the target. -/
def PassedOver (datatype : Nat) : ToolCall → Prop
  | .listenStart _ => datatype = 14
  | _ => False

/-- The objects that a tool takes for a failure, among those with the key `error`, on the client
`c`. `datatype` is that of the answered request and `confirmed` says whether the polling of an
upgrade has seen the new version. -/
def FailsOn (rt : Runtime) (c : SocketServerClient) (confirmed : Bool) (datatype : Nat)
    (fields : List (String × Json)) : ToolCall → Prop
  | .version | .isfile _ | .isdir _ | .pcapFlowExtract _ => False
  | .cmdExec .. => (fields.lookup "_error").isSome
  | .captureStart .. =>
    (fieldD fields "res" .null).truthy = false ∨ (fields.lookup "_error").isSome
  | .captureStop _ => stopFails fields
  | .boceRun .. | .listenStop | .listenClean | .listenSave _ | .listenFetch .. => True
  | .replayRun .. => statusIsError (.obj fields) ∨ (fields.lookup "_error").isSome
  | .listenStart listenPort =>
    if datatype = 14 then StartFlagged rt c listenPort
    else (fieldD fields "pid" .null).truthy = false ∨ (fields.lookup "_error").isSome
  | .upgradeRun .. => datatype = 14 ∨ (fieldD fields "error" .null).truthy ∨
      (fieldD fields "ok" .null).truthy = false ∨ confirmed = false

/-! ### Outcomes -/

theorem settle_error (call : ToolCall) (target : String) (e : PyErr) :
    (call.settle target (.error e)).ok = false := by
  cases call <;> rfl

/-- A dictionary is a failure for `_run_batch` exactly when it has the key `_error`. -/
theorem settle_obj (target : String) (fields : List (String × Json)) :
    (settle target (.ok (.json (.obj fields)))).ok = false ↔
      (fields.lookup "_error").isSome := by
  cases h : fields.lookup "_error" <;> simp [settle, h, TargetResult.failure]

theorem settleStop_obj (target : String) (fields : List (String × Json)) :
    (settleStop target (.ok (.json (.obj fields)))).ok = false ↔
      ((fieldD fields "stopped" .null).truthy ∧ (fieldD fields "pcap_complete" .null).isFalse) ∨
        ((fieldD fields "stopped" .null).isFalse ∧ (fieldD fields "error" .null).truthy) := by
  simp only [settleStop]
  split_ifs with h₁ h₂
  · simp [h₁, incompletePcap]
  · simp [h₂]
  · simp [h₁, h₂]

/-- A tool whose result on the exchange of its request is failed when that raises, and failed
under `fails` when it returns the object. -/
theorem counted_iff {heard fails : Prop} {fields : List (String × Json)} (call : ToolCall)
    {confirmed : String → Bool} {target : String} {out : Except PyErr PyVal}
    {exchange : Except PyErr Json × SocketServerClient}
    (hcall : call.isUpgrade = false)
    (hexchange : Exchanged heard fields exchange)
    (herror : ∀ e c, exchange = (.error e, c) → (call.settle target out).ok = false)
    (hok : ∀ c, exchange = (.ok (.obj fields), c) →
      ((call.settle target out).ok = false ↔ fails)) :
    CountedFailed (call.report confirmed) (call.settle target out) ↔ ¬ heard ∨ fails := by
  rw [report_counts_iff hcall]
  rcases hexchange with ⟨hheard, c, hex⟩ | ⟨hnot, e, c, hex⟩
  · rw [hok c hex]
    simp [hheard]
  · simp [hnot, herror e c hex]

/-- A tool that makes `next` of the answer. -/
theorem counted_next {heard fails : Prop} {fields : List (String × Json)} (call : ToolCall)
    {confirmed : String → Bool} {target : String} {out : Except PyErr PyVal}
    {exchange : Except PyErr Json × SocketServerClient} (next : Json → Except PyErr PyVal)
    (hcall : call.isUpgrade = false)
    (hexchange : Exchanged heard fields exchange) (hout : out = exchange.1.bind next)
    (hnext : (call.settle target (next (.obj fields))).ok = false ↔ fails) :
    CountedFailed (call.report confirmed) (call.settle target out) ↔ ¬ heard ∨ fails := by
  subst hout
  apply counted_iff call hcall hexchange
  · intro e c heq
    subst heq
    exact settle_error call target e
  · intro c heq
    subst heq
    exact hnext

/-! ### The tools -/

section Tools

variable {c : SocketServerClient} {s : FnState}

/-- A tool that returns the answer of a method, which makes `next` of one exchange. -/
theorem outcome_onClient (next : Json → Except PyErr Json) {m : Client Unit}
    {g : Unit → Client Json} {f : Json → Client Json} (hf : ∀ j c, ((f j).exec c).1 = next j)
    (s : FnState) :
    ((onClient (m >>= fun a => g a >>= f) >>= fun j => pure (PyVal.json j)).exec s).1 =
      (((m >>= g).exec s.client).1.bind fun j => (next j).map PyVal.json) := by
  have hm := Prog.exec_bind_bind m g f s.client
  rcases hE : (m >>= g).exec s.client with ⟨e | j, c'⟩
  · rw [hE, Prog.follow_error] at hm
    simp only [onClient, Prog.exec_bind, Prog.exec_zoom, hm]
    rfl
  · rw [hE, Prog.follow_ok] at hm
    have hj := hf j c'
    rcases hr : (f j).exec c' with ⟨e | v, c''⟩ <;>
    · rw [hr] at hm hj
      simp only [onClient, Prog.exec_bind, Prog.exec_zoom, hm]
      show _ = (next j).map PyVal.json
      rw [← hj]
      rfl

theorem probePath_outcome (datatype : Nat) (field path : String) :
    ((onClient (probePath rt datatype field path) >>= fun j => pure (PyVal.json j)).exec s).1 =
      ((send datatype (rt.dumps (.obj [(field, .str path)])) >>= fun _ => recvJson rt).exec
        s.client).1.bind fun j => (j.get "res" (.bool false)).map PyVal.json :=
  outcome_onClient (fun j => j.get "res" (.bool false)) (fun _ _ => by rw [Prog.exec_ofExcept]) s

theorem cmdExec_outcome (args : String) (cwd : Option String) (env : Option Json) (wait : Bool) :
    ((onClient (cmdExec rt args cwd env wait) >>= fun j => pure (PyVal.json j)).exec s).1 =
      ((send 1 (rt.dumps (cmdExecParams args cwd env wait)) >>= fun _ =>
        recvGzipResponse rt).exec s.client).1.bind fun j => .ok (PyVal.json (truncateStdout j)) :=
  outcome_onClient (fun j => .ok (truncateStdout j)) (fun _ _ => rfl) s

theorem captureStop_outcome (path : String) :
    ((onClient (captureStop rt path) >>= fun j => pure (PyVal.json j)).exec s).1 =
      ((send 6 (rt.dumps (.obj [("path", .str path)])) >>= fun _ => recvJson rt).exec
        s.client).1.bind fun j => .ok (PyVal.json (captureStopAnswer j)) :=
  outcome_onClient (fun j => .ok (captureStopAnswer j)) (fun _ _ => rfl) s

theorem pcapFlowExtract_outcome (pcapDir : String) :
    ((onClient (pcapFlowExtract rt pcapDir) >>= fun j => pure (PyVal.json j)).exec s).1 =
      ((pcapFlowExtract rt pcapDir).exec s.client).1.bind fun j => .ok (PyVal.json j) := by
  rcases h : (pcapFlowExtract rt pcapDir).exec s.client with ⟨e | j, c'⟩ <;>
    simp [onClient, h, Except.bind]

/-- What `boce_run` makes of an answer. -/
def boceAnswer (j : Json) : Except PyErr Json :=
  if j.hasKey "error" then
    (j.get "error" .null).bind fun e => .error ⟨.connectionError, "boce failed: " ++ e.toStr⟩
  else .ok j

theorem boceRun_outcome (url : String) (count interval threadCount timeout : Int) (mode : String)
    (chromiumPath : Option String) :
    ((onClient (boceRun rt url count interval threadCount timeout mode chromiumPath) >>= fun j =>
      pure (PyVal.json j)).exec s).1 =
      ((send 131 (rt.dumps (boceRunParams url count interval threadCount timeout mode
        chromiumPath)) >>= fun _ => recvLenprefixedJson rt).exec s.client).1.bind fun j =>
          (boceAnswer j).map PyVal.json := by
  refine outcome_onClient boceAnswer (fun j c => ?_) s
  unfold boceAnswer
  split
  · cases j.get "error" .null <;> rfl
  · rfl

/-- What `replay_run` makes of an answer. -/
def replayAnswer (j : Json) : Except PyErr Json :=
  if statusIsError j then
    (j.get "message" j).bind fun message =>
      .error ⟨.connectionError, "replay failed: " ++ message.toStr⟩
  else .ok j

theorem replayRun_outcome (pcaps : List String) (uplinkIface downlinkIface : String)
    (o : ReplayOptions) :
    ((onClient (replayRun rt pcaps uplinkIface downlinkIface o) >>= fun j =>
      pure (PyVal.json j)).exec s).1 =
      ((send 0 (rt.dumps (replayRunParams pcaps uplinkIface downlinkIface o)) >>= fun _ =>
        recvJson rt).exec s.client).1.bind fun j => (replayAnswer j).map PyVal.json := by
  refine outcome_onClient replayAnswer (fun j c => ?_) s
  unfold replayAnswer
  split
  · cases j.get "message" j <;> rfl
  · rfl

/-! ### The tools with more to do -/

theorem captureStart_exec (rt : Runtime) (c : SocketServerClient) (eth path : Option String)
    (extended : String) (singleQueue : Bool) :
    (captureStart rt eth path extended singleQueue).exec c = Prog.follow
      (fun data => if data.hasKey "error" then pure data
        else do
          let res ← Prog.ofExcept (data.get "res" (.bool false))
          pure (.obj [("res", .bool res.truthy)]))
      ((send 5 (rt.dumps (captureStartParams eth path extended singleQueue)) >>= fun _ =>
        recvJson rt).exec c) :=
  Prog.exec_bind_bind _ _ _ c

theorem captureStartFn_error {iface path extended : String} {singleQueue : Bool} {e : PyErr}
    {c' : SocketServerClient}
    (hex : (send 5 (rt.dumps (captureStartParams (orNone iface) (some path) extended
      singleQueue)) >>= fun _ => recvJson rt).exec s.client = (.error e, c')) :
    ((captureStartFn rt iface path extended singleQueue).exec s).1 = .error e := by
  have hm := captureStart_exec rt s.client (orNone iface) (some path) extended singleQueue
  rw [hex, Prog.follow_error] at hm
  simp [captureStartFn, onClient, hm]

theorem captureStartFn_obj {iface path extended : String} {singleQueue : Bool}
    {fields : List (String × Json)} {c' : SocketServerClient} (target : String)
    (herror : (fields.lookup "error").isSome)
    (hex : (send 5 (rt.dumps (captureStartParams (orNone iface) (some path) extended
      singleQueue)) >>= fun _ => recvJson rt).exec s.client = (.ok (.obj fields), c')) :
    (settle target ((captureStartFn rt iface path extended singleQueue).exec s).1).ok = false ↔
      (fieldD fields "res" .null).truthy = false ∨ (fields.lookup "_error").isSome := by
  have hm := captureStart_exec rt s.client (orNone iface) (some path) extended singleQueue
  rw [hex, Prog.follow_ok, if_pos (by rwa [Json.hasKey_obj]), Prog.exec_pure] at hm
  cases hres : (fieldD fields "res" .null).truthy with
  | true =>
      have hout : ((captureStartFn rt iface path extended singleQueue).exec s).1 =
          .ok (.json (.obj fields)) := by
        simp [captureStartFn, onClient, hm, hres]
      rw [hout, settle_obj]
      simp
  | false =>
      cases herr : (fieldD fields "error" .null).truthy <;>
        simp [captureStartFn, onClient, hm, hres, herr, errorField, settle, TargetResult.failure]

theorem listenStart_exec (rt : Runtime) (c : SocketServerClient) (listenPort : Int) :
    (listenStart rt listenPort).exec c = Prog.follow
      (fun result => do
        let pid ← Prog.ofExcept (result.get "pid" .null)
        if pid.truthy then pure result
        else throw ⟨.connectionError, "listen start failed: pid empty, resp=" ++ result.toStr⟩)
      ((send 171 (rt.dumps (.obj [("host", .null), ("port", .int listenPort)])) >>= fun _ =>
        recvJson rt).exec c) :=
  Prog.exec_bind_bind _ _ _ c

theorem listenStartFn_error {listenPort port : Int} {e : PyErr} {c' : SocketServerClient}
    (hex : (listenStart rt listenPort).exec s.client = (.error e, c')) :
    ((listenStartFn rt listenPort port).exec s).1 = .error e := by
  simp [listenStartFn, onClient, hex]

/-- No failure of the registration changes what the function returns. -/
theorem listenStartFn_ok {listenPort port : Int} {result : Json} {c' : SocketServerClient}
    (hex : (listenStart rt listenPort).exec s.client = (.ok result, c')) :
    ((listenStartFn rt listenPort port).exec s).1 = .ok (.json result) := by
  rcases hreg : (registerLiveness rt port).exec { s with client := c' } with ⟨e | u, s'⟩ <;>
    simp [listenStartFn, onClient, hex, hreg]

theorem listenStartFn_obj {listenPort port : Int} {fields : List (String × Json)}
    {c' : SocketServerClient} (target : String)
    (hex : (send 171 (rt.dumps (.obj [("host", .null), ("port", .int listenPort)])) >>= fun _ =>
      recvJson rt).exec s.client = (.ok (.obj fields), c')) :
    (settle target ((listenStartFn rt listenPort port).exec s).1).ok = false ↔
      (fieldD fields "pid" .null).truthy = false ∨ (fields.lookup "_error").isSome := by
  have hm := listenStart_exec rt s.client listenPort
  rw [hex, Prog.follow_ok] at hm
  cases hpid : (fieldD fields "pid" .null).truthy with
  | true =>
      have hstart : (listenStart rt listenPort).exec s.client = (.ok (.obj fields), c') := by
        rw [hm]
        simp [hpid]
      rw [listenStartFn_ok hstart, settle_obj]
      simp
  | false =>
      have hstart : ∃ e, (listenStart rt listenPort).exec s.client = (.error e, c') := by
        refine ⟨⟨.connectionError, "listen start failed: pid empty, resp=" ++
          (Json.obj fields).toStr⟩, ?_⟩
        rw [hm]
        simp [hpid]
      obtain ⟨e, hstart⟩ := hstart
      rw [listenStartFn_error hstart]
      simp [settle, TargetResult.failure]

/-- Only an object is accepted for a start of the listener. -/
theorem listenStart_ok_obj {c c' : SocketServerClient} {listenPort : Int} {result : Json}
    (hex : (listenStart rt listenPort).exec c = (.ok result, c')) :
    ∃ fields, result = .obj fields := by
  have hm := listenStart_exec rt c listenPort
  rw [hex] at hm
  rcases hE : (send 171 (rt.dumps (.obj [("host", .null), ("port", .int listenPort)])) >>=
    fun _ => recvJson rt).exec c with ⟨e | answer, c₁⟩
  · rw [hE, Prog.follow_error] at hm
    cases hm
  · rw [hE, Prog.follow_ok] at hm
    cases answer with
    | obj fields =>
        cases hpid : (fieldD fields "pid" .null).truthy <;> simp [hpid] at hm
        exact ⟨fields, hm.1⟩
    | _ => simp [Json.get] at hm

/-! ### Upgrades -/

theorem upgradeFn_version_error {ver sha : String} {force : Bool} {push : Bool × String}
    {e : PyErr} {c' : SocketServerClient} (hv : (version rt).exec s.client = (.error e, c')) :
    ((upgradeFn rt ver sha force push).exec s).1 = .error e := by
  simp [upgradeFn, onClient, hv]

theorem upgradeFn_version_obj {ver sha : String} {force : Bool} {push : Bool × String}
    {fields : List (String × Json)} {c' : SocketServerClient}
    (hv : (version rt).exec s.client = (.ok (.obj fields), c')) (target : String) :
    (settle target ((upgradeFn rt ver sha force push).exec s).1).ok = false := by
  obtain ⟨reason, hreason⟩ := upgradeRefusal_obj fields
  simp [upgradeFn, onClient, hv, hreason, errorField, settle, TargetResult.failure]

theorem upgradeApply_exec (rt : Runtime) (c : SocketServerClient) (ver sha : String)
    (force : Bool) :
    (upgradeApply rt ver sha force).exec c = Prog.follow
      (fun data => match data with
        | .obj _ => pure data
        | _ => pure (.obj [("error", .str ("无法解析的 dt20 响应: " ++ data.repr))]))
      ((send 20 (rt.dumps (.obj [("version", .str ver), ("sha256", .str sha),
        ("force", .bool force)])) >>= fun _ => recvJson rt).exec c) :=
  Prog.exec_bind_bind _ _ _ c

/-- The result of an accepted upgrade. -/
def pushedResult (target : String) (cur : Json) : TargetResult :=
  { target := target, ok := true,
    data := .json (.obj [("pushed", .bool true), ("from_version", .str cur.toStr)]) }

theorem pushedResult_counts_iff (ver target : String) (cur : Json) (confirmed : String → Bool) :
    CountedFailed (fun results => .ok (upgradeReport ver confirmed results))
      (pushedResult target cur) ↔ confirmed target = false :=
  upgradeReport_counts_iff rfl rfl rfl

section Accepted

variable {ver sha : String} {force : Bool} {push : Bool × String} {cur : Json}
  {c₁ c₂ : SocketServerClient} {fields : List (String × Json)}

theorem upgradeFn_apply_error {e : PyErr} (hv : (version rt).exec s.client = (.ok cur, c₁))
    (hrefusal : upgradeRefusal cur = none) (hpush : push.1 = true)
    (ha : (upgradeApply rt ver sha force).exec c₁ = (.error e, c₂)) :
    ((upgradeFn rt ver sha force push).exec s).1 = .error e := by
  simp [upgradeFn, onClient, hv, hrefusal, hpush, ha]

/-- What `upgrade_run` makes of an object that answers its request. -/
theorem upgradeFn_apply_obj (hv : (version rt).exec s.client = (.ok cur, c₁))
    (hrefusal : upgradeRefusal cur = none) (hpush : push.1 = true)
    (ha : (upgradeApply rt ver sha force).exec c₁ = (.ok (.obj fields), c₂)) (target : String) :
    if (fieldD fields "error" .null).truthy = true ∨ (fieldD fields "ok" .null).truthy = false
    then (settle target ((upgradeFn rt ver sha force push).exec s).1).ok = false
    else settle target ((upgradeFn rt ver sha force push).exec s).1 =
      pushedResult target cur := by
  cases herror : (fieldD fields "error" .null).truthy with
  | true =>
      simp [upgradeFn, onClient, hv, hrefusal, hpush, ha, herror, errorField, settle,
        TargetResult.failure]
  | false =>
      cases hok : (fieldD fields "ok" .null).truthy with
      | false =>
          simp [upgradeFn, onClient, hv, hrefusal, hpush, ha, herror, hok, errorField, settle,
            TargetResult.failure]
      | true =>
          have hout : ((upgradeFn rt ver sha force push).exec s).1 = .ok (.json (.obj
              [("pushed", .bool true), ("from_version", .str cur.toStr)])) := by
            simp [upgradeFn, onClient, hv, hrefusal, hpush, ha, herror, hok]
          rw [if_neg (by simp), hout]
          rfl

end Accepted

end Tools

/-! ### All tools -/

/-- After the call the target counts as failed. -/
def CountsFailed (rt : Runtime) (port : Int) (confirmed : String → Bool) (call : ToolCall)
    (c : SocketServerClient) (registry : Option Registry) (target : String) : Prop :=
  CountedFailed (call.report confirmed)
    (call.settle target ((call.fn rt port).exec ⟨c, registry⟩).1)

section

variable {port : Int} {confirmed : String → Bool} {call : ToolCall} {c c₁ : SocketServerClient}
  {r : Request} {fields : List (String × Json)} {registry : Option Registry} {target : String}

/-- A function that raises makes the target count as failed. -/
theorem countsFailed_of_raise {e : PyErr}
    (h : ((call.fn rt port).exec ⟨c, registry⟩).1 = .error e) :
    CountsFailed rt port confirmed call c registry target := by
  apply report_counts_failed
  rw [h]
  exact settle_error call target e

/-- The tools that raise on every object. -/
theorem countsFailed_iff_of_raise {heard : Prop} (e : PyErr)
    (h : ((call.fn rt port).exec ⟨c, registry⟩).1 = .error e) :
    CountsFailed rt port confirmed call c registry target ↔ ¬ heard ∨ True := by
  have hcounted : CountsFailed rt port confirmed call c registry target :=
    countsFailed_of_raise h
  simp [hcounted]

theorem upgrade_version_counts (ver sha : String) (force : Bool) (push : Bool × String)
    (hanswer : AnswersObject rt c ⟨14, []⟩ fields) :
    CountsFailed rt port confirmed (.upgradeRun ver sha force push) c registry target := by
  rcases json_exchanged (by decide) hanswer with ⟨-, c', hex⟩ | ⟨-, e, c', hex⟩
  · apply report_counts_failed
    exact upgradeFn_version_obj (s := ⟨c, registry⟩) hex target
  · exact countsFailed_of_raise (upgradeFn_version_error (s := ⟨c, registry⟩) hex)

theorem upgrade_apply_counts {ver sha : String} {force : Bool} {push : Bool × String} {cur : Json}
    (hv : (version rt).exec c = (.ok cur, c₁)) (hrefusal : upgradeRefusal cur = none)
    (hpush : push.1 = true)
    (hanswer : AnswersObject rt c₁ ⟨20, rt.dumps (.obj [("version", .str ver),
      ("sha256", .str sha), ("force", .bool force)])⟩ fields) :
    CountsFailed rt port confirmed (.upgradeRun ver sha force push) c registry target ↔
      ¬ Heard rt c₁ ⟨20, rt.dumps (.obj [("version", .str ver), ("sha256", .str sha),
        ("force", .bool force)])⟩ ∨
      (fieldD fields "error" .null).truthy ∨ (fieldD fields "ok" .null).truthy = false ∨
        confirmed target = false := by
  have ha := upgradeApply_exec rt c₁ ver sha force
  rcases json_exchanged (by decide) hanswer with ⟨hheard, c₂, hex⟩ | ⟨hnot, e, c₂, hex⟩
  · rw [hex] at ha
    have hobj := upgradeFn_apply_obj (s := ⟨c, registry⟩) hv hrefusal hpush ha target
    split at hobj
    · rename_i hrefused
      have hcounted : CountsFailed rt port confirmed (.upgradeRun ver sha force push) c registry
          target := report_counts_failed _ _ hobj
      simp only [hcounted, true_iff]
      exact Or.inr (hrefused.imp id Or.inl)
    · rename_i haccepted
      have hcounted : CountsFailed rt port confirmed (.upgradeRun ver sha force push) c registry
          target ↔ confirmed target = false := by
        rw [← pushedResult_counts_iff ver target cur confirmed, ← hobj]
        rfl
      obtain ⟨herror, hok⟩ := not_or.mp haccepted
      rw [hcounted, or_iff_right (not_not.mpr hheard), or_iff_right herror, or_iff_right hok]
  · rw [hex, Prog.follow_error] at ha
    have hcounted : CountsFailed rt port confirmed (.upgradeRun ver sha force push) c registry
        target := countsFailed_of_raise (upgradeFn_apply_error hv hrefusal hpush ha)
    simp only [hcounted, hnot, not_false_eq_true, true_or]

/-- What the version request of an accepted start is answered does not count. -/
theorem listenStart_version_counts {listenPort : Int} {result : Json}
    (hstart : (listenStart rt listenPort).exec c = (.ok result, c₁)) :
    CountsFailed rt port confirmed (.listenStart listenPort) c registry target ↔
      StartFlagged rt c listenPort := by
  obtain ⟨started, rfl⟩ := listenStart_ok_obj hstart
  have hflagged : StartFlagged rt c listenPort ↔ (started.lookup "_error").isSome := by
    constructor
    · rintro ⟨result', c', hex, hkey⟩
      obtain ⟨hresult, -⟩ := Prod.mk.inj (hstart.symm.trans hex)
      rwa [← Except.ok.inj hresult] at hkey
    · exact fun hkey => ⟨_, c₁, hstart, hkey⟩
  have hout : ((ToolCall.fn rt port (.listenStart listenPort)).exec ⟨c, registry⟩).1 =
      .ok (.json (.obj started)) := listenStartFn_ok (s := ⟨c, registry⟩) hstart
  rw [CountsFailed, report_counts_iff rfl, hout, hflagged]
  exact settle_obj target started

/-- What `capture_stop` makes of an object. -/
theorem stopAnswer_counts (target : String) (fields : List (String × Json)) :
    (settleStop target (.ok (.json (captureStopAnswer (.obj fields))))).ok = false ↔
      stopFails fields := by
  unfold stopFails captureStopAnswer
  rw [Json.hasKey_obj]
  cases hstopped : (fields.lookup "stopped").isSome with
  | true => simpa using settleStop_obj target fields
  | false =>
      cases hres : fields.lookup "res" with
      | none =>
          have htext : ("无法解析的服务端响应: " ++ (Json.obj fields).repr) ≠ "" := by
            intro hnil
            have hlen := congrArg String.length hnil
            rw [String.length_append] at hlen
            exact absurd hlen (by simp)
          simp only [hres, Bool.false_eq_true, if_false, captureStopAnswer.unparsed,
            settleStop_obj]
          simp [fieldD, List.lookup_cons, Json.isFalse, Json.truthy, htext]
      | some res =>
          cases htruthy : res.truthy
          · have herror : (Json.str "停止未完成（旧版语义），可重试").truthy = true := by decide
            simp only [Bool.false_eq_true, if_false, hres, htruthy, settleStop_obj]
            simp [fieldD, List.lookup_cons, Json.isFalse, htruthy, herror]
          · simp only [Bool.false_eq_true, if_false, hres, htruthy, if_true, settleStop_obj]
            simp [fieldD, List.lookup_cons, Json.isFalse, htruthy]

/-- Of the requests that a tool heeds: the target counts as failed exactly when the answer
cannot be read or the tool looks for a failure in one of its fields. -/
theorem heeded_counted_iff (hasks : Asks rt c call c₁ r) (hanswer : AnswersObject rt c₁ r fields)
    (hkey : (fields.lookup "error").isSome) (hheeded : ¬ PassedOver r.datatype call) :
    CountsFailed rt port confirmed call c registry target ↔
      ¬ Heard rt c₁ r ∨ FailsOn rt c (confirmed target) r.datatype fields call := by
  cases hasks with
  | version =>
      apply counted_next .version (fun j => .ok (.json j)) rfl (json_exchanged (by decide) hanswer)
      · rcases h : (send 14 [] >>= fun _ => recvJson rt).exec c with ⟨e | j, c'⟩ <;>
          simp [ToolCall.fn, version, onClient, h, Except.bind]
      · simp [ToolCall.settle, collect, FailsOn]
  | isfile path =>
      apply counted_next (.isfile path) _ rfl (json_exchanged (by decide) hanswer)
        (probePath_outcome 7 "file" path)
      simp [ToolCall.settle, collect, FailsOn, Except.map]
  | isdir path =>
      apply counted_next (.isdir path) _ rfl (json_exchanged (by decide) hanswer)
        (probePath_outcome 8 "dir" path)
      simp [ToolCall.settle, collect, FailsOn, Except.map]
  | pcapFlowExtract pcapDir =>
      apply counted_next (.pcapFlowExtract pcapDir) _ rfl (prefixed_exchanged (by decide) hanswer)
        (pcapFlowExtract_outcome pcapDir)
      simp [ToolCall.settle, collect, FailsOn]
  | cmdExec args cwd env wait =>
      apply counted_next (.cmdExec args cwd env wait) _ rfl (gzip_exchanged hanswer)
        (cmdExec_outcome args (orNone cwd) env wait)
      obtain ⟨fields', htruncate, hlookup⟩ := truncateStdout_obj fields
      rw [htruncate]
      show (settle target (.ok (.json (.obj fields')))).ok = false ↔ _
      rw [settle_obj, hlookup "_error" (by decide) (by decide)]
      rfl
  | captureStart iface path extended singleQueue =>
      apply counted_iff (.captureStart iface path extended singleQueue) rfl
        (json_exchanged (by decide) hanswer)
      · intro e c' hex
        show (settle target ((captureStartFn rt iface path extended singleQueue).exec
          ⟨c, registry⟩).1).ok = false
        rw [captureStartFn_error (s := ⟨c, registry⟩) hex]
        rfl
      · intro c' hex
        exact captureStartFn_obj (s := ⟨c, registry⟩) target hkey hex
  | captureStop path =>
      apply counted_next (.captureStop path) _ rfl (json_exchanged (by decide) hanswer)
        (captureStop_outcome path)
      exact stopAnswer_counts target fields
  | boceRun url count interval threadCount timeout mode chromiumPath =>
      apply counted_next (.boceRun url count interval threadCount timeout mode chromiumPath) _ rfl
        (prefixed_exchanged (by decide) hanswer)
        (boceRun_outcome url count interval threadCount _ mode _)
      simp [boceAnswer, hkey, Except.bind, Except.map, ToolCall.settle, settle, FailsOn,
        TargetResult.failure]
  | replayRun pcaps uplinkIface downlinkIface o =>
      apply counted_next (.replayRun pcaps uplinkIface downlinkIface o) _ rfl
        (json_exchanged (by decide) hanswer)
        (replayRun_outcome pcaps uplinkIface downlinkIface o)
      cases hstatus : statusIsError (.obj fields) with
      | true =>
          simp [replayAnswer, hstatus, Except.bind, Except.map, ToolCall.settle, settle, FailsOn,
            TargetResult.failure]
      | false =>
          simp only [replayAnswer, hstatus, Bool.false_eq_true, if_false, Except.map, FailsOn,
            false_or]
          exact settle_obj target fields
  | listenStart listenPort =>
      apply counted_iff (.listenStart listenPort) rfl (json_exchanged (by decide) hanswer)
      · intro e c' hex
        have hstart := listenStart_exec rt c listenPort
        rw [hex, Prog.follow_error] at hstart
        show (settle target ((listenStartFn rt listenPort port).exec
          ⟨c, registry⟩).1).ok = false
        rw [listenStartFn_error (s := ⟨c, registry⟩) hstart]
        rfl
      · intro c' hex
        exact listenStartFn_obj (s := ⟨c, registry⟩) target hex
  | listenStartVersion hstart => exact absurd rfl hheeded
  | listenStop =>
      obtain ⟨e, c', hex⟩ := command_raises "stop" (by decide) hanswer
      apply countsFailed_iff_of_raise e
      simp [ToolCall.fn, listenStopFn, onClient, SocketServerClient.listenStop, hex]
  | listenClean =>
      obtain ⟨e, c', hex⟩ := command_raises "clean" (by decide) hanswer
      apply countsFailed_iff_of_raise e
      simp [ToolCall.fn, onClient, SocketServerClient.listenClean, hex]
  | listenSave file =>
      obtain ⟨e, c', hex⟩ := listenSave_raises hanswer
      apply countsFailed_iff_of_raise e
      simp [ToolCall.fn, onClient, hex]
  | listenFetch maxBytes ts =>
      obtain ⟨e, c', hex⟩ := fetch_raises hanswer
      apply countsFailed_iff_of_raise e
      simp [ToolCall.fn, listenFetchFn, onClient, hex]
  | @listenFetchSave maxBytes ts data c₁ hfetch hlong =>
      obtain ⟨e, c', hex⟩ := listenSave_raises hanswer
      apply countsFailed_iff_of_raise e
      simp [ToolCall.fn, listenFetchFn, onClient, hfetch, Int.not_le.mpr hlong, hex]
  | upgradeVersion ver sha force push =>
      have hcounted : CountsFailed rt port confirmed (.upgradeRun ver sha force push) c registry
          target := upgrade_version_counts ver sha force push hanswer
      simp [hcounted, FailsOn]
  | upgradeApply hv hrefusal hpush =>
      rw [upgrade_apply_counts hv hrefusal hpush hanswer]
      simp [FailsOn]

/-- The requests that a tool passes over. -/
theorem passedOver_counted_iff (fields : List (String × Json)) (hasks : Asks rt c call c₁ r)
    (hpassed : PassedOver r.datatype call) :
    CountsFailed rt port confirmed call c registry target ↔
      FailsOn rt c (confirmed target) r.datatype fields call := by
  cases hasks with
  | listenStartVersion hstart => exact listenStart_version_counts hstart
  | listenStart listenPort => exact absurd hpassed (by decide : ¬ (171 : Nat) = 14)
  | _ => exact hpassed.elim

/-- For every tool: a target whose answer is an object with the key `error` counts as failed
exactly when the tool heeds the request and cannot read its answer, or looks for a failure in a
field of the object. -/
theorem error_counted_iff (hasks : Asks rt c call c₁ r) (hanswer : AnswersObject rt c₁ r fields)
    (hkey : (fields.lookup "error").isSome) :
    CountsFailed rt port confirmed call c registry target ↔
      (¬ PassedOver r.datatype call ∧ ¬ Heard rt c₁ r) ∨
        FailsOn rt c (confirmed target) r.datatype fields call := by
  by_cases hpassed : PassedOver r.datatype call
  · rw [passedOver_counted_iff fields hasks hpassed]
    simp only [hpassed, not_true_eq_false, false_and, false_or]
  · rw [heeded_counted_iff hasks hanswer hkey hpassed]
    simp only [hpassed, not_false_eq_true, true_and]

end

/-! ### An error answer that counts as a success -/

/-- A target that refuses every request. -/
def refusingEndpoint : Endpoint :=
  fun _ _ => { reply := [.data (asciiBytes "\x7b\"error\": \"denied\"\x7d")] }

/-- A client connected to it. -/
def refusedClient : SocketServerClient :=
  { host := "10.0.0.1", port := 9000, timeout := 15,
    sock := some { timeout := 15000, endpoint := refusingEndpoint } }

/-- The codecs on its answer, for a call that dumps one text. -/
def refusedRuntime (dumped : String) : Runtime :=
  tableRuntime [("\x7b\"error\": \"denied\"\x7d", .obj [("error", .str "denied")])] dumped

theorem refusedRuntime_loads {dumped text : String} {j : Json}
    (h : (refusedRuntime dumped).loads text = .ok j) : j = .obj [("error", .str "denied")] := by
  simp only [refusedRuntime, tableRuntime, List.lookup_cons, List.lookup_nil] at h
  split at h
  · exact (Except.ok.inj h).symm
  · cases h

theorem refusedClient_answers {dumped : String} {r : Request} (hr : r.datatype ∈ rawJsonDatatypes) :
    AnswersObject (refusedRuntime dumped) refusedClient r [("error", .str "denied")] := by
  intro s hs
  obtain rfl := Option.some.inj hs
  refine ⟨rfl, fun _ => ⟨rfl, fun p _ j hj => refusedRuntime_loads hj⟩, fun hd => ?_, fun hd => ?_,
    fun hd => ?_⟩
  · exact rfl
  · simp only [rawJsonDatatypes, lenprefixedDatatypes, List.mem_cons, List.not_mem_nil, or_false]
      at hr hd
    omega
  · rw [hd] at hr
    exact absurd hr (by decide)

/-- The target that refuses `isfile` counts as one on which the file does not exist. -/
theorem error_counted_ok :
    ¬ ∀ rt port confirmed call c c₁ r fields registry target, Asks rt c call c₁ r →
      AnswersObject rt c₁ r fields → (fields.lookup "error").isSome →
        CountsFailed rt port confirmed call c registry target := by
  intro h
  let rt := refusedRuntime "\x7b\"file\": \"/tmp/a\"\x7d"
  have hcounted := h rt 9000 (fun _ => false) (.isfile "/tmp/a") refusedClient refusedClient
    ⟨7, rt.dumps (.obj [("file", .str "/tmp/a")])⟩ _ none "10.0.0.1" (.isfile "/tmp/a")
    (refusedClient_answers (by decide : 7 ∈ rawJsonDatatypes)) rfl
  apply not_counted_of_alone _ hcounted
  intro rep hrep
  rw [← Except.ok.inj hrep]
  rfl

theorem error_counted_iff_witness : CountsFailed
    (refusedRuntime "\x7b\"extended\": \"\", \"single_queue\": true, \"path\": \"/tmp/a\"\x7d") 9000
    (fun _ => false) (.captureStart "" "/tmp/a" "" true) refusedClient none "10.0.0.1" :=
  (error_counted_iff (.captureStart "" "/tmp/a" "" true)
    (refusedClient_answers (by decide : 5 ∈ rawJsonDatatypes)) rfl).mpr (Or.inr (Or.inl rfl))

end McpSocketServer
