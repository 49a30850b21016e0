import McpSocketServer.Proofs.LengthPrefixed

/-!
# The answers of `socket_listen("fetch")`

A data frame and an error object are told apart by their first byte. That of a data frame is
the low byte of the length of its content, which is an opening brace for one length in 256.
-/

namespace McpSocketServer

open SocketServerClient

/-- The request of `fetch`. -/
def fetchRequest : Request := ⟨174, []⟩

/-- The bytes `b` and no fault are on the wire, and no silence between them is longer than the
timeout. -/
structure Delivered (b : Bytes) (c : SocketServerClient) : Prop where
  arriving : Arriving b c
  unread : c.unread = b
  faultless : ∀ s e, c.sock = some s → .fault e ∉ s.wire

/-- The target answers `r`, sent next, with the bytes `b`, in whatever segments. -/
def Answered (r : Request) (b : Bytes) (c : SocketServerClient) : Prop :=
  ∃ s, c.sock = some s ∧ (s.endpoint s.requests r).fault = none ∧
    Delivered b { c with sock := some (s.deliver r) }

/-- The text of an error object: it begins with a brace and no shorter text that it begins with
is JSON. -/
structure ErrorObject (rt : Runtime) (msg : Json) (text : Bytes) : Prop where
  brace : text.head? = some 0x7b
  long : 8 < text.length
  whole : rt.loads (rt.decode text) = .ok (.obj [("error", msg)])
  cut : ∀ b, b <+: text → b ≠ text →
    ∃ e, rt.loads (rt.decode b) = .error e ∧ e.kind = .valueError

/-! ### Reading what is delivered -/

theorem send_answered {c : SocketServerClient} {datatype : Nat} {payload b : Bytes}
    (hlen : payload.length + 4 < 2 ^ 31) (hc : Answered ⟨datatype, payload⟩ b c) :
    ∃ c', (send datatype payload).exec c = (.ok (), c') ∧ Delivered b c' := by
  obtain ⟨s, hs, hfault, ⟨s', ms, hs', hms, hb⟩, hunread, hfaultless⟩ := hc
  obtain rfl := Option.some.inj hs'
  have hms' : checkTimeout (1000 * c.timeout) = .ok ms := hms
  refine ⟨{ c with
    sock := some (Socket.deliver { s with timeout := ms } ⟨datatype, payload⟩) }, ?_, ?_⟩
  · rw [send_exec hs, hms']
    dsimp only
    rw [if_neg (Nat.not_le.mpr hlen), hfault]
  · refine ⟨⟨_, ms, rfl, hms, hb⟩, hunread, fun s₁ e hs₁ => ?_⟩
    obtain rfl := Option.some.inj hs₁
    exact hfaultless (s.deliver ⟨datatype, payload⟩) e rfl

theorem recvN_delivered {a rest : Bytes} {c : SocketServerClient}
    (hc : Delivered (a ++ rest) c) {n : Int} (hn : n.toNat = a.length) :
    ∃ c', (recvN n).exec c = (.ok a, c') ∧ Delivered rest c' := by
  obtain ⟨c', hex, htook⟩ := recvN_took hc.arriving hn
  refine ⟨c', hex, htook.arriving, ?_, fun s' e hs' => ?_⟩
  · exact List.append_cancel_left (htook.unread.symm.trans hc.unread)
  · obtain ⟨s, ms, hs, hms, -⟩ := hc.arriving
    rw [recvN_exec hs, hms] at hex
    rcases hr : Wire.readExactly 65536 ms n.toNat n.toNat s.wire with ⟨x | items, w⟩
    · simp only [hr] at hex
      cases hex
    · simp only [hr] at hex
      obtain ⟨-, rfl⟩ := Prod.mk.inj hex
      obtain rfl := Option.some.inj hs'
      intro he
      exact hc.faultless s e hs ((Wire.reads_of_readExactly (by decide) hr).fault_mem he)

/-- A read until silence returns, and what it returns is a part of what is delivered. -/
theorem recvUntilTimeout_delivered {b : Bytes} (hb : b ≠ []) {c : SocketServerClient}
    (hc : Delivered b c) {gap : Nat} (hgap : gap ≠ 0) :
    ∃ a c', (recvUntilTimeout gap).exec c = (.ok a, c') ∧ a <+: b := by
  obtain ⟨⟨s, ms, hs, hms, hburst⟩, hunread, hfaultless⟩ := hc
  obtain ⟨w, hsplit, hex⟩ := recvUntilTimeout_spec hs gap hms
  have hne : s.wire.burst gap ms ≠ [] := by
    intro hnil
    rw [Wire.burst_eq_nil ms hnil] at hburst
    exact hb hburst.symm
  have hending : ∀ e, s.wire.ending gap ms ≠ .failed e := by
    intro e he
    exact hfaultless s e hs (Wire.fault_mem_of_ending he)
  rw [lastTimeout, if_neg hne, swallow_ok hgap hending] at hex
  refine ⟨_, _, hex, w.contents.map WireByte.value, ?_⟩
  rw [← hunread, SocketServerClient.unread, hs, Option.elim_some, hsplit, List.map_append]

/-! ### Error objects -/

variable {rt : Runtime}

/-- An answer that begins with a brace is read on until a silence. -/
theorem fetch_brace_exec (rt : Runtime) {head rest : Bytes} (hhead : head.head? = some 0x7b)
    (hlen : head.length = 8) {c : SocketServerClient}
    (hc : Answered fetchRequest (head ++ rest) c) :
    ∃ c', Delivered rest c' ∧ (listenFetch rt).exec c =
      (recvUntilTimeout 500 >>= fun r => Prog.ofExcept (fetchError rt (rt.decode (head ++ r))) >>=
        fun msg => (throw ⟨.connectionError, "listen fetch failed: " ++ msg.toStr⟩ :
          Client Bytes)).exec c' := by
  obtain ⟨c₁, hsend, hc₁⟩ := send_answered (by decide) hc
  obtain ⟨c₂, hrecv, hc₂⟩ := recvN_delivered (n := 8) hc₁ hlen.symm
  refine ⟨c₂, hc₂, ?_⟩
  rw [listenFetch, Prog.exec_bind, hsend, Prog.follow_ok, Prog.exec_bind, hrecv, Prog.follow_ok,
    if_pos hhead]

/-- It is raised, as far as its text can be read. -/
theorem fetch_brace {text : Bytes} (hbrace : text.head? = some 0x7b) (hlong : 8 < text.length)
    (hmsg : ∀ b, b <+: text → ∃ j, fetchError rt (rt.decode b) = .ok j)
    {c : SocketServerClient} (hc : Answered fetchRequest text c) :
    ∃ e, ((listenFetch rt).exec c).1 = .error e ∧ e.kind = .connectionError := by
  have hhead : (text.take 8).head? = some 0x7b := by
    rw [List.head?_take, if_neg (by omega), hbrace]
  have hlen : (text.take 8).length = 8 := by
    rw [List.length_take]
    omega
  rw [← List.take_append_drop 8 text] at hc
  obtain ⟨c₁, hc₁, hex⟩ := fetch_brace_exec rt hhead hlen hc
  have hrest : text.drop 8 ≠ [] := by
    rw [Ne, List.drop_eq_nil_iff]
    omega
  obtain ⟨a, c₂, huntil, ha⟩ := recvUntilTimeout_delivered hrest hc₁ (show 500 ≠ 0 by decide)
  have hprefix : text.take 8 ++ a <+: text.take 8 ++ text.drop 8 :=
    (List.prefix_append_right_inj _).mpr ha
  rw [List.take_append_drop] at hprefix
  obtain ⟨j, hj⟩ := hmsg _ hprefix
  refine ⟨⟨.connectionError, "listen fetch failed: " ++ j.toStr⟩, ?_, rfl⟩
  rw [hex, Prog.exec_bind, huntil, Prog.follow_ok, Prog.exec_bind, Prog.exec_ofExcept, hj]
  rfl

/-- In any case no content is returned. -/
theorem fetch_brace_raises {head rest : Bytes} (hhead : head.head? = some 0x7b)
    (hlen : head.length = 8) {c : SocketServerClient}
    (hc : Answered fetchRequest (head ++ rest) c) (data : Bytes) :
    ((listenFetch rt).exec c).1 ≠ .ok data := by
  obtain ⟨c₁, -, hex⟩ := fetch_brace_exec rt hhead hlen hc
  intro hok
  obtain ⟨e, c', hraise⟩ := Prog.Raises.after (m := recvUntilTimeout 500)
    (fun r => Prog.Raises.after (m := Prog.ofExcept (fetchError rt (rt.decode (head ++ r))))
      fun msg => Prog.raises_throw (α := Bytes)
        ⟨.connectionError, "listen fetch failed: " ++ msg.toStr⟩) c₁
  rw [hex, hraise] at hok
  cases hok

/-- What an error object or a part of it is raised with. -/
theorem ErrorObject.message {msg : Json} {text b : Bytes} (h : ErrorObject rt msg text)
    (hb : b <+: text) : ∃ j, fetchError rt (rt.decode b) = .ok j := by
  by_cases heq : b = text
  · exact ⟨msg, by rw [heq, fetchError, h.whole]; rfl⟩
  · obtain ⟨e, he, hkind⟩ := h.cut b hb heq
    exact ⟨.str (rt.decode b), by rw [fetchError, he]; exact if_pos hkind⟩

/-! ### Data frames -/

theorem packLE_head (n v : Nat) : (packLE (n + 1) v).head? = some 0x7b ↔ v % 256 = 0x7b := by
  rw [packLE, List.head?_cons, Option.some.injEq, ← UInt8.toNat_inj, UInt8.toNat_ofNat']
  rfl

/-- Any other frame is decoded. -/
theorem fetch_frame {g data : Bytes} (hg : rt.decompress g = .ok data) (hlen : g.length < 2 ^ 64)
    (hhead : (packLE 8 g.length).head? ≠ some 0x7b) {c : SocketServerClient}
    (hc : Answered fetchRequest (packLE 8 g.length ++ g) c) :
    ((listenFetch rt).exec c).1 = .ok data := by
  obtain ⟨c₁, hsend, hc₁⟩ := send_answered (by decide) hc
  obtain ⟨c₂, hrecv, hc₂⟩ := recvN_delivered (n := 8) hc₁ (by rw [packLE_length]; rfl)
  rw [← List.append_nil g] at hc₂
  have hunpack : unpackLE (packLE 8 g.length) = g.length := unpackLE_packLE (by omega)
  obtain ⟨c₃, hbody, -⟩ := recvN_delivered (n := (unpackLE (packLE 8 g.length) : Int)) hc₂
    (by rw [hunpack]; rfl)
  rw [listenFetch, Prog.exec_bind, hsend, Prog.follow_ok, Prog.exec_bind, hrecv, Prog.follow_ok,
    if_neg hhead, Prog.exec_bind, hbody, Prog.follow_ok, Prog.exec_ofExcept, hg]

/-- A data frame is decoded exactly when the length of its content does not end in the byte of
an opening brace; an error object is always raised. -/
theorem fetch_decodes_iff {g data : Bytes} (hg : rt.decompress g = .ok data)
    (hlen : g.length < 2 ^ 64) :
    (∀ c, Answered fetchRequest (packLE 8 g.length ++ g) c →
      (((listenFetch rt).exec c).1 = .ok data ↔ g.length % 256 ≠ 0x7b)) ∧
    ∀ msg text, ErrorObject rt msg text → ∀ c, Answered fetchRequest text c →
      ∃ e, ((listenFetch rt).exec c).1 = .error e ∧ e.kind = .connectionError := by
  refine ⟨fun c hc => ?_, fun msg text h c hc => ?_⟩
  · constructor
    · intro hok hbrace
      exact fetch_brace_raises ((packLE_head 7 _).mpr hbrace) (packLE_length 8 _) hc data hok
    · intro hne
      exact fetch_frame hg hlen (fun hhead => hne ((packLE_head 7 _).mp hhead)) hc
  · exact fetch_brace h.brace h.long (fun b hb => h.message hb) hc

/-! ### Answers -/

/-- A client whose target answers every request with `b`. -/
def answeredClient (b : Bytes) : SocketServerClient where
  host := "10.0.0.1"
  port := 9000
  timeout := 10
  sock := some { timeout := 10000, endpoint := fun _ _ => { reply := [.data b] } }

theorem answeredClient_answered (r : Request) (b : Bytes) : Answered r b (answeredClient b) := by
  have hcont : Wire.contents [(.data (b.map (WireByte.mk 0)) : Arrival WireByte PyErr)] =
      b.map (WireByte.mk 0) := List.append_nil _
  refine ⟨_, rfl, rfl, ⟨_, 10000, rfl, rfl, ?_⟩, ?_, fun s e hs => ?_⟩
  · change (Wire.burst 10000 10000
      [(.data (b.map (WireByte.mk 0)) : Arrival WireByte PyErr)]).map WireByte.value = b
    rw [Wire.drains_data, hcont, values_map]
  · change (Wire.contents
      [(.data (b.map (WireByte.mk 0)) : Arrival WireByte PyErr)]).map WireByte.value = b
    rw [hcont, values_map]
  · obtain rfl := Option.some.inj hs
    simp [Socket.deliver, Wire.mapItems]

/-- The text of an error object. -/
def refusalText : String := "\x7b\"error\": \"no\"\x7d"

/-- 100 bytes that `gzip.compress` cannot make shorter. -/
def storedData : Bytes := (List.range 100).map fun i => UInt8.ofNat (37 * i)

/-- `gzip.compress(storedData, mtime=0)`. -/
def storedGzip : Bytes :=
  [31, 139, 8, 0, 0, 0, 0, 0, 2, 3, 1, 100, 0, 155, 255] ++ storedData ++
    [235, 188, 207, 156, 100, 0, 0, 0]

/-- The codecs on these texts. -/
def fetchRuntime : Runtime :=
  { tableRuntime [(refusalText, .obj [("error", .str "no")])] "" with
    decompress := fun b =>
      if b = storedGzip then .ok storedData else sevenRuntime.decompress b }

theorem fetchRuntime_loads (text : String) : fetchRuntime.loads text =
    if text = refusalText then .ok (.obj [("error", .str "no")])
    else .error ⟨.valueError, "Expecting value"⟩ := by
  by_cases htext : text = refusalText
  · simp [fetchRuntime, tableRuntime, htext]
  · simp [fetchRuntime, tableRuntime, htext, beq_eq_false_iff_ne.mpr htext, List.lookup_cons]

/-- The 123 bytes of a gzip stream are taken for an error message. -/
theorem frame_raised : fetchRuntime.decompress storedGzip = .ok storedData ∧
    Answered fetchRequest (packLE 8 storedGzip.length ++ storedGzip)
      (answeredClient (packLE 8 storedGzip.length ++ storedGzip)) ∧
    ∃ e, ((listenFetch fetchRuntime).exec
      (answeredClient (packLE 8 storedGzip.length ++ storedGzip))).1 = .error e ∧
      e.kind = .connectionError := by
  refine ⟨by simp [fetchRuntime], answeredClient_answered _ _,
    fetch_brace (by decide +kernel) (by decide +kernel) ?_ (answeredClient_answered _ _)⟩
  intro b _
  rw [fetchError, fetchRuntime_loads]
  split_ifs
  · exact ⟨_, rfl⟩
  · exact ⟨_, rfl⟩

theorem refusal_errorObject :
    ErrorObject fetchRuntime (.str "no") (asciiBytes refusalText) := by
  have hwhole : fetchRuntime.decode (asciiBytes refusalText) = refusalText := by decide
  refine ⟨by decide, by decide, by rw [hwhole, fetchRuntime_loads, if_pos rfl], ?_⟩
  intro b hb hne
  have hcut : fetchRuntime.decode b ≠ refusalText := by
    intro heq
    have hlen := congrArg (fun t => t.toList.length) (heq.trans hwhole.symm)
    simp only [fetchRuntime, tableRuntime, String.toList_ofList, List.length_map] at hlen
    exact hne (hb.eq_of_length hlen)
  exact ⟨_, by rw [fetchRuntime_loads, if_neg hcut], rfl⟩

theorem fetch_decodes_iff_witness :
    ((listenFetch fetchRuntime).exec
      (answeredClient (packLE 8 gzipSeven.length ++ gzipSeven))).1 = .ok [55] ∧
    ∃ e, ((listenFetch fetchRuntime).exec (answeredClient (asciiBytes refusalText))).1 = .error e ∧
      e.kind = .connectionError := by
  have hgz : fetchRuntime.decompress gzipSeven = .ok [55] := by decide
  obtain ⟨hframe, herror⟩ := fetch_decodes_iff hgz (by decide)
  exact ⟨(hframe _ (answeredClient_answered _ _)).mpr (by decide),
    herror _ _ refusal_errorObject _ (answeredClient_answered _ _)⟩

end McpSocketServer
