import McpSocketServer.Proofs.ClientFunctions

/-!
# What one send and one read do

The three operations of the client on an open socket, as equations, and from them the
triples that follow an answer from the wire into the client. `Holding rt b` says that the
bytes `b` of the answer to the last request, and no others, are still on the wire.
-/

namespace McpSocketServer

open SocketServerClient

/-! ### The operations on an open socket -/

namespace SocketServerClient

variable {c : SocketServerClient} {s : Socket}

theorem theSock_exec (hs : c.sock = some s) : theSock.exec c = (.ok s, c) := by
  simp [theSock, hs]

theorem settimeout_exec (hs : c.sock = some s) (ms : Int) :
    (settimeout ms).exec c =
      match checkTimeout ms with
      | .error e => (.error e, c)
      | .ok ms => (.ok (), { c with sock := some { s with timeout := ms } }) := by
  cases hms : checkTimeout ms <;> simp [settimeout, theSock_exec hs, putSock, hms]

theorem sendall_exec (hs : c.sock = some s) (r : Request) :
    (sendall r).exec c =
      (match (s.endpoint s.requests r).fault with
        | none => .ok ()
        | some e => .error e,
      { c with sock := some (s.deliver r) }) := by
  cases hfault : (s.endpoint s.requests r).fault <;>
    simp [sendall, theSock_exec hs, putSock, hfault]

/-- The error of a request that is too long for its length field. -/
def tooLong : PyErr := ⟨.structError, "'i' format requires -2147483648 <= number <= 2147483647"⟩

theorem send_exec (hs : c.sock = some s) (datatype : Nat) (payload : Bytes) :
    (send datatype payload).exec c =
      match checkTimeout (1000 * c.timeout) with
      | .error e => (.error e, c)
      | .ok ms =>
        if 2 ^ 31 ≤ payload.length + 4 then
          (.error tooLong, { c with sock := some { s with timeout := ms } })
        else
          (match (s.endpoint s.requests ⟨datatype, payload⟩).fault with
            | none => .ok ()
            | some e => .error e,
          { c with
            sock := some (Socket.deliver { s with timeout := ms } ⟨datatype, payload⟩) }) := by
  cases hms : checkTimeout (1000 * c.timeout) with
  | error e => simp [send, theSock_exec hs, settimeout_exec hs, hms]
  | ok ms =>
      simp only [send, Prog.exec_bind, theSock_exec hs, settimeout_exec hs, Prog.exec_get,
        Prog.follow_ok, hms]
      by_cases hlen : 2 ^ 31 ≤ payload.length + 4
      · rw [if_pos hlen, if_pos hlen]
        rfl
      · rw [if_neg hlen, if_neg hlen]
        exact sendall_exec (c := { c with sock := some { s with timeout := ms } }) rfl _

theorem recvN_exec (hs : c.sock = some s) (n : Int) :
    (recvN n).exec c =
      match checkTimeout (1000 * c.timeout) with
      | .error e => (.error e, c)
      | .ok ms =>
        match Wire.readExactly 65536 ms n.toNat n.toNat s.wire with
        | (.ok items, w) => (.ok (items.map WireByte.value),
            { c with
              sock := some { s with timeout := ms, wire := w }
              stale := c.stale || items.any fun b => b.request + 1 != s.requests })
        | (.error e, w) => (.error (endingError ms e),
            { c with sock := some { s with timeout := ms, wire := w } }) := by
  cases hms : checkTimeout (1000 * c.timeout) with
  | error e => simp [recvN, theSock_exec hs, settimeout_exec hs, hms]
  | ok ms =>
      rcases hr : Wire.readExactly 65536 ms n.toNat n.toNat s.wire with ⟨e | items, w⟩ <;>
        simp [recvN, theSock, settimeout_exec hs, afterRead, hs, hms, hr]

/-- What a read that ended with `e` raises, if anything. -/
def swallow (timeout : Nat) (e : Ending PyErr) : Except PyErr Unit :=
  if e = .closed then .ok ()
  else if (endingError timeout e).kind = .timeoutError then .ok ()
  else .error (endingError timeout e)

/-- The end of the stream and a timeout are swallowed. -/
theorem swallow_ok {timeout : Nat} (hpos : timeout ≠ 0) {e : Ending PyErr}
    (h : ∀ err, e ≠ .failed err) : swallow timeout e = .ok () := by
  cases e with
  | closed => rfl
  | expired => simp [swallow, endingError, hpos]
  | failed err => exact absurd rfl (h err)

theorem passTimeout_exec (timeout : Nat) (e : Ending PyErr) (c : SocketServerClient) :
    (passTimeout timeout e).exec c = (swallow timeout e, c) := by
  unfold passTimeout swallow
  split_ifs <;> rfl

theorem recvUntilTimeout_exec (hs : c.sock = some s) (gap : Nat) :
    (recvUntilTimeout gap).exec c =
      match checkTimeout (1000 * c.timeout) with
      | .error e => (.error e, c)
      | .ok ms =>
        match Wire.recv 65536 ms s.wire with
        | (.error e, w) => ((swallow ms e).map fun _ => [],
            { c with sock := some { s with timeout := ms, wire := w } })
        | (.ok chunk, w) =>
          match Wire.readUntilSilence 65536 gap (w.contents.length + 1) w with
          | ((extra, e), w) => ((swallow gap e).map fun _ => (chunk ++ extra).map WireByte.value,
              { c with
                sock := some { s with timeout := gap, wire := w }
                stale :=
                  c.stale || (chunk ++ extra).any fun b => b.request + 1 != s.requests }) := by
  cases hms : checkTimeout (1000 * c.timeout) with
  | error e => simp [recvUntilTimeout, theSock_exec hs, settimeout_exec hs, hms]
  | ok ms =>
      rcases hr : Wire.recv 65536 ms s.wire with ⟨e | chunk, w⟩
      · cases hsw : swallow ms e <;>
          simp [recvUntilTimeout, theSock, settimeout_exec hs, afterRead, passTimeout_exec, hs,
            hms, hr, hsw, Except.map]
      · rcases hrest : Wire.readUntilSilence 65536 gap (w.contents.length + 1) w with
          ⟨⟨extra, e⟩, w'⟩
        cases hsw : swallow gap e <;>
          simp [recvUntilTimeout, theSock, settimeout_exec hs, afterRead, passTimeout_exec, hs,
            hms, hr, hrest, hsw, Except.map]

/-- The timeout of the last read of a read until silence. -/
def lastTimeout (gap ms : Nat) (w : Wire WireByte PyErr) : Nat :=
  if w.burst gap ms = [] then ms else gap

/-- A read until silence returns the burst on the wire, unless what ends it is raised. -/
theorem recvUntilTimeout_spec (hs : c.sock = some s) (gap : Nat) {ms : Nat}
    (hms : checkTimeout (1000 * c.timeout) = .ok ms) :
    ∃ w, s.wire.contents = s.wire.burst gap ms ++ w.contents ∧
      (recvUntilTimeout gap).exec c =
        ((swallow (lastTimeout gap ms s.wire) (s.wire.ending gap ms)).map fun _ =>
            (s.wire.burst gap ms).map WireByte.value,
          { c with
            sock := some { s with timeout := lastTimeout gap ms s.wire, wire := w }
            stale := c.stale ||
              (s.wire.burst gap ms).any fun b => b.request + 1 != s.requests }) := by
  rcases hr : Wire.recv 65536 ms s.wire with ⟨e | chunk, w⟩
  · have hburst : s.wire.burst gap ms = [] := Wire.recv_error_burst hr
    refine ⟨w, ?_, ?_⟩
    · rw [hburst, Wire.recv_error hr]
      rfl
    · rw [recvUntilTimeout_exec hs, hms, Wire.recv_error_ending hr, lastTimeout, hburst]
      simp [hr]
  · rcases hrest : Wire.readUntilSilence 65536 gap (w.contents.length + 1) w with ⟨⟨extra, e⟩, w'⟩
    obtain ⟨hextra, he⟩ := Wire.readUntilSilence_burst (by omega) (by omega) hrest
    obtain ⟨hcont, -, hne⟩ := Wire.recv_ok hr
    have hburst : s.wire.burst gap ms = chunk ++ extra := by
      rw [Wire.recv_ok_burst hr, hextra]
    have hlast : lastTimeout gap ms s.wire = gap := by
      rw [lastTimeout, hburst, if_neg]
      exact fun hnil => hne (by omega) (List.append_eq_nil_iff.mp hnil).1
    refine ⟨w', ?_, ?_⟩
    · rw [hburst, hcont, Wire.readUntilSilence_contents hrest, List.append_assoc]
    · rw [recvUntilTimeout_exec hs, hms, hlast, hburst, Wire.recv_ok_ending hr, ← he]
      simp [hr, hrest]

/-- What a read until silence that returns has returned. -/
theorem recvUntilTimeout_ok (hs : c.sock = some s) (gap : Nat) {ms : Nat}
    (hms : checkTimeout (1000 * c.timeout) = .ok ms) {b : Bytes} {c' : SocketServerClient}
    (h : (recvUntilTimeout gap).exec c = (.ok b, c')) :
    swallow (lastTimeout gap ms s.wire) (s.wire.ending gap ms) = .ok () ∧
      b = (s.wire.burst gap ms).map WireByte.value := by
  obtain ⟨w, -, hex⟩ := recvUntilTimeout_spec hs gap hms
  have hread := congrArg Prod.fst (h.symm.trans hex)
  cases hsw : swallow (lastTimeout gap ms s.wire) (s.wire.ending gap ms) with
  | error e =>
      rw [hsw] at hread
      cases hread
  | ok u =>
      rw [hsw] at hread
      exact ⟨rfl, Except.ok.inj hread⟩

/-- A read until silence that raises has been ended by more than a pause. -/
theorem recvUntilTimeout_error (hs : c.sock = some s) (gap : Nat) {ms : Nat}
    (hms : checkTimeout (1000 * c.timeout) = .ok ms) {e : PyErr} {c' : SocketServerClient}
    (h : (recvUntilTimeout gap).exec c = (.error e, c')) :
    swallow (lastTimeout gap ms s.wire) (s.wire.ending gap ms) ≠ .ok () := by
  obtain ⟨w, -, hex⟩ := recvUntilTimeout_spec hs gap hms
  have hread := congrArg Prod.fst (h.symm.trans hex)
  intro hok
  rw [hok] at hread
  cases hread

theorem send_closed (hc : c.sock = none) (datatype : Nat) (payload : Bytes) :
    (send datatype payload).exec c = (.error ⟨.assertionError, ""⟩, c) := by
  simp [send, theSock, hc]

end SocketServerClient

/-! ### Answers in their framing -/

variable (rt : Runtime)

/-- What the client takes for a whole answer, where the framing has no length. -/
def Accepted (datatype : Nat) (b : Bytes) : Prop :=
  if datatype ∈ commandDatatypes then b = okBytes else ∃ j, rt.loads (rt.decode b) = .ok j

/-- A length of four bytes and a body of that length. -/
def LenPrefixed (contents : Bytes) : Prop :=
  ∃ body, body.length < 2 ^ 31 ∧ contents = packLE 4 body.length ++ body

/-- The arrivals are one answer in the framing of its datatype. Where the framing has no
length, what arrives before the first pause of more than 500 ms is not taken for a whole
answer unless it is the whole answer. -/
structure Framed (datatype : Nat) (reply : Wire UInt8 PyErr) : Prop where
  bare : datatype ∈ rawJsonDatatypes ∨ datatype ∈ commandDatatypes →
    ∀ τ, Accepted rt datatype (reply.burst 500 τ) → reply.Drains 500 τ
  prefixed : datatype = 1 ∨ datatype ∈ lenprefixedDatatypes → LenPrefixed reply.contents
  fetched : datatype = 174 → reply.contents.head? = some 0x7b ∨
    ∃ gz, gz.length < 2 ^ 64 ∧ reply.contents = packLE 8 gz.length ++ gz

/-- The target answers every request once, in the framing of its datatype. -/
def Answers (ep : Endpoint) : Prop := ∀ n r, Framed rt r.datatype (ep n r).reply

/-- The client has not read an answer to an earlier request. -/
def Fair (c : SocketServerClient) : Prop :=
  c.stale = false ∧ ∀ s, c.sock = some s → Answers rt s.endpoint

/-- Moreover, the answers to all its requests have been read. -/
def Paired (c : SocketServerClient) : Prop :=
  c.stale = false ∧ ∀ s, c.sock = some s → Answers rt s.endpoint ∧ s.wire.contents = []

/-- The bytes `b` of the answer to the last request, and no others, are on the wire. -/
def Holding (b : Bytes) (c : SocketServerClient) : Prop :=
  c.stale = false ∧ ∃ s n, c.sock = some s ∧ s.requests = n + 1 ∧ Answers rt s.endpoint ∧
    s.wire.contents = b.map (WireByte.mk n)

/-- The arrivals that answer the last request are on the wire, behind arrivals without data. -/
def Awaiting (reply : Wire UInt8 PyErr) (c : SocketServerClient) : Prop :=
  c.stale = false ∧ ∃ s n left, c.sock = some s ∧ s.requests = n + 1 ∧ Answers rt s.endpoint ∧
    Wire.contents left = [] ∧ s.wire = left ++ Wire.mapItems (WireByte.mk n) reply

variable {rt}

theorem Fair.of_sock {c : SocketServerClient} {s : Socket} (hstale : c.stale = false)
    (hs : c.sock = some s) (hanswers : Answers rt s.endpoint) : Fair rt c := by
  refine ⟨hstale, fun s' hs' => ?_⟩
  rw [hs] at hs'
  exact Option.some.inj hs' ▸ hanswers

theorem Paired.of_sock {c : SocketServerClient} {s : Socket} (hstale : c.stale = false)
    (hs : c.sock = some s) (hanswers : Answers rt s.endpoint) (hquiet : s.wire.contents = []) :
    Paired rt c := by
  refine ⟨hstale, fun s' hs' => ?_⟩
  rw [hs] at hs'
  exact Option.some.inj hs' ▸ ⟨hanswers, hquiet⟩

theorem Paired.fair {c : SocketServerClient} (h : Paired rt c) : Fair rt c :=
  ⟨h.1, fun s hs => (h.2 s hs).1⟩

theorem Holding.fair {b : Bytes} {c : SocketServerClient} (h : Holding rt b c) : Fair rt c := by
  obtain ⟨hstale, s, n, hs, -, hanswers, -⟩ := h
  exact .of_sock hstale hs hanswers

theorem Holding.paired {c : SocketServerClient} (h : Holding rt [] c) : Paired rt c := by
  obtain ⟨hstale, s, n, hs, -, hanswers, hcont⟩ := h
  exact .of_sock hstale hs hanswers hcont

theorem Awaiting.holding {reply : Wire UInt8 PyErr} {c : SocketServerClient}
    (h : Awaiting rt reply c) : Holding rt reply.contents c := by
  obtain ⟨hstale, s, n, left, hs, hn, hanswers, hleft, hwire⟩ := h
  refine ⟨hstale, s, n, hs, hn, hanswers, ?_⟩
  rw [hwire, Wire.contents_append, hleft, Wire.contents_mapItems, List.nil_append]

/-- Bytes of the last answer are not stale. -/
theorem not_stale (n : Nat) (a : Bytes) :
    ((a.map (WireByte.mk n)).any fun b => b.request + 1 != n + 1) = false := by
  simp

theorem values_map (n : Nat) (a : Bytes) : (a.map (WireByte.mk n)).map WireByte.value = a := by
  rw [List.map_map]
  exact List.map_id' a

/-! ### Sending and reading under pairing -/

/-- Whatever is sent on a paired client, its answer is the only one on the wire. -/
theorem send_paired (datatype : Nat) (payload : Bytes) :
    Prog.Triple (Paired rt) (send datatype payload)
      (fun _ c => ∃ reply, Framed rt datatype reply ∧ Awaiting rt reply c) fun _ => Fair rt := by
  intro c hc
  obtain ⟨hstale, hsock⟩ := hc
  cases hs : c.sock with
  | none =>
      rw [send_closed hs]
      exact ⟨hstale, fun s hs' => (hsock s hs').1⟩
  | some s =>
      obtain ⟨hanswers, hquiet⟩ := hsock s hs
      have hfair : ∀ s' : Socket, s'.endpoint = s.endpoint →
          Fair rt { c with sock := some s' } := by
        intro s' hep
        exact .of_sock hstale rfl (hep ▸ hanswers)
      rw [send_exec hs]
      cases checkTimeout (1000 * c.timeout) with
      | error e => exact ⟨hstale, fun s' hs' => (hsock s' hs').1⟩
      | ok ms =>
          by_cases hlen : 2 ^ 31 ≤ payload.length + 4
          · simp only [if_pos hlen]
            exact hfair _ rfl
          · simp only [if_neg hlen]
            cases (s.endpoint s.requests ⟨datatype, payload⟩).fault with
            | some e => exact hfair _ rfl
            | none =>
                refine ⟨_, hanswers s.requests ⟨datatype, payload⟩, hstale, _, s.requests, s.wire,
                  rfl, rfl, hanswers, hquiet, rfl⟩

/-- A completed exact read takes the beginning of what is held. -/
theorem recvN_holding (b : Bytes) (k : Int) :
    Prog.Triple (Holding rt b) (recvN k)
      (fun a c => ∃ rest, b = a ++ rest ∧ a.length = k.toNat ∧ Holding rt rest c)
      fun _ => Fair rt := by
  intro c hc
  have hfair := hc.fair
  obtain ⟨hstale, s, n, hs, hn, hanswers, hcont⟩ := hc
  rw [recvN_exec hs]
  cases checkTimeout (1000 * c.timeout) with
  | error e => exact hfair
  | ok ms =>
      rcases hr : Wire.readExactly 65536 ms k.toNat k.toNat s.wire with ⟨e | items, w⟩
      · simp only [hr]
        exact .of_sock hstale rfl hanswers
      · obtain ⟨hsplit, hlen, -⟩ := (Wire.reads_of_readExactly (by decide) hr).ok
        rw [hcont] at hsplit
        obtain ⟨a, rest, rfl, rfl, hw⟩ := List.map_eq_append_iff.mp hsplit
        simp only [hr, values_map]
        refine ⟨rest, rfl, ?_, ?_, _, n, rfl, hn, hanswers, hw.symm⟩
        · rw [← hlen, List.length_map]
        · show (c.stale || _) = false
          rw [hstale, hn, not_stale]
          rfl

/-- The empty text is not taken for an answer. -/
theorem not_accepted_nil {datatype : Nat} (hempty : ∀ j, rt.loads (rt.decode []) ≠ .ok j) :
    ¬ Accepted rt datatype [] := by
  unfold Accepted
  split
  · exact nofun
  · rintro ⟨j, hj⟩
    exact hempty j hj

/-- A read until silence reads nothing stale, and where what it returns is taken for a whole
answer, it has read the whole answer. -/
theorem recvUntilTimeout_awaiting {datatype : Nat} (hempty : ∀ j, rt.loads (rt.decode []) ≠ .ok j)
    (hd : datatype ∈ rawJsonDatatypes ∨ datatype ∈ commandDatatypes)
    {reply : Wire UInt8 PyErr} (hframed : Framed rt datatype reply) :
    Prog.Triple (Awaiting rt reply) (recvUntilTimeout 500)
      (fun b c => Fair rt c ∧ (Accepted rt datatype b → Paired rt c)) fun _ => Fair rt := by
  intro c hc
  have hfair := hc.holding.fair
  obtain ⟨hstale, s, n, left, hs, hn, hanswers, hleft, hwire⟩ := hc
  cases hms : checkTimeout (1000 * c.timeout) with
  | error e =>
      rw [recvUntilTimeout_exec hs, hms]
      exact hfair
  | ok ms =>
      have hcont : s.wire.contents = reply.contents.map (WireByte.mk n) := by
        rw [hwire, Wire.contents_append, hleft, Wire.contents_mapItems, List.nil_append]
      -- the reader sees nothing, or the burst of the answer
      obtain ⟨a, ha, hwhole⟩ : ∃ a, s.wire.burst 500 ms = a.map (WireByte.mk n) ∧
          (Accepted rt datatype a → a = reply.contents) := by
        rw [hwire]
        rcases Wire.burst_append hleft with hnil | ⟨τ, hτ⟩
        · exact ⟨[], hnil, fun hacc => absurd hacc (not_accepted_nil hempty)⟩
        · exact ⟨reply.burst 500 τ, by rw [hτ, Wire.burst_mapItems], hframed.bare hd τ⟩
      obtain ⟨w, hsplit, hex⟩ := recvUntilTimeout_spec hs 500 hms
      have hunread : Accepted rt datatype a → w.contents = [] := by
        intro hacc
        rw [hcont, ha, ← hwhole hacc] at hsplit
        exact List.self_eq_append_right.mp hsplit
      have hfresh : (c.stale || (s.wire.burst 500 ms).any fun b => b.request + 1 != s.requests) =
          false := by
        rw [hstale, hn, ha, not_stale]
        rfl
      rw [hex, hfresh, ha, values_map]
      cases swallow (lastTimeout 500 ms s.wire) (s.wire.ending 500 ms) with
      | error x => exact Fair.of_sock rfl rfl hanswers
      | ok u =>
          exact ⟨.of_sock rfl rfl hanswers, fun hacc => .of_sock rfl rfl hanswers (hunread hacc)⟩

/-- Reading the body that a length announces reads the rest of the answer. -/
theorem recvBody_paired {head body a : Bytes} (k : Bytes → Int)
    (hk : (k head).toNat = body.length) :
    Prog.Triple
      (fun c => ∃ rest, head ++ body = a ++ rest ∧ a.length = head.length ∧ Holding rt rest c)
      (recvN (k a)) (fun _ => Paired rt) fun _ => Fair rt := by
  intro c hpre
  obtain ⟨rest, happ, hlen, hc⟩ := hpre
  obtain ⟨rfl, rfl⟩ := List.append_inj happ hlen.symm
  have hread : Prog.Triple (Holding rt body) (recvN (k head)) (fun _ => Paired rt)
      fun _ => Fair rt := by
    apply (recvN_holding body (k head)).conseq (fun _ hc => hc)
    · rintro b c' ⟨rest, rfl, hb, hc'⟩
      have hrest : rest = [] := by
        rw [hk, List.length_append] at hb
        exact List.length_eq_zero_iff.mp (by omega)
      rw [hrest] at hc'
      exact hc'.paired
    · exact fun _ _ hc => hc
  exact hread c hc

/-- A read until silence of a part of the last answer reads nothing stale. -/
theorem recvUntilTimeout_fair (b : Bytes) (gap : Nat) :
    Prog.Triple (Holding rt b) (recvUntilTimeout gap) (fun _ => Fair rt) fun _ => Fair rt := by
  intro c hc
  have hfair := hc.fair
  obtain ⟨hstale, s, n, hs, hn, hanswers, hcont⟩ := hc
  cases hms : checkTimeout (1000 * c.timeout) with
  | error e =>
      rw [recvUntilTimeout_exec hs, hms]
      exact hfair
  | ok ms =>
      obtain ⟨w, hsplit, hex⟩ := recvUntilTimeout_spec hs gap hms
      rw [hcont] at hsplit
      obtain ⟨a, rest, -, ha, -⟩ := List.map_eq_append_iff.mp hsplit
      have hafter : Fair rt ((recvUntilTimeout gap).exec c).2 := by
        rw [hex, ← ha, hn, not_stale, hstale]
        exact .of_sock rfl rfl hanswers
      rcases hr : (recvUntilTimeout gap).exec c with ⟨x | r, c'⟩ <;>
      · rw [hr] at hafter
        exact hafter

theorem not_command_of_rawJson {datatype : Nat} (hd : datatype ∈ rawJsonDatatypes) :
    datatype ∉ commandDatatypes := by
  intro hcommand
  simp only [rawJsonDatatypes, commandDatatypes, List.mem_cons, List.not_mem_nil, or_false]
    at hd hcommand
  omega

/-! ### The exchanges -/

theorem json_paired (hempty : ∀ j, rt.loads (rt.decode []) ≠ .ok j) {datatype : Nat}
    (payload : Bytes) (hd : datatype ∈ rawJsonDatatypes) :
    Prog.Keeps (Paired rt) (Fair rt) (send datatype payload >>= fun _ => recvJson rt) := by
  apply (send_paired datatype payload).bind
  intro _
  apply Prog.Triple.exists_pre
  intro reply
  apply Prog.Triple.and_pre
  intro hframed
  apply (recvUntilTimeout_awaiting hempty (Or.inl hd) hframed).bind
  intro b
  apply Prog.Triple.ofExcept
  · intro j c hj hc
    apply hc.2
    rw [Accepted, if_neg (not_command_of_rawJson hd)]
    exact ⟨j, hj⟩
  · intro e c _ hc
    exact hc.1

theorem lenprefixed_paired {α : Type} {datatype : Nat} (payload : Bytes)
    (hd : datatype = 1 ∨ datatype ∈ lenprefixedDatatypes) (f : Bytes → Client α)
    (hf : ∀ body, Prog.Keeps (Paired rt) (Fair rt) (f body)) :
    Prog.Keeps (Paired rt) (Fair rt) (send datatype payload >>= fun _ => recvN 4 >>= fun n =>
      recvN (unpackInt n) >>= f) := by
  apply (send_paired datatype payload).bind
  intro _
  apply Prog.Triple.exists_pre
  intro reply
  apply Prog.Triple.and_pre
  intro hframed
  obtain ⟨body, hlen, hcont⟩ := hframed.prefixed hd
  apply Prog.Triple.bind ((recvN_holding reply.contents 4).pre fun _ hc => hc.holding)
  intro a
  apply Prog.Triple.bind _ hf
  have hk : (unpackInt (packLE 4 body.length)).toNat = body.length := by
    rw [unpackInt_packLE hlen]
    rfl
  apply (recvBody_paired unpackInt hk).pre
  intro c hpre
  obtain ⟨rest, happ, ha, hc⟩ := hpre
  exact ⟨rest, by rw [← happ, hcont], by rw [ha, packLE_length]; rfl, hc⟩

theorem command_paired (hempty : ∀ j, rt.loads (rt.decode []) ≠ .ok j) {datatype : Nat}
    (payload : Bytes) (action : String) (hd : datatype ∈ commandDatatypes) :
    Prog.Keeps (Paired rt) (Fair rt) (listenCommand rt datatype payload action) := by
  apply (send_paired datatype payload).bind
  intro _
  apply Prog.Triple.exists_pre
  intro reply
  apply Prog.Triple.and_pre
  intro hframed
  apply (recvUntilTimeout_awaiting hempty (Or.inr hd) hframed).bind
  intro resp
  apply Prog.Triple.ite
  · intro hok
    apply Prog.Triple.pure
    intro c hc
    apply hc.2
    rw [Accepted, if_pos hd]
    exact hok
  · intro _
    have hraise : Prog.Triple (fun c => Fair rt c ∧ (Accepted rt datatype resp → Paired rt c))
        (Prog.ofExcept (decodeListenError rt resp)) (fun _ => Fair rt) fun _ => Fair rt :=
      Prog.Triple.ofExcept (fun _ _ _ hc => hc.1) fun _ _ _ hc => hc.1
    exact hraise.bind fun _ => Prog.Triple.throw fun _ hc => hc

theorem fetch_paired : Prog.Keeps (Paired rt) (Fair rt) (listenFetch rt) := by
  apply (send_paired 174 []).bind
  intro _
  apply Prog.Triple.exists_pre
  intro reply
  apply Prog.Triple.and_pre
  intro hframed
  apply Prog.Triple.bind ((recvN_holding reply.contents 8).pre fun _ hc => hc.holding)
  intro head
  apply Prog.Triple.ite
  · intro _
    apply Prog.Triple.exists_pre
    intro rest
    apply Prog.Triple.and_pre
    intro _
    apply Prog.Triple.and_pre
    intro _
    apply (recvUntilTimeout_fair rest 500).bind
    intro r
    have hraise : Prog.Keeps (Fair rt) (Fair rt)
        (Prog.ofExcept (fetchError rt (rt.decode (head ++ r)))) := .ofExcept (fun _ => id) _
    exact Prog.Triple.bind hraise fun _ => Prog.Triple.throw fun _ hc => hc
  · intro hhead
    apply Prog.Triple.bind (Q := fun _ => Paired rt)
    · intro c hpre
      obtain ⟨rest, happ, hlen, hc⟩ := hpre
      have hne : head ≠ [] := by
        intro heq
        subst heq
        cases hlen
      obtain ⟨x, xs, rfl⟩ := List.exists_cons_of_ne_nil hne
      rcases hframed.fetched rfl with hbrace | ⟨gz, hgz, hcont⟩
      · rw [happ] at hbrace
        exact absurd hbrace hhead
      · refine recvBody_paired (fun b => (unpackLE b : Int)) ?_ c
          ⟨rest, hcont ▸ happ, by rw [hlen, packLE_length]; rfl, hc⟩
        simp only [Int.toNat_natCast]
        exact unpackLE_packLE (by omega)
    · intro content
      exact Prog.Keeps.ofExcept (fun _ => Paired.fair) _

/-- Every exchange leaves a paired client paired, or raises. -/
theorem paired_exchanges (hempty : ∀ j, rt.loads (rt.decode []) ≠ .ok j) :
    Exchanges rt (Paired rt) (Fair rt) where
  weaken _ := Paired.fair
  json _ payload hd := json_paired hempty payload hd
  lenprefixed _ payload hd := lenprefixed_paired payload (Or.inr hd)
    (fun body => Prog.ofExcept (rt.loads (rt.decode body)))
    fun _ => Prog.Keeps.ofExcept (fun _ => Paired.fair) _
  gzip payload := lenprefixed_paired payload (Or.inl rfl)
    (fun gz => Prog.ofExcept (rt.decompress gz) >>= fun body => Prog.ofExcept (rt.loadsBytes body))
    fun _ => (Prog.Keeps.ofExcept (fun _ => Paired.fair) _).bind fun _ =>
      .ofExcept (fun _ => Paired.fair) _
  command _ payload action hd := command_paired hempty payload action hd
  fetch := fetch_paired

/-! ### An exchange whose answer arrives in time -/

/-- The answer to `r`, sent next, would be read without a fault and without a pause that ends
the reading early. -/
def AnsweredInTime (c : SocketServerClient) (r : Request) : Prop :=
  ∀ s, c.sock = some s → (s.endpoint s.requests r).fault = none ∧
    (s.deliver r).wire.Drains 500 (1000 * c.timeout).toNat

theorem checkTimeout_ok {t : Int} {ms : Nat} (h : checkTimeout t = .ok ms) : ms = t.toNat := by
  unfold checkTimeout at h
  split_ifs at h
  exact (Except.ok.inj h).symm

theorem recvJson_client (c : SocketServerClient) :
    ((recvJson rt).exec c).2 = ((recvUntilTimeout 500).exec c).2 := by
  rw [recvJson, recvTextResponse, Prog.exec_bind]
  rcases (recvUntilTimeout 500).exec c with ⟨e | b, c'⟩ <;> simp

/-- Reading an answer that arrives in time reads all of it, whatever the reader raises. -/
theorem recvUntilTimeout_in_time {c : SocketServerClient} {s : Socket} {n : Nat} {b : Bytes}
    (hstale : c.stale = false) (hs : c.sock = some s) (hn : s.requests = n + 1)
    (hanswers : Answers rt s.endpoint) (hcont : s.wire.contents = b.map (WireByte.mk n))
    (hdrains : s.wire.Drains 500 (1000 * c.timeout).toNat) {ms : Nat}
    (hms : checkTimeout (1000 * c.timeout) = .ok ms) :
    Paired rt ((recvUntilTimeout 500).exec c).2 := by
  obtain ⟨w, hsplit, hex⟩ := recvUntilTimeout_spec hs 500 hms
  have hburst : s.wire.burst 500 ms = b.map (WireByte.mk n) := by
    rw [checkTimeout_ok hms, hdrains, hcont]
  have hunread : w.contents = [] := by
    rw [hcont, hburst] at hsplit
    exact List.self_eq_append_right.mp hsplit
  rw [hex, hburst, hn, not_stale, hstale]
  exact .of_sock rfl rfl hanswers hunread

/-- A version exchange whose answer arrives in time leaves the client paired, whatever it
raises. -/
theorem version_in_time {c : SocketServerClient} (hc : Paired rt c)
    (htime : AnsweredInTime c ⟨14, []⟩) : Paired rt ((version rt).exec c).2 := by
  obtain ⟨hstale, hsock⟩ := id hc
  cases hs : c.sock with
  | none =>
      have hclosed : ((version rt).exec c).2 = c := by
        rw [version, Prog.exec_bind, send_closed hs, Prog.follow_error]
      rw [hclosed]
      exact hc
  | some s =>
      obtain ⟨hanswers, hquiet⟩ := hsock s hs
      obtain ⟨hfault, hdrains⟩ := htime s hs
      cases hms : checkTimeout (1000 * c.timeout) with
      | error e =>
          have hraised : ((version rt).exec c).2 = c := by
            rw [version, Prog.exec_bind, send_exec hs, hms, Prog.follow_error]
          rw [hraised]
          exact hc
      | ok ms =>
          have hsent : (send 14 []).exec c = (.ok (),
              { c with sock := some (Socket.deliver { s with timeout := ms } ⟨14, []⟩) }) := by
            rw [send_exec hs, hms]
            simp [hfault]
          rw [version, Prog.exec_bind, hsent, Prog.follow_ok, recvJson_client]
          have hcont : (s.deliver ⟨14, []⟩).wire.contents =
              (s.endpoint s.requests ⟨14, []⟩).reply.contents.map (WireByte.mk s.requests) := by
            rw [Socket.deliver, Wire.contents_append, hquiet, Wire.contents_mapItems,
              List.nil_append]
          exact recvUntilTimeout_in_time
            (c := { c with sock := some (Socket.deliver { s with timeout := ms } ⟨14, []⟩) })
            hstale rfl rfl hanswers hcont hdrains hms

end McpSocketServer
