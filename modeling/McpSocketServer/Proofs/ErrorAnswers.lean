import McpSocketServer.Proofs.AnswerReads
import McpSocketServer.Proofs.CountedResults

/-!
# What becomes of an answer that is an object

A request is answered by an object with the key `error`, in the framing of its datatype and
with any delays and segments. An exchange that reads a JSON value then returns the object, or
raises where the answer cannot be read; the exchanges that expect `ok` or a file raise always.
-/

namespace McpSocketServer

open SocketServerClient

variable {rt : Runtime}

/-! ### Answers that are heard -/

/-- The bytes are the object with the given fields in the framing of the datatype. No beginning
of a bare JSON text is the text of another value. -/
structure ObjectFramed (rt : Runtime) (datatype : Nat) (fields : List (String × Json))
    (b : Bytes) : Prop where
  bare : datatype ∈ rawJsonDatatypes → rt.loads (rt.decode b) = .ok (.obj fields) ∧
    ∀ p, p <+: b → ∀ j, rt.loads (rt.decode p) = .ok j → j = .obj fields
  brace : datatype ∈ commandDatatypes ∨ datatype = 174 → b.head? = some 0x7b
  prefixed : datatype ∈ lenprefixedDatatypes → ∃ body, body.length < 2 ^ 31 ∧
    b = packLE 4 body.length ++ body ∧ rt.loads (rt.decode body) = .ok (.obj fields)
  gzipped : datatype = 1 → ∃ gz body, gz.length < 2 ^ 31 ∧ b = packLE 4 gz.length ++ gz ∧
    rt.decompress gz = .ok body ∧ rt.loadsBytes body = .ok (.obj fields)

/-- The target's answer to `r`, sent next on a connection without unread data, is the object. -/
def AnswersObject (rt : Runtime) (c : SocketServerClient) (r : Request)
    (fields : List (String × Json)) : Prop :=
  ∀ s, c.sock = some s → s.wire.contents = [] ∧
    ObjectFramed rt r.datatype fields (s.endpoint s.requests r).reply.contents

/-- The arrivals let the reader get to a text of the answer: a bare text before a pause of more
than 500 ms, without an exception of the socket; the whole answer where it has a length. -/
def Readable (rt : Runtime) (datatype ms : Nat) (w : Wire WireByte PyErr) : Prop :=
  if datatype ∈ rawJsonDatatypes then
    swallow (lastTimeout 500 ms w) (w.ending 500 ms) = .ok () ∧
      ∃ j, rt.loads (rt.decode ((w.burst 500 ms).map WireByte.value)) = .ok j
  else w.Drains ms ms

/-- The request can be sent and its answer can be read. -/
def Heard (rt : Runtime) (c : SocketServerClient) (r : Request) : Prop :=
  ∃ s ms, c.sock = some s ∧ checkTimeout (1000 * c.timeout) = .ok ms ∧
    r.payload.length + 4 < 2 ^ 31 ∧ (s.endpoint s.requests r).fault = none ∧
    Readable rt r.datatype ms (s.deliver r).wire

/-- An exchange returns the object when the answer is heard, and raises otherwise. -/
def Exchanged (heard : Prop) (fields : List (String × Json))
    (outcome : Except PyErr Json × SocketServerClient) : Prop :=
  (heard ∧ ∃ c, outcome = (.ok (.obj fields), c)) ∨ (¬ heard ∧ ∃ e c, outcome = (.error e, c))

/-- The client after a request has been sent. -/
def sent (c : SocketServerClient) (s : Socket) (ms : Nat) (r : Request) : SocketServerClient :=
  { c with sock := some (Socket.deliver { s with timeout := ms } r) }

/-- The state in which the answer is read, or an exception of the sending. -/
theorem send_cases (rt : Runtime) (c : SocketServerClient) (datatype : Nat) (payload : Bytes) :
    ((¬ Heard rt c ⟨datatype, payload⟩) ∧
      ∃ e c', (send datatype payload).exec c = (.error e, c')) ∨
    ∃ s ms, c.sock = some s ∧ checkTimeout (1000 * c.timeout) = .ok ms ∧
      (send datatype payload).exec c = (.ok (),
        sent c s ms ⟨datatype, payload⟩) ∧
      (Heard rt c ⟨datatype, payload⟩ ↔
        Readable rt datatype ms (s.deliver ⟨datatype, payload⟩).wire) := by
  cases hs : c.sock with
  | none =>
      left
      refine ⟨?_, _, _, send_closed hs datatype payload⟩
      rintro ⟨s, ms, hsock, -⟩
      rw [hs] at hsock
      cases hsock
  | some s =>
      have hsend := send_exec hs datatype payload
      cases hms : checkTimeout (1000 * c.timeout) with
      | error e =>
          left
          rw [hms] at hsend
          refine ⟨?_, _, _, hsend⟩
          rintro ⟨_, ms, -, hok, -⟩
          rw [hms] at hok
          cases hok
      | ok ms =>
          rw [hms] at hsend
          by_cases hlen : 2 ^ 31 ≤ payload.length + 4
          · left
            simp only [if_pos hlen] at hsend
            refine ⟨?_, _, _, hsend⟩
            rintro ⟨_, _, -, -, hshort, -⟩
            exact absurd hlen (Nat.not_le.mpr hshort)
          · simp only [if_neg hlen] at hsend
            cases hfault : (s.endpoint s.requests ⟨datatype, payload⟩).fault with
            | some e =>
                left
                rw [hfault] at hsend
                refine ⟨?_, _, _, hsend⟩
                rintro ⟨s', _, hs', -, -, hnone, -⟩
                rw [← Option.some.inj (hs.symm.trans hs'), hfault] at hnone
                cases hnone
            | none =>
                right
                rw [hfault] at hsend
                refine ⟨s, ms, rfl, rfl, hsend, ?_, ?_⟩
                · rintro ⟨s', ms', hs', hms', -, -, hread⟩
                  rw [← Option.some.inj (hs.symm.trans hs')] at hread
                  rw [← Except.ok.inj (hms.symm.trans hms')] at hread
                  exact hread
                · intro hread
                  exact ⟨s, ms, hs, hms, Nat.not_le.mp hlen, hfault, hread⟩

/-- What is on the wire after a request on a quiet connection. -/
theorem deliver_values {s : Socket} {r : Request} (hquiet : s.wire.contents = []) :
    (s.deliver r).wire.contents.map WireByte.value =
      (s.endpoint s.requests r).reply.contents := by
  rw [Socket.deliver, Wire.contents_append, hquiet, Wire.contents_mapItems, List.nil_append,
    values_map]

theorem json_exchanged {c : SocketServerClient} {datatype : Nat} {payload : Bytes}
    {fields : List (String × Json)} (hd : datatype ∈ rawJsonDatatypes)
    (hanswer : AnswersObject rt c ⟨datatype, payload⟩ fields) :
    Exchanged (Heard rt c ⟨datatype, payload⟩) fields
      ((send datatype payload >>= fun _ => recvJson rt).exec c) := by
  rw [Prog.exec_bind]
  rcases send_cases rt c datatype payload with ⟨hnot, e, c', hsend⟩ |
    ⟨s, ms, hs, hms, hsend, hheard⟩
  · rw [hsend]
    exact Or.inr ⟨hnot, e, c', rfl⟩
  · obtain ⟨hquiet, hframed⟩ := hanswer s hs
    obtain ⟨-, hsame⟩ := hframed.bare hd
    let w := (s.deliver ⟨datatype, payload⟩).wire
    have hpre : (w.burst 500 ms).map WireByte.value <+:
        (s.endpoint s.requests ⟨datatype, payload⟩).reply.contents := by
      rw [← deliver_values hquiet]
      exact (Wire.burst_prefix 500 ms _).map _
    rw [hsend, Prog.follow_ok, hheard, Readable, if_pos hd]
    show Exchanged _ _ ((recvJson rt).exec (sent c s ms ⟨datatype, payload⟩))
    rw [recvJson, recvTextResponse, Prog.exec_bind]
    rcases hr : (recvUntilTimeout 500).exec (sent c s ms ⟨datatype, payload⟩) with ⟨e | b, c'⟩
    · right
      refine ⟨?_, e, c', rfl⟩
      intro hread
      exact recvUntilTimeout_error (c := sent c s ms ⟨datatype, payload⟩) rfl 500 hms hr hread.1
    · obtain ⟨hok, hb⟩ := recvUntilTimeout_ok (c := sent c s ms ⟨datatype, payload⟩) rfl 500 hms hr
      obtain rfl : b = (w.burst 500 ms).map WireByte.value := hb
      rw [Prog.follow_ok, Prog.exec_ofExcept]
      cases hj : rt.loads (rt.decode ((w.burst 500 ms).map WireByte.value)) with
      | ok j =>
          left
          exact ⟨⟨hok, j, rfl⟩, c', by rw [hsame _ hpre j hj]⟩
      | error e =>
          right
          refine ⟨?_, e, c', rfl⟩
          rintro ⟨-, j, hj'⟩
          cases hj'

/-- One exact read of an answer: when it completes, and with what. -/
theorem recvN_cases {c : SocketServerClient} {s : Socket} {ms : Nat} {head rest : Bytes}
    {k : Int} (hs : c.sock = some s) (hms : checkTimeout (1000 * c.timeout) = .ok ms)
    (hcont : s.wire.contents.map WireByte.value = head ++ rest) (hk : k.toNat = head.length) :
    (∃ c' w, (recvN k).exec c = (.ok head, c') ∧
        c'.sock = some { s with timeout := ms, wire := w } ∧ c'.timeout = c.timeout ∧
        w.contents.map WireByte.value = rest ∧ (w.Drains ms ms ↔ s.wire.Drains ms ms)) ∨
      ¬ s.wire.Drains ms ms ∧ ∃ e c', (recvN k).exec c = (.error e, c') := by
  have hex := recvN_exec hs k
  rw [hms] at hex
  rcases hr : Wire.readExactly 65536 ms k.toNat k.toNat s.wire with ⟨e | items, w⟩
  · right
    simp only [hr] at hex
    refine ⟨fun hdrains => ?_, _, _, hex⟩
    have hlen : k.toNat ≤ s.wire.contents.length := by
      rw [← List.length_map (f := WireByte.value), hcont, List.length_append, hk]
      omega
    exact (Wire.reads_of_readExactly (by decide) hr).not_error hlen hdrains
  · left
    simp only [hr] at hex
    have hreads := Wire.reads_of_readExactly (by decide) hr
    obtain ⟨hsplit, hlen, -⟩ := hreads.ok
    rw [hsplit, List.map_append] at hcont
    obtain ⟨hhead, hrest⟩ := List.append_inj hcont (by rw [List.length_map, hlen, hk])
    rw [hhead] at hex
    exact ⟨_, w, hex, rfl, rfl, hrest, hreads.drains⟩

/-- An answer with a length is read whole exactly when its arrivals drain. -/
theorem recvBody_cases {c : SocketServerClient} {s : Socket} {ms : Nat} {body : Bytes}
    (hs : c.sock = some s) (hms : checkTimeout (1000 * c.timeout) = .ok ms)
    (hlen : body.length < 2 ^ 31)
    (hcont : s.wire.contents.map WireByte.value = packLE 4 body.length ++ body) :
    (s.wire.Drains ms ms ∧
      ∃ c', (recvN 4 >>= fun n => recvN (unpackInt n)).exec c = (.ok body, c')) ∨
    ¬ s.wire.Drains ms ms ∧
      ∃ e c', (recvN 4 >>= fun n => recvN (unpackInt n)).exec c = (.error e, c') := by
  rw [Prog.exec_bind]
  have hfour : (4 : Int).toNat = (packLE 4 body.length).length := by
    rw [packLE_length]
    rfl
  rcases recvN_cases hs hms hcont hfour with ⟨c₁, w, hread, hs₁, ht₁, hrest, hdrains⟩ |
    ⟨hnot, e, c', hread⟩
  · rw [hread, Prog.follow_ok, unpackInt_packLE hlen, ← hdrains]
    rw [← ht₁] at hms
    have hbody : w.contents.map WireByte.value = body ++ [] := by rw [hrest, List.append_nil]
    rcases recvN_cases (k := (body.length : Int)) hs₁ hms hbody (Int.toNat_natCast _) with
      ⟨c₂, w', hread₂, -, -, hnil, hdrains₂⟩ | ⟨hnot, e, c', hread₂⟩
    · left
      refine ⟨hdrains₂.mp (Wire.drains_of_nil (List.map_eq_nil_iff.mp hnil)), c₂, hread₂⟩
    · exact Or.inr ⟨hnot, e, c', hread₂⟩
  · right
    rw [hread]
    exact ⟨hnot, e, c', rfl⟩

/-- A request whose answer has a length, and what `decode` makes of the body. -/
theorem lenprefixed_exchanged {c : SocketServerClient} {datatype : Nat} {payload : Bytes}
    {fields : List (String × Json)} (decode : Bytes → Client Json)
    (hd : datatype ∉ rawJsonDatatypes)
    (hanswer : ∀ s, c.sock = some s → s.wire.contents = [] ∧ ∃ body, body.length < 2 ^ 31 ∧
      (s.endpoint s.requests ⟨datatype, payload⟩).reply.contents =
        packLE 4 body.length ++ body ∧ ∀ c, (decode body).exec c = (.ok (.obj fields), c)) :
    Exchanged (Heard rt c ⟨datatype, payload⟩) fields
      ((send datatype payload >>= fun _ => recvN 4 >>= fun n =>
        recvN (unpackInt n) >>= decode).exec c) := by
  rw [Prog.exec_bind]
  rcases send_cases rt c datatype payload with ⟨hnot, e, c', hsend⟩ |
    ⟨s, ms, hs, hms, hsend, hheard⟩
  · rw [hsend]
    exact Or.inr ⟨hnot, e, c', rfl⟩
  · obtain ⟨hempty, body, hlen, hreply, hdecode⟩ := hanswer s hs
    have hcont : (s.deliver ⟨datatype, payload⟩).wire.contents.map WireByte.value =
        packLE 4 body.length ++ body := by rw [deliver_values hempty, hreply]
    rw [hsend, Prog.follow_ok, hheard, Readable, if_neg hd, Prog.exec_bind_bind]
    rcases recvBody_cases (c := sent c s ms ⟨datatype, payload⟩) rfl hms hlen hcont with
      ⟨hdrains, c', hread⟩ | ⟨hnot, e, c', hread⟩
    · left
      refine ⟨hdrains, c', ?_⟩
      rw [← hdecode c', ← Prog.follow_ok decode, ← hread]
    · right
      refine ⟨hnot, e, c', ?_⟩
      rw [← Prog.follow_error decode, ← hread]

theorem prefixed_exchanged {c : SocketServerClient} {datatype : Nat} {payload : Bytes}
    {fields : List (String × Json)} (hd : datatype ∈ lenprefixedDatatypes)
    (hanswer : AnswersObject rt c ⟨datatype, payload⟩ fields) :
    Exchanged (Heard rt c ⟨datatype, payload⟩) fields
      ((send datatype payload >>= fun _ => recvLenprefixedJson rt).exec c) := by
  have hraw : datatype ∉ rawJsonDatatypes := by
    intro hraw
    simp only [rawJsonDatatypes, lenprefixedDatatypes, List.mem_cons, List.not_mem_nil, or_false]
      at hraw hd
    omega
  apply lenprefixed_exchanged (fun b => Prog.ofExcept (rt.loads (rt.decode b))) hraw
  intro s hs
  obtain ⟨hquiet, hframed⟩ := hanswer s hs
  obtain ⟨body, hlen, hreply, hloads⟩ := hframed.prefixed hd
  exact ⟨hquiet, body, hlen, hreply, fun c => by rw [Prog.exec_ofExcept, hloads]⟩

theorem gzip_exchanged {c : SocketServerClient} {payload : Bytes}
    {fields : List (String × Json)} (hanswer : AnswersObject rt c ⟨1, payload⟩ fields) :
    Exchanged (Heard rt c ⟨1, payload⟩) fields
      ((send 1 payload >>= fun _ => recvGzipResponse rt).exec c) := by
  apply lenprefixed_exchanged (fun gz => Prog.ofExcept (rt.decompress gz) >>= fun body =>
    Prog.ofExcept (rt.loadsBytes body)) (by decide)
  intro s hs
  obtain ⟨hquiet, hframed⟩ := hanswer s hs
  obtain ⟨gz, body, hlen, hreply, hgz, hloads⟩ := hframed.gzipped rfl
  refine ⟨hquiet, gz, hlen, hreply, fun c => ?_⟩
  rw [Prog.exec_bind, Prog.exec_ofExcept, hgz, Prog.follow_ok, Prog.exec_ofExcept, hloads]

/-- An object is not `ok`, however far it is read. -/
theorem ne_okBytes {b p : Bytes} (hb : b.head? = some 0x7b) (hp : p <+: b) : p ≠ okBytes := by
  intro heq
  subst heq
  obtain ⟨rest, rfl⟩ := hp
  cases hb

/-- The actions `clean`, `stop` and `save` raise on an error answer. -/
theorem command_raises {c : SocketServerClient} {datatype : Nat} {payload : Bytes}
    {fields : List (String × Json)} (action : String) (hd : datatype ∈ commandDatatypes)
    (hanswer : AnswersObject rt c ⟨datatype, payload⟩ fields) :
    ∃ e c', (listenCommand rt datatype payload action).exec c = (.error e, c') := by
  rw [listenCommand, Prog.exec_bind]
  rcases send_cases rt c datatype payload with ⟨-, e, c', hsend⟩ |
    ⟨s, ms, hs, hms, hsend, -⟩
  · rw [hsend]
    exact ⟨e, c', rfl⟩
  · obtain ⟨hquiet, hframed⟩ := hanswer s hs
    rw [hsend, Prog.follow_ok, Prog.exec_bind, recvOk]
    rcases hr : (recvUntilTimeout 500).exec (sent c s ms ⟨datatype, payload⟩) with ⟨e | resp, c'⟩
    · exact ⟨e, c', rfl⟩
    · obtain ⟨-, hresp⟩ := recvUntilTimeout_ok (c := sent c s ms ⟨datatype, payload⟩) rfl 500 hms hr
      have hpre : resp <+: (s.endpoint s.requests ⟨datatype, payload⟩).reply.contents := by
        rw [hresp, ← deliver_values hquiet]
        exact (Wire.burst_prefix 500 ms _).map _
      rw [Prog.follow_ok, if_neg (ne_okBytes (hframed.brace (Or.inl hd)) hpre)]
      exact Prog.Raises.after (fun _ => Prog.raises_throw _) c'

theorem listenSave_raises {c : SocketServerClient} {file : String}
    {fields : List (String × Json)}
    (hanswer : AnswersObject rt c ⟨173, rt.dumps (.obj [("file", .str file)])⟩ fields) :
    ∃ e c', (listenSave rt file).exec c = (.error e, c') := by
  unfold listenSave
  split
  · exact ⟨_, c, rfl⟩
  · exact command_raises "save" (by decide) hanswer

/-- The action `fetch` raises on an error answer. -/
theorem fetch_raises {c : SocketServerClient} {fields : List (String × Json)}
    (hanswer : AnswersObject rt c ⟨174, []⟩ fields) :
    ∃ e c', (listenFetch rt).exec c = (.error e, c') := by
  rw [listenFetch, Prog.exec_bind]
  rcases send_cases rt c 174 [] with ⟨-, e, c', hsend⟩ | ⟨s, ms, hs, hms, hsend, -⟩
  · rw [hsend]
    exact ⟨e, c', rfl⟩
  · obtain ⟨hquiet, hframed⟩ := hanswer s hs
    rw [hsend, Prog.follow_ok, Prog.exec_bind]
    have hex := recvN_exec (c := sent c s ms ⟨174, []⟩) rfl 8
    rw [show checkTimeout (1000 * (sent c s ms ⟨174, []⟩).timeout) = .ok ms from hms] at hex
    rcases hr : Wire.readExactly 65536 ms (8 : Int).toNat (8 : Int).toNat
        (Socket.deliver { s with timeout := ms } ⟨174, []⟩).wire with ⟨e | items, w⟩
    · simp only [hr] at hex
      rw [hex]
      exact ⟨_, _, rfl⟩
    · simp only [hr] at hex
      obtain ⟨hsplit, hlen, -⟩ := (Wire.reads_of_readExactly (by decide) hr).ok
      have hreply : items.map WireByte.value ++ w.contents.map WireByte.value =
          (s.endpoint s.requests ⟨174, []⟩).reply.contents := by
        rw [← deliver_values hquiet, ← List.map_append, ← hsplit]
        rfl
      have hbrace : (items.map WireByte.value).head? = some 0x7b := by
        have hb := hframed.brace (Or.inr rfl)
        rw [← hreply] at hb
        cases items with
        | nil => cases hlen
        | cons item items => exact hb
      rw [hex, Prog.follow_ok, if_pos hbrace]
      exact Prog.Raises.after (fun _ => Prog.Raises.after fun _ => Prog.raises_throw _) _

end McpSocketServer
