import McpSocketServer.Proofs.AnswerReads

/-!
# Length-prefixed answers

What the readers of length-prefixed answers make of a stream depends on the bytes that arrive,
not on how they are cut into segments. A whole frame is decoded, and what follows it stays on
the wire. From a stream that ends within the frame, or whose signed prefix announces no byte,
the readers of JSON return nothing.
-/

namespace McpSocketServer

open SocketServerClient

/-- All bytes on the wire. -/
def SocketServerClient.unread (c : SocketServerClient) : Bytes :=
  c.sock.elim [] fun s => s.wire.contents.map WireByte.value

/-- The bytes that arrive next: before the stream ends, fails, or is silent for longer than the
timeout. -/
def Arriving (b : Bytes) (c : SocketServerClient) : Prop :=
  ∃ s ms, c.sock = some s ∧ checkTimeout (1000 * c.timeout) = .ok ms ∧
    (s.wire.burst ms ms).map WireByte.value = b

/-- From `c` to `c'` the bytes `a` have been read; `rest` arrives next. -/
structure Took (a rest : Bytes) (c c' : SocketServerClient) : Prop where
  arriving : Arriving rest c'
  unread : c.unread = a ++ c'.unread

theorem Took.trans {a b rest : Bytes} {c c₁ c₂ : SocketServerClient}
    (h₁ : Took a (b ++ rest) c c₁) (h₂ : Took b rest c₁ c₂) : Took (a ++ b) rest c c₂ :=
  ⟨h₂.arriving, by rw [h₁.unread, h₂.unread, List.append_assoc]⟩

/-! ### Exact reads -/

/-- An exact read takes its bytes from those that arrive, unless these are too few. -/
theorem recvN_arriving {b : Bytes} {c : SocketServerClient} (hc : Arriving b c) (n : Int) :
    match (recvN n).exec c with
    | (.ok a, c') => ∃ rest, b = a ++ rest ∧ a.length = n.toNat ∧ Took a rest c c'
    | (.error _, _) => b.length < n.toNat := by
  obtain ⟨s, ms, hs, hms, rfl⟩ := hc
  rw [recvN_exec hs, hms]
  rcases hr : Wire.readExactly 65536 ms n.toNat n.toNat s.wire with ⟨e | items, w⟩
  · simp only [hr, List.length_map]
    exact (Wire.reads_of_readExactly (by decide) hr).error
  · obtain ⟨hcont, hlen, hburst⟩ := (Wire.reads_of_readExactly (by decide) hr).ok
    simp only [hr]
    refine ⟨(w.burst ms ms).map WireByte.value, ?_, ?_, ⟨_, ms, rfl, hms, rfl⟩, ?_⟩
    · rw [hburst, List.map_append]
    · rw [List.length_map, hlen]
    · simp only [SocketServerClient.unread, hs, Option.elim_some]
      rw [hcont, List.map_append]

/-- The bytes are there. -/
theorem recvN_took {a rest : Bytes} {c : SocketServerClient} (hc : Arriving (a ++ rest) c)
    {n : Int} (hn : n.toNat = a.length) :
    ∃ c', (recvN n).exec c = (.ok a, c') ∧ Took a rest c c' := by
  have h := recvN_arriving hc n
  rcases hr : (recvN n).exec c with ⟨e | a', c'⟩ <;> rw [hr] at h
  · have hlt : (a ++ rest).length < n.toNat := h
    rw [List.length_append] at hlt
    omega
  · obtain ⟨rest', happ, hlen, htook⟩ := h
    obtain ⟨rfl, rfl⟩ := List.append_inj happ (by omega)
    exact ⟨c', rfl, htook⟩

/-- A length and as many bytes are read together. -/
theorem recvPrefixed_took {α : Type} {head body rest : Bytes} {c : SocketServerClient}
    (hc : Arriving (head ++ (body ++ rest)) c) {n : Int} (hn : n.toNat = head.length)
    (k : Bytes → Int) (hk : (k head).toNat = body.length) (f : Bytes → Bytes → Client α) :
    ∃ c', (recvN n >>= fun a => recvN (k a) >>= f a).exec c = (f head body).exec c' ∧
      Took (head ++ body) rest c c' := by
  obtain ⟨c₁, hhead, htook₁⟩ := recvN_took hc hn
  obtain ⟨c₂, hbody, htook₂⟩ := recvN_took htook₁.arriving hk
  refine ⟨c₂, ?_, htook₁.trans htook₂⟩
  rw [Prog.exec_bind, hhead, Prog.follow_ok, Prog.exec_bind, hbody, Prog.follow_ok]

/-- The loop of an exact read comes to an end, and the read returns what the loop does. -/
theorem recvN_ends {c : SocketServerClient} {s : Socket} (hs : c.sock = some s) {ms : Nat}
    (hms : checkTimeout (1000 * c.timeout) = .ok ms) (n : Int) :
    ∃ r w, Wire.ReadsExactly 65536 ms n.toNat s.wire r w ∧
      ((recvN n).exec c).1 = (r.map (List.map WireByte.value)).mapError (endingError ms) := by
  refine ⟨_, _, Wire.readsExactly (by omega) (Nat.le_refl _) s.wire, ?_⟩
  rw [recvN_exec hs, hms]
  rcases hr : Wire.readExactly 65536 ms n.toNat n.toNat s.wire with ⟨e | items, w⟩ <;>
  · simp only [hr]
    rfl

/-! ### Whole frames -/

/-- From every stream that begins with the frame the reader returns `a`, takes the frame and
leaves what follows. -/
def Decodes {α : Type} (m : Client α) (frame : Bytes) (a : α) : Prop :=
  ∀ c rest, Arriving (frame ++ rest) c → ∃ c', m.exec c = (.ok a, c') ∧ Took frame rest c c'

theorem decodes_of_pure {α : Type} {head body : Bytes} {n : Int} (hn : n.toNat = head.length)
    (k : Bytes → Int) (hk : (k head).toNat = body.length) {f : Bytes → Bytes → Client α} {a : α}
    (hf : ∀ c, (f head body).exec c = (.ok a, c)) :
    Decodes (recvN n >>= fun a => recvN (k a) >>= f a) (head ++ body) a := by
  intro c rest hc
  rw [List.append_assoc] at hc
  obtain ⟨c', hex, htook⟩ := recvPrefixed_took hc hn k hk f
  exact ⟨c', hex.trans (hf c'), htook⟩

variable {rt : Runtime}

theorem lenprefixed_decodes {body : Bytes} (hlen : body.length < 2 ^ 31) {j : Json}
    (hj : rt.loads (rt.decode body) = .ok j) :
    Decodes (recvLenprefixedJson rt) (packLE 4 body.length ++ body) j := by
  refine decodes_of_pure (by rw [packLE_length]; rfl) unpackInt ?_ fun c => ?_
  · rw [unpackInt_packLE hlen]
    rfl
  · rw [Prog.exec_ofExcept, hj]

theorem gzip_decodes {gz text : Bytes} (hlen : gz.length < 2 ^ 31)
    (htext : rt.decompress gz = .ok text) {j : Json} (hj : rt.loadsBytes text = .ok j) :
    Decodes (recvGzipResponse rt) (packLE 4 gz.length ++ gz) j := by
  refine decodes_of_pure (by rw [packLE_length]; rfl) unpackInt ?_ fun c => ?_
  · rw [unpackInt_packLE hlen]
    rfl
  · rw [Prog.exec_bind, Prog.exec_ofExcept, htext, Prog.follow_ok, Prog.exec_ofExcept, hj]

theorem file_decodes {body : Bytes} (hlen : body.length < 2 ^ 64) :
    Decodes (recvFileResponse rt false) (packLE 8 body.length ++ body) (body.length, body) := by
  have hunpack : unpackLE (packLE 8 body.length) = body.length := unpackLE_packLE (by omega)
  refine decodes_of_pure (by rw [packLE_length]; rfl) (fun b => (unpackLE b : Int)) ?_ fun c => ?_
  · rw [hunpack]
    rfl
  · rw [hunpack]
    rfl

theorem gzipFile_decodes {gz content : Bytes} (hlen : gz.length < 2 ^ 64)
    (hcontent : rt.decompress gz = .ok content) :
    Decodes (recvFileResponse rt true) (packLE 8 gz.length ++ gz) (gz.length, content) := by
  have hunpack : unpackLE (packLE 8 gz.length) = gz.length := unpackLE_packLE (by omega)
  refine decodes_of_pure (by rw [packLE_length]; rfl) (fun b => (unpackLE b : Int)) ?_ fun c => ?_
  · rw [hunpack]
    rfl
  · rw [hunpack, if_pos rfl, Prog.exec_bind, Prog.exec_ofExcept, hcontent]
    rfl

/-! ### Broken frames -/

/-- The bytes end within the prefix or within the body, or the prefix announces no byte. -/
def Malformed (b : Bytes) : Prop :=
  b.length < 4 ∨ (b.length : Int) < 4 + unpackInt (b.take 4) ∨ unpackInt (b.take 4) ≤ 0

/-- The reader returns nothing from a stream without a whole frame. -/
def Rejects {α : Type} (m : Client α) : Prop :=
  ∀ b c, Arriving b c → Malformed b → ∃ e c', m.exec c = (.error e, c')

/-- A reader that returns nothing without a body rejects broken frames. -/
theorem rejects_of_empty {α : Type} {f : Bytes → Client α}
    (hf : ∀ c, ∃ e c', (f []).exec c = (.error e, c')) :
    Rejects (recvN 4 >>= fun n => recvN (unpackInt n) >>= f) := by
  intro b c hc hbroken
  have hhead := recvN_arriving hc 4
  rcases hr : (recvN 4).exec c with ⟨e | head, c₁⟩ <;> rw [hr] at hhead
  · exact ⟨e, c₁, by rw [Prog.exec_bind, hr, Prog.follow_error]⟩
  · obtain ⟨rest, rfl, hlen, htook⟩ := hhead
    have htake : (head ++ rest).take 4 = head := List.take_left' hlen
    have hbody := recvN_arriving htook.arriving (unpackInt head)
    rw [Prog.exec_bind, hr, Prog.follow_ok]
    rcases hr₁ : (recvN (unpackInt head)).exec c₁ with ⟨e | body, c₂⟩ <;> rw [hr₁] at hbody
    · exact ⟨e, c₂, by rw [Prog.exec_bind, hr₁, Prog.follow_error]⟩
    · obtain ⟨rest', rfl, hlen', -⟩ := hbody
      -- the body was there, so the prefix announced none
      have hempty : body = [] := by
        rw [Malformed, htake, List.length_append, List.length_append, hlen] at hbroken
        apply List.eq_nil_of_length_eq_zero
        omega
      rw [Prog.exec_bind, hr₁, Prog.follow_ok, hempty]
      exact hf c₂

theorem lenprefixed_rejects (hempty : ∀ j, rt.loads (rt.decode []) ≠ .ok j) :
    Rejects (recvLenprefixedJson rt) := by
  apply rejects_of_empty
  intro c
  rw [Prog.exec_ofExcept]
  cases hj : rt.loads (rt.decode []) with
  | error e => exact ⟨e, c, rfl⟩
  | ok j => exact absurd hj (hempty j)

theorem gzip_rejects (hgzip : ∀ b, rt.decompress [] = .ok b → b = [])
    (hempty : ∀ j, rt.loadsBytes [] ≠ .ok j) : Rejects (recvGzipResponse rt) := by
  apply rejects_of_empty
  intro c
  rw [Prog.exec_bind, Prog.exec_ofExcept]
  cases hb : rt.decompress [] with
  | error e => exact ⟨e, c, rfl⟩
  | ok b =>
      rw [Prog.follow_ok, Prog.exec_ofExcept, hgzip b hb]
      cases hj : rt.loadsBytes [] with
      | error e => exact ⟨e, c, rfl⟩
      | ok j => exact absurd hj (hempty j)

/-! ### The readers -/

/-- Every reader decodes its frames from any stream and leaves what follows, the readers of
JSON reject broken frames, and the loop under all of them comes to an end. -/
theorem length_prefixed_decoding (hempty : ∀ j, rt.loads (rt.decode []) ≠ .ok j)
    (hbytes : ∀ j, rt.loadsBytes [] ≠ .ok j) (hgzip : ∀ b, rt.decompress [] = .ok b → b = []) :
    (∀ body j, body.length < 2 ^ 31 → rt.loads (rt.decode body) = .ok j →
      Decodes (recvLenprefixedJson rt) (packLE 4 body.length ++ body) j) ∧
    (∀ gz text j, gz.length < 2 ^ 31 → rt.decompress gz = .ok text → rt.loadsBytes text = .ok j →
      Decodes (recvGzipResponse rt) (packLE 4 gz.length ++ gz) j) ∧
    (∀ body, body.length < 2 ^ 64 →
      Decodes (recvFileResponse rt false) (packLE 8 body.length ++ body) (body.length, body)) ∧
    (∀ gz content, gz.length < 2 ^ 64 → rt.decompress gz = .ok content →
      Decodes (recvFileResponse rt true) (packLE 8 gz.length ++ gz) (gz.length, content)) ∧
    Rejects (recvLenprefixedJson rt) ∧ Rejects (recvGzipResponse rt) ∧
    ∀ (c : SocketServerClient) s ms n, c.sock = some s →
      checkTimeout (1000 * c.timeout) = .ok ms →
      ∃ r w, Wire.ReadsExactly 65536 ms n.toNat s.wire r w ∧
        ((recvN n).exec c).1 = (r.map (List.map WireByte.value)).mapError (endingError ms) :=
  ⟨fun _ _ hlen hj => lenprefixed_decodes hlen hj,
    fun _ _ _ hlen htext hj => gzip_decodes hlen htext hj,
    fun _ hlen => file_decodes hlen,
    fun _ _ hlen hcontent => gzipFile_decodes hlen hcontent,
    lenprefixed_rejects hempty, gzip_rejects hgzip hbytes,
    fun _ _ _ n hs hms => recvN_ends hs hms n⟩

/-- `gzip.compress(b"7", mtime=0)`. -/
def gzipSeven : Bytes :=
  [31, 139, 8, 0, 0, 0, 0, 0, 2, 3, 51, 7, 0, 130, 74, 191, 106, 1, 0, 0, 0]

/-- The codecs on the text `7`. -/
def sevenRuntime : Runtime :=
  { tableRuntime [("7", .int 7)] "" with
    decompress := fun b =>
      if b = [] then .ok []
      else if b = gzipSeven then .ok [55]
      else .error ⟨.osError, "Not a gzipped file"⟩ }

/-- The frame of `7` comes in three segments, the last of which holds another byte. -/
def splitClient : SocketServerClient where
  host := "10.0.0.1"
  port := 9000
  timeout := 10
  sock := some
    { timeout := 500
      endpoint := fun _ _ => {}
      wire := [.data [⟨0, 1⟩, ⟨0, 0⟩], .silence 700, .data [⟨0, 0⟩, ⟨0, 0⟩],
        .data [⟨0, 55⟩, ⟨0, 111⟩]]
      requests := 1 }

theorem length_prefixed_decoding_witness :
    (∃ c', (recvLenprefixedJson sevenRuntime).exec splitClient = (.ok (.int 7), c') ∧
      Took [1, 0, 0, 0, 55] [111] splitClient c') ∧
    Decodes (recvGzipResponse sevenRuntime) (packLE 4 21 ++ gzipSeven) (.int 7) ∧
    Rejects (recvGzipResponse sevenRuntime) := by
  have hempty : ∀ j, sevenRuntime.loads (sevenRuntime.decode []) ≠ .ok j := by
    intro j hj
    cases hj
  have hbytes : ∀ j, sevenRuntime.loadsBytes [] ≠ .ok j := by
    intro j hj
    cases hj
  have hgzip : ∀ b, sevenRuntime.decompress [] = .ok b → b = [] := by
    intro b hb
    exact (Except.ok.inj hb).symm
  obtain ⟨hjson, hgz, -, -, -, hrejects, -⟩ :=
    length_prefixed_decoding hempty hbytes hgzip
  refine ⟨?_, hgz gzipSeven [55] (.int 7) (by decide) rfl rfl, hrejects⟩
  exact hjson [55] (.int 7) (by decide) rfl splitClient [111] ⟨_, 10000, rfl, rfl, rfl⟩

end McpSocketServer
