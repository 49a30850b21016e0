import McpSocketServer.Proofs.LengthPrefixed
import McpSocketServer.Target.FileSession

/-!
# Exchanges over a steady connection

What one send and one read do when the answers keep coming: the whole answer is read, and the
connection is left as it was, with one frame more sent. When the target has closed the
connection instead, the reads find nothing.
-/

namespace McpSocketServer

open SocketServerClient

variable {l : Link} {ms gap n : Nat} {b : Bytes} {c : SocketServerClient}

/-- `n` frames have been sent over the link, and of the last answer the bytes `b` are still to
be read. They arrive without a long pause. -/
structure Holds (l : Link) (ms gap n : Nat) (b : Bytes) (c : SocketServerClient) : Prop where
  timeout : checkTimeout (1000 * c.timeout) = .ok ms
  sock : ∃ s, c.sock = some s ∧ s.endpoint = l.endpoint ∧ s.requests = n ∧
    s.wire.contents.map WireByte.value = b ∧ Wire.Steady gap ms s.wire

/-- The target has closed the connection after `n` frames. -/
structure Hangs (ms n : Nat) (c : SocketServerClient) : Prop where
  timeout : checkTimeout (1000 * c.timeout) = .ok ms
  sock : ∃ s left, c.sock = some s ∧ s.requests = n ∧ s.wire = left ++ [.eof] ∧
    left.contents = [] ∧ Wire.Steady 0 0 left

/-- How many frames have been sent. -/
def SocketServerClient.sentFrames (c : SocketServerClient) : Nat := c.sock.elim 0 Socket.requests

theorem Holds.sentFrames (h : Holds l ms gap n b c) : c.sentFrames = n := by
  obtain ⟨-, s, hs, -, hn, -⟩ := h
  rw [SocketServerClient.sentFrames, hs]
  exact hn

theorem Hangs.sentFrames (h : Hangs ms n c) : c.sentFrames = n := by
  obtain ⟨-, s, left, hs, hn, -⟩ := h
  rw [SocketServerClient.sentFrames, hs]
  exact hn

/-- Longer pauses may be allowed for. -/
theorem Holds.mono (h : Holds l ms gap n b c) {gap' : Nat} (hgap : gap ≤ gap') :
    Holds l ms gap' n b c := by
  obtain ⟨hms, s, hs, hep, hn, hb, hsteady⟩ := h
  exact ⟨hms, s, hs, hep, hn, hb, hsteady.mono hgap (Nat.le_refl ms)⟩

/-- Once everything has been read the pauses do not matter. -/
theorem Holds.quiet (h : Holds l ms gap n [] c) (gap' : Nat) : Holds l ms gap' n [] c := by
  obtain ⟨hms, s, hs, hep, hn, hb, hsteady⟩ := h
  exact ⟨hms, s, hs, hep, hn, hb, hsteady.of_nil (List.map_eq_nil_iff.mp hb) gap' ms⟩

/-! ### Sending -/

/-- Where `m` sends a frame that leads to the exchange `e`, the answer is behind what has been
read before. -/
def Sends (l : Link) (ms n : Nat) (m : Client Unit) (c : SocketServerClient) (e : Exchange) :
    Prop :=
  e.fault = none → ∃ c' s left, m.exec c = (.ok (), c') ∧
    checkTimeout (1000 * c'.timeout) = .ok ms ∧ c'.sock = some s ∧ s.endpoint = l.endpoint ∧
    s.requests = n + 1 ∧ s.wire = left ++ Wire.mapItems (WireByte.mk n) e.reply ∧
    left.contents = [] ∧ Wire.Steady 0 0 left

theorem send_sends (hc : Holds l ms gap n [] c) (datatype : Nat) {payload : Bytes}
    (hlen : payload.length + 4 < 2 ^ 31) :
    Sends l ms n (send datatype payload) c (l n (Request.body ⟨datatype, payload⟩)) := by
  obtain ⟨hms, s, hs, hep, rfl, hb, hsteady⟩ := hc
  have hleft : s.wire.contents = [] := List.map_eq_nil_iff.mp hb
  intro hfault
  have hep' : s.endpoint s.requests ⟨datatype, payload⟩ =
      l s.requests (Request.body ⟨datatype, payload⟩) := by
    rw [hep]
    rfl
  have hex : (send datatype payload).exec c = (.ok (), { c with
      sock := some (Socket.deliver { s with timeout := ms } ⟨datatype, payload⟩) }) := by
    rw [send_exec hs, hms]
    simp only [if_neg (Nat.not_le.mpr hlen), hep', hfault]
  refine ⟨_, _, s.wire, hex, hms, rfl, hep, rfl, ?_, hleft, hsteady.of_nil hleft 0 0⟩
  rw [← hep']
  rfl

theorem sendRaw_exec {s : Socket} (hs : c.sock = some s)
    (hms : checkTimeout (1000 * c.timeout) = .ok ms) {msg : Bytes} (hlen : msg.length < 2 ^ 31)
    {e : Exchange} (hfault : e.fault = none) :
    (sendRaw msg e).exec c = (.ok (), { c with sock := some { s with
      timeout := ms
      wire := s.wire ++ Wire.mapItems (WireByte.mk s.requests) e.reply
      requests := s.requests + 1 } }) := by
  simp only [sendRaw, Prog.exec_bind, theSock_exec hs, settimeout_exec hs, Prog.exec_get,
    Prog.follow_ok, hms, if_neg (Nat.not_le.mpr hlen)]
  have hopen : theSock.exec { c with sock := some { s with timeout := ms } } =
      (.ok { s with timeout := ms }, { c with sock := some { s with timeout := ms } }) :=
    theSock_exec rfl
  rw [hopen]
  simp only [Prog.follow_ok, hfault]
  rfl

theorem sendRawOver_sends (hc : Holds l ms gap n [] c) {msg : Bytes}
    (hlen : msg.length < 2 ^ 31) : Sends l ms n (sendRawOver l msg) c (l n msg) := by
  obtain ⟨hms, s, hs, hep, rfl, hb, hsteady⟩ := hc
  have hleft : s.wire.contents = [] := List.map_eq_nil_iff.mp hb
  intro hfault
  have hex : (sendRawOver l msg).exec c = (sendRaw msg (l s.requests msg)).exec c := by
    rw [sendRawOver, Prog.exec_bind, theSock_exec hs, Prog.follow_ok]
  exact ⟨_, _, s.wire, hex.trans (sendRaw_exec hs hms hlen hfault), hms, rfl, hep, rfl, rfl,
    hleft, hsteady.of_nil hleft 0 0⟩

/-- The answer is on its way. -/
theorem Sends.holds {m : Client Unit} {w : Wire UInt8 PyErr}
    (h : Sends l ms n m c { reply := w }) (hw : Wire.Steady gap ms w) :
    ∃ c', m.exec c = (.ok (), c') ∧ Holds l ms gap (n + 1) w.contents c' := by
  obtain ⟨c', s, left, hex, hms, hs, hep, hn, hwire, hleft, hsteady⟩ := h rfl
  refine ⟨c', hex, hms, s, hs, hep, hn, ?_, ?_⟩
  · rw [hwire, Wire.contents_append, hleft, Wire.contents_mapItems, List.nil_append, values_map]
  · rw [hwire]
    exact (hsteady.of_nil hleft gap ms).append hleft (hw.mapItems (WireByte.mk n))

theorem Sends.hangs {m : Client Unit} (h : Sends l ms n m c { reply := [.eof] }) :
    ∃ c', m.exec c = (.ok (), c') ∧ Hangs ms (n + 1) c' := by
  obtain ⟨c', s, left, hex, hms, hs, hep, hn, hwire, hleft, hsteady⟩ := h rfl
  exact ⟨c', hex, hms, s, left, hs, hn, hwire, hleft, hsteady⟩

/-! ### Reading -/

/-- A read until silence reads the whole answer. -/
theorem recvUntilTimeout_holds (hc : Holds l ms gap n b c) (hms : 0 < ms) (hgap : 0 < gap) :
    ∃ c', (recvUntilTimeout gap).exec c = (.ok b, c') ∧ Holds l ms gap n [] c' := by
  obtain ⟨htimeout, s, hs, hep, hn, rfl, hsteady⟩ := hc
  rw [recvUntilTimeout_exec hs, htimeout]
  rcases hr : Wire.recv 65536 ms s.wire with ⟨e | chunk, w⟩
  · have hnil : w = [] := hsteady.recv_error hr
    have hcont : s.wire.contents = [] := by rw [← Wire.recv_error hr, hnil]; rfl
    have hend : e = .expired := (Wire.recv_error_ending hr).symm.trans hsteady.ending
    have hswallow : swallow ms e = .ok () := swallow_ok (Nat.ne_of_gt hms) (by simp [hend])
    subst hnil
    simp only [hr, hswallow, hcont]
    exact ⟨_, rfl, htimeout, _, rfl, hep, hn, rfl, trivial⟩
  · rcases hrest : Wire.readUntilSilence 65536 gap (w.contents.length + 1) w with
      ⟨⟨extra, e⟩, w'⟩
    have hsteady' : Wire.Steady gap gap w := hsteady.recv_ok hr
    have hnil : w' = [] := hsteady'.readUntilSilence (by decide) (Nat.lt_succ_self _) hrest
    obtain ⟨hextra, he⟩ := Wire.readUntilSilence_burst (by decide) (Nat.lt_succ_self _) hrest
    have hcont : s.wire.contents = chunk ++ extra := by
      rw [(Wire.recv_ok hr).1, hextra, hsteady'.drains]
    have hend : e = .expired := he.trans hsteady'.ending
    have hswallow : swallow gap e = .ok () := swallow_ok (Nat.ne_of_gt hgap) (by simp [hend])
    subst hnil
    simp only [hr, hrest, hswallow, hcont]
    exact ⟨_, rfl, htimeout, _, rfl, hep, hn, rfl, trivial⟩

/-- An exact read takes the beginning of the answer. -/
theorem recvN_holds {a rest : Bytes} (hc : Holds l ms ms n (a ++ rest) c) {k : Int}
    (hk : k.toNat = a.length) :
    ∃ c', (recvN k).exec c = (.ok a, c') ∧ Holds l ms ms n rest c' := by
  obtain ⟨htimeout, s, hs, hep, hn, hb, hsteady⟩ := hc
  rw [recvN_exec hs, htimeout]
  rcases hr : Wire.readExactly 65536 ms k.toNat k.toNat s.wire with ⟨e | items, w⟩
  · have hneed : k.toNat ≤ s.wire.contents.length := by
      have hlen := congrArg List.length hb
      rw [List.length_map, List.length_append] at hlen
      omega
    exact absurd hsteady.drains ((Wire.reads_of_readExactly (by decide) hr).not_error hneed)
  · have hreads := Wire.reads_of_readExactly (by decide) hr
    obtain ⟨hcont, hlen, -⟩ := hreads.ok
    rw [hcont, List.map_append] at hb
    obtain ⟨rfl, hrest⟩ := List.append_inj hb (by rw [List.length_map, hlen, hk])
    simp only [hr]
    exact ⟨_, rfl, htimeout, _, rfl, hep, hn, hrest, hreads.steady hsteady⟩

/-- The answer to a download. -/
theorem recvFileResponse_holds {rt : Runtime} {gzip : Bool} {body content : Bytes}
    (hc : Holds l ms ms n (packLE 8 body.length ++ body) c) (hlen : body.length < 2 ^ 64)
    (hcontent : (if gzip then rt.decompress body else .ok body) = .ok content) :
    ∃ c', (recvFileResponse rt gzip).exec c = (.ok (body.length, content), c') ∧
      Holds l ms ms n [] c' := by
  have hunpack : unpackLE (packLE 8 body.length) = body.length := unpackLE_packLE (by omega)
  obtain ⟨c₁, hhead, h₁⟩ := recvN_holds hc (k := 8) (packLE_length 8 body.length).symm
  rw [← List.append_nil body] at h₁
  obtain ⟨c₂, hbody, h₂⟩ := recvN_holds h₁ (k := (unpackLE (packLE 8 body.length) : Int)) (by
    rw [hunpack]
    rfl)
  refine ⟨c₂, ?_, h₂⟩
  rw [recvFileResponse, Prog.exec_bind, hhead, Prog.follow_ok, Prog.exec_bind, hbody,
    Prog.follow_ok, hunpack]
  cases gzip with
  | false =>
      obtain rfl := Except.ok.inj hcontent
      rfl
  | true =>
      have hcontent' : rt.decompress body = .ok content := hcontent
      rw [if_pos rfl, Prog.exec_bind, Prog.exec_ofExcept, hcontent', Prog.follow_ok]
      rfl

/-- The answer of a JSON request. -/
theorem recvJson_holds {rt : Runtime} {j : Json} (hc : Holds l ms gap n b c) (hms : 0 < ms)
    (hgap : gap ≤ 500) (hj : rt.loads (rt.decode b) = .ok j) :
    ∃ c', (recvJson rt).exec c = (.ok j, c') ∧ Holds l ms 500 n [] c' := by
  obtain ⟨c', hex, hc'⟩ := recvUntilTimeout_holds (hc.mono hgap) hms (by decide)
  refine ⟨c', ?_, hc'⟩
  rw [recvJson, recvTextResponse, Prog.exec_bind, hex, Prog.follow_ok, Prog.exec_ofExcept, hj]

/-- A closed connection has no text to read. -/
theorem recvUntilTimeout_hangs (hc : Hangs ms n c) (gap : Nat) :
    ∃ c', (recvUntilTimeout gap).exec c = (.ok [], c') ∧ c'.sentFrames = n := by
  obtain ⟨htimeout, s, left, hs, hn, hwire, hleft, hsteady⟩ := hc
  obtain ⟨hburst, hend⟩ := (hsteady.of_nil hleft gap ms).skip hleft gap [.eof]
  obtain ⟨w, -, hex⟩ := recvUntilTimeout_spec hs gap htimeout
  rw [← hwire] at hburst hend
  have hburst' : s.wire.burst gap ms = [] := hburst
  have hend' : s.wire.ending gap ms = .closed := hend
  rw [hburst', hend'] at hex
  exact ⟨_, hex, hn⟩

/-- Nor any bytes. -/
theorem recvN_hangs (hc : Hangs ms n c) {k : Int} (hk : 0 < k.toNat) :
    ∃ c', (recvN k).exec c = (.error ⟨.connectionError, "连接在读取完成前关闭"⟩, c') ∧
      c'.sentFrames = n := by
  obtain ⟨htimeout, s, left, hs, hn, hwire, hleft, hsteady⟩ := hc
  obtain ⟨hburst, hend⟩ := (hsteady.of_nil hleft ms ms).skip hleft ms [.eof]
  rw [← hwire] at hburst hend
  have hburst' : s.wire.burst ms ms = [] := hburst
  have hend' : s.wire.ending ms ms = .closed := hend
  obtain ⟨k', hk'⟩ : ∃ k', k.toNat = k' + 1 := ⟨k.toNat - 1, by omega⟩
  rw [recvN_exec hs, htimeout, hk']
  rcases hr : Wire.recv (min 65536 (k' + 1)) ms s.wire with ⟨e | items, w⟩
  · have he : e = .closed := (Wire.recv_error_ending hr).symm.trans hend'
    simp only [Wire.readExactly, hr, he]
    exact ⟨_, rfl, hn⟩
  · have hnil : s.wire.burst ms ms = items ++ w.burst ms ms := Wire.recv_ok_burst hr
    rw [hburst'] at hnil
    exact absurd (List.append_eq_nil_iff.mp hnil.symm).1 ((Wire.recv_ok hr).2.2 (by omega))

end McpSocketServer
