import McpSocketServer.Proofs.SteadyExchanges
import McpSocketServer.Proofs.Uploads

/-!
# File sessions store and return files

A client and a target that are joined by a transport which cuts no length prefix and pauses for
no answer behave, over any sequence of uploads, downloads and questions on one connection, as a
map from paths to contents.
-/

namespace McpSocketServer

open Framing SocketServerClient Connection

/-- The transport loses nothing, the first chunk of a frame holds its length, and the answers keep
coming. -/
structure Transport.Sound (net : Transport) (ms : Nat) : Prop where
  cut : ∀ n frame, 4 ≤ frame.length → ∃ first rest, net.cut n frame = first :: rest ∧
    4 ≤ first.length ∧ (∀ chunk ∈ rest, chunk ≠ []) ∧ first ++ rest.flatten = frame
  pace : ∀ n b, (net.pace n b).contents = b ∧ Wire.Steady 300 ms (net.pace n b)

variable {σ : Type} {rt : TargetRuntime} {onData : OnData σ} {net : Transport} {ms : Nat}

/-! ### One frame at the target -/

theorem arrive_eq (hnet : net.Sound ms) {body : Bytes} (hbody : body.length < 2 ^ 31) (n : Nat)
    (t : Connection σ) :
    arrive rt onData net n t body =
      match turn rt onData t body with
      | (t', true) => (t', some {})
      | (t', false) => (t', none) := by
  have hfits := wireFraming_fits hbody
  have hlen : 4 ≤ (wireFraming.encode body).length := by
    rw [encode, List.length_append, hfits.length_pack]
    exact Nat.le_add_right 4 body.length
  obtain ⟨first, rest, hcut, hfirst, hrest, hframe⟩ := hnet.cut n _ hlen
  have hdeframe := wireFraming.deframe_frame hfits hfirst hrest hframe []
  rw [List.append_nil] at hdeframe
  rw [arrive, Connection.handle, hcut, consume_eq, hdeframe]
  simp only [handleAll, deframe]
  rcases turn rt onData t body with ⟨t', _ | _⟩ <;> rfl

theorem afterFrames_append (n : Nat) (t : Connection σ) (xs ys : List Bytes) :
    afterFrames rt onData net n t (xs ++ ys) =
      afterFrames rt onData net (n + xs.length) (afterFrames rt onData net n t xs) ys := by
  induction xs generalizing n t with
  | nil => rfl
  | cons x xs ih =>
      rw [List.cons_append, afterFrames, ih, afterFrames, List.length_cons, Nat.add_right_comm n 1,
        Nat.add_assoc n]

/-! ### One frame over the link -/

variable {t₀ : Connection σ} {all : List Bytes} {n : Nat} {t : Connection σ}
  {body : Bytes} {rest : List Bytes} {c : SocketServerClient}

/-- The client has sent the first `n` of the frames `all` and read the answers to them, and the
target has come to `t` by them; `rest` is still to be sent. -/
structure Linked (rt : TargetRuntime) (onData : OnData σ) (net : Transport) (ms : Nat)
    (t₀ : Connection σ) (all : List Bytes) (n : Nat) (t : Connection σ) (rest : List Bytes)
    (c : SocketServerClient) : Prop where
  client : Holds (link rt onData net t₀ all) ms 300 n [] c
  target : afterFrames rt onData net 0 t₀ (all.take n) = t
  rest : all.drop n = rest

/-- The target has come to `t` by the frames that the client has sent. -/
def Stopped (rt : TargetRuntime) (onData : OnData σ) (net : Transport) (t₀ : Connection σ)
    (all : List Bytes) (t : Connection σ) (c : SocketServerClient) : Prop :=
  afterFrames rt onData net 0 t₀ (all.take c.sentFrames) = t

namespace Linked

theorem link_eq (h : Linked rt onData net ms t₀ all n t rest c) (body : Bytes) :
    link rt onData net t₀ all n body = respond rt onData net n t body := by
  rw [link, h.target]

theorem target_next (h : Linked rt onData net ms t₀ all n t (body :: rest) c)
    (hnet : net.Sound ms) (hbody : body.length < 2 ^ 31) :
    afterFrames rt onData net 0 t₀ (all.take (n + 1)) = (turn rt onData t body).1 := by
  have hlt : n < all.length := by
    have hlen := congrArg List.length h.rest
    rw [List.length_drop, List.length_cons] at hlen
    omega
  have htake : all.take (n + 1) = all.take n ++ [body] := by
    have hdrop := List.drop_eq_getElem_cons hlt
    rw [h.rest] at hdrop
    rw [List.take_succ_eq_append_getElem hlt, (List.cons.inj hdrop).1]
  have hlen : (all.take n).length = n := List.length_take_of_le (Nat.le_of_lt hlt)
  rw [htake, afterFrames_append, h.target, hlen, Nat.zero_add]
  simp only [afterFrames]
  rw [arrive_eq hnet hbody]
  rcases turn rt onData t body with ⟨t', _ | _⟩ <;> rfl

theorem rest_next (h : Linked rt onData net ms t₀ all n t (body :: rest) c) :
    all.drop (n + 1) = rest := by
  rw [← List.drop_drop, h.rest]
  rfl

/-- An answered frame: the client holds the answer, the target has taken its turn. -/
theorem answered (h : Linked rt onData net ms t₀ all n t (body :: rest) c) (hnet : net.Sound ms)
    (hbody : body.length < 2 ^ 31) {m : Client Unit}
    (hm : Sends (link rt onData net t₀ all) ms n m c (link rt onData net t₀ all n body))
    {t' : Connection σ} {b : Bytes} (hframe : onFrame rt onData t body = (t', .answers b))
    (hsent : t'.sent = t.sent) :
    ∃ c' t'', m.exec c = (.ok (), c') ∧
      Holds (link rt onData net t₀ all) ms 300 (n + 1) b c' ∧
      t''.handler = t'.handler ∧ t''.disk = t'.disk ∧
      ∀ c'', Holds (link rt onData net t₀ all) ms 300 (n + 1) [] c'' →
        Linked rt onData net ms t₀ all (n + 1) t'' rest c'' := by
  have hturn : turn rt onData t body = ({ t' with sent := t.sent ++ [b] }, true) := by
    rw [turn, hframe, ← hsent]
  have hreply : link rt onData net t₀ all n body = { reply := net.pace n b } := by
    rw [h.link_eq, respond, arrive_eq hnet hbody, hturn]
    simp
  rw [hreply] at hm
  obtain ⟨hcont, hsteady⟩ := hnet.pace n b
  obtain ⟨c', hex, hholds⟩ := hm.holds hsteady
  rw [hcont] at hholds
  refine ⟨c', { t' with sent := t.sent ++ [b] }, hex, hholds, rfl, rfl,
    fun c'' hc'' => ⟨hc'', ?_, h.rest_next⟩⟩
  rw [h.target_next hnet hbody, hturn]

/-- A frame that makes the target close the connection. -/
theorem closed (h : Linked rt onData net ms t₀ all n t (body :: rest) c) (hnet : net.Sound ms)
    (hbody : body.length < 2 ^ 31) {m : Client Unit}
    (hm : Sends (link rt onData net t₀ all) ms n m c (link rt onData net t₀ all n body))
    {t' : Connection σ} (hframe : onFrame rt onData t body = (t', .closes)) :
    ∃ c', m.exec c = (.ok (), c') ∧ Hangs ms (n + 1) c' ∧
      ∀ c'', c''.sentFrames = n + 1 → Stopped rt onData net t₀ all t' c'' := by
  have hturn : turn rt onData t body = (t', false) := by rw [turn, hframe]
  have hreply : link rt onData net t₀ all n body = { reply := [.eof] } := by
    rw [h.link_eq, respond, arrive_eq hnet hbody, hturn]
  rw [hreply] at hm
  obtain ⟨c', hex, hhangs⟩ := hm.hangs
  refine ⟨c', hex, hhangs, fun c'' hc'' => ?_⟩
  rw [Stopped, hc'', h.target_next hnet hbody, hturn]

end Linked

/-! ### The frames of the operations -/

/-- The requests of an operation fit into frames, and the codecs read back what they write. -/
structure FileOp.Coded (rt : TargetRuntime) (op : FileOp) : Prop where
  fits : ∀ body ∈ op.frames rt, body.length < 2 ^ 31
  target : ∀ path gzip, (∃ content, op = .upload path gzip content) ∨ op = .download path gzip →
    rt.loadsBytes (rt.dumps (targetParams path gzip)) = .ok (targetParams path gzip)
  flag : ∀ path gzip, op = .download path gzip →
    rt.loadsBytes (rt.dumps (.obj [("gzip", .bool gzip)])) = .ok (.obj [("gzip", .bool gzip)])
  probe : ∀ path, op = .isfile path →
    rt.loadsBytes (rt.dumps (.obj [("file", .str path)])) = .ok (.obj [("file", .str path)])

/-- The answers are read back, and so is what is compressed. -/
structure AnswersCoded (rt : TargetRuntime) : Prop where
  found : ∀ b, rt.loads (rt.decode (rt.dumps (.obj [("res", .bool b)]))) =
    .ok (.obj [("res", .bool b)])
  gzip : ∀ b, rt.decompress (rt.compress b) = .ok b

theorem onFrame_request (hbin : t.handler.binRecvFlag = false) {datatype : Nat}
    (hdatatype : datatype < 2 ^ 31) (payload : Bytes) :
    onFrame rt onData t (Request.body ⟨datatype, payload⟩) =
      onDatatype rt onData t datatype payload := by
  have htake : (Request.body ⟨datatype, payload⟩).take 4 = packLE 4 datatype :=
    List.take_left' (packLE_length 4 datatype)
  have hdrop : (Request.body ⟨datatype, payload⟩).drop 4 = payload :=
    List.drop_left' (packLE_length 4 datatype)
  have hlen : ¬(Request.body ⟨datatype, payload⟩).length < 4 := by
    rw [Request.body, List.length_append, packLE_length]
    omega
  rw [onFrame, if_neg (by rw [hbin]; decide), if_neg hlen, htake, hdrop,
    unpackInt_packLE hdatatype]

theorem onFrame_target (hbin : t.handler.binRecvFlag = false) {path : String} {gzip : Bool}
    (hcodec : rt.loadsBytes (rt.dumps (targetParams path gzip)) =
      .ok (targetParams path gzip)) :
    onFrame rt onData t (Request.body ⟨21, rt.dumps (targetParams path gzip)⟩) =
      ({ t with handler :=
          { t.handler with filepath := .str path, gzip := .bool gzip } },
        .answers (asciiBytes "21 ok")) := by
  rw [onFrame_request hbin (by decide), onDatatype, if_pos (by decide), onPath, hcodec]
  rfl

theorem onFrame_length (hbin : t.handler.binRecvFlag = false) {len : Nat} (hlen : len < 2 ^ 64) :
    onFrame rt onData t (Request.body ⟨22, packLE 8 len⟩) =
      ({ t with handler :=
          { t.handler with length := len, content := [], binRecvFlag := true } },
        .answers (asciiBytes "22 ok")) := by
  have hunpack : unpackLE (packLE 8 len) = len := unpackLE_packLE (by omega)
  rw [onFrame_request hbin (by decide), onDatatype, if_neg (by decide), if_pos (by decide), onLength,
    if_pos (packLE_length 8 len), hunpack]
  rfl

theorem onFrame_content (hbin : t.handler.binRecvFlag = true) (hempty : t.handler.content = [])
    (hlen : t.handler.length = body.length) :
    onFrame rt onData t body =
      ({ t with handler := { t.handler with content := body, binRecvFlag := false } },
        .answers (asciiBytes "23 ok")) := by
  rw [onFrame, if_pos hbin, onContent, hempty, List.nil_append, if_pos hlen.symm]
  rfl

theorem onFrame_write (hbin : t.handler.binRecvFlag = false) :
    onFrame rt onData t (Request.body ⟨24, []⟩) = onWrite rt t := by
  rw [onFrame_request hbin (by decide), onDatatype, if_neg (by decide), if_neg (by decide),
    if_neg (by decide), if_pos (by decide)]

theorem onWrite_none {content : Bytes} (hreceived : received rt t.handler = .ok content)
    (hwrite : t.disk.write t.handler.filepath content = none) :
    onWrite rt t = (t, .closes) := by
  simp only [onWrite, hreceived, hwrite]

theorem onWrite_some {content : Bytes} {disk : Disk}
    (hreceived : received rt t.handler = .ok content)
    (hwrite : t.disk.write t.handler.filepath content = some disk) :
    onWrite rt t = ({ t with disk := disk, handler := { t.handler with content := [] } },
      .answers (asciiBytes "24 ok")) := by
  simp only [onWrite, hreceived, hwrite]
  rfl

theorem onFrame_files (hbin : t.handler.binRecvFlag = false) {datatype : Nat}
    (hdatatype : datatype = 3 ∨ datatype = 7) (payload : Bytes) :
    onFrame rt onData t (Request.body ⟨datatype, payload⟩) =
      (t, .ofAnswer (onFiles rt t datatype payload)) := by
  rcases hdatatype with rfl | rfl <;>
    rw [onFrame_request hbin (by decide), onDatatype, if_neg (by decide), if_neg (by decide),
      if_neg (by decide), if_neg (by decide), if_pos (by decide)]

/-! ### Acknowledged frames -/

namespace Linked

variable {m : Client Unit} {t' : Connection σ} {text : String}

/-- An acknowledged frame. -/
theorem ack (h : Linked rt onData net ms t₀ all n t (body :: rest) c) (hnet : net.Sound ms)
    (hms : 0 < ms) (hbody : body.length < 2 ^ 31)
    (hm : Sends (link rt onData net t₀ all) ms n m c (link rt onData net t₀ all n body))
    (hframe : onFrame rt onData t body = (t', .answers (asciiBytes text)))
    (hsent : t'.sent = t.sent) :
    ∃ c' t'', (m >>= fun _ => expectAck text).exec c = (.ok (), c') ∧
      Linked rt onData net ms t₀ all (n + 1) t'' rest c' ∧
      t''.handler = t'.handler ∧ t''.disk = t'.disk := by
  obtain ⟨c₁, t'', hex₁, hholds, hhandler, hdisk, hnext⟩ :=
    h.answered hnet hbody hm hframe hsent
  obtain ⟨c₂, hex₂, hquiet⟩ := recvUntilTimeout_holds hholds hms (by decide)
  refine ⟨c₂, t'', ?_, hnext c₂ hquiet, hhandler, hdisk⟩
  rw [Prog.exec_bind, hex₁, Prog.follow_ok, expectAck, recvInlineText, Prog.exec_bind, hex₂,
    Prog.follow_ok, if_pos rfl]
  rfl

theorem ack_then {α : Type} (f : Client α)
    (h : Linked rt onData net ms t₀ all n t (body :: rest) c) (hnet : net.Sound ms)
    (hms : 0 < ms) (hbody : body.length < 2 ^ 31)
    (hm : Sends (link rt onData net t₀ all) ms n m c (link rt onData net t₀ all n body))
    (hframe : onFrame rt onData t body = (t', .answers (asciiBytes text)))
    (hsent : t'.sent = t.sent) :
    ∃ c' t'', (m >>= fun _ => expectAck text >>= fun _ => f).exec c = f.exec c' ∧
      Linked rt onData net ms t₀ all (n + 1) t'' rest c' ∧
      t''.handler = t'.handler ∧ t''.disk = t'.disk := by
  obtain ⟨c', t'', hex, hlinked⟩ := h.ack hnet hms hbody hm hframe hsent
  refine ⟨c', t'', ?_, hlinked⟩
  rw [Prog.exec_bind_bind m (fun _ => expectAck text) fun _ => f, hex, Prog.follow_ok]

/-- The frame closed the connection, so the acknowledgement does not come. -/
theorem ack_closed (h : Linked rt onData net ms t₀ all n t (body :: rest) c)
    (hnet : net.Sound ms) (hbody : body.length < 2 ^ 31)
    (hm : Sends (link rt onData net t₀ all) ms n m c (link rt onData net t₀ all n body))
    (hframe : onFrame rt onData t body = (t', .closes)) (htext : asciiBytes text ≠ []) :
    ∃ c', (m >>= fun _ => expectAck text).exec c = (.error ⟨.assertionError, ""⟩, c') ∧
      Stopped rt onData net t₀ all t' c' := by
  obtain ⟨c₁, hex₁, hhangs, hstop⟩ := h.closed hnet hbody hm hframe
  obtain ⟨c₂, hex₂, hsent⟩ := recvUntilTimeout_hangs hhangs 300
  refine ⟨c₂, ?_, hstop c₂ hsent⟩
  rw [Prog.exec_bind, hex₁, Prog.follow_ok, expectAck, recvInlineText, Prog.exec_bind, hex₂,
    Prog.follow_ok, if_neg htext.symm]
  rfl

end Linked

/-! ### The operations -/

theorem request_fits {datatype : Nat} {payload : Bytes}
    (h : (Request.body ⟨datatype, payload⟩).length < 2 ^ 31) : payload.length + 4 < 2 ^ 31 := by
  have hlen : (packLE 4 datatype ++ payload).length < 2 ^ 31 := h
  rw [List.length_append, packLE_length] at hlen
  omega

theorem setTarget_linked {α : Type} {path : String} {gzip : Bool} (f : Client α)
    (h : Linked rt onData net ms t₀ all n t
      (Request.body ⟨21, rt.dumps (targetParams path gzip)⟩ :: rest) c)
    (hnet : net.Sound ms) (hms : 0 < ms) (hbin : t.handler.binRecvFlag = false)
    (hfits : (Request.body ⟨21, rt.dumps (targetParams path gzip)⟩).length < 2 ^ 31)
    (hcodec : rt.loadsBytes (rt.dumps (targetParams path gzip)) =
      .ok (targetParams path gzip)) :
    ∃ c' t', (setTarget rt path gzip >>= fun _ => f).exec c = f.exec c' ∧
      Linked rt onData net ms t₀ all (n + 1) t' rest c' ∧
      t'.handler = { t.handler with filepath := .str path, gzip := .bool gzip } ∧
      t'.disk = t.disk := by
  obtain ⟨c', t', hex, hlinked⟩ := h.ack hnet hms hfits
    (send_sends h.client 21 (request_fits hfits)) (onFrame_target hbin hcodec) rfl
  refine ⟨c', t', ?_, hlinked⟩
  rw [Prog.exec_bind, setTarget, hex, Prog.follow_ok]

/-- What the target writes for an upload. -/
theorem received_encoded (hgzip : ∀ b, rt.decompress (rt.compress b) = .ok b) {h : Handler}
    {gzip : Bool} {content : Bytes} (hflag : h.gzip = .bool gzip)
    (hcontent : h.content = encoded rt gzip content) :
    received rt h = .ok (unmarkEmpty content) := by
  rw [received, hflag, hcontent]
  cases gzip with
  | false => rfl
  | true =>
      show (rt.decompress (rt.compress content)).map unmarkEmpty = _
      rw [hgzip]
      rfl

/-- What an operation leaves: the answer and the files are those of `op.run`. -/
def Performed (rt : TargetRuntime) (onData : OnData σ) (net : Transport) (ms : Nat)
    (t₀ : Connection σ) (all : List Bytes) (n : Nat) (t : Connection σ) (rest : List Bytes)
    (op : FileOp) (c : SocketServerClient) : Prop :=
  ∃ c', ((op.perform rt (link rt onData net t₀ all)).exec c) = ((op.run t.disk).1, c') ∧
    ∃ t', t'.disk = (op.run t.disk).2 ∧
      match (op.run t.disk).1 with
      | .ok _ => t'.handler.binRecvFlag = false ∧
          Linked rt onData net ms t₀ all (n + (op.frames rt).length) t' rest c'
      | .error _ => Stopped rt onData net t₀ all t' c'

theorem upload_performed {path : String} {gzip : Bool} {content : Bytes}
    (h : Linked rt onData net ms t₀ all n t
      ((FileOp.upload path gzip content).frames rt ++ rest) c)
    (hnet : net.Sound ms) (hms : 0 < ms) (hbin : t.handler.binRecvFlag = false)
    (hop : (FileOp.upload path gzip content).Coded rt) (hanswers : AnswersCoded rt) :
    Performed rt onData net ms t₀ all n t rest (.upload path gzip content) c := by
  have hfits := hop.fits
  simp only [FileOp.frames, List.mem_cons, List.not_mem_nil, or_false, forall_eq_or_imp,
    forall_eq] at hfits
  obtain ⟨hfits21, hfits22, hfits23, hfits24⟩ := hfits
  have h₀ : Linked rt onData net ms t₀ all n t
      (Request.body ⟨21, rt.dumps (targetParams path gzip)⟩ ::
        Request.body ⟨22, packLE 8 (encoded rt gzip content).length⟩ :: encoded rt gzip content ::
        Request.body ⟨24, []⟩ :: rest) c := h
  have hlen : (encoded rt gzip content).length < 2 ^ 64 := by omega
  -- the four frames, one after another
  obtain ⟨c₁, t₁, hex₁, h₁, hhandler₁, hdisk₁⟩ := setTarget_linked
    (do
      send 22 (packLE 8 (encoded rt gzip content).length)
      expectAck "22 ok"
      sendRawOver (link rt onData net t₀ all) (encoded rt gzip content)
      expectAck "23 ok"
      send 24 []
      expectAck "24 ok") h₀ hnet hms hbin hfits21 (hop.target path gzip (Or.inl ⟨content, rfl⟩))
  have hbin₁ : t₁.handler.binRecvFlag = false := by rw [hhandler₁]; exact hbin
  obtain ⟨c₂, t₂, hex₂, h₂, hhandler₂, hdisk₂⟩ := h₁.ack_then
    (do
      sendRawOver (link rt onData net t₀ all) (encoded rt gzip content)
      expectAck "23 ok"
      send 24 []
      expectAck "24 ok") hnet hms hfits22 (send_sends h₁.client 22 (request_fits hfits22))
    (onFrame_length hbin₁ hlen) rfl
  have hbin₂ : t₂.handler.binRecvFlag = true := by rw [hhandler₂]
  obtain ⟨c₃, t₃, hex₃, h₃, hhandler₃, hdisk₃⟩ := h₂.ack_then
    (do
      send 24 []
      expectAck "24 ok") hnet hms hfits23 (sendRawOver_sends h₂.client hfits23)
    (onFrame_content hbin₂ (by rw [hhandler₂]) (by rw [hhandler₂])) rfl
  have hbin₃ : t₃.handler.binRecvFlag = false := by rw [hhandler₃]
  have hreceived : received rt t₃.handler = .ok (unmarkEmpty content) :=
    received_encoded hanswers.gzip (by rw [hhandler₃, hhandler₂, hhandler₁]) (by rw [hhandler₃])
  have hpath : t₃.handler.filepath = .str path := by rw [hhandler₃, hhandler₂, hhandler₁]
  have hdisk : t₃.disk = t.disk := by rw [hdisk₃, hdisk₂, hdisk₁]
  have hsends := send_sends h₃.client 24 (request_fits hfits24)
  have hex : (upload rt (link rt onData net t₀ all) path gzip content).exec c =
      (send 24 [] >>= fun _ => expectAck "24 ok").exec c₃ := hex₁.trans (hex₂.trans hex₃)
  have hframe : onFrame rt onData t₃ (Request.body ⟨24, []⟩) = onWrite rt t₃ :=
    onFrame_write hbin₃
  rw [Performed, FileOp.perform, FileOp.run, Prog.exec_bind, hex]
  cases hw : t.disk.write (.str path) (unmarkEmpty content) with
  | none =>
      rw [onWrite_none hreceived (by rw [hdisk, hpath, hw])] at hframe
      have htext : asciiBytes "24 ok" ≠ [] := by decide
      obtain ⟨c₄, hex₄, hstop⟩ := h₃.ack_closed hnet hfits24 hsends hframe htext
      exact ⟨c₄, by rw [hex₄, Prog.follow_error], t₃, hdisk, hstop⟩
  | some disk =>
      rw [onWrite_some hreceived (by rw [hdisk, hpath, hw])] at hframe
      obtain ⟨c₄, t₄, hex₄, h₄, hhandler₄, hdisk₄⟩ := h₃.ack hnet hms hfits24 hsends hframe rfl
      refine ⟨c₄, by rw [hex₄, Prog.follow_ok]; rfl, t₄, hdisk₄, ?_, h₄⟩
      rw [hhandler₄]
      exact hbin₃

theorem download_performed {path : String} {gzip : Bool}
    (h : Linked rt onData net ms t₀ all n t ((FileOp.download path gzip).frames rt ++ rest) c)
    (hnet : net.Sound ms) (hms : 300 ≤ ms) (hbin : t.handler.binRecvFlag = false)
    (hop : (FileOp.download path gzip).Coded rt) (hanswers : AnswersCoded rt)
    (hsize : ∀ b, t.disk.files path = some b → (encoded rt gzip b).length < 2 ^ 64) :
    Performed rt onData net ms t₀ all n t rest (.download path gzip) c := by
  have hfits := hop.fits
  simp only [FileOp.frames, List.mem_cons, List.not_mem_nil, or_false, forall_eq_or_imp,
    forall_eq] at hfits
  obtain ⟨hfits21, hfits3⟩ := hfits
  have h₀ : Linked rt onData net ms t₀ all n t
      (Request.body ⟨21, rt.dumps (targetParams path gzip)⟩ ::
        Request.body ⟨3, rt.dumps (.obj [("gzip", .bool gzip)])⟩ :: rest) c := h
  obtain ⟨c₁, t₁, hex₁, h₁, hhandler₁, hdisk₁⟩ := setTarget_linked
    (do
      send 3 (rt.dumps (.obj [("gzip", .bool gzip)]))
      let answer ← recvFileResponse rt.toRuntime gzip
      pure answer.2) h₀ hnet (by omega) hbin hfits21 (hop.target path gzip (Or.inr rfl))
  have hbin₁ : t₁.handler.binRecvFlag = false := by rw [hhandler₁]; exact hbin
  have hpath : t₁.handler.filepath = .str path := by rw [hhandler₁]
  have hsends := send_sends h₁.client 3 (request_fits hfits3)
  have hflag := hop.flag path gzip rfl
  have hread : onFiles rt t₁ 3 (rt.dumps (.obj [("gzip", .bool gzip)])) =
      (t.disk.files path).map fun b =>
        packLE 8 (encoded rt gzip b).length ++ encoded rt gzip b := by
    rw [onFiles, if_pos rfl, hpath, hdisk₁]
    cases hb : t.disk.files path with
    | none => simp [Disk.read, hb]
    | some b => cases gzip <;> simp [Disk.read, hb, hflag, Json.get, fieldD, Json.truthy,
        encoded, Except.toOption]
  have hframe : onFrame rt onData t₁ (Request.body ⟨3, rt.dumps (.obj [("gzip", .bool gzip)])⟩) =
      (t₁, .ofAnswer (onFiles rt t₁ 3 (rt.dumps (.obj [("gzip", .bool gzip)])))) :=
    onFrame_files hbin₁ (Or.inl rfl) _
  rw [hread] at hframe
  have hex : (download rt path gzip).exec c = _ := hex₁
  rw [Performed, FileOp.perform, FileOp.run, Prog.exec_bind, hex]
  cases hb : t.disk.files path with
  | none =>
      rw [hb] at hframe
      obtain ⟨c₂, hex₂, hhangs, hstop⟩ := h₁.closed hnet hfits3 hsends hframe
      obtain ⟨c₃, hex₃, hsent⟩ := recvN_hangs hhangs (k := 8) (by decide)
      refine ⟨c₃, ?_, t₁, hdisk₁, hstop c₃ hsent⟩
      simp only [Prog.exec_bind, hex₂, Prog.follow_ok, recvFileResponse, hex₃, Prog.follow_error]
  | some b =>
      rw [hb] at hframe
      obtain ⟨c₂, t₂, hex₂, hholds, hhandler₂, hdisk₂, hnext⟩ :=
        h₁.answered hnet hfits3 hsends hframe rfl
      have hcontent : (if gzip then rt.decompress (encoded rt gzip b)
          else .ok (encoded rt gzip b)) = .ok b := by
        cases gzip with
        | false => rfl
        | true => exact hanswers.gzip b
      obtain ⟨c₃, hex₃, hquiet⟩ :=
        recvFileResponse_holds (hholds.mono hms) (hsize b hb) hcontent
      refine ⟨c₃, ?_, t₂, hdisk₂.trans hdisk₁, by rw [hhandler₂]; exact hbin₁,
        hnext c₃ (hquiet.quiet 300)⟩
      simp only [Prog.exec_bind, hex₂, Prog.follow_ok, hex₃, Prog.exec_pure]

theorem isfile_performed {path : String}
    (h : Linked rt onData net ms t₀ all n t ((FileOp.isfile path).frames rt ++ rest) c)
    (hnet : net.Sound ms) (hms : 0 < ms) (hbin : t.handler.binRecvFlag = false)
    (hop : (FileOp.isfile path).Coded rt) (hanswers : AnswersCoded rt) :
    Performed rt onData net ms t₀ all n t rest (.isfile path) c := by
  have hfits : (Request.body ⟨7, rt.dumps (.obj [("file", .str path)])⟩).length < 2 ^ 31 :=
    hop.fits _ List.mem_cons_self
  have h₀ : Linked rt onData net ms t₀ all n t
      (Request.body ⟨7, rt.dumps (.obj [("file", .str path)])⟩ :: rest) c := h
  have hread : onFiles rt t 7 (rt.dumps (.obj [("file", .str path)])) =
      some (rt.dumps (.obj [("res", .bool (t.disk.files path).isSome)])) := by
    rw [onFiles, if_neg (by decide)]
    simp [hop.probe path rfl, Except.toOption, askDisk]
  have hframe : onFrame rt onData t (Request.body ⟨7, rt.dumps (.obj [("file", .str path)])⟩) =
      (t, .ofAnswer (onFiles rt t 7 (rt.dumps (.obj [("file", .str path)])))) :=
    onFrame_files hbin (Or.inr rfl) _
  rw [hread] at hframe
  obtain ⟨c₁, t₁, hex₁, hholds, hhandler, hdisk, hnext⟩ := h₀.answered hnet hfits
    (send_sends h.client 7 (request_fits hfits)) hframe rfl
  obtain ⟨c₂, hex₂, hquiet⟩ := recvJson_holds hholds hms (by decide)
    (hanswers.found (t.disk.files path).isSome)
  refine ⟨c₂, ?_, t₁, hdisk, by rw [hhandler]; exact hbin, hnext c₂ (hquiet.quiet 300)⟩
  simp only [FileOp.perform, FileOp.run, SocketServerClient.isfile, probePath, Prog.exec_bind,
    hex₁, Prog.follow_ok, hex₂, Prog.exec_ofExcept]
  rfl

/-! ### Whole sessions -/

/-- The content fits the length field of a download, compressed or not. -/
def Storable (rt : TargetRuntime) (b : Bytes) : Prop :=
  ∀ gzip, (encoded rt gzip b).length < 2 ^ 64

/-- Every file on the disk can be downloaded. -/
def FilesStorable (rt : TargetRuntime) (disk : Disk) : Prop :=
  ∀ p b, disk.files p = some b → Storable rt b

theorem FilesStorable.write {disk disk' : Disk} (h : FilesStorable rt disk) {path : String}
    {b : Bytes} (hb : Storable rt b) (hwrite : disk.write (.str path) b = some disk') :
    FilesStorable rt disk' := by
  obtain ⟨q, -, rfl⟩ := Disk.write_some rfl hwrite
  intro p b' hp
  by_cases hpq : p = q
  · subst hpq
    have hself : Function.update disk.files p (some b) p = some b' := hp
    rw [Function.update_self] at hself
    exact Option.some.inj hself ▸ hb
  · have hother : Function.update disk.files q (some b) p = some b' := hp
    rw [Function.update_of_ne hpq] at hother
    exact h p b' hother

/-- What an operation uploads can be downloaded. -/
def FileOp.Fits (rt : TargetRuntime) : FileOp → Prop
  | .upload _ _ content => Storable rt (unmarkEmpty content)
  | _ => True

theorem FilesStorable.run {disk : Disk} (h : FilesStorable rt disk) {op : FileOp}
    (hop : op.Fits rt) : FilesStorable rt (op.run disk).2 := by
  cases op with
  | upload path gzip content =>
      simp only [FileOp.run]
      split
      · next disk' hwrite => exact h.write hop hwrite
      · exact h
  | download path gzip =>
      simp only [FileOp.run]
      split <;> exact h
  | isfile path => exact h

theorem op_performed {op : FileOp}
    (h : Linked rt onData net ms t₀ all n t (op.frames rt ++ rest) c) (hnet : net.Sound ms)
    (hms : 300 ≤ ms) (hbin : t.handler.binRecvFlag = false) (hop : op.Coded rt)
    (hanswers : AnswersCoded rt) (hdisk : FilesStorable rt t.disk) :
    Performed rt onData net ms t₀ all n t rest op c := by
  cases op with
  | upload path gzip content => exact upload_performed h hnet (by omega) hbin hop hanswers
  | download path gzip =>
      exact download_performed h hnet hms hbin hop hanswers fun b hb => hdisk path b hb gzip
  | isfile path => exact isfile_performed h hnet (by omega) hbin hop hanswers

/-- From any point of a session on. -/
theorem session_from {ops : List FileOp}
    (h : Linked rt onData net ms t₀ all n t (ops.flatMap (FileOp.frames rt)) c)
    (hnet : net.Sound ms) (hms : 300 ≤ ms) (hbin : t.handler.binRecvFlag = false)
    (hops : ∀ op ∈ ops, op.Coded rt ∧ op.Fits rt) (hanswers : AnswersCoded rt)
    (hdisk : FilesStorable rt t.disk) :
    ∃ c' t', (FileOp.performAll rt (link rt onData net t₀ all) ops).exec c =
        ((FileOp.runAll t.disk ops).1, c') ∧
      Stopped rt onData net t₀ all t' c' ∧ t'.disk = (FileOp.runAll t.disk ops).2 := by
  induction ops generalizing n t c with
  | nil =>
      refine ⟨c, t, rfl, ?_, rfl⟩
      rw [Stopped, h.client.sentFrames, h.target]
  | cons op ops ih =>
      obtain ⟨hcoded, hfits⟩ := hops op List.mem_cons_self
      rw [List.flatMap_cons] at h
      obtain ⟨c₁, hex₁, t₁, hdisk₁, hafter⟩ :=
        op_performed h hnet hms hbin hcoded hanswers hdisk
      rw [FileOp.performAll, Prog.exec_bind, hex₁, FileOp.runAll]
      have hstorable := hdisk.run hfits
      rcases hrun : op.run t.disk with ⟨e | a, disk₁⟩ <;> rw [hrun] at hafter hdisk₁ hstorable
      · exact ⟨c₁, t₁, rfl, hafter, hdisk₁⟩
      · obtain ⟨hbin₁, h₁⟩ := hafter
        have hdisk₁' : t₁.disk = disk₁ := hdisk₁
        obtain ⟨c₂, t₂, hex₂, hstop, hdisk₂⟩ := ih h₁ hbin₁
          (fun op' hop' => hops op' (List.mem_cons_of_mem op hop')) (by rw [hdisk₁']; exact hstorable)
        rw [hdisk₁'] at hex₂ hdisk₂
        refine ⟨c₂, t₂, ?_, hstop, hdisk₂⟩
        rw [Prog.follow_ok, Prog.exec_bind, hex₂]
        cases hrest : (FileOp.runAll disk₁ ops).1 <;> simp [hrest, Except.map]

/-- A client that has just connected to a target behaves over any sequence of file operations as
the map from paths to contents that the target's files are, and leaves the files of that map. The
transport may cut frames and pace answers in any way that leaves lengths whole and pauses short. -/
theorem file_sessions (hnet : net.Sound ms) (hms : 300 ≤ ms) (disk : Disk) (server : σ)
    (onData : OnData σ) (ops : List FileOp) (hops : ∀ op ∈ ops, op.Coded rt ∧ op.Fits rt)
    (hanswers : AnswersCoded rt) (hdisk : FilesStorable rt disk) (c : SocketServerClient)
    (htimeout : checkTimeout (1000 * c.timeout) = .ok ms)
    (hsock : c.sock = some
      { timeout := ms
        endpoint := (link rt onData net { disk := disk, server := server }
          (ops.flatMap (FileOp.frames rt))).endpoint }) :
    ∃ c', (FileOp.performAll rt (link rt onData net { disk := disk, server := server }
        (ops.flatMap (FileOp.frames rt))) ops).exec c = ((FileOp.runAll disk ops).1, c') ∧
      (afterFrames rt onData net 0 { disk := disk, server := server }
        ((ops.flatMap (FileOp.frames rt)).take c'.sentFrames)).disk =
        (FileOp.runAll disk ops).2 := by
  have hstart : Linked rt onData net ms { disk := disk, server := server }
      (ops.flatMap (FileOp.frames rt)) 0 { disk := disk, server := server }
      (ops.flatMap (FileOp.frames rt)) c :=
    ⟨⟨htimeout, _, hsock, rfl, rfl, rfl, trivial⟩, rfl, rfl⟩
  obtain ⟨c', t', hex, hstop, hfiles⟩ :=
    session_from hstart hnet hms rfl hops hanswers hdisk
  refine ⟨c', hex, ?_⟩
  rw [Stopped] at hstop
  rw [hstop, hfiles]

/-! ### A session -/

/-- The texts of the requests and answers on the path `/a`. -/
def sessionTexts : List (Json × String) :=
  [(targetParams "/a" true, "\x7b\"filepath\": \"/a\", \"gzip\": true\x7d"),
    (targetParams "/a" false, "\x7b\"filepath\": \"/a\", \"gzip\": false\x7d"),
    (.obj [("gzip", .bool false)], "\x7b\"gzip\": false\x7d"),
    (.obj [("file", .str "/a")], "\x7b\"file\": \"/a\"\x7d"),
    (.obj [("res", .bool true)], "\x7b\"res\": true\x7d"),
    (.obj [("res", .bool false)], "\x7b\"res\": false\x7d")]

/-- The codecs on these texts, and `gzip` on the text `7`. -/
def sessionRuntime : TargetRuntime where
  dumps j := ((sessionTexts.find? fun e => e.1.repr == j.repr).map fun e => asciiBytes e.2).getD []
  decode b := String.ofList (b.map fun x => Char.ofNat x.toNat)
  loads s := ((sessionTexts.find? fun e => e.2 == s).map fun e => .ok e.1).getD
    (.error ⟨.valueError, "Expecting value"⟩)
  loadsBytes b := ((sessionTexts.find? fun e => asciiBytes e.2 == b).map fun e => .ok e.1).getD
    (.error ⟨.valueError, "Expecting value"⟩)
  decompress
    | 0 :: b => .ok b
    | b => if b = gzipSeven then .ok [55] else .error ⟨.osError, "Not a gzipped file"⟩
  compress b := if b = [55] then gzipSeven else 0 :: b
  b64encode _ := ""

/-- Frames come in two pieces, answers after 200 ms. -/
def slowTransport : Transport where
  cut _ frame := if frame.length ≤ 5 then [frame] else [frame.take 5, frame.drop 5]
  pace _ b := if b = [] then [] else [.silence 200, .data b]

theorem slowTransport_sound : slowTransport.Sound 10000 := by
  constructor
  · intro n frame hlen
    by_cases hshort : frame.length ≤ 5
    · refine ⟨frame, [], if_pos hshort, hlen, nofun, ?_⟩
      rw [List.flatten_nil, List.append_nil]
    · refine ⟨frame.take 5, [frame.drop 5], if_neg hshort, ?_, ?_, ?_⟩
      · rw [List.length_take]
        omega
      · intro chunk hchunk hnil
        rw [List.mem_singleton.mp hchunk, List.drop_eq_nil_iff] at hnil
        exact hshort hnil
      · rw [List.flatten_singleton, List.take_append_drop]
  · intro n b
    simp only [slowTransport]
    split
    · next hb => exact ⟨hb.symm, trivial⟩
    · next hb =>
      obtain ⟨x, xs, rfl⟩ := List.exists_cons_of_ne_nil hb
      refine ⟨by simp [Wire.contents], by decide, ?_, trivial⟩
      simp [Wire.contents]

theorem sessionRuntime_coded : AnswersCoded sessionRuntime where
  found b := by cases b <;> rfl
  gzip b := by
    by_cases hb : b = [55]
    · subst hb
      rfl
    · simp [sessionRuntime, hb]

/-- Upload compressed, ask, download. -/
def sessionOps : List FileOp := [.upload "/a" true [55], .isfile "/a", .download "/a" false]

/-- The target at the other end of the session, on a slow transport. -/
def sessionLink : Link := link sessionRuntime noData slowTransport
  { disk := emptyDisk, server := () } (sessionOps.flatMap (FileOp.frames sessionRuntime))

/-- A client connected to it. -/
def sessionClient : SocketServerClient where
  host := "10.0.0.1"
  port := 9000
  timeout := 10
  sock := some { timeout := 10000, endpoint := sessionLink.endpoint }

theorem file_sessions_compressed :
    ∃ c', (FileOp.performAll sessionRuntime sessionLink sessionOps).exec sessionClient =
        (.ok [.stored, .found (.bool true), .content [55]], c') ∧
      (afterFrames sessionRuntime noData slowTransport 0 { disk := emptyDisk, server := () }
        ((sessionOps.flatMap (FileOp.frames sessionRuntime)).take c'.sentFrames)).disk =
        (FileOp.runAll emptyDisk sessionOps).2 := by
  refine file_sessions slowTransport_sound (by decide) emptyDisk () noData sessionOps ?_
    sessionRuntime_coded nofun sessionClient rfl rfl
  intro op hop
  simp only [sessionOps, List.mem_cons, List.not_mem_nil, or_false] at hop
  rcases hop with rfl | rfl | rfl
  · refine ⟨⟨by decide, ?_, nofun, nofun⟩, ?_⟩
    · rintro path gzip (⟨content, h⟩ | h)
      · cases h
        rfl
      · cases h
    · intro gzip
      cases gzip <;> decide
  · refine ⟨⟨by decide, ?_, nofun, ?_⟩, trivial⟩
    · rintro path gzip (⟨content, h⟩ | h) <;> cases h
    · intro path h
      cases h
      rfl
  · refine ⟨⟨by decide, ?_, ?_, nofun⟩, trivial⟩
    · rintro path gzip (⟨content, h⟩ | h)
      · cases h
      · cases h
        rfl
    · intro path gzip h
      cases h
      rfl

end McpSocketServer
