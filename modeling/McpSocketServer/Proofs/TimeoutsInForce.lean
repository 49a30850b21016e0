import McpSocketServer.SocketCalls
import McpSocketServer.Proofs.AnswerReads
import McpSocketServer.Proofs.PoolClients
import McpSocketServer.Misc.Watched

/-!
# The timeout in force

Every function that touches the socket sets the timeout of the client before it blocks, so
the value that an earlier operation has left in the socket is never in force. No method
changes the timeout of the client, and `acquire` sets it to the `socket_timeout` of the
borrow, for a new client and for a reused one. So in every history of borrows the sends and
receives of a borrow wait for its own `socket_timeout`, and only the reads after the first
one in `_recv_until_timeout` wait for the time that this method gives them.
-/

namespace McpSocketServer

open SocketServerClient

/-- The call waits for `timeout` seconds, or is a further read that waits for its own time. -/
def BlockingCall.Fits (timeout : Int) (call : BlockingCall) : Prop :=
  match call.kind with
  | .further gap => call.timeout = gap
  | .connect | .send | .recv => (call.timeout : Int) = 1000 * timeout

/-! ### The functions that touch the socket -/

/-- On the client `r`, the recorded run does what the method does, the timeout of the client
stays, and the calls that it records fit it. -/
def Faithful {α : Type} (m' : Recorder α) (m : Client α) (r : RecordedClient) : Prop :=
  ∃ calls : List BlockingCall, (∀ call ∈ calls, call.Fits r.client.timeout) ∧
    m'.exec r = ((m.exec r.client).1, ⟨(m.exec r.client).2, r.calls ++ calls⟩) ∧
    (m.exec r.client).2.timeout = r.client.timeout

namespace Recorder

variable {α : Type} {r : RecordedClient} {s : Socket}

@[simp] theorem exec_onClient (m : Client α) (r : RecordedClient) :
    (onClient m).exec r = ((m.exec r.client).1, { r with client := (m.exec r.client).2 }) := rfl

theorem note_exec (hs : r.client.sock = some s) (kind : BlockingKind) :
    (note kind).exec r = (.ok (), { r with calls := r.calls ++ [⟨kind, s.timeout⟩] }) := by
  simp [note, theSock_exec hs]

theorem recv_exec (hs : r.client.sock = some s) (kind : BlockingKind) (limit : Nat)
    (w : Wire WireByte PyErr) :
    (recv kind limit w).exec r = (.ok (Wire.recv limit s.timeout w),
      { r with calls := r.calls ++ [⟨kind, s.timeout⟩] }) := by
  simp [recv, note_exec hs, theSock_exec hs]

/-- Every read of the loop waits for the timeout of the socket. -/
theorem readExactly_exec (limit fuel need : Nat) (w : Wire WireByte PyErr)
    (hs : r.client.sock = some s) :
    ∃ calls : List BlockingCall, (∀ call ∈ calls, call = ⟨.recv, s.timeout⟩) ∧
      (readExactly limit fuel need w).exec r =
        (.ok (Wire.readExactly limit s.timeout fuel need w), { r with calls := r.calls ++ calls }) := by
  induction fuel generalizing need w r with
  | zero => cases need <;> exact ⟨[], by simp, by simp [readExactly, Wire.readExactly]⟩
  | succ fuel ih =>
      cases need with
      | zero => exact ⟨[], by simp, by simp [readExactly, Wire.readExactly]⟩
      | succ need =>
          rcases hr : Wire.recv (min limit (need + 1)) s.timeout w with ⟨e | items, w'⟩
          · refine ⟨[⟨.recv, s.timeout⟩], by simp, ?_⟩
            simp [readExactly, Wire.readExactly, recv_exec hs, hr]
          · obtain ⟨calls, hcalls, hex⟩ :=
              ih (r := { r with calls := r.calls ++ [⟨.recv, s.timeout⟩] })
                (need + 1 - items.length) w' hs
            refine ⟨⟨.recv, s.timeout⟩ :: calls, by simpa using hcalls, ?_⟩
            rcases hrest : Wire.readExactly limit s.timeout fuel (need + 1 - items.length) w' with
              ⟨e | rest, w''⟩ <;>
              simp [readExactly, Wire.readExactly, recv_exec hs, hr, hex, hrest]

/-- So does every read of the other loop. -/
theorem readUntilSilence_exec (limit gap fuel : Nat) (w : Wire WireByte PyErr)
    (hs : r.client.sock = some s) :
    ∃ calls : List BlockingCall, (∀ call ∈ calls, call = ⟨.further gap, s.timeout⟩) ∧
      (readUntilSilence limit gap fuel w).exec r =
        (.ok (Wire.readUntilSilence limit s.timeout fuel w),
          { r with calls := r.calls ++ calls }) := by
  induction fuel generalizing w r with
  | zero => exact ⟨[], by simp, by simp [readUntilSilence, Wire.readUntilSilence]⟩
  | succ fuel ih =>
      rcases hr : Wire.recv limit s.timeout w with ⟨e | items, w'⟩
      · refine ⟨[⟨.further gap, s.timeout⟩], by simp, ?_⟩
        simp [readUntilSilence, Wire.readUntilSilence, recv_exec hs, hr]
      · obtain ⟨calls, hcalls, hex⟩ :=
          ih (r := { r with calls := r.calls ++ [⟨.further gap, s.timeout⟩] }) w' hs
        refine ⟨⟨.further gap, s.timeout⟩ :: calls, by simpa using hcalls, ?_⟩
        simp [readUntilSilence, Wire.readUntilSilence, recv_exec hs, hr, hex]

/-- Nothing blocks. -/
theorem faithful_of_quiet {m' : Recorder α} {m : Client α}
    (h : m'.exec r = ((m.exec r.client).1, { r with client := (m.exec r.client).2 }))
    (hkeep : (m.exec r.client).2.timeout = r.client.timeout) : Faithful m' m r :=
  ⟨[], by simp, by rw [h, List.append_nil], hkeep⟩

/-- The time that `settimeout` gives a socket. -/
theorem fits_of_checkTimeout {t : Int} {ms : Nat} (h : checkTimeout (1000 * t) = .ok ms)
    {kind : BlockingKind} (hkind : ∀ gap, kind ≠ .further gap) :
    BlockingCall.Fits t ⟨kind, ms⟩ := by
  have hms : (ms : Int) = 1000 * t := by
    unfold checkTimeout at h
    split_ifs at h
    obtain rfl := Except.ok.inj h
    omega
  cases kind with
  | further gap => exact absurd rfl (hkind gap)
  | _ => exact hms

theorem faithful_connect (outcome : Except PyErr Endpoint) (r : RecordedClient) :
    Faithful (connect outcome) (SocketServerClient.connect outcome) r := by
  by_cases hopen : r.client.sock.isSome = true
  · exact faithful_of_quiet (by simp [connect, SocketServerClient.connect, hopen])
      (by simp [SocketServerClient.connect, hopen])
  · cases hms : checkTimeout (1000 * r.client.timeout) with
    | error e =>
        exact faithful_of_quiet (by simp [connect, SocketServerClient.connect, hopen, hms])
          (by simp [SocketServerClient.connect, hopen, hms])
    | ok ms =>
        have hfits : BlockingCall.Fits r.client.timeout ⟨.connect, ms⟩ :=
          fits_of_checkTimeout hms (by simp)
        refine ⟨[⟨.connect, ms⟩], by simpa using hfits, ?_, ?_⟩ <;>
          cases outcome <;> simp [connect, SocketServerClient.connect, hopen, hms]

/-- A function that sets the timeout of the client before it goes on. -/
theorem faithful_timed {m' : Recorder α} {m : Client α}
    (h : ∀ s : Socket, ∀ ms, s.timeout = ms → checkTimeout (1000 * r.client.timeout) = .ok ms →
      Faithful m' m { r with client := { r.client with sock := some s } }) :
    Faithful
      (do
        let _ ← onClient theSock
        onClient (settimeout (1000 * (← get).client.timeout))
        m')
      (do
        let _ ← theSock
        settimeout (1000 * (← get).timeout)
        m) r := by
  cases hs : r.client.sock with
  | none => exact faithful_of_quiet (by simp [theSock, hs]) (by simp [theSock, hs])
  | some s =>
      cases hms : checkTimeout (1000 * r.client.timeout) with
      | error e =>
          exact faithful_of_quiet (by simp [theSock_exec hs, settimeout_exec hs, hms])
            (by simp [theSock_exec hs, settimeout_exec hs, hms])
      | ok ms =>
          obtain ⟨calls, hfits, hex, hkeep⟩ := h { s with timeout := ms } ms rfl hms
          exact ⟨calls, hfits, by simp [theSock_exec hs, settimeout_exec hs, hms, hex],
            by simp [theSock_exec hs, settimeout_exec hs, hms, hkeep]⟩

theorem faithful_send (datatype : Nat) (payload : Bytes) (r : RecordedClient) :
    Faithful (send datatype payload) (SocketServerClient.send datatype payload) r := by
  apply faithful_timed
  rintro s ms rfl hms
  split
  · exact faithful_of_quiet rfl rfl
  · refine ⟨[⟨.send, s.timeout⟩], ?_, ?_, ?_⟩
    · simpa using fits_of_checkTimeout hms (by simp)
    · simp [note_exec (s := s)]
    · simp [sendall_exec (s := s)]

theorem faithful_sendRaw (msg : Bytes) (exchange : Exchange) (r : RecordedClient) :
    Faithful (sendRaw msg exchange) (SocketServerClient.sendRaw msg exchange) r := by
  apply faithful_timed
  rintro s ms rfl hms
  split
  · exact faithful_of_quiet rfl rfl
  · refine ⟨[⟨.send, s.timeout⟩], ?_, ?_, ?_⟩
    · simpa using fits_of_checkTimeout hms (by simp)
    · cases exchange.fault <;> simp [note_exec (s := s), theSock, putSock]
    · cases exchange.fault <;> simp [theSock, putSock]

theorem faithful_recvN (n : Int) (r : RecordedClient) :
    Faithful (recvN n) (SocketServerClient.recvN n) r := by
  apply faithful_timed
  rintro s ms rfl hms
  obtain ⟨calls, hcalls, hex⟩ :=
    readExactly_exec (r := { r with client := { r.client with sock := some s } })
      65536 n.toNat n.toNat s.wire rfl
  refine ⟨calls, fun call hcall => ?_, ?_, ?_⟩
  · rw [hcalls call hcall]
    exact fits_of_checkTimeout hms (by simp)
  · rcases hr : Wire.readExactly 65536 s.timeout n.toNat n.toNat s.wire with ⟨e | items, w⟩ <;>
      simp [theSock, hex, hr, afterRead]
  · rcases hr : Wire.readExactly 65536 s.timeout n.toNat n.toNat s.wire with ⟨e | items, w⟩ <;>
      simp [theSock, hr, afterRead]

theorem faithful_recvUntilTimeout (gap : Nat) (r : RecordedClient) :
    Faithful (recvUntilTimeout gap) (SocketServerClient.recvUntilTimeout gap) r := by
  apply faithful_timed
  rintro s ms rfl hms
  have hfits : BlockingCall.Fits r.client.timeout ⟨.recv, s.timeout⟩ :=
    fits_of_checkTimeout hms (by simp)
  have hrecv := recv_exec (r := { r with client := { r.client with sock := some s } }) rfl
    .recv 65536 s.wire
  rcases hr : Wire.recv 65536 s.timeout s.wire with ⟨e | chunk, w⟩
  · refine ⟨[⟨.recv, s.timeout⟩], by simpa using hfits, ?_, ?_⟩ <;>
      cases hsw : swallow s.timeout e <;>
      simp [theSock, hrecv, hr, afterRead, passTimeout_exec, hsw]
  · -- the further reads wait for the time that the method sets after the first one
    obtain ⟨calls, hcalls, hex⟩ := readUntilSilence_exec
      (r := ⟨{ r.client with sock := some { s with timeout := gap } },
        r.calls ++ [⟨.recv, s.timeout⟩]⟩) 65536 gap (w.contents.length + 1) w rfl
    rcases hrest : Wire.readUntilSilence 65536 gap (w.contents.length + 1) w with ⟨⟨extra, e⟩, w'⟩
    refine ⟨⟨.recv, s.timeout⟩ :: calls, fun call hcall => ?_, ?_, ?_⟩
    · rcases List.mem_cons.mp hcall with rfl | hcall
      · exact hfits
      · rw [hcalls call hcall]
        rfl
    · cases hsw : swallow gap e <;>
        simp [theSock, hrecv, hr, hrest, hex, afterRead, putSock, passTimeout_exec, hsw]
    · cases hsw : swallow gap e <;> simp [theSock, hr, hrest, afterRead, passTimeout_exec, hsw]

end Recorder

/-! ### The methods -/

theorem Faithful.bind {α β : Type} {m' : Recorder α} {m : Client α} {f' : α → Recorder β}
    {f : α → Client β} {r : RecordedClient} (hm : Faithful m' m r)
    (hf : ∀ a r, Faithful (f' a) (f a) r) : Faithful (m' >>= f') (m >>= f) r := by
  obtain ⟨calls, hfits, hex, hkeep⟩ := hm
  rcases hrun : m.exec r.client with ⟨e | a, c⟩
  · rw [hrun] at hex hkeep
    exact ⟨calls, hfits, by simp [hex, hrun], by simpa [hrun] using hkeep⟩
  · rw [hrun] at hex hkeep
    change c.timeout = r.client.timeout at hkeep
    obtain ⟨calls', hfits', hex', hkeep'⟩ := hf a ⟨c, r.calls ++ calls⟩
    refine ⟨calls ++ calls', fun call hcall => ?_, by simp [hex, hrun, hex'], by
      simp [hrun, hkeep', hkeep]⟩
    rcases List.mem_append.mp hcall with hcall | hcall
    · exact hfits call hcall
    · exact hkeep ▸ hfits' call hcall

/-- A recorded run does what the method does, whatever the method, and every call that it
records fits the timeout of the client. -/
theorem Records.faithful {α : Type} {m' : Recorder α} {m : Client α} (h : Records m' m)
    (r : RecordedClient) : Faithful m' m r := by
  induction h generalizing r with
  | pure a => exact Recorder.faithful_of_quiet rfl rfl
  | throw e => exact Recorder.faithful_of_quiet rfl rfl
  | ofExcept res => exact Recorder.faithful_of_quiet (by simp) (by simp)
  | bind _ _ ihm ihf => exact (ihm r).bind fun a r => ihf a r
  | connect outcome => exact Recorder.faithful_connect outcome r
  | close => exact Recorder.faithful_of_quiet rfl rfl
  | send datatype payload => exact Recorder.faithful_send datatype payload r
  | sendRaw msg exchange => exact Recorder.faithful_sendRaw msg exchange r
  | recvN n => exact Recorder.faithful_recvN n r
  | recvUntilTimeout gap => exact Recorder.faithful_recvUntilTimeout gap r

/-- A method that a borrower calls, with its recorded run. -/
structure ClientCall where
  plain : Client Unit
  recording : Recording plain

/-- The methods that a borrower calls one after the other, whatever they raise, and the
health with which it gives the client back. -/
structure BorrowedWork where
  calls : List ClientCall
  healthy : Bool

namespace BorrowedWork

/-- What the methods leave of the client. -/
def run (work : BorrowedWork) (c : SocketServerClient) : SocketServerClient :=
  work.calls.foldl (fun c call => (call.plain.exec c).2) c

/-- What they leave of it with their record. -/
def record (work : BorrowedWork) (r : RecordedClient) : RecordedClient :=
  work.calls.foldl (fun r call => (call.recording.1.exec r).2) r

end BorrowedWork

/-- The calls so far fit the timeout of the client, which is `timeout`. -/
def InForce (timeout : Int) (r : RecordedClient) : Prop :=
  r.client.timeout = timeout ∧ ∀ call ∈ r.calls, call.Fits timeout

theorem Faithful.inForce {α : Type} {m' : Recorder α} {m : Client α} {r : RecordedClient}
    (h : Faithful m' m r) {timeout : Int} (hr : InForce timeout r) :
    InForce timeout (m'.exec r).2 := by
  obtain ⟨calls, hfits, hex, hkeep⟩ := h
  obtain ⟨htimeout, hold⟩ := hr
  rw [hex]
  refine ⟨hkeep.trans htimeout, fun call hcall => ?_⟩
  rcases List.mem_append.mp hcall with hcall | hcall
  · exact hold call hcall
  · exact htimeout ▸ hfits call hcall

theorem Faithful.client {α : Type} {m' : Recorder α} {m : Client α} {r : RecordedClient}
    (h : Faithful m' m r) : (m'.exec r).2.client = (m.exec r.client).2 := by
  obtain ⟨calls, -, hex, -⟩ := h
  rw [hex]

/-- Every sequence of methods keeps to the timeout. -/
theorem BorrowedWork.record_inForce (work : BorrowedWork) {timeout : Int} {r : RecordedClient}
    (hr : InForce timeout r) : InForce timeout (work.record r) := by
  obtain ⟨calls, healthy⟩ := work
  induction calls generalizing r with
  | nil => exact hr
  | cons call calls ih => exact ih ((call.recording.2.faithful r).inForce hr)

/-- Without its record, a recorded client does what the client does. -/
theorem BorrowedWork.record_client (work : BorrowedWork) (r : RecordedClient) :
    (work.record r).client = work.run r.client := by
  obtain ⟨calls, healthy⟩ := work
  induction calls generalizing r with
  | nil => rfl
  | cons call calls ih =>
      have hhead := (call.recording.2.faithful r).client
      exact (ih _).trans (by rw [hhead]; rfl)

/-! ### The borrows -/

/-- The recorded clients of the pool for `host:port`. A record begins when `acquire` hands the
client out. -/
def recordedClients (host : String) (port : Int) :
    ClientKind RecordedClient (Except PyErr Endpoint) BorrowedWork where
  new timeout := { client := { host := host, port := port, timeout := timeout } }
  connect r outcome := (Recorder.connect outcome).exec r
  setTimeout r timeout := { client := { r.client with timeout := timeout } }
  close r := { r with client := r.client.close }
  perform r work := (work.healthy, work.record r)

/-- The clients of the pool for `host:port` without records. -/
def methodClients (host : String) (port : Int) :
    ClientKind SocketServerClient (Except PyErr Endpoint) BorrowedWork where
  new timeout := { host := host, port := port, timeout := timeout }
  connect client outcome := (connect outcome).exec client
  setTimeout client timeout := { client with timeout := timeout }
  close := SocketServerClient.close
  perform client work := (work.healthy, work.run client)

/-- Whatever the pool and its borrowers do with a recorded client, they do with the client. -/
theorem recordedClients_maps (host : String) (port : Int) :
    (recordedClients host port).Maps (methodClients host port) RecordedClient.client where
  new _ := rfl
  connect r outcome := by
    obtain ⟨calls, -, hex, -⟩ := Recorder.faithful_connect outcome r
    change _ = (((Recorder.connect outcome).exec r).1, ((Recorder.connect outcome).exec r).2.client)
    rw [hex]
    rfl
  setTimeout _ _ := rfl
  close _ := rfl
  perform r work := congrArg (Prod.mk work.healthy) (work.record_client r).symm

/-- The `socket_timeout` of every `acquire` call, with its thread. -/
def timeoutNote (_ : PoolState RecordedClient) :
    Nat × PoolStep (Except PyErr Endpoint) BorrowedWork → List (Nat × Int)
  | (t, .call _ _ socketTimeout) => [(t, socketTimeout)]
  | _ => []

/-- The pool of recorded clients with the `socket_timeout`s asked for. -/
def recordedPool (host : String) (port : Int) :
    Lts (Watched (PoolState RecordedClient) (Nat × Int))
      (Nat × PoolStep (Except PyErr Endpoint) BorrowedWork) :=
  (poolLts (recordedClients host port)).watched (fun _ => none) timeoutNote

/-- The `socket_timeout` of the last `acquire` call of each thread. -/
def borrowTimeout (log : List (Nat × Int)) : Nat → Int :=
  log.foldl (fun timeout asked => Function.update timeout asked.1 asked.2) fun _ => 0

theorem borrowTimeout_append (log : List (Nat × Int)) (t : Nat) (timeout : Int) :
    borrowTimeout (log ++ [(t, timeout)]) = Function.update (borrowTimeout log) t timeout := by
  simp [borrowTimeout]

/-- What holds of a thread whose `acquire` call asks for `timeout`. -/
def PhaseInForce (s : PoolState RecordedClient) (timeout : Int) : Phase → Prop
  | .waiting _ socketTimeout | .evicting _ _ socketTimeout => socketTimeout = timeout
  | .connecting c | .borrowed c | .used c _ => InForce timeout (s.clients c)
  | .out | .connectFailed | .closing _ => True

/-- Every thread keeps to the `socket_timeout` of its borrow. -/
def AllInForce (w : Watched (PoolState RecordedClient) (Nat × Int)) : Prop :=
  ∀ t, PhaseInForce w.state (borrowTimeout w.log t) (w.state.threads t)

section Steps

variable {κ ω ν : Type} {K : ClientKind κ ω ν} {s s' : PoolState κ} {t : Nat} {l : PoolStep ω ν}

/-- A step does not touch the client that another thread holds. -/
theorem client_step (howned : Owned s) (hdropped : Dropped s) (h : s.step K t l = some s')
    {u c : Nat} (hu : u ≠ t) (hc : (s.threads u).held = some c) : s'.clients c = s.clients c := by
  rcases step_clients h (howned.heldOld u c hc) with hsame | hmine | ⟨hdrop, -⟩
  · exact hsame
  · exact absurd (howned.heldOnce u t c hc hmine) hu
  · exact absurd hc ((hdropped t c hdrop).2.2 u)

end Steps

variable {host : String} {port : Int}

/-- The thread that moves keeps to its timeout: `acquire` sets it, and work keeps it. -/
theorem phaseInForce_step {s s' : PoolState RecordedClient} {t : Nat}
    {l : PoolStep (Except PyErr Endpoint) BorrowedWork} {log : List (Nat × Int)}
    (h : s.step (recordedClients host port) t l = some s')
    (hinv : PhaseInForce s (borrowTimeout log t) (s.threads t)) :
    PhaseInForce s' (borrowTimeout (log ++ timeoutNote s (t, l)) t) (s'.threads t) := by
  cases l with
  | call now timeout socketTimeout =>
      obtain ⟨-, rfl⟩ := PoolState.step_call h
      simp [timeoutNote, borrowTimeout_append, PhaseInForce]
  | timeoutError now =>
      obtain ⟨_, _, -, -, rfl⟩ := PoolState.step_timeoutError h
      simp [PhaseInForce]
  | takeSlot now =>
      obtain ⟨_, _, hph, -, rfl⟩ := PoolState.step_takeSlot h
      simpa [timeoutNote, PhaseInForce, hph] using hinv
  | evict =>
      obtain ⟨_, _, _, _, hph, rfl⟩ := PoolState.step_evict h
      simpa [timeoutNote, PhaseInForce, hph] using hinv
  | reuse =>
      obtain ⟨c, socketTimeout, hph, rfl⟩ := PoolState.step_reuse h
      have hasked : socketTimeout = borrowTimeout log t := by simpa [PhaseInForce, hph] using hinv
      simp [timeoutNote, PhaseInForce, recordedClients, InForce, hasked]
  | create =>
      obtain ⟨socketTimeout, hph, rfl⟩ := PoolState.step_create h
      have hasked : socketTimeout = borrowTimeout log t := by simpa [PhaseInForce, hph] using hinv
      simp [timeoutNote, PhaseInForce, recordedClients, InForce, hasked]
  | connected outcome =>
      obtain ⟨c, r, client, hph, hconnect, rfl⟩ := PoolState.step_connected h
      have hold : InForce (borrowTimeout log t) (s.clients c) := by
        simpa [PhaseInForce, hph] using hinv
      have hnew : InForce (borrowTimeout log t) client := by
        have hkeep := (Recorder.faithful_connect outcome (s.clients c)).inForce hold
        have hclient : ((Recorder.connect outcome).exec (s.clients c)).2 = client :=
          congrArg Prod.snd hconnect
        rwa [hclient] at hkeep
      cases r with
      | ok _ => simpa [timeoutNote, PhaseInForce] using hnew
      | error _ => simp [PhaseInForce]
  | giveSlotBack =>
      obtain ⟨-, rfl⟩ := PoolState.step_giveSlotBack h
      simp [PhaseInForce]
  | perform work =>
      obtain ⟨c, hph, rfl⟩ := PoolState.step_perform h
      have hold : InForce (borrowTimeout log t) (s.clients c) := by
        simpa [PhaseInForce, hph] using hinv
      simpa [timeoutNote, PhaseInForce, recordedClients] using work.record_inForce hold
  | release now =>
      obtain ⟨_, healthy, -, rfl⟩ := PoolState.step_release h
      cases healthy <;> simp [PhaseInForce]
  | close =>
      obtain ⟨_, -, rfl⟩ := PoolState.step_close h
      simp [PhaseInForce]

theorem allInForce_invariant :
    (recordedPool host port).Invariant Lts.always AllInForce where
  init w hw t := by
    obtain ⟨⟨-, -, hout⟩, -⟩ := hw
    rw [hout t]
    trivial
  step w l w' hr h _ hstep u := by
    obtain ⟨t, l⟩ := l
    obtain ⟨hpool, -, -, hlog⟩ := Lts.step_watched hstep
    change w.state.step (recordedClients host port) t l = some w'.state at hpool
    rw [hlog]
    by_cases hu : u = t
    · subst hu
      exact phaseInForce_step hpool (h u)
    · -- the other threads keep their phases, their timeouts and their clients
      have hreach := hr.unwatched
      have howned := ((poolInv_invariant _).reachable hreach).owned
      have hdropped := (dropped_invariant _).reachable hreach
      have hasked : borrowTimeout (w.log ++ timeoutNote w.state (t, l)) u =
          borrowTimeout w.log u := by
        cases l <;> simp [timeoutNote, borrowTimeout_append, hu]
      have hclient := fun c => client_step (c := c) howned hdropped hpool hu
      have hold := h u
      rw [hasked, PoolState.step_threads hpool hu]
      revert hold hclient
      cases w.state.threads u <;> simp +contextual [PhaseInForce, Phase.held]

/-- In every history of borrows, the blocking calls of the current borrow of a client, from the
connect on, wait for the `socket_timeout` that its borrower has asked for, up to the further
reads of `_recv_until_timeout`, which wait for their own time. Without the records the history
is one of the pool of clients. -/
theorem no_timeout_leaks {w : Watched (PoolState RecordedClient) (Nat × Int)}
    (h : (recordedPool host port).Reachable Lts.always w) {t c : Nat}
    (hc : w.state.threads t = .borrowed c ∨ ∃ healthy, w.state.threads t = .used c healthy) :
    (poolLts (methodClients host port)).Reachable Lts.always
        (w.state.map RecordedClient.client) ∧
      (w.state.clients c).client.timeout = borrowTimeout w.log t ∧
      ∀ call ∈ (w.state.clients c).calls, call.Fits (borrowTimeout w.log t) := by
  have hphase := allInForce_invariant.reachable h t
  refine ⟨(recordedClients_maps host port).reachable h.unwatched, ?_⟩
  rcases hc with hc | ⟨healthy, hc⟩ <;>
  · rw [hc] at hphase
    exact hphase

/-- A borrower that asks the target for its version. -/
def versionWork : BorrowedWork where
  calls := [⟨_, (Recording.version (tableRuntime [] "")).effect⟩]
  healthy := true

/-- A borrow for 60 seconds and a borrow of the same client for 10 seconds. -/
def twoBorrows : List (Nat × PoolStep (Except PyErr Endpoint) BorrowedWork) :=
  [(0, .call 0 10 60), (0, .takeSlot 0), (0, .create),
    (0, .connected (.ok fun _ _ => { reply := [.data (asciiBytes "\"1.8.0\"")] })),
    (0, .perform versionWork), (0, .release 1), (1, .call 2 10 10), (1, .takeSlot 2), (1, .reuse),
    (1, .perform versionWork)]

/-- The state after the second borrower has asked. -/
def twoBorrowsEnd : Watched (PoolState RecordedClient) (Nat × Int) :=
  ((recordedPool "10.0.0.1" 9000).run twoBorrows
    ⟨{ clients := fun _ => { client := { host := "", port := 0, timeout := 0 } } }, 0, []⟩).get rfl

theorem no_timeout_leaks_witness :
    (twoBorrowsEnd.state.clients 0).calls =
      [⟨.send, 10000⟩, ⟨.recv, 10000⟩, ⟨.further 500, 500⟩] ∧
    (twoBorrowsEnd.state.clients 0).client.timeout = borrowTimeout twoBorrowsEnd.log 1 :=
  ⟨by decide +kernel, (no_timeout_leaks (.of_run (.init ⟨⟨rfl, rfl, fun _ => rfl⟩, rfl⟩)
    (Option.some_get rfl).symm) (.inr ⟨true, rfl⟩)).2.1⟩

end McpSocketServer
