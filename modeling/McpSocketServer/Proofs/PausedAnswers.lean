import McpSocketServer.Proofs.AnswerReads

/-!
# Answers without a length

`recv_text_response` takes the first silence of more than 500 ms behind the first segment for
the end of the answer, whatever the timeout of the client and whatever the text so far.
-/

namespace McpSocketServer

open SocketServerClient

/-- An answer in segments, each behind a silence, is all that is on the wire of `c`; `after` is
what follows it without data. -/
structure PacedAnswer (c : SocketServerClient) (ms : Nat) (segs : List (Nat × Bytes)) : Prop where
  timeout : checkTimeout (1000 * c.timeout) = .ok ms
  nonempty : ∀ seg ∈ segs, seg.2 ≠ []
  wire : ∃ s n after, c.sock = some s ∧
    s.wire = Wire.mapItems (WireByte.mk n) (Wire.paced segs ++ after) ∧
    Wire.contents after = [] ∧ ∀ e, .fault e ∉ after

/-- All bytes of the answer. -/
def wholeAnswer (segs : List (Nat × Bytes)) : Bytes := segs.flatMap Prod.snd

theorem paced_ending {n : Nat} {segs : List (Nat × Bytes)} {after : Wire UInt8 PyErr}
    (hfault : ∀ e, .fault e ∉ after) (gap ms : Nat) (e : PyErr) :
    (Wire.mapItems (WireByte.mk n) (Wire.paced segs ++ after)).ending gap ms ≠ .failed e := by
  intro he
  obtain ⟨a, ha, heq⟩ := List.mem_map.mp (Wire.fault_mem_of_ending he)
  cases a <;> cases heq
  rcases List.mem_append.mp ha with hsegs | hafter
  · obtain ⟨seg, -, hseg⟩ := List.mem_flatMap.mp hsegs
    simp at hseg
  · exact hfault e hafter

/-- What is returned of an answer whose first segment comes in time. -/
theorem recvTextResponse_paced {c : SocketServerClient} {ms : Nat} {seg : Nat × Bytes}
    {segs : List (Nat × Bytes)} (h : PacedAnswer c ms (seg :: segs)) (hfirst : seg.1 ≤ ms) :
    (recvTextResponse.exec c).1 =
      .ok (seg.2 ++ (segs.takeWhile fun s => s.1 ≤ 500).flatMap Prod.snd) := by
  obtain ⟨s, n, after, hs, hwire, hafter, hfault⟩ := h.wire
  obtain ⟨w, -, hex⟩ := recvUntilTimeout_spec hs 500 h.timeout
  have hburst : s.wire.burst 500 ms =
      (seg.2 ++ (segs.takeWhile fun s => s.1 ≤ 500).flatMap Prod.snd).map (WireByte.mk n) := by
    rw [hwire, Wire.burst_mapItems, Wire.burst_paced_cons h.nonempty hafter, if_pos hfirst]
  have hne : s.wire.burst 500 ms ≠ [] := by
    intro hnil
    rw [hburst, List.map_eq_nil_iff] at hnil
    exact h.nonempty seg List.mem_cons_self (List.append_eq_nil_iff.mp hnil).1
  have hending : ∀ e, s.wire.ending 500 ms ≠ .failed e := by
    intro e
    rw [hwire]
    exact paced_ending hfault 500 ms e
  rw [recvTextResponse, hex, lastTimeout, if_neg hne, swallow_ok (by decide) hending, hburst,
    values_map]
  rfl

/-- Nothing is returned of an answer whose first segment comes too late. -/
theorem recvTextResponse_late {c : SocketServerClient} {ms : Nat} {seg : Nat × Bytes}
    {segs : List (Nat × Bytes)} (h : PacedAnswer c ms (seg :: segs)) (hlate : ¬ seg.1 ≤ ms)
    {b : Bytes} (hb : (recvTextResponse.exec c).1 = .ok b) : b = [] := by
  obtain ⟨s, n, after, hs, hwire, hafter, -⟩ := h.wire
  have hburst : s.wire.burst 500 ms = [] := by
    rw [hwire, Wire.burst_mapItems, Wire.burst_paced_cons h.nonempty hafter, if_neg hlate]
    rfl
  obtain ⟨-, heq⟩ := recvUntilTimeout_ok hs 500 h.timeout
    (Prod.ext hb rfl : recvTextResponse.exec c = (.ok b, (recvTextResponse.exec c).2))
  rw [heq, hburst]
  rfl

/-- An answer is read whole exactly when its first segment comes within the timeout and no
silence between two segments is longer than 500 ms. -/
theorem text_whole_iff {c : SocketServerClient} {ms : Nat} {seg : Nat × Bytes}
    {segs : List (Nat × Bytes)} (h : PacedAnswer c ms (seg :: segs)) :
    (recvTextResponse.exec c).1 = .ok (wholeAnswer (seg :: segs)) ↔
      seg.1 ≤ ms ∧ ∀ s ∈ segs, s.1 ≤ 500 := by
  have hlater : (segs.takeWhile fun s => s.1 ≤ 500).flatMap Prod.snd = segs.flatMap Prod.snd ↔
      ∀ s ∈ segs, s.1 ≤ 500 :=
    Wire.takeWhile_flatMap_eq_iff fun s hs => h.nonempty s (List.mem_cons_of_mem _ hs)
  by_cases hfirst : seg.1 ≤ ms
  · rw [recvTextResponse_paced h hfirst, Except.ok.injEq, wholeAnswer, List.flatMap_cons,
      List.append_cancel_left_eq, hlater]
    exact (and_iff_right hfirst).symm
  · refine iff_of_false (fun hwhole => ?_) fun hin => hfirst hin.1
    have hnil : wholeAnswer (seg :: segs) = [] := recvTextResponse_late h hfirst hwhole
    exact h.nonempty seg List.mem_cons_self (List.append_eq_nil_iff.mp hnil).1

/-! ### A pause -/

/-- A client with a timeout of ten seconds, whose target answers in these segments. -/
def pacedClient (segs : List (Nat × Bytes)) : SocketServerClient where
  host := "10.0.0.1"
  port := 9000
  timeout := 10
  sock := some
    { timeout := 10000
      endpoint := fun _ _ => {}
      wire := Wire.mapItems (WireByte.mk 0) (Wire.paced segs)
      requests := 1 }

theorem pacedClient_answer {segs : List (Nat × Bytes)} (hne : ∀ seg ∈ segs, seg.2 ≠ []) :
    PacedAnswer (pacedClient segs) 10000 segs := by
  refine ⟨rfl, hne, _, 0, [], rfl, ?_, rfl, fun e he => by cases he⟩
  rw [List.append_nil]

/-- An answer of two segments. -/
def twoSegments (pause : Nat) : List (Nat × Bytes) :=
  [(20, asciiBytes "\x7b\"res\": "), (pause, asciiBytes "true\x7d")]

theorem twoSegments_answer (pause : Nat) :
    PacedAnswer (pacedClient (twoSegments pause)) 10000 (twoSegments pause) := by
  apply pacedClient_answer
  intro seg hseg
  rcases List.mem_pair.mp hseg with heq | heq
  · rw [heq]
    decide
  · rw [heq]
    exact (by decide : asciiBytes "true\x7d" ≠ [])

theorem text_whole_iff_witness : (recvTextResponse.exec (pacedClient (twoSegments 400))).1 =
    .ok (asciiBytes "\x7b\"res\": true\x7d") :=
  (text_whole_iff (twoSegments_answer 400)).mpr (by decide)

/-- A pause of 600 ms ends the answer, though the client would wait for ten seconds. -/
theorem text_cut : PacedAnswer (pacedClient (twoSegments 600)) 10000 (twoSegments 600) ∧
    (∀ seg ∈ twoSegments 600, seg.1 < 10000) ∧
    (recvTextResponse.exec (pacedClient (twoSegments 600))).1 = .ok (asciiBytes "\x7b\"res\": ") ∧
    asciiBytes "\x7b\"res\": " ≠ wholeAnswer (twoSegments 600) :=
  ⟨twoSegments_answer 600, by decide, recvTextResponse_paced (twoSegments_answer 600) (by decide),
    by decide⟩

end McpSocketServer
