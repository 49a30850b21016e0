import Mathlib.Data.List.Basic

/-!
# Reading a segmented stream under timeouts

What a reader of a stream meets, in order: silences, segments of data, the end of the
stream, faults. `recv` is one blocking read with a size limit and a timeout; a silence
longer than what is left of the timeout ends it, and the rest of that silence stays on the
wire. Over it stand the two loops that protocols use, `readExactly` and
`readUntilSilence`.

Every read conserves the data: what it returns or drops, followed by what it leaves, is
what was there. `burst` says from the arrivals alone how far a reading loop gets, for every
segmentation.
-/

namespace McpSocketServer

/-- One event on a stream of items `α`, with faults `ε`. -/
inductive Arrival (α ε : Type) where
  | silence (ms : Nat)
  | data (items : List α)
  | eof
  | fault (e : ε)
  deriving DecidableEq, Repr

/-- The arrivals that a reader has not consumed yet. -/
abbrev Wire (α ε : Type) := List (Arrival α ε)

/-- Why a read returned no data. -/
inductive Ending (ε : Type) where
  | closed
  | expired
  | failed (e : ε)
  deriving DecidableEq, Repr

namespace Wire

variable {α β ε : Type}

/-- All data on the wire, across silences, faults and an end of stream. -/
def contents : Wire α ε → List α
  | [] => []
  | .data items :: w => items ++ contents w
  | .silence _ :: w => contents w
  | .eof :: w => contents w
  | .fault _ :: w => contents w

/-- Segments, each behind a silence. -/
def paced (segs : List (Nat × List α)) : Wire α ε :=
  segs.flatMap fun seg => [.silence seg.1, .data seg.2]

/-- Apply a function to every datum. -/
def mapItems (f : α → β) (w : Wire α ε) : Wire β ε :=
  w.map fun
    | .silence ms => .silence ms
    | .data items => .data (items.map f)
    | .eof => .eof
    | .fault e => .fault e

/-- One blocking read of at most `limit` items with timeout `τ`. The end of the stream stays
on the wire, a fault is consumed. -/
def recv (limit : Nat) : Nat → Wire α ε → Except (Ending ε) (List α) × Wire α ε
  | _, [] => (.error .expired, [])
  | τ, .silence d :: w =>
    if d ≤ τ then recv limit (τ - d) w else (.error .expired, .silence (d - τ) :: w)
  | τ, .data [] :: w => recv limit τ w
  | _, .data (a :: as) :: w => (.ok ((a :: as).take limit), .data ((a :: as).drop limit) :: w)
  | _, .eof :: w => (.error .closed, .eof :: w)
  | _, .fault e :: w => (.error (.failed e), w)

/-- Read until `need` items are there, at most `limit` in one read. Every read returns an item
or ends the loop, so `need` is enough fuel. -/
def readExactly (limit τ : Nat) : Nat → Nat → Wire α ε → Except (Ending ε) (List α) × Wire α ε
  | _, 0, w => (.ok [], w)
  | 0, _ + 1, w => (.error .expired, w)
  | fuel + 1, need + 1, w =>
    match recv (min limit (need + 1)) τ w with
    | (.error e, w') => (.error e, w')
    | (.ok items, w') =>
      match readExactly limit τ fuel (need + 1 - items.length) w' with
      | (.error e, w'') => (.error e, w'')
      | (.ok rest, w'') => (.ok (items ++ rest), w'')

/-- Read on until a read returns no data. One unit of fuel more than there are data on the
wire is enough. -/
def readUntilSilence (limit gap : Nat) : Nat → Wire α ε → (List α × Ending ε) × Wire α ε
  | 0, w => (([], .expired), w)
  | fuel + 1, w =>
    match recv limit gap w with
    | (.error e, w') => (([], e), w')
    | (.ok items, w') =>
      let r := readUntilSilence limit gap fuel w'
      ((items ++ r.1.1, r.1.2), r.2)

/-- The data met by reads of which the first waits up to `τ` and each later one up to `gap`. -/
def burst (gap : Nat) : Nat → Wire α ε → List α
  | _, [] => []
  | τ, .silence d :: w => if d ≤ τ then burst gap (τ - d) w else []
  | τ, .data [] :: w => burst gap τ w
  | _, .data (a :: as) :: w => a :: as ++ burst gap gap w
  | _, .eof :: _ => []
  | _, .fault _ :: _ => []

/-- What ends such reads. -/
def ending (gap : Nat) : Nat → Wire α ε → Ending ε
  | _, [] => .expired
  | τ, .silence d :: w => if d ≤ τ then ending gap (τ - d) w else .expired
  | τ, .data [] :: w => ending gap τ w
  | _, .data (_ :: _) :: w => ending gap gap w
  | _, .eof :: _ => .closed
  | _, .fault e :: _ => .failed e

/-- Such reads meet all data. -/
def Drains (gap τ : Nat) (w : Wire α ε) : Prop := burst gap τ w = contents w

@[simp] theorem contents_nil : contents ([] : Wire α ε) = [] := rfl

@[simp] theorem contents_append (w v : Wire α ε) :
    contents (w ++ v) = contents w ++ contents v := by
  induction w with
  | nil => rfl
  | cons a w ih => cases a <;> simp [contents, ih]

@[simp] theorem contents_mapItems (f : α → β) (w : Wire α ε) :
    contents (mapItems f w) = (contents w).map f := by
  induction w with
  | nil => rfl
  | cons a w ih =>
      cases a <;> simp only [mapItems, List.map_cons, contents, List.map_append] at ih ⊢ <;>
        rw [ih]

/-! ### One read -/

/-- A successful read returns the first items of the contents and leaves the others. -/
theorem recv_ok {limit τ : Nat} {w w' : Wire α ε} {items : List α}
    (h : recv limit τ w = (.ok items, w')) :
    w.contents = items ++ w'.contents ∧ items.length ≤ limit ∧ (0 < limit → items ≠ []) := by
  fun_induction recv limit τ w with
  | case1 => cases h
  | case2 _ _ _ _ ih => exact ih h
  | case3 => cases h
  | case4 _ _ ih => exact ih h
  | case5 τ a as w =>
      simp only [Prod.mk.injEq, Except.ok.injEq] at h
      obtain ⟨rfl, rfl⟩ := h
      refine ⟨?_, List.length_take_le _ _, fun hpos => ?_⟩
      · rw [contents, contents, ← List.append_assoc, List.take_append_drop]
      · cases limit with
        | zero => exact absurd hpos (Nat.lt_irrefl 0)
        | succ n => simp
  | case6 => cases h
  | case7 => cases h

/-- A read without data leaves the contents. -/
theorem recv_error {limit τ : Nat} {w w' : Wire α ε} {e : Ending ε}
    (h : recv limit τ w = (.error e, w')) : w'.contents = w.contents := by
  fun_induction recv limit τ w with
  | case1 => cases h; rfl
  | case2 _ _ _ _ ih => exact ih h
  | case3 => cases h; rfl
  | case4 _ _ ih => exact ih h
  | case5 => cases h
  | case6 => cases h; rfl
  | case7 => cases h; rfl

/-- A read with data takes the beginning of the burst. -/
theorem recv_ok_burst {limit τ gap : Nat} {w w' : Wire α ε} {items : List α}
    (h : recv limit τ w = (.ok items, w')) : burst gap τ w = items ++ burst gap gap w' := by
  fun_induction recv limit τ w with
  | case1 => cases h
  | case2 _ _ _ hd ih => rw [burst, if_pos hd]; exact ih h
  | case3 => cases h
  | case4 _ _ ih => exact ih h
  | case5 τ a as w =>
      simp only [Prod.mk.injEq, Except.ok.injEq] at h
      obtain ⟨rfl, rfl⟩ := h
      have hrest : burst gap gap (.data ((a :: as).drop limit) :: w) =
          (a :: as).drop limit ++ burst gap gap w := by
        cases (a :: as).drop limit <;> rfl
      rw [hrest, ← List.append_assoc, List.take_append_drop, burst]
  | case6 => cases h
  | case7 => cases h

/-- A read without data meets an empty burst. -/
theorem recv_error_burst {limit τ gap : Nat} {w w' : Wire α ε} {e : Ending ε}
    (h : recv limit τ w = (.error e, w')) : burst gap τ w = [] := by
  fun_induction recv limit τ w with
  | case1 => rfl
  | case2 _ _ _ hd ih => rw [burst, if_pos hd]; exact ih h
  | case3 _ _ _ hd => rw [burst, if_neg hd]
  | case4 _ _ ih => exact ih h
  | case5 => cases h
  | case6 => rfl
  | case7 => rfl

/-- A read with data leaves the ending. -/
theorem recv_ok_ending {limit τ gap : Nat} {w w' : Wire α ε} {items : List α}
    (h : recv limit τ w = (.ok items, w')) : ending gap τ w = ending gap gap w' := by
  fun_induction recv limit τ w with
  | case1 => cases h
  | case2 _ _ _ hd ih => rw [ending, if_pos hd]; exact ih h
  | case3 => cases h
  | case4 _ _ ih => exact ih h
  | case5 τ a as w =>
      simp only [Prod.mk.injEq, Except.ok.injEq] at h
      obtain ⟨-, rfl⟩ := h
      cases (a :: as).drop limit <;> rfl
  | case6 => cases h
  | case7 => cases h

/-- A read without data meets the ending. -/
theorem recv_error_ending {limit τ gap : Nat} {w w' : Wire α ε} {e : Ending ε}
    (h : recv limit τ w = (.error e, w')) : ending gap τ w = e := by
  fun_induction recv limit τ w with
  | case1 => cases h; rfl
  | case2 _ _ _ hd ih => rw [ending, if_pos hd]; exact ih h
  | case3 _ _ _ hd => cases h; rw [ending, if_neg hd]
  | case4 _ _ ih => exact ih h
  | case5 => cases h
  | case6 => cases h; rfl
  | case7 => cases h; rfl

/-- A read puts no fault on the wire. -/
theorem recv_fault_mem {limit τ : Nat} {w : Wire α ε} {e : ε}
    (h : .fault e ∈ (recv limit τ w).2) : .fault e ∈ w := by
  fun_induction recv limit τ w with
  | case1 => exact h
  | case2 _ _ _ _ ih => exact List.mem_cons_of_mem _ (ih h)
  | case3 =>
      rcases List.mem_cons.mp h with heq | hmem
      · cases heq
      · exact List.mem_cons_of_mem _ hmem
  | case4 _ _ ih => exact List.mem_cons_of_mem _ (ih h)
  | case5 =>
      rcases List.mem_cons.mp h with heq | hmem
      · cases heq
      · exact List.mem_cons_of_mem _ hmem
  | case6 => exact h
  | case7 => exact List.mem_cons_of_mem _ h

/-! ### Reading an exact amount -/

/-- The runs of the loop of exact reads that come to an end, without a bound on their turns. -/
inductive ReadsExactly (limit τ : Nat) :
    Nat → Wire α ε → Except (Ending ε) (List α) → Wire α ε → Prop
  | done (w : Wire α ε) : ReadsExactly limit τ 0 w (.ok []) w
  | stop {need : Nat} {w w' : Wire α ε} {e : Ending ε} :
      recv (min limit (need + 1)) τ w = (.error e, w') →
      ReadsExactly limit τ (need + 1) w (.error e) w'
  | turn {need : Nat} {w w' w'' : Wire α ε} {items : List α}
      {r : Except (Ending ε) (List α)} :
      recv (min limit (need + 1)) τ w = (.ok items, w') →
      ReadsExactly limit τ (need + 1 - items.length) w' r w'' →
      ReadsExactly limit τ (need + 1) w (r.map (items ++ ·)) w''

/-- The loop comes to an end on every wire, as `readExactly` says. -/
theorem readsExactly {limit τ fuel need : Nat} (hlimit : 0 < limit) (hfuel : need ≤ fuel)
    (w : Wire α ε) : ReadsExactly limit τ need w (readExactly limit τ fuel need w).1
      (readExactly limit τ fuel need w).2 := by
  induction fuel generalizing need w with
  | zero =>
      obtain rfl : need = 0 := Nat.le_zero.mp hfuel
      exact .done w
  | succ fuel ih =>
      cases need with
      | zero => exact .done w
      | succ need =>
          rcases hr : recv (min limit (need + 1)) τ w with ⟨e | chunk, w₁⟩
          · simp only [readExactly, hr]
            exact .stop hr
          · have hpos : 0 < chunk.length := List.length_pos_iff.mpr ((recv_ok hr).2.2 (by omega))
            have hrest := ReadsExactly.turn hr (ih (by omega) w₁)
            rcases hw : readExactly limit τ fuel (need + 1 - chunk.length) w₁ with
              ⟨e | rest, w₂⟩ <;>
            · rw [hw] at hrest
              simpa only [readExactly, hr, hw, Except.map] using hrest

theorem reads_of_readExactly {limit τ need : Nat} {w w' : Wire α ε}
    {r : Except (Ending ε) (List α)} (hlimit : 0 < limit)
    (h : readExactly limit τ need need w = (r, w')) : ReadsExactly limit τ need w r w' := by
  have hreads : ReadsExactly limit τ need w _ _ := readsExactly hlimit (Nat.le_refl need) w
  rwa [h] at hreads

namespace ReadsExactly

variable {limit τ need : Nat} {w w' : Wire α ε} {items : List α}

/-- A completed exact read returns the first `need` items and leaves the others; what it returns
is the beginning of the burst. -/
theorem ok (h : ReadsExactly limit τ need w (.ok items) w') :
    w.contents = items ++ w'.contents ∧ items.length = need ∧
      burst τ τ w = items ++ burst τ τ w' := by
  generalize hr : Except.ok items = r at h
  induction h generalizing items with
  | done w =>
      obtain rfl := Except.ok.inj hr
      exact ⟨rfl, rfl, rfl⟩
  | stop => cases hr
  | @turn need w w₁ w₂ chunk r hrecv _ ih =>
      cases r with
      | error e => cases hr
      | ok rest =>
          obtain rfl := Except.ok.inj hr
          obtain ⟨hrest, hlen, hburst⟩ := ih rfl
          obtain ⟨hchunk, hle, -⟩ := recv_ok hrecv
          refine ⟨by rw [hchunk, hrest, List.append_assoc], ?_, ?_⟩
          · rw [List.length_append, hlen]
            omega
          · rw [recv_ok_burst hrecv, hburst, List.append_assoc]

/-- An exact read fails only when the burst is too short. -/
theorem error {e : Ending ε} (h : ReadsExactly limit τ need w (.error e) w') :
    (burst τ τ w).length < need := by
  generalize hr : Except.error e = r at h
  induction h with
  | done => cases hr
  | @stop need w w₁ e' hrecv =>
      rw [recv_error_burst hrecv]
      exact Nat.succ_pos need
  | @turn need w w₁ w₂ chunk r hrecv _ ih =>
      cases r with
      | ok rest => cases hr
      | error e' =>
          have hrest := ih (congrArg _ (Except.error.inj hr))
          rw [recv_ok_burst hrecv, List.length_append]
          omega

/-- A completed exact read leaves a wire that drains exactly when the wire before did. -/
theorem drains (h : ReadsExactly limit τ need w (.ok items) w') :
    Drains τ τ w' ↔ Drains τ τ w := by
  obtain ⟨hcont, -, hburst⟩ := h.ok
  rw [Drains, Drains, hcont, hburst, List.append_cancel_left_eq]

/-- An exact read of data that are there and keep coming does not fail. -/
theorem not_error {e : Ending ε} (h : ReadsExactly limit τ need w (.error e) w')
    (hneed : need ≤ w.contents.length) : ¬ Drains τ τ w := by
  intro hw
  have hlt := h.error
  rw [hw] at hlt
  exact absurd hneed (Nat.not_le.mpr hlt)

/-- An exact read puts no fault on the wire. -/
theorem fault_mem {r : Except (Ending ε) (List α)} (h : ReadsExactly limit τ need w r w') {e : ε}
    (he : .fault e ∈ w') : .fault e ∈ w := by
  induction h with
  | done => exact he
  | stop hrecv => exact recv_fault_mem (by rw [hrecv]; exact he)
  | turn hrecv _ ih => exact recv_fault_mem (by rw [hrecv]; exact ih he)

end ReadsExactly

/-! ### Reading until a silence -/

/-- What the loop returns, followed by what it leaves, is what was there. -/
theorem readUntilSilence_contents {limit gap fuel : Nat} {w w' : Wire α ε} {items : List α}
    {e : Ending ε} (h : readUntilSilence limit gap fuel w = ((items, e), w')) :
    w.contents = items ++ w'.contents := by
  induction fuel generalizing w items with
  | zero =>
      simp only [readUntilSilence, Prod.mk.injEq] at h
      obtain ⟨⟨rfl, -⟩, rfl⟩ := h
      rfl
  | succ fuel ih =>
      rcases hr : recv limit gap w with ⟨e' | chunk, w₁⟩
      · simp only [readUntilSilence, hr, Prod.mk.injEq] at h
        obtain ⟨⟨rfl, -⟩, rfl⟩ := h
        rw [recv_error hr]
        rfl
      · rcases hrest : readUntilSilence limit gap fuel w₁ with ⟨⟨rest, e'⟩, w₂⟩
        simp only [readUntilSilence, hr, hrest, Prod.mk.injEq] at h
        obtain ⟨⟨rfl, rfl⟩, rfl⟩ := h
        rw [(recv_ok hr).1, ih hrest, List.append_assoc]

/-- With enough fuel the loop returns the burst and what ends it. -/
theorem readUntilSilence_burst {limit gap fuel : Nat} {w w' : Wire α ε} {items : List α}
    {e : Ending ε} (hlimit : 0 < limit) (hfuel : w.contents.length < fuel)
    (h : readUntilSilence limit gap fuel w = ((items, e), w')) :
    items = burst gap gap w ∧ e = ending gap gap w := by
  induction fuel generalizing w items with
  | zero => exact absurd hfuel (Nat.not_lt_zero _)
  | succ fuel ih =>
      rcases hr : recv limit gap w with ⟨e' | chunk, w₁⟩
      · simp only [readUntilSilence, hr, Prod.mk.injEq] at h
        obtain ⟨⟨rfl, rfl⟩, -⟩ := h
        exact ⟨(recv_error_burst hr).symm, (recv_error_ending hr).symm⟩
      · rcases hrest : readUntilSilence limit gap fuel w₁ with ⟨⟨rest, e'⟩, w₂⟩
        simp only [readUntilSilence, hr, hrest, Prod.mk.injEq] at h
        obtain ⟨⟨rfl, rfl⟩, rfl⟩ := h
        obtain ⟨hcont, -, hne⟩ := recv_ok hr
        have hpos : 0 < chunk.length := List.length_pos_iff.mpr (hne hlimit)
        rw [hcont, List.length_append] at hfuel
        obtain ⟨hrest', hend⟩ := ih (by omega) hrest
        rw [recv_ok_burst hr, recv_ok_ending hr, ← hrest', ← hend]
        exact ⟨rfl, rfl⟩

/-! ### Bursts -/

/-- Whether anything is met depends on the first timeout alone. -/
theorem burst_eq_nil {gap τ : Nat} {w : Wire α ε} (gap' : Nat) (h : burst gap τ w = []) :
    burst gap' τ w = [] := by
  fun_induction burst gap τ w with
  | case1 => rfl
  | case2 τ d w hd ih =>
      rw [burst, if_pos hd]
      exact ih h
  | case3 τ d w hd => rw [burst, if_neg hd]
  | case4 τ w ih => exact ih h
  | case5 => cases h
  | case6 => rfl
  | case7 => rfl

/-- Only a fault on the wire ends reads as a fault. -/
theorem fault_mem_of_ending {gap τ : Nat} {w : Wire α ε} {e : ε}
    (h : ending gap τ w = .failed e) : .fault e ∈ w := by
  fun_induction ending gap τ w with
  | case1 => cases h
  | case2 _ _ _ _ ih => exact List.mem_cons_of_mem _ (ih h)
  | case3 => cases h
  | case4 _ _ ih => exact List.mem_cons_of_mem _ (ih h)
  | case5 _ _ _ _ ih => exact List.mem_cons_of_mem _ (ih h)
  | case6 => cases h
  | case7 =>
      obtain rfl := Ending.failed.inj h
      exact List.mem_cons_self

theorem burst_mapItems (f : α → β) (gap τ : Nat) (w : Wire α ε) :
    burst gap τ (mapItems f w) = (burst gap τ w).map f := by
  fun_induction burst gap τ w with
  | case1 => rfl
  | case2 τ d w hd ih =>
      calc burst gap τ (mapItems f (.silence d :: w))
          = burst gap (τ - d) (mapItems f w) := by
            simp only [mapItems, List.map_cons, burst, if_pos hd]
        _ = (burst gap (τ - d) w).map f := ih
  | case3 τ d w hd => simp only [mapItems, List.map_cons, burst, if_neg hd, List.map_nil]
  | case4 τ w ih => exact ih
  | case5 τ a as w ih =>
      calc burst gap τ (mapItems f (.data (a :: as) :: w))
          = (a :: as).map f ++ burst gap gap (mapItems f w) := rfl
        _ = (a :: as ++ burst gap gap w).map f := by rw [ih, List.map_append]
  | case6 => rfl
  | case7 => rfl

/-- A burst is the beginning of the data. -/
theorem burst_prefix (gap τ : Nat) (w : Wire α ε) : burst gap τ w <+: contents w := by
  fun_induction burst gap τ w with
  | case1 => exact List.prefix_rfl
  | case2 _ _ _ _ ih => exact ih
  | case3 => exact List.nil_prefix
  | case4 _ _ ih => exact ih
  | case5 τ a as w ih => exact (List.prefix_append_right_inj (a :: as)).mpr ih
  | case6 => exact List.nil_prefix
  | case7 => exact List.nil_prefix

/-- Without data there is nothing to drain. -/
theorem drains_of_nil {gap τ : Nat} {w : Wire α ε} (h : w.contents = []) : Drains gap τ w := by
  have hprefix := burst_prefix gap τ w
  rw [h] at hprefix
  rw [Drains, h]
  exact List.prefix_nil.mp hprefix

/-- One segment that is there drains. -/
theorem drains_data (gap τ : Nat) (items : List α) :
    Drains gap τ [(.data items : Arrival α ε)] := by
  cases items <;> rfl

/-- Behind arrivals without data, a burst is that of what follows under a shorter first
timeout, or empty. -/
theorem burst_append {gap τ : Nat} {w v : Wire α ε} (hw : w.contents = []) :
    burst gap τ (w ++ v) = [] ∨ ∃ τ', burst gap τ (w ++ v) = burst gap τ' v := by
  fun_induction burst gap τ w with
  | case1 τ => exact Or.inr ⟨τ, rfl⟩
  | case2 τ d w hd ih =>
      have hskip : burst gap τ (.silence d :: w ++ v) = burst gap (τ - d) (w ++ v) := by
        rw [List.cons_append, burst, if_pos hd]
      rw [hskip]
      exact ih hw
  | case3 τ d w hd =>
      left
      rw [List.cons_append, burst, if_neg hd]
  | case4 τ w ih => exact ih hw
  | case5 => cases hw
  | case6 => exact Or.inl rfl
  | case7 => exact Or.inl rfl

/-! ### Segments behind silences -/

/-- Such reads meet the segments before the first silence that is too long. -/
theorem burst_paced {gap : Nat} {segs : List (Nat × List α)} {w : Wire α ε}
    (hne : ∀ seg ∈ segs, seg.2 ≠ []) (hw : w.contents = []) :
    burst gap gap (paced segs ++ w) =
      (segs.takeWhile fun seg => seg.1 ≤ gap).flatMap Prod.snd := by
  induction segs with
  | nil => exact List.prefix_nil.mp (hw ▸ burst_prefix gap gap w)
  | cons seg segs ih =>
      obtain ⟨d, items⟩ := seg
      obtain ⟨a, as, rfl⟩ := List.exists_cons_of_ne_nil (hne _ List.mem_cons_self)
      have hrest := ih fun seg hseg => hne seg (List.mem_cons_of_mem _ hseg)
      change burst gap gap (.silence d :: .data (a :: as) :: (paced segs ++ w)) = _
      by_cases hd : d ≤ gap
      · rw [burst, if_pos hd, burst, hrest, List.takeWhile_cons_of_pos (by simpa using hd),
          List.flatMap_cons]
      · rw [burst, if_neg hd, List.takeWhile_cons_of_neg (by simpa using hd), List.flatMap_nil]

/-- The first of them may wait longer or shorter. -/
theorem burst_paced_cons {gap τ : Nat} {seg : Nat × List α} {segs : List (Nat × List α)}
    {w : Wire α ε} (hne : ∀ s ∈ seg :: segs, s.2 ≠ []) (hw : w.contents = []) :
    burst gap τ (paced (seg :: segs) ++ w) =
      if seg.1 ≤ τ then seg.2 ++ (segs.takeWhile fun s => s.1 ≤ gap).flatMap Prod.snd else [] := by
  obtain ⟨d, items⟩ := seg
  obtain ⟨a, as, rfl⟩ := List.exists_cons_of_ne_nil (hne _ List.mem_cons_self)
  have hrest : burst gap gap (paced segs ++ w) =
      (segs.takeWhile fun s => s.1 ≤ gap).flatMap Prod.snd :=
    burst_paced (fun s hs => hne s (List.mem_cons_of_mem _ hs)) hw
  change burst gap τ (.silence d :: .data (a :: as) :: (paced segs ++ w)) = _
  by_cases hd : d ≤ τ
  · rw [burst, if_pos hd, burst, hrest, if_pos hd]
  · rw [burst, if_neg hd, if_neg hd]

/-- Only a silence that is too long keeps segments from being met. -/
theorem takeWhile_flatMap_eq_iff {gap : Nat} {segs : List (Nat × List α)}
    (hne : ∀ seg ∈ segs, seg.2 ≠ []) :
    (segs.takeWhile fun seg => seg.1 ≤ gap).flatMap Prod.snd = segs.flatMap Prod.snd ↔
      ∀ seg ∈ segs, seg.1 ≤ gap := by
  induction segs with
  | nil => simp
  | cons seg segs ih =>
      have hrest := ih fun s hs => hne s (List.mem_cons_of_mem _ hs)
      by_cases hd : seg.1 ≤ gap
      · rw [List.takeWhile_cons_of_pos (by simpa using hd), List.flatMap_cons, List.flatMap_cons,
          List.append_cancel_left_eq, hrest, List.forall_mem_cons]
        exact (and_iff_right hd).symm
      · rw [List.takeWhile_cons_of_neg (by simpa using hd), List.flatMap_nil, List.flatMap_cons]
        refine iff_of_false (fun hnil => ?_) fun hall => hd (hall seg List.mem_cons_self)
        exact hne seg List.mem_cons_self (List.append_eq_nil_iff.mp hnil.symm).1

/-! ### Data that keep coming -/

/-- Nothing but data is on the wire, each item comes within `gap` of the last one, and the first
within `τ`. -/
def Steady (gap : Nat) : Nat → Wire α ε → Prop
  | _, [] => True
  | τ, .silence d :: w => d ≤ τ ∧ contents w ≠ [] ∧ Steady gap (τ - d) w
  | τ, .data [] :: w => Steady gap τ w
  | _, .data (_ :: _) :: w => Steady gap gap w
  | _, .eof :: _ => False
  | _, .fault _ :: _ => False

theorem Steady.drains {gap τ : Nat} {w : Wire α ε} (h : Steady gap τ w) : Drains gap τ w := by
  unfold Drains
  fun_induction burst gap τ w with
  | case1 => rfl
  | case2 τ d w hd ih => exact ih h.2.2
  | case3 τ d w hd => exact absurd h.1 hd
  | case4 τ w ih => exact ih h
  | case5 τ a as w ih =>
      rw [ih h]
      rfl
  | case6 => exact h.elim
  | case7 => exact h.elim

theorem Steady.ending {gap τ : Nat} {w : Wire α ε} (h : Steady gap τ w) :
    w.ending gap τ = .expired := by
  fun_induction Wire.ending gap τ w with
  | case1 => rfl
  | case2 τ d w hd ih => exact ih h.2.2
  | case3 => rfl
  | case4 τ w ih => exact ih h
  | case5 τ a as w ih => exact ih h
  | case6 => exact h.elim
  | case7 => exact h.elim

/-- Longer pauses may be allowed. -/
theorem Steady.mono {gap gap' τ τ' : Nat} {w : Wire α ε} (h : Steady gap τ w) (hgap : gap ≤ gap')
    (hτ : τ ≤ τ') : Steady gap' τ' w := by
  induction w generalizing τ τ' with
  | nil => trivial
  | cons a w ih =>
      cases a with
      | silence d => exact ⟨Nat.le_trans h.1 hτ, h.2.1, ih h.2.2 (by omega)⟩
      | data items =>
          cases items with
          | nil => exact ih h hτ
          | cons a as => exact ih h hgap
      | eof => exact h.elim
      | fault e => exact h.elim

/-- Where everything has been read there is no silence either. -/
theorem Steady.of_nil {gap τ : Nat} {w : Wire α ε} (h : Steady gap τ w) (hw : w.contents = [])
    (gap' τ' : Nat) : Steady gap' τ' w := by
  induction w generalizing τ with
  | nil => trivial
  | cons a w ih =>
      cases a with
      | silence d => exact absurd hw h.2.1
      | data items =>
          cases items with
          | nil => exact ih h hw
          | cons a as => cases hw
      | eof => exact h.elim
      | fault e => exact h.elim

/-- Behind what has been read comes what arrives next. -/
theorem Steady.append {gap τ : Nat} {w v : Wire α ε} (h : Steady gap τ w) (hw : w.contents = [])
    (hv : Steady gap τ v) : Steady gap τ (w ++ v) := by
  induction w with
  | nil => exact hv
  | cons a w ih =>
      cases a with
      | silence d => exact absurd hw h.2.1
      | data items =>
          cases items with
          | nil => exact ih h hw
          | cons a as => cases hw
      | eof => exact h.elim
      | fault e => exact h.elim

/-- What has been read hides nothing of what arrives next. -/
theorem Steady.skip {gap τ : Nat} {w : Wire α ε} (h : Steady gap τ w) (hw : w.contents = [])
    (gap' : Nat) (v : Wire α ε) :
    burst gap' τ (w ++ v) = burst gap' τ v ∧
      Wire.ending gap' τ (w ++ v) = Wire.ending gap' τ v := by
  induction w with
  | nil => exact ⟨rfl, rfl⟩
  | cons a w ih =>
      cases a with
      | silence d => exact absurd hw h.2.1
      | data items =>
          cases items with
          | nil => exact ih h hw
          | cons a as => cases hw
      | eof => exact h.elim
      | fault e => exact h.elim

theorem Steady.mapItems {gap τ : Nat} {w : Wire α ε} (h : Steady gap τ w) (f : α → β) :
    Steady gap τ (w.mapItems f) := by
  induction w generalizing τ with
  | nil => trivial
  | cons a w ih =>
      cases a with
      | silence d =>
          refine ⟨h.1, fun hnil => h.2.1 ?_, ih h.2.2⟩
          exact List.map_eq_nil_iff.mp ((contents_mapItems f w).symm.trans hnil)
      | data items =>
          cases items with
          | nil => exact ih h
          | cons a as => exact ih h
      | eof => exact h.elim
      | fault e => exact h.elim

theorem Steady.recv_ok {limit gap τ : Nat} {w w' : Wire α ε} {items : List α}
    (h : Steady gap τ w) (hr : recv limit τ w = (.ok items, w')) : Steady gap gap w' := by
  fun_induction recv limit τ w with
  | case1 => cases hr
  | case2 _ _ _ _ ih => exact ih h.2.2 hr
  | case3 => cases hr
  | case4 _ _ ih => exact ih h hr
  | case5 τ a as w =>
      simp only [Prod.mk.injEq, Except.ok.injEq] at hr
      obtain ⟨-, rfl⟩ := hr
      cases (a :: as).drop limit <;> exact h
  | case6 => exact h.elim
  | case7 => exact h.elim

/-- A read without data has met the end of the wire. -/
theorem Steady.recv_error {limit gap τ : Nat} {w w' : Wire α ε} {e : Ending ε}
    (h : Steady gap τ w) (hr : recv limit τ w = (.error e, w')) : w' = [] := by
  fun_induction recv limit τ w with
  | case1 =>
      cases hr
      rfl
  | case2 _ _ _ _ ih => exact ih h.2.2 hr
  | case3 _ _ _ hd => exact absurd h.1 hd
  | case4 _ _ ih => exact ih h hr
  | case5 => cases hr
  | case6 => exact h.elim
  | case7 => exact h.elim

/-- Reading on until a silence reads everything. -/
theorem Steady.readUntilSilence {limit gap fuel : Nat} {w w' : Wire α ε} {items : List α}
    {e : Ending ε} (h : Steady gap gap w) (hlimit : 0 < limit) (hfuel : w.contents.length < fuel)
    (hr : Wire.readUntilSilence limit gap fuel w = ((items, e), w')) : w' = [] := by
  induction fuel generalizing w items with
  | zero => exact absurd hfuel (Nat.not_lt_zero _)
  | succ fuel ih =>
      rcases hrecv : recv limit gap w with ⟨e' | chunk, w₁⟩
      · simp only [Wire.readUntilSilence, hrecv, Prod.mk.injEq] at hr
        obtain ⟨-, rfl⟩ := hr
        exact h.recv_error hrecv
      · rcases hrest : Wire.readUntilSilence limit gap fuel w₁ with ⟨⟨rest, e'⟩, w₂⟩
        simp only [Wire.readUntilSilence, hrecv, hrest, Prod.mk.injEq] at hr
        obtain ⟨⟨-, rfl⟩, rfl⟩ := hr
        obtain ⟨hcont, -, hne⟩ := Wire.recv_ok hrecv
        have hpos : 0 < chunk.length := List.length_pos_iff.mpr (hne hlimit)
        rw [hcont, List.length_append] at hfuel
        exact ih (h.recv_ok hrecv) (by omega) hrest

/-- Exact reads leave a steady wire. -/
theorem ReadsExactly.steady {limit τ need : Nat} {w w' : Wire α ε} {items : List α}
    (h : ReadsExactly limit τ need w (.ok items) w') (hw : Steady τ τ w) : Steady τ τ w' := by
  generalize hr : Except.ok items = r at h
  induction h generalizing items with
  | done => exact hw
  | stop => cases hr
  | @turn need w w₁ w₂ chunk r hrecv _ ih =>
      cases r with
      | error e => cases hr
      | ok rest => exact ih (hw.recv_ok hrecv) rfl

end Wire

end McpSocketServer
