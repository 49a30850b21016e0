import McpSocketServer.Proofs.PollingDelays

/-!
# The rounds of the polling

What the probes of `upgrade_run` confirm, how long the polling lasts and how often it asks. If
no probe takes longer than a limit, the polling is over one round after its deadline, and a
target that is given up has been asked again and again, at least three seconds apart, and never
answered with the new version.
-/

namespace McpSocketServer

open PollState

variable {rt : Runtime} {ver : String} {net : Network} {limit deadline : Nat}

/-- No probe takes longer than the limit. -/
def Network.Within (net : Network) (limit : Nat) : Prop := ∀ address t, (net address t).elapsed ≤ limit

/-- A probe of the item at the time `t` does not confirm it. -/
def Refuses (rt : Runtime) (ver : String) (net : Network) (item : PollItem) (t : Nat) : Prop :=
  (net item.address t).confirms rt ver item.host item.port = false

/-- A probe of the item that has not read the version. -/
def PollEvent.Refused (rt : Runtime) (ver : String) (net : Network) (item : PollItem)
    (p : PollEvent) : Prop :=
  p.item = item ∧ Refuses rt ver net item p.start ∧ p.read ≠ .ok (.str ver)

/-- A probe that reads the version of a target, not before a given time. -/
def PollEvent.Confirms (ver target : String) (since : Nat) (p : PollEvent) : Prop :=
  p.item.target = target ∧ p.read = .ok (.str ver) ∧ since ≤ p.start

/-! ### What the probes confirm -/

theorem confirms_iff {host : String} {port : Int} {p : Probe} :
    p.confirms rt ver host port = true ↔ p.version rt host port = .ok (.str ver) := by
  unfold Probe.confirms
  constructor
  · intro h
    split at h
    · rename_i v hv
      rw [hv, eq_of_beq h]
    · cases h
  · intro h
    rw [h]
    exact beq_self_eq_true ver

/-- A probe of a turn goes to one of the items, after the beginning. -/
theorem turnProbes_mem {items : List PollItem} {s : PollState} {p : PollEvent}
    (h : p ∈ turnProbes rt ver net items s) : p.item ∈ items ∧ s.now ≤ p.start := by
  induction items generalizing s with
  | nil => cases h
  | cons item items ih =>
      rcases List.mem_cons.mp h with rfl | h
      · exact ⟨List.mem_cons_self, Nat.le_refl _⟩
      · obtain ⟨hitem, hstart⟩ := ih h
        rw [PollState.probe_now] at hstart
        exact ⟨List.mem_cons_of_mem _ hitem, Nat.le_trans (Nat.le_add_right _ _) hstart⟩

/-- A probe of the loop goes to an item that is pending, after the beginning. -/
theorem loopProbes_mem {turns : Nat} {s : PollState} {p : PollEvent}
    (h : p ∈ loopProbes rt ver net deadline turns s) : p.item ∈ s.pending ∧ s.now ≤ p.start := by
  induction turns generalizing s with
  | zero => cases h
  | succ turns ih =>
      rw [loopProbes] at h
      split_ifs at h
      · cases h
      have hnow := @PollState.turn_now rt ver net s
      have hpending : (s.turn rt ver net).pending.Sublist s.pending := foldl_probe_pending _ _
      rcases List.mem_append.mp h with h | h
      · obtain ⟨hitem, hstart⟩ := turnProbes_mem h
        exact ⟨hitem, Nat.le_trans (Nat.le_add_right _ _) hstart⟩
      · obtain ⟨hitem, hstart⟩ := ih h
        exact ⟨hpending.subset hitem, by omega⟩

/-- What the probes of a turn confirm. -/
theorem turn_confirmed_iff {items : List PollItem} {s : PollState} {target : String} :
    target ∈ (items.foldl (PollState.probe rt ver net) s).confirmed ↔
      target ∈ s.confirmed ∨
        ∃ p ∈ turnProbes rt ver net items s, p.item ∈ items ∧ p.Confirms ver target s.now := by
  induction items generalizing s with
  | nil => simp [turnProbes]
  | cons item items ih =>
      have hnow : s.now ≤ (s.probe rt ver net item).now := by
        rw [PollState.probe_now]
        exact Nat.le_add_right _ _
      have hfirst : target ∈ (s.probe rt ver net item).confirmed ↔ target ∈ s.confirmed ∨
          item.target = target ∧
            (net item.address s.now).version rt item.host item.port = .ok (.str ver) := by
        rw [← confirms_iff]
        unfold PollState.probe
        dsimp only
        split_ifs with hconfirms
        · simp [hconfirms, eq_comm]
        · simp [hconfirms]
      rw [List.foldl_cons, ih, hfirst]
      constructor
      · rintro ((hbefore | ⟨htarget, hread⟩) | ⟨p, hp, hitem, htarget, hread, hstart⟩)
        · exact Or.inl hbefore
        · exact Or.inr ⟨_, List.mem_cons_self, List.mem_cons_self, htarget, hread, Nat.le_refl _⟩
        · exact Or.inr ⟨p, List.mem_cons_of_mem _ hp, List.mem_cons_of_mem _ hitem, htarget,
            hread, Nat.le_trans hnow hstart⟩
      · rintro (hbefore | ⟨p, hp, -, htarget, hread, -⟩)
        · exact Or.inl (Or.inl hbefore)
        · rcases List.mem_cons.mp hp with rfl | hp
          · exact Or.inl (Or.inr ⟨htarget, hread⟩)
          · obtain ⟨hitem, hstart⟩ := turnProbes_mem hp
            exact Or.inr ⟨p, hp, hitem, htarget, hread, hstart⟩

/-- What the loop confirms, it reads in a probe. -/
theorem loop_confirmed_iff {turns : Nat} {s : PollState} {target : String} :
    target ∈ (pollLoop rt ver net deadline turns s).confirmed ↔
      target ∈ s.confirmed ∨ ∃ p ∈ loopProbes rt ver net deadline turns s,
        p.item ∈ s.pending ∧ p.Confirms ver target s.now := by
  induction turns generalizing s with
  | zero => simp [pollLoop, loopProbes]
  | succ turns ih =>
      rw [pollLoop, loopProbes]
      split_ifs with hexit
      · simp
      have hnow := @PollState.turn_now rt ver net s
      have hpending : (s.turn rt ver net).pending.Sublist s.pending := foldl_probe_pending _ _
      have hturn : target ∈ (s.turn rt ver net).confirmed ↔ target ∈ s.confirmed ∨
          ∃ p ∈ turnProbes rt ver net s.pending { s with now := s.now + 3000 },
            p.item ∈ s.pending ∧ p.Confirms ver target (s.now + 3000) := turn_confirmed_iff
      rw [ih, hturn]
      constructor
      · rintro ((hbefore | ⟨p, hp, hitem, htarget, hread, hstart⟩) |
          ⟨p, hp, hitem, htarget, hread, hstart⟩)
        · exact Or.inl hbefore
        · exact Or.inr ⟨p, List.mem_append_left _ hp, hitem, htarget, hread,
            Nat.le_trans (Nat.le_add_right _ _) hstart⟩
        · exact Or.inr ⟨p, List.mem_append_right _ hp, hpending.subset hitem, htarget, hread,
            by omega⟩
      · rintro (hbefore | ⟨p, hp, hitem, htarget, hread, hstart⟩)
        · exact Or.inl (Or.inl hbefore)
        · rcases List.mem_append.mp hp with hp | hp
          · exact Or.inl (Or.inr ⟨p, hp, hitem, htarget, hread, (turnProbes_mem hp).2⟩)
          · obtain ⟨hitem', hstart'⟩ := loopProbes_mem hp
            exact Or.inr ⟨p, hp, hitem', htarget, hread, hstart'⟩

/-- The polling of the accepted pushes has confirmed a target when one of its probes of the
target has read the version. -/
theorem mem_confirmed_iff {port : Int} {start : Nat} {results : List TargetResult}
    {confirmed : List String}
    (h : confirmedTargets rt ver port net start results = .ok confirmed) {target : String} :
    target ∈ confirmed ↔ ∃ p ∈ pollProbes rt ver net port start results,
      p.item.target = target ∧ p.read = .ok (.str ver) := by
  unfold pollProbes
  obtain ⟨items, hitems, hconfirmed⟩ := of_bind_ok h
  obtain rfl := Except.ok.inj hconfirmed
  rw [hitems]
  have hiff : target ∈ (poll rt ver net start items).confirmed ↔ _ := loop_confirmed_iff
  rw [hiff]
  constructor
  · rintro (hnil | ⟨p, hp, -, htarget, hread, -⟩)
    · cases hnil
    · exact ⟨p, hp, htarget, hread⟩
  · rintro ⟨p, hp, htarget, hread⟩
    obtain ⟨hitem, hstart⟩ := loopProbes_mem hp
    exact Or.inr ⟨p, hp, hitem, htarget, hread, hstart⟩

/-! ### One round -/

theorem foldl_probe_le (hnet : net.Within limit) (items : List PollItem) (s : PollState) :
    (items.foldl (PollState.probe rt ver net) s).now ≤ s.now + items.length * limit := by
  induction items generalizing s with
  | nil => simp
  | cons item items ih =>
      have hstep := ih (s.probe rt ver net item)
      have helapsed := hnet item.address s.now
      rw [probe_now] at hstep
      rw [List.foldl_cons, List.length_cons, Nat.succ_mul]
      omega

/-- Every probe of an item takes it out once, unless one of them does not confirm it. -/
theorem foldl_probe_count (item : PollItem) (items : List PollItem) (s : PollState) :
    (items.foldl (PollState.probe rt ver net) s).pending.count item ≤
        s.pending.count item - items.count item ∨
      ∃ p ∈ turnProbes rt ver net items s, s.now ≤ p.start ∧
        p.start ≤ (items.foldl (PollState.probe rt ver net) s).now ∧
        p.Refused rt ver net item := by
  induction items generalizing s with
  | nil => exact Or.inl (Nat.le_refl _)
  | cons other items ih =>
      have hnow : s.now ≤ (s.probe rt ver net other).now := by
        rw [probe_now]; exact Nat.le_add_right _ _
      have hend := @foldl_probe_now rt ver net items (s.probe rt ver net other)
      rw [List.foldl_cons]
      rcases ih (s.probe rt ver net other) with hcount | ⟨p, hp, hfrom, hto, hrefused⟩
      · by_cases hconfirms : (net other.address s.now).confirms rt ver other.host other.port = true
        · have hpending : (s.probe rt ver net other).pending = s.pending.erase other := by
            simp [PollState.probe, hconfirms]
          rw [hpending, List.count_erase] at hcount
          rw [List.count_cons]
          by_cases hother : other = item
          · subst hother
            simp only [beq_self_eq_true, if_true] at hcount ⊢
            exact Or.inl (by omega)
          · have hbeq : (other == item) = false := by simpa using hother
            simp only [hbeq, Bool.false_eq_true, if_false] at hcount ⊢
            exact Or.inl (by omega)
        · by_cases hother : other = item
          · subst hother
            exact Or.inr ⟨_, List.mem_cons_self, Nat.le_refl _, hnow.trans hend, rfl,
              Bool.eq_false_of_not_eq_true hconfirms, fun hread => hconfirms (confirms_iff.mpr hread)⟩
          · have hpending : (s.probe rt ver net other).pending = s.pending := by
              simp [PollState.probe, hconfirms]
            rw [hpending] at hcount
            rw [List.count_cons_of_ne hother]
            exact Or.inl hcount
      · exact Or.inr ⟨p, List.mem_cons_of_mem _ hp, hnow.trans hfrom, hto, hrefused⟩

/-- An item that is pending after a round was asked in it and refused. -/
theorem turn_refuses {s : PollState} {item : PollItem}
    (h : item ∈ (s.turn rt ver net).pending) :
    ∃ p ∈ turnProbes rt ver net s.pending { s with now := s.now + 3000 },
      s.now + 3000 ≤ p.start ∧ p.start ≤ (s.turn rt ver net).now ∧
        p.Refused rt ver net item := by
  rcases @foldl_probe_count rt ver net item s.pending { s with now := s.now + 3000 } with
    hcount | hrefused
  · have hzero : (s.turn rt ver net).pending.count item = 0 := by
      rw [Nat.sub_self] at hcount
      exact Nat.le_zero.mp hcount
    exact absurd h (List.count_eq_zero.mp hzero)
  · exact hrefused

theorem turn_le (hnet : net.Within limit) (s : PollState) :
    (s.turn rt ver net).now ≤ s.now + 3000 + s.pending.length * limit :=
  foldl_probe_le hnet s.pending { s with now := s.now + 3000 }

theorem turn_length (s : PollState) :
    (s.turn rt ver net).pending.length ≤ s.pending.length :=
  (foldl_probe_pending s.pending { s with now := s.now + 3000 }).length_le

/-! ### The loop -/

theorem pollLoop_pending {turns : Nat} {s : PollState} :
    (pollLoop rt ver net deadline turns s).pending.Sublist s.pending := by
  induction turns generalizing s with
  | zero => exact List.Sublist.refl _
  | succ turns ih =>
      rw [pollLoop]
      split_ifs
      · exact List.Sublist.refl _
      · exact ih.trans (foldl_probe_pending _ _)

theorem pollLoop_now {turns : Nat} {s : PollState} :
    s.now ≤ (pollLoop rt ver net deadline turns s).now := by
  induction turns generalizing s with
  | zero => exact Nat.le_refl _
  | succ turns ih =>
      rw [pollLoop]
      split_ifs
      · exact Nat.le_refl _
      · have hturn := @turn_now rt ver net s
        exact (Nat.le_trans (Nat.le_add_right _ _) hturn).trans ih

/-- The loop is over one round after the deadline. -/
theorem pollLoop_le (hnet : net.Within limit) {n turns : Nat} {s : PollState}
    (hn : s.pending.length ≤ n) :
    (pollLoop rt ver net deadline turns s).now ≤ max s.now (deadline + 3000 + n * limit) := by
  induction turns generalizing s with
  | zero => exact le_max_left _ _
  | succ turns ih =>
      rw [pollLoop]
      split_ifs with hexit
      · exact le_max_left _ _
      · have hlength := @turn_length rt ver net s
        have hturn := @turn_le rt ver net limit hnet s
        have hmul : s.pending.length * limit ≤ n * limit := Nat.mul_le_mul_right _ hn
        refine (ih (hlength.trans hn)).trans ?_
        simp only [not_or, Nat.not_le] at hexit
        omega

/-- An item that is pending in the end was asked in every round. -/
theorem pollLoop_refuses (hnet : net.Within limit) {n turns : Nat} {s : PollState}
    (hn : s.pending.length ≤ n) {item : PollItem}
    (h : item ∈ (pollLoop rt ver net deadline turns s).pending) :
    ∃ asked : List PollEvent, asked.Sublist (loopProbes rt ver net deadline turns s) ∧
      asked.Pairwise (fun p p' => p.start + 3000 ≤ p'.start) ∧
      (∀ p ∈ asked, s.now + 3000 ≤ p.start ∧
        p.start ≤ (pollLoop rt ver net deadline turns s).now ∧ p.Refused rt ver net item) ∧
      (pollLoop rt ver net deadline turns s).now ≤ s.now + asked.length * (3000 + n * limit) := by
  induction turns generalizing s with
  | zero => exact ⟨[], List.nil_sublist _, .nil, by simp, by simp [pollLoop]⟩
  | succ turns ih =>
      rw [pollLoop] at h ⊢
      rw [loopProbes]
      split_ifs at h ⊢ with hexit
      · exact ⟨[], List.nil_sublist _, .nil, by simp, by simp⟩
      · obtain ⟨asked, hmade, hspaced, hrefuse, hend⟩ :=
          ih ((@turn_length rt ver net s).trans hn) h
        have hpending : item ∈ (s.turn rt ver net).pending := pollLoop_pending.subset h
        obtain ⟨p, hp, hfrom, hto, hrefused⟩ := turn_refuses hpending
        have hturn := @turn_le rt ver net limit hnet s
        have hmul : s.pending.length * limit ≤ n * limit := Nat.mul_le_mul_right _ hn
        have hmono : (s.turn rt ver net).now ≤
            (pollLoop rt ver net deadline turns (s.turn rt ver net)).now := pollLoop_now
        refine ⟨p :: asked, (List.singleton_sublist.mpr hp).append hmade, ?_, ?_, ?_⟩
        · refine List.pairwise_cons.mpr ⟨fun p' hp' => ?_, hspaced⟩
          have h' := (hrefuse p' hp').1
          omega
        · intro p' hp'
          rcases List.mem_cons.mp hp' with rfl | hp'
          · exact ⟨hfrom, hto.trans hmono, hrefused⟩
          · obtain ⟨hfrom', hto', hrefused'⟩ := hrefuse p' hp'
            exact ⟨by omega, hto', hrefused'⟩
        · rw [List.length_cons, Nat.succ_mul]
          omega

/-- If no probe takes longer than the limit, the polling of `n` accepted pushes is over within
183 seconds and `n` times the limit. It is over before its 180 seconds only when all are
confirmed, and a target that it gives up was asked throughout: some of its probes went to it, at
least one in every three seconds and `n` times the limit, and none of them read the new
version. -/
theorem polling_lasts (hnet : net.Within limit) (start : Nat) (items : List PollItem) :
    let s := poll rt ver net start items
    s.now ≤ start + 183000 + items.length * limit ∧
    (s.now < start + 180000 → s.pending = []) ∧
    ∀ item ∈ s.pending, ∃ asked : List PollEvent,
      asked.Sublist (itemProbes rt ver net start items) ∧
      asked.Pairwise (fun p p' => p.start + 3000 ≤ p'.start) ∧
      (∀ p ∈ asked, start + 3000 ≤ p.start ∧ p.start ≤ s.now ∧ p.Refused rt ver net item) ∧
      180000 ≤ asked.length * (3000 + items.length * limit) := by
  have hdone := @poll_done rt ver net start items
  refine ⟨?_, fun hearly => ?_, fun item hitem => ?_⟩
  · have hle := @pollLoop_le rt ver net limit (start + 180000) hnet items.length 60
      { now := start, pending := items } (Nat.le_refl _)
    have hpoll : (poll rt ver net start items).now ≤ _ := hle
    simp only at hpoll ⊢
    omega
  · exact hdone.resolve_right (Nat.not_le.mpr hearly)
  · have hlate : start + 180000 ≤ (poll rt ver net start items).now :=
      hdone.resolve_left (List.ne_nil_of_mem hitem)
    obtain ⟨asked, hmade, hspaced, hrefuse, hend⟩ := pollLoop_refuses hnet (Nat.le_refl _) hitem
    have hpoll : (poll rt ver net start items).now ≤ _ := hend
    exact ⟨asked, hmade, hspaced, hrefuse, by simp only at hpoll; omega⟩

/-- A target that refuses every connection. -/
def deadNetwork : Network := fun _ _ => ⟨.error ⟨.connectionError, "refused"⟩, 2000⟩

theorem polling_lasts_dead :
    (poll (tableRuntime [] "") "1.9.0" deadNetwork 0 [⟨"10.0.0.1", "10.0.0.1", 9000⟩]).now ≤
      0 + 183000 + 1 * 2000 :=
  (polling_lasts (fun _ _ => Nat.le_refl 2000) 0 [⟨"10.0.0.1", "10.0.0.1", 9000⟩]).1

end McpSocketServer
