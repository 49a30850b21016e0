import McpSocketServer.Proofs.AnswerEntries
import McpSocketServer.Proofs.ErrorsCounted
import McpSocketServer.Server.Polling

/-!
# Upgrades and the delays of other targets

The polling of `upgrade_run` asks all pending targets one after the other under one deadline.
What it reports of a target does not depend on how the others behave exactly when there are no
others.
-/

namespace McpSocketServer

open PollState

variable {rt : Runtime} {ver : String} {net net₁ net₂ : Network} {deadline : Nat}

/-- The answer reports the target as upgraded. -/
def ReportsUpgraded (answer : Except PyErr Report) (target : String) : Prop :=
  ∃ rep, answer = .ok rep ∧ ∃ entry ∈ rep.results, entryTarget entry = target

/-- Whatever the other targets do, and however long it takes, the target is reported as
upgraded in one run when it is in another in which it behaves alike. -/
def IndependentOfOthers (rt : Runtime) (ver : String) (port : Int) (start : Nat)
    (results : List TargetResult) (item : PollItem) : Prop :=
  ∀ net₁ net₂ : Network, (∀ t, net₁ item.address t = net₂ item.address t) →
    (ReportsUpgraded (upgradePolled rt ver port net₁ start results) item.target ↔
      ReportsUpgraded (upgradePolled rt ver port net₂ start results) item.target)

/-! ### What is reported -/

theorem pollItem_target {port : Int} {target : String} {item : PollItem}
    (h : pollItem port target = .ok item) : item.target = target := by
  unfold pollItem at h
  split at h
  · split at h
    · exact Except.ok.inj h ▸ rfl
    · cases h
  · exact Except.ok.inj h ▸ rfl

/-- A pushed target is reported as upgraded when the polling has confirmed it. -/
theorem reportsUpgraded_iff {port : Int} {start : Nat} {results : List TargetResult}
    {items : List PollItem}
    (hitems : ((pushedEntries results).map entryTarget).mapM (pollItem port) = .ok items)
    {item : PollItem} (hitem : item ∈ items) :
    ReportsUpgraded (upgradePolled rt ver port net start results) item.target ↔
      item.target ∈ (poll rt ver net start items).confirmed := by
  have hanswer : upgradePolled rt ver port net start results = .ok (upgradeReport ver
      (fun target => (poll rt ver net start items).confirmed.contains target) results) := by
    rw [upgradePolled, confirmedTargets, hitems]
    rfl
  have hresults : ∀ confirmed : String → Bool, (upgradeReport ver confirmed results).results =
      ((pushedEntries results).filter fun r => confirmed (entryTarget r)).map fun r =>
        [("target", .json (.str (entryTarget r))), ("upgraded", .json (.bool true)),
          ("version", .json (.str ver)), ("from_version", entryGet r "from_version")] :=
    fun _ => rfl
  constructor
  · intro h
    obtain ⟨rep, hrep, entry, hentry, htarget⟩ := h
    obtain rfl := Except.ok.inj (hanswer.symm.trans hrep)
    rw [hresults] at hentry
    obtain ⟨r, hr, rfl⟩ := List.mem_map.mp hentry
    obtain ⟨-, hconfirmed⟩ := List.mem_filter.mp hr
    rw [← htarget]
    exact List.contains_iff_mem.mp hconfirmed
  · intro h
    obtain ⟨hall, hout⟩ := of_mapM_ok hitems
    rw [hout] at hitem
    obtain ⟨target, htarget, hitem⟩ := List.mem_filterMap.mp hitem
    obtain ⟨r, hr, rfl⟩ := List.mem_map.mp htarget
    obtain ⟨item', hitem'⟩ := hall _ htarget
    rw [hitem'] at hitem
    obtain rfl := Option.some.inj hitem
    have hname := pollItem_target hitem'
    rw [hname] at h ⊢
    refine ⟨_, hanswer, ?_⟩
    rw [hresults]
    have hdone : r ∈ (pushedEntries results).filter fun r =>
        (poll rt ver net start items).confirmed.contains (entryTarget r) :=
      List.mem_filter.mpr ⟨hr, List.contains_iff_mem.mpr h⟩
    exact ⟨_, List.mem_map_of_mem hdone, rfl⟩

/-! ### The probes of one target -/

/-- Runs agree as long as only targets are asked that behave alike. -/
theorem foldl_probe_congr {items : List PollItem}
    (h : ∀ item ∈ items, ∀ t, net₁ item.address t = net₂ item.address t) (s : PollState) :
    items.foldl (PollState.probe rt ver net₁) s = items.foldl (PollState.probe rt ver net₂) s := by
  induction items generalizing s with
  | nil => rfl
  | cons item items ih =>
      have hprobe : s.probe rt ver net₁ item = s.probe rt ver net₂ item := by
        unfold PollState.probe
        rw [h item List.mem_cons_self]
      rw [List.foldl_cons, List.foldl_cons, hprobe]
      exact ih (fun other hother => h other (List.mem_cons_of_mem item hother)) _

/-- Probing takes items out of `pending` only. -/
theorem foldl_probe_pending (items : List PollItem) (s : PollState) :
    (items.foldl (PollState.probe rt ver net) s).pending.Sublist s.pending := by
  induction items generalizing s with
  | nil => exact List.Sublist.refl _
  | cons item items ih =>
      have hprobe : (s.probe rt ver net item).pending.Sublist s.pending := by
        unfold PollState.probe
        dsimp only
        split_ifs
        · exact List.erase_sublist
        · exact List.Sublist.refl _
      exact (ih _).trans hprobe

theorem pollLoop_congr {turns : Nat} {s : PollState}
    (h : ∀ item ∈ s.pending, ∀ t, net₁ item.address t = net₂ item.address t) :
    pollLoop rt ver net₁ deadline turns s = pollLoop rt ver net₂ deadline turns s := by
  induction turns generalizing s with
  | zero => rfl
  | succ turns ih =>
      have hturn : s.turn rt ver net₁ = s.turn rt ver net₂ := foldl_probe_congr h _
      have hpending : (s.turn rt ver net₂).pending.Sublist s.pending := foldl_probe_pending _ _
      rw [pollLoop, pollLoop, hturn]
      split_ifs
      · rfl
      · exact ih fun item hitem => h item (hpending.subset hitem)

/-! ### What is confirmed -/

/-- What is confirmed stays confirmed. -/
theorem foldl_probe_confirmed (items : List PollItem) {s : PollState} {target : String}
    (h : target ∈ s.confirmed) :
    target ∈ (items.foldl (PollState.probe rt ver net) s).confirmed := by
  induction items generalizing s with
  | nil => exact h
  | cons item items ih =>
      apply ih
      unfold PollState.probe
      dsimp only
      split_ifs
      · exact List.mem_append_left _ h
      · exact h

theorem pollLoop_confirmed {turns : Nat} {s : PollState} {target : String}
    (h : target ∈ s.confirmed) : target ∈ (pollLoop rt ver net deadline turns s).confirmed := by
  induction turns generalizing s with
  | zero => exact h
  | succ turns ih =>
      rw [pollLoop]
      split_ifs
      · exact h
      · exact ih (foldl_probe_confirmed _ h)

/-- From a time on no probe confirms a target. -/
def SilentFrom (rt : Runtime) (ver : String) (net : Network) (t : Nat) : Prop :=
  ∀ item : PollItem, ∀ t' ≥ t, (net item.address t').confirms rt ver item.host item.port = false

theorem foldl_probe_silent {t : Nat} (h : SilentFrom rt ver net t) (items : List PollItem)
    {s : PollState} (hs : t ≤ s.now) :
    (items.foldl (PollState.probe rt ver net) s).confirmed = s.confirmed := by
  induction items generalizing s with
  | nil => rfl
  | cons item items ih =>
      have hconfirmed : (s.probe rt ver net item).confirmed = s.confirmed := by
        simp [PollState.probe, h item s.now hs]
      have hnow : t ≤ (s.probe rt ver net item).now := by
        rw [PollState.probe_now]
        exact Nat.le_add_right_of_le hs
      rw [List.foldl_cons, ih hnow, hconfirmed]

theorem pollLoop_silent {t turns : Nat} (h : SilentFrom rt ver net t) {s : PollState}
    (hs : t ≤ s.now) : (pollLoop rt ver net deadline turns s).confirmed = s.confirmed := by
  induction turns generalizing s with
  | zero => rfl
  | succ turns ih =>
      rw [pollLoop]
      split_ifs
      · rfl
      · have hnow := @PollState.turn_now rt ver net s
        rw [ih (by omega)]
        exact foldl_probe_silent h _ (Nat.le_add_right_of_le hs)

/-! ### A delay that is felt -/

/-- Probing without delay: a target that confirms now is confirmed. -/
theorem foldl_probe_prompt {items : List PollItem} {s : PollState} {item : PollItem}
    (hprompt : ∀ address, (net address s.now).elapsed = 0) (hitem : item ∈ items)
    (hconfirms : (net item.address s.now).confirms rt ver item.host item.port = true) :
    item.target ∈ (items.foldl (PollState.probe rt ver net) s).confirmed := by
  induction items generalizing s with
  | nil => cases hitem
  | cons first items ih =>
      have hnow : (s.probe rt ver net first).now = s.now := by
        rw [PollState.probe_now, hprompt, Nat.add_zero]
      rw [List.foldl_cons]
      rcases List.mem_cons.mp hitem with rfl | hitem
      · apply foldl_probe_confirmed
        simp [PollState.probe, hconfirms]
      · apply ih _ hitem
        · rwa [hnow]
        · rwa [hnow]

/-- Probing without delay and without a confirmation changes nothing. -/
theorem foldl_probe_still {items : List PollItem} {s : PollState}
    (hprompt : ∀ address, (net address s.now).elapsed = 0)
    (hsilent : ∀ item : PollItem,
      (net item.address s.now).confirms rt ver item.host item.port = false) :
    items.foldl (PollState.probe rt ver net) s = s := by
  induction items with
  | nil => rfl
  | cons item items ih =>
      have hprobe : s.probe rt ver net item = s := by
        simp [PollState.probe, hsilent, hprompt]
      rw [List.foldl_cons, hprobe, ih]

theorem pollLoop_turn {s : PollState} (turns : Nat) (hpending : s.pending ≠ [])
    (hnow : s.now < deadline) : pollLoop rt ver net deadline (turns + 1) s =
      pollLoop rt ver net deadline turns (s.turn rt ver net) := by
  rw [pollLoop, if_neg]
  exact not_or.mpr ⟨hpending, Nat.not_le.mpr hnow⟩

/-- A connect that is refused. -/
def refused : Except PyErr Endpoint := .error ⟨.connectionError, "[Errno 111] Connection refused"⟩

theorem refused_confirms (elapsed : Nat) (host : String) (port : Int) :
    (Probe.mk refused elapsed).confirms rt ver host port = false := rfl

/-- A network in which one target is up between the sixth and the eighth second, and in which
the first probe of the other targets takes the given time. -/
def windowNetwork (item : PollItem) (up : Probe) (start delay : Nat) : Network := fun address t =>
  if address = item.address then
    ⟨if start + 6000 ≤ t ∧ t < start + 8000 then up.connect else refused, 0⟩
  else ⟨refused, if t = start + 3000 then delay else 0⟩

section

variable {item : PollItem} {up : Probe} {start : Nat} {items : List PollItem}

theorem windowNetwork_silent (delay : Nat) (other : PollItem) {t : Nat}
    (ht : t < start + 6000 ∨ start + 8000 ≤ t) :
    (windowNetwork item up start delay other.address t).confirms rt ver other.host other.port =
      false := by
  have hout : ¬ (start + 6000 ≤ t ∧ t < start + 8000) := by omega
  unfold windowNetwork
  split_ifs <;> exact refused_confirms _ _ _

/-- Without the delay the second turn confirms the target. -/
theorem window_confirmed (hitem : item ∈ items)
    (hup : up.confirms rt ver item.host item.port = true) :
    item.target ∈ (poll rt ver (windowNetwork item up start 0) start items).confirmed := by
  have hprompt : ∀ address t, (windowNetwork item up start 0 address t).elapsed = 0 := by
    intro address t
    unfold windowNetwork
    split_ifs <;> rfl
  have hpending : items ≠ [] := List.ne_nil_of_mem hitem
  have hfirst : PollState.turn rt ver (windowNetwork item up start 0)
      { now := start, pending := items } = { now := start + 3000, pending := items } :=
    foldl_probe_still (fun address => hprompt address _) fun other =>
      windowNetwork_silent 0 other (Or.inl (by dsimp only; omega))
  have hnow : (windowNetwork item up start 0 item.address (start + 3000 + 3000)).confirms rt ver
      item.host item.port = true := by
    have hin : start + 6000 ≤ start + 3000 + 3000 ∧ start + 3000 + 3000 < start + 8000 := by omega
    rw [windowNetwork, if_pos rfl, if_pos hin]
    exact hup
  rw [poll, pollLoop_turn 59 hpending (by dsimp only; omega), hfirst,
    pollLoop_turn 58 hpending (by dsimp only; omega)]
  apply pollLoop_confirmed
  exact foldl_probe_prompt (fun address => hprompt address _) hitem hnow

/-- With the delay of another target the first turn ends when the target is down again. -/
theorem window_turn {other : PollItem} (hother : other ∈ items)
    (hne : other.address ≠ item.address) {s : PollState} (hs : s.now = start + 3000) :
    (items.foldl (PollState.probe rt ver (windowNetwork item up start 5000)) s).confirmed =
        s.confirmed ∧
      start + 8000 ≤
        (items.foldl (PollState.probe rt ver (windowNetwork item up start 5000)) s).now := by
  have hsilent : SilentFrom rt ver (windowNetwork item up start 5000) (start + 8000) :=
    fun other t ht => windowNetwork_silent 5000 other (Or.inr ht)
  induction items generalizing s with
  | nil => cases hother
  | cons first items ih =>
      have hprobe : s.probe rt ver (windowNetwork item up start 5000) first = { s with
          now := s.now + (windowNetwork item up start 5000 first.address s.now).elapsed } := by
        have hearly : s.now < start + 6000 := by omega
        simp [PollState.probe, windowNetwork_silent 5000 first (Or.inl hearly)]
      rw [List.foldl_cons, hprobe]
      by_cases hfirst : first.address = item.address
      · have hmem : other ∈ items := by
          rcases List.mem_cons.mp hother with rfl | hmem
          · exact absurd hfirst hne
          · exact hmem
        have hprompt : (windowNetwork item up start 5000 first.address s.now).elapsed = 0 := by
          rw [windowNetwork, if_pos hfirst]
        rw [hprompt]
        exact ih hmem hs
      · have hdelay : (windowNetwork item up start 5000 first.address s.now).elapsed = 5000 := by
          rw [windowNetwork, if_neg hfirst, if_pos hs]
        rw [hdelay]
        have hnow : start + 8000 ≤ s.now + 5000 := by omega
        exact ⟨foldl_probe_silent hsilent items hnow,
          Nat.le_trans hnow (PollState.foldl_probe_now items { s with now := s.now + 5000 })⟩

theorem window_missed {other : PollItem} (hother : other ∈ items)
    (hne : other.address ≠ item.address) :
    (poll rt ver (windowNetwork item up start 5000) start items).confirmed = [] := by
  have hpending : items ≠ [] := List.ne_nil_of_mem hother
  obtain ⟨hconfirmed, hnow⟩ := @window_turn rt ver item up start items other hother hne
    { now := start + 3000, pending := items } rfl
  have hsilent : SilentFrom rt ver (windowNetwork item up start 5000) (start + 8000) :=
    fun other t ht => windowNetwork_silent 5000 other (Or.inr ht)
  rw [poll, pollLoop_turn 59 hpending (by dsimp only; omega)]
  exact (pollLoop_silent hsilent hnow).trans hconfirmed

end

/-- What is reported of a target that can come up is independent of the others exactly when
there are no others. -/
theorem independent_iff (rt : Runtime) (ver : String) (port : Int) (start : Nat)
    (results : List TargetResult) {items : List PollItem}
    (hitems : ((pushedEntries results).map entryTarget).mapM (pollItem port) = .ok items)
    {item : PollItem} (hitem : item ∈ items) {up : Probe}
    (hup : up.confirms rt ver item.host item.port = true) :
    IndependentOfOthers rt ver port start results item ↔
      ∀ other ∈ items, other.address = item.address := by
  constructor
  · intro h other hother
    by_contra hne
    have hsame : ∀ t, windowNetwork item up start 0 item.address t =
        windowNetwork item up start 5000 item.address t := by
      intro t
      rw [windowNetwork, windowNetwork, if_pos rfl, if_pos rfl]
    have hreports := h _ _ hsame
    rw [reportsUpgraded_iff hitems hitem, reportsUpgraded_iff hitems hitem,
      window_missed hother hne] at hreports
    exact List.not_mem_nil (hreports.mp (window_confirmed hitem hup))
  · intro h net₁ net₂ hsame
    rw [reportsUpgraded_iff hitems hitem, reportsUpgraded_iff hitems hitem, poll, poll,
      pollLoop_congr fun other hother t => ?_]
    rw [h other hother]
    exact hsame t

/-! ### An upgrade among many -/

/-- A target that answers every request with the new version. -/
def upProbe : Probe := ⟨.ok fun _ _ => { reply := [.data (asciiBytes "\"1.9.0\"")] }, 0⟩

/-- A probe whose connect hangs until its timeout. -/
def hangingProbe : Probe := ⟨.error ⟨.timeoutError, "timed out"⟩, 5000⟩

/-- The codecs on its answer. -/
def upRuntime : Runtime := tableRuntime [("\"1.9.0\"", .str "1.9.0")] ""

/-- The names of 36 other targets. -/
def otherTargets : List String :=
  "abcdefghijklmnopqrstuvwxyz0123456789".toList.map fun c => String.ofList ['h', c]

/-- The target that restarts. -/
def restarting : PollItem := ⟨"10.0.0.1", "10.0.0.1", 9000⟩

/-- The accepted pushes to it and to the other targets. -/
def acceptedPushes : List TargetResult :=
  (restarting.target :: otherTargets).map fun t => pushedResult t (.str "1.8.0")

/-- The targets to poll. -/
def acceptedItems : List PollItem := restarting :: otherTargets.map fun t => ⟨t, t, 9000⟩

/-- One target is up after ten seconds, and all others behave in one way. -/
def restartNetwork (others : Probe) : Network := fun address t =>
  if address = restarting.address then
    if t < 10000 then ⟨refused, 0⟩ else upProbe
  else others

theorem accepted_polled :
    ((pushedEntries acceptedPushes).map entryTarget).mapM (pollItem 9000) = .ok acceptedItems := by
  rfl

/-- When the others are up at once, the target is confirmed in the fourth turn. -/
theorem restarting_confirmed :
    "10.0.0.1" ∈ (poll upRuntime "1.9.0" (restartNetwork upProbe) 0 acceptedItems).confirmed := by
  decide +kernel

/-- When the others hang, one turn takes up all the time. -/
theorem restarting_missed : "10.0.0.1" ∉
    (poll upRuntime "1.9.0" (restartNetwork hangingProbe) 0 acceptedItems).confirmed := by
  decide +kernel

/-- A target that is up in time is not reported because the others hang. -/
theorem upgrade_not_independent : ¬ ∀ (rt : Runtime) (ver : String) (port : Int) (start : Nat)
    (results : List TargetResult) (items : List PollItem),
    ((pushedEntries results).map entryTarget).mapM (pollItem port) = .ok items →
      ∀ item ∈ items, IndependentOfOthers rt ver port start results item := by
  intro h
  have hmem : restarting ∈ acceptedItems := List.mem_cons_self
  have hsame : ∀ t, restartNetwork upProbe restarting.address t =
      restartNetwork hangingProbe restarting.address t := by
    intro t
    rw [restartNetwork, restartNetwork, if_pos rfl, if_pos rfl]
  have hreports := h upRuntime "1.9.0" 9000 0 acceptedPushes acceptedItems accepted_polled restarting
    hmem _ _ hsame
  rw [reportsUpgraded_iff accepted_polled hmem, reportsUpgraded_iff accepted_polled hmem] at hreports
  exact restarting_missed (hreports.mp restarting_confirmed)

/-- The upgrade of one target alone. -/
theorem independent_iff_witness : IndependentOfOthers upRuntime "1.9.0" 9000 0
    [pushedResult "10.0.0.1" (.str "1.8.0")] restarting := by
  have hpolled : ((pushedEntries [pushedResult "10.0.0.1" (.str "1.8.0")]).map entryTarget).mapM
      (pollItem 9000) = .ok [restarting] := rfl
  have hup : upProbe.confirms upRuntime "1.9.0" restarting.host restarting.port = true := rfl
  exact (independent_iff upRuntime "1.9.0" 9000 0 _ hpolled List.mem_cons_self hup).mpr (by simp)

end McpSocketServer
