import McpSocketServer.Misc.Padded
import McpSocketServer.Proofs.CanonicalVersion
import McpSocketServer.Proofs.LivenessCleared

/-!
# The two version gates

`upgrade_run` cuts a reported version to three components before it reads them as integers, and
compares what there is with `(1, 8, 0)`. The registration of a listener reads all components and
then cuts. So the first gate takes a version without a third component for a smaller one, which
matters for `1.8` alone, and the second passes over a version with a later component that is no
integer. Everywhere else both decide by the first three components.
-/

namespace McpSocketServer

open SocketServerClient

/-! ### Reading a version -/

/-- A component of a version; a missing one counts as 0. -/
def versionComponent (v : String) (i : Nat) : Option Int :=
  match (splitOn '.' v)[i]? with
  | some part => parseInt part
  | none => some 0

/-- The first three components. -/
def versionTriple (v : String) : Option (List Int) := [0, 1, 2].mapM (versionComponent v)

theorem tupleLt_iff {as bs : List Int} : tupleLt as bs = true ↔ as < bs := by
  induction as generalizing bs with
  | nil => cases bs <;> simp [tupleLt]
  | cons a as ih =>
      cases bs with
      | nil => simp [tupleLt]
      | cons b bs =>
          rw [tupleLt, List.cons_lt_cons_iff]
          split_ifs with heq
          · simp [heq, ih]
          · simp [heq]

theorem intParts_length {parts : List String} {ns : List Int} (h : intParts parts = some ns) :
    ns.length = parts.length := by
  induction parts generalizing ns with
  | nil => simp_all [intParts]
  | cons part parts ih =>
      simp only [intParts, List.mapM_cons, Option.bind_eq_bind, Option.bind_eq_some_iff,
        Option.pure_def, Option.some.injEq] at h
      obtain ⟨n, -, rest, hrest, rfl⟩ := h
      rw [List.length_cons, List.length_cons, ih hrest]

theorem intParts_append (parts rest : List String) :
    intParts (parts ++ rest) =
      (intParts parts).bind fun ns => (intParts rest).map (ns ++ ·) := by
  unfold intParts
  rw [List.mapM_append]
  cases parts.mapM parseInt <;> cases rest.mapM parseInt <;> rfl

/-- All parts are read if and only if each of them is. -/
theorem intParts_isSome {parts : List String} :
    (intParts parts).isSome = true ↔ ∀ part ∈ parts, (parseInt part).isSome = true := by
  induction parts with
  | nil => simp [intParts]
  | cons part parts ih =>
      rw [List.forall_mem_cons, ← ih]
      cases hpart : parseInt part with
      | none => simp [intParts, List.mapM_cons, hpart]
      | some n =>
          cases hparts : parts.mapM parseInt <;>
            simp [intParts, List.mapM_cons, hpart, hparts]

/-- What the first gate reads, padded with zeros. -/
theorem versionTriple_eq (v : String) :
    versionTriple v = (intParts ((splitOn '.' v).take 3)).map (List.rightpad 3 0) := by
  unfold versionTriple versionComponent intParts
  generalize splitOn '.' v = parts
  rcases parts with _ | ⟨a, _ | ⟨b, _ | ⟨c, rest⟩⟩⟩
  · rfl
  · cases ha : parseInt a <;> simp [ha, List.rightpad]
  · cases ha : parseInt a <;> cases hb : parseInt b <;> simp [ha, hb, List.rightpad]
  · cases ha : parseInt a <;> cases hb : parseInt b <;> cases hc : parseInt c <;>
      simp [ha, hb, hc, List.rightpad]

/-! ### The gates on a version -/

section

variable {v : String} {t : List Int}

/-- What a version with a triple is to the first gate. -/
theorem read_of_triple (ht : versionTriple v = some t) :
    ∃ ns, intParts ((splitOn '.' v).take 3) = some ns ∧ ns.rightpad 3 0 = t ∧
      ns.length = min 3 (splitOn '.' v).length := by
  rw [versionTriple_eq, Option.map_eq_some_iff] at ht
  obtain ⟨ns, hns, hpad⟩ := ht
  exact ⟨ns, hns, hpad, by rw [intParts_length hns, List.length_take]⟩

theorem take_three {ns : List Int} (h : intParts (splitOn '.' v) = some ns) (hlen : ns.length ≤ 3) :
    (splitOn '.' v).take 3 = splitOn '.' v :=
  List.take_of_length_le (intParts_length h ▸ hlen)

/-- Padding makes 1.8.0 of nothing but a version 1.8. -/
theorem padded_iff {ns : List Int} (hns : intParts ((splitOn '.' v).take 3) = some ns)
    (hlen : ns.length = min 3 (splitOn '.' v).length) :
    (ns.length < 3 ∧ ns.rightpad 3 0 = [1, 8, 0]) ↔ intParts (splitOn '.' v) = some [1, 8] := by
  constructor
  · intro h
    obtain ⟨hlt, hpad⟩ := h
    rw [List.take_of_length_le (by omega)] at hns
    rcases ns with _ | ⟨a, _ | ⟨b, _ | ⟨c, rest⟩⟩⟩
    · simp [List.rightpad] at hpad
    · simp [List.rightpad] at hpad
    · simp [List.rightpad] at hpad
      rw [hns, hpad.1, hpad.2]
    · simp at hlt
      omega
  · intro h
    rw [take_three h (by decide), h] at hns
    cases hns
    decide

/-- The first gate lets a version through if its triple is large enough and the version is not
`1.8` without a third component. -/
theorem upgradeRefusal_eq_none_iff (ht : versionTriple v = some t) :
    upgradeRefusal (.str v) = none ↔
      [1, 8, 0] ≤ t ∧ intParts (splitOn '.' v) ≠ some [1, 8] := by
  obtain ⟨ns, hns, rfl, hlen⟩ := read_of_triple ht
  have hrefusal : upgradeRefusal (.str v) = none ↔ ¬ ns < [1, 8, 0] := by
    rw [upgradeRefusal, show (Json.str v).toStr = v from rfl, hns, ← tupleLt_iff]
    cases htuple : tupleLt ns [1, 8, 0] <;> simp [htuple]
  have hpad : ns < [1, 8, 0] ↔
      ns.rightpad 3 0 < [1, 8, 0] ∨ (ns.length < 3 ∧ ns.rightpad 3 0 = [1, 8, 0]) :=
    lt_iff_rightpad (by simp; omega) (by decide)
  rw [hrefusal, hpad, not_or, not_lt]
  exact and_congr_right fun _ => not_congr (padded_iff hns hlen)

/-- Cutting after all components are read leaves those that the first gate reads. -/
theorem take_read {ns rest : List Int} (hlen : ns.length = min 3 (splitOn '.' v).length)
    (hrest : intParts ((splitOn '.' v).drop 3) = some rest) : (ns ++ rest).take 3 = ns := by
  have hrestlen := intParts_length hrest
  rw [List.length_drop] at hrestlen
  by_cases hthree : ns.length = 3
  · rw [← hthree, List.take_left]
  · have hnil : rest = [] := List.eq_nil_of_length_eq_zero (by omega)
    rw [hnil, List.append_nil, List.take_of_length_le (by omega)]

/-- The second gate records a version if its triple is large enough and every later component is
an integer. -/
theorem registers_iff (ht : versionTriple v = some t) :
    registers (.ok (.str v)) = true ↔
      [1, 7, 1] ≤ t ∧ ∀ part ∈ (splitOn '.' v).drop 3, (parseInt part).isSome = true := by
  obtain ⟨ns, hns, rfl, hlen⟩ := read_of_triple ht
  have hall := intParts_append ((splitOn '.' v).take 3) ((splitOn '.' v).drop 3)
  rw [List.take_append_drop, hns, Option.bind_some] at hall
  rw [← intParts_isSome, registers, hall]
  cases hrest : intParts ((splitOn '.' v).drop 3) with
  | none => simp
  | some rest =>
      have hpad : ns < [1, 7, 1] ↔
          ns.rightpad 3 0 < [1, 7, 1] ∨ (ns.length < 3 ∧ ns.rightpad 3 0 = [1, 7, 1]) :=
        lt_iff_rightpad (by simp; omega) (by decide)
      -- 1.7.1 does not end with a zero, so no shorter version is padded to it
      have hnot : ¬ (ns.length < 3 ∧ ns.rightpad 3 0 = [1, 7, 1]) := fun h =>
        rightpad_ne h.1 (by decide) h.2
      rw [or_iff_left hnot] at hpad
      simp only [Option.map_some, take_read hlen hrest, Option.isSome_some, and_true]
      rw [← not_lt, ← hpad, ← tupleLt_iff]
      cases tupleLt ns [1, 7, 1] <;> simp

end

/-! ### The gates in runs -/

section

variable {rt : Runtime} {site : PushSite} {plan : UpgradePlan} {force : Bool}
  {listenPort port : Int} {u u' c c₁ c₂ : SocketServerClient}

/-- The pre-check lets a target through: its worker goes on to the push. -/
def LetThrough (rt : Runtime) (site : PushSite) (plan : UpgradePlan) (force : Bool)
    (u : SocketServerClient) : Prop :=
  (upgradeWork rt site plan force u).2 ≠ []

/-- The flag of the target after `socket_listen` with the action `start`. -/
def flagAfterStart (rt : Runtime) (listenPort port : Int) (c : SocketServerClient)
    (reg : Registry) : Bool :=
  match ((listenStartFn rt listenPort port).exec ⟨c, some reg⟩).2.registry with
  | some reg => reg.liveAt (c.host, port)
  | none => false

theorem letThrough_iff {cur : Json} (hv : (version rt).exec u = (.ok cur, u')) :
    LetThrough rt site plan force u ↔ upgradeRefusal cur = none := by
  cases hrefusal : upgradeRefusal cur with
  | some reason =>
      simp [LetThrough, upgradeWork, upgradeRunOne, Upgrading.onClient, hv, hrefusal]
  | none =>
      let I : UpgradeState → Prop := fun s => s.log ≠ []
      have hI : ∀ s, I s → I s := fun _ => id
      have happly : Prog.Keeps I I (Upgrading.apply rt plan force) := by
        refine Prog.Keeps.of_exec hI fun s hs => ?_
        rw [Upgrading.exec_apply]
        exact List.append_ne_nil_of_left_ne_nil hs _
      have hclose : Prog.Keeps I I
          (modify fun s => { s with client := s.client.close } : Upgrading Unit) :=
        Prog.Keeps.modify fun _ hs => hs
      refine iff_of_true ?_ rfl
      simp only [LetThrough, upgradeWork, upgradeRunOne, Upgrading.onClient, Prog.exec_bind,
        Prog.exec_zoom, hv, Prog.follow_ok, hrefusal, Upgrading.push, Prog.exec_get, Prog.exec_set,
        Prog.exec_pure]
      refine Prog.Keeps.exec (I := I) ?_ hI (List.cons_ne_nil _ _)
      refine Prog.Triple.ite (fun _ => Prog.Keeps.pure _) fun _ => ?_
      refine happly.bind fun resp => (Prog.Keeps.ofExcept hI _).bind fun error => ?_
      refine Prog.Triple.ite (fun _ => Prog.Keeps.pure _) fun _ => ?_
      refine (Prog.Keeps.ofExcept hI _).bind fun ok => ?_
      refine Prog.Triple.ite (fun _ => ?_) fun _ => Prog.Keeps.pure _
      exact hclose.bind fun _ => .pure _

/-- The flag of a registered target after a start: the version that is read sets it, and no
version clears it. -/
theorem flagAfterStart_iff {result : Json} {answer : Except PyErr Json} {reg : Registry}
    (hstart : (listenStart rt listenPort).exec c = (.ok result, c₁))
    (hv : (version rt).exec c₁ = (answer, c₂)) (hbind : bindInteger port = .ok ())
    (hrow : (reg.find c.host port).isSome = true) :
    flagAfterStart rt listenPort port c reg = true ↔
      reg.liveAt (c.host, port) = true ∨ registers answer = true := by
  have hhost : c₂.host = c.host := (version_host hv).trans (listenStart_host hstart)
  have hafter := (@listenStartFn_answered rt listenPort port ⟨c, some reg⟩ reg c₁ c₂ rfl result
    answer hstart hv).2
  rw [hhost] at hafter
  rw [flagAfterStart, hafter]
  cases hreg : registers answer with
  | true =>
      simp [Registry.liveAt_setListenLiveness true hbind, hrow]
  | false => simp

/-- Both gates decide on the version of a target by its first three components, and record what
they accept. -/
structure GatesRight (rt : Runtime) (site : PushSite) (plan : UpgradePlan) (force : Bool)
    (listenPort port : Int) (u c : SocketServerClient) (t : List Int) : Prop where
  precheck : LetThrough rt site plan force u ↔ [1, 8, 0] ≤ t
  liveness : ∀ reg : Registry, (reg.find c.host port).isSome = true →
    (flagAfterStart rt listenPort port c reg = true ↔
      reg.liveAt (c.host, port) = true ∨ [1, 7, 1] ≤ t)
  recorded : LetThrough rt site plan force u → ∀ reg : Registry,
    (reg.find c.host port).isSome = true → flagAfterStart rt listenPort port c reg = true

/-- A registry with the target, which no listener has been recorded for. -/
def freshRegistry (host : String) (port : Int) : Registry :=
  Registry.empty.insertOrIgnore ⟨host, port, [], "", "", false⟩

theorem freshRegistry_find (host : String) (port : Int) :
    (freshRegistry host port).find host port = some ⟨host, port, [], "", "", false⟩ := by
  simp [freshRegistry, Registry.insertOrIgnore, Registry.empty, Registry.find, Row.key]

/-- The versions on which the gates are right. -/
def ReadByTriple (v : String) (t : List Int) : Prop :=
  intParts (splitOn '.' v) ≠ some [1, 8] ∧
    ([1, 7, 1] ≤ t → ∀ part ∈ (splitOn '.' v).drop 3, (parseInt part).isSome = true)

/-- For every version with a triple: the gates decide by the triple if and only if the version is
not `1.8` without a third component, and from 1.7.1 on all its components are integers. -/
theorem version_gates_iff {v : String} {t : List Int} {result : Json}
    (hupgrade : (version rt).exec u = (.ok (.str v), u'))
    (hstart : (listenStart rt listenPort).exec c = (.ok result, c₁))
    (hlisten : (version rt).exec c₁ = (.ok (.str v), c₂)) (hbind : bindInteger port = .ok ())
    (ht : versionTriple v = some t) :
    GatesRight rt site plan force listenPort port u c t ↔ ReadByTriple v t := by
  have hfirst : LetThrough rt site plan force u ↔
      [1, 8, 0] ≤ t ∧ intParts (splitOn '.' v) ≠ some [1, 8] :=
    (letThrough_iff hupgrade).trans (upgradeRefusal_eq_none_iff ht)
  have hsecond : ∀ reg : Registry, (reg.find c.host port).isSome = true →
      (flagAfterStart rt listenPort port c reg = true ↔ reg.liveAt (c.host, port) = true ∨
        [1, 7, 1] ≤ t ∧ ∀ part ∈ (splitOn '.' v).drop 3, (parseInt part).isSome = true) :=
    fun reg hrow => (flagAfterStart_iff hstart hlisten hbind hrow).trans
      (or_congr_right (registers_iff ht))
  constructor
  · intro h
    refine ⟨fun hshort => ?_, fun hle => ?_⟩
    · have htriple : t = [1, 8, 0] := by
        obtain ⟨ns, hns, rfl, -⟩ := read_of_triple ht
        rw [take_three hshort (by decide), hshort] at hns
        cases hns
        rfl
      have hthrough := h.precheck.mpr (le_of_eq htriple.symm)
      exact (hfirst.mp hthrough).2 hshort
    · have hfind := freshRegistry_find c.host port
      have hrow : ((freshRegistry c.host port).find c.host port).isSome = true := by rw [hfind]; rfl
      have hflag := (h.liveness _ hrow).mpr (Or.inr hle)
      have hclear : (freshRegistry c.host port).liveAt (c.host, port) = false := by
        rw [Registry.liveAt, hfind]
        rfl
      rw [hsecond _ hrow, hclear] at hflag
      exact (hflag.resolve_left Bool.false_ne_true).2
  · intro h
    obtain ⟨hshort, hlater⟩ := h
    have hprecheck : LetThrough rt site plan force u ↔ [1, 8, 0] ≤ t :=
      hfirst.trans (and_iff_left hshort)
    have hliveness : ∀ reg : Registry, (reg.find c.host port).isSome = true →
        (flagAfterStart rt listenPort port c reg = true ↔
          reg.liveAt (c.host, port) = true ∨ [1, 7, 1] ≤ t) := fun reg hrow =>
      (hsecond reg hrow).trans (or_congr_right (and_iff_left_of_imp hlater))
    refine ⟨hprecheck, hliveness, fun hthrough reg hrow => (hliveness reg hrow).mpr (Or.inr ?_)⟩
    exact le_trans (by decide) (hprecheck.mp hthrough)

end

/-! ### Targets with a fourth component, with two and with a suffix -/

/-- The codecs on the answers of a target with this version. -/
def reportingRuntime (v : String) : Runtime :=
  tableRuntime [("\x7b\"pid\": [7]\x7d", .obj [("pid", .arr [.int 7])]),
    ("\"" ++ v ++ "\"", .str v)] ""

/-- A client of a target that starts a listener and reports this version. -/
def reportingClient (v : String) : SocketServerClient :=
  let endpoint : Endpoint := fun _ r =>
    if r.datatype = 171 then { reply := [.data (asciiBytes "\x7b\"pid\": [7]\x7d")] }
    else { reply := [.data (asciiBytes ("\"" ++ v ++ "\""))] }
  { host := "10.0.0.1", port := 9000, timeout := 30,
    sock := some { timeout := 30000, endpoint := endpoint } }

theorem version_gates_iff_witness :
    GatesRight (reportingRuntime "1.8.0.1") takingSite (taggedPlan "1.9.0") false 30001 9000
      (reportingClient "1.8.0.1") (reportingClient "1.8.0.1") [1, 8, 0] := by
  have hread : ReadByTriple "1.8.0.1" [1, 8, 0] := ⟨by decide, fun _ => by decide⟩
  have hreport : (version (reportingRuntime "1.8.0.1")).exec (reportingClient "1.8.0.1") =
    (.ok (.str "1.8.0.1"), _) := rfl
  exact (version_gates_iff hreport rfl rfl rfl (by decide)).mpr hread

/-- A target with version 1.8 is refused. A target with version 1.8.0.dev is let through, and a
start leaves its flag clear. -/
theorem gates_wrong :
    (versionTriple "1.8" = some [1, 8, 0] ∧
      ¬ LetThrough (reportingRuntime "1.8") takingSite (taggedPlan "1.9.0") false
        (reportingClient "1.8")) ∧
    (versionTriple "1.8.0.dev" = some [1, 8, 0] ∧
      LetThrough (reportingRuntime "1.8.0.dev") takingSite (taggedPlan "1.9.0") false
        (reportingClient "1.8.0.dev") ∧
      flagAfterStart (reportingRuntime "1.8.0.dev") 30001 9000 (reportingClient "1.8.0.dev")
        (freshRegistry "10.0.0.1" 9000) = false) ∧
    ¬ ∀ (rt : Runtime) (site : PushSite) (plan : UpgradePlan) (force : Bool)
      (listenPort port : Int) (u u' c c₁ c₂ : SocketServerClient) (v : String) (t : List Int)
      (result : Json), (version rt).exec u = (.ok (.str v), u') →
        (listenStart rt listenPort).exec c = (.ok result, c₁) →
          (version rt).exec c₁ = (.ok (.str v), c₂) → bindInteger port = .ok () →
            versionTriple v = some t → GatesRight rt site plan force listenPort port u c t := by
  have hrefused : ¬ LetThrough (reportingRuntime "1.8") takingSite (taggedPlan "1.9.0") false
      (reportingClient "1.8") := fun h => h rfl
  have hflag : flagAfterStart (reportingRuntime "1.8.0.dev") 30001 9000
      (reportingClient "1.8.0.dev") (freshRegistry "10.0.0.1" 9000) = false := rfl
  have hthrough : LetThrough (reportingRuntime "1.8.0.dev") takingSite (taggedPlan "1.9.0") false
      (reportingClient "1.8.0.dev") := List.cons_ne_nil _ _
  refine ⟨⟨by decide, hrefused⟩, ⟨by decide, hthrough, hflag⟩, fun h => ?_⟩
  have hright := h (reportingRuntime "1.8") takingSite (taggedPlan "1.9.0") false 30001 9000
    (reportingClient "1.8") _ (reportingClient "1.8") _ _ "1.8" [1, 8, 0] _ rfl rfl rfl rfl
    (by decide)
  exact hrefused (hright.precheck.mpr le_rfl)

end McpSocketServer
