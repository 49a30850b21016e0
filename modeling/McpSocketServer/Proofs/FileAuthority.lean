import McpSocketServer.Server.FileTransfer
import McpSocketServer.Proofs.Resolve

/-!
# The host in the transfer commands

A target names its host in one of five forms. `Registry.resolve` cuts at the first colon if
digits follow to the end, which only `name:port` has; `file_transfer` then looks for a
bracketed address with a port, for a single colon with digits behind it, and takes what is
left as the host, with brackets around it if it has a colon. `[v6]` without a port is left
whole by both, and gets its brackets twice. For every other form the authority of the URLs is
the host, as it has to be.
-/

namespace McpSocketServer

/-- An IPv4 address or a name. -/
def IsName (host : String) : Prop :=
  ':' ∉ host.toList ∧ startsWith '@' host = false ∧ startsWith '[' host = false

/-- An IPv6 address: it has at least two colons and no brackets. -/
def IsIPv6 (host : String) : Prop :=
  2 ≤ host.toList.count ':' ∧ '[' ∉ host.toList ∧ ']' ∉ host.toList ∧
    startsWith '@' host = false

instance (host : String) : Decidable (IsName host) := inferInstanceAs (Decidable (_ ∧ _))

instance (host : String) : Decidable (IsIPv6 host) := inferInstanceAs (Decidable (_ ∧ _))

/-- The forms of a target. -/
inductive TargetForm where
  | name (host : String)
  | namePort (host port : String)
  | ipv6 (host : String)
  | bracketed (host : String)
  | bracketedPort (host port : String)

namespace TargetForm

/-- The host that a target names. -/
def host : TargetForm → String
  | .name host | .namePort host _ | .ipv6 host | .bracketed host | .bracketedPort host _ => host

/-- The target as it is written. -/
def text : TargetForm → String
  | .name host | .ipv6 host => host
  | .namePort host port => host ++ ":" ++ port
  | .bracketed host => "[" ++ host ++ "]"
  | .bracketedPort host port => "[" ++ host ++ "]:" ++ port

/-- The host is a name or an IPv6 address as the form wants it, and the port has digits only. -/
def WellFormed : TargetForm → Prop
  | .name host => IsName host
  | .namePort host port => IsName host ∧ isdigit port.toList = true
  | .ipv6 host | .bracketed host => IsIPv6 host
  | .bracketedPort host port => IsIPv6 host ∧ isdigit port.toList = true

instance : (f : TargetForm) → Decidable f.WellFormed
  | .name host => inferInstanceAs (Decidable (IsName host))
  | .namePort _ _ => inferInstanceAs (Decidable (_ ∧ _))
  | .ipv6 host | .bracketed host => inferInstanceAs (Decidable (IsIPv6 host))
  | .bracketedPort _ _ => inferInstanceAs (Decidable (_ ∧ _))

end TargetForm

/-- The authority of a URL to a host, before the port. -/
def hostAuthority (host : String) : String := if IsIPv6 host then "[" ++ host ++ "]" else host

/-- The download and upload commands in an entry of `commands`. -/
def entryLines : Json → String × String
  | .obj fields =>
    (match fieldD fields "download" .null with | .str line => line | _ => "",
      match fieldD fields "upload" .null with | .str line => line | _ => "")
  | _ => ("", "")

/-- The commands in an answer of `file_transfer`; without targets there are none. -/
def commandLines (reply : Json) : List (String × String) :=
  match reply with
  | .obj fields =>
    match fieldD fields "commands" .null with
    | .arr cmds => cmds.map entryLines
    | _ => []
  | _ => []

/-- The two commands for an authority. -/
def linesFor (httpPort : Int) (authority : String) : String × String :=
  (downloadLine authority httpPort, uploadLine authority httpPort)

/-! ### Digits and colons -/

theorem not_isdigit {c : Char} {l : List Char} (hc : c ∈ l) (hdigit : isDigitChar c = false) :
    isdigit l = false := by
  have hall : l.all isDigitChar = false := List.all_eq_false.mpr ⟨c, hc, by simp [hdigit]⟩
  simp [isdigit, hall]

theorem colon_not_mem_digits {port : String} (h : isdigit port.toList = true) :
    ':' ∉ port.toList := by
  intro hcolon
  rw [not_isdigit hcolon (by decide)] at h
  cases h

theorem startsWith_namePort {c : Char} {host port : String} (hc : c ≠ ':')
    (h : startsWith c host = false) : startsWith c (host ++ ":" ++ port) = false := by
  unfold startsWith at h ⊢
  cases hl : host.toList with
  | nil => simpa [hl] using hc.symm
  | cons d ds => simpa [hl] using h

theorem colon_mem_ipv6 {host : String} (h : IsIPv6 host) : ':' ∈ host.toList :=
  List.count_pos_iff.mp (by have hcount := h.1; omega)

theorem ne_colon {l : List Char} (h : ':' ∉ l) : ∀ a ∈ l, (a != ':') = true := fun a ha => by
  simpa using fun heq : a = ':' => h (heq ▸ ha)

/-- What comes after a part with a colon comes after the first colon. -/
theorem mem_afterFirst {s : String} {a b : List Char} (hs : s.toList = a ++ b) (ha : ':' ∈ a)
    {c : Char} (hc : c ∈ b) : c ∈ afterFirst ':' s := by
  have hne : (a.dropWhile (· != ':')).isEmpty = false := by simpa using ha
  obtain ⟨x, xs, hx⟩ : ∃ x xs, a.dropWhile (· != ':') = x :: xs := by
    cases hdrop : a.dropWhile (· != ':') with
    | nil => simp [hdrop] at hne
    | cons x xs => exact ⟨x, xs, rfl⟩
  rw [afterFirst, hs, List.dropWhile_append, hne]
  simp [hx, hc]

/-- After the first colon of an address there is another one. -/
theorem colon_mem_afterFirst {host : String} (h : IsIPv6 host) : ':' ∈ afterFirst ':' host := by
  obtain ⟨a, b, hab⟩ := List.append_of_mem (colon_mem_ipv6 h)
  have hcount := h.1
  rw [hab, List.count_append, List.count_cons_self] at hcount
  by_cases hb : ':' ∈ b
  · exact mem_afterFirst (a := a ++ [':']) (by simpa using hab) (by simp) hb
  · have ha : ':' ∈ a := by
      rw [List.count_eq_zero_of_not_mem hb] at hcount
      exact List.count_pos_iff.mp (by omega)
    exact mem_afterFirst hab ha List.mem_cons_self

/-! ### `Registry.resolve` on the forms -/

/-- What is not a digit after the first colon keeps a target whole. -/
theorem bareHost_of_not_digit {t : String} {c : Char} (hc : c ∈ afterFirst ':' t)
    (hdigit : isDigitChar c = false) : bareHost t = t :=
  if_neg fun h => by
    rw [not_isdigit hc hdigit] at h
    cases h.2

theorem bareHost_of_no_colon {t : String} (h : ':' ∉ t.toList) : bareHost t = t :=
  if_neg fun hcut => h hcut.1

theorem bareHost_namePort {host port : String} (hhost : ':' ∉ host.toList)
    (hport : isdigit port.toList = true) : bareHost (host ++ ":" ++ port) = host := by
  have hne := ne_colon hhost
  have hafter : afterFirst ':' (host ++ ":" ++ port) = port.toList := by
    simp [afterFirst, List.dropWhile_append_of_pos hne]
  have hbefore : beforeFirst ':' (host ++ ":" ++ port) = host := by
    simp [beforeFirst, List.takeWhile_append_of_pos hne]
  rw [bareHost, hafter, hbefore, if_pos ⟨by simp, hport⟩]

/-- A bracketed address is not cut: its first colon is inside the brackets. -/
theorem bareHost_of_bracket {t host : String} {r : List Char} (h : IsIPv6 host)
    (ht : t.toList = ('[' :: host.toList) ++ ']' :: r) : bareHost t = t :=
  bareHost_of_not_digit
    (mem_afterFirst ht (List.mem_cons_of_mem _ (colon_mem_ipv6 h)) List.mem_cons_self) (by decide)

namespace TargetForm

/-- The form that `Registry.resolve` leaves. -/
def resolved : TargetForm → TargetForm
  | .namePort host _ => .name host
  | f => f

theorem resolved_wellFormed {f : TargetForm} (h : f.WellFormed) : f.resolved.WellFormed := by
  cases f with
  | namePort host port => exact h.1
  | name | ipv6 | bracketed | bracketedPort => exact h

theorem bareHost_text {f : TargetForm} (h : f.WellFormed) : bareHost f.text = f.resolved.text := by
  cases f with
  | name host => exact bareHost_of_no_colon h.1
  | namePort host port => exact bareHost_namePort h.1.1 h.2
  | ipv6 host => exact bareHost_of_not_digit (colon_mem_afterFirst h) (by decide)
  | bracketed host => exact bareHost_of_bracket (r := []) h (by simp [text])
  | bracketedPort host port =>
      exact bareHost_of_bracket (r := ':' :: port.toList) h.1 (by simp [text])

/-- No form is read as a tag. -/
theorem text_not_tag {f : TargetForm} (h : f.WellFormed) : startsWith '@' f.text = false := by
  cases f with
  | name host => exact h.2.1
  | namePort host port => exact startsWith_namePort (by decide) h.1.2.1
  | ipv6 host => exact h.2.2.2
  | bracketed host => simp [text, startsWith]
  | bracketedPort host port => simp [text, startsWith]

end TargetForm

/-! ### The splitter of `file_transfer` -/

theorem startsWith_of_mem {c : Char} {s : String} (h : startsWith c s = true) : c ∈ s.toList := by
  unfold startsWith at h
  exact List.mem_of_mem_head? (by simpa using h)

/-- Text without a closing bracket is passed over. -/
theorem beforeClose_append {l r : List Char} (h : ']' ∉ l) :
    beforeClose (l ++ r) = (beforeClose r).map (l ++ ·) := by
  induction l with
  | nil => simp
  | cons c cs ih =>
      have hc : ¬ (c = ']' ∧ (cs ++ r).head? = some ':') := fun hclose =>
        h (hclose.1 ▸ List.mem_cons_self)
      rw [List.cons_append, beforeClose, if_neg hc, ih fun hmem => h (List.mem_cons_of_mem _ hmem),
        Option.map_map]
      rfl

/-- Without an opening bracket and with no or several colons a target is its own host. -/
theorem fileHost_of_count {t : String} (hopen : startsWith '[' t = false)
    (hcount : t.toList.count ':' ≠ 1) : fileHost t = t := by
  simp [fileHost, hopen, hcount]

theorem fileHost_namePort {host port : String} (hhost : IsName host)
    (hport : isdigit port.toList = true) : fileHost (host ++ ":" ++ port) = host := by
  have hopen : startsWith '[' (host ++ ":" ++ port) = false :=
    startsWith_namePort (by decide) hhost.2.2
  have hcount : (host ++ ":" ++ port).toList.count ':' = 1 := by
    simp [List.count_eq_zero_of_not_mem hhost.1,
      List.count_eq_zero_of_not_mem (colon_not_mem_digits hport)]
  have hne := ne_colon fun hmem =>
    colon_not_mem_digits hport (List.mem_reverse.mp hmem)
  have hafter : afterLast ':' (host ++ ":" ++ port) = port.toList := by
    simp [afterLast, List.takeWhile_append_of_pos hne]
  have hbefore : beforeLast ':' (host ++ ":" ++ port) = host := by
    simp [beforeLast, List.dropWhile_append_of_pos hne]
  simp only [fileHost, hopen, Bool.false_eq_true, ↓reduceIte, hcount, hafter, hport, hbefore,
    and_self]

/-- A bracketed address without a port is not taken out of its brackets. -/
theorem fileHost_bracketed {host : String} (h : IsIPv6 host) :
    fileHost ("[" ++ host ++ "]") = "[" ++ host ++ "]" := by
  have hclose : beforeClose ("[" ++ host ++ "]").toList = none := by
    have hpass : ']' ∉ '[' :: host.toList := by simpa using h.2.2.1
    have happend := beforeClose_append (r := [']']) hpass
    simpa [beforeClose] using happend
  have hcount : ("[" ++ host ++ "]").toList.count ':' ≠ 1 := by
    have htwo := h.1
    simp
    omega
  simp only [fileHost, hclose, ite_self]
  exact if_neg fun hcut => hcount hcut.1

theorem fileHost_bracketedPort {host port : String} (h : IsIPv6 host) :
    fileHost ("[" ++ host ++ "]:" ++ port) = host := by
  have hclose : beforeClose ("[" ++ host ++ "]:" ++ port).toList = some ('[' :: host.toList) := by
    have hpass : ']' ∉ '[' :: host.toList := by simpa using h.2.2.1
    have happend := beforeClose_append (r := ']' :: ':' :: port.toList) hpass
    simpa [beforeClose] using happend
  have hopen : startsWith '[' ("[" ++ host ++ "]:" ++ port) = true := by simp [startsWith]
  have hinner : host.toList.dropWhile (· == '[') = host.toList := by
    cases hl : host.toList with
    | nil => rfl
    | cons c cs =>
        have hc : c ≠ '[' := fun heq => h.2.1 (by simp [hl, heq])
        simp [hc]
  simp only [fileHost, hopen, ↓reduceIte, hclose, List.dropWhile_cons, beq_self_eq_true, hinner,
    String.ofList_toList]

theorem urlHost_of_no_colon {host : String} (h : ':' ∉ host.toList) : urlHost host = host :=
  if_neg h

theorem hostAuthority_of_name {host : String} (h : IsName host) : hostAuthority host = host :=
  if_neg fun hv6 => h.1 (colon_mem_ipv6 hv6)

theorem urlHost_of_ipv6 {host : String} (h : IsIPv6 host) : urlHost host = hostAuthority host := by
  rw [urlHost, if_pos (colon_mem_ipv6 h), hostAuthority, if_pos h]

namespace TargetForm

/-- The authority that the tool writes for a form. -/
def authority : TargetForm → String
  | .bracketed host => "[" ++ hostAuthority host ++ "]"
  | f => hostAuthority f.host

theorem urlHost_fileHost {f : TargetForm} (h : f.WellFormed) :
    urlHost (fileHost f.text) = f.authority := by
  cases f with
  | name host =>
      have hcount : host.toList.count ':' ≠ 1 := by
        simp [List.count_eq_zero_of_not_mem h.1]
      rw [text, fileHost_of_count h.2.2 hcount, urlHost_of_no_colon h.1]
      exact (hostAuthority_of_name h).symm
  | namePort host port =>
      rw [text, fileHost_namePort h.1 h.2, urlHost_of_no_colon h.1.1]
      exact (hostAuthority_of_name h.1).symm
  | ipv6 host =>
      have hopen : startsWith '[' host = false := by
        by_contra hbracket
        exact h.2.1 (startsWith_of_mem (by simpa using hbracket))
      have hcount : host.toList.count ':' ≠ 1 := by
        have htwo := h.1
        omega
      rw [text, fileHost_of_count hopen hcount]
      exact urlHost_of_ipv6 h
  | bracketed host =>
      have hcolon : ':' ∈ ("[" ++ host ++ "]").toList := by simpa using colon_mem_ipv6 h
      have hv6 : IsIPv6 host := h
      rw [text, fileHost_bracketed h, urlHost, if_pos hcolon, authority, hostAuthority, if_pos hv6]
  | bracketedPort host port =>
      rw [text, fileHost_bracketedPort h.1]
      exact urlHost_of_ipv6 h.1

theorem resolved_authority (f : TargetForm) : f.resolved.authority = f.authority := by
  cases f <;> rfl

/-- The authority is the right one for every form but `[v6]` without a port. -/
theorem authority_eq_iff {f : TargetForm} :
    f.authority = hostAuthority f.host ↔ ∀ host, f ≠ .bracketed host := by
  cases f with
  | bracketed host =>
      have hlength : "[" ++ hostAuthority host ++ "]" ≠ hostAuthority host := fun heq => by
        have hlen := congrArg String.length heq
        rw [String.length_append, String.length_append] at hlen
        have hone : "[".length = 1 := rfl
        omega
      simpa [authority, TargetForm.host] using hlength
  | name | namePort | ipv6 | bracketedPort => simp [authority]

end TargetForm

/-! ### The commands of an answer -/

theorem linesFor_inj {httpPort : Int} {a b : String} :
    linesFor httpPort a = linesFor httpPort b ↔ a = b := by
  constructor
  · intro h
    have hdownload : downloadLine a httpPort = downloadLine b httpPort := congrArg Prod.fst h
    unfold downloadLine at hdownload
    rw [String.append_left_inj, String.append_left_inj, String.append_left_inj,
      String.append_right_inj] at hdownload
    exact hdownload
  · rintro rfl
    rfl

/-- The line has a URL of the file server at `authority`, followed by the port. -/
def HasUrl (httpPort : Int) (authority line : String) : Prop :=
  ∃ before after, line =
    before ++ ("http://" ++ authority ++ ":" ++ toString httpPort ++ "/files") ++ after

theorem downloadLine_url (httpPort : Int) (authority : String) :
    HasUrl httpPort authority (downloadLine authority httpPort) := by
  have hopen : "curl -o 本地文件 \"http://" = "curl -o 本地文件 \"" ++ "http://" := by decide
  have hclose : "/files?path=<远端绝对路径>\"" = "/files" ++ "?path=<远端绝对路径>\"" := by decide
  refine ⟨"curl -o 本地文件 \"", "?path=<远端绝对路径>\"", ?_⟩
  unfold downloadLine
  rw [hopen, hclose]
  simp only [String.append_assoc]

theorem uploadLine_url (httpPort : Int) (authority : String) :
    HasUrl httpPort authority (uploadLine authority httpPort) := by
  have hform : "curl -F \"path=<远端绝对路径>\" -F \"file=@本地文件\" http://" =
      "curl -F \"path=<远端绝对路径>\" -F \"file=@本地文件\" " ++ "http://" := by decide
  refine ⟨"curl -F \"path=<远端绝对路径>\" -F \"file=@本地文件\" ", "", ?_⟩
  unfold uploadLine
  rw [hform]
  simp only [String.append_assoc, String.append_empty]

theorem entryLines_transferCommand (httpPort : Int) (t : String) :
    entryLines (transferCommand httpPort t) = linesFor httpPort (urlHost (fileHost t)) := by
  simp [entryLines, transferCommand, fieldD, List.lookup_cons, linesFor]

theorem commandLines_fileTransfer (registry : Option Registry) (targets : List String)
    (httpPort : Int) :
    commandLines (fileTransfer registry targets httpPort) =
      (resolveTargets registry targets).map fun t => linesFor httpPort (urlHost (fileHost t)) := by
  unfold fileTransfer
  cases hr : resolveTargets registry targets with
  | nil => rfl
  | cons t ts => simp [commandLines, fieldD, List.lookup_cons, entryLines_transferCommand]

/-- With or without a registry, resolving leaves forms of the same hosts. -/
theorem resolveTargets_forms (registry : Option Registry) {forms : List TargetForm}
    (h : ∀ f ∈ forms, f.WellFormed) :
    resolveTargets registry (forms.map TargetForm.text) =
      forms.map fun f => (if registry.isSome then f.resolved else f).text := by
  cases registry with
  | none => simp [resolveTargets]
  | some reg =>
      have hitem : ∀ f ∈ forms, Registry.expandItem (Registry.tagMap reg.rows) f.text =
          [f.resolved.text] := fun f hf => by
        rw [expandItem_of_bare (TargetForm.text_not_tag (h f hf)),
          TargetForm.bareHost_text (h f hf)]
      rw [resolveTargets, Registry.resolve, List.flatMap_map, List.flatMap_congr hitem]
      simp [List.map_eq_flatMap]

/-- The commands of a list of targets are those of the authorities of their forms. -/
theorem commandLines_forms (registry : Option Registry) {forms : List TargetForm}
    (h : ∀ f ∈ forms, f.WellFormed) (httpPort : Int) :
    commandLines (fileTransfer registry (forms.map TargetForm.text) httpPort) =
      forms.map fun f => linesFor httpPort f.authority := by
  rw [commandLines_fileTransfer, resolveTargets_forms registry h, List.map_map]
  refine List.map_congr_left fun f hf => congrArg (linesFor httpPort) ?_
  cases registry with
  | none => exact TargetForm.urlHost_fileHost (h f hf)
  | some reg =>
      have hresolved := TargetForm.urlHost_fileHost (TargetForm.resolved_wellFormed (h f hf))
      rwa [TargetForm.resolved_authority] at hresolved

/-- The commands, which have the URLs of their authorities, are those for the hosts if and only
if no target is an address in brackets without a port. -/
theorem file_transfer_iff (registry : Option Registry) {forms : List TargetForm}
    (h : ∀ f ∈ forms, f.WellFormed) (httpPort : Int) :
    (commandLines (fileTransfer registry (forms.map TargetForm.text) httpPort) =
        forms.map (fun f => linesFor httpPort (hostAuthority f.host)) ↔
      ∀ f ∈ forms, ∀ host, f ≠ .bracketed host) ∧
    ∀ authority, HasUrl httpPort authority (linesFor httpPort authority).1 ∧
      HasUrl httpPort authority (linesFor httpPort authority).2 := by
  refine ⟨?_, fun a => ⟨downloadLine_url httpPort a, uploadLine_url httpPort a⟩⟩
  rw [commandLines_forms registry h, List.map_inj_left]
  exact forall₂_congr fun f _ => linesFor_inj.trans TargetForm.authority_eq_iff

/-- The other four notations, of two hosts. -/
def writtenForms : List TargetForm :=
  [.name "10.0.0.1", .namePort "10.0.0.1" "9100", .ipv6 "fd00::5", .bracketedPort "fd00::5" "9000"]

theorem writtenForms_wellFormed : ∀ f ∈ writtenForms, f.WellFormed := by decide

theorem file_transfer_witness :
    commandLines (fileTransfer (some Registry.empty) (writtenForms.map TargetForm.text) 9001) =
      writtenForms.map (fun f => linesFor 9001 (hostAuthority f.host)) :=
  (file_transfer_iff _ writtenForms_wellFormed 9001).1.mpr (by simp [writtenForms])

/-- `[fd00::5]` gets a second pair of brackets. -/
theorem bracketed_twice :
    commandLines (fileTransfer none ["[fd00::5]"] 9001) =
        [linesFor 9001 "[[fd00::5]]"] ∧
      ¬ ∀ forms : List TargetForm, (∀ f ∈ forms, f.WellFormed) →
        commandLines (fileTransfer none (forms.map TargetForm.text) 9001) =
          forms.map fun f => linesFor 9001 (hostAuthority f.host) := by
  have htwice : commandLines (fileTransfer none ["[fd00::5]"] 9001) =
      [linesFor 9001 "[[fd00::5]]"] := by decide +kernel
  refine ⟨htwice, fun h => ?_⟩
  have hforms := h [.bracketed "fd00::5"] (by decide)
  change commandLines (fileTransfer none ["[fd00::5]"] 9001) = [linesFor 9001 "[fd00::5]"] at hforms
  rw [htwice] at hforms
  simp [linesFor_inj] at hforms

end McpSocketServer
