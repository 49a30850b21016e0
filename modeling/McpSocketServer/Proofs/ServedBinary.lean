import McpSocketServer.Upgrades

/-!
# Only verified binaries are served

All calls write to one temporary name. As long as no call opens the temporary file between
another call's open and its rename, a renamed file is complete, and the binary that any call
returns is a verified download. Files are never written after their rename, so a reader that
hashes the binary is not disturbed either.
-/

namespace McpSocketServer

open FileStore

variable {rel : Release} {s s' : FetchState} {c : Nat}

/-- A call is between opening the temporary file and the rename. -/
def FetchStage.holdsTmp : FetchStage → Bool
  | .writing .. | .written | .executable => true
  | _ => false

/-- Whenever a call is about to return a path and a hash, the file at the path has this hash and
is a verified download. -/
def ServesVerified (rel : Release) (s : FetchState) : Prop :=
  ∀ c sha, s.stage c = .returning (some sha) →
    ∃ content, s.store.contentOf .binary = some content ∧ rel.sha256 content = sha ∧
      rel.Verified content

/-- The condition: the temporary file is opened while no other call is between its own open
and its rename. -/
def TmpUnshared (s : FetchState) : Nat × FetchStep → Prop
  | (c, .openTmp) => ∀ d, d ≠ c → (s.stage d).holdsTmp = false
  | _ => True

/-- What the stage of a call says about the directory. -/
def StageInv (rel : Release) (fs : ReleaseStore) : FetchStage → Prop
  | .verified => rel.sha256 rel.content = rel.published
  | .writing i offset => rel.sha256 rel.content = rel.published ∧ fs.names .tmp = some i ∧
      (fs.files i).content = rel.content.take offset ∧ offset ≤ rel.content.length
  | .written | .executable => rel.sha256 rel.content = rel.published ∧
      ∃ i, fs.names .tmp = some i ∧ (fs.files i).content = rel.content
  | .hashing i read => (∃ j, fs.names .binary = some j) ∧ i < fs.fresh ∧
      fs.names .tmp ≠ some i ∧ (fs.files i).content = rel.content ∧
      read = rel.content.take read.length
  | .returning (some sha) => (∃ j, fs.names .binary = some j) ∧ sha = rel.sha256 rel.content
  | _ => True

/-- The directory is well formed, a binary in it is verified, one call at a time uses the temporary
file, and every call knows what its stage says. -/
structure FetchInv (rel : Release) (s : FetchState) : Prop where
  wf : StoreWf s.store
  served : ∀ i, s.store.names .binary = some i → rel.Verified (s.store.files i).content
  one : ∀ c d, (s.stage c).holdsTmp = true → (s.stage d).holdsTmp = true → c = d
  stages : ∀ c, StageInv rel s.store (s.stage c)

/-- The directory changes only at the temporary name and its file, except that the binary may
come to exist. -/
structure Kept (fs fs' : ReleaseStore) : Prop where
  binary : (∃ j, fs.names .binary = some j) → ∃ j, fs'.names .binary = some j
  fresh : fs.fresh ≤ fs'.fresh
  files : ∀ i, i < fs.fresh → fs.names .tmp ≠ some i →
    fs'.files i = fs.files i ∧ fs'.names .tmp ≠ some i

/-- A chunk from the end of a prefix extends the prefix. -/
theorem take_append_chunk (l : Bytes) (offset amount : Nat) :
    l.take offset ++ (l.drop offset).take amount =
      l.take (offset + ((l.drop offset).take amount).length) := by
  rw [List.take_add, List.length_take, ← List.take_eq_take_min]

/-- A call that does not hold the temporary file does not notice such a change. -/
theorem StageInv.kept {fs fs' : ReleaseStore} {st : FetchStage} (h : StageInv rel fs st)
    (hkept : Kept fs fs') (hst : st.holdsTmp = false) : StageInv rel fs' st := by
  cases st with
  | verified => exact h
  | writing => cases hst
  | written => cases hst
  | executable => cases hst
  | hashing i read =>
      obtain ⟨hbinary, hold, htmp, hcontent, hread⟩ := h
      obtain ⟨hfile, htmp'⟩ := hkept.files i hold htmp
      exact ⟨hkept.binary hbinary, Nat.lt_of_lt_of_le hold hkept.fresh, htmp',
        by rw [hfile]; exact hcontent, hread⟩
  | returning sha =>
      cases sha with
      | none => trivial
      | some sha => exact ⟨hkept.binary h.1, h.2⟩
  | _ => trivial

/-- A step of `c` that leaves the directory alone. -/
theorem FetchInv.goto {st : FetchStage} (h : FetchInv rel s)
    (hholds : st.holdsTmp = false ∨ (s.stage c).holdsTmp = true)
    (hst : StageInv rel s.store st) : FetchInv rel (s.goto c st) := by
  have hback : ∀ d, ((s.goto c st).stage d).holdsTmp = true → (s.stage d).holdsTmp = true := by
    intro d hd
    by_cases hdc : d = c
    · subst hdc
      have hst : st.holdsTmp = true := by simpa [FetchState.goto] using hd
      exact hholds.resolve_left (by rw [hst]; decide)
    · simpa [FetchState.goto, hdc] using hd
  refine ⟨h.wf, h.served, fun a b ha hb => h.one a b (hback a ha) (hback b hb), fun d => ?_⟩
  by_cases hdc : d = c
  · subst hdc
    simpa [FetchState.goto] using hst
  · simpa [FetchState.goto, hdc] using h.stages d

/-- A step of `c` on the temporary file, while no other call holds it. -/
theorem FetchInv.writer {st : FetchStage} {store : ReleaseStore} (h : FetchInv rel s)
    (halone : ∀ d, d ≠ c → (s.stage d).holdsTmp = false) (hkept : Kept s.store store)
    (hwf : StoreWf store)
    (hserved : ∀ i, store.names .binary = some i → rel.Verified (store.files i).content)
    (hst : StageInv rel store st) : FetchInv rel ({ s with store := store }.goto c st) := by
  have hother : ∀ d, d ≠ c → ({ s with store := store }.goto c st).stage d = s.stage d := by
    intro d hdc
    simp [FetchState.goto, hdc]
  have honly : ∀ d, (({ s with store := store }.goto c st).stage d).holdsTmp = true → d = c := by
    intro d hd
    by_contra hdc
    rw [hother d hdc, halone d hdc] at hd
    cases hd
  refine ⟨hwf, hserved, fun a b ha hb => (honly a ha).trans (honly b hb).symm, fun d => ?_⟩
  by_cases hdc : d = c
  · subst hdc
    simpa [FetchState.goto] using hst
  · rw [hother d hdc]
    exact (h.stages d).kept hkept (halone d hdc)

/-- The other calls while `c` holds the temporary file. -/
theorem FetchInv.alone (h : FetchInv rel s) (hc : (s.stage c).holdsTmp = true) {d : Nat}
    (hdc : d ≠ c) : (s.stage d).holdsTmp = false := by
  by_contra hd
  exact hdc (h.one d c (by simpa using hd) hc)

/-- The binary is not the temporary file, and its content stays under a kept directory. -/
theorem FetchInv.served_kept {store : ReleaseStore} (h : FetchInv rel s)
    (hkept : Kept s.store store) (hnames : store.names .binary = s.store.names .binary) (i : Nat)
    (hi : store.names .binary = some i) : rel.Verified (store.files i).content := by
  rw [hnames] at hi
  rw [(hkept.files i (h.wf.old _ i hi) (h.wf.apart i hi)).1]
  exact h.served i hi

theorem FetchInv.openTmp (h : FetchInv rel s) (hst : s.stage c = .verified)
    (halone : ∀ d, d ≠ c → (s.stage d).holdsTmp = false) {i : Nat} {store : ReleaseStore}
    (hopen : s.store.openTruncate .tmp = (i, store)) :
    FetchInv rel ({ s with store := store }.goto c (.writing i 0)) := by
  obtain ⟨htmp, hempty, hwhich, hnames, hfiles, hfresh, hi⟩ := openTruncate_spec h.wf.old hopen
  have hbinary : store.names .binary = s.store.names .binary := hnames .binary nofun
  have hne : ∀ j, j < s.store.fresh → s.store.names .tmp ≠ some j → j ≠ i := by
    intro j hj hjtmp hji
    subst hji
    rcases hwhich with hold | hnew
    · exact hjtmp hold
    · omega
  have hkept : Kept s.store store := by
    refine ⟨fun hex => hbinary ▸ hex, hfresh, fun j hj hjtmp => ⟨hfiles j (hne j hj hjtmp), ?_⟩⟩
    rw [htmp]
    exact fun hji => hne j hj hjtmp (Option.some.inj hji).symm
  refine h.writer halone hkept ⟨fun n j hj => ?_, fun j hj => ?_⟩ (h.served_kept hkept hbinary)
    ⟨?_, htmp, by rw [hempty, List.take_zero], Nat.zero_le _⟩
  · cases n with
    | binary =>
        rw [hbinary] at hj
        exact Nat.lt_of_lt_of_le (h.wf.old _ j hj) hfresh
    | tmp =>
        rw [htmp] at hj
        exact Option.some.inj hj ▸ hi
  · rw [hbinary] at hj
    exact (hkept.files j (h.wf.old _ j hj) (h.wf.apart j hj)).2
  · have hok := h.stages c
    rw [hst] at hok
    exact hok

/-- A change of the temporary file's content or mode. -/
theorem kept_setFile {fs : ReleaseStore} {i : Nat} (htmp : fs.names .tmp = some i)
    (file : File UInt8) : Kept fs (fs.setFile i file) := by
  refine ⟨fun hex => hex, Nat.le_refl _, fun j _ hj => ⟨?_, hj⟩⟩
  have hji : j ≠ i := by
    intro heq
    subst heq
    exact hj htmp
  simp [setFile, hji]

theorem FetchInv.write {i offset amount : Nat} {chunk : Bytes} (h : FetchInv rel s)
    (hst : s.stage c = .writing i offset)
    (hchunk : chunk = (rel.content.drop offset).take amount) :
    FetchInv rel ({ s with store := s.store.writeAt 0 i offset chunk }.goto c
      (.writing i (offset + chunk.length))) := by
  have hholds : (s.stage c).holdsTmp = true := by rw [hst]; rfl
  have hstage := h.stages c
  rw [hst] at hstage
  obtain ⟨hok, htmp, hcontent, hlen⟩ := hstage
  have hkept : Kept s.store (s.store.writeAt 0 i offset chunk) := kept_setFile htmp _
  refine h.writer (fun d => h.alone hholds) hkept ⟨h.wf.old, h.wf.apart⟩
    (h.served_kept hkept rfl) ⟨hok, htmp, ?_, ?_⟩
  · -- the write goes to the end of what has been written
    have hoffset : (rel.content.take offset).length = offset := by
      rw [List.length_take, Nat.min_eq_left hlen]
    have hend : overwrite 0 (rel.content.take offset) offset chunk =
        rel.content.take offset ++ chunk := by
      have hover := overwrite_end 0 (rel.content.take offset) chunk
      rwa [hoffset] at hover
    show (Function.update s.store.files i _ i).content = _
    rw [Function.update_self]
    show overwrite 0 (s.store.files i).content offset chunk = _
    rw [hcontent, hend, hchunk, take_append_chunk]
  · rw [hchunk]
    simp only [List.length_take, List.length_drop]
    omega

theorem FetchInv.replace {store : ReleaseStore} (h : FetchInv rel s)
    (hst : s.stage c = .executable) (hreplace : s.store.replace .tmp .binary = some store) :
    FetchInv rel ({ s with store := store }.goto c
      (.returning (some (rel.sha256 rel.content)))) := by
  have hholds : (s.stage c).holdsTmp = true := by rw [hst]; rfl
  have hstage := h.stages c
  rw [hst] at hstage
  obtain ⟨hok, i, htmp, hcontent⟩ := hstage
  simp only [FileStore.replace, htmp, Option.map_some, Option.some.injEq] at hreplace
  subst hreplace
  refine h.writer (fun d => h.alone hholds) ⟨fun _ => ⟨i, by simp⟩, Nat.le_refl _, ?_⟩
    ⟨fun n j hj => ?_, fun j _ => by simp⟩ (fun j hj => ?_) ⟨⟨i, by simp⟩, rfl⟩
  · intro j _ _
    exact ⟨rfl, by simp⟩
  · cases n with
    | binary =>
        obtain rfl : i = j := by simpa using hj
        exact h.wf.old .tmp i htmp
    | tmp => simp at hj
  · obtain rfl : i = j := by simpa using hj
    exact ⟨hcontent, by rw [hcontent]; exact hok⟩

theorem FetchInv.read {i amount : Nat} {read : Bytes} (h : FetchInv rel s)
    (hst : s.stage c = .hashing i read) :
    FetchInv rel (s.goto c (.hashing i
      (read ++ ((s.store.files i).content.drop read.length).take amount))) := by
  have hstage := h.stages c
  rw [hst] at hstage
  obtain ⟨hbinary, hold, htmp, hcontent, hread⟩ := hstage
  refine h.goto (.inl rfl) ⟨hbinary, hold, htmp, hcontent, ?_⟩
  rw [hcontent, List.length_append]
  nth_rewrite 1 [hread]
  exact take_append_chunk _ _ _

/-- A reader that meets the end of the file has read the release. -/
theorem FetchInv.hashed {i : Nat} {read : Bytes} (h : FetchInv rel s)
    (hst : s.stage c = .hashing i read)
    (hend : (s.store.files i).content.drop read.length = []) :
    FetchInv rel (s.goto c (.returning (some (rel.sha256 read)))) := by
  have hstage := h.stages c
  rw [hst] at hstage
  obtain ⟨hbinary, hold, htmp, hcontent, hread⟩ := hstage
  rw [hcontent, List.drop_eq_nil_iff] at hend
  have hwhole : read = rel.content := by rw [hread, List.take_of_length_le hend]
  exact h.goto (.inl rfl) ⟨hbinary, by rw [hwhole]⟩

theorem FetchInv.step {l : FetchStep} (h : FetchInv rel s) (hC : TmpUnshared s (c, l))
    (hstep : s.step rel c l = some s') : FetchInv rel s' := by
  have hstage := h.stages c
  cases l with
  | call =>
      cases hst : s.stage c <;> simp [FetchState.step, hst] at hstep
      exact hstep ▸ h.goto (.inl rfl) trivial
  | isfile =>
      cases hst : s.stage c <;> simp [FetchState.step, hst] at hstep
      subst hstep
      split_ifs <;> exact h.goto (.inl rfl) trivial
  | access =>
      cases hst : s.stage c <;> simp [FetchState.step, hst] at hstep
      subst hstep
      split_ifs <;> exact h.goto (.inl rfl) trivial
  | openForHash =>
      cases hst : s.stage c <;> cases hbin : s.store.names .binary <;>
        simp [FetchState.step, hst, hbin] at hstep
      rename_i i
      subst hstep
      exact h.goto (.inl rfl)
        ⟨⟨i, hbin⟩, h.wf.old _ i hbin, h.wf.apart i hbin, (h.served i hbin).1, rfl⟩
  | read amount =>
      cases hst : s.stage c <;> simp only [FetchState.step, hst, reduceCtorEq] at hstep
      split_ifs at hstep with hend <;> obtain rfl := Option.some.inj hstep
      · exact h.hashed hst hend
      · exact h.read hst
  | download =>
      cases hst : s.stage c <;> simp [FetchState.step, hst] at hstep
      subst hstep
      split_ifs with hok
      · exact h.goto (.inl rfl) hok
      · exact h.goto (.inl rfl) trivial
  | openTmp =>
      cases hst : s.stage c <;> simp [FetchState.step, hst] at hstep
      subst hstep
      exact h.openTmp hst hC rfl
  | write amount =>
      cases hst : s.stage c <;> simp only [FetchState.step, hst, reduceCtorEq] at hstep
      rename_i i offset
      split_ifs at hstep with hdone <;> obtain rfl := Option.some.inj hstep
      · rw [hst] at hstage
        obtain ⟨hok, htmp, hcontent, -⟩ := hstage
        rw [List.take_of_length_le hdone] at hcontent
        exact h.goto (.inr (by rw [hst]; rfl)) ⟨hok, i, htmp, hcontent⟩
      · exact h.write hst rfl
  | chmod =>
      cases hst : s.stage c <;> simp only [FetchState.step, hst, reduceCtorEq] at hstep
      rw [hst] at hstage
      obtain ⟨hok, i, htmp, hcontent⟩ := hstage
      simp only [makeExecutable, htmp, Option.map_some, Option.some.injEq] at hstep
      subst hstep
      have hholds : (s.stage c).holdsTmp = true := by rw [hst]; rfl
      have hkept := kept_setFile htmp { s.store.files i with executable := true }
      exact h.writer (fun d => h.alone hholds) hkept ⟨h.wf.old, h.wf.apart⟩
        (h.served_kept hkept rfl) ⟨hok, i, htmp, by simpa [setFile] using hcontent⟩
  | replace =>
      cases hst : s.stage c <;> simp only [FetchState.step, hst, reduceCtorEq] at hstep
      obtain ⟨store, hreplace, rfl⟩ := Option.map_eq_some_iff.mp hstep
      exact h.replace hst hreplace
  | fail =>
      cases hst : s.stage c <;> simp [FetchState.step, hst] at hstep <;>
        exact hstep ▸ h.goto (.inl rfl) trivial
  | kill =>
      cases hst : s.stage c <;> simp [FetchState.step, hst] at hstep <;>
        exact hstep ▸ h.goto (.inl rfl) trivial
  | ret =>
      cases hst : s.stage c <;> simp [FetchState.step, hst] at hstep
      exact hstep ▸ h.goto (.inl rfl) trivial

theorem fetchInv_invariant : (fetchLts rel).Invariant TmpUnshared (FetchInv rel) where
  init s hs := by
    obtain ⟨hstages, hwf, hserved⟩ := hs
    refine ⟨hwf, fun i hi => hserved _ (by rw [contentOf, hi]; rfl), fun c d hc _ => ?_,
      fun c => by rw [hstages c]; trivial⟩
    rw [hstages c] at hc
    cases hc
  step s l s' _ hs hC hstep := hs.step hC hstep

/-- In every run in which the temporary file is not shared, only verified binaries are
returned. -/
theorem served_verified (h : (fetchLts rel).Reachable TmpUnshared s) : ServesVerified rel s := by
  have hinv := fetchInv_invariant.reachable h
  intro c sha hst
  have hstage := hinv.stages c
  rw [hst] at hstage
  obtain ⟨⟨i, hi⟩, rfl⟩ := hstage
  have hverified := hinv.served i hi
  exact ⟨_, by rw [contentOf, hi]; rfl, by rw [hverified.1], hverified⟩

/-- The SHA-256 of the bytes 1 and 2. -/
def twoByteSha : String := "a12871fee210fb8619291eaea194581cbd2531e4b23759d225f6806923f63222"

/-- The SHA-256 of no bytes. -/
def emptySha : String := "e3b0c44298fc1c149afbf4c8996fb92427ae41e4649b934ca495991b7852b855"

/-- A release of two bytes, with the hashes of its content and of an empty file. -/
def twoByteRelease : Release where
  content := [1, 2]
  published := twoByteSha
  sha256 b := if b = [1, 2] then twoByteSha else if b = [] then emptySha else ""

/-- An empty directory. -/
def emptyStore : ReleaseStore := ⟨fun _ => none, fun _ => {}, 0⟩

theorem emptyStore_init : (fetchLts twoByteRelease).init { store := emptyStore } := by
  refine ⟨fun _ => rfl, ⟨fun n i h => ?_, fun i h => ?_⟩, fun content h => ?_⟩
  · cases h
  · cases h
  · cases h

/-- Two calls download the release. The second opens the temporary file after the first has
written it and before the first renames it. -/
def sharedTmpTrace : List (Nat × FetchStep) :=
  [(0, .call), (0, .isfile), (0, .download), (0, .openTmp), (0, .write 2), (0, .write 0),
    (1, .call), (1, .isfile), (1, .download), (1, .openTmp), (0, .chmod), (0, .replace)]

/-- The state after the rename. -/
def sharedTmpEnd : FetchState :=
  ((fetchLts twoByteRelease).run sharedTmpTrace { store := emptyStore }).get rfl

/-- The first call returns the hash of the release with a path to an empty file. -/
theorem served_unverified :
    ¬ ∀ rel s, (fetchLts rel).Reachable Lts.always s → ServesVerified rel s := by
  intro h
  have hreach : (fetchLts twoByteRelease).Reachable Lts.always sharedTmpEnd :=
    .of_run (.init emptyStore_init) (Option.some_get rfl).symm
  obtain ⟨content, hcontent, -, hverified, -⟩ := h twoByteRelease sharedTmpEnd hreach 0 twoByteSha rfl
  have hempty : some ([] : Bytes) = some content := hcontent
  rw [← Option.some.inj hempty] at hverified
  cases hverified

/-- One call that downloads the release. -/
def servedTrace : List (Nat × FetchStep) :=
  [(0, .call), (0, .isfile), (0, .download), (0, .openTmp), (0, .write 1), (0, .write 1),
    (0, .write 0), (0, .chmod), (0, .replace)]

/-- The state before its return. -/
def servedEnd : FetchState :=
  ((fetchLts twoByteRelease).run servedTrace { store := emptyStore }).get rfl

theorem servedEnd_reachable : (fetchLts twoByteRelease).Reachable TmpUnshared servedEnd := by
  have hlabels : ∀ l ∈ servedTrace, l.1 = 0 := by decide
  refine Lts.Reachable.of_run_within (I := fun s => ∀ d, d ≠ 0 → s.stage d = .notCalled) ?_ ?_
    hlabels (.init emptyStore_init) (fun _ _ => rfl) (Option.some_get rfl).symm
  · rintro s ⟨c, l⟩ hothers rfl
    cases l with
    | openTmp => exact fun d hd => by rw [hothers d hd]; rfl
    | _ => trivial
  · rintro s ⟨c, l⟩ s' hothers rfl hstep d hd
    rw [FetchState.step_stage_ne hstep hd]
    exact hothers d hd

theorem served_verified_witness :
    ∃ content, servedEnd.store.contentOf .binary = some content ∧
      twoByteRelease.sha256 content = twoByteSha ∧ twoByteRelease.Verified content :=
  served_verified servedEnd_reachable 0 twoByteSha rfl

end McpSocketServer
