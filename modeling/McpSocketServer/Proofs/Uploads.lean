import McpSocketServer.Target.Handler

/-!
# What arrives at the target

A stream of frames reaches the dispatch of the target as it was sent exactly if it comes aligned
to its frames. Whatever arrives, in whatever pieces, as long as it names files by path strings, a
file is only ever given the whole content of an announced upload, or emptied.
-/

namespace McpSocketServer

open Framing

/-- A write that does not go to a descriptor gives one path its content. -/
theorem Disk.write_some {disk disk' : Disk} {path : Json} {content : Bytes}
    (hpath : descriptor? path = none) (h : disk.write path content = some disk') :
    ∃ p, path = .str p ∧
      disk' = { disk with files := Function.update disk.files p (some content) } := by
  cases path with
  | str p =>
      refine ⟨p, rfl, ?_⟩
      simp only [Disk.write] at h
      split at h
      · exact (Option.some.inj h).symm
      · cases h
  | _ => simp [Disk.write, hpath] at h

namespace Connection

variable {σ : Type} {rt : TargetRuntime} {onData : OnData σ} {c : Connection σ}

/-! ### Frames -/

theorem wireFraming_fits {body : Bytes} (h : body.length < 2 ^ 31) : wireFraming.Fits body :=
  ⟨packLE_length 4 body.length, unpackInt_packLE h⟩

/-- The dispatch meets the frames that were sent exactly if every frame begins with a chunk of
its own that holds its length. What the connection does depends on the chunks through these
frames alone. -/
theorem frames_met_iff_aligned {bodies chunks : List Bytes}
    (hbodies : ∀ body ∈ bodies, body.length < 2 ^ 31) (hchunks : ∀ chunk ∈ chunks, chunk ≠ [])
    (hstream : chunks.flatten = bodies.flatMap wireFraming.encode) (rt : TargetRuntime)
    (onData : OnData σ) (c : Connection σ) :
    (wireFraming.deframe {} chunks = (bodies, some {}) ↔ wireFraming.Aligned bodies chunks) ∧
      (handle rt onData c chunks).1 =
        (handleAll (turn rt onData) c (wireFraming.deframe {} chunks).1).1 := by
  refine ⟨wireFraming.deframe_iff_aligned (by decide)
    (fun body hbody => wireFraming_fits (hbodies body hbody)) hchunks hstream, ?_⟩
  rw [handle, consume_eq]
  rcases handleAll (turn rt onData) c (wireFraming.deframe {} chunks).1 with ⟨c', _ | _⟩ <;> rfl

/-! ### What one frame does -/

theorem turn_handler (c : Connection σ) (data : Bytes) :
    (turn rt onData c data).1.handler = (onFrame rt onData c data).1.handler := by
  unfold turn
  rcases onFrame rt onData c data with ⟨c', _ | _ | _⟩ <;> rfl

theorem turn_disk (c : Connection σ) (data : Bytes) :
    (turn rt onData c data).1.disk = (onFrame rt onData c data).1.disk := by
  unfold turn
  rcases onFrame rt onData c data with ⟨c', _ | _ | _⟩ <;> rfl

theorem turn_goes_on {data : Bytes} (h : (turn rt onData c data).2 = true) :
    (onFrame rt onData c data).2 ≠ .closes := by
  unfold turn at h
  rcases hr : onFrame rt onData c data with ⟨c', _ | _ | _⟩ <;> rw [hr] at h
  · cases h
  · nofun
  · nofun

/-- In the midst of an upload a frame adds to the content and leaves the disk alone. -/
theorem onFrame_receiving (hbin : c.handler.binRecvFlag = true) (data : Bytes) :
    (onFrame rt onData c data).1.disk = c.disk ∧
      ((onFrame rt onData c data).2 ≠ .closes →
        (c.handler.content ++ data).length ≤ c.handler.length ∧
        ∃ b, (b = false → (c.handler.content ++ data).length = c.handler.length) ∧
          (onFrame rt onData c data).1.handler =
            { c.handler with content := c.handler.content ++ data, binRecvFlag := b }) := by
  rw [onFrame, if_pos hbin, onContent]
  by_cases heq : (c.handler.content ++ data).length = c.handler.length
  · rw [if_pos heq]
    exact ⟨rfl, fun _ => ⟨Nat.le_of_eq heq, false, fun _ => heq, rfl⟩⟩
  · rw [if_neg heq]
    by_cases hlt : c.handler.length < (c.handler.content ++ data).length
    · rw [if_pos hlt]
      exact ⟨rfl, fun h => absurd rfl h⟩
    · rw [if_neg hlt]
      refine ⟨rfl, fun _ => ⟨Nat.not_lt.mp hlt, true, nofun, ?_⟩⟩
      show ({ c.handler with content := c.handler.content ++ data } : Handler) = _
      rw [← hbin]

/-- The state of a connection between uploads after a frame of `datatype`. -/
inductive Effect (rt : TargetRuntime) (c : Connection σ) (datatype : Int) (data : Bytes) :
    Handler → Disk → Prop
  | none : Effect rt c datatype data c.handler c.disk
  | path (info : List (String × Json)) (hdatatype : datatype = 21)
      (hinfo : rt.loadsBytes data = .ok (.obj info)) :
      Effect rt c datatype data
        { c.handler with
          filepath := fieldD info "filepath" (.str "tmp")
          gzip := fieldD info "gzip" (.bool false) } c.disk
  | length (hdatatype : datatype = 22) (hdata : data.length = 8) :
      Effect rt c datatype data
        { c.handler with length := unpackLE data, content := [], binRecvFlag := true } c.disk
  | write {content : Bytes} {disk : Disk} (hdatatype : datatype = 24)
      (hcontent : received rt c.handler = .ok content)
      (hdisk : c.disk.write c.handler.filepath content = some disk) :
      Effect rt c datatype data { c.handler with content := [] } disk

theorem onPath_effect (data : Bytes) :
    Effect rt c 21 data (onPath rt c data).1.handler (onPath rt c data).1.disk := by
  unfold onPath
  split
  · next info hinfo => exact .path info rfl hinfo
  · exact .none

theorem onLength_effect (data : Bytes) :
    Effect rt c 22 data (c.onLength data).1.handler (c.onLength data).1.disk := by
  unfold onLength
  split
  · next hdata => exact .length rfl hdata
  · exact .none

theorem onWrite_effect (data : Bytes) :
    Effect rt c 24 data (onWrite rt c).1.handler (onWrite rt c).1.disk := by
  unfold onWrite
  split
  · exact .none
  · next content hcontent =>
    split
    · exact .none
    · next disk hdisk => exact .write rfl hcontent hdisk

/-- A frame that announces its datatype changes the state in one of these ways, unless it carries
the datatype of raw content. -/
theorem onFrame_effect (hbin : c.handler.binRecvFlag = false) {data : Bytes}
    (hdata : unpackInt (data.take 4) ≠ 23) :
    Effect rt c (unpackInt (data.take 4)) (data.drop 4) (onFrame rt onData c data).1.handler
      (onFrame rt onData c data).1.disk := by
  rw [onFrame, if_neg (by rw [hbin]; decide)]
  split
  · exact .none
  · unfold onDatatype
    split
    · next h =>
      rw [h]
      exact onPath_effect (data.drop 4)
    · split
      · next h =>
        rw [h]
        exact onLength_effect (data.drop 4)
      · split
        · next h =>
          rw [h]
          exact onWrite_effect (data.drop 4)
        · split <;> exact .none

/-! ### Uploads -/

/-- `content` came in raw frames right after the frame that announces its length. -/
def Uploaded (bodies : List Bytes) (content : Bytes) : Prop :=
  ∃ before announce raws after, bodies = before ++ announce :: raws ++ after ∧
    unpackInt (announce.take 4) = 22 ∧ content = raws.flatten ∧
    content.length = unpackLE (announce.drop 4)

/-- `b` is what a file is given for collected content. -/
def Written (rt : TargetRuntime) (content b : Bytes) : Prop :=
  b = unmarkEmpty content ∨ ∃ text, rt.decompress content = .ok text ∧ b = unmarkEmpty text

/-- A path that the frames name, or `tmp`: a connection begins with it, and it stands for a path
that a frame leaves out. -/
def Named (rt : TargetRuntime) (bodies : List Bytes) (path : Json) : Prop :=
  path = .str "tmp" ∨ ∃ body ∈ bodies, ∃ info, unpackInt (body.take 4) = 21 ∧
    rt.loadsBytes (body.drop 4) = .ok (.obj info) ∧ path = fieldD info "filepath" (.str "tmp")

/-- What the connection has collected after the frames `bodies`. -/
structure Tracks (rt : TargetRuntime) (bodies : List Bytes) (h : Handler) : Prop where
  receiving : h.binRecvFlag = true → ∃ before announce raws,
    bodies = before ++ announce :: raws ∧ unpackInt (announce.take 4) = 22 ∧
    h.content = raws.flatten ∧ h.length = unpackLE (announce.drop 4)
  idle : h.binRecvFlag = false → h.content = [] ∨ Uploaded bodies h.content
  named : Named rt bodies h.filepath
  pathString : descriptor? h.filepath = none

/-- Every file is as it was, or has been given the content of a whole upload or none. -/
def Sound (rt : TargetRuntime) (before : Disk) (bodies : List Bytes) (disk : Disk) : Prop :=
  ∀ p, disk.files p = before.files p ∨ Named rt bodies (.str p) ∧
    ∃ content b, (content = [] ∨ Uploaded bodies content) ∧ disk.files p = some b ∧
      Written rt content b

theorem Uploaded.append {bodies : List Bytes} {content : Bytes} (h : Uploaded bodies content)
    (more : List Bytes) : Uploaded (bodies ++ more) content := by
  obtain ⟨before, announce, raws, after, rfl, hannounce, hcontent, hlength⟩ := h
  exact ⟨before, announce, raws, after ++ more, by simp, hannounce, hcontent, hlength⟩

theorem Named.append {bodies : List Bytes} {path : Json} (h : Named rt bodies path)
    (more : List Bytes) : Named rt (bodies ++ more) path := by
  rcases h with htmp | ⟨body, hbody, hinfo⟩
  · exact Or.inl htmp
  · exact Or.inr ⟨body, List.mem_append_left more hbody, hinfo⟩

theorem Sound.append {before disk : Disk} {bodies : List Bytes} (h : Sound rt before bodies disk)
    (more : List Bytes) : Sound rt before (bodies ++ more) disk := by
  intro p
  rcases h p with hsame | ⟨hnamed, content, b, hcontent, hp, hb⟩
  · exact Or.inl hsame
  · exact Or.inr ⟨hnamed.append more, content, b, hcontent.imp_right fun h => h.append more, hp, hb⟩

theorem tracks_start (rt : TargetRuntime) : Tracks rt [] {} :=
  ⟨nofun, fun _ => Or.inl rfl, Or.inl rfl, rfl⟩

/-! ### One frame keeps what holds -/

/-- A frame that names a file names it by something else than a file descriptor. -/
def NamesPath (rt : TargetRuntime) (body : Bytes) : Prop :=
  unpackInt (body.take 4) = 21 → ∀ info, rt.loadsBytes (body.drop 4) = .ok (.obj info) →
    descriptor? (fieldD info "filepath" (.str "tmp")) = none

theorem tracks_receiving {bodies : List Bytes} {data : Bytes}
    (hbin : c.handler.binRecvFlag = true) (hc : Tracks rt bodies c.handler)
    (hopen : (onFrame rt onData c data).2 ≠ .closes) :
    Tracks rt (bodies ++ [data]) (onFrame rt onData c data).1.handler := by
  obtain ⟨-, b, hfull, hhandler⟩ := (onFrame_receiving hbin data).2 hopen
  obtain ⟨before, announce, raws, rfl, hannounce, hcontent, hlength⟩ := hc.receiving hbin
  have hraws : c.handler.content ++ data = (raws ++ [data]).flatten := by
    rw [hcontent, List.flatten_append, List.flatten_singleton]
  rw [hhandler]
  constructor
  · intro _
    exact ⟨before, announce, raws ++ [data], by simp, hannounce, hraws, hlength⟩
  · intro hb
    right
    exact ⟨before, announce, raws ++ [data], [], by simp, hannounce, hraws,
      (hfull hb).trans hlength⟩
  · exact hc.named.append [data]
  · exact hc.pathString

theorem tracks_effect {bodies : List Bytes} {data : Bytes} {h' : Handler} {disk' : Disk}
    (hbin : c.handler.binRecvFlag = false) (hc : Tracks rt bodies c.handler)
    (hpath : NamesPath rt data)
    (heffect : Effect rt c (unpackInt (data.take 4)) (data.drop 4) h' disk') :
    Tracks rt (bodies ++ [data]) h' := by
  have hidle : c.handler.content = [] ∨ Uploaded (bodies ++ [data]) c.handler.content :=
    (hc.idle hbin).imp_right fun h => h.append [data]
  have hflag : ¬c.handler.binRecvFlag = true := by rw [hbin]; decide
  cases heffect with
  | none =>
      exact ⟨fun h => absurd h hflag, fun _ => hidle, hc.named.append [data], hc.pathString⟩
  | path info hdatatype hinfo =>
      refine ⟨fun h => absurd h hflag, fun _ => hidle, Or.inr ?_, hpath hdatatype info hinfo⟩
      exact ⟨data, by simp, info, hdatatype, hinfo, rfl⟩
  | length hdatatype hdata =>
      refine ⟨fun _ => ?_, nofun, hc.named.append [data], hc.pathString⟩
      exact ⟨bodies, data, [], rfl, hdatatype, rfl, rfl⟩
  | write =>
      exact ⟨fun h => absurd h hflag, fun _ => Or.inl rfl, hc.named.append [data], hc.pathString⟩

theorem written_received {h : Handler} {b : Bytes} (hb : received rt h = .ok b) :
    Written rt h.content b := by
  unfold received at hb
  split at hb
  · cases ht : rt.decompress h.content with
    | error e =>
        rw [ht] at hb
        cases hb
    | ok text =>
        rw [ht] at hb
        exact Or.inr ⟨text, ht, (Except.ok.inj hb).symm⟩
  · exact Or.inl (Except.ok.inj hb).symm

theorem sound_effect {bodies : List Bytes} {data : Bytes} {before : Disk} {h' : Handler}
    {disk' : Disk} (hbin : c.handler.binRecvFlag = false) (hc : Tracks rt bodies c.handler)
    (hdisk : Sound rt before bodies c.disk)
    (heffect : Effect rt c (unpackInt (data.take 4)) (data.drop 4) h' disk') :
    Sound rt before (bodies ++ [data]) disk' := by
  cases heffect with
  | none => exact hdisk.append [data]
  | path => exact hdisk.append [data]
  | length => exact hdisk.append [data]
  | @write content _ hdatatype hcontent hwrite =>
      obtain ⟨q, hpath, rfl⟩ := Disk.write_some hc.pathString hwrite
      intro p
      by_cases hp : p = q
      · subst hp
        right
        refine ⟨hpath ▸ hc.named.append [data], c.handler.content, content,
          (hc.idle hbin).imp_right fun h => h.append [data], ?_, written_received hcontent⟩
        exact Function.update_self p (some content) c.disk.files
      · have hsame : Function.update c.disk.files q (some content) p = c.disk.files p :=
          Function.update_of_ne hp _ _
        simp only [hsame]
        exact hdisk.append [data] p

/-! ### Whole runs -/

/-- No frame between uploads carries the datatype of raw content or names a file descriptor. -/
def Disciplined (rt : TargetRuntime) (onData : OnData σ) : Connection σ → List Bytes → Prop
  | _, [] => True
  | c, body :: bodies =>
    (c.handler.binRecvFlag = false → unpackInt (body.take 4) ≠ 23 ∧ NamesPath rt body) ∧
      Disciplined rt onData (turn rt onData c body).1 bodies

theorem sound_run {before : Disk} {done bodies : List Bytes} (hc : Tracks rt done c.handler)
    (hdisk : Sound rt before done c.disk) (hdisc : Disciplined rt onData c bodies) :
    Sound rt before (done ++ bodies) (handleAll (turn rt onData) c bodies).1.disk := by
  induction bodies generalizing c done with
  | nil =>
      rw [List.append_nil]
      exact hdisk
  | cons body bodies ih =>
      have hstep : Sound rt before (done ++ [body]) (turn rt onData c body).1.disk := by
        rw [turn_disk]
        cases hbin : c.handler.binRecvFlag with
        | true =>
            rw [(onFrame_receiving hbin body).1]
            exact hdisk.append [body]
        | false => exact sound_effect hbin hc hdisk (onFrame_effect hbin (hdisc.1 hbin).1)
      rw [List.append_cons]
      rcases ht : turn rt onData c body with ⟨c', _ | _⟩
      · simp only [handleAll, ht]
        rw [ht] at hstep
        exact hstep.append bodies
      · have hopen : (onFrame rt onData c body).2 ≠ .closes := turn_goes_on (by rw [ht])
        have htracks : Tracks rt (done ++ [body]) (turn rt onData c body).1.handler := by
          rw [turn_handler]
          cases hbin : c.handler.binRecvFlag with
          | true => exact tracks_receiving hbin hc hopen
          | false =>
              obtain ⟨hdata, hpath⟩ := hdisc.1 hbin
              exact tracks_effect hbin hc hpath (onFrame_effect hbin hdata)
        have hrest := hdisc.2
        rw [ht] at hstep htracks hrest
        simp only [handleAll, ht]
        exact ih htracks hstep hrest

/-- Whatever arrives on a new connection, in whatever pieces: a file that is not as it was has
been named or is `tmp`, and holds the content of an upload of the announced length, or nothing. -/
theorem uploads_whole (disk : Disk) (server : σ) (chunks : List Bytes)
    (hdisc : Disciplined rt onData { disk := disk, server := server }
      (wireFraming.deframe {} chunks).1) :
    Sound rt disk (wireFraming.deframe {} chunks).1
      (handle rt onData { disk := disk, server := server } chunks).1.disk := by
  have hrun : Sound rt disk ([] ++ (wireFraming.deframe {} chunks).1)
      (handleAll (turn rt onData) { disk := disk, server := server }
        (wireFraming.deframe {} chunks).1).1.disk :=
    sound_run (tracks_start rt) (fun _ => Or.inl rfl) hdisc
  rw [List.nil_append] at hrun
  rw [handle, consume_eq]
  rcases hr : handleAll (turn rt onData) { disk := disk, server := server }
    (wireFraming.deframe {} chunks).1 with ⟨c', _ | _⟩ <;>
  · rw [hr] at hrun
    exact hrun

/-- The codecs on the request that names `/a`. -/
def uploadRuntime : TargetRuntime :=
  { tableRuntime [("\x7b\"filepath\": \"/a\"\x7d", .obj [("filepath", .str "/a")])] "" with
    compress := id }

theorem uploadRuntime_namesPath (body : Bytes) : NamesPath uploadRuntime body := by
  intro _ info hinfo
  have hknown : Json.obj info = .obj [("filepath", .str "/a")] := by
    simp only [uploadRuntime, tableRuntime, List.lookup_cons, List.lookup_nil] at hinfo
    split at hinfo
    · exact (Except.ok.inj hinfo).symm
    · cases hinfo
  rw [Json.obj.inj hknown]
  rfl

/-- A disk without files and directories, on which every path is writable. -/
def emptyDisk : Disk where
  files _ := none
  dirs _ := false
  writable _ := true

/-- The frames of an upload of `hi` to `/a`. -/
def uploadFrames : List Bytes :=
  [packLE 4 21 ++ asciiBytes "\x7b\"filepath\": \"/a\"\x7d", packLE 4 22 ++ packLE 8 2,
    asciiBytes "hi", packLE 4 24]

/-- The length of the second frame comes ahead of the rest of it. -/
def uploadChunks : List Bytes :=
  [wireFraming.encode (packLE 4 21 ++ asciiBytes "\x7b\"filepath\": \"/a\"\x7d"), packLE 4 12,
    packLE 4 22 ++ packLE 8 2, wireFraming.encode (asciiBytes "hi"),
    wireFraming.encode (packLE 4 24)]

/-- No answers beyond those of the files. -/
def noData : OnData Unit := fun s _ _ => (s, none)

theorem frames_met_iff_aligned_split :
    (wireFraming.deframe {} uploadChunks = (uploadFrames, some {}) ↔
      wireFraming.Aligned uploadFrames uploadChunks) ∧
    (handle uploadRuntime noData { disk := emptyDisk, server := () } uploadChunks).1 =
      (handleAll (turn uploadRuntime noData) { disk := emptyDisk, server := () }
        (wireFraming.deframe {} uploadChunks).1).1 :=
  frames_met_iff_aligned (by decide) (by decide) (by decide) uploadRuntime noData _

theorem uploads_whole_split :
    Sound uploadRuntime emptyDisk (wireFraming.deframe {} uploadChunks).1
      (handle uploadRuntime noData { disk := emptyDisk, server := () } uploadChunks).1.disk ∧
    (handle uploadRuntime noData { disk := emptyDisk, server := () } uploadChunks).1.disk.files
      "/a" = some (asciiBytes "hi") := by
  refine ⟨uploads_whole emptyDisk () uploadChunks ?_, by decide⟩
  exact ⟨fun _ => ⟨by decide, uploadRuntime_namesPath _⟩,
    fun _ => ⟨by decide, uploadRuntime_namesPath _⟩, nofun,
    fun _ => ⟨by decide, uploadRuntime_namesPath _⟩, trivial⟩

end Connection

end McpSocketServer
