import Mathlib.Data.List.Basic
import Mathlib.Algebra.Order.Ring.Int

/-!
# Frames over a stream that is read chunk by chunk

A frame is a header of fixed width that announces a size, and a body of that size. The
assembler reads the header out of the first chunk of a frame and then collects whole chunks.
What a chunk holds beyond the end of the frame makes it drop the frame, and the chunk with it.

A stream of frames is therefore read without loss exactly if it comes aligned: every frame
begins with a chunk of its own, and that chunk holds the whole header.
-/

namespace McpSocketServer

/-- Headers of `width` items that announce the size of a body. -/
structure Framing (α : Type) where
  width : Nat
  pack : Nat → List α
  unpack : List α → Int

/-- What has arrived of a body and the size announced for it, which is zero between frames. -/
structure Assembly (α : Type) where
  total : List α := []
  size : Int := 0
  deriving DecidableEq, Repr

/-- What a chunk leads to. -/
inductive Fed (α : Type) where
  | closed
  | more (s : Assembly α)
  | dropped
  | frame (body : List α)

namespace Framing

variable {α : Type} (F : Framing α)

/-- A body with its size in front. -/
def encode (body : List α) : List α := F.pack body.length ++ body

/-- The size of the body can be announced. -/
structure Fits (body : List α) : Prop where
  length_pack : (F.pack body.length).length = F.width
  unpack_pack : F.unpack (F.pack body.length) = body.length

/-- Compare what has arrived with what was announced. -/
def settle (total : List α) (size : Int) : Fed α :=
  if total.length < size then .more ⟨total, size⟩
  else if size < total.length then .dropped
  else .frame total

/-- What `s` makes of the next chunk. Between frames the chunk begins with a size. -/
def feed (s : Assembly α) (chunk : List α) : Fed α :=
  if s.size = 0 then
    if chunk.length < F.width then .closed
    else settle (s.total ++ chunk.drop F.width) (F.unpack (chunk.take F.width))
  else settle (s.total ++ chunk) s.size

/-- The bodies read out of the chunks, and what is left unless the assembler has given up. -/
def deframe : Assembly α → List (List α) → List (List α) × Option (Assembly α)
  | s, [] => ([], some s)
  | s, chunk :: chunks =>
    match F.feed s chunk with
    | .closed => ([], none)
    | .more s' => deframe s' chunks
    | .dropped => deframe {} chunks
    | .frame body => (body :: (deframe {} chunks).1, (deframe {} chunks).2)

variable {σ : Type}

/-- Hand every body that is read to `handle`, until it closes the stream or the assembler
gives up. -/
def consume (handle : σ → List α → σ × Bool) :
    Assembly α → σ → List (List α) → σ × Option (Assembly α)
  | s, t, [] => (t, some s)
  | s, t, chunk :: chunks =>
    match F.feed s chunk with
    | .closed => (t, none)
    | .more s' => consume handle s' t chunks
    | .dropped => consume handle {} t chunks
    | .frame body =>
      match handle t body with
      | (t', true) => consume handle {} t' chunks
      | (t', false) => (t', none)

/-- Handle bodies one after another, until one of them closes the stream. -/
def handleAll (handle : σ → List α → σ × Bool) : σ → List (List α) → σ × Bool
  | t, [] => (t, true)
  | t, body :: bodies =>
    match handle t body with
    | (t', true) => handleAll handle t' bodies
    | (t', false) => (t', false)

/-- The chunks can be cut into as many groups as there are bodies, each as long as the frame of
its body and with the whole header in the first chunk. -/
inductive Aligned : List (List α) → List (List α) → Prop
  | nil : Aligned [] []
  | cons {body : List α} {first : List α} {rest : List (List α)} {bodies chunks : List (List α)}
      (header : F.width ≤ first.length)
      (length : first.length + rest.flatten.length = F.width + body.length)
      (tail : Aligned bodies chunks) : Aligned (body :: bodies) (first :: (rest ++ chunks))

/-- What the handler does depends on the chunks through the bodies read out of them. -/
theorem consume_eq (handle : σ → List α → σ × Bool) (s : Assembly α) (t : σ)
    (chunks : List (List α)) :
    F.consume handle s t chunks =
      match handleAll handle t (F.deframe s chunks).1 with
      | (t', true) => (t', (F.deframe s chunks).2)
      | (t', false) => (t', none) := by
  induction chunks generalizing s t with
  | nil => rfl
  | cons chunk chunks ih =>
      rw [consume, deframe]
      cases F.feed s chunk with
      | closed => rfl
      | more s' => exact ih s' t
      | dropped => exact ih {} t
      | frame body =>
          rcases hbody : handle t body with ⟨t', _ | _⟩ <;> simp only [handleAll, hbody]
          exact ih {} t'

/-! ### What one chunk does -/

/-- How much of the frame being assembled has been read. -/
def pending (s : Assembly α) : Nat := if s.size = 0 then 0 else F.width + s.total.length

/-- Between frames nothing is collected; within a frame the body is incomplete. -/
def Open (s : Assembly α) : Prop :=
  (s.size = 0 ∧ s.total = []) ∨ (s.total.length : Int) < s.size

theorem open_empty : Open ({} : Assembly α) := Or.inl ⟨rfl, rfl⟩

@[simp] theorem pending_empty : F.pending {} = 0 := rfl

theorem pending_of_size_ne {s : Assembly α} (h : s.size ≠ 0) :
    F.pending s = F.width + s.total.length := if_neg h

theorem settle_cases (total : List α) (size : Int) :
    (settle total size = .more ⟨total, size⟩ ∧ (total.length : Int) < size) ∨
      (settle total size = .dropped ∧ size < (total.length : Int)) ∨
      (settle total size = .frame total ∧ size = total.length) := by
  unfold settle
  split
  · exact Or.inl ⟨rfl, ‹_›⟩
  · split
    · exact Or.inr (Or.inl ⟨rfl, ‹_›⟩)
    · exact Or.inr (Or.inr ⟨rfl, by omega⟩)

/-- No item is lost between a chunk and what is made of it, unless the frame is dropped. -/
theorem feed_length {s : Assembly α} (hs : Open s) (chunk : List α) :
    match F.feed s chunk with
    | .closed => s.size = 0 ∧ chunk.length < F.width
    | .more s' => s'.size ≠ 0 ∧ Open s' ∧ F.pending s' = F.pending s + chunk.length
    | .dropped => F.width ≤ F.pending s + chunk.length
    | .frame body => F.width + body.length = F.pending s + chunk.length := by
  by_cases hsize : s.size = 0
  · have htotal : s.total = [] := by
      rcases hs with ⟨-, h⟩ | h
      · exact h
      · exact absurd h (by omega)
    have hpending : F.pending s = 0 := if_pos hsize
    rw [feed, if_pos hsize]
    by_cases hshort : chunk.length < F.width
    · rw [if_pos hshort]
      exact ⟨hsize, hshort⟩
    · rw [if_neg hshort, htotal, List.nil_append, hpending]
      have hdrop : (chunk.drop F.width).length = chunk.length - F.width := List.length_drop
      rcases settle_cases (chunk.drop F.width) (F.unpack (chunk.take F.width)) with
        ⟨h, hlt⟩ | ⟨h, hlt⟩ | ⟨h, heq⟩ <;> rw [h]
      · have hne : F.unpack (chunk.take F.width) ≠ 0 := by omega
        refine ⟨hne, Or.inr hlt, ?_⟩
        rw [pending_of_size_ne F hne]
        show F.width + (chunk.drop F.width).length = _
        omega
      · show F.width ≤ 0 + chunk.length
        omega
      · show F.width + (chunk.drop F.width).length = _
        omega
  · rw [feed, if_neg hsize, pending_of_size_ne F hsize]
    have happ : (s.total ++ chunk).length = s.total.length + chunk.length := List.length_append
    rcases settle_cases (s.total ++ chunk) s.size with ⟨h, hlt⟩ | ⟨h, hlt⟩ | ⟨h, heq⟩ <;> rw [h]
    · refine ⟨hsize, Or.inr hlt, ?_⟩
      rw [F.pending_of_size_ne (s := ⟨s.total ++ chunk, s.size⟩) hsize]
      show F.width + (s.total ++ chunk).length = _
      omega
    · show F.width ≤ _
      omega
    · show F.width + (s.total ++ chunk).length = _
      omega

/-! ### What is read is no more than what came -/

/-- The length of the frames of some bodies. -/
def framesLength (bodies : List (List α)) : Nat :=
  (bodies.map fun body => F.width + body.length).sum

@[simp] theorem framesLength_nil : F.framesLength [] = 0 := rfl

@[simp] theorem framesLength_cons (body : List α) (bodies : List (List α)) :
    F.framesLength (body :: bodies) = F.width + body.length + F.framesLength bodies := rfl

theorem framesLength_le {chunks bodies : List (List α)} {s s' : Assembly α} (hs : Open s)
    (h : F.deframe s chunks = (bodies, some s')) :
    F.framesLength bodies + F.pending s' ≤ F.pending s + chunks.flatten.length := by
  induction chunks generalizing s bodies with
  | nil =>
      obtain ⟨rfl, hs'⟩ := Prod.mk.inj h
      obtain rfl := Option.some.inj hs'
      simp
  | cons chunk chunks ih =>
      have hlen := F.feed_length hs chunk
      rw [List.flatten_cons, List.length_append]
      cases hf : F.feed s chunk with
      | closed => simp [deframe, hf] at h
      | more s₁ =>
          simp only [hf] at hlen
          simp only [deframe, hf] at h
          have hrest := ih hlen.2.1 h
          omega
      | dropped =>
          simp only [deframe, hf] at h
          have hrest := ih open_empty h
          simp only [pending_empty] at hrest
          omega
      | frame body =>
          simp only [hf] at hlen
          rcases hd : F.deframe {} chunks with ⟨bodies', r⟩
          simp only [deframe, hf, hd, Prod.mk.injEq] at h
          obtain ⟨rfl, rfl⟩ := h
          have hrest := ih open_empty hd
          simp only [pending_empty] at hrest
          rw [framesLength_cons]
          omega

/-- Alignment for an assembler in the midst of a frame. -/
def Continues (s : Assembly α) (bodies chunks : List (List α)) : Prop :=
  if s.size = 0 then F.Aligned bodies chunks
  else ∃ rest chunks' body bodies', chunks = rest ++ chunks' ∧ bodies = body :: bodies' ∧
    F.pending s + rest.flatten.length = F.width + body.length ∧ F.Aligned bodies' chunks'

/-- A stream that yields frames of its own length has had nothing dropped, so it is aligned. -/
theorem continues_of_length (hwidth : 0 < F.width) {chunks bodies : List (List α)}
    {s : Assembly α} (hs : Open s) (h : F.deframe s chunks = (bodies, some {}))
    (hlen : F.framesLength bodies = F.pending s + chunks.flatten.length) :
    F.Continues s bodies chunks := by
  induction chunks generalizing s bodies with
  | nil =>
      obtain ⟨rfl, hs'⟩ := Prod.mk.inj h
      obtain rfl := Option.some.inj hs'
      exact Aligned.nil
  | cons chunk chunks ih =>
      have hfeed := F.feed_length hs chunk
      rw [List.flatten_cons, List.length_append] at hlen
      cases hf : F.feed s chunk with
      | closed => simp [deframe, hf] at h
      | more s₁ =>
          simp only [hf] at hfeed
          simp only [deframe, hf] at h
          obtain ⟨hsize₁, hopen, hpending⟩ := hfeed
          have hrest := ih hopen h (by omega)
          rw [Continues, if_neg hsize₁] at hrest
          obtain ⟨rest, chunks', body, bodies', rfl, rfl, hbody, htail⟩ := hrest
          unfold Continues
          split
          · next hsize =>
            have hheader : ¬chunk.length < F.width := by
              intro hshort
              simp [feed, hsize, hshort] at hf
            have hzero : F.pending s = 0 := if_pos hsize
            exact .cons (by omega) (by omega) htail
          · refine ⟨chunk :: rest, chunks', body, bodies', rfl, rfl, ?_, htail⟩
            rw [List.flatten_cons, List.length_append]
            omega
      | dropped =>
          simp only [hf] at hfeed
          simp only [deframe, hf] at h
          have hle := F.framesLength_le open_empty h
          simp only [pending_empty] at hle
          omega
      | frame body =>
          simp only [hf] at hfeed
          rcases hd : F.deframe {} chunks with ⟨bodies', r⟩
          simp only [deframe, hf, hd, Prod.mk.injEq] at h
          obtain ⟨rfl, rfl⟩ := h
          rw [framesLength_cons] at hlen
          have htail := ih open_empty hd (by rw [pending_empty]; omega)
          rw [Continues, if_pos rfl] at htail
          unfold Continues
          split
          · next hsize =>
            have hheader : ¬chunk.length < F.width := by
              intro hshort
              simp [feed, hsize, hshort] at hf
            have hzero : F.pending s = 0 := if_pos hsize
            have hcons : F.Aligned (body :: bodies') (chunk :: ([] ++ chunks)) :=
              .cons (by omega) (by rw [List.flatten_nil, List.length_nil]; omega) htail
            exact hcons
          · refine ⟨[chunk], chunks, body, _, rfl, rfl, ?_, htail⟩
            simp only [List.flatten_cons, List.flatten_nil, List.append_nil]
            omega

/-! ### Aligned frames are read -/

/-- Chunks up to the end of the frame complete its body. -/
theorem deframe_collect {rest : List (List α)} (hrest : ∀ c ∈ rest, c ≠ []) (total : List α)
    (chunks : List (List α)) {size : Int} (hsize : size = (total ++ rest.flatten).length) :
    (match settle total size with
      | .closed => ([], none)
      | .more s' => F.deframe s' (rest ++ chunks)
      | .dropped => F.deframe {} (rest ++ chunks)
      | .frame body => (body :: (F.deframe {} (rest ++ chunks)).1,
          (F.deframe {} (rest ++ chunks)).2)) =
      ((total ++ rest.flatten) :: (F.deframe {} chunks).1, (F.deframe {} chunks).2) := by
  induction rest generalizing total with
  | nil =>
      have hdone : settle total size = .frame total := by
        rw [List.flatten_nil, List.append_nil] at hsize
        rw [settle, if_neg (by omega), if_neg (by omega)]
      rw [hdone, List.flatten_nil, List.append_nil]
      rfl
  | cons chunk rest ih =>
      have hchunk : chunk.length ≠ 0 := by
        intro h
        exact hrest chunk List.mem_cons_self (List.length_eq_zero_iff.mp h)
      rw [List.flatten_cons] at hsize ⊢
      have hlt : (total.length : Int) < size := by
        rw [List.length_append, List.length_append] at hsize
        omega
      have hmore : settle total size = .more ⟨total, size⟩ := if_pos hlt
      have hfeed : F.feed ⟨total, size⟩ chunk = settle (total ++ chunk) size := by
        rw [feed, if_neg (show size ≠ 0 by omega)]
      rw [hmore, ← List.append_assoc, ← ih (fun c hc => hrest c (List.mem_cons_of_mem chunk hc))
        (total ++ chunk) (by rw [hsize, List.append_assoc])]
      show F.deframe ⟨total, size⟩ (chunk :: (rest ++ chunks)) = _
      rw [deframe, hfeed]

/-- A frame that comes in chunks of its own is read first. -/
theorem deframe_frame {body first : List α} {rest : List (List α)} (hfits : F.Fits body)
    (hheader : F.width ≤ first.length) (hrest : ∀ c ∈ rest, c ≠ [])
    (hframe : first ++ rest.flatten = F.encode body) (chunks : List (List α)) :
    F.deframe {} (first :: (rest ++ chunks)) =
      (body :: (F.deframe {} chunks).1, (F.deframe {} chunks).2) := by
  have hsplit : first.take F.width ++ (first.drop F.width ++ rest.flatten) =
      F.pack body.length ++ body := by
    rw [← List.append_assoc, List.take_append_drop, hframe, encode]
  have htake : (first.take F.width).length = (F.pack body.length).length := by
    rw [List.length_take, hfits.length_pack]
    omega
  obtain ⟨hhead, hbody⟩ := List.append_inj hsplit htake
  have hfeed : F.feed {} first = settle (first.drop F.width) body.length := by
    rw [feed, if_pos rfl, if_neg (by omega), hhead, hfits.unpack_pack]
    rfl
  have hcollect := F.deframe_collect hrest (first.drop F.width) chunks
    (show (body.length : Int) = _ by rw [hbody])
  rw [hbody] at hcollect
  rw [deframe, hfeed, hcollect]

theorem deframe_of_aligned {bodies chunks : List (List α)} (h : F.Aligned bodies chunks)
    (hfits : ∀ body ∈ bodies, F.Fits body) (hchunks : ∀ c ∈ chunks, c ≠ [])
    (hstream : chunks.flatten = bodies.flatMap F.encode) :
    F.deframe {} chunks = (bodies, some {}) := by
  induction h with
  | nil => rfl
  | @cons body first rest bodies chunks hheader hlength htail ih =>
      have hbody := hfits body List.mem_cons_self
      rw [List.flatten_cons, List.flatten_append, ← List.append_assoc, List.flatMap_cons]
        at hstream
      obtain ⟨hframe, hrest⟩ := List.append_inj hstream (by
        rw [List.length_append, hlength, encode, List.length_append, hbody.length_pack])
      have hne : ∀ c ∈ rest, c ≠ [] := fun c hc =>
        hchunks c (List.mem_cons_of_mem first (List.mem_append_left chunks hc))
      rw [F.deframe_frame hbody hheader hne hframe, ih
        (fun b hb => hfits b (List.mem_cons_of_mem body hb))
        (fun c hc => hchunks c (List.mem_cons_of_mem first (List.mem_append_right rest hc))) hrest]

theorem length_frames {bodies : List (List α)} (hfits : ∀ body ∈ bodies, F.Fits body) :
    (bodies.flatMap F.encode).length = F.framesLength bodies := by
  induction bodies with
  | nil => rfl
  | cons body bodies ih =>
      rw [List.flatMap_cons, List.length_append, framesLength_cons, encode, List.length_append,
        (hfits body List.mem_cons_self).length_pack,
        ih fun b hb => hfits b (List.mem_cons_of_mem body hb)]

/-- A stream of frames is read without loss exactly if it comes aligned. -/
theorem deframe_iff_aligned (hwidth : 0 < F.width) {bodies chunks : List (List α)}
    (hfits : ∀ body ∈ bodies, F.Fits body) (hchunks : ∀ c ∈ chunks, c ≠ [])
    (hstream : chunks.flatten = bodies.flatMap F.encode) :
    F.deframe {} chunks = (bodies, some {}) ↔ F.Aligned bodies chunks := by
  constructor
  · intro h
    have hlen : F.framesLength bodies = F.pending {} + chunks.flatten.length := by
      rw [hstream, F.length_frames hfits, pending_empty, Nat.zero_add]
    have hcont := F.continues_of_length hwidth open_empty h hlen
    rwa [Continues, if_pos rfl] at hcont
  · intro h
    exact F.deframe_of_aligned h hfits hchunks hstream

end Framing

end McpSocketServer
