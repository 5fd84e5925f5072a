import Mathlib.Data.List.Basic
import Mathlib.Tactic.Cases

/-!
# Incremental decoding of framed streams

A *decoder* looks at the symbols received so far and tells the first frame they
start with, that they are too few to tell, or that no frame can start with them
(`Decoder`). It is *stable*: what it told of some symbols, it tells of them
followed by any others. A strict prefix of a frame is then always too short to
tell (`Decoder.decode_prefix`).

A *reader* (`Reader`) decodes a stream that arrives in chunks: it buffers the
chunks until the decoder tells a frame, hands the frame out, and keeps the rest of
the buffer for the next call (`Reader.next`). However the stream was cut into
chunks, the calls hand out the frames it was made of, in order (`Reader.nexts_frames`),
as `remaining`, the symbols in the buffer followed by those still to come, loses
exactly one encoded frame a call (`Reader.next_frame`).
-/

namespace Framing

variable {α φ ε ρ : Type*}

/-- An incremental decoder of frames `φ` from symbols `α`, with errors `ε`. -/
structure Decoder (α φ ε : Type*) where
  /-- The first frame of the symbols and how many of them it takes; `none` as long
      as they are too few. -/
  decode : List α → Except ε (Option (φ × ℕ))
  le_length {b : List α} {f : φ} {n : ℕ} : decode b = .ok (some (f, n)) → n ≤ b.length
  frame_append {b : List α} {p : φ × ℕ} (s : List α) :
    decode b = .ok (some p) → decode (b ++ s) = .ok (some p)
  error_append {b : List α} {e : ε} (s : List α) :
    decode b = .error e → decode (b ++ s) = .error e

namespace Decoder

variable (d : Decoder α φ ε)

/-- The symbols `c` are an encoding of the frame `f`: they decode to it, to the last. -/
def Encodes (f : φ) (c : List α) : Prop := d.decode c = .ok (some (f, c.length))

/-- What a frame is decoded from is an encoding of it, without what follows it. -/
def Tight : Prop :=
  ∀ buf fr n, d.decode buf = .ok (some (fr, n)) → d.Encodes fr (buf.take n)

variable {d}

theorem Encodes.decode_append {f : φ} {c : List α} (h : d.Encodes f c) (s : List α) :
    d.decode (c ++ s) = .ok (some (f, c.length)) := d.frame_append s h

/-- A strict prefix of a frame is too short to tell: it is neither an error nor a
    shorter frame. -/
theorem decode_prefix {b s : List α} {f : φ} {n : ℕ}
    (h : d.decode (b ++ s) = .ok (some (f, n))) (hb : b.length < n) : d.decode b = .ok none := by
  match hd : d.decode b with
  | .error e => rw [d.error_append s hd] at h; nomatch h
  | .ok none => rfl
  | .ok (some (g, m)) =>
    -- by stability `b` would hold the very frame that takes more than it has
    rw [d.frame_append s hd] at h
    obtain ⟨rfl, rfl⟩ : g = f ∧ m = n := by simpa using h
    exact absurd (d.le_length hd) (Nat.not_le.2 hb)

/-- A strict prefix of the symbols a frame takes is too short to tell. -/
theorem decode_of_strict_prefix {b p : List α} {f : φ} {n : ℕ}
    (h : d.decode b = .ok (some (f, n))) (hp : p <+: b.take n) (hne : p ≠ b.take n) :
    d.decode p = .ok none := by
  obtain ⟨s, hs⟩ := hp.trans (List.take_prefix n b)
  refine decode_prefix (hs ▸ h) (Nat.lt_of_le_of_ne ?_ fun hlen => ?_)
  · exact Nat.le_trans hp.length_le (List.length_take_le n b)
  · have htake : (b.take n).length = n := by
      rw [List.length_take, Nat.min_eq_left (d.le_length h)]
    exact hne (hp.eq_of_length (hlen.trans htake.symm))

/-- What is too short to tell is completed by what follows it. -/
theorem Tight.encodes_append (hd : d.Tight) {buf more : List α} {fr : φ} {n : ℕ}
    (hbuf : d.decode buf = .ok none) (h : d.decode (buf ++ more) = .ok (some (fr, n))) :
    ∃ more', d.Encodes fr (buf ++ more') := by
  have htake := hd _ _ _ h
  by_cases hn : n ≤ buf.length
  · -- the buffer would hold the whole frame
    rw [List.take_append_of_le_length hn] at htake
    have hdecode := htake.decode_append (buf.drop n)
    rw [List.take_append_drop, hbuf] at hdecode
    cases hdecode
  · refine ⟨more.take (n - buf.length), ?_⟩
    rwa [List.take_append, List.take_of_length_le (Nat.le_of_not_le hn)] at htake

end Decoder

/-! ## Sources -/

/-- A chunk of a stream, as one read hands it out: never empty. -/
abbrev Chunk (α : Type*) := {c : List α // c ≠ []}

/-- What is still to be read of a stream: the chunks the reads will hand out, and how
    the stream ends after the last one, with a failure or, for `none`, finished. -/
structure Source (α ρ : Type*) where
  chunks : List (Chunk α)
  ending : Option ρ

/-- The symbols of the chunks, in order. -/
def symbols (cs : List (Chunk α)) : List α := (cs.map (·.1)).flatten

@[simp] theorem symbols_nil : symbols ([] : List (Chunk α)) = [] := rfl

@[simp] theorem symbols_cons (c : Chunk α) (cs : List (Chunk α)) :
    symbols (c :: cs) = c.1 ++ symbols cs := rfl

/-- Chunks without symbols are no chunks. -/
theorem symbols_eq_nil {cs : List (Chunk α)} : symbols cs = [] ↔ cs = [] := by
  cases cs with
  | nil => simp
  | cons c cs => simp [c.2]

/-! ## Readers -/

/-- Why no frame could be read. -/
inductive ReadError (ρ ε : Type*)
  /-- A read of the stream failed. -/
  | failed (e : ρ)
  /-- The stream was finished before the end of the frame. -/
  | closedEarly
  /-- No frame starts with the symbols buffered. -/
  | malformed (e : ε)
  deriving DecidableEq

/-- A buffered reader of a stream. -/
structure Reader (α ρ : Type*) where
  source : Source α ρ
  /-- Read from the stream, but not yet handed out in a frame. -/
  buf : List α

namespace Reader

/-- A reader of a stream of which nothing has been read. -/
def new (s : Source α ρ) : Reader α ρ := ⟨s, []⟩

/-- The symbols not yet handed out, buffered or still to come. -/
def remaining (r : Reader α ρ) : List α := r.buf ++ symbols r.source.chunks

/-- What a read tells at the end of a stream. -/
def endError : Option ρ → ReadError ρ ε
  | none => .closedEarly
  | some e => .failed e

/-- Decoding the buffer `buf` and, as long as it is too short to tell, appending the
    next chunk to it. -/
def fill (d : Decoder α φ ε) (ending : Option ρ) :
    List (Chunk α) → List α → Except (ReadError ρ ε) φ × Reader α ρ
  | chunks, buf =>
    match d.decode buf with
    | .ok (some (f, n)) => (.ok f, ⟨⟨chunks, ending⟩, buf.drop n⟩)
    | .error e => (.error (.malformed e), ⟨⟨chunks, ending⟩, buf⟩)
    | .ok none =>
      match chunks with
      | [] => (.error (endError ending), ⟨⟨[], ending⟩, buf⟩)
      | c :: chunks => fill d ending chunks (buf ++ c.1)

/-- Reading the next frame. -/
def next (d : Decoder α φ ε) (r : Reader α ρ) : Except (ReadError ρ ε) φ × Reader α ρ :=
  fill d r.source.ending r.source.chunks r.buf

/-- Reading `n` times in a row: what each read gives, and the reader left. -/
def nexts (d : Decoder α φ ε) : ℕ → Reader α ρ → List (Except (ReadError ρ ε) φ) × Reader α ρ
  | 0, r => ([], r)
  | n + 1, r => ((r.next d).1 :: (nexts d n (r.next d).2).1, (nexts d n (r.next d).2).2)

variable {d : Decoder α φ ε}

theorem fill_frame {f : φ} {c rest : List α} (hc : d.Encodes f c) (ending : Option ρ)
    (chunks : List (Chunk α)) (buf : List α) (h : buf ++ symbols chunks = c ++ rest) :
    ∃ r, fill d ending chunks buf = (.ok f, r) ∧ r.remaining = rest ∧
      r.source.ending = ending := by
  induction chunks generalizing buf with
  | nil =>
    -- everything has been read: the buffer is the frame and the rest
    rw [symbols_nil, List.append_nil] at h
    exact ⟨⟨⟨[], ending⟩, rest⟩, by simp [fill, h, hc.decode_append], by simp [remaining], rfl⟩
  | cons chunk chunks ih =>
    by_cases hlen : c.length ≤ buf.length
    · obtain ⟨s, rfl⟩ : ∃ s, buf = c ++ s :=
        (List.prefix_of_prefix_length_le (List.prefix_append c rest)
          (h ▸ List.prefix_append buf _) hlen).imp fun _ hs => hs.symm
      refine ⟨⟨⟨chunk :: chunks, ending⟩, s⟩, by simp [fill, hc.decode_append], ?_, rfl⟩
      rw [List.append_assoc] at h
      exact List.append_cancel_left h
    · -- the buffer is a strict prefix of the frame: another chunk is read
      have hbuf : d.decode buf = .ok none :=
        Decoder.decode_prefix (h ▸ hc.decode_append rest) (Nat.not_le.1 hlen)
      obtain ⟨r, hr, hrest⟩ := ih (buf ++ chunk.1) (by rw [List.append_assoc]; exact h)
      exact ⟨r, by rw [fill, hbuf]; exact hr, hrest⟩

/-- Reading from a stream that goes on with an encoding of `f` gives `f`, and leaves the
    stream after it, however it was cut. -/
theorem next_frame {r : Reader α ρ} {f : φ} {c rest : List α} (hc : d.Encodes f c)
    (h : r.remaining = c ++ rest) :
    ∃ r', r.next d = (.ok f, r') ∧ r'.remaining = rest ∧ r'.source.ending = r.source.ending :=
  fill_frame hc _ _ _ h

/-- Reading from a stream that is used up gives how it ended. -/
theorem next_end (hd : d.decode [] = .ok none) {r : Reader α ρ} (h : r.remaining = []) :
    r.next d = (.error (endError r.source.ending), r) ∧ r.buf = [] := by
  obtain ⟨⟨chunks, ending⟩, buf⟩ := r
  obtain ⟨rfl, hs⟩ := List.append_eq_nil_iff.1 h
  obtain rfl := symbols_eq_nil.1 hs
  exact ⟨by simp [next, fill, hd], rfl⟩

/-- Reading from a stream made of encoded frames gives the frames in order, however the
    stream was cut. -/
theorem nexts_frames {fs : List φ} {cs : List (List α)} (hcs : List.Forall₂ d.Encodes fs cs)
    {r : Reader α ρ} {rest : List α} (h : r.remaining = cs.flatten ++ rest) :
    ∃ r', nexts d fs.length r = (fs.map .ok, r') ∧ r'.remaining = rest ∧
      r'.source.ending = r.source.ending := by
  induction hcs generalizing r with
  | nil => exact ⟨r, rfl, by simpa using h, rfl⟩
  | cons hc _ ih =>
    rw [List.flatten_cons, List.append_assoc] at h
    obtain ⟨r₁, hr₁, hrest, hend⟩ := next_frame hc h
    obtain ⟨r₂, hr₂, hrest₂, hend₂⟩ := ih hrest
    exact ⟨r₂, by simp [nexts, hr₁, hr₂], hrest₂, hend₂.trans hend⟩

/-! ### Reading on -/

section Next

variable {buf : List α}

/-- A read decodes the buffer first. -/
theorem next_of_decode {source : Source α ρ} {fr : φ} {n : ℕ}
    (h : d.decode buf = .ok (some (fr, n))) :
    next d ⟨source, buf⟩ = (.ok fr, ⟨source, buf.drop n⟩) := by
  obtain ⟨chunks, ending⟩ := source
  rw [next, fill.eq_def]
  simp only [h]

theorem next_of_decode_error {source : Source α ρ} {e : ε} (h : d.decode buf = .error e) :
    next d ⟨source, buf⟩ = (.error (.malformed e), ⟨source, buf⟩) := by
  obtain ⟨chunks, ending⟩ := source
  rw [next, fill.eq_def]
  simp only [h]

/-- Where the buffer is too short, a read takes the next chunk. -/
theorem next_of_decode_none {c : Chunk α} {chunks : List (Chunk α)} {ending : Option ρ}
    (h : d.decode buf = .ok none) :
    next d ⟨⟨c :: chunks, ending⟩, buf⟩ = next d ⟨⟨chunks, ending⟩, buf ++ c.1⟩ := by
  rw [next, fill, h]
  rfl

/-- A frame that is read has been decoded from the buffer and what has arrived after it. -/
theorem decode_of_next {source : Source α ρ} {fr : φ} {r : Reader α ρ}
    (h : next d ⟨source, buf⟩ = (.ok fr, r)) :
    ∃ more n, d.decode (buf ++ more) = .ok (some (fr, n)) := by
  obtain ⟨chunks, ending⟩ := source
  induction chunks generalizing buf with
  | nil =>
    rw [next, fill] at h
    cases hdecode : d.decode buf with
    | error e =>
      rw [hdecode] at h
      cases h
    | ok result =>
      rw [hdecode] at h
      cases result with
      | none => cases h
      | some fn =>
        cases h
        exact ⟨[], fn.2, by rw [List.append_nil, hdecode]⟩
  | cons c chunks ih =>
    cases hdecode : d.decode buf with
    | error e =>
      rw [next_of_decode_error hdecode] at h
      cases h
    | ok result =>
      cases result with
      | none =>
        rw [next_of_decode_none hdecode] at h
        obtain ⟨more, n, hmore⟩ := ih h
        exact ⟨c.1 ++ more, n, by rw [← List.append_assoc, hmore]⟩
      | some fn =>
        obtain ⟨fr', n⟩ := fn
        rw [next_of_decode hdecode] at h
        cases h
        exact ⟨[], n, by rw [List.append_nil, hdecode]⟩

/-- What a read gives that has all the symbols there are, and how many of them it takes. -/
def told (ending : Option ρ) : Except ε (Option (φ × ℕ)) → Except (ReadError ρ ε) φ × ℕ
  | .ok (some (fr, n)) => (.ok fr, n)
  | .error e => (.error (.malformed e), 0)
  | .ok none => (.error (endError ending), 0)

/-- What a read gives, and what it leaves, depends on the symbols that are left and on how they
    end, not on how they are cut. -/
theorem next_eq_told (r : Reader α ρ) : ∃ r',
    r.next d = ((told r.source.ending (d.decode r.remaining)).1, r') ∧
      r'.remaining = r.remaining.drop (told r.source.ending (d.decode r.remaining)).2 ∧
      r'.source.ending = r.source.ending := by
  obtain ⟨⟨chunks, ending⟩, buf⟩ := r
  induction chunks generalizing buf with
  | nil =>
    have hrem : remaining ⟨⟨[], ending⟩, buf⟩ = buf := List.append_nil buf
    rw [hrem]
    cases hdecode : d.decode buf with
    | error e => exact ⟨_, next_of_decode_error hdecode, hrem, rfl⟩
    | ok result =>
      cases result with
      | some fn => exact ⟨_, next_of_decode hdecode, List.append_nil _, rfl⟩
      | none => exact ⟨⟨⟨[], ending⟩, buf⟩, by simp [next, fill, hdecode, told], hrem, rfl⟩
  | cons c chunks ih =>
    have hrem : remaining ⟨⟨c :: chunks, ending⟩, buf⟩ = buf ++ (c.1 ++ symbols chunks) := rfl
    cases hdecode : d.decode buf with
    | error e =>
      -- the buffer tells already
      rw [hrem, d.error_append _ hdecode]
      exact ⟨_, next_of_decode_error hdecode, rfl, rfl⟩
    | ok result =>
      cases result with
      | some fn =>
        rw [hrem, d.frame_append _ hdecode]
        refine ⟨_, next_of_decode hdecode, ?_, rfl⟩
        exact (List.drop_append_of_le_length (d.le_length hdecode)).symm
      | none =>
        -- the next chunk moves to the buffer
        have hmove : remaining ⟨⟨c :: chunks, ending⟩, buf⟩ =
            remaining ⟨⟨chunks, ending⟩, buf ++ c.1⟩ := (List.append_assoc ..).symm
        rw [next_of_decode_none hdecode, hmove]
        exact ih (buf ++ c.1)

end Next

end Reader

end Framing
