import Sardp.Library.Framing

/-!
# The contents of a stream

If every frame takes some symbols (`Decoder.Progressive`), then a stream is a list of frames and a
reason why no other frame follows (`contents`), whatever it is cut into. A reader hands the frames
out in order (`Holds.next_cons`), and then fails with the reason for good (`Holds.next_nil`). What
has been taken of the frames while the stream still arrives is `Consumes`.
-/

namespace Framing

variable {α φ ε ρ : Type*} {d : Decoder α φ ε}

/-- Every frame takes some symbols. -/
def Decoder.Progressive (d : Decoder α φ ε) : Prop :=
  ∀ b f n, d.decode b = .ok (some (f, n)) → 0 < n

/-- The frames the symbols start with, and why no frame follows, if that is not for want of
    symbols. -/
def contents (d : Decoder α φ ε) (hd : d.Progressive) (b : List α) : List φ × Option ε :=
  match _h : d.decode b with
  | .ok (some (f, n)) => (f :: (contents d hd (b.drop n)).1, (contents d hd (b.drop n)).2)
  | .error e => ([], some e)
  | .ok none => ([], none)
termination_by b.length
decreasing_by
  all_goals
    have hpos := hd b f n _h
    have hle := d.le_length _h
    rw [List.length_drop]
    omega

variable {hd : d.Progressive} {b : List α}

theorem contents_of_frame {f : φ} {n : ℕ} (h : d.decode b = .ok (some (f, n))) :
    contents d hd b = (f :: (contents d hd (b.drop n)).1, (contents d hd (b.drop n)).2) := by
  rw [contents]
  split
  · next h' =>
    rw [h] at h'
    cases h'
    rfl
  · next h' => cases h.symm.trans h'
  · next h' => cases h.symm.trans h'

theorem contents_of_error {e : ε} (h : d.decode b = .error e) : contents d hd b = ([], some e) := by
  rw [contents]
  split
  · next h' => cases h.symm.trans h'
  · next h' =>
    cases h.symm.trans h'
    rfl
  · next h' => cases h.symm.trans h'

theorem contents_of_none (h : d.decode b = .ok none) : contents d hd b = ([], none) := by
  rw [contents]
  split
  · next h' => cases h.symm.trans h'
  · next h' => cases h.symm.trans h'
  · rfl

/-- Why a reader fails after the last frame. -/
def stopOf (ending : Option ρ) : Option ε → ReadError ρ ε
  | some e => .malformed e
  | none => Reader.endError ending

/-- What is left to read are the frames, and then the failure. -/
structure Holds (d : Decoder α φ ε) (hd : d.Progressive) (r : Reader α ρ) (fs : List φ)
    (stop : ReadError ρ ε) : Prop where
  frames : (contents d hd r.remaining).1 = fs
  stops : stopOf r.source.ending (contents d hd r.remaining).2 = stop

variable {r : Reader α ρ} {f : φ} {fs : List φ} {stop : ReadError ρ ε}

/-- There always is something left to read, if only a failure. -/
theorem holds_self (d : Decoder α φ ε) (hd : d.Progressive) (r : Reader α ρ) :
    Holds d hd r (contents d hd r.remaining).1
      (stopOf r.source.ending (contents d hd r.remaining).2) := ⟨rfl, rfl⟩

/-- The next frame is handed out, and the others are left. -/
theorem Holds.next_cons (h : Holds d hd r (f :: fs) stop) :
    ∃ r', r.next d = (.ok f, r') ∧ Holds d hd r' fs stop := by
  obtain ⟨r', hnext, hrem, hending⟩ := Reader.next_eq_told (d := d) r
  have hframes := h.frames
  have hstops := h.stops
  cases hdecode : d.decode r.remaining with
  | error e =>
    rw [contents_of_error hdecode] at hframes
    cases hframes
  | ok result =>
    cases result with
    | none =>
      rw [contents_of_none hdecode] at hframes
      cases hframes
    | some fn =>
      rw [contents_of_frame hdecode] at hframes hstops
      rw [hdecode] at hnext hrem
      obtain ⟨rfl, rfl⟩ := List.cons_eq_cons.1 hframes
      exact ⟨r', hnext, by rw [hrem]; rfl, by rw [hrem, hending]; exact hstops⟩

/-- After the last frame a reader fails, now and later. -/
theorem Holds.next_nil (h : Holds d hd r [] stop) :
    ∃ r', r.next d = (.error stop, r') ∧ Holds d hd r' [] stop := by
  obtain ⟨r', hnext, hrem, hending⟩ := Reader.next_eq_told (d := d) r
  have hframes := h.frames
  have hstops := h.stops
  cases hdecode : d.decode r.remaining with
  | error e =>
    rw [hdecode] at hnext hrem
    have hsame : r'.remaining = r.remaining := hrem
    rw [contents_of_error hdecode] at hstops
    exact ⟨r', by rw [hnext, ← hstops]; rfl, by rw [hsame, contents_of_error hdecode],
      by rw [hsame, contents_of_error hdecode, hending]; exact hstops⟩
  | ok result =>
    cases result with
    | some fn =>
      rw [contents_of_frame hdecode] at hframes
      cases hframes
    | none =>
      rw [hdecode] at hnext hrem
      have hsame : r'.remaining = r.remaining := hrem
      rw [contents_of_none hdecode] at hstops
      exact ⟨r', by rw [hnext, ← hstops]; rfl, by rw [hsame, contents_of_none hdecode],
        by rw [hsame, contents_of_none hdecode, hending]; exact hstops⟩

/-! ## Taking frames -/

/-- The symbols start with the frames, and the rest follows them. -/
inductive Consumes (d : Decoder α φ ε) : List α → List φ → List α → Prop
  | nil (b : List α) : Consumes d b [] b
  | cons {b rest : List α} {f : φ} {n : ℕ} {fs : List φ} (h : d.decode b = .ok (some (f, n)))
      (hrest : Consumes d (b.drop n) fs rest) : Consumes d b (f :: fs) rest

namespace Consumes

variable {rest : List α}

/-- More symbols are more of the rest. -/
theorem append (h : Consumes d b fs rest) (more : List α) :
    Consumes d (b ++ more) fs (rest ++ more) := by
  induction h with
  | nil b => exact .nil _
  | cons hdecode _ ih =>
    refine .cons (d.frame_append more hdecode) ?_
    rwa [List.drop_append_of_le_length (d.le_length hdecode)]

/-- The frame the rest starts with is the next one. -/
theorem concat (h : Consumes d b fs rest) {n : ℕ} (hrest : d.decode rest = .ok (some (f, n))) :
    Consumes d b (fs ++ [f]) (rest.drop n) := by
  induction h with
  | nil b => exact .cons hrest (.nil _)
  | cons hdecode _ ih => exact .cons hdecode (ih hrest)

/-- The symbols are the frames and those of the rest. -/
theorem contents_eq (h : Consumes d b fs rest) (hd : d.Progressive) :
    (contents d hd b).1 = fs ++ (contents d hd rest).1 := by
  induction h with
  | nil b => rfl
  | cons hdecode _ ih => rw [contents_of_frame hdecode, ih, List.cons_append]

end Consumes

/-- Symbols that are encodings of frames start with the frames. -/
theorem consumes_of_encodes {cs : List (List α)} (h : List.Forall₂ d.Encodes fs cs)
    (rest : List α) : Consumes d (cs.flatten ++ rest) fs rest := by
  induction h with
  | nil => exact .nil _
  | @cons f c fs cs hc _ ih =>
    rw [List.flatten_cons, List.append_assoc]
    refine .cons (hc.decode_append _) ?_
    rwa [List.drop_left]

/-- There is no frame in no symbols. -/
theorem contents_nil (hd : d.Progressive) : (contents d hd []).1 = [] := by
  cases hdecode : d.decode [] with
  | error e => rw [contents_of_error hdecode]
  | ok result =>
    cases result with
    | none => rw [contents_of_none hdecode]
    | some fn => exact absurd (d.le_length hdecode) (Nat.not_le.2 (hd _ _ _ hdecode))

theorem contents_of_encodes (hd : d.Progressive) {cs : List (List α)}
    (h : List.Forall₂ d.Encodes fs cs) : (contents d hd cs.flatten).1 = fs := by
  have hall := (consumes_of_encodes h []).contents_eq hd
  rwa [List.append_nil, contents_nil, List.append_nil] at hall

theorem exists_consumes_contents (hd : d.Progressive) (b : List α) :
    ∃ rest, Consumes d b (contents d hd b).1 rest := by
  induction hlen : b.length using Nat.strongRecOn generalizing b with
  | ind k ih =>
    cases hdecode : d.decode b with
    | error e =>
      rw [contents_of_error hdecode]
      exact ⟨b, .nil b⟩
    | ok result =>
      cases result with
      | none =>
        rw [contents_of_none hdecode]
        exact ⟨b, .nil b⟩
      | some fn =>
        obtain ⟨f, n⟩ := fn
        have hpos := hd b f n hdecode
        have hle := d.le_length hdecode
        have hlt : (b.drop n).length < k := by
          rw [List.length_drop]
          omega
        obtain ⟨rest, hrest⟩ := ih _ hlt (b.drop n) rfl
        rw [contents_of_frame hdecode]
        exact ⟨rest, .cons hdecode hrest⟩

/-- What is cut off has the first of the frames. -/
theorem contents_prefix (hd : d.Progressive) {b b' : List α} (h : b' <+: b) :
    (contents d hd b').1 <+: (contents d hd b).1 := by
  obtain ⟨more, rfl⟩ := h
  obtain ⟨rest, hrest⟩ := exists_consumes_contents hd b'
  rw [(hrest.append more).contents_eq hd]
  exact List.prefix_append _ _

/-- Encodings of frames are the beginning of encodings of others only if the frames are the
    beginning of the others. -/
theorem Decoder.Progressive.prefix_of_flatten (hd : d.Progressive) {fs fs' : List φ}
    {cs cs' : List (List α)} (h : List.Forall₂ d.Encodes fs cs)
    (h' : List.Forall₂ d.Encodes fs' cs') (hp : cs'.flatten <+: cs.flatten) : fs' <+: fs := by
  have hframes := contents_prefix hd hp
  rwa [contents_of_encodes hd h, contents_of_encodes hd h'] at hframes

/-- A frame that is read from a stream cut off within or after an encoding is the one encoded. -/
theorem Reader.next_of_prefix {r r' : Reader α ρ} {f f' : φ} {c rest : List α}
    (hc : d.Encodes f c) (hp : r.remaining <+: c ++ rest) (h : r.next d = (.ok f', r')) :
    f' = f ∧ r'.remaining <+: rest ∧ (r.remaining = c ++ rest → r'.remaining = rest) := by
  obtain ⟨r₁, hnext, hrem, -⟩ := Reader.next_eq_told (d := d) r
  rw [hnext] at h
  obtain ⟨more, hmore⟩ := hp
  cases hdecode : d.decode r.remaining with
  | error e =>
    rw [hdecode] at h
    cases h
  | ok result =>
    cases result with
    | none =>
      rw [hdecode] at h
      cases r.source.ending <;> cases h
    | some fn =>
      obtain ⟨f₁, n⟩ := fn
      rw [hdecode] at h hrem
      cases h
      have hsame := d.frame_append more hdecode
      rw [hmore, hc.decode_append rest] at hsame
      cases hsame
      have hrem' : r'.remaining = r.remaining.drop c.length := hrem
      refine ⟨rfl, ⟨more, ?_⟩, fun hwhole => ?_⟩
      · rw [hrem', ← List.drop_append_of_le_length (d.le_length hdecode), hmore, List.drop_left]
      · rw [hrem', hwhole, List.drop_left]

end Framing
