import Sardp.Library.Framing
import Sardp.Library.Machine

/-!
# The steps of a reader

A call of a reader decodes the buffer, reads a chunk if the buffer is too short to tell, and decodes
the buffer again (`Calls.machine`). A call that waits for a chunk may be dropped, and what has been
buffered is left to the next one. Left alone, the steps of a call are those of `Reader.next`
(`Calls.exists_run_next`).

A chunk is only ever read into a buffer that is too short to tell (`Calls.decode_of_chunk`). So if
every such buffer is short, and so is every chunk, then the buffer never gets longer than the two
together (`Calls.length_lt_of_step`).
-/

namespace Framing

/-- Where a call is. -/
inductive CallPhase (φ ε ρ : Type*)
  /-- No call is in progress; with what the last one returned, unless it was dropped. -/
  | returned (result : Option (Except (ReadError ρ ε) φ))
  /-- The buffer is about to be decoded. -/
  | decoding
  /-- The call waits for a chunk. -/
  | filling

/-- A reader with its buffer and the call in progress. -/
structure Calls (α φ ε ρ : Type*) where
  buf : List α
  phase : CallPhase φ ε ρ

/-- A step of a reader. -/
inductive CallStep (α ρ : Type*)
  | call
  | decode
  /-- A chunk is read. -/
  | chunk (c : Chunk α)
  /-- The stream ends. -/
  | ended (ending : Option ρ)
  /-- The call is dropped. -/
  | drop

namespace Calls

variable {α φ ε ρ : Type*}

/-- A reader before its first call. -/
def new (buf : List α) : Calls α φ ε ρ := ⟨buf, .returned none⟩

/-- Decoding the buffer. -/
def decode (d : Decoder α φ ε) (s : Calls α φ ε ρ) : Calls α φ ε ρ :=
  match d.decode s.buf with
  | .ok (some (f, n)) => ⟨s.buf.drop n, .returned (some (.ok f))⟩
  | .error e => ⟨s.buf, .returned (some (.error (.malformed e)))⟩
  | .ok none => ⟨s.buf, .filling⟩

/-- A step; `none` where it is not possible. A read gives no more symbols than the limit. -/
def step (d : Decoder α φ ε) (limit : ℕ) (s : Calls α φ ε ρ) :
    CallStep α ρ → Option (Calls α φ ε ρ)
  | .call =>
    match s.phase with
    | .returned _ => some { s with phase := .decoding }
    | _ => none
  | .decode =>
    match s.phase with
    | .decoding => some (s.decode d)
    | _ => none
  | .chunk c =>
    match s.phase with
    | .filling => if c.1.length ≤ limit then some ⟨s.buf ++ c.1, .decoding⟩ else none
    | _ => none
  | .ended ending =>
    match s.phase with
    | .filling => some { s with phase := .returned (some (.error (Reader.endError ending))) }
    | _ => none
  | .drop =>
    match s.phase with
    | .filling => some { s with phase := .returned none }
    | _ => none

/-- The steps as a machine. -/
def machine (d : Decoder α φ ε) (limit : ℕ) : Machine (Calls α φ ε ρ) (CallStep α ρ) :=
  ⟨step d limit⟩

variable {d : Decoder α φ ε} {limit need : ℕ} {s s' : Calls α φ ε ρ} {e : CallStep α ρ}

/-! ## The steps of one call -/

theorem decode_of_frame {buf : List α} {f : φ} {n : ℕ} (h : d.decode buf = .ok (some (f, n))) :
    decode d (⟨buf, .decoding⟩ : Calls α φ ε ρ) = ⟨buf.drop n, .returned (some (.ok f))⟩ := by
  simp only [decode, h]

theorem decode_of_error {buf : List α} {x : ε} (h : d.decode buf = .error x) :
    decode d (⟨buf, .decoding⟩ : Calls α φ ε ρ) =
      ⟨buf, .returned (some (.error (.malformed x)))⟩ := by
  simp only [decode, h]

theorem decode_of_none {buf : List α} (h : d.decode buf = .ok none) :
    decode d (⟨buf, .decoding⟩ : Calls α φ ε ρ) = ⟨buf, .filling⟩ := by
  simp only [decode, h]

/-- A call whose buffer tells what is next decodes it at once, as the reader does. -/
theorem run_decode_of_told {source : Source α ρ} {buf : List α} (h : d.decode buf ≠ .ok none) :
    (machine d limit).run ⟨buf, .decoding⟩ [.decode] =
      some ⟨(Reader.next d ⟨source, buf⟩).2.buf,
        .returned (some (Reader.next d ⟨source, buf⟩).1)⟩ := by
  cases hdecode : d.decode buf with
  | error x =>
    rw [Reader.next_of_decode_error hdecode]
    exact congrArg some (decode_of_error hdecode)
  | ok result =>
    cases result with
    | some fn =>
      rw [Reader.next_of_decode hdecode]
      exact congrArg some (decode_of_frame hdecode)
    | none => exact (h hdecode).elim

/-- Left alone, a call returns what the reader reads next, and leaves the same buffer. -/
theorem exists_run_next (r : Reader α ρ) (hchunks : ∀ c ∈ r.source.chunks, c.1.length ≤ limit) :
    ∃ es, (machine d limit).run ⟨r.buf, .decoding⟩ es =
      some ⟨(r.next d).2.buf, .returned (some (r.next d).1)⟩ := by
  obtain ⟨⟨chunks, ending⟩, buf⟩ := r
  induction chunks generalizing buf with
  | nil =>
    by_cases hdecode : d.decode buf = .ok none
    · -- the call finds out that the stream has ended
      refine ⟨[.decode, .ended ending], ?_⟩
      refine Machine.run_cons_eq_some.2 ⟨_, congrArg some (decode_of_none hdecode), ?_⟩
      simp [Machine.run, machine, step, Reader.next, Reader.fill, hdecode]
    · exact ⟨[.decode], run_decode_of_told hdecode⟩
  | cons c chunks ih =>
    by_cases hdecode : d.decode buf = .ok none
    · rw [Reader.next_of_decode_none hdecode]
      obtain ⟨hc, hchunks⟩ := List.forall_mem_cons.1 hchunks
      obtain ⟨es, hes⟩ := ih (buf ++ c.1) hchunks
      refine ⟨.decode :: .chunk c :: es, ?_⟩
      refine Machine.run_cons_eq_some.2 ⟨_, congrArg some (decode_of_none hdecode), ?_⟩
      exact Machine.run_cons_eq_some.2 ⟨_, if_pos hc, hes⟩
    · exact ⟨[.decode], run_decode_of_told hdecode⟩

/-! ## What is read into the buffer -/

/-- A call only waits for a chunk while the buffer is too short to tell. -/
def Undecided (d : Decoder α φ ε) (s : Calls α φ ε ρ) : Prop :=
  s.phase = .filling → d.decode s.buf = .ok none

theorem undecided_new (buf : List α) : (new buf : Calls α φ ε ρ).Undecided d :=
  fun h => by cases h

theorem undecided_decode (s : Calls α φ ε ρ) : (s.decode d).Undecided d := by
  intro hphase
  cases hdecode : d.decode s.buf with
  | error x =>
    simp only [decode, hdecode] at hphase
    cases hphase
  | ok result =>
    cases result with
    | some fn =>
      simp only [decode, hdecode] at hphase
      cases hphase
    | none =>
      simp only [decode, hdecode]

/-- Decoding only takes symbols out of the buffer. -/
theorem length_decode_le (s : Calls α φ ε ρ) : (s.decode d).buf.length ≤ s.buf.length := by
  rw [decode]
  split
  · rw [List.length_drop]
    exact Nat.sub_le ..
  · exact Nat.le_refl _
  · exact Nat.le_refl _

/-- A step that reads a chunk was waiting for one. -/
theorem step_chunk {c : Chunk α} (hstep : s.step d limit (.chunk c) = some s') :
    s.phase = .filling ∧ c.1.length ≤ limit ∧ s' = ⟨s.buf ++ c.1, .decoding⟩ := by
  simp only [step] at hstep
  split at hstep
  · next hphase =>
    obtain ⟨hc, hs'⟩ := Option.ite_none_right_eq_some.1 hstep
    exact ⟨hphase, hc, (Option.some.inj hs').symm⟩
  · cases hstep

/-- A step that decodes the buffer is the decoding of it. -/
theorem step_decode (hstep : s.step d limit .decode = some s') :
    s.phase = .decoding ∧ s' = s.decode d := by
  simp only [step] at hstep
  split at hstep
  · next hphase => exact ⟨hphase, (Option.some.inj hstep).symm⟩
  · cases hstep

/-- Any other step leaves the buffer alone, and does not come to wait. -/
theorem step_other (hstep : s.step d limit e = some s') (hdecode : e ≠ .decode)
    (hchunk : ∀ c, e ≠ .chunk c) : s'.buf = s.buf ∧ s'.phase ≠ .filling := by
  cases e with
  | decode => exact absurd rfl hdecode
  | chunk c => exact absurd rfl (hchunk c)
  | call | ended ending | drop =>
    simp only [step] at hstep
    split at hstep
    · cases hstep
      exact ⟨rfl, nofun⟩
    · cases hstep

theorem Undecided.step (hstep : s.step d limit e = some s') : s'.Undecided d := by
  by_cases hdecode : e = .decode
  · subst hdecode
    rw [(step_decode hstep).2]
    exact undecided_decode s
  · by_cases hchunk : ∃ c, e = .chunk c
    · obtain ⟨c, rfl⟩ := hchunk
      rw [(step_chunk hstep).2.2]
      exact fun h => by cases h
    · exact fun h => absurd h (step_other hstep hdecode (not_exists.1 hchunk)).2

/-- A chunk is only read into a buffer that is too short to tell. -/
theorem decode_of_chunk (h : s.Undecided d) {c : Chunk α}
    (hstep : s.step d limit (.chunk c) = some s') : d.decode s.buf = .ok none :=
  h (step_chunk hstep).1

/-- If a buffer that is too short to tell is shorter than `need`, then the buffer never gets longer
    than that and a chunk. -/
theorem length_lt_of_step (hneed : ∀ buf, d.decode buf = .ok none → buf.length < need)
    (h : s.Undecided d) (hlen : s.buf.length < need + limit)
    (hstep : s.step d limit e = some s') : s'.buf.length < need + limit := by
  by_cases hdecode : e = .decode
  · subst hdecode
    rw [(step_decode hstep).2]
    exact Nat.lt_of_le_of_lt (length_decode_le s) hlen
  · by_cases hchunk : ∃ c, e = .chunk c
    · obtain ⟨c, rfl⟩ := hchunk
      obtain ⟨-, hc, rfl⟩ := step_chunk hstep
      have hbuf := hneed s.buf (decode_of_chunk h hstep)
      rw [List.length_append]
      omega
    · rw [(step_other hstep hdecode (not_exists.1 hchunk)).1]
      exact hlen

end Calls

/-! ## What is left in the buffer -/

section Tight

variable {α φ ε ρ : Type*} {d : Decoder α φ ε} {limit : ℕ}

/-- What is left of a buffer with a frame is shorter than what was added when there was none. -/
theorem Decoder.Tight.length_drop_lt (hd : d.Tight) {buf more : List α} {f : φ} {n : ℕ}
    (hbuf : d.decode buf = .ok none) (h : d.decode (buf ++ more) = .ok (some (f, n))) :
    ((buf ++ more).drop n).length < more.length := by
  have hlt : buf.length < n := by
    refine Nat.lt_of_not_le fun hle => ?_
    -- the frame would be in the buffer before
    have htake := (hd _ _ _ h).decode_append (buf.drop n)
    rw [List.take_append_of_le_length hle, List.take_append_drop, hbuf] at htake
    cases htake
  have hle := d.le_length h
  rw [List.length_append] at hle
  rw [List.length_drop, List.length_append]
  omega

/-- A reader whose buffer tells what is next decodes it at once. -/
theorem Reader.decode_of_next_of_told {source : Source α ρ} {buf : List α} {r' : Reader α ρ} {f : φ}
    (hdecode : d.decode buf ≠ .ok none) (h : Reader.next d ⟨source, buf⟩ = (.ok f, r')) :
    ∃ n, d.decode buf = .ok (some (f, n)) ∧ r'.buf = buf.drop n := by
  cases hdecode' : d.decode buf with
  | error x => cases (next_of_decode_error hdecode').symm.trans h
  | ok result =>
    cases result with
    | some fn =>
      cases (next_of_decode hdecode').symm.trans h
      exact ⟨fn.2, rfl, rfl⟩
    | none => exact (hdecode hdecode').elim

/-- A reader that starts with less than a chunk has less than a chunk left after a frame. -/
theorem Reader.length_buf_next_lt (hd : d.Tight) {r r' : Reader α ρ} {f : φ}
    (hchunks : ∀ c ∈ r.source.chunks, c.1.length ≤ limit) (hbuf : r.buf.length < limit)
    (h : r.next d = (.ok f, r')) : r'.buf.length < limit := by
  obtain ⟨⟨chunks, ending⟩, buf⟩ := r
  -- the buffer holds less than a chunk, or has got one when it was too short to tell
  have hleft : ∀ fn, d.decode buf = .ok (some fn) → (buf.drop fn.2).length < limit := by
    intro fn _
    rw [List.length_drop]
    exact Nat.lt_of_le_of_lt (Nat.sub_le ..) hbuf
  clear hbuf
  induction chunks generalizing buf with
  | nil =>
    by_cases hdecode : d.decode buf = .ok none
    · rw [Reader.next, Reader.fill, hdecode] at h
      cases h
    · obtain ⟨n, hframe, hdrop⟩ := decode_of_next_of_told hdecode h
      exact hdrop ▸ hleft (f, n) hframe
  | cons c chunks ih =>
    by_cases hdecode : d.decode buf = .ok none
    · obtain ⟨hc, hchunks⟩ := List.forall_mem_cons.1 hchunks
      refine ih (buf ++ c.1) hchunks ((next_of_decode_none hdecode).symm.trans h) fun fn hfn => ?_
      exact Nat.lt_of_lt_of_le (hd.length_drop_lt hdecode hfn) hc
    · obtain ⟨n, hframe, hdrop⟩ := decode_of_next_of_told hdecode h
      exact hdrop ▸ hleft (f, n) hframe

end Tight

end Framing
