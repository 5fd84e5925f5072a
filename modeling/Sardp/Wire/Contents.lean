import Mathlib.Data.List.Forall2
import Sardp.Library.Contents
import Sardp.Wire.FrameMessages

/-!
# The envelopes of a stream

Behind its prologue a stream is a list of envelopes and a reason why no other one follows
(`EnvelopeReader.Carries`), whatever the reads cut it into. A function that waits for envelopes
gets them in order, and then the reason (`Carries.exec_cons`, `Carries.exec_nil`).

So a function that reads a stream is a parser of lists of envelopes (`Parses`), and one function
after another is one parser after another (`Parses.bind`).
-/

namespace Sardp

open Framing

/-- Every envelope takes its length and its type at least. -/
theorem Envelope.progressive_decoder (maxLength : ℕ) : (decoder maxLength).Progressive := by
  intro b e n h
  obtain ⟨length, lengthLen, lo, hi, rest, -, -, -, -, -, rfl⟩ := parse_eq_some.1 h
  omega

namespace EnvelopeReader

/-- The envelopes left to read. -/
def envelopes (r : EnvelopeReader) (maxLength : ℕ) : List (UInt16 × List UInt8) :=
  (contents (Envelope.decoder maxLength) (Envelope.progressive_decoder maxLength) r.remaining).1.map
    fun env => (env.typeRaw, env.payload)

/-- Why no envelope follows. -/
def stop (r : EnvelopeReader) (maxLength : ℕ) : StreamReadError :=
  .ofReadError .envelope (stopOf r.source.ending (contents (Envelope.decoder maxLength)
    (Envelope.progressive_decoder maxLength) r.remaining).2)

/-- The envelopes are left to read, and why no other one follows. -/
structure Carries (maxLength : ℕ) (r : EnvelopeReader) (envs : List (UInt16 × List UInt8))
    (stop : StreamReadError) : Prop where
  envelopes : r.envelopes maxLength = envs
  stops : r.stop maxLength = stop

variable {maxLength : ℕ} {r : EnvelopeReader} {env : UInt16 × List UInt8}
  {envs : List (UInt16 × List UInt8)} {stop : StreamReadError}

theorem carries_self (r : EnvelopeReader) (maxLength : ℕ) :
    Carries maxLength r (r.envelopes maxLength) (r.stop maxLength) := ⟨rfl, rfl⟩

/-- The next envelope is handed out, and the others are left. -/
theorem Carries.readEnvelope_cons (h : Carries maxLength r (env :: envs) stop) :
    ∃ r', r.readEnvelope maxLength = (.ok env, r') ∧ Carries maxLength r' envs stop := by
  have hholds := holds_self (Envelope.decoder maxLength) (Envelope.progressive_decoder maxLength) r
  obtain ⟨e, fs, hframes, henv, hfs⟩ := List.map_eq_cons_iff.1 h.envelopes
  rw [hframes] at hholds
  obtain ⟨r', hnext, hholds'⟩ := hholds.next_cons
  refine ⟨r', by rw [EnvelopeReader.readEnvelope, hnext, ← henv]; rfl, ?_, ?_⟩
  · rw [EnvelopeReader.envelopes, hholds'.frames, hfs]
  · rw [EnvelopeReader.stop, hholds'.stops]
    exact h.stops

/-- After the last envelope a read fails. -/
theorem Carries.readEnvelope_nil (h : Carries maxLength r [] stop) :
    ∃ r', r.readEnvelope maxLength = (.error stop, r') ∧ Carries maxLength r' [] stop := by
  have hholds := holds_self (Envelope.decoder maxLength) (Envelope.progressive_decoder maxLength) r
  rw [List.map_eq_nil_iff.1 h.envelopes] at hholds
  obtain ⟨r', hnext, hholds'⟩ := hholds.next_nil
  refine ⟨r', by rw [EnvelopeReader.readEnvelope, hnext, ← h.stops]; rfl, ?_, ?_⟩
  · rw [EnvelopeReader.envelopes, hholds'.frames]
    rfl
  · rw [EnvelopeReader.stop, hholds'.stops]
    exact h.stops

variable {σ ε α : Type} {ofRead : StreamReadError → ε}

/-- What waits for an envelope goes on with the next one. -/
theorem Carries.exec_cons (h : Carries maxLength r (env :: envs) stop) :
    ∃ r', Carries maxLength r' envs stop ∧
      ∀ (s : σ) (k : UInt16 × List UInt8 → Async σ EnvelopeRead ε α),
        (Sardp.readEnvelope ofRead >>= k).exec (Envelope.decoder maxLength) s r =
          (k env).exec (Envelope.decoder maxLength) s r' := by
  obtain ⟨r', hread, h'⟩ := h.readEnvelope_cons
  exact ⟨r', h', fun s k => by rw [exec_readEnvelope_bind, hread]⟩

/-- What waits for an envelope fails after the last one. -/
theorem Carries.exec_nil (h : Carries maxLength r [] stop) :
    ∃ r', Carries maxLength r' [] stop ∧
      ∀ (s : σ) (k : UInt16 × List UInt8 → Async σ EnvelopeRead ε α),
        (Sardp.readEnvelope ofRead >>= k).exec (Envelope.decoder maxLength) s r =
          (.error (ofRead stop), s, r') := by
  obtain ⟨r', hread, h'⟩ := h.readEnvelope_nil
  exact ⟨r', h', fun s k => by rw [exec_readEnvelope_bind, hread]⟩

end EnvelopeReader

/-! ## Streams that have been written -/

/-- An envelope is read up to a limit, or refused beyond it. -/
theorem Envelope.decode_of_encodes {maxLength maxLength' : ℕ} {e : Envelope} {c : List UInt8}
    (h : (decoder maxLength').Encodes e c) (rest : List UInt8) :
    (decoder maxLength).decode (c ++ rest) =
      if e.payload.length ≤ maxLength then .ok (some (e, c.length))
      else .error (.lengthExceedsLimit e.payload.length maxLength) := by
  obtain ⟨length, lengthLen, lo, hi, tail, hdecode, -, hdrop, hlen, rfl, hn⟩ := parse_eq_some.1 h
  have hpayload : (tail.take length).length = length := List.length_take_of_le hlen
  rw [hpayload]
  split_ifs with hmax
  · have hshort : (decoder maxLength).Encodes ⟨fromLeBytes lo hi, tail.take length⟩ c :=
      parse_eq_some.2 ⟨length, lengthLen, lo, hi, tail, hdecode, hmax, hdrop, hlen, rfl, hn⟩
    exact hshort.decode_append rest
  · exact parse_eq_error.2
      ⟨length, lengthLen, Varint.decode_append rest hdecode, Nat.not_le.1 hmax, rfl⟩

namespace EnvelopeReader

variable {maxLength : ℕ} {r : EnvelopeReader} {envs : List (UInt16 × List UInt8)}

/-- Encodings of envelopes are read up to the first that is too long. -/
theorem contents_of_long {maxLength' : ℕ} {cs : List (List UInt8)}
    (hcs : List.Forall₂ (Envelope.decoder maxLength').Encodes
      (envs.map fun env => ⟨env.1, env.2⟩) cs) :
    (contents (Envelope.decoder maxLength) (Envelope.progressive_decoder maxLength)
        cs.flatten).1.map (fun env => (env.typeRaw, env.payload)) =
      envs.takeWhile fun env => env.2.length ≤ maxLength := by
  induction envs generalizing cs with
  | nil =>
    cases hcs
    rw [List.flatten_nil, contents_nil]
    rfl
  | cons env envs ih =>
    obtain ⟨c, cs, hc, hrest, rfl⟩ := List.forall₂_cons_left_iff.1 hcs
    have hdecode := @Envelope.decode_of_encodes maxLength _ _ _ hc cs.flatten
    rw [List.flatten_cons, List.takeWhile_cons]
    by_cases hmax : env.2.length ≤ maxLength
    · rw [if_pos hmax] at hdecode
      rw [contents_of_frame hdecode, List.drop_left, if_pos (decide_eq_true hmax), List.map_cons,
        ih hrest]
    · rw [if_neg hmax] at hdecode
      rw [contents_of_error hdecode, if_neg (by simpa using hmax)]
      rfl

/-- A stream that is cut off has the first of the envelopes that are read. -/
theorem envelopes_of_long {maxLength' : ℕ} {cs : List (List UInt8)}
    (hcs : List.Forall₂ (Envelope.decoder maxLength').Encodes
      (envs.map fun env => ⟨env.1, env.2⟩) cs) (hp : r.remaining <+: cs.flatten) :
    r.envelopes maxLength <+: envs.takeWhile (fun env => env.2.length ≤ maxLength) ∧
      (r.remaining = cs.flatten →
        r.envelopes maxLength = envs.takeWhile fun env => env.2.length ≤ maxLength) := by
  rw [← contents_of_long hcs]
  have hframes := contents_prefix (Envelope.progressive_decoder maxLength) hp
  refine ⟨hframes.map _, fun hwhole => ?_⟩
  rw [envelopes, hwhole]

/-- What a stream carries that may break off are the first of the envelopes that have been written
    after its prologue, up to one that is too long. -/
theorem envelopes_of_written {kind : StreamKind} {contextId : ℕ} {bytes : List UInt8}
    {recv : RecvStream} {streamPrologue : StreamPrologue}
    (hwritten : StreamPrologue.encode kind 1 contextId [] >>= encodeAll envs = some bytes)
    (hp : symbols recv.chunks <+: bytes)
    (hread : readPrologue (Reader.new recv) = (.ok streamPrologue, r)) :
    streamPrologue = ⟨kind, 1, contextId⟩ ∧
      r.envelopes maxLength <+: envs.takeWhile (fun env => env.2.length ≤ maxLength) ∧
      (symbols recv.chunks = bytes →
        r.envelopes maxLength = envs.takeWhile fun env => env.2.length ≤ maxLength) := by
  obtain ⟨prologue, hprologue, hbytes⟩ := Option.bind_eq_some_iff.1 hwritten
  obtain ⟨c, rfl, hc⟩ := StreamPrologue.encodes_of_encode hprologue
  obtain ⟨cs, rfl, hcs⟩ :=
    encodes_of_encodeAll (encodeAll_isSome.1 (Option.isSome_of_eq_some hbytes)) hbytes
  -- the prologue is the first frame of the stream
  cases hnext : Reader.next StreamPrologue.decoder (Reader.new recv) with
  | mk result r' =>
    rw [readPrologue, hnext] at hread
    cases result with
    | error e => cases hread
    | ok p =>
      cases hread
      obtain ⟨rfl, hrest, hwhole⟩ := Reader.next_of_prefix (r := Reader.new recv) hc hp hnext
      obtain ⟨henvs, hall⟩ := envelopes_of_long hcs hrest
      exact ⟨rfl, henvs, fun heq => hall (hwhole heq)⟩

end EnvelopeReader

/-! ## Parsers -/

open EnvelopeReader

variable {σ ε A B : Type} {maxLength : ℕ} {s : σ} {p : Async σ EnvelopeRead ε A}

/-- Reading an envelope and making something of it. -/
def readAs (ofRead : StreamReadError → ε) (f : UInt16 × List UInt8 → Except ε A) :
    Async σ EnvelopeRead ε A := do
  ofExcept (f (← readEnvelope ofRead))

/-- A parser of lists of envelopes. -/
abbrev EnvelopeParser (A : Type) := StateT (List (UInt16 × List UInt8)) Option A

/-- The parser of the next envelope. -/
def EnvelopeParser.next (f : UInt16 × List UInt8 → Except ε A) : EnvelopeParser A
  | env :: envs => (f env).toOption.map fun a => (a, envs)
  | [] => none

/-- Reading a stream is parsing the envelopes it carries; there is an error if that fails. -/
def Parses (maxLength : ℕ) (s : σ) (p : Async σ EnvelopeRead ε A) (f : EnvelopeParser A) : Prop :=
  ∀ r envs stop, Carries maxLength r envs stop →
    (∃ a rest r', f envs = some (a, rest) ∧ Carries maxLength r' rest stop ∧
      p.exec (Envelope.decoder maxLength) s r = (.ok a, s, r')) ∨
    f envs = none ∧ ∃ e x, p.exec (Envelope.decoder maxLength) s r = (.error e, x)

/-- The parser does not look at the envelopes that it leaves. -/
def Extends (f : EnvelopeParser A) : Prop :=
  ∀ envs a rest more, f envs = some (a, rest) → f (envs ++ more) = some (a, rest ++ more)

theorem extends_pure (a : A) : Extends (pure a : EnvelopeParser A) := by
  intro envs a' rest more h
  cases h
  rfl

theorem extends_next (f : UInt16 × List UInt8 → Except ε A) : Extends (.next f) := by
  intro envs a rest more h
  cases envs with
  | nil => cases h
  | cons env envs =>
    obtain ⟨a', ha', heq⟩ := Option.map_eq_some_iff.1 h
    cases heq
    exact Option.map_eq_some_iff.2 ⟨a, ha', rfl⟩

theorem Extends.bind {f : EnvelopeParser A} {g : A → EnvelopeParser B} (hf : Extends f)
    (hg : ∀ a, Extends (g a)) : Extends (f >>= g) := by
  intro envs b rest more h
  obtain ⟨⟨a, rest'⟩, ha, hb⟩ := Option.bind_eq_some_iff.1 h
  exact Option.bind_eq_some_iff.2 ⟨(a, rest' ++ more), hf _ _ _ _ ha, hg a _ _ _ _ hb⟩

theorem parses_pure (a : A) :
    Parses maxLength s (pure a : Async σ EnvelopeRead ε A) (pure a) := by
  intro r envs stop h
  exact .inl ⟨a, envs, r, rfl, h, rfl⟩

/-- One function after another is one parser after another. -/
theorem Parses.bind {f : EnvelopeParser A} {k : A → Async σ EnvelopeRead ε B}
    {g : A → EnvelopeParser B} (hp : Parses maxLength s p f)
    (hk : ∀ a, Parses maxLength s (k a) (g a)) : Parses maxLength s (p >>= k) (f >>= g) := by
  intro r envs stop h
  have hexec : (p >>= k).exec (Envelope.decoder maxLength) s r = _ := Async.exec_bind p k s r
  have hparse : (f >>= g) envs = (f envs).bind fun x => g x.1 x.2 := rfl
  rcases hp r envs stop h with ⟨a, rest, r', hf, h', ha⟩ | ⟨hf, e, x, he⟩
  · rw [hexec, hparse, hf, ha]
    exact hk a r' rest stop h'
  · rw [hexec, hparse, hf, he]
    exact .inr ⟨rfl, e, _, rfl⟩

/-- Reading an envelope is parsing the next one. -/
theorem parses_readAs (ofRead : StreamReadError → ε) (f : UInt16 × List UInt8 → Except ε A) :
    Parses maxLength s (readAs ofRead f) (.next f) := by
  intro r envs stop h
  cases envs with
  | nil =>
    obtain ⟨r', -, hexec⟩ := @Carries.exec_nil _ _ _ σ ε A ofRead h
    exact .inr ⟨rfl, _, _, hexec s _⟩
  | cons env envs =>
    obtain ⟨r', h', hexec⟩ := @Carries.exec_cons _ _ _ _ _ σ ε A ofRead h
    rw [readAs, hexec]
    cases hf : f env with
    | ok a => exact .inl ⟨a, envs, r', by simp [EnvelopeParser.next, hf, Except.toOption], h', rfl⟩
    | error e =>
      exact .inr ⟨by simp [EnvelopeParser.next, hf, Except.toOption], e, _, rfl⟩

end Sardp
