import Sardp.Wire.Prologue
import Sardp.Wire.Quinn

/-!
# Reading the frames of a stream

An `EnvelopeReader` (`stream_reader.rs`) buffers what it reads of a stream and parses
the buffer again as more arrives: it is a `Framing.Reader` of bytes, whose source is
the receiving half of the stream.

`EnvelopeReader.frames_of_encoded` is the round trip over any chunking: whatever the
reads cut the stream into, the reader hands out the envelopes it was made of, in
order, and then finds it closed with nothing left in the buffer; also after the
prologue in front of them. `EnvelopeReader.delivers_of_encodes` and
`EnvelopeReader.readPrologue_of_encoded` are its two halves, and `encodeAll_isSome`
says which envelopes can be encoded at all.
-/

namespace Sardp

open Framing

/-- Why no prologue or no envelope could be read. -/
inductive StreamReadError
  | read (e : Quinn.ReadError)
  | closedEarly
  | prologue (e : StreamPrologue.PrologueError)
  | envelope (e : Envelope.EnvelopeError)
  deriving DecidableEq

/-- The error of a read, given what the parser's errors become. -/
def StreamReadError.ofReadError {ε : Type} (malformed : ε → StreamReadError) :
    Framing.ReadError Quinn.ReadError ε → StreamReadError
  | .failed e => .read e
  | .closedEarly => .closedEarly
  | .malformed e => malformed e

/-- The receiving half of a stream. -/
abbrev RecvStream := Source UInt8 Quinn.ReadError

/-- A reader of prologues and envelopes. -/
abbrev EnvelopeReader := Reader UInt8 Quinn.ReadError

namespace EnvelopeReader

/-- Reading the prologue of the stream. -/
def readPrologue (r : EnvelopeReader) : Except StreamReadError StreamPrologue × EnvelopeReader :=
  let (result, r) := r.next StreamPrologue.decoder
  (result.mapError (.ofReadError .prologue), r)

/-- Reading one envelope: its type and its payload. -/
def readEnvelope (r : EnvelopeReader) (maxLength : ℕ) :
    Except StreamReadError (UInt16 × List UInt8) × EnvelopeReader :=
  let (result, r) := r.next (Envelope.decoder maxLength)
  ((result.map fun env => (env.typeRaw, env.payload)).mapError (.ofReadError .envelope), r)

/-- Reading `n` envelopes in a row: what each read gives, and the reader left. -/
def readEnvelopes (r : EnvelopeReader) (maxLength : ℕ) :
    ℕ → List (Except StreamReadError (UInt16 × List UInt8)) × EnvelopeReader
  | 0 => ([], r)
  | n + 1 =>
    let (result, r) := r.readEnvelope maxLength
    let (results, r) := readEnvelopes r maxLength n
    (result :: results, r)

end EnvelopeReader

/-- Appending envelopes to `out`, one after the other. -/
def encodeAll (envs : List (UInt16 × List UInt8)) (out : List UInt8) : Option (List UInt8) :=
  envs.foldlM (fun out env => Envelope.encode env.1 env.2 out) out

/-- What `encodeAll` appends is one encoding after the other. -/
theorem encodes_of_encodeAll {maxLength : ℕ} {envs : List (UInt16 × List UInt8)}
    {out bytes : List UInt8} (hmax : ∀ env ∈ envs, env.2.length ≤ maxLength)
    (h : encodeAll envs out = some bytes) :
    ∃ cs, bytes = out ++ cs.flatten ∧
      List.Forall₂ (Envelope.decoder maxLength).Encodes (envs.map fun env => ⟨env.1, env.2⟩) cs := by
  induction envs generalizing out with
  | nil => exact ⟨[], by simpa [encodeAll] using h.symm, .nil⟩
  | cons env envs ih =>
    obtain ⟨out', hout, hbytes⟩ := Option.bind_eq_some_iff.1 (by simpa [encodeAll] using h)
    obtain ⟨c, rfl, hc⟩ := Envelope.encodes_of_encode (e := ⟨env.1, env.2⟩)
      (hmax env List.mem_cons_self) hout
    obtain ⟨cs, rfl, hcs⟩ := ih (fun e he => hmax e (List.mem_cons_of_mem _ he)) hbytes
    exact ⟨c :: cs, by simp, .cons hc hcs⟩

/-- Envelopes can be encoded exactly when no payload is longer than any varint. -/
theorem encodeAll_isSome {envs : List (UInt16 × List UInt8)} {out : List UInt8} :
    (encodeAll envs out).isSome ↔ ∀ env ∈ envs, env.2.length ≤ Varint.MAX := by
  induction envs generalizing out with
  | nil => simp [encodeAll]
  | cons env envs ih =>
    rw [List.forall_mem_cons, ← @Envelope.encode_isSome env.1 env.2 out, encodeAll,
      List.foldlM_cons]
    cases Envelope.encode env.1 env.2 out with
    | none => simp
    | some out' =>
      rw [Option.isSome_some, eq_self, true_and]
      exact ih

namespace EnvelopeReader

variable {maxLength : ℕ} {envs : List (UInt16 × List UInt8)}

/-- Reading envelope by envelope is reading frame by frame. -/
theorem readEnvelopes_eq (n : ℕ) (r : EnvelopeReader) :
    r.readEnvelopes maxLength n =
      ((r.nexts (Envelope.decoder maxLength) n).1.map fun result =>
          (result.map fun env => (env.typeRaw, env.payload)).mapError (.ofReadError .envelope),
        (r.nexts (Envelope.decoder maxLength) n).2) := by
  induction n generalizing r with
  | zero => rfl
  | succ n ih => simp only [readEnvelopes, readEnvelope, ih, Reader.nexts, List.map_cons]

/-- The reader hands out exactly the envelopes, in order, and then finds the stream
    closed, with nothing left in its buffer. -/
def Delivers (maxLength : ℕ) (envs : List (UInt16 × List UInt8)) (r : EnvelopeReader) : Prop :=
  ∃ r', r.readEnvelopes maxLength envs.length = (envs.map .ok, r') ∧ r'.buf = [] ∧
    r'.readEnvelope maxLength = (.error .closedEarly, r')

/-- A reader with encodings of the envelopes still to hand out hands them out. -/
theorem delivers_of_encodes {cs : List (List UInt8)} {r : EnvelopeReader}
    (hcs : List.Forall₂ (Envelope.decoder maxLength).Encodes
      (envs.map fun env => ⟨env.1, env.2⟩) cs)
    (hrem : r.remaining = cs.flatten) (hend : r.source.ending = none) :
    Delivers maxLength envs r := by
  have hrem' : r.remaining = cs.flatten ++ [] := by
    rw [hrem, List.append_nil]
  obtain ⟨r', hr', hrest, hend'⟩ := Reader.nexts_frames hcs hrem'
  obtain ⟨hnext, hbuf⟩ := Reader.next_end (d := Envelope.decoder maxLength) rfl hrest
  rw [List.length_map] at hr'
  refine ⟨r', ?_, hbuf, ?_⟩
  · rw [readEnvelopes_eq, hr']
    simp [Function.comp_def, Except.map, Except.mapError]
  · rw [readEnvelope, hnext, hend', hend]
    rfl

/-- A reader with an encoded prologue still to hand out hands it out first. -/
theorem readPrologue_of_encoded {kind : StreamKind} {version : UInt8} {contextId : ℕ}
    {r : EnvelopeReader} {rest bytes : List UInt8}
    (henc : StreamPrologue.encode kind version contextId [] = some bytes)
    (h : r.remaining = bytes ++ rest) :
    ∃ r', r.readPrologue = (.ok ⟨kind, version, contextId⟩, r') ∧ r'.remaining = rest ∧
      r'.source.ending = r.source.ending := by
  obtain ⟨c, rfl, hc⟩ := StreamPrologue.encodes_of_encode henc
  obtain ⟨r', hr', hrest, hend⟩ := Reader.next_frame hc h
  exact ⟨r', by rw [readPrologue, hr']; rfl, hrest, hend⟩

/-- Stream framing round trip over any chunking: whatever chunks the encoded envelopes
    are read in, the reader delivers them; and so it does after a prologue in front,
    once that has been read. -/
theorem frames_of_encoded (hmax : ∀ env ∈ envs, env.2.length ≤ maxLength)
    (chunks : List (Chunk UInt8)) :
    (encodeAll envs [] = some (symbols chunks) →
      Delivers maxLength envs (Reader.new ⟨chunks, none⟩)) ∧
    ∀ kind version contextId,
      (StreamPrologue.encode kind version contextId [] >>= encodeAll envs) =
          some (symbols chunks) →
        ∃ r, readPrologue (Reader.new ⟨chunks, none⟩) = (.ok ⟨kind, version, contextId⟩, r) ∧
          Delivers maxLength envs r := by
  constructor
  · intro henc
    obtain ⟨cs, hbytes, hcs⟩ := encodes_of_encodeAll hmax henc
    exact delivers_of_encodes hcs hbytes rfl
  · intro kind version contextId henc
    obtain ⟨bytes, hprologue, henvs⟩ := Option.bind_eq_some_iff.1 henc
    obtain ⟨cs, hbytes, hcs⟩ := encodes_of_encodeAll hmax henvs
    obtain ⟨r, hr, hrest, hend⟩ :=
      readPrologue_of_encoded (r := Reader.new ⟨chunks, none⟩) hprologue hbytes
    exact ⟨r, hr, delivers_of_encodes hcs hrest hend⟩

/-- Two envelopes behind a prologue, cut within the magic, the length and the payload. -/
theorem frames_of_encoded_cut :
    ∃ r, readPrologue (Reader.new ⟨[⟨[0x53, 0x41], by decide⟩,
        ⟨[0x52, 0x44, 2, 1, 0, 2, 3, 0], by decide⟩, ⟨[7], by decide⟩,
        ⟨[8, 1, 4, 0x80, 9], by decide⟩], none⟩) = (.ok ⟨.input, 1, 0⟩, r) ∧
      Delivers 1024 [(3, [7, 8]), (0x8004, [9])] r :=
  (frames_of_encoded (by decide) _).2 .input 1 0 (by decide)

end EnvelopeReader

end Sardp
