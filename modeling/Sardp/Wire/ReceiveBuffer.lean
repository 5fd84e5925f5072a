import Sardp.Library.Fallible
import Sardp.Library.Filling
import Sardp.Wire.StreamReader

/-!
# The receive buffer

What a peer sends is read in chunks into the buffer of the reader (`stream_reader.rs`), as long as
the buffer does not hold the next envelope. So the buffer cannot be made to grow: it is shorter than
the longest envelope of the stream and a chunk, and an envelope that is declared longer than that is
refused before another chunk is read (`EnvelopeReader.receive_buffer_bounded`).

A reader may have read the start of its stream with the prologue; less than a chunk of that is left
in its buffer (`EnvelopeReader.length_buf_of_prologue`).
-/

namespace Sardp

open Framing

/-- How many bytes a read of a stream gives at most. -/
def READ_CHUNK_BYTES : ℕ := 4096

/-- The buffer starts with a complete envelope, whatever the limit. -/
def HoldsEnvelope (buf : List UInt8) : Prop :=
  ∃ length lengthLen, Varint.decode buf = .ok (length, lengthLen) ∧
    lengthLen + 2 + length ≤ buf.length

/-- The buffer starts with a length over the limit. -/
def DeclaresOver (maxLength length : ℕ) (buf : List UInt8) : Prop :=
  maxLength < length ∧ ∃ lengthLen, Varint.decode buf = .ok (length, lengthLen)

/-- Where the parser waits for more, the envelope is neither complete nor too long, and the buffer
    shorter than the longest one. -/
theorem Envelope.of_parse_eq_none {buf : List UInt8} {maxLength : ℕ}
    (h : parse buf maxLength = .ok none) :
    ¬HoldsEnvelope buf ∧ (∀ length, ¬DeclaresOver maxLength length buf) ∧
      buf.length < maxLength + 10 := by
  rcases parse_eq_none.1 h with hvarint | ⟨length, lengthLen, hvarint, hmax, hlen⟩
  · have hlt := Varint.length_lt_of_incomplete hvarint
    refine ⟨fun ⟨length, lengthLen, hdecode, _⟩ => ?_, fun length ⟨_, lengthLen, hdecode⟩ => ?_,
      by omega⟩
    all_goals cases hvarint.symm.trans hdecode
  · have hle := (Varint.decode_len_le hvarint).2
    refine ⟨fun ⟨length', lengthLen', hdecode, hlen'⟩ => ?_,
      fun length' ⟨hover, lengthLen', hdecode⟩ => ?_, by omega⟩
    all_goals
      cases hvarint.symm.trans hdecode
      omega

/-- What a prologue is decoded from is an encoding of it, without what follows it. -/
theorem StreamPrologue.tight_decoder : decoder.Tight := by
  intro buf p n h
  obtain ⟨kindByte, rest, len, rfl, hkind, hvarint, rfl⟩ := parse_eq_some.1 h
  have hlen := Varint.decode_length hvarint
  have htake : (MAGIC ++ kindByte :: p.version :: rest).take (6 + len) =
      MAGIC ++ kindByte :: p.version :: rest.take len := by
    rw [Nat.add_comm]
    rfl
  rw [htake]
  refine parse_eq_some.2 ⟨kindByte, rest.take len, len, rfl, hkind,
    Varint.decode_take hvarint le_rfl, ?_⟩
  simp only [MAGIC, List.length_append, List.length_cons, List.length_nil, List.length_take]
  omega

namespace EnvelopeReader

/-- The calls of `read_envelope` with a limit, step by step. -/
def envelopeCalls (maxLength : ℕ) :
    Machine (Calls UInt8 Envelope Envelope.EnvelopeError Quinn.ReadError)
      (CallStep UInt8 Quinn.ReadError) :=
  Calls.machine (Envelope.decoder maxLength) READ_CHUNK_BYTES

/-- A step does not let the buffer grow: it is within the bound, a chunk is only read while the
    buffer neither holds an envelope nor declares one over the limit, and a call that finds such a
    declaration fails with it. -/
structure KeepsBuffer (maxLength : ℕ)
    (s : Calls UInt8 Envelope Envelope.EnvelopeError Quinn.ReadError)
    (e : CallStep UInt8 Quinn.ReadError)
    (s' : Calls UInt8 Envelope Envelope.EnvelopeError Quinn.ReadError) : Prop where
  bounded : s'.buf.length ≤ maxLength + 10 + 4095
  incomplete : ∀ c, e = .chunk c → ¬HoldsEnvelope s.buf
  admissible : ∀ c, e = .chunk c → ∀ length, ¬DeclaresOver maxLength length s.buf
  refused : ∀ length, e = .decode → DeclaresOver maxLength length s.buf →
    s' = ⟨s.buf, .returned (some (.error (.malformed (.lengthExceedsLimit length maxLength))))⟩

/-- A buffer that is too short for an envelope within the limit is shorter than the longest one. -/
theorem length_lt_of_decode_none (maxLength : ℕ) :
    ∀ buf, (Envelope.decoder maxLength).decode buf = .ok none → buf.length < maxLength + 10 :=
  fun _ hbuf => (Envelope.of_parse_eq_none hbuf).2.2

theorem keepsBuffer_of_step {maxLength : ℕ}
    {s s' : Calls UInt8 Envelope Envelope.EnvelopeError Quinn.ReadError}
    {e : CallStep UInt8 Quinn.ReadError} (h : s.Undecided (Envelope.decoder maxLength))
    (hlen : s.buf.length < maxLength + 10 + READ_CHUNK_BYTES)
    (hstep : s.step (Envelope.decoder maxLength) READ_CHUNK_BYTES e = some s') :
    KeepsBuffer maxLength s e s' where
  bounded := by
    have hlen' := Calls.length_lt_of_step (length_lt_of_decode_none maxLength) h hlen hstep
    rw [READ_CHUNK_BYTES] at hlen'
    omega
  incomplete c he := by
    subst he
    exact (Envelope.of_parse_eq_none (Calls.decode_of_chunk h hstep)).1
  admissible c he := by
    subst he
    exact (Envelope.of_parse_eq_none (Calls.decode_of_chunk h hstep)).2.1
  refused length he hover := by
    subst he
    obtain ⟨hlt, lengthLen, hvarint⟩ := hover
    have hparse := Envelope.parse_eq_error.2 ⟨length, lengthLen, hvarint, hlt, rfl⟩
    obtain ⟨-, rfl⟩ := Calls.step_decode hstep
    simp only [Calls.decode, Envelope.decoder, hparse]

/-- Whatever a peer sends, and however it arrives, no sequence of calls lets the buffer grow. -/
theorem receive_buffer_bounded (maxLength : ℕ) (buf : List UInt8)
    (hbuf : buf.length < READ_CHUNK_BYTES) (es : List (CallStep UInt8 Quinn.ReadError)) :
    (envelopeCalls maxLength).Always (KeepsBuffer maxLength) (.new buf) es := by
  refine Machine.always_of_step
    (I := fun s => s.Undecided (Envelope.decoder maxLength) ∧
      s.buf.length < maxLength + 10 + READ_CHUNK_BYTES)
    (fun s e s' h hstep => ?_) (fun s e s' h hstep => keepsBuffer_of_step h.1 h.2 hstep)
    ⟨Calls.undecided_new buf, hbuf.trans_le (Nat.le_add_left ..)⟩
  exact ⟨Calls.Undecided.step hstep,
    Calls.length_lt_of_step (length_lt_of_decode_none maxLength) h.1 h.2 hstep⟩

/-- A length of 1025 bytes arrives, in two reads, where 1024 are the limit, and is refused. -/
theorem receive_buffer_bounded_oversized :
    (envelopeCalls 1024).Always (KeepsBuffer 1024) (.new [0x44])
        [.call, .decode, .chunk ⟨[0x01, 0x03], by decide⟩, .decode] ∧
      (envelopeCalls 1024).run (.new [0x44])
          [.call, .decode, .chunk ⟨[0x01, 0x03], by decide⟩, .decode] =
        some ⟨[0x44, 0x01, 0x03],
          .returned (some (.error (.malformed (.lengthExceedsLimit 1025 1024))))⟩ :=
  ⟨receive_buffer_bounded 1024 [0x44] (by decide) _, rfl⟩

/-- Left alone, the steps of a call return what `readEnvelope` does, and leave the same buffer. -/
theorem exists_run_readEnvelope (maxLength : ℕ) (r : EnvelopeReader)
    (hchunks : ∀ c ∈ r.source.chunks, c.1.length ≤ READ_CHUNK_BYTES) :
    ∃ es result, (envelopeCalls maxLength).run ⟨r.buf, .decoding⟩ es =
        some ⟨(r.readEnvelope maxLength).2.buf, .returned (some result)⟩ ∧
      (result.map fun env => (env.typeRaw, env.payload)).mapError (.ofReadError .envelope) =
        (r.readEnvelope maxLength).1 := by
  obtain ⟨es, hes⟩ := Calls.exists_run_next (d := Envelope.decoder maxLength) r hchunks
  exact ⟨es, _, hes, rfl⟩

/-- What is left in the buffer when the prologue has been read is less than a chunk. -/
theorem length_buf_of_prologue {r r' : EnvelopeReader} {p : StreamPrologue}
    (hchunks : ∀ c ∈ r.source.chunks, c.1.length ≤ READ_CHUNK_BYTES) (hr : r.buf = [])
    (h : r.readPrologue = (.ok p, r')) : r'.buf.length < READ_CHUNK_BYTES := by
  have hresult : (r.next StreamPrologue.decoder).1.mapError (StreamReadError.ofReadError .prologue) =
      .ok p := congrArg Prod.fst h
  have hnext : r.next StreamPrologue.decoder = (.ok p, r') :=
    Prod.ext (Except.mapError_eq_ok.1 hresult) (Prod.ext_iff.1 h).2
  exact Reader.length_buf_next_lt StreamPrologue.tight_decoder hchunks (by rw [hr]; decide) hnext

end EnvelopeReader

end Sardp
