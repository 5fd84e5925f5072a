import Sardp.Wire.StreamReader

/-!
# Parsing again as more arrives

A reader parses its buffer again after every read, from the start (`stream_reader.rs`). What the
parsers of envelopes and prologues tell of some bytes, a frame or an error, they tell of all that
may follow them, and of less than a frame they tell nothing (`PrefixStable`). So it makes no
difference to what is read, and to what is left, when the buffer is parsed (`Unhurried`).
-/

namespace Sardp

open Framing

/-- The parser tells the same of a buffer whatever follows it, once it tells something; of a strict
    prefix of a frame it does not. -/
structure PrefixStable {φ ε : Type} (parse : List UInt8 → Except ε (Option (φ × ℕ))) : Prop where
  frame {b : List UInt8} {f : φ} {n : ℕ} (s : List UInt8) :
    parse b = .ok (some (f, n)) → parse (b ++ s) = .ok (some (f, n))
  error {b : List UInt8} {e : ε} (s : List UInt8) : parse b = .error e → parse (b ++ s) = .error e
  incomplete {b p : List UInt8} {f : φ} {n : ℕ} :
    parse b = .ok (some (f, n)) → p <+: b.take n → p ≠ b.take n → parse p = .ok none

/-- The parser of a decoder is stable. -/
theorem prefixStable_decode {φ ε : Type} (d : Decoder UInt8 φ ε) : PrefixStable d.decode :=
  ⟨fun s h => d.frame_append s h, fun s h => d.error_append s h, Decoder.decode_of_strict_prefix⟩

/-- What is read, and what is left after it, is the same for any two readers with the same bytes
    before them, however many of them have been buffered when they are parsed. -/
def Unhurried {A : Type} (read : EnvelopeReader → Except StreamReadError A × EnvelopeReader) :
    Prop :=
  ∀ r r' : EnvelopeReader, r.remaining = r'.remaining → r.source.ending = r'.source.ending →
    (read r).1 = (read r').1 ∧ (read r).2.remaining = (read r').2.remaining

theorem unhurried_next {φ ε A : Type} (d : Decoder UInt8 φ ε)
    (f : Except (ReadError Quinn.ReadError ε) φ → Except StreamReadError A) :
    Unhurried fun r => (f (r.next d).1, (r.next d).2) := by
  intro r r' hremaining hending
  obtain ⟨r₁, hr₁, hleft₁, -⟩ := r.next_eq_told (d := d)
  obtain ⟨r₂, hr₂, hleft₂, -⟩ := r'.next_eq_told (d := d)
  -- both are told by the bytes before the readers
  simp only [hr₁, hr₂]
  rw [hleft₁, hleft₂, hremaining, hending]
  exact ⟨rfl, rfl⟩

/-- Both parsers are stable, and reading with them does not depend on when they parse. -/
theorem prefixStable_parse :
    (∀ maxLength, PrefixStable fun buf => Envelope.parse buf maxLength) ∧
      PrefixStable StreamPrologue.parse ∧
      (∀ maxLength, Unhurried fun r => r.readEnvelope maxLength) ∧
      Unhurried EnvelopeReader.readPrologue :=
  ⟨fun maxLength => prefixStable_decode (Envelope.decoder maxLength),
    prefixStable_decode StreamPrologue.decoder,
    fun maxLength => unhurried_next (Envelope.decoder maxLength) fun result =>
      (result.map fun env => (env.typeRaw, env.payload)).mapError (.ofReadError .envelope),
    unhurried_next StreamPrologue.decoder (·.mapError (.ofReadError .prologue))⟩

end Sardp
