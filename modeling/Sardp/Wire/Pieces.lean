import Sardp.Wire.StreamReader

/-!
# Writing streams

A stream is written in pieces, its prologue and its envelopes. As long as the envelopes are within
the limit of the reader, whatever is read next is the next piece that was written
(`Pending.readPrologue`, `Pending.readEnvelope`); a longer one is refused
(`Pending.readEnvelope_oversized`).
-/

namespace Sardp

open Framing

/-- What is written to a stream at once. -/
inductive Piece
  | prologue (p : StreamPrologue)
  | envelope (typeRaw : UInt16) (payload : List UInt8)
  deriving DecidableEq

/-- Appending the bytes of a piece to `out`. -/
def Piece.encode (piece : Piece) (out : List UInt8) : Option (List UInt8) :=
  match piece with
  | .prologue p => StreamPrologue.encode p.kind p.version p.contextId out
  | .envelope typeRaw payload => Envelope.encode typeRaw payload out

/-- Appending the bytes of pieces to `out`, one after the other. -/
def encodePieces (pieces : List Piece) (out : List UInt8) : Option (List UInt8) :=
  pieces.foldlM (fun out piece => piece.encode out) out

/-- What a reader has left to read are the pieces. -/
def Pending (pieces : List Piece) (r : EnvelopeReader) : Prop :=
  ∃ out, encodePieces pieces out = some (out ++ r.remaining)

variable {pieces : List Piece} {r : EnvelopeReader} {typeRaw : UInt16} {payload : List UInt8}
  {maxLength : ℕ}

theorem encodePieces_cons_eq_some {piece : Piece} {out bytes : List UInt8} :
    encodePieces (piece :: pieces) out = some bytes ↔
      ∃ out', piece.encode out = some out' ∧ encodePieces pieces out' = some bytes := by
  rw [encodePieces, List.foldlM_cons]
  exact Option.bind_eq_some_iff

/-- Writing pieces only appends. -/
theorem prefix_of_encodePieces {out bytes : List UInt8} (h : encodePieces pieces out = some bytes) :
    out <+: bytes := by
  induction pieces generalizing out with
  | nil =>
    cases h
    exact List.prefix_refl _
  | cons piece pieces ih =>
    obtain ⟨out', hout', hbytes⟩ := encodePieces_cons_eq_some.1 h
    refine List.IsPrefix.trans ?_ (ih hbytes)
    cases piece with
    | prologue p =>
      obtain ⟨c, rfl, -⟩ := StreamPrologue.encodes_of_encode hout'
      exact List.prefix_append out c
    | envelope typeRaw payload =>
      obtain ⟨c, rfl, -⟩ := Envelope.encodes_of_encode (e := ⟨typeRaw, payload⟩) le_rfl hout'
      exact List.prefix_append out c

/-- What is left begins with what was written first. -/
theorem exists_rest_of_encodePieces {out c bytes : List UInt8}
    (h : encodePieces pieces (out ++ c) = some (out ++ bytes)) : ∃ rest, bytes = c ++ rest := by
  obtain ⟨rest, hrest⟩ := prefix_of_encodePieces h
  rw [List.append_assoc] at hrest
  exact ⟨rest, (List.append_cancel_left hrest).symm⟩

/-- A prologue that was written is read. -/
theorem Pending.readPrologue {p : StreamPrologue} (h : Pending (.prologue p :: pieces) r) :
    ∃ r', r.readPrologue = (.ok p, r') ∧ Pending pieces r' := by
  obtain ⟨out, hout⟩ := h
  obtain ⟨out', hout', hpieces⟩ := encodePieces_cons_eq_some.1 hout
  obtain ⟨c, rfl, hc⟩ := StreamPrologue.encodes_of_encode hout'
  obtain ⟨rest, hrem⟩ := exists_rest_of_encodePieces hpieces
  obtain ⟨r', hr', hrem', -⟩ := Reader.next_frame hc hrem
  refine ⟨r', by rw [EnvelopeReader.readPrologue, hr']; rfl, out ++ c, ?_⟩
  rw [hpieces, hrem, hrem', List.append_assoc]

/-- An envelope that was written is read, if it is within the limit. -/
theorem Pending.readEnvelope (h : Pending (.envelope typeRaw payload :: pieces) r)
    (hmax : payload.length ≤ maxLength) :
    ∃ r', r.readEnvelope maxLength = (.ok (typeRaw, payload), r') ∧ Pending pieces r' := by
  obtain ⟨out, hout⟩ := h
  obtain ⟨out', hout', hpieces⟩ := encodePieces_cons_eq_some.1 hout
  obtain ⟨c, rfl, hc⟩ := Envelope.encodes_of_encode (e := ⟨typeRaw, payload⟩) hmax hout'
  obtain ⟨rest, hrem⟩ := exists_rest_of_encodePieces hpieces
  obtain ⟨r', hr', hrem', -⟩ := Reader.next_frame hc hrem
  refine ⟨r', by rw [EnvelopeReader.readEnvelope, hr']; rfl, out ++ c, ?_⟩
  rw [hpieces, hrem, hrem', List.append_assoc]

/-- An envelope over the limit is refused. -/
theorem Pending.readEnvelope_oversized (h : Pending (.envelope typeRaw payload :: pieces) r)
    (hmax : maxLength < payload.length) :
    ∃ r', r.readEnvelope maxLength =
      (.error (.envelope (.lengthExceedsLimit payload.length maxLength)), r') := by
  obtain ⟨out, hout⟩ := h
  obtain ⟨out', hout', hpieces⟩ := encodePieces_cons_eq_some.1 hout
  obtain ⟨header, hheader, hbytes⟩ := Option.bind_eq_some_iff.1 hout'
  obtain ⟨c, rfl, hc⟩ := Varint.decode_encode hheader
  obtain rfl : _ = out' := by simpa using hbytes
  obtain ⟨rest, hrem⟩ := exists_rest_of_encodePieces hpieces
  -- the length alone is refused, whatever follows it
  have hparse : (Envelope.decoder maxLength).decode r.remaining =
      .error (.lengthExceedsLimit payload.length maxLength) := by
    rw [hrem, List.append_assoc]
    exact Envelope.parse_eq_error.2 ⟨_, _, Varint.decode_append _ hc, hmax, rfl⟩
  obtain ⟨r', hr', -, -⟩ := Reader.next_eq_told (d := Envelope.decoder maxLength) r
  rw [hparse] at hr'
  exact ⟨r', by rw [EnvelopeReader.readEnvelope, hr']; rfl⟩

end Sardp
