import Sardp.Wire.Envelope

/-!
# Prologues

The first bytes of a stream tell its kind (`prologue.rs`, `stream_kind.rs`): a fixed
magic, the kind, the version, and the context id as a varint. `StreamPrologue.decoder`
is `StreamPrologue.parse` as an incremental decoder, and
`StreamPrologue.encodes_of_encode` says that what `StreamPrologue.encode` appends is an
encoding for it.
-/

namespace Sardp

/-- The kinds of streams. -/
inductive StreamKind
  | control
  | input
  | video
  | feedback
  | clipboard
  | file
  | audioPlayback
  | audioCapture
  deriving DecidableEq, Repr

namespace StreamKind

/-- The kind of a byte; `none` for the unknown ones. -/
def fromByte (kind : UInt8) : Option StreamKind :=
  if kind = 0x01 then some control
  else if kind = 0x02 then some input
  else if kind = 0x03 then some video
  else if kind = 0x04 then some feedback
  else if kind = 0x05 then some clipboard
  else if kind = 0x06 then some file
  else if kind = 0x07 then some audioPlayback
  else if kind = 0x08 then some audioCapture
  else none

/-- The byte of a kind. -/
def toByte : StreamKind → UInt8
  | control => 0x01
  | input => 0x02
  | video => 0x03
  | feedback => 0x04
  | clipboard => 0x05
  | file => 0x06
  | audioPlayback => 0x07
  | audioCapture => 0x08

/-- The longest payload of an envelope on a stream of the kind. -/
def maxEnvelopeLength : StreamKind → ℕ
  | control => 64 * 1024
  | input => 1024
  | video => 8 * 1024 * 1024
  | feedback => 4 * 1024
  | audioPlayback | audioCapture => 64 * 1024
  | clipboard => 16 * 1024 * 1024
  | file => 1024 * 1024

@[simp] theorem fromByte_toByte (kind : StreamKind) : fromByte kind.toByte = some kind := by
  cases kind <;> rfl

/-- A payload within the limit of its stream can be encoded. -/
theorem maxEnvelopeLength_le_MAX (kind : StreamKind) : kind.maxEnvelopeLength ≤ Varint.MAX := by
  cases kind <;> decide

end StreamKind

/-- The first bytes of a prologue, `SARD`. -/
def MAGIC : List UInt8 := [0x53, 0x41, 0x52, 0x44]

/-- The prologue of a stream. -/
structure StreamPrologue where
  kind : StreamKind
  /-- Handed to the caller unchecked. -/
  version : UInt8
  contextId : ℕ
  deriving DecidableEq

namespace StreamPrologue

/-- No prologue starts with the bytes received. -/
inductive PrologueError
  | magicMismatch
  | unknownKind (kind : UInt8)
  deriving DecidableEq

/-- Appending a prologue to `out`. -/
def encode (kind : StreamKind) (version : UInt8) (contextId : ℕ) (out : List UInt8) :
    Option (List UInt8) :=
  Varint.encode contextId (out ++ MAGIC ++ [kind.toByte] ++ [version])

/-- The prologue at the start of the buffer, and the number of bytes it takes; `none`
    as long as it is incomplete. The kind is checked before the context id arrives. -/
def parse (buf : List UInt8) : Except PrologueError (Option (StreamPrologue × ℕ)) :=
  if buf.length < 4 then .ok none
  else if buf.take 4 ≠ MAGIC then .error .magicMismatch
  else
    match buf.drop 4 with
    | kindByte :: version :: rest =>
      match StreamKind.fromByte kindByte with
      | none => .error (.unknownKind kindByte)
      | some kind =>
        match Varint.decode rest with
        | .error .incomplete => .ok none
        | .ok (contextId, contextIdLen) => .ok (some (⟨kind, version, contextId⟩, 6 + contextIdLen))
    -- fewer than six bytes
    | _ => .ok none

/-! ## Prologues as frames -/

/-- What a successful `parse` saw. -/
theorem parse_eq_some {buf : List UInt8} {p : StreamPrologue} {n : ℕ} :
    parse buf = .ok (some (p, n)) ↔
      ∃ kindByte rest len, buf = MAGIC ++ kindByte :: p.version :: rest ∧
        StreamKind.fromByte kindByte = some p.kind ∧
        Varint.decode rest = .ok (p.contextId, len) ∧ n = 6 + len := by
  constructor
  · intro h
    rw [parse] at h
    split_ifs at h with hlen hmagic
    · nomatch h
    split at h
    · next kindByte version rest hrest =>
      split at h
      · nomatch h
      · next kind hkind =>
        split at h
        · nomatch h
        · next contextId len hlen =>
          obtain ⟨rfl, rfl⟩ : _ = p ∧ _ = n := by simpa using h
          refine ⟨kindByte, rest, len, ?_, hkind, hlen, rfl⟩
          rw [← List.take_append_drop 4 buf, hrest, not_not.1 hmagic]
    · nomatch h
  · rintro ⟨kindByte, rest, len, rfl, hkind, hlen, rfl⟩
    simp [parse, MAGIC, hkind, hlen]

/-- What a failed `parse` saw. -/
theorem parse_eq_error {buf : List UInt8} {err : PrologueError} :
    parse buf = .error err ↔
      (4 ≤ buf.length ∧ buf.take 4 ≠ MAGIC ∧ err = .magicMismatch) ∨
      ∃ kindByte version rest, buf = MAGIC ++ kindByte :: version :: rest ∧
        StreamKind.fromByte kindByte = none ∧ err = .unknownKind kindByte := by
  constructor
  · intro h
    rw [parse] at h
    split_ifs at h with hlen hmagic
    · exact .inl ⟨Nat.not_lt.1 hlen, hmagic, by simpa using h.symm⟩
    split at h
    · next kindByte version rest hrest =>
      split at h
      · next hkind =>
        refine .inr ⟨kindByte, version, rest, ?_, hkind, by simpa using h.symm⟩
        rw [← List.take_append_drop 4 buf, hrest, not_not.1 hmagic]
      · split at h <;> nomatch h
    · nomatch h
  · rintro (⟨hlen, hmagic, rfl⟩ | ⟨kindByte, version, rest, rfl, hkind, rfl⟩)
    · rw [parse, if_neg (Nat.not_lt.2 hlen), if_pos hmagic]
    · simp [parse, MAGIC, hkind]

theorem parse_length {buf : List UInt8} {p : StreamPrologue} {n : ℕ}
    (h : parse buf = .ok (some (p, n))) : n ≤ buf.length := by
  obtain ⟨kindByte, rest, len, rfl, -, hlen, rfl⟩ := parse_eq_some.1 h
  have hrest := Varint.decode_length hlen
  simp only [MAGIC, List.length_append, List.length_cons, List.length_nil]
  omega

/-- A complete prologue is parsed the same whatever follows it. -/
theorem parse_append {buf : List UInt8} {p : StreamPrologue} {n : ℕ} (s : List UInt8)
    (h : parse buf = .ok (some (p, n))) : parse (buf ++ s) = .ok (some (p, n)) := by
  obtain ⟨kindByte, rest, len, rfl, hkind, hlen, rfl⟩ := parse_eq_some.1 h
  refine parse_eq_some.2 ⟨kindByte, rest ++ s, len, ?_, hkind, Varint.decode_append s hlen, rfl⟩
  rw [List.append_assoc]
  rfl

/-- A mismatch is refused whatever follows it. -/
theorem parse_append_error {buf : List UInt8} {err : PrologueError} (s : List UInt8)
    (h : parse buf = .error err) : parse (buf ++ s) = .error err := by
  rcases parse_eq_error.1 h with ⟨hlen, hmagic, rfl⟩ | ⟨kindByte, version, rest, rfl, hkind, rfl⟩
  · refine parse_eq_error.2 (.inl ⟨by rw [List.length_append]; omega, ?_, rfl⟩)
    rwa [List.take_append_of_le_length hlen]
  · refine parse_eq_error.2 (.inr ⟨kindByte, version, rest ++ s, ?_, hkind, rfl⟩)
    rw [List.append_assoc]
    rfl

/-- `parse` as an incremental decoder. -/
def decoder : Framing.Decoder UInt8 StreamPrologue PrologueError where
  decode := parse
  le_length := parse_length
  frame_append := fun s h => parse_append s h
  error_append := fun s h => parse_append_error s h

/-- What `encode` appends is the encoding of the prologue. -/
theorem encodes_of_encode {kind : StreamKind} {version : UInt8} {contextId : ℕ}
    {out bytes : List UInt8} (h : encode kind version contextId out = some bytes) :
    ∃ c, bytes = out ++ c ∧ decoder.Encodes ⟨kind, version, contextId⟩ c := by
  obtain ⟨c, rfl, hc⟩ := Varint.decode_encode h
  refine ⟨MAGIC ++ kind.toByte :: version :: c, by simp, ?_⟩
  refine (parse_eq_some (p := ⟨kind, version, contextId⟩)).2 ⟨kind.toByte, c, c.length, rfl,
    StreamKind.fromByte_toByte kind, hc, ?_⟩
  simp only [MAGIC, List.length_append, List.length_cons, List.length_nil]
  omega

end StreamPrologue

end Sardp
