import Sardp.Library.Framing
import Sardp.Wire.Varint

/-!
# Envelopes

Every stream carries, after its prologue, a sequence of envelopes (`envelope.rs`):
the length of the payload as a varint, the type, and the payload. `Envelope.decoder`
is `Envelope.parse` as an incremental decoder, and `Envelope.encodes_of_encode` says
that what `Envelope.encode` appends is an encoding for it.
-/

namespace Sardp

/-- Bit 15 of the type of an envelope: unknown types with it may be skipped. -/
def IGNORABLE_FLAG : UInt16 := 0x8000

/-- The bits of the type of an envelope that are the type id. -/
def TYPE_ID_MASK : UInt16 := 0x7FFF

/-- The last type id of the core range. -/
def CORE_TYPE_ID_MAX : UInt16 := 0x3FFF

/-- An envelope. -/
structure Envelope where
  /-- The type, flag bit included. -/
  typeRaw : UInt16
  payload : List UInt8
  deriving DecidableEq

namespace Envelope

/-- Unknown types with the flag are skipped rather than a violation of the protocol. -/
def isIgnorable (e : Envelope) : Bool := e.typeRaw &&& IGNORABLE_FLAG != 0

/-- The type without the flag. -/
def typeId (e : Envelope) : UInt16 := e.typeRaw &&& TYPE_ID_MASK

/-- The type id is one of the protocol's own, not an experimental one. -/
def isCore (e : Envelope) : Bool := e.typeId ≤ CORE_TYPE_ID_MAX

/-- No envelope starts with the bytes received. -/
inductive EnvelopeError
  /-- The payload is longer than the stream allows. -/
  | lengthExceedsLimit (length limit : ℕ)
  deriving DecidableEq

/-- The two bytes of a type, least significant first. -/
def toLeBytes (typeRaw : UInt16) : List UInt8 := [typeRaw.toUInt8, (typeRaw >>> 8).toUInt8]

/-- The type of two bytes, least significant first. -/
def fromLeBytes (lo hi : UInt8) : UInt16 := lo.toUInt16 ||| hi.toUInt16 <<< 8

/-- Appending an envelope to `out`: the length, the type, the payload. -/
def encode (typeRaw : UInt16) (payload out : List UInt8) : Option (List UInt8) := do
  let out ← Varint.encode payload.length out
  return out ++ toLeBytes typeRaw ++ payload

/-- The envelope at the start of the buffer, and the number of bytes it takes; `none`
    as long as it is incomplete. The length is checked before the rest arrives. -/
def parse (buf : List UInt8) (maxLength : ℕ) :
    Except EnvelopeError (Option (Envelope × ℕ)) :=
  match Varint.decode buf with
  | .error .incomplete => .ok none
  | .ok (length, lengthLen) =>
    if length > maxLength then .error (.lengthExceedsLimit length maxLength)
    else
      match buf.drop lengthLen with
      | lo :: hi :: rest =>
        if rest.length < length then .ok none
        else .ok (some (⟨fromLeBytes lo hi, rest.take length⟩, lengthLen + 2 + length))
      -- the header is incomplete
      | _ => .ok none

/-! ## Envelopes as frames -/

/-- What a successful `parse` saw: a length within the limit, two bytes of type, and
    that many bytes of payload. -/
theorem parse_eq_some {buf : List UInt8} {maxLength n : ℕ} {e : Envelope} :
    parse buf maxLength = .ok (some (e, n)) ↔
      ∃ length lengthLen lo hi rest, Varint.decode buf = .ok (length, lengthLen) ∧
        length ≤ maxLength ∧ buf.drop lengthLen = lo :: hi :: rest ∧ length ≤ rest.length ∧
        e = ⟨fromLeBytes lo hi, rest.take length⟩ ∧ n = lengthLen + 2 + length := by
  constructor
  · intro h
    rw [parse] at h
    split at h
    · nomatch h
    · next length lengthLen hlength =>
      split_ifs at h with hmax
      split at h
      · next lo hi rest hrest =>
        split_ifs at h with hlen
        · nomatch h
        · obtain ⟨rfl, rfl⟩ : _ = e ∧ _ = n := by simpa using h
          exact ⟨length, lengthLen, lo, hi, rest, hlength, Nat.not_lt.1 hmax, hrest,
            Nat.not_lt.1 hlen, rfl, rfl⟩
      · nomatch h
  · rintro ⟨length, lengthLen, lo, hi, rest, hlength, hmax, hrest, hlen, rfl, rfl⟩
    simp [parse, hlength, hrest, Nat.not_lt.2 hmax, Nat.not_lt.2 hlen]

/-- `parse` only fails on a length over the limit. -/
theorem parse_eq_error {buf : List UInt8} {maxLength : ℕ} {err : EnvelopeError} :
    parse buf maxLength = .error err ↔
      ∃ length lengthLen, Varint.decode buf = .ok (length, lengthLen) ∧ maxLength < length ∧
        err = .lengthExceedsLimit length maxLength := by
  constructor
  · intro h
    rw [parse] at h
    split at h
    · nomatch h
    · next length lengthLen hlength =>
      split_ifs at h with hmax
      · exact ⟨length, lengthLen, hlength, hmax, by simpa using h.symm⟩
      · split at h
        · split_ifs at h
        · nomatch h
  · rintro ⟨length, lengthLen, hlength, hmax, rfl⟩
    simp [parse, hlength, hmax]

/-- `parse` waits for a length, or for the rest of an envelope within the limit. -/
theorem parse_eq_none {buf : List UInt8} {maxLength : ℕ} :
    parse buf maxLength = .ok none ↔ Varint.decode buf = .error .incomplete ∨
      ∃ length lengthLen, Varint.decode buf = .ok (length, lengthLen) ∧ length ≤ maxLength ∧
        buf.length < lengthLen + 2 + length := by
  cases hdecode : Varint.decode buf with
  | error e =>
    cases e
    simp [parse, hdecode]
  | ok value =>
    obtain ⟨length, lengthLen⟩ := value
    have hle := Varint.decode_length hdecode
    have hdrop : (buf.drop lengthLen).length = buf.length - lengthLen := List.length_drop
    simp only [parse, hdecode, reduceCtorEq, Except.ok.injEq, Prod.mk.injEq, false_or]
    constructor
    · intro h
      refine ⟨length, lengthLen, ⟨rfl, rfl⟩, ?_⟩
      split_ifs at h with hmax
      refine ⟨Nat.not_lt.1 hmax, ?_⟩
      split at h
      · next lo hi rest hrest =>
        rw [hrest] at hdrop
        split_ifs at h with hlen
        · simp only [List.length_cons] at hdrop
          omega
        · nomatch h
      · next hshort =>
        -- the two bytes of the type are not there
        rcases hbytes : buf.drop lengthLen with _ | ⟨lo, _ | ⟨hi, rest⟩⟩
        · rw [hbytes, List.length_nil] at hdrop
          omega
        · rw [hbytes, List.length_singleton] at hdrop
          omega
        · exact absurd hbytes (hshort lo hi rest)
    · rintro ⟨_, _, ⟨rfl, rfl⟩, hmax, hlen⟩
      rw [if_neg (Nat.not_lt.2 hmax)]
      split
      · next lo hi rest hrest =>
        rw [hrest] at hdrop
        simp only [List.length_cons] at hdrop
        rw [if_pos (by omega)]
      · rfl

theorem parse_length {buf : List UInt8} {maxLength n : ℕ} {e : Envelope}
    (h : parse buf maxLength = .ok (some (e, n))) : n ≤ buf.length := by
  obtain ⟨length, lengthLen, lo, hi, rest, hlength, -, hrest, hlen, -, rfl⟩ := parse_eq_some.1 h
  have hbuf := congrArg List.length hrest
  rw [List.length_drop, List.length_cons, List.length_cons] at hbuf
  omega

/-- A complete envelope is parsed the same whatever follows it. -/
theorem parse_append {buf : List UInt8} {maxLength n : ℕ} {e : Envelope} (s : List UInt8)
    (h : parse buf maxLength = .ok (some (e, n))) :
    parse (buf ++ s) maxLength = .ok (some (e, n)) := by
  obtain ⟨length, lengthLen, lo, hi, rest, hlength, hmax, hrest, hlen, rfl, rfl⟩ :=
    parse_eq_some.1 h
  refine parse_eq_some.2 ⟨length, lengthLen, lo, hi, rest ++ s, Varint.decode_append s hlength,
    hmax, ?_, by rw [List.length_append]; omega, ?_, rfl⟩
  · rw [List.drop_append_of_le_length (Varint.decode_length hlength), hrest]
    rfl
  · rw [List.take_append_of_le_length hlen]

/-- A length over the limit is refused whatever follows it. -/
theorem parse_append_error {buf : List UInt8} {maxLength : ℕ} {err : EnvelopeError}
    (s : List UInt8) (h : parse buf maxLength = .error err) :
    parse (buf ++ s) maxLength = .error err := by
  obtain ⟨length, lengthLen, hlength, hmax, rfl⟩ := parse_eq_error.1 h
  exact parse_eq_error.2 ⟨length, lengthLen, Varint.decode_append s hlength, hmax, rfl⟩

/-- `parse` as an incremental decoder. -/
def decoder (maxLength : ℕ) : Framing.Decoder UInt8 Envelope EnvelopeError where
  decode buf := parse buf maxLength
  le_length := parse_length
  frame_append := fun s h => parse_append s h
  error_append := fun s h => parse_append_error s h

/-- What an envelope is decoded from is an encoding of it, without what follows it. -/
theorem tight_decoder (maxLength : ℕ) : (decoder maxLength).Tight := by
  intro buf e n h
  obtain ⟨length, lengthLen, lo, hi, rest, hlength, hmax, hrest, hlen, rfl, rfl⟩ :=
    parse_eq_some.1 h
  have hn : (buf.take (lengthLen + 2 + length)).length = lengthLen + 2 + length := by
    rw [List.length_take, Nat.min_eq_left (parse_length h)]
  refine parse_eq_some.2 ⟨length, lengthLen, lo, hi, rest.take length,
    Varint.decode_take hlength (by omega), hmax, ?_, ?_, ?_, hn⟩
  · rw [List.drop_take, hrest, show lengthLen + 2 + length - lengthLen = length + 2 by omega]
    rfl
  · rw [List.length_take, Nat.min_eq_left hlen]
  · rw [List.take_take, Nat.min_self]

/-- A type is read back from its two bytes. -/
theorem fromLeBytes_toLeBytes (typeRaw : UInt16) :
    fromLeBytes typeRaw.toUInt8 (typeRaw >>> 8).toUInt8 = typeRaw := by
  have hlt := typeRaw.toNat_lt
  have hhigh : (typeRaw >>> 8).toNat = typeRaw.toNat / 2 ^ 8 := by
    rw [UInt16.toNat_shiftRight, Nat.shiftRight_eq_div_pow]
    rfl
  apply UInt16.toNat_inj.1
  rw [fromLeBytes, UInt16.toNat_or, UInt8.toNat_toUInt16, UInt16.toNat_toUInt8,
    UInt16.toNat_shiftLeft, UInt8.toNat_toUInt16, UInt16.toNat_toUInt8, hhigh,
    show (8 : UInt16).toNat % 16 = 8 from rfl, Nat.shiftLeft_eq, Nat.or_comm,
    Nat.mod_eq_of_lt (by omega),
    Nat.mul_comm, ← Nat.two_pow_add_eq_or_of_lt (Nat.mod_lt _ (by decide))]
  omega

/-- What `encode` appends is the encoding of the envelope, when the limit allows it. -/
theorem encodes_of_encode {maxLength : ℕ} {e : Envelope} {out bytes : List UInt8}
    (hmax : e.payload.length ≤ maxLength) (h : encode e.typeRaw e.payload out = some bytes) :
    ∃ c, bytes = out ++ c ∧ (decoder maxLength).Encodes e c := by
  obtain ⟨header, hheader, hbytes⟩ := Option.bind_eq_some_iff.1 h
  obtain ⟨c, rfl, hc⟩ := Varint.decode_encode hheader
  obtain rfl : _ = bytes := by simpa using hbytes
  refine ⟨c ++ toLeBytes e.typeRaw ++ e.payload, by simp only [List.append_assoc], ?_⟩
  refine parse_eq_some.2 ⟨e.payload.length, c.length, e.typeRaw.toUInt8,
    (e.typeRaw >>> 8).toUInt8, e.payload, ?_, hmax, ?_, le_rfl, ?_, ?_⟩
  · rw [List.append_assoc]
    exact Varint.decode_append _ hc
  · rw [List.append_assoc, List.drop_left]
    rfl
  · rw [fromLeBytes_toLeBytes, List.take_length]
  · rw [List.length_append, List.length_append]
    rfl

/-- `encode` only panics on a payload longer than any varint. -/
theorem encode_isSome {typeRaw : UInt16} {payload out : List UInt8} :
    (encode typeRaw payload out).isSome ↔ payload.length ≤ Varint.MAX := by
  rw [← @Varint.encode_isSome payload.length out, encode]
  cases Varint.encode payload.length out <;> simp

end Envelope

end Sardp
