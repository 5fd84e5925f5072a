import Sardp.Server.ConnError
import Sardp.Wire.FrameMessages
import Sardp.Wire.MediaFormats

/-!
# Reading audio frames

An `AudioFrameReader` (`audio_session.rs`) reads the frames of an audio stream, one after the
other. A header that has been read is held by the future alone, so that dropping the future
while it waits for the payload loses the header, and the next call takes the payload for one.

A future may be dropped wherever it waits for a header. Where it waits for a payload it may only
if what has arrived of the next envelope rules out that this is a frame's
(`AudioFrameReader.harmless_iff`), so that a loop gets the frames it would have got if left alone
exactly as long as none is dropped elsewhere (`AudioFrameReader.faithful_iff`).
-/

namespace Sardp

open Framing

namespace AudioFrameReader

variable (decode : List UInt8 → Option Wire.AudioFrameHeader)

/-- The header of a frame, if that is what the envelope is. -/
def headerOf (env : UInt16 × List UInt8) : Except AudioError Wire.AudioFrameHeader :=
  if env.1 ≠ TypeId.AUDIO_FRAME_HEADER then
    .error (.protocolViolation ReasonCode.PROTOCOL_UNEXPECTED_MESSAGE)
  else (decode env.2).elim (.error .decode) .ok

/-- The frame with the header, if the envelope is its payload. -/
def frameOf (header : Wire.AudioFrameHeader) (env : UInt16 × List UInt8) :
    Except AudioError (Wire.AudioFrameHeader × List UInt8) :=
  if env.1 ≠ TypeId.AUDIO_FRAME_PAYLOAD then
    .error (.protocolViolation ReasonCode.PROTOCOL_UNEXPECTED_MESSAGE)
  else if env.2.length ≠ header.payloadLen then .error .frameLengthMismatch
  else .ok (header, env.2)

/-- A function of a reader, which keeps nothing but the stream. -/
abbrev Action (α : Type) := Async Unit EnvelopeRead AudioError α

/-- A loop of calls of a reader. -/
abbrev FrameLoop :=
  Loop Unit UInt8 EnvelopeRead AudioError (Wire.AudioFrameHeader × List UInt8)

/-- Reading the payload of the frame with the header. -/
def readPayload (header : Wire.AudioFrameHeader) :
    Action (Wire.AudioFrameHeader × List UInt8) := do
  ofExcept (frameOf header (← readEnvelope .read))

/-- Reading the next frame: its header and its payload. -/
def readNextFrame : Action (Wire.AudioFrameHeader × List UInt8) := do
  let header ← ofExcept (headerOf decode (← readEnvelope .read))
  readPayload header

/-- The decoder of the envelopes of a stream of the kind. -/
abbrev decoder (kind : StreamKind) : Decoder UInt8 Envelope Envelope.EnvelopeError :=
  Envelope.decoder kind.maxEnvelopeLength

/-- What has arrived can go on to be an envelope of a frame: a header or a payload. -/
def MayBeFrame (kind : StreamKind) (buf : List UInt8) : Prop :=
  ∃ more env, (decoder kind).Encodes env (buf ++ more) ∧
    (env.typeRaw = TypeId.AUDIO_FRAME_HEADER ∨ env.typeRaw = TypeId.AUDIO_FRAME_PAYLOAD)

variable {decode} {kind : StreamKind} {buf : List UInt8} {header : Wire.AudioFrameHeader}
  {l l' : FrameLoop} {e : CallEvent UInt8} {es : List (CallEvent UInt8)}

/-! ## Where futures wait -/

/-- The future waits for a header, or for a payload. -/
def AtRead (decode : List UInt8 → Option Wire.AudioFrameHeader)
    (p : Action (Wire.AudioFrameHeader × List UInt8)) : Prop :=
  p = readNextFrame decode ∨ ∃ header, p = readPayload header

theorem poll_readPayload (header : Wire.AudioFrameHeader) (buf : List UInt8) :
    (∃ result, ((readPayload header).poll (decoder kind) () buf).1 = .done result) ∨
      AtRead decode ((readPayload header).poll (decoder kind) () buf).1 := by
  rw [readPayload, decoder, poll_readEnvelope_bind]
  split
  · exact .inl ⟨_, rfl⟩
  · exact .inl ⟨_, rfl⟩
  · exact .inr (.inr ⟨header, rfl⟩)

/-- Reading comes to an end, or to a wait for a header or a payload. -/
theorem AtRead.poll {p : Action (Wire.AudioFrameHeader × List UInt8)} (h : AtRead decode p)
    (buf : List UInt8) : (∃ result, (p.poll (decoder kind) () buf).1 = .done result) ∨
      AtRead decode (p.poll (decoder kind) () buf).1 := by
  rcases h with rfl | ⟨header, rfl⟩
  · rw [readNextFrame, decoder, poll_readEnvelope_bind]
    split
    · next env n _ =>
      cases hheader : headerOf decode (env.typeRaw, env.payload) with
      | error e => exact .inl ⟨.error e, rfl⟩
      | ok header => exact poll_readPayload header (buf.drop n)
    · exact .inl ⟨_, rfl⟩
    · exact .inr (.inl rfl)
  · exact poll_readPayload header buf

/-- A future that waits, waits for a header or a payload. -/
def WaitsAtRead (decode : List UInt8 → Option Wire.AudioFrameHeader) (l : FrameLoop) : Prop :=
  ∀ p, l.future = some p → AtRead decode p

theorem AtRead.settle {p : Action (Wire.AudioFrameHeader × List UInt8)} (h : AtRead decode p)
    (l : FrameLoop) (buf : List UInt8) :
    WaitsAtRead decode (l.settle (p.poll (decoder kind) () buf)) := by
  intro p' hp'
  rcases Loop.settle_cases (d := decoder kind) l p () buf with ⟨result, -, hsettle⟩ | ⟨hne, hsettle⟩
  · rw [hsettle] at hp'
    cases hp'
  · rw [hsettle] at hp'
    cases hp'
    exact (h.poll buf).resolve_left fun ⟨result, hdone⟩ => hne result hdone

theorem WaitsAtRead.step (h : WaitsAtRead decode l)
    (hstep : l.step (decoder kind) (readNextFrame decode) e = some l') : WaitsAtRead decode l' := by
  cases e with
  | call =>
    obtain ⟨-, -, rfl⟩ := Loop.step_call hstep
    exact AtRead.settle (.inl rfl) l l.buf
  | chunk c =>
    obtain ⟨p, hp, rfl⟩ := Loop.step_chunk hstep
    exact (h p hp).settle l _
  | reissue =>
    obtain ⟨p, -, rfl⟩ := Loop.step_reissue hstep
    exact AtRead.settle (.inl rfl) l l.buf

/-! ## What is lost -/

theorem exec_readPayload (header : Wire.AudioFrameHeader) (r : EnvelopeReader) :
    (readPayload header).exec (decoder kind) () r =
      match r.readEnvelope kind.maxEnvelopeLength with
      | (.ok env, r') => (frameOf header env, (), r')
      | (.error e, r') => (.error (.read e), (), r') := by
  rw [readPayload, decoder, exec_readEnvelope_bind]
  rfl

theorem exec_readNextFrame (r : EnvelopeReader) :
    (readNextFrame decode).exec (decoder kind) () r =
      match r.readEnvelope kind.maxEnvelopeLength with
      | (.ok env, r') =>
        match headerOf decode env with
        | .ok header => (readPayload header).exec (decoder kind) () r'
        | .error e => (.error e, (), r')
      | (.error e, r') => (.error (.read e), (), r') := by
  rw [readNextFrame, decoder, exec_readEnvelope_bind]
  generalize r.readEnvelope kind.maxEnvelopeLength = x
  obtain ⟨result, r'⟩ := x
  cases result with
  | error e => rfl
  | ok env =>
    dsimp only
    cases headerOf decode env with
    | error e => rfl
    | ok header => rfl

/-- An envelope of another type is refused as a header and as a payload alike. -/
theorem exec_of_not_frame (h : ¬MayBeFrame kind buf) (hbuf : (decoder kind).decode buf = .ok none)
    (header : Wire.AudioFrameHeader) (source : RecvStream) :
    ∃ e r, (readPayload header).exec (decoder kind) () ⟨source, buf⟩ = (.error e, r) ∧
      (readNextFrame decode).exec (decoder kind) () ⟨source, buf⟩ = (.error e, r) := by
  rw [exec_readPayload, exec_readNextFrame, EnvelopeReader.readEnvelope]
  cases hnext : Reader.next (decoder kind) ⟨source, buf⟩ with
  | mk result r =>
    cases result with
    | error e => exact ⟨_, _, rfl, rfl⟩
    | ok env =>
      obtain ⟨more, n, hdecode⟩ := Reader.decode_of_next hnext
      obtain ⟨more', hencodes⟩ := (Envelope.tight_decoder _).encodes_append hbuf hdecode
      have hheader : env.typeRaw ≠ TypeId.AUDIO_FRAME_HEADER := fun htype =>
        h ⟨more', env, hencodes, .inl htype⟩
      have hpayload : env.typeRaw ≠ TypeId.AUDIO_FRAME_PAYLOAD := fun htype =>
        h ⟨more', env, hencodes, .inr htype⟩
      refine ⟨.protocolViolation ReasonCode.PROTOCOL_UNEXPECTED_MESSAGE, ((), r), ?_, ?_⟩
      · simp [Except.map, Except.mapError, frameOf, hpayload]
      · simp [Except.map, Except.mapError, headerOf, hheader]

/-- Where an envelope of a frame may come, it is not the same to take it for a header and for a
    payload. -/
theorem exec_ne_of_mayBeFrame (h : MayBeFrame kind buf)
    (hbuf : (decoder kind).decode buf = .ok none) (header : Wire.AudioFrameHeader) :
    ∃ source, ((readPayload header).exec (decoder kind) () ⟨source, buf⟩).1 ≠
      ((readNextFrame decode).exec (decoder kind) () ⟨source, buf⟩).1 := by
  obtain ⟨more, env, hencodes, htype⟩ := h
  have hne : more ≠ [] := by
    rintro rfl
    rw [List.append_nil] at hencodes
    cases hbuf.symm.trans hencodes
  -- the rest of the envelope arrives, and then the stream is finished
  refine ⟨⟨[⟨more, hne⟩], none⟩, ?_⟩
  have hnext : Reader.next (decoder kind) ⟨⟨[⟨more, hne⟩], none⟩, buf⟩ =
      (.ok env, (⟨⟨[], none⟩, []⟩ : EnvelopeReader)) := by
    rw [Reader.next_of_decode_none hbuf, Reader.next_of_decode hencodes, List.drop_length]
  have hread : EnvelopeReader.readEnvelope ⟨⟨[⟨more, hne⟩], none⟩, buf⟩ kind.maxEnvelopeLength =
      (.ok (env.typeRaw, env.payload), ⟨⟨[], none⟩, []⟩) := by
    rw [EnvelopeReader.readEnvelope, hnext]
    rfl
  have hends : EnvelopeReader.readEnvelope ⟨⟨[], none⟩, []⟩ kind.maxEnvelopeLength =
      (.error .closedEarly, ⟨⟨[], none⟩, []⟩) := rfl
  simp only [exec_readPayload, exec_readNextFrame, hread]
  rcases htype with htype | htype
  · -- a header: refused as a payload, but not as a header
    have hframe : frameOf header (env.typeRaw, env.payload) =
        .error (.protocolViolation ReasonCode.PROTOCOL_UNEXPECTED_MESSAGE) := by
      rw [frameOf, htype]
      rfl
    rw [hframe]
    cases hbody : decode env.payload with
    | none => simp [headerOf, htype, hbody]
    | some header => simp [headerOf, htype, hbody, hends]
  · -- a payload: refused as a header, but not as a payload
    have hheader : headerOf decode (env.typeRaw, env.payload) =
        .error (.protocolViolation ReasonCode.PROTOCOL_UNEXPECTED_MESSAGE) := by
      rw [headerOf, htype]
      rfl
    rw [hheader]
    by_cases hlen : env.payload.length = header.payloadLen <;> simp [frameOf, htype, hlen]

/-- A future may be dropped exactly if it waits for no payload, or for one that cannot come. -/
theorem harmless_iff (hwait : l.Waiting (decoder kind)) (hread : WaitsAtRead decode l) :
    l.Harmless (decoder kind) (readNextFrame decode) ↔
      ∀ header, l.future = some (readPayload header) → ¬MayBeFrame kind l.buf := by
  constructor
  · intro h header hfuture hframe
    obtain ⟨hsettled, -⟩ := hwait _ hfuture
    obtain ⟨source, hne⟩ := @exec_ne_of_mayBeFrame decode _ _ hframe hsettled header
    have hone := h source 1
    rw [hfuture, Option.getD_some] at hone
    refine hne ?_
    have hhead : ∀ p : Action (Wire.AudioFrameHeader × List UInt8),
        (Async.results (decoder kind) (readNextFrame decode) 1 p l.state ⟨source, l.buf⟩).head? =
          some (p.exec (decoder kind) () ⟨source, l.buf⟩).1 := by
      intro p
      rw [Async.results]
      split <;> next heq => rw [show l.state = () from rfl] at heq; rw [heq]; rfl
    exact Option.some.inj ((hhead _).symm.trans ((congrArg List.head? hone).symm.trans (hhead _)))
  · intro h source n
    cases hfuture : l.future with
    | none => rfl
    | some p =>
      rcases hread p hfuture with rfl | ⟨header, rfl⟩
      · rfl
      · obtain ⟨hsettled, -⟩ := hwait _ hfuture
        obtain ⟨e, r, hpayload, hnext⟩ := @exec_of_not_frame decode _ _ (h header hfuture)
          hsettled header source
        cases n with
        | zero => rfl
        | succ n =>
          rw [Option.getD_some, Async.results, Async.results]
          simp only [hpayload, hnext]

/-- Whatever the stream is cut into, a loop gets the frames and the error it would have got if no
    future had been dropped, exactly as long as none is dropped where it waits for a payload, or
    only after the beginning of an envelope of some other type. -/
theorem faithful_iff {es : List (CallEvent UInt8)} :
    (∀ es', es' <+: es → ∀ l,
      (Loop.machine (decoder kind) (readNextFrame decode)).run (.start () buf) es' = some l →
        Loop.Faithful (decoder kind) (readNextFrame decode) (.start () buf) es' l) ↔
    ∀ es', es' ++ [.reissue] <+: es → ∀ l,
      (Loop.machine (decoder kind) (readNextFrame decode)).run (.start () buf) es' = some l →
        ∀ header, l.future = some (readPayload header) → ¬MayBeFrame kind l.buf := by
  refine Loop.faithful_iff_harmless.trans (forall₄_congr fun es' _ l hl => ?_)
  refine harmless_iff ((Loop.waiting_start () buf).run hl) ?_
  exact Machine.run_invariant (fun _ _ _ h hstep => h.step hstep) (fun p hp => by cases hp) hl

/-- A future dropped between a header and its payload: the payload is taken for a header, and ends
    the stream. -/
theorem header_lost :
    let header : Wire.AudioFrameHeader := ⟨0, 0, 20000, 2⟩
    let headerBytes : Chunk UInt8 := ⟨[0x33, 0x1C, 0] ++ header.encode, List.cons_ne_nil _ _⟩
    let payloadBytes : Chunk UInt8 := ⟨[2, 0x1D, 0] ++ [7, 8], List.cons_ne_nil _ _⟩
    let run := (Loop.machine (decoder .audioPlayback)
      (readNextFrame Wire.AudioFrameHeader.format.readWhole)).run (.start () [])
    Envelope.encode TypeId.AUDIO_FRAME_HEADER header.encode [] = some headerBytes.1 ∧
      Envelope.encode TypeId.AUDIO_FRAME_PAYLOAD [7, 8] [] = some payloadBytes.1 ∧
      (run [.call, .chunk headerBytes, .chunk payloadBytes]).map (·.results) =
        some [.ok (header, [7, 8])] ∧
      (run [.call, .chunk headerBytes, .reissue, .chunk payloadBytes]).map (·.results) =
        some [.error (.protocolViolation ReasonCode.PROTOCOL_UNEXPECTED_MESSAGE)] := by
  refine ⟨by decide +kernel, by decide +kernel, ?_, ?_⟩
  · rfl
  · rfl

end AudioFrameReader

end Sardp
