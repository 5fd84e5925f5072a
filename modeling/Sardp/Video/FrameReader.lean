import Sardp.Server.ConnError
import Sardp.Wire.FrameMessages

/-!
# Reading video frames

A `VideoFrameReader` (`video_session.rs`) reads the frames of a video stream, one after the other.
A header that has been read is parked in the reader until its payload has been, so that a call
after a future that was dropped goes on where that one was waiting
(`VideoFrameReader.restartable_readNextFrame`): whatever futures are dropped, the frames and the
error at the end are those of a reader that is left alone
(`VideoFrameReader.faithful_of_run`).
-/

namespace Sardp

open Framing

namespace VideoFrameReader

variable (decode : List UInt8 → Option Wire.VideoFrameHeader)

/-- The header of a frame, if that is what the envelope is. -/
def headerOf (env : UInt16 × List UInt8) : Except VideoError Wire.VideoFrameHeader :=
  if env.1 ≠ TypeId.VIDEO_FRAME_HEADER then
    .error (.protocolViolation ReasonCode.PROTOCOL_UNEXPECTED_MESSAGE)
  else (decode env.2).elim (.error .decode) .ok

/-- The frame with the header, if the envelope is its payload. -/
def frameOf (header : Wire.VideoFrameHeader) (env : UInt16 × List UInt8) :
    Except VideoError (Wire.VideoFrameHeader × List UInt8) :=
  if env.1 ≠ TypeId.VIDEO_FRAME_PAYLOAD then
    .error (.protocolViolation ReasonCode.PROTOCOL_UNEXPECTED_MESSAGE)
  else if env.2.length ≠ header.payloadLen then .error .frameLengthMismatch
  else .ok (header, env.2)

/-- A function of a reader, whose state is the header that is parked, if there is one. -/
abbrev Action (α : Type) := Async (Option Wire.VideoFrameHeader) EnvelopeRead VideoError α

/-- Taking the parked header. -/
def takePendingHeader : Action (Option Wire.VideoFrameHeader) :=
  .get fun pendingHeader => .set none (pure pendingHeader)

/-- Reading the payload of the frame whose header is parked. -/
def readPayload (header : Wire.VideoFrameHeader) :
    Action (Wire.VideoFrameHeader × List UInt8) := do
  let env ← readEnvelope .read
  -- nobody else takes the header that has been parked
  let header := (← takePendingHeader).getD header
  ofExcept (frameOf header env)

/-- Reading the next frame: its header, unless that is parked, and its payload. -/
def readNextFrame : Action (Wire.VideoFrameHeader × List UInt8) := do
  let header ← match ← takePendingHeader with
    | some header => pure header
    | none => do ofExcept (headerOf decode (← readEnvelope .read))
  -- the future may be dropped while it waits for the payload
  Async.set (some header) (readPayload header)

/-- The decoder of the envelopes of a video stream. -/
abbrev decoder : Decoder UInt8 Envelope Envelope.EnvelopeError :=
  Envelope.decoder StreamKind.video.maxEnvelopeLength

variable {decode}

/-- Reading a payload waits with the header parked, or comes to an end. -/
theorem poll_readPayload (header : Wire.VideoFrameHeader) (buf : List UInt8) :
    (∃ result, ((readPayload header).poll decoder (some header) buf).1 = .done result) ∨
      (readPayload header).poll decoder (some header) buf =
        (readPayload header, some header, buf) := by
  rw [readPayload, decoder, poll_readEnvelope_bind]
  split
  · exact .inl ⟨_, rfl⟩
  · exact .inl ⟨_, rfl⟩
  · exact .inr rfl

/-- With a header parked, reading a frame waits for its payload, or comes to an end. -/
theorem poll_readNextFrame_some (header : Wire.VideoFrameHeader) (buf : List UInt8) :
    (∃ result, ((readNextFrame decode).poll decoder (some header) buf).1 = .done result) ∨
      (readNextFrame decode).poll decoder (some header) buf =
        (readPayload header, some header, buf) :=
  poll_readPayload header buf

/-- Without one, it begins with the header. -/
theorem poll_readNextFrame_none (buf : List UInt8) :
    (readNextFrame decode).poll decoder none buf =
      (readEnvelope .read >>= fun env => Async.bind (ofExcept (headerOf decode env))
        fun header => .set (some header) (readPayload header)).poll decoder none buf := rfl

theorem exec_readPayload (header : Wire.VideoFrameHeader) (r : EnvelopeReader) :
    (readPayload header).exec decoder (some header) r =
      match r.readEnvelope StreamKind.video.maxEnvelopeLength with
      | (.ok env, r') => (frameOf header env, none, r')
      | (.error e, r') => (.error (.read e), some header, r') := by
  rw [readPayload, decoder, exec_readEnvelope_bind]
  rfl

theorem exec_readNextFrame_none (r : EnvelopeReader) :
    (readNextFrame decode).exec decoder none r =
      match r.readEnvelope StreamKind.video.maxEnvelopeLength with
      | (.ok env, r') =>
        match headerOf decode env with
        | .ok header => (readPayload header).exec decoder (some header) r'
        | .error e => (.error e, none, r')
      | (.error e, r') => (.error (.read e), none, r') := by
  have hbind : (readNextFrame decode).exec decoder none r =
      (readEnvelope .read >>= fun env => Async.bind (ofExcept (headerOf decode env))
        fun header => .set (some header) (readPayload header)).exec decoder none r := rfl
  rw [hbind, decoder, exec_readEnvelope_bind]
  generalize r.readEnvelope StreamKind.video.maxEnvelopeLength = x
  obtain ⟨result, r'⟩ := x
  cases result with
  | error e => rfl
  | ok env =>
    dsimp only
    cases headerOf decode env with
    | error e => rfl
    | ok header => rfl

/-- A call comes to an end, or waits where a new call comes to wait. -/
theorem restartable_readNextFrame : (readNextFrame decode).Restartable decoder := by
  intro pendingHeader buf
  cases pendingHeader with
  | some header =>
    -- waiting for the payload
    rcases @poll_readNextFrame_some decode header buf with hdone | hwait
    · exact .inl hdone
    · exact .inr (by rw [hwait]; exact hwait)
  | none =>
    have hnone := @poll_readNextFrame_none decode buf
    rw [decoder, poll_readEnvelope_bind] at hnone
    split at hnone
    · next env n hparse =>
      cases hheader : headerOf decode (env.typeRaw, env.payload) with
      | error e =>
        rw [hheader] at hnone
        exact .inl ⟨.error e, congrArg Prod.fst hnone⟩
      | ok header =>
        -- the header is read and parked, so a new call goes on with the payload
        rw [hheader] at hnone
        have hsome : (readNextFrame decode).poll decoder none buf =
          (readNextFrame decode).poll decoder (some header) (buf.drop n) := hnone
        rw [hsome]
        rcases @poll_readNextFrame_some decode header (buf.drop n) with hdone | hwait
        · exact .inl hdone
        · exact .inr (by rw [hwait]; exact hwait)
    · exact .inl ⟨_, congrArg Prod.fst hnone⟩
    · -- waiting for the header
      refine .inr ?_
      have hstate : ((readNextFrame decode).poll decoder none buf).2 = (none, buf) := by rw [hnone]
      rw [hstate]

/-- Whatever the stream is cut into, and whatever futures of `readNextFrame` are dropped where they
    wait, the frames and the error at the end are those of the run in which none is. -/
theorem faithful_of_run {pendingHeader : Option Wire.VideoFrameHeader} {buf : List UInt8}
    {es : List (CallEvent UInt8)}
    {l : Loop (Option Wire.VideoFrameHeader) UInt8 EnvelopeRead VideoError
      (Wire.VideoFrameHeader × List UInt8)}
    (h : (Loop.machine decoder (readNextFrame decode)).run (.start pendingHeader buf) es = some l) :
    Loop.Faithful decoder (readNextFrame decode) (.start pendingHeader buf) es l :=
  restartable_readNextFrame.faithful h

/-- A future dropped within the header of a frame, and one between the header and the payload. -/
theorem faithful_of_run_dropped :
    let decode : List UInt8 → Option Wire.VideoFrameHeader :=
      fun body => some ⟨0, 0, 0, 1, 0, 0, 0, 0, body.length⟩
    let es : List (CallEvent UInt8) := [.call, .chunk ⟨[2, 7], by decide⟩, .reissue,
      .chunk ⟨[0, 0, 0], by decide⟩, .reissue, .chunk ⟨[2, 8, 0, 5, 6], by decide⟩]
    ∃ l, (Loop.machine decoder (readNextFrame decode)).run (.start none []) es = some l ∧
      l.results = [.ok (⟨0, 0, 0, 1, 0, 0, 0, 0, 2⟩, [5, 6])] ∧
      Loop.Faithful decoder (readNextFrame decode) (.start none []) es l :=
  ⟨_, rfl, rfl, faithful_of_run rfl⟩

end VideoFrameReader

end Sardp
