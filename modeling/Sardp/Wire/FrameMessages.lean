import Sardp.Library.Cancellation
import Sardp.Messages
import Sardp.Wire.StreamReader

/-!
# The messages of frames

A frame of video or audio is two envelopes on its stream: a header, and right after it the payload
(`messages.rs`). The bodies of the messages are encoded by a library outside the repository, so
what it makes of the bytes is a parameter wherever a message is read.

A frame is read by a function that may have to wait for either envelope: `readEnvelope` is
`EnvelopeReader.readEnvelope` as one step of such a function (`exec_readEnvelope`).
-/

namespace Sardp

namespace TypeId

def VIDEO_STREAM_GENERATION : UInt16 := 0x0005
def ENCODER_CONFIG : UInt16 := 0x0006
def VIDEO_FRAME_HEADER : UInt16 := 0x0007
def VIDEO_FRAME_PAYLOAD : UInt16 := 0x0008
def AUDIO_CONFIG : UInt16 := 0x001B
def AUDIO_FRAME_HEADER : UInt16 := 0x001C
def AUDIO_FRAME_PAYLOAD : UInt16 := 0x001D

end TypeId

namespace Wire

/-- The first message of a video stream. -/
structure VideoStreamGeneration where
  generation : ℕ
  configId : ℕ
  deriving DecidableEq

/-- The codecs of video. -/
inductive Codec
  | h264
  deriving DecidableEq

/-- The resolutions of the chroma channels. -/
inductive ChromaFormat
  | c420
  | c422
  | c444
  deriving DecidableEq

/-- The second message of a video stream. -/
structure EncoderConfig where
  codec : Codec
  profile : ℕ
  chromaFormat : ChromaFormat
  bitDepth : ℕ
  width : ℕ
  height : ℕ
  maxFps : ℕ
  tier : ℕ
  bFrames : ℕ
  serverCursorExcludable : Bool
  deriving DecidableEq

/-- The header of a video frame, in full. -/
structure VideoFrameHeader where
  generation : ℕ
  /-- The number of the frame within the generation, from 0. -/
  frameId : ℕ
  configId : ℕ
  flags : UInt8
  captureTs : ℕ
  encodeDoneTs : ℕ
  width : ℕ
  height : ℕ
  /-- The length of the payload that follows. -/
  payloadLen : ℕ
  deriving DecidableEq

/-- The flag of a frame that needs no other. -/
def VIDEO_FRAME_FLAG_IDR : UInt8 := 0x01

/-- The frame needs no other. -/
def VideoFrameHeader.isIdr (header : VideoFrameHeader) : Bool :=
  header.flags &&& VIDEO_FRAME_FLAG_IDR != 0

/-- The codecs of audio. -/
inductive AudioCodec
  | opus
  deriving DecidableEq

/-- The first message of an audio stream. -/
structure AudioConfig where
  codec : AudioCodec
  sampleRate : ℕ
  channels : ℕ
  frameDurationMs : ℕ
  deriving DecidableEq

/-- The header of an audio frame. -/
structure AudioFrameHeader where
  sequence : ℕ
  captureTs : ℕ
  durationUs : ℕ
  /-- The length of the payload that follows. -/
  payloadLen : ℕ
  deriving DecidableEq

end Wire

/-! ## Reading as an asynchronous function -/

open Framing

/-- What a read of an envelope gives. -/
abbrev EnvelopeRead := Except (ReadError Quinn.ReadError Envelope.EnvelopeError) Envelope

/-- What the envelope or the failure of a read is to a caller of `readEnvelope`. -/
def EnvelopeRead.toResult (result : EnvelopeRead) :
    Except StreamReadError (UInt16 × List UInt8) :=
  (result.map fun env => (env.typeRaw, env.payload)).mapError (.ofReadError .envelope)

variable {σ ε α : Type}

/-- Waiting for the next envelope: its type and its payload. -/
def readEnvelope (ofRead : StreamReadError → ε) :
    Async σ EnvelopeRead ε (UInt16 × List UInt8) :=
  .read fun result => .done (result.toResult.mapError ofRead)

/-- A computation that does not wait, as a step. -/
def ofExcept (result : Except ε α) : Async σ EnvelopeRead ε α := .done result

variable {maxLength : ℕ} {ofRead : StreamReadError → ε} {s : σ} {α' : Type}

/-- What waits for an envelope goes on with the one that is read, or fails with the read. -/
theorem exec_readEnvelope_bind (k : UInt16 × List UInt8 → Async σ EnvelopeRead ε α)
    (r : EnvelopeReader) :
    (readEnvelope ofRead >>= k).exec (Envelope.decoder maxLength) s r =
      match r.readEnvelope maxLength with
      | (.ok env, r') => (k env).exec (Envelope.decoder maxLength) s r'
      | (.error e, r') => (.error (ofRead e), s, r') := by
  have hexec : (readEnvelope ofRead >>= k).exec (Envelope.decoder maxLength) s r =
      Async.exec _ (Async.bind (.done ((EnvelopeRead.toResult
        (r.next (Envelope.decoder maxLength)).1).mapError ofRead)) k) s
          (r.next (Envelope.decoder maxLength)).2 := rfl
  rw [hexec, EnvelopeReader.readEnvelope]
  generalize r.next (Envelope.decoder maxLength) = x
  obtain ⟨result, r'⟩ := x
  cases result with
  | error e => rfl
  | ok env => rfl

/-- As far as the buffer goes, what waits for an envelope goes on if the envelope is complete, and
    waits otherwise. -/
theorem poll_readEnvelope_bind (k : UInt16 × List UInt8 → Async σ EnvelopeRead ε α)
    (buf : List UInt8) :
    (readEnvelope ofRead >>= k).poll (Envelope.decoder maxLength) s buf =
      match Envelope.parse buf maxLength with
      | .ok (some (env, n)) =>
        (k (env.typeRaw, env.payload)).poll (Envelope.decoder maxLength) s (buf.drop n)
      | .error e => (.done (.error (ofRead (.envelope e))), s, buf)
      | .ok none => (readEnvelope ofRead >>= k, s, buf) := by
  have hdecode : (Envelope.decoder maxLength).decode buf = Envelope.parse buf maxLength := rfl
  show Async.poll _ (.read fun _ => Async.bind _ _) s buf = _
  rw [Async.poll, hdecode]
  cases Envelope.parse buf maxLength with
  | error e => rfl
  | ok result =>
    cases result with
    | none => rfl
    | some fn => rfl

end Sardp
