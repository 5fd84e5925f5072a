import Sardp.Audio.FrameReader
import Sardp.Client.StreamDispatch
import Sardp.File.Sending
import Sardp.Server.Session
import Sardp.Video.InstanceIntro

/-!
# What the readers of the streams make of an envelope

The readers of the streams other than video read an envelope and look at its type
(`feedback_session.rs`, `input_session.rs`, `clipboard_session.rs`, `audio_session.rs`,
`file_transfer_session.rs`): a type they know is decoded, any other is an error. The loops of the
server and the client do the same with the control stream, but go on after any other type.

Every reader compares the type as a whole, flag included (`decodeOneOf`).
-/

namespace Sardp

open Framing

namespace TypeId

def TIME_SYNC_REQUEST : UInt16 := 0x0009
def TRANSPORT_FEEDBACK : UInt16 := 0x000B
def KEEP_ALIVE : UInt16 := 0x000C
def SESSION_CLOSE : UInt16 := 0x000D
def PERMISSION_UPDATE : UInt16 := 0x000F
def CLIPBOARD_REQUEST : UInt16 := 0x0012
def CLIPBOARD_DATA : UInt16 := 0x0013
def CLIPBOARD_ERROR : UInt16 := 0x0014
def FILE_TRANSFER_REQUEST : UInt16 := 0x0015
def AUDIO_SYNC_FEEDBACK : UInt16 := 0x001E
def KEY_EVENT : UInt16 := 0x001F
def TEXT_INPUT : UInt16 := 0x0020
def IME_COMPOSITION : UInt16 := 0x0021
def MOUSE_MOVE : UInt16 := 0x0022
def MOUSE_BUTTON : UInt16 := 0x0023
def WHEEL : UInt16 := 0x0024
def IME_MODE_CHANGE : UInt16 := 0x0025
def KEYFRAME_REQUEST : UInt16 := 0x0026

end TypeId

/-- The types that the readers of a stream of the kind tell from others. -/
def StreamKind.knownTypes : StreamKind → List UInt16
  | .control => [TypeId.TIME_SYNC_REQUEST, TypeId.KEEP_ALIVE, TypeId.SESSION_CLOSE,
      TypeId.PERMISSION_UPDATE, TypeId.FILE_TRANSFER_REQUEST]
  | .input => [TypeId.KEY_EVENT, TypeId.TEXT_INPUT, TypeId.IME_COMPOSITION, TypeId.MOUSE_MOVE,
      TypeId.MOUSE_BUTTON, TypeId.WHEEL, TypeId.IME_MODE_CHANGE]
  | .video => [TypeId.VIDEO_STREAM_GENERATION, TypeId.ENCODER_CONFIG, TypeId.VIDEO_FRAME_HEADER,
      TypeId.VIDEO_FRAME_PAYLOAD]
  | .feedback => [TypeId.TRANSPORT_FEEDBACK, TypeId.AUDIO_SYNC_FEEDBACK, TypeId.KEYFRAME_REQUEST]
  | .clipboard => [TypeId.CLIPBOARD_FORMATS, TypeId.CLIPBOARD_REQUEST, TypeId.CLIPBOARD_DATA,
      TypeId.CLIPBOARD_ERROR]
  | .file => [TypeId.FILE_CHUNK, TypeId.FILE_TRANSFER_COMPLETE]
  | .audioPlayback | .audioCapture => [TypeId.AUDIO_CONFIG, TypeId.AUDIO_FRAME_HEADER,
      TypeId.AUDIO_FRAME_PAYLOAD]

/-- Decoding an envelope by its type, if that is one of the table. -/
def decodeOneOf {ε A : Type} (unexpected : UInt16 → ε) (undecoded : ε)
    (table : List (UInt16 × (List UInt8 → Option A))) (env : UInt16 × List UInt8) : Except ε A :=
  match table.find? fun entry => entry.1 = env.1 with
  | none => .error (unexpected env.1)
  | some (_, decode) => (decode env.2).elim (.error undecoded) .ok

/-! ## Feedback -/

namespace Wire

/-- What the client tells of the frames it receives. -/
structure TransportFeedback where
  lastReceivedFrameId : ℕ
  lastDecodedFrameId : ℕ
  lastDisplayedFrameId : ℕ
  framesReceived : ℕ
  framesDropped : ℕ
  receiveBitrateBps : ℕ
  decodeDelayUs : ℕ
  displayDelayUs : ℕ
  targetLatencyUs : ℕ
  clientQueueDelayUs : ℕ
  deriving DecidableEq

/-- What the client tells of the audio it plays. -/
structure AudioSyncFeedback where
  audioPlayedTs : ℕ
  videoDisplayedTs : ℕ
  driftPpm : ℤ
  deriving DecidableEq

/-- A message on a feedback stream. -/
inductive FeedbackMessage
  | transport (feedback : TransportFeedback)
  | audioSync (feedback : AudioSyncFeedback)
  | keyframe (request : KeyframeRequest)

end Wire

/-- What the library makes of the bodies of the messages of a feedback stream. -/
structure FeedbackCodec where
  transport : List UInt8 → Option Wire.TransportFeedback
  audioSync : List UInt8 → Option Wire.AudioSyncFeedback
  keyframe : List UInt8 → Option KeyframeRequest

/-- Reading the next message of a feedback stream. -/
def FeedbackCodec.readMessage (codec : FeedbackCodec) :
    Async Unit EnvelopeRead ReadFeedbackError Wire.FeedbackMessage :=
  readAs .read (decodeOneOf .unexpectedType .decode
    [(TypeId.TRANSPORT_FEEDBACK, fun body => (codec.transport body).map .transport),
      (TypeId.AUDIO_SYNC_FEEDBACK, fun body => (codec.audioSync body).map .audioSync),
      (TypeId.KEYFRAME_REQUEST, fun body => (codec.keyframe body).map .keyframe)])

/-! ## Input -/

/-- Why no input could be read. -/
inductive ReadInputError
  | quic (e : Quinn.ConnectionError)
  | read (e : StreamReadError)
  | decode
  | wrongStreamKind
  | unexpectedType (typeRaw : UInt16)
  deriving DecidableEq

/-- What the library makes of the bodies of the messages of an input stream. -/
structure InputCodec where
  key : List UInt8 → Option KeyEvent
  text : List UInt8 → Option TextInput
  imeComposition : List UInt8 → Option ImeComposition
  mouseMove : List UInt8 → Option MouseMove
  mouseButton : List UInt8 → Option MouseButton
  wheel : List UInt8 → Option Wheel
  imeModeChange : List UInt8 → Option ImeModeChange

/-- Reading the next message of an input stream. -/
def InputCodec.readMessage (codec : InputCodec) :
    Async Unit EnvelopeRead ReadInputError InputMessage :=
  readAs .read (decodeOneOf .unexpectedType .decode
    [(TypeId.KEY_EVENT, fun body => (codec.key body).map .key),
      (TypeId.TEXT_INPUT, fun body => (codec.text body).map .text),
      (TypeId.IME_COMPOSITION, fun body => (codec.imeComposition body).map .imeComposition),
      (TypeId.MOUSE_MOVE, fun body => (codec.mouseMove body).map .mouseMove),
      (TypeId.MOUSE_BUTTON, fun body => (codec.mouseButton body).map .mouseButton),
      (TypeId.WHEEL, fun body => (codec.wheel body).map .wheel),
      (TypeId.IME_MODE_CHANGE, fun body => (codec.imeModeChange body).map .imeModeChange)])

/-! ## The clipboard -/

/-- What the library makes of the bodies of the messages of a clipboard stream. -/
structure ClipboardCodec where
  formats : List UInt8 → Option ClipboardFormats
  request : List UInt8 → Option ClipboardRequest
  data : List UInt8 → Option ClipboardData
  error : List UInt8 → Option ClipboardError

namespace ClipboardCodec

/-- A function that reads a clipboard stream. -/
abbrev Action (A : Type) := Async Unit EnvelopeRead ClipboardSessionError A

variable (codec : ClipboardCodec)

/-- Accepting the formats on a stream with the context, after its prologue. -/
def acceptClipboardFormats (contextId : ℕ) : Action ClipboardFormats := do
  let formats ← readAs .read (decodeOneOf .unexpectedType .decode
    [(TypeId.CLIPBOARD_FORMATS, codec.formats)])
  if formats.requestId ≠ contextId then
    .throw (.requestIdMismatch contextId formats.requestId)
  else return formats

/-- Waiting for the answer to a request. -/
def readResponse : Action (Except ClipboardError ClipboardData) :=
  readAs .read (decodeOneOf .unexpectedType .decode
    [(TypeId.CLIPBOARD_DATA, fun body => (codec.data body).map .ok),
      (TypeId.CLIPBOARD_ERROR, fun body => (codec.error body).map .error)])

/-- Reading the next request. -/
def readClipboardRequest : Action ClipboardRequest :=
  readAs .read (decodeOneOf .unexpectedType .decode
    [(TypeId.CLIPBOARD_REQUEST, codec.request)])

/-- The requester of a clipboard: the formats, and the answer to its request. -/
def accept (contextId : ℕ) : Action (ClipboardFormats ⊕ Except ClipboardError ClipboardData) := do
  return .inl (← codec.acceptClipboardFormats contextId)

def next : Action (ClipboardFormats ⊕ Except ClipboardError ClipboardData) := do
  return .inr (← codec.readResponse)

end ClipboardCodec

/-! ## Audio and video -/

/-- What the library makes of the bodies of the messages of an audio stream. -/
structure AudioStreamCodec where
  config : List UInt8 → Option Wire.AudioConfig
  frameHeader : List UInt8 → Option Wire.AudioFrameHeader

namespace AudioStreamCodec

variable (codec : AudioStreamCodec)

/-- The configuration, if that is what the envelope is. -/
def configOf (env : UInt16 × List UInt8) : Except AudioError Wire.AudioConfig :=
  if env.1 ≠ TypeId.AUDIO_CONFIG then
    .error (.protocolViolation ReasonCode.PROTOCOL_UNEXPECTED_MESSAGE)
  else (codec.config env.2).elim (.error .decode) .ok

/-- Accepting an audio stream after its prologue, and the frames of it. -/
def accept :
    AudioFrameReader.Action (Wire.AudioConfig ⊕ Wire.AudioFrameHeader × List UInt8) := do
  return .inl (← readAs .read codec.configOf)

def next : AudioFrameReader.Action (Wire.AudioConfig ⊕ Wire.AudioFrameHeader × List UInt8) := do
  return .inr (← AudioFrameReader.readNextFrame codec.frameHeader)

end AudioStreamCodec

namespace VideoCodec

variable (codec : VideoCodec)

/-- Accepting a video stream after its prologue, and the frames of it after the first. -/
def accept (streamPrologue : StreamPrologue) :
    VideoFrameReader.Action (VideoInstanceIntro ⊕ Wire.VideoFrameHeader × List UInt8) := do
  return .inl (← codec.readIntro streamPrologue)

def next :
    VideoFrameReader.Action (VideoInstanceIntro ⊕ Wire.VideoFrameHeader × List UInt8) := do
  return .inr (← VideoFrameReader.readNextFrame codec.frameHeader)

end VideoCodec

/-! ## Files -/

/-- What a wait for the next envelope of a file comes to; `none` when the time for it is up. -/
def FileEvent.ofWait (codec : FileCodec) :
    Option (Except StreamReadError (UInt16 × List UInt8)) → FileEvent
  | none => .stalled
  | some read => .ofEnvelope codec read

/-! ## Control -/

/-- What the library makes of the bodies of the messages of the client on the control stream. -/
structure ControlCodec where
  /-- The body is the one of a request for the time. -/
  timeSyncRequest : List UInt8 → Bool
  fileTransferRequest : List UInt8 → Option FileTransferRequest

/-- The message that an envelope of the client is to the loop of the server, with the file handle
    and the deadline that can be issued if it needs them. -/
def ControlCodec.message (codec : ControlCodec) (issued : Option (ℕ × ℕ))
    (env : UInt16 × List UInt8) : ControlMessage :=
  if env.1 = TypeId.TIME_SYNC_REQUEST then .timeSyncRequest (codec.timeSyncRequest env.2)
  else if env.1 = TypeId.SESSION_CLOSE then .sessionClose
  else if env.1 = TypeId.FILE_TRANSFER_REQUEST then
    .fileTransferRequest (codec.fileTransferRequest env.2) issued
  else .other

/-- What goes on in the loop of the server, with the envelopes of the control stream as they are. -/
inductive ControlledEvent
  | control (read : Except StreamReadError (UInt16 × List UInt8)) (issued : Option (ℕ × ℕ))
      (written : Written)
  | other (e : LoopEvent)

/-- The round of the loop. -/
def ControlCodec.round (codec : ControlCodec) : ControlledEvent → LoopEvent
  | .control read issued written => .control (read.map (codec.message issued)) written
  | .other e => e

/-- What an envelope of the server, or a failure to read one, ends the loop of the client with;
    after everything else the loop goes on, if it prints something. -/
def clientControl : Except StreamReadError (UInt16 × List UInt8) → Option (Except AppError Unit)
  | .error e => some (.error (.read e))
  | .ok (typeRaw, _) => if typeRaw = TypeId.SESSION_CLOSE then some (.ok ()) else none

end Sardp
