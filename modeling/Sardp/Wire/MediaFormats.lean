import Sardp.Library.CborFormats
import Sardp.Wire.Bodies

/-!
# What is written on streams of media

The bodies of the messages that streams of video and audio begin with, and the formats of these and
of the headers of frames (`messages.rs`).
-/

namespace Sardp

open Cbor

/-- A byte as a number. -/
def byteFormat : Format UInt8 UInt8 :=
  uintFormat.iso (fun n => some (UInt8.ofNat n)) UInt8.toNat fun b => by simp

namespace Wire

/-! ## The first messages -/

def VideoStreamGeneration.encode (message : VideoStreamGeneration) : List UInt8 :=
  record [("generation", uint message.generation), ("config_id", uint message.configId)]

/-- The name of a case. -/
def Codec.name : Codec → String
  | h264 => "H264"

/-- The name of a case. -/
def ChromaFormat.name : ChromaFormat → String
  | c420 => "C420"
  | c422 => "C422"
  | c444 => "C444"

def EncoderConfig.encode (config : EncoderConfig) : List UInt8 :=
  record [("codec", text config.codec.name), ("profile", uint config.profile),
    ("chroma_format", text config.chromaFormat.name), ("bit_depth", uint config.bitDepth),
    ("width", uint config.width), ("height", uint config.height), ("max_fps", uint config.maxFps),
    ("tier", uint config.tier), ("b_frames", uint config.bFrames),
    ("server_cursor_excludable", bool config.serverCursorExcludable)]

theorem VideoStreamGeneration.length_encode_le (message : VideoStreamGeneration) :
    message.encode.length ≤ 40 :=
  length_record_le (k := 22) (m := 9) rfl (by simp [headLen_le])

theorem EncoderConfig.length_encode_le (config : EncoderConfig) : config.encode.length ≤ 190 := by
  refine length_record_le (k := 100) (m := 9) rfl ?_
  have hcodec : headLen config.codec.name.utf8ByteSize + config.codec.name.utf8ByteSize ≤ 9 := by
    cases config.codec
    decide
  have hchroma : headLen config.chromaFormat.name.utf8ByteSize +
      config.chromaFormat.name.utf8ByteSize ≤ 9 := by
    cases config.chromaFormat <;> decide
  have hexcludable : (bool config.serverCursorExcludable).length ≤ 9 := by
    cases config.serverCursorExcludable <;> decide
  simp [headLen_le, hcodec, hchroma, hexcludable]

/-- The name of a case. -/
def AudioCodec.name : AudioCodec → String
  | opus => "Opus"

def AudioConfig.encode (config : AudioConfig) : List UInt8 :=
  record [("codec", text config.codec.name), ("sample_rate", uint config.sampleRate),
    ("channels", uint config.channels), ("frame_duration_ms", uint config.frameDurationMs)]

/-! ## Formats -/

/-- The case with a name. -/
def Codec.ofName (name : String) : Option Codec := [h264].find? fun codec => codec.name = name

/-- The case with a name. -/
def ChromaFormat.ofName (name : String) : Option ChromaFormat :=
  [c420, c422, c444].find? fun format => format.name = name

/-- The case with a name. -/
def AudioCodec.ofName (name : String) : Option AudioCodec :=
  [opus].find? fun codec => codec.name = name

def VideoStreamGeneration.format : Format UInt8 VideoStreamGeneration :=
  Format.withWrite (recordFormat 2 <|
    ((field "generation" uintFormat).pair (field "config_id" uintFormat)).iso
      (fun (generation, configId) => some ⟨generation, configId⟩)
      (fun message => (message.generation, message.configId)) fun _ => rfl)
    encode fun message => by simp [encode, record]

theorem VideoStreamGeneration.fits_iff {message : VideoStreamGeneration} :
    format.Fits message ↔ message.generation < 2 ^ 64 ∧ message.configId < 2 ^ 64 := Iff.rfl

def EncoderConfig.format : Format UInt8 EncoderConfig :=
  Format.withWrite (recordFormat 10 <|
    ((field "codec" (caseFormat Codec.name Codec.ofName fun codec => by cases codec; rfl)).pair <|
        (field "profile" uintFormat).pair <|
        (field "chroma_format"
          (caseFormat ChromaFormat.name ChromaFormat.ofName fun c => by cases c <;> rfl)).pair <|
        (field "bit_depth" uintFormat).pair <| (field "width" uintFormat).pair <|
        (field "height" uintFormat).pair <| (field "max_fps" uintFormat).pair <|
        (field "tier" uintFormat).pair <| (field "b_frames" uintFormat).pair <|
        field "server_cursor_excludable" boolFormat).iso
      (fun (codec, profile, chromaFormat, bitDepth, width, height, maxFps, tier, bFrames,
          serverCursorExcludable) =>
        some ⟨codec, profile, chromaFormat, bitDepth, width, height, maxFps, tier, bFrames,
          serverCursorExcludable⟩)
      (fun config => (config.codec, config.profile, config.chromaFormat, config.bitDepth,
        config.width, config.height, config.maxFps, config.tier, config.bFrames,
        config.serverCursorExcludable)) fun _ => rfl)
    encode fun config => by simp [encode, record]

theorem EncoderConfig.fits_iff {config : EncoderConfig} : format.Fits config ↔
    config.codec.name.utf8ByteSize < 2 ^ 64 ∧ config.profile < 2 ^ 64 ∧
      config.chromaFormat.name.utf8ByteSize < 2 ^ 64 ∧ config.bitDepth < 2 ^ 64 ∧
      config.width < 2 ^ 64 ∧ config.height < 2 ^ 64 ∧ config.maxFps < 2 ^ 64 ∧
      config.tier < 2 ^ 64 ∧ config.bFrames < 2 ^ 64 ∧ True := Iff.rfl

def VideoFrameHeader.format : Format UInt8 VideoFrameHeader :=
  Format.withWrite (recordFormat 9 <|
    ((field "generation" uintFormat).pair <| (field "frame_id" uintFormat).pair <|
        (field "config_id" uintFormat).pair <| (field "flags" byteFormat).pair <|
        (field "capture_ts" uintFormat).pair <| (field "encode_done_ts" uintFormat).pair <|
        (field "width" uintFormat).pair <| (field "height" uintFormat).pair <|
        field "payload_len" uintFormat).iso
      (fun (generation, frameId, configId, flags, captureTs, encodeDoneTs, width, height,
          payloadLen) =>
        some ⟨generation, frameId, configId, flags, captureTs, encodeDoneTs, width, height,
          payloadLen⟩)
      (fun header => (header.generation, header.frameId, header.configId, header.flags,
        header.captureTs, header.encodeDoneTs, header.width, header.height, header.payloadLen))
      fun _ => rfl)
    encode fun header => by simp [encode, record, byteFormat]

theorem VideoFrameHeader.fits_iff {header : VideoFrameHeader} : format.Fits header ↔
    header.generation < 2 ^ 64 ∧ header.frameId < 2 ^ 64 ∧ header.configId < 2 ^ 64 ∧
      header.flags.toNat < 2 ^ 64 ∧ header.captureTs < 2 ^ 64 ∧ header.encodeDoneTs < 2 ^ 64 ∧
      header.width < 2 ^ 64 ∧ header.height < 2 ^ 64 ∧ header.payloadLen < 2 ^ 64 := Iff.rfl

def AudioConfig.format : Format UInt8 AudioConfig :=
  Format.withWrite (recordFormat 4 <|
    ((field "codec" (caseFormat AudioCodec.name AudioCodec.ofName fun c => by cases c; rfl)).pair <|
        (field "sample_rate" uintFormat).pair <| (field "channels" uintFormat).pair <|
        field "frame_duration_ms" uintFormat).iso
      (fun (codec, sampleRate, channels, frameDurationMs) =>
        some ⟨codec, sampleRate, channels, frameDurationMs⟩)
      (fun config => (config.codec, config.sampleRate, config.channels, config.frameDurationMs))
      fun _ => rfl)
    encode fun config => by simp [encode, record]

def AudioFrameHeader.format : Format UInt8 AudioFrameHeader :=
  Format.withWrite (recordFormat 4 <|
    ((field "sequence" uintFormat).pair <| (field "capture_ts" uintFormat).pair <|
        (field "duration_us" uintFormat).pair <| field "payload_len" uintFormat).iso
      (fun (sequence, captureTs, durationUs, payloadLen) =>
        some ⟨sequence, captureTs, durationUs, payloadLen⟩)
      (fun header => (header.sequence, header.captureTs, header.durationUs, header.payloadLen))
      fun _ => rfl)
    encode fun header => by simp [encode, record]

end Wire

end Sardp
