import Sardp.Video.FrameReader
import Sardp.Video.VideoChannel
import Sardp.Wire.Contents
import Sardp.Wire.MediaFormats
import Sardp.Wire.Pieces

/-!
# Accepting video instances

The client accepts a video stream with the messages that set its instance up and with its first
frame (`acceptIntro` of `video_session.rs`), and reads the frames that follow. It checks the types
of the messages and the length of every payload, and nothing that the messages say.

* What is accepted is what the stream carries, whatever it is cut into
  (`acceptVideoInstance_cases`, `framesRead_eq`).
* So the first frame is one that needs no other, and every frame is of the generation announced,
  exactly if that is what the stream carries (`identified_iff`).
-/

namespace Sardp

open Framing

/-- What the library makes of the bodies of the messages of a video stream. -/
structure VideoCodec where
  generation : List UInt8 → Option Wire.VideoStreamGeneration
  encoderConfig : List UInt8 → Option Wire.EncoderConfig
  frameHeader : List UInt8 → Option Wire.VideoFrameHeader

/-- What sets an instance up, and its first frame. -/
structure VideoInstanceIntro where
  monitorId : ℕ
  generation : Wire.VideoStreamGeneration
  encoderConfig : Wire.EncoderConfig
  firstFrameHeader : Wire.VideoFrameHeader
  firstFramePayload : List UInt8
  deriving DecidableEq

namespace VideoCodec

/-- Reading the bodies as they have been written. -/
def ofFormats : VideoCodec where
  generation := Wire.VideoStreamGeneration.format.readWhole
  encoderConfig := Wire.EncoderConfig.format.readWhole
  frameHeader := Wire.VideoFrameHeader.format.readWhole

variable (codec : VideoCodec)

/-- A step of the instance; one that is refused is a violation of the protocol. -/
def instanceStep (result : Except ProtocolViolation VideoInstanceSm) :
    VideoFrameReader.Action VideoInstanceSm :=
  ofExcept (result.mapError fun v => .protocolViolation v.reason)

/-- The message of a type, if that is what the envelope is. -/
def messageOf {M : Type} (typeId : UInt16) (decode : List UInt8 → Option M)
    (env : UInt16 × List UInt8) : Except VideoError M :=
  if env.1 ≠ typeId then .error (.protocolViolation ReasonCode.PROTOCOL_UNEXPECTED_MESSAGE)
  else (decode env.2).elim (.error .decode) .ok

/-- Reading what comes after the prologue, up to the first frame. -/
def readIntro (streamPrologue : StreamPrologue) : VideoFrameReader.Action VideoInstanceIntro := do
  let sm := VideoInstanceSm.new
  if streamPrologue.kind ≠ .video then .throw .wrongStreamKind
  else do
    let sm ← instanceStep sm.onPrologueSent
    let generation ← readAs .read (messageOf TypeId.VIDEO_STREAM_GENERATION codec.generation)
    let sm ← instanceStep sm.onGenerationSent
    let encoderConfig ← readAs .read (messageOf TypeId.ENCODER_CONFIG codec.encoderConfig)
    let sm ← instanceStep sm.onEncoderConfigSent
    let header ← readAs .read (messageOf TypeId.VIDEO_FRAME_HEADER codec.frameHeader)
    let (header, framePayload) ← readAs .read (VideoFrameReader.frameOf header)
    let _ ← instanceStep sm.onFirstIdrSent
    return ⟨streamPrologue.contextId, generation, encoderConfig, header, framePayload⟩

/-- Accepting the next stream as a video instance. -/
def acceptIntro (accepted : Except Quinn.ConnectionError RecvStream) :
    Except VideoError (VideoInstanceIntro × EnvelopeReader) :=
  match accepted with
  | .error e => .error (.quic e)
  | .ok recv =>
    match EnvelopeReader.readPrologue (Reader.new recv) with
    | (.error e, _) => .error (.read e)
    | (.ok streamPrologue, reader) =>
      let (intro, _, reader) :=
        (codec.readIntro streamPrologue).exec VideoFrameReader.decoder none reader
      intro.map fun intro => (intro, reader)

/-- Accepting a video instance, with the reader of its other frames. -/
def acceptVideoInstance (accepted : Except Quinn.ConnectionError RecvStream) :
    Except VideoError (VideoInstanceIntro × Option Wire.VideoFrameHeader × EnvelopeReader) :=
  (codec.acceptIntro accepted).map fun (intro, reader) => (intro, none, reader)

/-- What the first `n` calls of the reader give. -/
def framesRead (reader : Option Wire.VideoFrameHeader × EnvelopeReader) (n : ℕ) :
    List (Except VideoError (Wire.VideoFrameHeader × List UInt8)) :=
  (VideoFrameReader.readNextFrame codec.frameHeader).results VideoFrameReader.decoder n
    (VideoFrameReader.readNextFrame codec.frameHeader) reader.1 reader.2

/-! ## What the stream carries -/

/-- The messages and the first frame that the envelopes begin with. -/
def introOf (contextId : ℕ) : EnvelopeParser VideoInstanceIntro := do
  let generation ← .next (messageOf TypeId.VIDEO_STREAM_GENERATION codec.generation)
  let encoderConfig ← .next (messageOf TypeId.ENCODER_CONFIG codec.encoderConfig)
  let header ← .next (messageOf TypeId.VIDEO_FRAME_HEADER codec.frameHeader)
  let (header, framePayload) ← .next (VideoFrameReader.frameOf header)
  return ⟨contextId, generation, encoderConfig, header, framePayload⟩

/-- The frames that the envelopes begin with. -/
def framesOf :
    List (UInt16 × List UInt8) → List (Wire.VideoFrameHeader × List UInt8)
  | h :: p :: rest =>
    match VideoFrameReader.headerOf codec.frameHeader h with
    | .ok header =>
      match VideoFrameReader.frameOf header p with
      | .ok frame => frame :: framesOf rest
      | .error _ => []
    | .error _ => []
  | _ => []

variable {codec} {r : EnvelopeReader} {envs : List (UInt16 × List UInt8)} {stop : StreamReadError}

/-- What is accepted is what the stream carries; there is an error if it carries none. -/
theorem parses_readIntro {streamPrologue : StreamPrologue} (hkind : streamPrologue.kind = .video) :
    Parses StreamKind.video.maxEnvelopeLength none (codec.readIntro streamPrologue)
      (codec.introOf streamPrologue.contextId) := by
  rw [readIntro, if_neg (not_not.2 hkind)]
  -- the steps of the instance never fail in this order
  refine Parses.bind (parses_readAs _ _) fun generation => ?_
  refine Parses.bind (parses_readAs _ _) fun encoderConfig => ?_
  refine Parses.bind (parses_readAs _ _) fun header => ?_
  refine Parses.bind (parses_readAs _ _) fun (header, framePayload) => ?_
  exact parses_pure _

/-- The next frame is the one the stream carries; there is an error if it carries none. -/
theorem exec_readNextFrame
    (h : EnvelopeReader.Carries StreamKind.video.maxEnvelopeLength r envs stop) :
    (∃ frame rest r', codec.framesOf envs = frame :: codec.framesOf rest ∧
      EnvelopeReader.Carries StreamKind.video.maxEnvelopeLength r' rest stop ∧
      (VideoFrameReader.readNextFrame codec.frameHeader).exec VideoFrameReader.decoder none r =
        (.ok frame, none, r')) ∨
    codec.framesOf envs = [] ∧ ∃ e x,
      (VideoFrameReader.readNextFrame codec.frameHeader).exec VideoFrameReader.decoder none r =
        (.error e, x) := by
  rw [VideoFrameReader.exec_readNextFrame_none]
  cases envs with
  | nil =>
    obtain ⟨r', hread, -⟩ := h.readEnvelope_nil
    rw [hread]
    exact .inr ⟨rfl, _, _, rfl⟩
  | cons env envs =>
    obtain ⟨r₁, hread, h₁⟩ := h.readEnvelope_cons
    rw [hread]
    cases hheader : VideoFrameReader.headerOf codec.frameHeader env with
    | error e =>
      refine .inr ⟨?_, e, (none, r₁), by simp only [hheader]⟩
      cases envs <;> simp only [framesOf, hheader]
    | ok header =>
      simp only [hheader, VideoFrameReader.exec_readPayload]
      cases envs with
      | nil =>
        obtain ⟨r₂, hread₂, -⟩ := h₁.readEnvelope_nil
        rw [hread₂]
        exact .inr ⟨rfl, _, _, rfl⟩
      | cons payload envs =>
        obtain ⟨r₂, hread₂, h₂⟩ := h₁.readEnvelope_cons
        rw [hread₂]
        cases hframe : VideoFrameReader.frameOf header payload with
        | error e =>
          exact .inr ⟨by simp only [framesOf, hheader, hframe], e, (none, r₂),
            by simp only [hframe]⟩
        | ok frame =>
          exact .inl ⟨frame, envs, r₂, by simp only [framesOf, hheader, hframe], h₂,
            by simp only [hframe]⟩

/-- The frames that are read are those the stream carries, in order, up to the first that is
    refused. -/
theorem framesRead_eq (h : EnvelopeReader.Carries StreamKind.video.maxEnvelopeLength r envs stop)
    (n : ℕ) : (codec.framesRead (none, r) n).filterMap (·.toOption) =
      (codec.framesOf envs).take n := by
  induction n generalizing r envs with
  | zero => rfl
  | succ n ih =>
    simp only [framesRead, Async.results] at ih ⊢
    rcases @exec_readNextFrame codec _ _ _ h with
      ⟨frame, rest, r', hframes, h', hexec⟩ | ⟨hframes, e, x, hexec⟩
    · rw [hexec, hframes, List.take_succ_cons, ← ih h']
      rfl
    · rw [hexec, hframes]
      rfl

/-- The first frame needs no other, and every frame is of the generation and, for the first, of the
    configuration announced. -/
def Identified (recv : RecvStream) : Prop :=
  ∀ intro reader, codec.acceptVideoInstance (.ok recv) = .ok (intro, reader) →
    intro.firstFrameHeader.isIdr ∧
      intro.firstFrameHeader.generation = intro.generation.generation ∧
      intro.firstFrameHeader.configId = intro.generation.configId ∧
      ∀ n frame, .ok frame ∈ codec.framesRead reader n →
        frame.1.generation = intro.generation.generation

/-- What the stream carries agrees with itself: if it is the stream of an instance, then the first
    header has the flag and both numbers of the announcement, and the headers of the frames after it
    the generation. -/
def Consistent (recv : RecvStream) : Prop :=
  ∀ streamPrologue reader, EnvelopeReader.readPrologue (Reader.new recv) =
    (.ok streamPrologue, reader) → streamPrologue.kind = .video →
  ∀ intro rest, codec.introOf streamPrologue.contextId
    (EnvelopeReader.envelopes reader StreamKind.video.maxEnvelopeLength) = some (intro, rest) →
    intro.firstFrameHeader.isIdr ∧
      intro.firstFrameHeader.generation = intro.generation.generation ∧
      intro.firstFrameHeader.configId = intro.generation.configId ∧
      ∀ frame ∈ codec.framesOf rest, frame.1.generation = intro.generation.generation

/-- Only streams of video are accepted. -/
theorem kind_of_acceptVideoInstance {recv : RecvStream}
    {x : VideoInstanceIntro × Option Wire.VideoFrameHeader × EnvelopeReader}
    (h : codec.acceptVideoInstance (.ok recv) = .ok x) :
    ∃ streamPrologue r, EnvelopeReader.readPrologue (Reader.new recv) = (.ok streamPrologue, r) ∧
      streamPrologue.kind = .video := by
  cases hread : EnvelopeReader.readPrologue (Reader.new recv) with
  | mk result r =>
    cases result with
    | error e =>
      simp only [acceptVideoInstance, acceptIntro, hread] at h
      cases h
    | ok streamPrologue =>
      refine ⟨streamPrologue, r, rfl, not_not.1 fun hkind => ?_⟩
      have hthrow : codec.readIntro streamPrologue = .throw .wrongStreamKind := if_pos hkind
      simp only [acceptVideoInstance, acceptIntro, hread, hthrow] at h
      cases h

/-- A stream of video is accepted exactly if it carries the messages and the first frame of an
    instance. -/
theorem acceptVideoInstance_cases {recv : RecvStream} {streamPrologue : StreamPrologue}
    (hread : EnvelopeReader.readPrologue (Reader.new recv) = (.ok streamPrologue, r))
    (hkind : streamPrologue.kind = .video) :
    (∃ intro rest r', codec.introOf streamPrologue.contextId
        (EnvelopeReader.envelopes r StreamKind.video.maxEnvelopeLength) = some (intro, rest) ∧
      EnvelopeReader.Carries StreamKind.video.maxEnvelopeLength r' rest
        (EnvelopeReader.stop r StreamKind.video.maxEnvelopeLength) ∧
      codec.acceptVideoInstance (.ok recv) = .ok (intro, none, r')) ∨
    codec.introOf streamPrologue.contextId
        (EnvelopeReader.envelopes r StreamKind.video.maxEnvelopeLength) = none ∧
      ∃ e, codec.acceptVideoInstance (.ok recv) = .error e := by
  rcases @parses_readIntro codec _ hkind r _ _ (EnvelopeReader.carries_self r _) with
    ⟨intro, rest, r', hintro, h', hexec⟩ | ⟨hintro, e, x, hexec⟩
  · refine .inl ⟨intro, rest, r', hintro, h', ?_⟩
    simp only [acceptVideoInstance, acceptIntro, hread, VideoFrameReader.decoder, hexec]
    rfl
  · refine .inr ⟨hintro, e, ?_⟩
    simp only [acceptVideoInstance, acceptIntro, hread, VideoFrameReader.decoder, hexec]
    rfl

/-- The first frame of every instance that is accepted needs no other, and every frame of it is of
    the generation announced, exactly if what the stream carries agrees with itself. -/
theorem identified_iff (codec : VideoCodec) (recv : RecvStream) :
    codec.Identified recv ↔ codec.Consistent recv := by
  constructor
  · intro h streamPrologue r hread hkind intro rest hintro
    rcases @acceptVideoInstance_cases codec _ _ _ hread hkind with
      ⟨intro', rest', r', hintro', h', haccept⟩ | ⟨hnone, -⟩
    · rw [hintro] at hintro'
      cases hintro'
      obtain ⟨hidr, hgeneration, hconfig, hframes⟩ := h _ _ haccept
      refine ⟨hidr, hgeneration, hconfig, fun frame hframe => ?_⟩
      -- enough calls read every frame
      refine hframes (codec.framesOf rest).length frame ?_
      have hread := @framesRead_eq codec _ _ _ h' (codec.framesOf rest).length
      rw [List.take_length] at hread
      rw [← hread] at hframe
      obtain ⟨result, hmem, hok⟩ := List.mem_filterMap.1 hframe
      cases result with
      | error e => cases hok
      | ok frame' =>
        cases hok
        exact hmem
    · cases hintro.symm.trans hnone
  · intro h intro reader haccept
    obtain ⟨streamPrologue, r, hread, hkind⟩ := kind_of_acceptVideoInstance haccept
    rcases @acceptVideoInstance_cases codec _ _ _ hread hkind with
      ⟨intro', rest, r', hintro, h', haccept'⟩ | ⟨-, e, herror⟩
    · rw [haccept] at haccept'
      cases haccept'
      obtain ⟨hidr, hgeneration, hconfig, hframes⟩ := h _ _ hread hkind _ _ hintro
      refine ⟨hidr, hgeneration, hconfig, fun n frame hmem => hframes frame ?_⟩
      have hframe : frame ∈ (codec.framesRead (none, r') n).filterMap (·.toOption) :=
        List.mem_filterMap.2 ⟨_, hmem, rfl⟩
      rw [framesRead_eq h' n] at hframe
      exact List.mem_of_mem_take hframe
    · cases haccept.symm.trans herror

/-- An instance that announces generation 1 and configuration 1, and whose first frame is of
    generation 0 and configuration 0, and needs others. -/
def mixedUpInstance : List Piece :=
  [.prologue ⟨.video, 1, 0⟩,
    .envelope TypeId.VIDEO_STREAM_GENERATION (Wire.VideoStreamGeneration.encode ⟨1, 1⟩),
    .envelope TypeId.ENCODER_CONFIG
      (Wire.EncoderConfig.encode ⟨.h264, 100, .c420, 8, 640, 480, 60, 0, 0, true⟩),
    .envelope TypeId.VIDEO_FRAME_HEADER
      (Wire.VideoFrameHeader.encode ⟨0, 0, 0, 0, 0, 0, 640, 480, 1⟩),
    .envelope TypeId.VIDEO_FRAME_PAYLOAD [9]]

/-- It is accepted. -/
theorem mixed_up_instance_accepted :
    ∃ recv : RecvStream, encodePieces mixedUpInstance [] = some (symbols recv.chunks) ∧
      (∃ intro reader, ofFormats.acceptVideoInstance (.ok recv) = .ok (intro, reader) ∧
        intro.firstFrameHeader.isIdr = false ∧
        intro.firstFrameHeader.generation ≠ intro.generation.generation ∧
        intro.firstFrameHeader.configId ≠ intro.generation.configId) ∧
      ¬ofFormats.Identified recv := by
  let recv : RecvStream := ⟨[⟨(encodePieces mixedUpInstance []).getD [], by decide +kernel⟩], none⟩
  have hintro : (ofFormats.acceptVideoInstance (.ok recv)).toOption.map Prod.fst =
      some ⟨0, ⟨1, 1⟩, ⟨.h264, 100, .c420, 8, 640, 480, 60, 0, 0, true⟩,
        ⟨0, 0, 0, 0, 0, 0, 640, 480, 1⟩, [9]⟩ := by
    decide +kernel
  cases haccept : ofFormats.acceptVideoInstance (.ok recv) with
  | error e =>
    rw [haccept] at hintro
    cases hintro
  | ok x =>
    obtain ⟨intro, reader⟩ := x
    rw [haccept] at hintro
    obtain rfl : intro = _ := Option.some_inj.1 hintro
    exact ⟨recv, by decide +kernel, ⟨_, reader, haccept, rfl, by decide, by decide⟩,
      fun h => absurd (h _ _ haccept).1 (by decide)⟩

end VideoCodec

end Sardp
