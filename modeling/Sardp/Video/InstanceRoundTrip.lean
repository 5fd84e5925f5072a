import Sardp.Server.InstanceStreams
import Sardp.Session.BodyFormats

/-!
# Video instances from end to end

The server writes the messages of an instance on its stream, each as an envelope, and the client
accepts the stream and reads its frames (`video_session.rs`).

Whatever the messages are, and whatever the stream is cut into, the client makes of it what the
messages are up to the first that is longer than the stream allows: the setup and the first frame
they begin with (`introIn`), and the frames after it (`framesIn`). If the stream breaks off, it
makes nothing else of it. All it takes is that the numbers in the messages are of 64 bits, and that
the library reads the bodies back that it has written (`VideoCodec.instance_round_trip`).
-/

namespace Sardp

open Framing

/-! ## Messages and their envelopes -/

namespace VideoMessage

/-- The envelope of a message. -/
def envelope : VideoMessage → UInt16 × List UInt8
  | generation message => (TypeId.VIDEO_STREAM_GENERATION, message.encode)
  | encoderConfig message => (TypeId.ENCODER_CONFIG, message.encode)
  | frameHeader header => (TypeId.VIDEO_FRAME_HEADER, header.encode)
  | framePayload payload => (TypeId.VIDEO_FRAME_PAYLOAD, payload)

/-- The numbers of the message are of 64 bits. -/
def Fits : VideoMessage → Prop
  | generation message => Wire.VideoStreamGeneration.format.Fits message
  | encoderConfig message => Wire.EncoderConfig.format.Fits message
  | frameHeader header => Wire.VideoFrameHeader.format.Fits header
  | framePayload _ => True

instance : (message : VideoMessage) → Decidable message.Fits
  | generation _ => decidable_of_iff' _ Wire.VideoStreamGeneration.fits_iff
  | encoderConfig _ => decidable_of_iff' _ Wire.EncoderConfig.fits_iff
  | frameHeader _ => decidable_of_iff' _ Wire.VideoFrameHeader.fits_iff
  | framePayload _ => .isTrue trivial

/-- The message is as long as the stream allows. -/
def Short (message : VideoMessage) : Prop :=
  message.envelope.2.length ≤ StreamKind.video.maxEnvelopeLength

instance (message : VideoMessage) : Decidable message.Short := inferInstanceAs (Decidable (_ ≤ _))

/-- The generation, if that is what the message is. -/
def generation? : VideoMessage → Option Wire.VideoStreamGeneration
  | generation message => some message
  | _ => none

/-- The configuration, if that is what the message is. -/
def encoderConfig? : VideoMessage → Option Wire.EncoderConfig
  | encoderConfig message => some message
  | _ => none

/-- The frame with the header, if the message is its payload. -/
def frame? (header : Wire.VideoFrameHeader) :
    VideoMessage → Option (Wire.VideoFrameHeader × List UInt8)
  | framePayload payload =>
    if payload.length = header.payloadLen then some (header, payload) else none
  | _ => none

/-- A parser of lists of messages. -/
abbrev Parser (A : Type) := StateT (List VideoMessage) Option A

/-- The parser of the next message. -/
def Parser.next {A : Type} (f : VideoMessage → Option A) : Parser A
  | message :: messages => (f message).map fun a => (a, messages)
  | [] => none

theorem Parser.next_bind {A B : Type} (f : VideoMessage → Option A) (k : A → Parser B)
    (message : VideoMessage) (messages : List VideoMessage) :
    (Parser.next f >>= k) (message :: messages) = (f message).bind fun a => k a messages := by
  show ((f message).map fun a => (a, messages)).bind (fun x => k x.1 x.2) = _
  rw [Option.bind_map]
  rfl

theorem short_generation (message : Wire.VideoStreamGeneration) : (generation message).Short :=
  message.length_encode_le.trans (by decide)

theorem short_encoderConfig (config : Wire.EncoderConfig) : (encoderConfig config).Short :=
  config.length_encode_le.trans (by decide)

theorem short_frameHeader (header : Wire.VideoFrameHeader) : (frameHeader header).Short :=
  header.length_encode_le.trans (by decide)

end VideoMessage

open VideoMessage

/-- The setup and the first frame that the messages begin with. -/
def introIn (monitorId : ℕ) : Parser VideoInstanceIntro := do
  let announced ← .next generation?
  let config ← .next encoderConfig?
  let header ← .next header?
  let (header, payload) ← .next (frame? header)
  return ⟨monitorId, announced, config, header, payload⟩

/-- It takes four messages to begin with. -/
theorem introIn_of_short {monitorId : ℕ} :
    ∀ messages : List VideoMessage, messages.length < 4 → introIn monitorId messages = none
  | [], _ => rfl
  | [a], _ => by
    rw [introIn, Parser.next_bind]
    cases a.generation? <;> rfl
  | [a, b], _ => by
    rw [introIn, Parser.next_bind]
    cases a.generation? with
    | none => rfl
    | some => rw [Option.bind_some, Parser.next_bind]; cases b.encoderConfig? <;> rfl
  | [a, b, c], _ => by
    rw [introIn, Parser.next_bind]
    cases a.generation? with
    | none => rfl
    | some =>
      rw [Option.bind_some, Parser.next_bind]
      cases b.encoderConfig? with
      | none => rfl
      | some => rw [Option.bind_some, Parser.next_bind]; cases c.header? <;> rfl
  | _ :: _ :: _ :: _ :: _, h => by simp at h; omega

/-- The frames that the messages begin with. -/
def framesIn : List VideoMessage → List (Wire.VideoFrameHeader × List UInt8)
  | .frameHeader header :: .framePayload payload :: rest =>
    if payload.length = header.payloadLen then (header, payload) :: framesIn rest else []
  | _ => []

namespace VideoCodec

/-- The library reads back what it has written. -/
structure ReadsBack (codec : VideoCodec) : Prop where
  generation : ∀ message, Wire.VideoStreamGeneration.format.Fits message →
    codec.generation message.encode = some message
  encoderConfig : ∀ config, Wire.EncoderConfig.format.Fits config →
    codec.encoderConfig config.encode = some config
  frameHeader : ∀ header, Wire.VideoFrameHeader.format.Fits header →
    codec.frameHeader header.encode = some header

theorem readsBack_ofFormats : ofFormats.ReadsBack where
  generation _ h := Format.readWhole_write h
  encoderConfig _ h := Format.readWhole_write h
  frameHeader _ h := Format.readWhole_write h

variable {codec : VideoCodec} {message : VideoMessage} {messages : List VideoMessage}
  {envs envs' : List (UInt16 × List UInt8)} {A B : Type}

/-! ## What the client makes of a message -/

/-- A body that is read back is the message. -/
theorem messageOf_eq {M : Type} {typeId : UInt16} {decode : List UInt8 → Option M}
    {body : List UInt8} {m : M} (h : decode body = some m) :
    messageOf typeId decode (typeId, body) = .ok m := by
  rw [messageOf, if_neg (not_not.2 rfl), h]
  rfl

theorem generationOf_envelope (hcodec : codec.ReadsBack) (h : message.Fits) :
    (messageOf TypeId.VIDEO_STREAM_GENERATION codec.generation message.envelope).toOption =
      message.generation? := by
  cases message with
  | generation m => exact congrArg Except.toOption (messageOf_eq (hcodec.generation m h))
  | encoderConfig | frameHeader | framePayload => rfl

theorem encoderConfigOf_envelope (hcodec : codec.ReadsBack) (h : message.Fits) :
    (messageOf TypeId.ENCODER_CONFIG codec.encoderConfig message.envelope).toOption =
      message.encoderConfig? := by
  cases message with
  | encoderConfig m => exact congrArg Except.toOption (messageOf_eq (hcodec.encoderConfig m h))
  | generation | frameHeader | framePayload => rfl

theorem headerOf_envelope (hcodec : codec.ReadsBack) (h : message.Fits) :
    (messageOf TypeId.VIDEO_FRAME_HEADER codec.frameHeader message.envelope).toOption =
      message.header? := by
  cases message with
  | frameHeader m => exact congrArg Except.toOption (messageOf_eq (hcodec.frameHeader m h))
  | generation | encoderConfig | framePayload => rfl

theorem frameOf_envelope (header : Wire.VideoFrameHeader) :
    (VideoFrameReader.frameOf header message.envelope).toOption = message.frame? header := by
  cases message with
  | framePayload payload =>
    rw [envelope, VideoFrameReader.frameOf, if_neg (not_not.2 rfl), frame?]
    by_cases hlength : payload.length = header.payloadLen
    · rw [if_neg (not_not.2 hlength), if_pos hlength]
      rfl
    · rw [if_pos hlength, if_neg hlength]
      rfl
  | generation | encoderConfig | frameHeader => rfl

/-! ## What the client makes of the messages -/

/-- Parsing the envelopes of messages is parsing the messages. -/
def Reads (f : EnvelopeParser A) (g : Parser A) : Prop :=
  ∀ messages, (∀ message ∈ messages, message.Fits) →
    f (messages.map envelope) = (g messages).map (fun x => (x.1, x.2.map envelope)) ∧
      ∀ a rest, g messages = some (a, rest) → rest <:+ messages

theorem reads_pure (a : A) : Reads (pure a) (pure a) := by
  intro messages _
  refine ⟨rfl, fun a' rest h => ?_⟩
  cases h
  exact List.suffix_rfl

theorem reads_next {ε : Type} {f : UInt16 × List UInt8 → Except ε A} {g : VideoMessage → Option A}
    (h : ∀ message : VideoMessage, message.Fits → (f message.envelope).toOption = g message) :
    Reads (.next f) (.next g) := by
  intro messages hfits
  cases messages with
  | nil => exact ⟨rfl, nofun⟩
  | cons message messages =>
    rw [List.map_cons, EnvelopeParser.next, Parser.next, h message (hfits _ List.mem_cons_self)]
    refine ⟨by cases g message <;> rfl, fun a rest hrest => ?_⟩
    obtain ⟨a', -, heq⟩ := Option.map_eq_some_iff.1 hrest
    cases heq
    exact List.suffix_cons _ _

theorem Reads.bind {f : EnvelopeParser A} {g : Parser A} {k : A → EnvelopeParser B}
    {k' : A → Parser B} (hf : Reads f g) (hk : ∀ a, Reads (k a) (k' a)) :
    Reads (f >>= k) (g >>= k') := by
  intro messages hfits
  obtain ⟨hparse, hsuffix⟩ := hf messages hfits
  have hleft : (f >>= k) (messages.map envelope) =
    (f (messages.map envelope)).bind fun x => k x.1 x.2 := rfl
  have hright : (g >>= k') messages = (g messages).bind fun x => k' x.1 x.2 := rfl
  rw [hleft, hright, hparse]
  cases hg : g messages with
  | none => exact ⟨rfl, nofun⟩
  | some x =>
    obtain ⟨a, rest⟩ := x
    have hrest := hsuffix a rest hg
    obtain ⟨hnext, hsuffix'⟩ := hk a rest fun message hmem => hfits message (hrest.subset hmem)
    exact ⟨hnext, fun b rest' hb => (hsuffix' b rest' hb).trans hrest⟩

theorem reads_introOf (hcodec : codec.ReadsBack) (monitorId : ℕ) :
    Reads (codec.introOf monitorId) (introIn monitorId) := by
  refine (reads_next fun _ h => generationOf_envelope hcodec h).bind fun generation => ?_
  refine (reads_next fun _ h => encoderConfigOf_envelope hcodec h).bind fun encoderConfig => ?_
  refine (reads_next fun _ h => headerOf_envelope hcodec h).bind fun header => ?_
  refine (reads_next fun _ _ => frameOf_envelope header).bind fun frame => ?_
  exact reads_pure _

theorem framesOf_cons_cons (codec : VideoCodec) (h p : UInt16 × List UInt8) :
    codec.framesOf (h :: p :: envs) =
      ((VideoFrameReader.headerOf codec.frameHeader h).toOption.bind fun header =>
        (VideoFrameReader.frameOf header p).toOption).elim []
          fun frame => frame :: codec.framesOf envs := by
  rw [framesOf]
  cases VideoFrameReader.headerOf codec.frameHeader h with
  | error e => rfl
  | ok header =>
    simp only [Except.toOption, Option.bind_some]
    cases VideoFrameReader.frameOf header p with
    | error e => rfl
    | ok frame => rfl

theorem framesIn_cons_cons (m m' : VideoMessage) :
    framesIn (m :: m' :: messages) =
      (m.header?.bind fun header => m'.frame? header).elim []
        fun frame => frame :: framesIn messages := by
  cases m with
  | frameHeader header =>
    cases m' with
    | framePayload payload =>
      rw [framesIn, header?, Option.bind_some, frame?]
      split_ifs <;> rfl
    | generation | encoderConfig | frameHeader => rfl
  | generation | encoderConfig | framePayload => rfl

theorem framesOf_envelopes (hcodec : codec.ReadsBack) :
    ∀ messages : List VideoMessage, (∀ message ∈ messages, message.Fits) →
      codec.framesOf (messages.map envelope) = framesIn messages
  | [], _ => rfl
  | [m], _ => by
    rw [List.map_singleton, framesOf, framesIn]
    · rintro h p rest ⟨⟩
    · intro header payload rest hcons
      cases hcons
  | m :: m' :: rest, hfits => by
    obtain ⟨hm, hrest⟩ := List.forall_mem_cons.1 hfits
    obtain ⟨-, hrest⟩ := List.forall_mem_cons.1 hrest
    rw [List.map_cons, List.map_cons, framesOf_cons_cons, framesIn_cons_cons,
      ← framesOf_envelopes hcodec rest hrest, ← headerOf_envelope hcodec hm]
    simp only [frameOf_envelope]
    rfl

/-! ## The round trip -/

theorem extends_introOf (codec : VideoCodec) (monitorId : ℕ) :
    Extends (codec.introOf monitorId) := by
  refine (extends_next _).bind fun generation => ?_
  refine (extends_next _).bind fun encoderConfig => ?_
  refine (extends_next _).bind fun header => ?_
  refine (extends_next _).bind fun frame => ?_
  exact extends_pure _

/-- More envelopes are more frames. -/
theorem framesOf_mono (codec : VideoCodec) (hp : envs <+: envs') :
    codec.framesOf envs <+: codec.framesOf envs' := by
  obtain ⟨more, rfl⟩ := hp
  fun_induction codec.framesOf envs with
  | case1 h p rest header hheader frame hframe ih =>
    rw [List.cons_append, List.cons_append, framesOf_cons_cons, hheader]
    simp only [Except.toOption, Option.bind_some, hframe, Option.elim_some]
    exact List.cons_prefix_cons.2 ⟨rfl, ih⟩
  | case2 | case3 | case4 => exact List.nil_prefix

/-- The bytes of the stream: its prologue, and the envelopes of the messages. -/
def streamBytes (monitorId : ℕ) (messages : List VideoMessage) : Option (List UInt8) :=
  StreamPrologue.encode .video 1 monitorId [] >>= encodeAll (messages.map envelope)

variable {monitorId : ℕ} {bytes : List UInt8} {recv : RecvStream}

/-- What a stream carries that may break off is the beginning of what has been written, up to a
    message that is too long. -/
theorem envelopes_of_streamBytes (hwritten : streamBytes monitorId messages = some bytes)
    (hp : symbols recv.chunks <+: bytes) {streamPrologue : StreamPrologue} {r : EnvelopeReader}
    (hread : EnvelopeReader.readPrologue (Reader.new recv) = (.ok streamPrologue, r)) :
    streamPrologue = ⟨.video, 1, monitorId⟩ ∧
      r.envelopes StreamKind.video.maxEnvelopeLength <+:
        (messages.takeWhile (·.Short)).map envelope ∧
      (symbols recv.chunks = bytes → r.envelopes StreamKind.video.maxEnvelopeLength =
        (messages.takeWhile (·.Short)).map envelope) := by
  have hshort : (messages.map envelope).takeWhile
      (fun env => env.2.length ≤ StreamKind.video.maxEnvelopeLength) =
        (messages.takeWhile (·.Short)).map envelope := by
    rw [List.takeWhile_map]
    rfl
  rw [← hshort]
  exact EnvelopeReader.envelopes_of_written hwritten hp hread

theorem fits_takeWhile (hfits : ∀ message ∈ messages, message.Fits) :
    ∀ message ∈ messages.takeWhile (·.Short), message.Fits :=
  fun message hmem => hfits message ((List.takeWhile_prefix _).subset hmem)

/-- Of a stream that may break off, an instance is accepted only with the setup and the first frame
    that the messages begin with, and the frames that are read are the first of those after it. -/
theorem introIn_of_accepted (hcodec : codec.ReadsBack)
    (hfits : ∀ message ∈ messages, message.Fits)
    (hwritten : streamBytes monitorId messages = some bytes)
    (hp : symbols recv.chunks <+: bytes) {intro : VideoInstanceIntro}
    {reader : Option Wire.VideoFrameHeader × EnvelopeReader}
    (haccept : codec.acceptVideoInstance (.ok recv) = .ok (intro, reader)) :
    ∃ rest, introIn monitorId (messages.takeWhile (·.Short)) = some (intro, rest) ∧
      ∀ n, (codec.framesRead reader n).filterMap (·.toOption) <+: framesIn rest := by
  have hshort := fits_takeWhile hfits
  obtain ⟨hparse, hsuffix⟩ := reads_introOf hcodec monitorId _ hshort
  obtain ⟨streamPrologue, r, hread, hkind⟩ := kind_of_acceptVideoInstance haccept
  obtain ⟨rfl, henvs, -⟩ := envelopes_of_streamBytes hwritten hp hread
  rcases acceptVideoInstance_cases hread hkind with
    ⟨intro', rest, r', hintro, h', haccept'⟩ | ⟨-, e, herror⟩
  · cases haccept.symm.trans haccept'
    -- what follows the envelopes that have come is not looked at
    obtain ⟨more, hmore⟩ := henvs
    have hall := extends_introOf codec monitorId _ _ _ more hintro
    rw [hmore, hparse] at hall
    obtain ⟨⟨intro'', messages'⟩, hin, heq⟩ := Option.map_eq_some_iff.1 hall
    obtain ⟨rfl, hrest⟩ := Prod.mk.inj heq
    refine ⟨messages', hin, fun n => ?_⟩
    have hfits' : ∀ message ∈ messages', message.Fits :=
      fun message hmem => hshort message ((hsuffix _ _ hin).subset hmem)
    rw [framesRead_eq h' n, ← framesOf_envelopes hcodec messages' hfits']
    exact (List.take_prefix _ _).trans (framesOf_mono codec ⟨more, hrest.symm⟩)
  · cases haccept.symm.trans herror

/-- A whole stream is accepted as what the messages begin with, and all its frames are read. -/
theorem accepted_of_introIn (hcodec : codec.ReadsBack)
    (hfits : ∀ message ∈ messages, message.Fits)
    (hwritten : streamBytes monitorId messages = some bytes)
    (hwhole : symbols recv.chunks = bytes) {intro : VideoInstanceIntro}
    {rest : List VideoMessage}
    (hin : introIn monitorId (messages.takeWhile (·.Short)) = some (intro, rest)) :
    ∃ reader, codec.acceptVideoInstance (.ok recv) = .ok (intro, reader) ∧
      ∀ n, (codec.framesRead reader n).filterMap (·.toOption) = (framesIn rest).take n := by
  have hshort := fits_takeWhile hfits
  obtain ⟨hparse, hsuffix⟩ := reads_introOf hcodec monitorId _ hshort
  obtain ⟨prologue, hprologue, hbytes⟩ := Option.bind_eq_some_iff.1 hwritten
  obtain ⟨cs, rfl, -⟩ := encodes_of_encodeAll
    (encodeAll_isSome.1 (Option.isSome_of_eq_some hbytes)) hbytes
  obtain ⟨r, hread, -, -⟩ :=
    EnvelopeReader.readPrologue_of_encoded (r := Reader.new recv) hprologue hwhole
  have hp : symbols recv.chunks <+: prologue ++ cs.flatten := hwhole ▸ List.prefix_rfl
  obtain ⟨-, -, hall⟩ := envelopes_of_streamBytes hwritten hp hread
  rcases acceptVideoInstance_cases hread rfl with
    ⟨intro', rest', r', hintro, h', haccept⟩ | ⟨hnone, -⟩
  · rw [hall hwhole, hparse, hin] at hintro
    cases hintro
    refine ⟨_, haccept, fun n => ?_⟩
    have hfits' : ∀ message ∈ rest, message.Fits :=
      fun message hmem => hshort message ((hsuffix _ _ hin).subset hmem)
    rw [framesRead_eq h' n, framesOf_envelopes hcodec rest hfits']
  · rw [hall hwhole, hparse, hin] at hnone
    cases hnone

/-- What the client makes of a stream that is cut into any pieces, and may break off, is what the
    messages are up to the first that is too long: an instance is accepted only with the setup and
    the first frame that they begin with, and the frames that are read are the first of those that
    follow; and it is accepted, and every frame read, if the stream is whole. -/
theorem instance_round_trip (hcodec : codec.ReadsBack) (hfits : ∀ message ∈ messages, message.Fits)
    (hwritten : streamBytes monitorId messages = some bytes)
    (hp : symbols recv.chunks <+: bytes) :
    let short := messages.takeWhile (·.Short)
    (∀ intro reader, codec.acceptVideoInstance (.ok recv) = .ok (intro, reader) →
      ∃ rest, introIn monitorId short = some (intro, rest) ∧
        ∀ n, (codec.framesRead reader n).filterMap (·.toOption) <+: framesIn rest) ∧
    (symbols recv.chunks = bytes →
      ∀ intro rest, introIn monitorId short = some (intro, rest) →
        ∃ reader, codec.acceptVideoInstance (.ok recv) = .ok (intro, reader) ∧
          ∀ n, (codec.framesRead reader n).filterMap (·.toOption) = (framesIn rest).take n) :=
  ⟨fun _ _ haccept => introIn_of_accepted hcodec hfits hwritten hp haccept,
    fun hwhole _ _ hin => accepted_of_introIn hcodec hfits hwritten hwhole hin⟩

/-- An instance of two frames that arrives whole. -/
theorem instance_round_trip_whole :
    let encoderConfig : Wire.EncoderConfig := ⟨.h264, 66, .c420, 8, 640, 480, 30, 4, 0, false⟩
    let messages := openVideoInstance 1 1 encoderConfig [5] 10 20 ++
      sendSourcedFrame 1 1 640 480 ⟨[6, 7], false, 30, 40⟩
    ∃ recv intro reader, streamBytes 0 messages = some (symbols recv.chunks) ∧
      ofFormats.acceptVideoInstance (.ok recv) = .ok (intro, reader) ∧
      intro.firstFramePayload = [5] ∧
      ((ofFormats.framesRead reader 2).filterMap (·.toOption)).map Prod.snd = [[6, 7]] := by
  intro encoderConfig messages
  have hfits : ∀ message ∈ messages, message.Fits := by
    simp only [messages, openVideoInstance, sendSourcedFrame, sendVideoFrame, List.cons_append,
      List.nil_append, List.forall_mem_cons]
    exact ⟨Wire.VideoStreamGeneration.fits_iff.2 (by decide), Wire.EncoderConfig.fits_iff.2
      (by decide), Wire.VideoFrameHeader.fits_iff.2 (by decide), trivial,
      Wire.VideoFrameHeader.fits_iff.2 (by decide), trivial, by simp⟩
  have hshort : ∀ message ∈ messages, message.Short := by
    have hidr : (framePayload [5]).Short := Nat.le_of_ble_eq_true rfl
    have hframe : (framePayload [6, 7]).Short := Nat.le_of_ble_eq_true rfl
    simp [messages, openVideoInstance, sendSourcedFrame, sendVideoFrame, short_generation,
      short_encoderConfig, short_frameHeader, hidr, hframe]
  have hmax : ∀ env ∈ messages.map envelope, env.2.length ≤ Varint.MAX := by
    intro env henv
    obtain ⟨message, hmem, rfl⟩ := List.mem_map.1 henv
    exact (hshort message hmem).trans StreamKind.video.maxEnvelopeLength_le_MAX
  have hprologue : StreamPrologue.encode .video 1 0 [] = some (MAGIC ++ [3, 1, 0]) := rfl
  obtain ⟨bytes, hbytes⟩ := Option.isSome_iff_exists.1 (encodeAll_isSome.2 hmax)
  have hwritten : streamBytes 0 messages = some bytes :=
    Option.bind_eq_some_iff.2 ⟨_, hprologue, hbytes⟩
  obtain ⟨cs, hcs, -⟩ := encodes_of_encodeAll hmax hbytes
  have hne : bytes ≠ [] := hcs ▸ List.cons_ne_nil _ _
  have hwhole : symbols [(⟨bytes, hne⟩ : Chunk UInt8)] = bytes := List.append_nil _
  let recv : RecvStream := ⟨[⟨bytes, hne⟩], none⟩
  have hp : symbols recv.chunks <+: bytes := ⟨[], (List.append_nil _).trans hwhole⟩
  obtain ⟨-, hall⟩ := instance_round_trip readsBack_ofFormats hfits hwritten hp
  rw [List.takeWhile_eq_self_iff.2 fun message hmem => decide_eq_true (hshort message hmem)] at hall
  obtain ⟨reader, haccept, hframes⟩ := hall hwhole _ _ rfl
  refine ⟨recv, _, reader, hwhole.symm ▸ hwritten, haccept, rfl, ?_⟩
  rw [hframes 2]
  rfl

end VideoCodec

end Sardp
