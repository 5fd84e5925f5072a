import Sardp.Video.InstanceRoundTrip

/-!
# What clients see of the video

Between a frame of the source and the client that shows it are the loop of its connection, the
stream of the instance, and the network that cuts the stream into pieces and may break it off
(`video_session.rs`, `sardp-server.rs`).

What is on a stream are the first messages of one instance (`VideoServer.instancesInv_step`), and
every instance of a connection is of a later generation than those before it. So whatever becomes of
the streams, a client that accepts one begins with an IDR and goes on with the frames that have been
written after it, in the order of the source and without a gap; and if all that has been written
arrives, it gets all of them up to the first that is longer than a video stream allows, which the
server writes as it is and the client refuses (`VideoServer.frames_delivered`).
-/

namespace Sardp

open Framing VideoMessage

/-! ## Instances -/

/-- The frame is as long as a video stream allows. -/
def SourcedFrame.Short (frame : SourcedFrame) : Prop :=
  frame.bytes.length ≤ StreamKind.video.maxEnvelopeLength

instance (frame : SourcedFrame) : Decidable frame.Short := inferInstanceAs (Decidable (_ ≤ _))

/-- The header of a frame that is not the first. -/
def sourcedHeader (generation frameId : ℕ) (encoderConfig : Wire.EncoderConfig)
    (frame : SourcedFrame) : Wire.VideoFrameHeader where
  generation := generation
  frameId := frameId
  configId := 1
  flags := if frame.isIdr then Wire.VIDEO_FRAME_FLAG_IDR else 0
  captureTs := frame.captureTs
  encodeDoneTs := frame.encodeDoneTs
  width := encoderConfig.width
  height := encoderConfig.height
  payloadLen := frame.bytes.length

/-- The messages of the frames after the first, which have the numbers from `k` on. -/
def laterMessages (generation : ℕ) (encoderConfig : Wire.EncoderConfig) (frames : List SourcedFrame)
    (k : ℕ) : List VideoMessage :=
  (frames.zipIdx k).flatMap fun (frame, frameId) =>
    sendSourcedFrame generation frameId encoderConfig.width encoderConfig.height frame

/-- The messages of an instance: those that open it, and those of its other frames. -/
def instanceMessages (generation configId : ℕ) (encoderConfig : Wire.EncoderConfig)
    (idr : SourcedFrame) (frames : List SourcedFrame) : List VideoMessage :=
  openVideoInstance generation configId encoderConfig idr.bytes idr.captureTs idr.encodeDoneTs ++
    laterMessages generation encoderConfig frames 1

/-- What a client accepts the instance with. -/
def instanceIntro (monitorId generation configId : ℕ) (encoderConfig : Wire.EncoderConfig)
    (idr : SourcedFrame) : VideoInstanceIntro where
  monitorId := monitorId
  generation := { generation, configId }
  encoderConfig := encoderConfig
  firstFrameHeader := {
    generation, frameId := 0, configId, flags := Wire.VIDEO_FRAME_FLAG_IDR,
    captureTs := idr.captureTs, encodeDoneTs := idr.encodeDoneTs, width := encoderConfig.width,
    height := encoderConfig.height, payloadLen := idr.bytes.length }
  firstFramePayload := idr.bytes

/-- The frames that a client reads after it. -/
def instanceFrames (generation : ℕ) (encoderConfig : Wire.EncoderConfig)
    (frames : List SourcedFrame) : List (Wire.VideoFrameHeader × List UInt8) :=
  (frames.zipIdx 1).map fun (frame, frameId) =>
    (sourcedHeader generation frameId encoderConfig frame, frame.bytes)

variable {generation configId frameId monitorId : ℕ} {encoderConfig : Wire.EncoderConfig}
  {idr frame : SourcedFrame} {frames sourced more : List SourcedFrame}

theorem instanceMessages_append_singleton :
    instanceMessages generation configId encoderConfig idr (frames ++ [frame]) =
      instanceMessages generation configId encoderConfig idr frames ++
        sendSourcedFrame generation (frames.length + 1) encoderConfig.width encoderConfig.height
          frame := by
  simp [instanceMessages, laterMessages, List.zipIdx_append, Nat.add_comm]

/-- Messages that begin with those that open an instance. -/
theorem introIn_openVideoInstance (messages : List VideoMessage) :
    introIn monitorId (openVideoInstance generation configId encoderConfig idr.bytes idr.captureTs
        idr.encodeDoneTs ++ messages) =
      some (instanceIntro monitorId generation configId encoderConfig idr, messages) := by
  have hframe : (framePayload idr.bytes).frame?
      (instanceIntro monitorId generation configId encoderConfig idr).firstFrameHeader =
        some (_, idr.bytes) := if_pos rfl
  simp only [introIn, openVideoInstance, List.cons_append, Parser.next_bind, generation?,
    encoderConfig?, header?, Option.bind_some]
  exact congrArg (Option.bind · _) hframe

theorem short_framePayload : (framePayload frame.bytes).Short ↔ frame.Short := Iff.rfl

/-- Of the frames that have been written, and at most the header of one more, those that are not too
    long are read. -/
theorem framesIn_laterMessages {part : List VideoMessage} (hpart : framesIn part = [])
    (hshort : ∀ message ∈ part, message.Short) (k : ℕ) :
    framesIn ((laterMessages generation encoderConfig frames k ++ part).takeWhile (·.Short)) =
      ((frames.takeWhile (·.Short)).zipIdx k).map fun (frame, frameId) =>
        (sourcedHeader generation frameId encoderConfig frame, frame.bytes) := by
  induction frames generalizing k with
  | nil =>
    rw [laterMessages, List.zipIdx_nil, List.flatMap_nil, List.nil_append,
      List.takeWhile_eq_self_iff.2 fun message hmem => decide_eq_true (hshort message hmem), hpart]
    rfl
  | cons frame frames ih =>
    have hcons : laterMessages generation encoderConfig (frame :: frames) k ++ part =
      .frameHeader (sourcedHeader generation k encoderConfig frame) ::
        .framePayload frame.bytes ::
          (laterMessages generation encoderConfig frames (k + 1) ++ part) := rfl
    have hlength : frame.bytes.length =
      (sourcedHeader generation k encoderConfig frame).payloadLen := rfl
    rw [hcons, List.takeWhile_cons, if_pos (decide_eq_true (short_frameHeader _)),
      List.takeWhile_cons, List.takeWhile_cons]
    by_cases hframe : frame.Short
    · rw [if_pos (decide_eq_true (short_framePayload.2 hframe)), if_pos (decide_eq_true hframe),
        framesIn, if_pos hlength, ih]
      rfl
    · rw [if_neg (by simpa [short_framePayload] using hframe), if_neg (by simpa using hframe)]
      rfl

/-! ## Streams -/

/-- The frames that the source has given to a connection. -/
def sourcedOf (i : ℕ) (es : List (ServerEvent × FrameIo)) : List SourcedFrame :=
  es.flatMap fun e =>
    match e.1 with
    | .connection j _ => if j = i then e.2.frames else []
    | .expire _ _ => []

/-- What has been written of an instance: the messages that open it, or not even all of them, and
    the frames after the first; and perhaps the header of one more, whose payload could not be
    written. -/
inductive InstanceWritten (generation configId : ℕ) (encoderConfig : Wire.EncoderConfig)
    (idr : SourcedFrame) : List SourcedFrame → List VideoMessage → Prop
  | opening {messages : List VideoMessage} :
    messages <+: openVideoInstance generation configId encoderConfig idr.bytes idr.captureTs
      idr.encodeDoneTs → InstanceWritten generation configId encoderConfig idr [] messages
  | frames (frames : List SourcedFrame) :
    InstanceWritten generation configId encoderConfig idr frames
      (instanceMessages generation configId encoderConfig idr frames)
  | header (frames : List SourcedFrame) (header : Wire.VideoFrameHeader) :
    InstanceWritten generation configId encoderConfig idr frames
      (instanceMessages generation configId encoderConfig idr frames ++ [.frameHeader header])

/-- What is on the stream has been written of an instance of the generation, whose frames the source
    has given in that order, beginning with an IDR. -/
def InstanceStream.OfInstance (encoderConfig : Wire.EncoderConfig) (sourced : List SourcedFrame)
    (generation : ℕ) (stream : InstanceStream) : Prop :=
  ∃ configId frames, stream.idr.isIdr = true ∧ (stream.idr :: frames).Sublist sourced ∧
    InstanceWritten generation configId encoderConfig stream.idr frames stream.messages

/-- The streams are of instances of ever later generations, the latest first; the next one is
    later still. -/
def OfInstances (encoderConfig : Wire.EncoderConfig) (sourced : List SourcedFrame) (next : ℕ)
    (streams : List InstanceStream) : Prop :=
  ∃ generations,
    List.Forall₂ (InstanceStream.OfInstance encoderConfig sourced) generations streams ∧
      (next :: generations).Pairwise (· > ·)

/-- The latest of the streams is of the generation, and all of it has been written so far. -/
def GoesOn (encoderConfig : Wire.EncoderConfig) (sourced : List SourcedFrame)
    (generation frameId : ℕ) (streams : List InstanceStream) : Prop :=
  ∃ stream earlier configId frames, streams = stream :: earlier ∧ stream.idr.isIdr = true ∧
    (stream.idr :: frames).Sublist sourced ∧
    stream.messages = instanceMessages generation configId encoderConfig stream.idr frames ∧
    frames.length + 1 = frameId ∧ OfInstances encoderConfig sourced generation earlier

variable {stream : InstanceStream} {streams opened : List InstanceStream} {next : ℕ}
  {opening : OpenOutcome} {io : FrameIo}

theorem OfInstances.nil : OfInstances encoderConfig sourced next [] :=
  ⟨[], .nil, List.pairwise_singleton _ _⟩

theorem OfInstances.cons (h : OfInstances encoderConfig sourced generation streams)
    (hstream : stream.OfInstance encoderConfig sourced generation) :
    OfInstances encoderConfig sourced (generation + 1) (stream :: streams) := by
  obtain ⟨generations, hof, hlater⟩ := h
  refine ⟨generation :: generations, .cons hstream hof, List.pairwise_cons.2 ⟨?_, hlater⟩⟩
  intro generation' hmem
  rcases List.mem_cons.1 hmem with rfl | hmem
  · exact Nat.lt_succ_self _
  · exact Nat.lt_succ_of_lt (List.rel_of_pairwise_cons hlater hmem)

/-- What the source gives later changes nothing about it. -/
theorem InstanceStream.OfInstance.append (more : List SourcedFrame)
    (h : stream.OfInstance encoderConfig sourced generation) :
    stream.OfInstance encoderConfig (sourced ++ more) generation := by
  obtain ⟨configId, frames, hidr, hsourced, hmessages⟩ := h
  exact ⟨configId, frames, hidr, hsourced.trans (List.sublist_append_left _ _), hmessages⟩

theorem OfInstances.append (more : List SourcedFrame)
    (h : OfInstances encoderConfig sourced next streams) :
    OfInstances encoderConfig (sourced ++ more) next streams := by
  obtain ⟨generations, hof, hlater⟩ := h
  exact ⟨generations, hof.imp fun _ _ h => h.append more, hlater⟩

theorem GoesOn.append (more : List SourcedFrame)
    (h : GoesOn encoderConfig sourced generation frameId streams) :
    GoesOn encoderConfig (sourced ++ more) generation frameId streams := by
  obtain ⟨stream, earlier, configId, frames, hstreams, hidr, hsourced, hmessages, hlength,
    hearlier⟩ := h
  exact ⟨stream, earlier, configId, frames, hstreams, hidr,
    hsourced.trans (List.sublist_append_left _ _), hmessages, hlength, hearlier.append more⟩

theorem GoesOn.ofInstances (h : GoesOn encoderConfig sourced generation frameId streams) :
    OfInstances encoderConfig sourced (generation + 1) streams := by
  obtain ⟨stream, earlier, configId, frames, rfl, hidr, hsourced, hmessages, -, hearlier⟩ := h
  exact hearlier.cons ⟨configId, frames, hidr, hsourced, hmessages ▸ .frames frames⟩

/-! ## What a round writes -/

theorem FrameIo.write_prefix (io : FrameIo) (whole : Bool) (messages : List VideoMessage) :
    io.write whole messages <+: messages := by
  obtain ⟨n, htake, -⟩ := io.exists_write_eq_take whole messages
  exact htake ▸ List.take_prefix n messages

/-- Opening an instance writes its first messages, and all of those that open it if it succeeds. -/
theorem openGeneration_ofInstances
    (h : openGeneration generation configId encoderConfig opening io = some opened)
    (hstreams : OfInstances encoderConfig sourced generation streams) :
    (∃ next, OfInstances encoderConfig (sourced ++ io.frames) next (opened ++ streams)) ∧
      (opening = .ok →
        GoesOn encoderConfig (sourced ++ io.frames) generation 1 (opened ++ streams)) := by
  have hearlier := hstreams.append io.frames
  unfold openGeneration at h
  split_ifs at h with hopened
  · obtain ⟨idr, hidr, rfl⟩ := Option.map_eq_some_iff.1 h
    have hsourced : [idr].Sublist (sourced ++ io.frames) :=
      (List.singleton_sublist.2 (List.mem_of_mem_take (List.mem_of_find?_eq_some hidr))).trans
        (List.sublist_append_right _ _)
    have hisIdr : idr.isIdr = true := List.find?_some hidr
    constructor
    · exact ⟨_, hearlier.cons
        ⟨configId, [], hisIdr, hsourced, .opening (io.write_prefix _ _)⟩⟩
    · rintro rfl
      exact ⟨_, streams, configId, [], rfl, hisIdr, hsourced, (List.append_nil _).symm, rfl,
        hearlier⟩
  · cases h
    refine ⟨⟨_, hearlier⟩, fun hok => ?_⟩
    rw [hok] at hopened
    cases hopened rfl

/-- Sending a frame writes the first of its messages, and both if it succeeds. -/
theorem GoesOn.send {latest : InstanceStream} {earlier : List InstanceStream}
    {written : List SourcedFrame}
    (h : GoesOn encoderConfig sourced generation frameId (latest :: earlier)) (whole : Bool) :
    let messages := sendSourcedFrame generation frameId encoderConfig.width encoderConfig.height
      frame
    let sent : InstanceStream := { latest with
      messages := latest.messages ++ io.write whole messages }
    OfInstances encoderConfig (sourced ++ frame :: written) (generation + 1) (sent :: earlier) ∧
      (whole = true → GoesOn encoderConfig (sourced ++ frame :: written) generation (frameId + 1)
        (sent :: earlier)) := by
  intro messages sent
  obtain ⟨_, _, configId, frames, hstreams, hidr, hsourced, hmessages, rfl, hearlier⟩ := h
  cases hstreams
  have hall := hearlier.append (frame :: written)
  have hsent : (sent.idr :: (frames ++ [frame])).Sublist (sourced ++ frame :: written) :=
    hsourced.append (List.singleton_sublist.2 List.mem_cons_self)
  have hwhole : instanceMessages generation configId encoderConfig sent.idr (frames ++ [frame]) =
    latest.messages ++ messages := by rw [instanceMessages_append_singleton, hmessages]
  constructor
  · refine hall.cons ?_
    have hbefore : (sent.idr :: frames).Sublist (sourced ++ frame :: written) :=
      hsourced.trans (List.sublist_append_left _ _)
    -- nothing of the frame, its header, or all of it
    rcases List.prefix_cons_iff.1 (io.write_prefix whole messages) with hnil | ⟨part, hpart, hp⟩
    · refine ⟨configId, frames, hidr, hbefore, ?_⟩
      have hsame : sent.messages =
          instanceMessages generation configId encoderConfig sent.idr frames := by
        simp only [sent, hnil, List.append_nil, hmessages]
      exact hsame ▸ .frames frames
    · rcases List.prefix_cons_iff.1 hp with rfl | ⟨part', rfl, hp'⟩
      · refine ⟨configId, frames, hidr, hbefore, ?_⟩
        have hheader :=
          hpart ▸ @InstanceWritten.header generation configId encoderConfig sent.idr frames _
        rw [← hmessages] at hheader
        exact hheader
      · obtain rfl := List.prefix_nil.1 hp'
        refine ⟨configId, frames ++ [frame], hidr, hsent, ?_⟩
        have hboth : sent.messages =
            instanceMessages generation configId encoderConfig sent.idr (frames ++ [frame]) := by
          rw [hwhole]
          simp only [sent, hpart]
          rfl
        exact hboth ▸ .frames (frames ++ [frame])
  · rintro rfl
    exact ⟨sent, earlier, configId, frames ++ [frame], rfl, hidr, hsent, hwhole.symm, by simp, hall⟩

/-- A round leaves the streams to instances, and those of a loop that goes on whole. -/
theorem Session.writeVideo_goesOn {s : Session} {e : LoopEvent} {streams' : List InstanceStream}
    (h : GoesOn encoderConfig sourced s.videoChannel.generation s.frameId streams)
    (hwrite : s.writeVideo encoderConfig e io streams = some streams') :
    (∃ next, OfInstances encoderConfig (sourced ++ io.frames) next streams') ∧
      ((s.handle e).1.result = none → GoesOn encoderConfig (sourced ++ io.frames)
        (s.handle e).1.videoChannel.generation (s.handle e).1.frameId streams') := by
  unfold writeVideo at hwrite
  cases hreopening : s.reopening e with
  | some opening =>
    simp only [hreopening] at hwrite
    obtain ⟨opened, hopened, rfl⟩ := Option.map_eq_some_iff.1 hwrite
    obtain ⟨hinstances, hok⟩ := openGeneration_ofInstances hopened h.ofInstances
    have hgeneration : (s.handle e).1.videoChannel.generation = s.videoChannel.generation + 1 :=
      (Prod.mk.inj (video_handle_reopening hreopening).1).1
    refine ⟨hinstances, fun hresult => ?_⟩
    obtain ⟨rfl, hframeId⟩ := handle_of_reopening hreopening hresult
    rw [hgeneration, hframeId]
    exact hok rfl
  | none =>
    have hgeneration : (s.handle e).1.videoChannel.generation = s.videoChannel.generation :=
      (Prod.mk.inj (video_handle hreopening)).1
    rw [hgeneration]
    simp only [hreopening] at hwrite
    cases hsends : s.sends e with
    | none =>
      simp only [hsends, Option.some.injEq] at hwrite
      rw [frameId_handle hreopening hsends, ← hwrite]
      exact ⟨⟨_, h.ofInstances.append io.frames⟩, fun _ => h.append io.frames⟩
    | some written =>
      simp only [hsends] at hwrite
      obtain ⟨stream, earlier, -, -, rfl, -⟩ := id h
      cases hframes : io.frames with
      | nil => simp [hframes] at hwrite
      | cons frame frames =>
        simp only [hframes, Option.some.injEq] at hwrite
        subst hwrite
        obtain ⟨hinstances, hok⟩ := @GoesOn.send _ _ _ frame _ io _ _ frames h (written = .ok ())
        refine ⟨⟨_, hinstances⟩, fun hresult => ?_⟩
        obtain ⟨rfl, hframeId⟩ := (handle_of_sends hsends).2 hresult
        rw [hframeId]
        exact hok rfl

/-! ## What a client reads -/

/-- The messages that open an instance, and more. -/
theorem introIn_opened (messages : List VideoMessage) :
    introIn monitorId ((openVideoInstance generation configId encoderConfig idr.bytes idr.captureTs
        idr.encodeDoneTs ++ messages).takeWhile (·.Short)) =
      if idr.Short then some (instanceIntro monitorId generation configId encoderConfig idr,
        messages.takeWhile (·.Short))
      else none := by
  have htake : (openVideoInstance generation configId encoderConfig idr.bytes idr.captureTs
      idr.encodeDoneTs ++ messages).takeWhile (·.Short) =
        (openVideoInstance generation configId encoderConfig idr.bytes idr.captureTs
          idr.encodeDoneTs).take 3 ++
            if idr.Short then framePayload idr.bytes :: messages.takeWhile (·.Short) else [] := by
    simp only [openVideoInstance, List.cons_append, List.nil_append, List.takeWhile_cons,
      short_generation, short_encoderConfig, short_frameHeader, short_framePayload, decide_true,
      if_true, decide_eq_true_eq]
    rfl
  rw [htake]
  split_ifs
  · exact introIn_openVideoInstance _
  · exact introIn_of_short _ (Nat.lt_succ_self 3)

/-- What the client makes of what has been written. -/
theorem InstanceWritten.introIn {messages rest : List VideoMessage} {intro : VideoInstanceIntro}
    (h : InstanceWritten generation configId encoderConfig idr frames messages)
    (hin : Sardp.introIn monitorId (messages.takeWhile (·.Short)) = some (intro, rest)) :
    intro = instanceIntro monitorId generation configId encoderConfig idr ∧
      framesIn rest = instanceFrames generation encoderConfig (frames.takeWhile (·.Short)) := by
  have hopened (frames : List SourcedFrame) {part : List VideoMessage} (hpart : framesIn part = [])
      (hshort : ∀ message ∈ part, message.Short)
      (hmessages :
        messages = instanceMessages generation configId encoderConfig idr frames ++ part) :
      intro = instanceIntro monitorId generation configId encoderConfig idr ∧
        framesIn rest = instanceFrames generation encoderConfig (frames.takeWhile (·.Short)) := by
    rw [hmessages, instanceMessages, List.append_assoc, introIn_opened] at hin
    split_ifs at hin
    cases hin
    exact ⟨rfl, framesIn_laterMessages hpart hshort 1⟩
  cases h with
  | opening hp =>
    by_cases hlength : messages.length < 4
    · rw [introIn_of_short _ ((List.takeWhile_prefix _).length_le.trans_lt hlength)] at hin
      cases hin
    · refine hopened [] rfl (List.forall_mem_nil _) ?_
      exact (hp.eq_of_length_le (Nat.le_of_not_lt hlength)).trans (List.append_nil _).symm
  | frames => exact hopened frames rfl (List.forall_mem_nil _) (List.append_nil _).symm
  | header _ header =>
    exact hopened frames rfl (List.forall_mem_singleton.2 (short_frameHeader _)) rfl

/-- A client makes of a stream what has been written on it of the instance, up to the first frame
    that is too long, and nothing else of what arrives of it. -/
def Delivers (codec : VideoCodec) (generation configId : ℕ) (encoderConfig : Wire.EncoderConfig)
    (idr : SourcedFrame) (frames : List SourcedFrame) (messages : List VideoMessage) : Prop :=
  ∀ monitorId bytes recv, VideoCodec.streamBytes monitorId messages = some bytes →
    symbols recv.chunks <+: bytes →
    (∀ intro reader, codec.acceptVideoInstance (.ok recv) = .ok (intro, reader) →
      intro = instanceIntro monitorId generation configId encoderConfig idr ∧
        ∀ n, (codec.framesRead reader n).filterMap (·.toOption) <+:
          instanceFrames generation encoderConfig (frames.takeWhile (·.Short))) ∧
    (symbols recv.chunks = bytes → idr.Short →
      openVideoInstance generation configId encoderConfig idr.bytes idr.captureTs
          idr.encodeDoneTs <+: messages →
        ∃ reader, codec.acceptVideoInstance (.ok recv) =
          .ok (instanceIntro monitorId generation configId encoderConfig idr, reader) ∧
          ∀ n, (codec.framesRead reader n).filterMap (·.toOption) =
            (instanceFrames generation encoderConfig (frames.takeWhile (·.Short))).take n)

theorem InstanceWritten.delivers {codec : VideoCodec} {messages : List VideoMessage}
    (h : InstanceWritten generation configId encoderConfig idr frames messages)
    (hcodec : codec.ReadsBack) (hfits : ∀ message ∈ messages, message.Fits) :
    Delivers codec generation configId encoderConfig idr frames messages := by
  intro monitorId bytes recv hwritten hp
  constructor
  · intro intro reader haccept
    obtain ⟨rest, hin, hread⟩ := VideoCodec.introIn_of_accepted hcodec hfits hwritten hp haccept
    obtain ⟨rfl, hframes⟩ := h.introIn hin
    exact ⟨rfl, fun n => hframes ▸ hread n⟩
  · rintro hwhole hidr ⟨more, rfl⟩
    have hin : Sardp.introIn monitorId ((openVideoInstance generation configId encoderConfig
        idr.bytes idr.captureTs idr.encodeDoneTs ++ more).takeWhile (·.Short)) = _ :=
      introIn_opened more
    rw [if_pos hidr] at hin
    obtain ⟨reader, haccept, hread⟩ :=
      VideoCodec.accepted_of_introIn hcodec hfits hwritten hwhole hin
    exact ⟨reader, haccept, fun n => (h.introIn hin).2 ▸ hread n⟩

/-! ## The streams of a connection -/

namespace Connection

/-- What is on the streams of a connection by the await it is in. -/
def Instances (encoderConfig : Wire.EncoderConfig) (sourced : List SourcedFrame)
    (streams : List InstanceStream) : Connection → Prop
  | .establishing | .live _ _ .timeSync | .live _ _ .opening => streams = []
  | .live _ _ (.acceptingFeedback videoChannel _) =>
    GoesOn encoderConfig sourced videoChannel.generation 1 streams
  | .live _ _ (.active session _) =>
    GoesOn encoderConfig sourced session.videoChannel.generation session.frameId streams
  | .ended _ => ∃ next, OfInstances encoderConfig sourced next streams

variable {c : Connection}

theorem Instances.append (more : List SourcedFrame)
    (h : c.Instances encoderConfig sourced streams) :
    c.Instances encoderConfig (sourced ++ more) streams := by
  cases c with
  | establishing => exact h
  | live n ctx await =>
    cases await with
    | timeSync | opening => exact h
    | acceptingFeedback | active => exact GoesOn.append more h
  | ended =>
    obtain ⟨next, h⟩ := h
    exact ⟨next, h.append more⟩

theorem Instances.ofInstances (h : c.Instances encoderConfig sourced streams) :
    ∃ next, OfInstances encoderConfig sourced next streams := by
  cases c with
  | establishing => exact ⟨0, h ▸ .nil⟩
  | live n ctx await =>
    cases await with
    | timeSync | opening => exact ⟨0, h ▸ .nil⟩
    | acceptingFeedback | active => exact ⟨_, GoesOn.ofInstances h⟩
  | ended => exact h

/-- What is on the streams when a connection ends stays there. -/
theorem Instances.setConnection {server : Server} {i : ℕ}
    (h : c.Instances encoderConfig sourced streams) :
    ((server.setConnection i c).connections i).Instances encoderConfig sourced streams := by
  have hself : (server.setConnection i c).connections i = c := Function.update_self ..
  rwa [hself]

end Connection

namespace VideoServer

/-- The streams of every connection are those of its await. -/
def InstancesInv (encoderConfig : ℕ → Wire.EncoderConfig) (es : List (ServerEvent × FrameIo))
    (s : VideoServer) : Prop :=
  s.encoderConfig = encoderConfig ∧ ∀ i,
    (s.server.connections i).Instances (encoderConfig i) (sourcedOf i es) (s.streams i)

variable {s s' : VideoServer} {e : ServerEvent × FrameIo}

/-- Opening the first instance of a connection opens its first stream. -/
theorem instances_openGeneration {server : Server} {i n : ℕ} {ctx : ConnectionContext}
    (h : openGeneration ctx.startingGeneration 0 encoderConfig opening io = some opened) :
    ((server.openGeneration i n ctx opening).connections i).Instances encoderConfig
      (sourced ++ io.frames) opened := by
  have hnil : OfInstances encoderConfig sourced ctx.startingGeneration [] := .nil
  obtain ⟨hinstances, hok⟩ := openGeneration_ofInstances h hnil
  rw [List.append_nil] at hinstances hok
  unfold Server.openGeneration
  dsimp only
  split
  · exact Connection.Instances.setConnection hinstances
  · next hresult =>
    obtain rfl : opening = .ok := by cases opening <;> first | rfl | cases hresult
    rw [VideoChannel.markInstanceStreaming_new]
    dsimp only
    split
    · exact Connection.Instances.setConnection hinstances
    · exact Connection.Instances.setConnection (hok rfl)

/-- What a step of a connection leaves on its streams. -/
theorem writeVideo_instances {i : ℕ} {e' : ConnectionEvent} {server : Server}
    (h : (s.server.connections i).Instances (s.encoderConfig i) sourced (s.streams i))
    (hstep : s.server.step (.connection i e') = some server)
    (hwrite : s.writeVideo i e' io = some streams) :
    (server.connections i).Instances (s.encoderConfig i) (sourced ++ io.frames) streams := by
  have hmore := h.append io.frames
  obtain ⟨next, hended⟩ := hmore.ofInstances
  cases Server.takes_of_step hstep with
  | establish hi first =>
    simp only [writeVideo, hi, Option.some.injEq] at hwrite
    rw [hi] at hmore
    subst hwrite
    unfold Server.establish
    split
    · exact Connection.Instances.setConnection ⟨next, hended⟩
    · exact Connection.Instances.setConnection ⟨next, hended⟩
    · exact Connection.Instances.setConnection hmore
  | timeSync hi answered =>
    simp only [writeVideo, hi, Option.some.injEq] at hwrite
    rw [hi] at hmore
    subst hwrite
    cases answered with
    | error e => exact Connection.Instances.setConnection ⟨next, hended⟩
    | ok _ => exact Connection.Instances.setConnection hmore
  | openGeneration hi opening =>
    simp only [writeVideo, hi] at hwrite
    rw [hi] at h
    obtain ⟨opened, hopened, rfl⟩ := Option.map_eq_some_iff.1 hwrite
    have hnil : s.streams i = [] := h
    rw [hnil, List.append_nil]
    exact instances_openGeneration hopened
  | acceptFeedback hi accepted =>
    simp only [writeVideo, hi, Option.some.injEq] at hwrite
    rw [hi] at hmore
    subst hwrite
    cases accepted with
    | error e => exact Connection.Instances.setConnection ⟨next, hended⟩
    | ok _ => exact Connection.Instances.setConnection hmore
  | loop hi he =>
    simp only [writeVideo, hi] at hwrite
    rw [hi] at h
    obtain ⟨hinstances, hgoesOn⟩ := Session.writeVideo_goesOn h hwrite
    unfold Server.loop
    dsimp only
    split
    · next hresult => exact Connection.Instances.setConnection (hgoesOn hresult)
    · unfold Server.endLoop
      repeat' split
      all_goals exact Connection.Instances.setConnection hinstances

theorem sourcedOf_append_singleton (i : ℕ) (es : List (ServerEvent × FrameIo))
    (e : ServerEvent × FrameIo) : sourcedOf i (es ++ [e]) = sourcedOf i es ++ sourcedOf i [e] :=
  List.flatMap_append

/-- A step writes on the streams of its connection only what belongs to its instances. -/
theorem instancesInv_step (configs : ℕ → Wire.EncoderConfig) (es : List (ServerEvent × FrameIo))
    (s : VideoServer) (e : ServerEvent × FrameIo) (s' : VideoServer) (h : s.InstancesInv configs es)
    (hstep : machine.step s e = some s') : s'.InstancesInv configs (es ++ [e]) := by
  obtain ⟨rfl, h⟩ := h
  obtain ⟨e, io⟩ := e
  obtain ⟨server, hserver, hstep⟩ := Option.bind_eq_some_iff.1 hstep
  cases e with
  | expire id token =>
    obtain rfl := Option.some.inj hstep
    refine ⟨rfl, fun j => ?_⟩
    have hsame : server.connections j = s.server.connections j :=
      connections_of_step hserver (by simp)
    rw [sourcedOf_append_singleton]
    exact hsame.symm ▸ (h j).append _
  | connection i e' =>
    obtain ⟨streams, hwrite, rfl⟩ := Option.map_eq_some_iff.1 hstep
    refine ⟨rfl, fun j => ?_⟩
    rw [sourcedOf_append_singleton]
    by_cases hj : j = i
    · subst hj
      have hself : sourcedOf j [(.connection j e', io)] = io.frames := by simp [sourcedOf]
      rw [hself]
      simpa using writeVideo_instances (h j) hserver hwrite
    · have hsame : server.connections j = s.server.connections j :=
        connections_of_step hserver (by simpa using hj)
      simpa [hj, hsame] using (h j).append _

theorem instancesInv_new (synthetic : Bool) (encoderConfig : ℕ → Wire.EncoderConfig) :
    (new synthetic encoderConfig).InstancesInv encoderConfig [] :=
  ⟨rfl, fun _ => rfl⟩

/-- In a run of the server, what has been written on every stream of a connection is of an instance,
    of a later generation than those before it: the frames are frames of the source in their order,
    the first an IDR. Whatever part of the stream a client receives, and in whatever pieces, the
    client accepts it only with that IDR, and then reads the first of the frames that have been
    written after it, numbered from 1 without a gap; and if it receives all that has been written,
    and that is at least the IDR, it accepts it and reads all the frames up to the first that is
    longer than the stream allows. -/
theorem frames_delivered {codec : VideoCodec} (hcodec : codec.ReadsBack) {synthetic : Bool}
    {encoderConfig : ℕ → Wire.EncoderConfig} {es : List (ServerEvent × FrameIo)}
    (hrun : machine.run (new synthetic encoderConfig) es = some s) (i : ℕ)
    (hfits : ∀ stream ∈ s.streams i, ∀ message ∈ stream.messages, message.Fits) :
    ∃ generations : List ℕ, generations.Pairwise (· > ·) ∧
      List.Forall₂ (fun generation stream => ∃ configId frames,
        stream.idr.isIdr = true ∧ (stream.idr :: frames).Sublist (sourcedOf i es) ∧
        InstanceWritten generation configId (encoderConfig i) stream.idr frames stream.messages ∧
        Delivers codec generation configId (encoderConfig i) stream.idr frames stream.messages)
        generations (s.streams i) := by
  obtain ⟨-, h⟩ := Machine.run_history (R := InstancesInv encoderConfig)
    (instancesInv_step encoderConfig) (instancesInv_new synthetic encoderConfig) hrun
  obtain ⟨next, generations, hof, hlater⟩ := (h i).ofInstances
  refine ⟨generations, hlater.of_cons, ?_⟩
  have hall := ((List.forall₂_and_left _ _).2 ⟨hfits, hof.flip⟩).flip
  refine hall.imp fun generation stream ⟨hfits, hstream⟩ => ?_
  obtain ⟨configId, frames, hidr, hsourced, hwritten⟩ := hstream
  exact ⟨configId, frames, hidr, hsourced, hwritten, hwritten.delivers hcodec hfits⟩

/-- A connection that reopens its video, and then sends a frame. -/
theorem frames_delivered_reopened :
    ∃ s, machine.run (new true fun _ => vga)
        (withIdr (Server.freshSession ++ reopening :: sendingFrame)) = some s ∧
      s.numbers 0 = [[(1, 1, 0), (1, 1, 1)], [(0, 0, 0)]] ∧
      ∃ generations : List ℕ, generations.length = 2 ∧ generations.Pairwise (· > ·) ∧
        List.Forall₂ (fun generation stream => ∃ configId frames,
          Delivers .ofFormats generation configId vga stream.idr frames stream.messages)
          generations (s.streams 0) := by
  obtain ⟨s, hrun, hnumbers, htwo, hfits⟩ : ∃ s, machine.run (new true fun _ => vga)
      (withIdr (Server.freshSession ++ reopening :: sendingFrame)) = some s ∧
      s.numbers 0 = [[(1, 1, 0), (1, 1, 1)], [(0, 0, 0)]] ∧ (s.streams 0).length = 2 ∧
      (s.streams 0).all (fun stream => stream.messages.all fun message => message.Fits) = true :=
    ⟨_, rfl, rfl, rfl, rfl⟩
  have hfits' : ∀ stream ∈ s.streams 0, ∀ message ∈ stream.messages, message.Fits := by
    simpa using hfits
  obtain ⟨generations, hlater, hof⟩ :=
    frames_delivered VideoCodec.readsBack_ofFormats hrun 0 hfits'
  refine ⟨s, hrun, hnumbers, generations, hof.length_eq.trans htwo, hlater, hof.imp ?_⟩
  rintro generation stream ⟨configId, frames, -, -, -, hdelivers⟩
  exact ⟨configId, frames, hdelivers⟩

end VideoServer

end Sardp
