import Sardp.Server.DesktopSession
import Sardp.Server.Resumption
import Sardp.Wire.FrameMessages

/-!
# What the server writes on the streams of its instances

Every instance has a stream of its own, on which the server writes the generation and the number of
the configuration once, and both again with every frame (`open_video_instance` and
`send_video_frame` in `video_session.rs`). The generation of a frame and its number come from the
variables of the loop; the number of the configuration is a constant, in each of the three places
where one is written: 0 where a connection opens its first instance, 1 where it reopens its video,
and 1 with every frame sent after the first one of an instance.

So what is written on a stream agrees, except for the frames sent on the first stream of a
connection (`VideoServer.consistent_iff_reopened`).
-/

namespace Sardp

/-! ## What is written -/

/-- A message on a video stream. -/
inductive VideoMessage
  | generation (message : Wire.VideoStreamGeneration)
  | encoderConfig (message : Wire.EncoderConfig)
  | frameHeader (message : Wire.VideoFrameHeader)
  | framePayload (payload : List UInt8)
  deriving DecidableEq

def VideoMessage.header? : VideoMessage → Option Wire.VideoFrameHeader
  | .frameHeader header => some header
  | _ => none

/-- A frame of the source. -/
structure SourcedFrame where
  bytes : List UInt8
  isIdr : Bool
  captureTs : ℕ
  encodeDoneTs : ℕ
  deriving DecidableEq

/-- The stream of an instance: the frame it was opened with, and what has been written on it. -/
structure InstanceStream where
  idr : SourcedFrame
  messages : List VideoMessage
  deriving DecidableEq

/-- What the writing of a round meets: the next frames of the source, and the number of messages
    that are written before a write fails or is given up. -/
structure FrameIo where
  frames : List SourcedFrame
  written : ℕ
  deriving DecidableEq

/-- Opening an instance: its setup and its first frame. -/
def openVideoInstance (generation configId : ℕ) (encoderConfig : Wire.EncoderConfig)
    (idrPayload : List UInt8) (captureTs encodeDoneTs : ℕ) : List VideoMessage :=
  [.generation { generation, configId }, .encoderConfig encoderConfig,
    .frameHeader {
      generation, frameId := 0, configId, flags := Wire.VIDEO_FRAME_FLAG_IDR, captureTs,
      encodeDoneTs, width := encoderConfig.width, height := encoderConfig.height,
      payloadLen := idrPayload.length },
    .framePayload idrPayload]

/-- Sending a frame other than the first. -/
def sendVideoFrame (generation frameId configId : ℕ) (flags : UInt8)
    (captureTs encodeDoneTs width height : ℕ) (payload : List UInt8) : List VideoMessage :=
  [.frameHeader {
      generation, frameId, configId, flags, captureTs, encodeDoneTs, width, height,
      payloadLen := payload.length },
    .framePayload payload]

/-- Sending a frame of the source. -/
def sendSourcedFrame (generation frameId width height : ℕ) (frame : SourcedFrame) :
    List VideoMessage :=
  let flags := if frame.isIdr then Wire.VIDEO_FRAME_FLAG_IDR else 0
  sendVideoFrame generation frameId 1 flags frame.captureTs frame.encodeDoneTs width height
    frame.bytes

/-- The first frame that can open an instance. -/
def nextIdrFrame (frames : List SourcedFrame) : Option SourcedFrame :=
  (frames.take MAX_FRAMES_TO_SKIP_FOR_IDR).find? SourcedFrame.isIdr

/-- What of the messages is written: all of them, or some at the start. -/
def FrameIo.write (io : FrameIo) (whole : Bool) (messages : List VideoMessage) :
    List VideoMessage :=
  if whole then messages else messages.take io.written

/-- The stream that opening an instance opens, if it comes to that. -/
def openGeneration (generation configId : ℕ) (encoderConfig : Wire.EncoderConfig)
    (opening : OpenOutcome) (io : FrameIo) : Option (List InstanceStream) :=
  if opening.streamOpened then
    (nextIdrFrame io.frames).map fun idr => [⟨idr, io.write (opening = .ok)
      (openVideoInstance generation configId encoderConfig idr.bytes idr.captureTs
        idr.encodeDoneTs)⟩]
  else some []

namespace Session

/-- What becomes of writing a frame, in a round that sends one. -/
def sends (s : Session) : LoopEvent → Option Written
  | .frame (.ok true) written =>
    if s.permissionSm.isGranted Bit.VIEW && s.synthetic then some written else none
  | .desktopFrame (.ok true) written =>
    if s.permissionSm.isGranted Bit.VIEW then some written else none
  | _ => none

/-- A round writes the header of a frame. -/
def writesHeader (s : Session) (e : LoopEvent) (io : FrameIo) : Bool :=
  (s.sends e).any fun written => written = .ok () || 0 < io.written

/-- What a round does with the streams, the latest of which is the first. -/
def writeVideo (s : Session) (encoderConfig : Wire.EncoderConfig) (e : LoopEvent) (io : FrameIo)
    (streams : List InstanceStream) : Option (List InstanceStream) :=
  match s.reopening e with
  | some opening =>
    (openGeneration s.videoChannel.prepareReopen.generation 1 encoderConfig opening io).map
      (· ++ streams)
  | none =>
    match s.sends e with
    | none => some streams
    | some written =>
      match io.frames, streams with
      | frame :: _, stream :: earlier =>
        let messages := sendSourcedFrame s.videoChannel.generation s.frameId encoderConfig.width
          encoderConfig.height frame
        some ({ stream with
          messages := stream.messages ++ io.write (written = .ok ()) messages } :: earlier)
      | _, _ => none

end Session

/-- The server, with the streams of the instances of every connection. -/
structure VideoServer where
  server : Server
  /-- How the video of a connection is encoded. -/
  encoderConfig : ℕ → Wire.EncoderConfig
  /-- The streams of a connection, the latest first. -/
  streams : ℕ → List InstanceStream

namespace VideoServer

/-- The server before the first connection. -/
def new (synthetic : Bool) (encoderConfig : ℕ → Wire.EncoderConfig) : VideoServer :=
  ⟨.new synthetic, encoderConfig, fun _ => []⟩

/-- What a step of a connection does with its streams. -/
def writeVideo (s : VideoServer) (i : ℕ) (e : ConnectionEvent) (io : FrameIo) :
    Option (List InstanceStream) :=
  match s.server.connections i, e with
  | .live _ ctx .opening, .openGeneration opening =>
    (openGeneration ctx.startingGeneration 0 (s.encoderConfig i) opening io).map (· ++ s.streams i)
  | .live _ _ (.active session _), .loop e =>
    session.writeVideo (s.encoderConfig i) e io (s.streams i)
  | _, _ => some (s.streams i)

/-- A step of the server, with what its writing meets. -/
def step (s : VideoServer) (e : ServerEvent × FrameIo) : Option VideoServer :=
  (s.server.step e.1).bind fun server =>
    match e.1 with
    | .connection i e' =>
      (s.writeVideo i e' e.2).map fun streams =>
        { s with server, streams := Function.update s.streams i streams }
    | .expire _ _ => some { s with server }

/-- The steps as a machine. -/
def machine : Machine VideoServer (ServerEvent × FrameIo) := ⟨step⟩

end VideoServer

/-! ## What is on a stream -/

theorem FrameIo.exists_write_eq_take (io : FrameIo) (whole : Bool) (messages : List VideoMessage) :
    ∃ n, io.write whole messages = messages.take n ∧ (0 < n ↔ whole = true ∨ 0 < io.written) ∧
      (whole = true → messages.length ≤ n) := by
  cases whole with
  | false => exact ⟨io.written, rfl, by simp, by simp⟩
  | true =>
    exact ⟨messages.length + 1, (List.take_of_length_le (Nat.le_succ _)).symm, by simp, by simp⟩

namespace InstanceStream

/-- The headers of the frames, in the order they are sent. -/
def headers (stream : InstanceStream) : List Wire.VideoFrameHeader :=
  stream.messages.filterMap VideoMessage.header?

/-- Every frame is of the generation and the configuration of the stream, the frames are numbered
    from 0, and the first one is an IDR. -/
structure Consistent (stream : InstanceStream) : Prop where
  identified : ∀ announced, .generation announced ∈ stream.messages → ∀ header ∈ stream.headers,
    header.generation = announced.generation ∧ header.configId = announced.configId
  numbered : stream.headers.map Wire.VideoFrameHeader.frameId = List.range stream.headers.length
  idr : stream.idr.isIdr = true ∧ ∀ header ∈ stream.headers.head?, header.isIdr = true

/-- What the server writes on a stream of the generation that is opened with the configuration: all
    agrees but for the configuration of the frames after the first one. -/
structure Formed (stream : InstanceStream) (generation configId : ℕ) : Prop where
  announced : ∀ announced, .generation announced ∈ stream.messages →
    announced = ⟨generation, configId⟩
  announces : stream.headers ≠ [] → .generation ⟨generation, configId⟩ ∈ stream.messages
  generation : ∀ header ∈ stream.headers, header.generation = generation
  first : ∀ header ∈ stream.headers.head?, header.configId = configId
  later : ∀ header ∈ stream.headers.tail, header.configId = 1
  numbered : stream.headers.map Wire.VideoFrameHeader.frameId = List.range stream.headers.length
  idr : stream.idr.isIdr = true ∧ ∀ header ∈ stream.headers.head?, header.isIdr = true

variable {stream : InstanceStream} {generation configId : ℕ}

/-- Such a stream is consistent as long as there is no frame after the first, and beyond that if
    its configuration is the one of these frames. -/
theorem Formed.consistent_iff (h : stream.Formed generation configId) :
    stream.Consistent ↔ stream.headers.length ≤ 1 ∨ configId = 1 := by
  constructor
  · intro hconsistent
    cases hheaders : stream.headers with
    | nil => simp
    | cons header headers =>
      cases headers with
      | nil => simp
      | cons later headers =>
        -- the second frame has the configuration 1
        have hne : stream.headers ≠ [] := by simp [hheaders]
        have hmem : later ∈ stream.headers := by simp [hheaders]
        have hconfig := (hconsistent.identified _ (h.announces hne) later hmem).2
        have hlater := h.later later (by simp [hheaders])
        exact .inr (hconfig.symm.trans hlater)
  · intro hone
    refine ⟨fun announced hannounced header hheader => ?_, h.numbered, h.idr⟩
    rw [h.announced announced hannounced]
    refine ⟨h.generation header hheader, ?_⟩
    cases hheaders : stream.headers with
    | nil => simp [hheaders] at hheader
    | cons first headers =>
      have hfirst : first.configId = configId := h.first first (by simp [hheaders])
      rw [hheaders] at hheader
      rcases List.mem_cons.1 hheader with rfl | htail
      · exact hfirst
      · rcases hone with hlength | rfl
        · simp [hheaders] at hlength
          simp [hlength] at htail
        · exact h.later header (by rwa [hheaders])

/-- The header of the first frame is the third message of the setup. -/
theorem exists_header_openVideoInstance (generation configId : ℕ)
    (encoderConfig : Wire.EncoderConfig) (idrPayload : List UInt8) (captureTs encodeDoneTs : ℕ) :
    ∃ header : Wire.VideoFrameHeader, header.generation = generation ∧ header.frameId = 0 ∧
      header.configId = configId ∧ header.isIdr = true ∧
      ∀ n, ((openVideoInstance generation configId encoderConfig idrPayload captureTs
        encodeDoneTs).take n).filterMap VideoMessage.header? = if 3 ≤ n then [header] else [] := by
  refine ⟨⟨generation, 0, configId, Wire.VIDEO_FRAME_FLAG_IDR, captureTs, encodeDoneTs,
    encoderConfig.width, encoderConfig.height, idrPayload.length⟩, rfl, rfl, rfl, ?_, fun n => ?_⟩
  · simp [Wire.VideoFrameHeader.isIdr, Wire.VIDEO_FRAME_FLAG_IDR]
  · match n with
    | 0 | 1 | 2 | 3 => rfl
    | n + 4 =>
      rw [if_pos (by omega), List.take_of_length_le (by simp [openVideoInstance])]
      rfl

/-- What of the setup is written is formed. -/
theorem formed_take_openVideoInstance {idr : SourcedFrame} (hidr : idr.isIdr = true)
    (generation configId : ℕ) (encoderConfig : Wire.EncoderConfig) (n : ℕ) :
    let stream : InstanceStream := ⟨idr, (openVideoInstance generation configId encoderConfig
      idr.bytes idr.captureTs idr.encodeDoneTs).take n⟩
    stream.Formed generation configId ∧ stream.headers.length = if 3 ≤ n then 1 else 0 := by
  intro stream
  obtain ⟨header, hgeneration, hframe, hconfig, hflag, htake⟩ := exists_header_openVideoInstance
    generation configId encoderConfig idr.bytes idr.captureTs idr.encodeDoneTs
  have hheaders : stream.headers = if 3 ≤ n then [header] else [] := htake n
  have hannounced : ∀ announced, .generation announced ∈ stream.messages →
      announced = ⟨generation, configId⟩ := fun announced hmem => by
    simpa [openVideoInstance] using List.mem_of_mem_take hmem
  split_ifs at hheaders ⊢ with hn
  · have hannounces : .generation ⟨generation, configId⟩ ∈ stream.messages := by
      obtain ⟨n, rfl⟩ := Nat.exists_eq_succ_of_ne_zero (Nat.ne_zero_of_lt hn)
      exact List.mem_cons_self
    exact ⟨⟨hannounced, fun _ => hannounces, by simp [hheaders, hgeneration],
      by simp [hheaders, hconfig], by simp [hheaders], by simp [hheaders, hframe],
      hidr, by simp [hheaders, hflag]⟩, by simp [hheaders]⟩
  · exact ⟨⟨hannounced, fun hne => absurd hheaders hne, by simp [hheaders], by simp [hheaders],
      by simp [hheaders], by simp [hheaders], hidr, by simp [hheaders]⟩, by simp [hheaders]⟩

/-- The header is the first message of sending a frame. -/
theorem exists_header_sendSourcedFrame (generation frameId width height : ℕ)
    (frame : SourcedFrame) :
    ∃ header : Wire.VideoFrameHeader, header.generation = generation ∧ header.frameId = frameId ∧
      header.configId = 1 ∧ ∀ n, ((sendSourcedFrame generation frameId width height frame).take
        n).filterMap VideoMessage.header? = if 0 < n then [header] else [] := by
  refine ⟨⟨generation, frameId, 1, if frame.isIdr then Wire.VIDEO_FRAME_FLAG_IDR else 0,
    frame.captureTs, frame.encodeDoneTs, width, height, frame.bytes.length⟩, rfl, rfl, rfl,
    fun n => ?_⟩
  match n with
  | 0 | 1 => rfl
  | n + 2 => simp [sendSourcedFrame, sendVideoFrame, VideoMessage.header?]

/-- The next frame is formed. -/
theorem Formed.take_sendSourcedFrame (h : stream.Formed generation configId)
    (hne : stream.headers ≠ []) (frame : SourcedFrame) (width height n : ℕ) :
    let sent : InstanceStream := { stream with
      messages := stream.messages ++
        (sendSourcedFrame generation stream.headers.length width height frame).take n }
    sent.Formed generation configId ∧
      sent.headers.length = stream.headers.length + if 0 < n then 1 else 0 := by
  intro sent
  obtain ⟨header, hgeneration, hframe, hconfig, htake⟩ := exists_header_sendSourcedFrame generation
    stream.headers.length width height frame
  have hheaders : sent.headers = stream.headers ++ if 0 < n then [header] else [] := by
    rw [← htake n]
    exact List.filterMap_append
  have hannounced : ∀ announced, .generation announced ∈ sent.messages ↔
      .generation announced ∈ stream.messages := fun announced => by
    refine List.mem_append.trans (or_iff_left fun hmem => ?_)
    have := List.mem_of_mem_take hmem
    simp [sendSourcedFrame, sendVideoFrame] at this
  have hhead : sent.headers.head? = stream.headers.head? := by
    rw [hheaders, List.head?_append_of_ne_nil _ hne]
  have htail : sent.headers.tail = stream.headers.tail ++ if 0 < n then [header] else [] := by
    rw [hheaders, List.tail_append_of_ne_nil hne]
  refine ⟨⟨fun announced hmem => h.announced announced ((hannounced announced).1 hmem),
    fun _ => (hannounced _).2 (h.announces hne), fun header' hmem => ?_, fun header' hmem => ?_,
    fun header' hmem => ?_, ?_, h.idr.1, fun header' hmem => ?_⟩, ?_⟩
  · rw [hheaders] at hmem
    rcases List.mem_append.1 hmem with hmem | hmem
    · exact h.generation header' hmem
    · split_ifs at hmem <;> simp_all
  · exact h.first header' (hhead ▸ hmem)
  · rw [htail] at hmem
    rcases List.mem_append.1 hmem with hmem | hmem
    · exact h.later header' hmem
    · split_ifs at hmem <;> simp_all
  · rw [hheaders, List.map_append, h.numbered]
    split_ifs <;> simp [hframe, List.range_succ]
  · exact h.idr.2 header' (hhead ▸ hmem)
  · rw [hheaders]
    split_ifs <;> simp

end InstanceStream

/-! ## What a round writes -/

namespace Session

variable {s : Session} {e : LoopEvent}

/-- A round that sends a frame does nothing else with the video. -/
theorem handle_of_sends {written : Written} (h : s.sends e = some written) :
    s.reopening e = none ∧
      ((s.handle e).1.result = none →
        written = .ok () ∧ (s.handle e).1.frameId = s.frameId + 1) := by
  have hsend : ∀ s₁ : Session, s₁.frameId = s.frameId → (s₁.sendFrame written).result = none →
      written = .ok () ∧ (s₁.sendFrame written).frameId = s.frameId + 1 := by
    intro s₁ hframeId hresult
    cases written with
    | error e => cases hresult
    | ok _ => exact ⟨rfl, by rw [← hframeId]; rfl⟩
  unfold sends at h
  split at h
  · split_ifs at h with hview
    cases h
    obtain ⟨hview, hsynthetic⟩ := Bool.and_eq_true_iff.1 hview
    have hhandle : (s.handle (.frame (.ok true) written)).1 =
        { s with phase := .selecting }.sendFrame written := by
      simp [handle, handleFrame, hview, hsynthetic]
    exact ⟨rfl, hhandle ▸ hsend _ rfl⟩
  · split_ifs at h with hview
    cases h
    have hhandle : (s.handle (.desktopFrame (.ok true) written)).1 = s.sendFrame written := by
      simp [handle, handleDesktopFrame, hview]
    exact ⟨rfl, hhandle ▸ hsend _ rfl⟩
  · cases h

theorem frameId_writeControl (s : Session) (message : ControlOut) (written : Written) :
    (s.writeControl message written).frameId = s.frameId := by
  cases written <;> rfl

theorem frameId_handleControl (s : Session) (message : Except StreamReadError ControlMessage)
    (written : Written) : (s.handleControl message written).1.frameId = s.frameId := by
  unfold handleControl
  split <;> try first | rfl | exact frameId_writeControl ..
  unfold handleFileTransferRequest
  repeat' split
  all_goals exact frameId_writeControl ..

/-- A round that neither sends a frame nor reopens the video goes on with the same number. -/
theorem frameId_handle (hreopening : s.reopening e = none) (hsends : s.sends e = none) :
    (s.handle e).1.frameId = s.frameId := by
  cases e with
  | shutdown | idleTimeout | frameTick => rfl
  | keepalive written => exact frameId_writeControl ..
  | control message written => exact frameId_handleControl ..
  | command command written =>
    cases command with
    | togglePermission bit grant => exact frameId_writeControl ..
    | sendClipboard =>
      simp only [handle, handleCommand]
      split <;> rfl
  | frame frame written =>
    simp only [handle, handleFrame]
    split_ifs with hview hsynthetic
    · rfl
    · rfl
    · split
      · rfl
      · rfl
      · simp_all [sends]
  | desktopFrame frame written =>
    simp only [handle, handleDesktopFrame]
    split
    · rfl
    · rfl
    · split_ifs with hview
      · rfl
      · simp_all [sends]
  | feedback nowUs message opening =>
    simp only [handle, handleFeedback]
    split
    · rfl
    · split
      · next hreopen => simp [reopening, hreopen] at hreopening
      · rfl
    · rfl
    · split
      · rfl
      · next hreset => simp [reopening, hreset] at hreopening
      · rfl
  | audioTick opening written =>
    simp only [handle, handleAudioTick]
    repeat' split
    all_goals rfl
  | incomingUni accepted config =>
    simp only [handle, handleIncomingUni]
    repeat' split
    all_goals rfl
  | input handled =>
    simp only [handle, handleInput]
    split <;> rfl
  | clipboardFormats accepted =>
    simp only [handle, handleClipboardFormats]
    repeat' split
    all_goals rfl

/-- A round that reopens the video starts with the number 1 again, if the loop goes on. -/
theorem handle_of_reopening {opening : OpenOutcome} (h : s.reopening e = some opening)
    (hresult : (s.handle e).1.result = none) :
    opening = .ok ∧ (s.handle e).1.frameId = 1 := by
  obtain ⟨s₁, -, -, heq⟩ := handle_eq_reopen h
  obtain ⟨c, hc⟩ := VideoChannel.markInstanceStreaming_of_new
    (c := s₁.videoChannel.prepareReopen) rfl
  rw [heq] at hresult ⊢
  unfold reopenVideoGeneration at hresult ⊢
  cases opening with
  | ok =>
    simp only [OpenOutcome.result, hc]
    exact ⟨trivial, trivial⟩
  | _ => cases hresult

end Session

/-! ## The streams of a connection -/

/-- The latest stream is the one of the generation, with the frames sent so far; the configuration
    of the first stream of a connection is 0, and that of the others 1. -/
def SendsOn (startingGeneration generation frameId : ℕ) (streams : List InstanceStream) : Prop :=
  startingGeneration ≤ generation ∧ ∃ stream earlier, streams = stream :: earlier ∧
    stream.Formed generation (if generation = startingGeneration then 0 else 1) ∧
    stream.headers.length = frameId ∧ 0 < frameId

/-- A new stream is formed, and consistent, whether its frame is written or not. -/
theorem openGeneration_spec {generation configId : ℕ} {encoderConfig : Wire.EncoderConfig}
    {opening : OpenOutcome} {io : FrameIo} {opened : List InstanceStream}
    (h : openGeneration generation configId encoderConfig opening io = some opened) :
    (∀ stream ∈ opened, stream.Consistent) ∧
      (opening = .ok → ∃ stream, opened = [stream] ∧ stream.Formed generation configId ∧
        stream.headers.length = 1) := by
  unfold openGeneration at h
  split_ifs at h with hopened
  · obtain ⟨idr, hidr, rfl⟩ := Option.map_eq_some_iff.1 h
    have hisIdr : idr.isIdr = true := List.find?_some hidr
    obtain ⟨n, hwrite, -, hwhole⟩ := io.exists_write_eq_take (opening = .ok)
      (openVideoInstance generation configId encoderConfig idr.bytes idr.captureTs idr.encodeDoneTs)
    obtain ⟨hformed, hlength⟩ := InstanceStream.formed_take_openVideoInstance hisIdr generation
      configId encoderConfig n
    rw [hwrite]
    refine ⟨fun stream hstream => ?_, fun hok => ⟨_, rfl, hformed, ?_⟩⟩
    · obtain rfl := List.mem_singleton.1 hstream
      refine hformed.consistent_iff.2 (.inl ?_)
      rw [hlength]
      split_ifs <;> simp
    · have hn : 4 ≤ n := hwhole (decide_eq_true hok)
      rw [hlength, if_pos (by omega)]
  · cases h
    refine ⟨by simp, fun hok => ?_⟩
    rw [hok] at hopened
    cases hopened rfl

variable {startingGeneration generation frameId : ℕ} {streams : List InstanceStream}

/-- A stream that is opened for the next generation leaves the others as they were, and is the one
    to go on with. -/
theorem SendsOn.reopen (h : SendsOn startingGeneration generation frameId streams)
    {encoderConfig : Wire.EncoderConfig} {opening : OpenOutcome} {io : FrameIo}
    {opened : List InstanceStream}
    (hopened : openGeneration (generation + 1) 1 encoderConfig opening io = some opened) :
    ((∀ stream ∈ opened ++ streams, stream.Consistent) ↔ ∀ stream ∈ streams, stream.Consistent) ∧
      (opening = .ok → SendsOn startingGeneration (generation + 1) 1 (opened ++ streams)) := by
  obtain ⟨hconsistent, hok⟩ := openGeneration_spec hopened
  constructor
  · simp only [List.mem_append, or_imp, forall_and]
    exact and_iff_right hconsistent
  · intro hopening
    obtain ⟨opener, rfl, hopener, hone⟩ := hok hopening
    have hstarting := h.1
    refine ⟨hstarting.trans (Nat.le_succ _), opener, _, rfl, ?_, hone, Nat.one_pos⟩
    -- the generations of the connection after the first are later ones
    rw [if_neg (by omega)]
    exact hopener

/-- Sending on the latest stream keeps what is written consistent unless the header of a frame is
    written on the first stream of the connection. -/
theorem SendsOn.send {latest : InstanceStream} {earlier : List InstanceStream}
    (h : SendsOn startingGeneration generation frameId (latest :: earlier)) (frame : SourcedFrame)
    (width height n : ℕ) :
    let sent : InstanceStream := { latest with
      messages := latest.messages ++
        (sendSourcedFrame generation frameId width height frame).take n }
    ((∀ stream ∈ sent :: earlier, stream.Consistent) ↔
      (∀ stream ∈ latest :: earlier, stream.Consistent) ∧
        (0 < n → generation ≠ startingGeneration)) ∧
    (0 < n → SendsOn startingGeneration generation (frameId + 1) (sent :: earlier)) := by
  obtain ⟨hstarting, _, _, hstreams, hformed, rfl, hpos⟩ := h
  cases hstreams
  have hne : latest.headers ≠ [] := List.ne_nil_of_length_pos hpos
  obtain ⟨hsent, hlength⟩ := hformed.take_sendSourcedFrame hne frame width height n
  have hconfig : (if generation = startingGeneration then 0 else 1) = 1 ↔
      generation ≠ startingGeneration := by
    split_ifs with heq <;> simp [heq]
  intro sent
  constructor
  · simp only [List.forall_mem_cons, sent, hsent.consistent_iff, hformed.consistent_iff, hconfig,
      hlength]
    -- a frame after the first one is of the configuration 1
    split_ifs with hheader
    · have hmore : ¬ latest.headers.length + 1 ≤ 1 := by omega
      simp only [hmore, hheader, false_or, true_imp_iff]
      tauto
    · simp only [hheader, false_imp_iff, and_true, Nat.add_zero]
  · intro hheader
    rw [if_pos hheader] at hlength
    exact ⟨hstarting, sent, earlier, rfl, hsent, hlength, Nat.succ_pos _⟩

namespace Session

variable {s : Session} {e : LoopEvent} {streams' : List InstanceStream}
  {encoderConfig : Wire.EncoderConfig} {io : FrameIo}

/-- What a round writes is consistent as long as no frame is sent on the first stream of the
    connection, and the loop goes on with the latest stream. -/
theorem writeVideo_spec
    (h : SendsOn startingGeneration s.videoChannel.generation s.frameId streams)
    (hwrite : s.writeVideo encoderConfig e io streams = some streams') :
    ((∀ stream ∈ streams', stream.Consistent) ↔ (∀ stream ∈ streams, stream.Consistent) ∧
      (s.writesHeader e io = true → s.videoChannel.generation ≠ startingGeneration)) ∧
    ((s.handle e).1.result = none → SendsOn startingGeneration
      (s.handle e).1.videoChannel.generation (s.handle e).1.frameId streams') := by
  unfold writeVideo at hwrite
  cases hreopening : s.reopening e with
  | some opening =>
    simp only [hreopening] at hwrite
    obtain ⟨opened, hopened, rfl⟩ := Option.map_eq_some_iff.1 hwrite
    obtain ⟨hconsistent, hok⟩ := h.reopen hopened
    have hno : s.writesHeader e io = false := by
      cases hsends : s.sends e with
      | none => rw [writesHeader, hsends, Option.any_none]
      | some written => cases (handle_of_sends hsends).1.symm.trans hreopening
    have hgeneration : (s.handle e).1.videoChannel.generation = s.videoChannel.generation + 1 :=
      (Prod.mk.inj (video_handle_reopening hreopening).1).1
    refine ⟨hconsistent.trans (and_iff_left (by simp [hno])).symm, fun hresult => ?_⟩
    obtain ⟨rfl, hframeId⟩ := handle_of_reopening hreopening hresult
    rw [hgeneration, hframeId]
    exact hok rfl
  | none =>
    have hgeneration : (s.handle e).1.videoChannel.generation = s.videoChannel.generation :=
      (Prod.mk.inj (video_handle hreopening)).1
    rw [hgeneration]
    simp only [hreopening] at hwrite
    cases hsends : s.sends e with
    | none =>
      simp only [hsends, Option.some.injEq] at hwrite
      have hno : s.writesHeader e io = false := by rw [writesHeader, hsends, Option.any_none]
      rw [frameId_handle hreopening hsends, ← hwrite]
      exact ⟨(and_iff_left (by simp [hno])).symm, fun _ => h⟩
    | some written =>
      simp only [hsends] at hwrite
      obtain ⟨-, stream, earlier, rfl, -⟩ := id h
      cases hframes : io.frames with
      | nil => simp [hframes] at hwrite
      | cons frame frames =>
        simp only [hframes, Option.some.injEq] at hwrite
        obtain ⟨n, htake, hn, -⟩ := io.exists_write_eq_take (written = .ok ())
          (sendSourcedFrame s.videoChannel.generation s.frameId encoderConfig.width
            encoderConfig.height frame)
        rw [htake] at hwrite
        subst hwrite
        obtain ⟨hconsistent, hgoesOn⟩ := h.send frame encoderConfig.width encoderConfig.height n
        have hwrites : s.writesHeader e io = true ↔ 0 < n := by
          rw [hn, writesHeader, hsends]
          simp
        constructor
        · rw [hwrites]
          exact hconsistent
        · intro hresult
          obtain ⟨rfl, hframeId⟩ := (handle_of_sends hsends).2 hresult
          rw [hframeId]
          exact hgoesOn (hn.2 (.inl rfl))

end Session

namespace Connection

/-- What the streams of a connection are by the await it is in. -/
def Streams (streams : List InstanceStream) : Connection → Prop
  | .establishing | .live _ _ .timeSync | .live _ _ .opening => streams = []
  | .live _ ctx (.acceptingFeedback videoChannel _) =>
    SendsOn ctx.startingGeneration videoChannel.generation 1 streams
  | .live _ ctx (.active session _) =>
    SendsOn ctx.startingGeneration session.videoChannel.generation session.frameId streams
  | .ended _ => True

end Connection

namespace VideoServer

/-- The streams of every connection are those of its await. -/
def Inv (s : VideoServer) : Prop := ∀ i, (s.server.connections i).Streams (s.streams i)

/-- What is written on every stream agrees. -/
def Consistent (s : VideoServer) : Prop := ∀ i, ∀ stream ∈ s.streams i, stream.Consistent

/-- A round that writes the header of a frame does so after its connection has reopened its
    video. -/
def sendsReopened (s : VideoServer) (e : ServerEvent × FrameIo) : Bool :=
  match e.1 with
  | .connection i (.loop e') =>
    match s.server.connections i with
    | .live _ ctx (.active session _) =>
      !session.writesHeader e' e.2 || session.videoChannel.generation ≠ ctx.startingGeneration
    | _ => true
  | _ => true

variable {s s' : VideoServer} {e : ServerEvent × FrameIo}

/-- A step of a connection leaves the others alone. -/
theorem connections_of_step {server server' : Server} {e : ServerEvent}
    (h : server.step e = some server') {j : ℕ} (hj : ∀ i e', e = .connection i e' → j ≠ i) :
    server'.connections j = server.connections j := by
  cases Server.takes_of_step h with
  | @establish i _ first =>
    unfold Server.establish
    split <;> exact Function.update_of_ne (hj i _ rfl) ..
  | @timeSync i _ _ _ answered =>
    cases answered <;> exact Function.update_of_ne (hj i _ rfl) ..
  | @openGeneration i _ _ _ opening =>
    unfold Server.openGeneration
    dsimp only
    repeat' split
    all_goals exact Function.update_of_ne (hj i _ rfl) ..
  | @acceptFeedback i _ _ _ _ _ accepted =>
    cases accepted <;> exact Function.update_of_ne (hj i _ rfl) ..
  | @loop i _ _ _ _ _ _ _ =>
    unfold Server.loop Server.endLoop
    dsimp only
    repeat' split
    all_goals exact Function.update_of_ne (hj i _ rfl) ..
  | expire id token => rfl

theorem streams_setConnection {server : Server} {i : ℕ} {c : Connection}
    {streams : List InstanceStream} (h : c.Streams streams) :
    ((server.setConnection i c).connections i).Streams streams := by
  have hself : (server.setConnection i c).connections i = c := Function.update_self ..
  rw [hself]
  exact h

theorem startingGeneration_goLive {ctx ctx' : ConnectionContext}
    (h : Server.goLive ctx = .ok ctx') : ctx'.startingGeneration = ctx.startingGeneration := by
  rw [Server.goLive] at h
  split_ifs at h
  · cases h
    rfl
  · obtain ⟨sm, -, h⟩ := Except.bind_eq_ok.1 h
    cases h
    rfl

/-- Opening the first instance of a connection opens its first stream. -/
theorem streams_openGeneration {server : Server} {i n : ℕ} {ctx : ConnectionContext}
    {opening : OpenOutcome} {encoderConfig : Wire.EncoderConfig} {io : FrameIo}
    {opened : List InstanceStream}
    (hopened : openGeneration ctx.startingGeneration 0 encoderConfig opening io = some opened) :
    ((server.openGeneration i n ctx opening).connections i).Streams opened := by
  obtain ⟨-, hok⟩ := openGeneration_spec hopened
  unfold Server.openGeneration
  dsimp only
  split
  · exact streams_setConnection trivial
  · next hresult =>
    obtain rfl : opening = .ok := by cases opening <;> first | rfl | cases hresult
    obtain ⟨stream, rfl, hformed, hone⟩ := hok rfl
    rw [VideoChannel.markInstanceStreaming_new]
    dsimp only
    split
    · exact streams_setConnection trivial
    · next ctx' hlive =>
      have hstarting := startingGeneration_goLive hlive
      refine streams_setConnection ⟨hstarting.le, stream, [], rfl, ?_, hone, Nat.one_pos⟩
      rw [hstarting]
      exact (if_pos rfl) ▸ hformed

/-- What a step of a connection does to it and its streams. -/
theorem writeVideo_spec {i : ℕ} {e' : ConnectionEvent} {io : FrameIo} {server : Server}
    {streams : List InstanceStream} (h : s.Inv)
    (hstep : s.server.step (.connection i e') = some server)
    (hwrite : s.writeVideo i e' io = some streams) :
    (server.connections i).Streams streams ∧
      ((∀ stream ∈ streams, stream.Consistent) ↔ (∀ stream ∈ s.streams i, stream.Consistent) ∧
        s.sendsReopened (.connection i e', io) = true) := by
  have hcurrent := h i
  -- only the rounds of the loop may send frames
  have hno (hloop : ∀ e, e' ≠ .loop e) : s.sendsReopened (.connection i e', io) = true := by
    cases e' with
    | loop e => exact absurd rfl (hloop e)
    | _ => rfl
  -- where no video is written, the streams are as before
  have hkeeps (hsame : s.writeVideo i e' io = some (s.streams i)) (hloop : ∀ e, e' ≠ .loop e)
      (hstreams : (server.connections i).Streams (s.streams i)) :
      (server.connections i).Streams streams ∧
        ((∀ stream ∈ streams, stream.Consistent) ↔ (∀ stream ∈ s.streams i, stream.Consistent) ∧
          s.sendsReopened (.connection i e', io) = true) := by
    obtain rfl := Option.some.inj (hsame.symm.trans hwrite)
    exact ⟨hstreams, (and_iff_left (hno hloop)).symm⟩
  cases Server.takes_of_step hstep with
  | establish hi first =>
    rw [hi] at hcurrent
    refine hkeeps (by simp only [writeVideo, hi]) (by simp) ?_
    unfold Server.establish
    split
    · exact streams_setConnection trivial
    · exact streams_setConnection trivial
    · exact streams_setConnection hcurrent
  | timeSync hi answered =>
    rw [hi] at hcurrent
    refine hkeeps (by simp only [writeVideo, hi]) (by simp) ?_
    cases answered with
    | error e => exact streams_setConnection trivial
    | ok _ => exact streams_setConnection hcurrent
  | @openGeneration _ n ctx hi opening =>
    simp only [writeVideo, hi] at hwrite
    rw [hi] at hcurrent
    obtain ⟨opened, hopened, rfl⟩ := Option.map_eq_some_iff.1 hwrite
    have hnil : s.streams i = [] := hcurrent
    rw [hnil, List.append_nil]
    exact ⟨streams_openGeneration hopened,
      iff_of_true (openGeneration_spec hopened).1 ⟨by simp, hno (by simp)⟩⟩
  | @acceptFeedback _ n ctx videoChannel opened hi accepted =>
    rw [hi] at hcurrent
    refine hkeeps (by simp only [writeVideo, hi]) (by simp) ?_
    cases accepted with
    | error e => exact streams_setConnection trivial
    | ok _ => exact streams_setConnection hcurrent
  | @loop _ n ctx session toggled hi e he =>
    simp only [writeVideo, hi] at hwrite
    rw [hi] at hcurrent
    obtain ⟨hconsistent, hgoesOn⟩ := Session.writeVideo_spec hcurrent hwrite
    refine ⟨?_, hconsistent.trans (and_congr_right fun _ => ?_)⟩
    · unfold Server.loop
      dsimp only
      split
      · next hresult => exact streams_setConnection (hgoesOn hresult)
      · unfold Server.endLoop
        repeat' split
        all_goals exact streams_setConnection trivial
    · simp only [sendsReopened, hi, Bool.or_eq_true, Bool.not_eq_true', decide_eq_true_iff]
      cases session.writesHeader e io <;> simp

/-- A step keeps what is written consistent exactly if it sends no frame on the first stream of a
    connection. -/
theorem step_spec (h : s.Inv) (hstep : machine.step s e = some s') :
    s'.Inv ∧ (s'.Consistent ↔ s.Consistent ∧ s.sendsReopened e = true) := by
  obtain ⟨e, io⟩ := e
  obtain ⟨server, hserver, hstep⟩ := Option.bind_eq_some_iff.1 hstep
  cases e with
  | expire id token =>
    obtain rfl := Option.some.inj hstep
    have hsame (j : ℕ) : server.connections j = s.server.connections j :=
      connections_of_step hserver (by simp)
    refine ⟨fun j => ?_, (and_iff_left rfl).symm⟩
    exact (hsame j).symm ▸ h j
  | connection i e' =>
    obtain ⟨streams, hwrite, rfl⟩ := Option.map_eq_some_iff.1 hstep
    obtain ⟨hstreams, hconsistent⟩ := writeVideo_spec h hserver hwrite
    constructor
    · intro j
      by_cases hj : j = i
      · subst hj
        simpa using hstreams
      · have hsame : server.connections j = s.server.connections j :=
          connections_of_step hserver (by simpa using hj)
        simpa [hj, hsame] using h j
    · constructor
      · intro hall
        have hi := hall i
        simp only [Function.update_self] at hi
        obtain ⟨hi, hsends⟩ := hconsistent.1 hi
        refine ⟨fun j => ?_, hsends⟩
        by_cases hj : j = i
        · exact hj ▸ hi
        · simpa [hj] using hall j
      · rintro ⟨hall, hsends⟩ j
        by_cases hj : j = i
        · subst hj
          simpa using hconsistent.2 ⟨hall j, hsends⟩
        · simpa [hj] using hall j

theorem inv_new (synthetic : Bool) (encoderConfig : ℕ → Wire.EncoderConfig) :
    (new synthetic encoderConfig).Inv := fun _ => rfl

/-- In a run of the server, what is written on every stream agrees exactly if every frame that a
    loop sends is sent after the connection has reopened its video. -/
theorem consistent_iff_reopened {synthetic : Bool} {encoderConfig : ℕ → Wire.EncoderConfig}
    {es : List (ServerEvent × FrameIo)}
    (hrun : machine.run (new synthetic encoderConfig) es = some s) :
    s.Consistent ↔
      machine.Always (fun s e _ => s.sendsReopened e) (new synthetic encoderConfig) es := by
  refine (Machine.always_iff_of_step (I := Inv) (fun s e s' h hstep => (step_spec h hstep).1)
    (fun s e s' h hstep => (step_spec h hstep).2) (inv_new synthetic encoderConfig) hrun).trans
    (and_iff_right fun i stream hmem => ?_)
  cases hmem

/-- How the video is encoded below. -/
def vga : Wire.EncoderConfig := ⟨.h264, 66, .c420, 8, 640, 480, 30, 4, 0, false⟩

/-- A run of the server in which there is an IDR whenever one is needed, and no write fails. -/
def withIdr (es : List ServerEvent) : List (ServerEvent × FrameIo) :=
  es.map fun e => (e, ⟨[⟨[0, 0, 0, 1, 0x65], true, 1, 2⟩], 0⟩)

/-- A round that sends a frame, and one that reopens the video. -/
def sendingFrame : List ServerEvent :=
  [.connection 0 (.loop .frameTick), .connection 0 (.loop (.frame (.ok true) (.ok ())))]

def reopening : ServerEvent :=
  .connection 0 (.loop (.feedback 0 (.ok (.keyframe ⟨.decodeError⟩)) .ok))

/-- The generation, the configuration and the number of every frame. -/
def numbers (s : VideoServer) (i : ℕ) : List (List (ℕ × ℕ × ℕ)) :=
  (s.streams i).map fun stream => stream.headers.map fun header =>
    (header.generation, header.configId, header.frameId)

theorem consistent_iff_reopened_sending :
    ∃ s, machine.run (new true fun _ => vga)
        (withIdr (Server.freshSession ++ reopening :: sendingFrame)) = some s ∧
      s.numbers 0 = [[(1, 1, 0), (1, 1, 1)], [(0, 0, 0)]] ∧ s.Consistent := by
  obtain ⟨s, hrun, hnumbers⟩ : ∃ s, machine.run (new true fun _ => vga)
      (withIdr (Server.freshSession ++ reopening :: sendingFrame)) = some s ∧
      s.numbers 0 = [[(1, 1, 0), (1, 1, 1)], [(0, 0, 0)]] := ⟨_, rfl, rfl⟩
  exact ⟨s, hrun, hnumbers, (consistent_iff_reopened hrun).2 (by decide)⟩

/-- The first frame that a loop sends is not of the configuration of its stream. -/
theorem sent_with_other_configuration :
    ∃ s, machine.run (new true fun _ => vga)
        (withIdr (Server.freshSession ++ sendingFrame)) = some s ∧
      s.numbers 0 = [[(0, 0, 0), (0, 1, 1)]] ∧ ¬ s.Consistent := by
  refine ⟨_, rfl, rfl, fun h => ?_⟩
  have hstream := (h 0 _ List.mem_cons_self).identified ⟨0, 0⟩ List.mem_cons_self
  have hsecond : 1 = 0 := (hstream _ (List.mem_cons_of_mem _ List.mem_cons_self)).2
  cases hsecond

end VideoServer

end Sardp
