import Sardp.Server.Session
import Sardp.Video.Calls
import Sardp.Video.DesktopSource

/-!
# A session that shows the desktop

The loop of a session (`Session`) and the source of its frames (`DesktopSource`) run next to each
other. The loop takes the frames from the channel of the source and sends them on the stream of
its instance, unless the permission to see them has been revoked: then it drops them.

An instance starts with an IDR. To open one, the server asks the source for an IDR and skips the
frames it takes until there is one (`next_idr_frame` in `sardp-server.rs`), but not more than
`MAX_FRAMES_TO_SKIP_FOR_IDR` of them. It does so before the loop starts, and in the rounds of the
loop in which an instance is given up; nothing else happens in such a round meanwhile.
-/

namespace Sardp

/-- How many frames may be skipped before there is an IDR. -/
def MAX_FRAMES_TO_SKIP_FOR_IDR : ℕ := 120

/-- The call of the video channel a message of the client leads to. -/
def FeedbackMessage.call (nowUs : ℕ) : FeedbackMessage → Option ChannelCall
  | .transport clientQueueDelayUs => some (.feedback nowUs clientQueueDelayUs 0)
  | .keyframe request => some (.keyframeRequest nowUs request)
  | .audioSync => none

/-- The loop gives its instance up in the round of the message. -/
def Session.givesUp (s : Session) (nowUs : ℕ) (message : FeedbackMessage) : Bool :=
  (message.call nowUs).any fun call => (s.videoChannel.call call).1.reopens

deriving instance DecidableEq for KeyframeRequest, FeedbackMessage

/-- What the server does with the frames. -/
inductive FrameConsumer
  /-- Nothing yet. -/
  | starting
  /-- It waits for an IDR, in the round of a message of the client or, if there is none, before
      the loop starts. -/
  | opening (round : Option (ℕ × FeedbackMessage)) (skipped : ℕ)
  /-- It sends them. -/
  | streaming
  /-- There was an IDR, but no instance could be opened with it. -/
  | failed
  deriving DecidableEq

/-- A session and the source of its frames. -/
structure DesktopSession where
  source : DesktopSource
  session : Session
  consumer : FrameConsumer
  /-- The frames sent on the stream of the instance. -/
  stream : List EncodedFrame

/-- What goes on in the session. -/
inductive DesktopEvent
  | source (e : SourceEvent)
  /-- The server starts to open the first instance. -/
  | openFirst
  /-- A round of the loop that is none of those below. -/
  | round (e : LoopEvent)
  /-- The round of the next frame, or of the end of the channel. -/
  | desktopFrame (written : Written)
  /-- The loop gives its instance up in the round of a message. -/
  | giveUp (nowUs : ℕ) (message : FeedbackMessage)
  /-- The next frame is skipped, or the instance is opened with it; or the channel has ended. -/
  | nextIdrFrame (opening : OpenOutcome)
  /-- The time to open the instance is up. -/
  | openingTimeout

/-- The outcome is one of opening an instance once there is a frame to open it with. -/
def OpenOutcome.foundFrame : OpenOutcome → Bool
  | .noFrame _ => false
  | _ => true

namespace DesktopSession

/-- A session whose source has just been started; the loop starts with the given session. -/
def start (platform : Platform) (grantedPermissions : PermissionSet) (videoChannel : VideoChannel)
    (opened : List ℕ) : DesktopSession where
  source := .start platform
  session := .start grantedPermissions false videoChannel opened
  consumer := .starting
  stream := []

/-- The round goes on until it is over in one step: it takes no frame and opens no instance. -/
def admits (s : DesktopSession) : LoopEvent → Bool
  | .desktopFrame _ _ => false
  | .feedback nowUs (.ok message) _ => !s.session.givesUp nowUs message
  | _ => true

/-- Opening an instance is over, with what has become of it. -/
def opened (session : Session) (round : Option (ℕ × FeedbackMessage)) (opening : OpenOutcome) :
    Session :=
  match round with
  | none =>
    match opening.result ReasonCode.PROTOCOL_SESSION_SETUP_TIMEOUT with
    | .error e => session.finish (.error e)
    | .ok () => session
  | some (nowUs, message) => (session.handle (.feedback nowUs (.ok message) opening)).1

/-- The round of the next frame of the channel. -/
def takeFrame (s : DesktopSession) (written : Written) : Option DesktopSession :=
  match s.source.nextFrame with
  | none =>
    if s.source.stopped then
      some { s with session := s.session.handleDesktopFrame (.ok false) written }
    else none
  | some (frame, source) =>
    -- without the permission to see it, the frame leaves the channel and goes nowhere
    some { s with
      source
      session := s.session.handleDesktopFrame (.ok true) written
      stream :=
        if s.session.permissionSm.isGranted Bit.VIEW then s.stream ++ [frame] else s.stream }

/-- The next frame of the channel while the server waits for an IDR. -/
def nextIdrFrame (s : DesktopSession) (round : Option (ℕ × FeedbackMessage)) (skipped : ℕ)
    (opening : OpenOutcome) : Option DesktopSession :=
  match s.source.nextFrame with
  | none =>
    if s.source.stopped then
      some { s with session := opened s.session round (.noFrame .capture) }
    else none
  | some (frame, source) =>
    if frame.isIdr then
      if opening.foundFrame then
        some {
          source
          session := opened s.session round opening
          consumer := if opening = .ok then .streaming else .failed
          stream := if opening = .ok then [frame] else [] }
      else none
    else
      -- an instance cannot start with this frame; with the last one skipped the source has failed
      let s' := { s with source, consumer := .opening round (skipped + 1) }
      if skipped + 1 < MAX_FRAMES_TO_SKIP_FOR_IDR then some s'
      else some { s' with session := opened s.session round (.noFrame .capture) }

/-- What happens next; `none` where it is not possible. -/
def step (s : DesktopSession) : DesktopEvent → Option DesktopSession
  | .source e => (s.source.step e).map fun source => { s with source }
  | .openFirst =>
    if s.consumer = .starting then
      some { s with source := s.source.requestIdr, consumer := .opening none 0 }
    else none
  | .round e =>
    if s.consumer = .streaming ∧ s.admits e then
      (s.session.step e).map fun (session, _) => { s with session }
    else none
  | .desktopFrame written =>
    if s.consumer = .streaming ∧ s.session.Awaits (.desktopFrame (.ok true) written) then
      s.takeFrame written
    else none
  | .giveUp nowUs message =>
    if s.consumer = .streaming ∧ s.session.Awaits (.feedback nowUs (.ok message) .ok) ∧
        s.session.givesUp nowUs message then
      some { s with
        source := s.source.requestIdr
        consumer := .opening (some (nowUs, message)) 0
        stream := [] }
    else none
  | .nextIdrFrame opening =>
    match s.consumer with
    | .opening round skipped =>
      if s.session.result = none then s.nextIdrFrame round skipped opening else none
    | _ => none
  | .openingTimeout =>
    match s.consumer with
    | .opening round _ =>
      if s.session.result = none then
        some { s with session := opened s.session round (.timedOut false) }
      else none
    | _ => none

/-- The steps as a machine. -/
def machine : Machine DesktopSession DesktopEvent := ⟨step⟩

/-- What a step does to the frames. -/
inductive Stepped (s : DesktopSession) : DesktopEvent → DesktopSession → Prop
  | source {e : SourceEvent} {source : DesktopSource}
      (hstep : DesktopSource.machine.step s.source e = some source) :
      Stepped s (.source e) { s with source }
  /-- The session does something else. -/
  | session {e : DesktopEvent} (session : Session) : Stepped s e { s with session }
  | openFirst (hconsumer : s.consumer = .starting) :
      Stepped s .openFirst
        { s with source := s.source.requestIdr, consumer := .opening none 0 }
  | frame {written : Written} {frame : EncodedFrame} {source : DesktopSource} (session : Session)
      (hconsumer : s.consumer = .streaming) (hnext : s.source.nextFrame = some (frame, source)) :
      Stepped s (.desktopFrame written)
        { s with
          source
          session
          stream :=
            if s.session.permissionSm.isGranted Bit.VIEW then s.stream ++ [frame] else s.stream }
  | giveUp {nowUs : ℕ} {message : FeedbackMessage} (hconsumer : s.consumer = .streaming) :
      Stepped s (.giveUp nowUs message)
        { s with
          source := s.source.requestIdr
          consumer := .opening (some (nowUs, message)) 0
          stream := [] }
  /-- There is an IDR. -/
  | opened {opening : OpenOutcome} {round : Option (ℕ × FeedbackMessage)} {skipped : ℕ}
      {frame : EncodedFrame} {source : DesktopSource} (session : Session)
      (hconsumer : s.consumer = .opening round skipped)
      (hnext : s.source.nextFrame = some (frame, source)) (hidr : frame.isIdr = true) :
      Stepped s (.nextIdrFrame opening)
        { source
          session
          consumer := if opening = .ok then .streaming else .failed
          stream := if opening = .ok then [frame] else [] }
  /-- A frame is skipped. -/
  | skipped {opening : OpenOutcome} {round : Option (ℕ × FeedbackMessage)} {skipped : ℕ}
      {frame : EncodedFrame} {source : DesktopSource} (session : Session)
      (hconsumer : s.consumer = .opening round skipped)
      (hnext : s.source.nextFrame = some (frame, source)) (hidr : frame.isIdr = false) :
      Stepped s (.nextIdrFrame opening)
        { s with source, session, consumer := .opening round (skipped + 1) }

theorem stepped {s s' : DesktopSession} {e : DesktopEvent} (h : machine.step s e = some s') :
    s.Stepped e s' := by
  simp only [machine, step] at h
  cases e with
  | source e =>
    obtain ⟨source, hstep, rfl⟩ := Option.map_eq_some_iff.1 h
    exact .source hstep
  | openFirst =>
    simp only at h
    split_ifs at h with hconsumer
    cases h
    exact .openFirst hconsumer
  | round e =>
    simp only at h
    split_ifs at h
    obtain ⟨⟨session, -⟩, -, rfl⟩ := Option.map_eq_some_iff.1 h
    exact .session session
  | desktopFrame written =>
    simp only at h
    split_ifs at h with hguard
    rw [takeFrame] at h
    split at h
    · split_ifs at h
      cases h
      exact .session _
    · next frame source hnext =>
      cases h
      exact .frame _ hguard.1 hnext
  | giveUp nowUs message =>
    simp only at h
    split_ifs at h with hguard
    cases h
    exact .giveUp hguard.1
  | nextIdrFrame opening =>
    simp only at h
    split at h
    · next round skipped hconsumer =>
      split_ifs at h
      rw [nextIdrFrame] at h
      split at h
      · split_ifs at h
        cases h
        exact .session _
      · next frame source hnext =>
        cases hidr : frame.isIdr with
        | true =>
          rw [if_pos hidr] at h
          split at h
          · exact Option.some.inj h ▸ .opened _ hconsumer hnext hidr
          · cases h
        | false =>
          rw [if_neg (Bool.eq_false_iff.1 hidr)] at h
          split at h <;> exact Option.some.inj h ▸ .skipped _ hconsumer hnext hidr
    · cases h
  | openingTimeout =>
    simp only at h
    split at h
    · split_ifs at h
      cases h
      exact .session _
    · cases h

end DesktopSession

end Sardp
