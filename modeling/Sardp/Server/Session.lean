import Sardp.Library.Machine
import Sardp.Server.ConnError
import Sardp.Video.VideoChannel

/-!
# The active session

The loop of an active session of the server (`run_active_session` in `sardp-server.rs`)
waits for whatever happens next and handles it: a message on one of its streams, a tick
of one of its intervals, a stream of the client, or the end. Every round is one
`LoopEvent`, which carries what happened and what becomes of the operations the round
waits for; `Session.step` is the round. The commands of the administrator are handled
one by one within a tick of the frames, so a round of that kind is one of several events
(`Phase.draining`).

Time is left out: any interval may tick and the session may idle out in any round, so what
holds of these runs holds of the timed ones. What moves the deadline for idling out is a
matter of its own (`ControlCodec.serverLoop`). The session keeps, next to the variables of
the loop, the control messages it has handed to its control stream and the generations
whose streams it has opened.
-/

namespace Sardp

/-! ## What the loop meets -/

/-- Why the source of the frames has none. -/
inductive FrameError
  | encode
  | join
  | capture
  deriving DecidableEq

def FrameError.toConnError : FrameError → ConnError
  | .encode => .encode
  | .join => .join
  | .capture => .capture

/-- What becomes of opening an instance: finding its first frame, opening its stream, and
    writing its setup and the frame to it, within the time for it. -/
inductive OpenOutcome
  | noFrame (e : FrameError)
  | openFailed (e : Quinn.ConnectionError)
  | writeFailed (e : Quinn.WriteError)
  /-- The time was up, before or after the stream was opened. -/
  | timedOut (streamOpened : Bool)
  | ok
  deriving DecidableEq

/-- The stream of the instance was opened. -/
def OpenOutcome.streamOpened : OpenOutcome → Bool
  | .noFrame _ | .openFailed _ => false
  | .timedOut streamOpened => streamOpened
  | .writeFailed _ | .ok => true

/-- What opening an instance returns, `timeout` being the reason when the time is up. -/
def OpenOutcome.result (timeout : ReasonCode) : OpenOutcome → Except ConnError Unit
  | .noFrame e => .error e.toConnError
  | .openFailed e => .error (.video (.quic e))
  | .writeFailed e => .error (.video (.write e))
  | .timedOut _ => .error (.violation timeout)
  | .ok => .ok ()

/-- Why no stream of the client could be accepted: the connection failed, or the prologue
    could not be read. -/
inductive AcceptUniError
  | quic (e : Quinn.ConnectionError)
  | read (e : StreamReadError)
  deriving DecidableEq

def AcceptUniError.toConnError : AcceptUniError → ConnError
  | .quic e => .quic e
  | .read e => .read e

/-- A message of the client on the control stream, as far as it decodes. -/
inductive ControlMessage
  | timeSyncRequest (decodes : Bool)
  | sessionClose
  /-- With the file handle and the deadline issued for it, if one can be. -/
  | fileTransferRequest (request : Option FileTransferRequest) (issued : Option (ℕ × ℕ))
  /-- Any other, which is ignored. -/
  | other

/-- A message of the client on the feedback stream. -/
inductive FeedbackMessage
  /-- The delay of the client's queue. -/
  | transport (clientQueueDelayUs : ℕ)
  | keyframe (request : KeyframeRequest)
  | audioSync

/-- A message of the server on the control stream. -/
inductive ControlOut
  | timeSyncResponse
  | keepAlive
  | sessionClose
  | permissionUpdate (update : PermissionUpdate)
  | fileTransferReject (reject : FileTransferReject)
  | fileTransferAccept (accept : FileTransferAccept)

/-- The tasks the loop spawns. -/
inductive SpawnedTask
  | fileTransfer (request : FileTransferRequest) (fileHandle : ℕ)
  | clipboardAnnounce
  | clipboardRequest (requestId : ℕ) (format : ClipboardFormatEntry)
  | audioCapture
  deriving DecidableEq

/-- What becomes of writing a message. -/
abbrev Written := Except Quinn.WriteError Unit

/-- A round of the loop, or a part of one: what happens, and what becomes of the
    operations waited for. -/
inductive LoopEvent
  | shutdown
  | idleTimeout
  | control (message : Except StreamReadError ControlMessage) (written : Written)
  | keepalive (written : Written)
  /-- A tick of the frames: the commands are handled first. -/
  | frameTick
  | command (command : AdminCommand) (written : Written)
  /-- The rest of the tick, without a frame for `ok false`. -/
  | frame (frame : Except FrameError Bool) (written : Written)
  | desktopFrame (frame : Except FrameError Bool) (written : Written)
  | feedback (nowUs : ℕ) (message : Except ReadFeedbackError FeedbackMessage)
      (opening : OpenOutcome)
  | audioTick (opening : Except AudioError Unit) (written : Written)
  /-- A stream of the client, with what becomes of reading its configuration if it is one
      of captured audio. -/
  | incomingUni (accepted : Except AcceptUniError StreamKind) (config : Except AudioError Unit)
  /-- A message of the input stream and what becomes of it, or the end of the stream. -/
  | input (handled : Option (Except ReasonCode Unit))
  | clipboardFormats (accepted : Except ClipboardSessionError ClipboardFormats)

/-! ## The session -/

/-- Where in a round the loop is. -/
inductive Phase
  /-- Waiting for what happens next. -/
  | selecting
  /-- Handling the commands of the administrator. -/
  | draining
  deriving DecidableEq

/-- The permission a transfer needs to start. -/
def requiredPermissionBit : FileTransferDirection → PermissionSet
  | .upload => Bit.FILE_UP
  | .download => Bit.FILE_DOWN

/-- The variables of the loop, and what it has done. -/
structure Session where
  /-- The permissions the session started with. -/
  grantedPermissions : PermissionSet
  /-- The frames are generated on the ticks, rather than captured from the desktop. -/
  synthetic : Bool
  permissionSm : PermissionSm
  videoChannel : VideoChannel
  frameId : ℕ
  /-- The stream of played audio has been opened. -/
  audioPlaybackSend : Bool
  audioSequence : ℕ
  /-- The client's input stream is being read. -/
  inputReceiver : Bool
  phase : Phase
  /-- The messages handed to the control stream, in order. -/
  sent : List ControlOut
  /-- The generations whose streams have been opened, in order. -/
  opened : List ℕ
  /-- What the loop has returned. -/
  result : Option (Except ConnError Unit)

namespace Session

/-- The session as the loop starts, its first instance streaming. -/
def start (grantedPermissions : PermissionSet) (synthetic : Bool) (videoChannel : VideoChannel)
    (opened : List ℕ) : Session where
  grantedPermissions
  synthetic
  permissionSm := .new grantedPermissions
  videoChannel
  frameId := 1
  audioPlaybackSend := false
  audioSequence := 0
  inputReceiver := false
  phase := .selecting
  sent := []
  opened
  result := none

/-- The loop returns. -/
def finish (s : Session) (result : Except ConnError Unit) : Session :=
  { s with result := some result }

/-- Handing a message to the control stream; the loop ends when it cannot be written. -/
def writeControl (s : Session) (message : ControlOut) (written : Written) : Session :=
  let s := { s with sent := s.sent ++ [message] }
  match written with
  | .ok () => s
  | .error e => s.finish (.error (.write e))

/-- A request for a file transfer: refused without the permission or without a handle,
    otherwise accepted, and the task for it spawned. -/
def handleFileTransferRequest (s : Session) (request : FileTransferRequest)
    (issued : Option (ℕ × ℕ)) (written : Written) : Session × Option SpawnedTask :=
  match s.permissionSm.checkGate (requiredPermissionBit request.direction) with
  | .error reason =>
    (s.writeControl (.fileTransferReject ⟨request.requestId, reason⟩) written, none)
  | .ok () =>
    match issued with
    | none =>
      (s.writeControl (.fileTransferReject
        ⟨request.requestId, ReasonCode.POLICY_FILE_POLICY_REJECTED⟩) written, none)
    | some (fileHandle, expiryTs) =>
      -- the declared size is trusted as it is
      let s := s.writeControl (.fileTransferAccept
        ⟨request.requestId, fileHandle, request.declaredSize, expiryTs⟩) written
      (s, if s.result.isNone then some (.fileTransfer request fileHandle) else none)

/-- A message on the control stream. -/
def handleControl (s : Session) (message : Except StreamReadError ControlMessage)
    (written : Written) : Session × Option SpawnedTask :=
  match message with
  | .error e => (s.finish (.error (.read e)), none)
  -- asking for the time is the one request whose decoding errors have a kind of their own
  | .ok (.timeSyncRequest false) => (s.finish (.error (.timeSync .decode)), none)
  | .ok (.timeSyncRequest true) => (s.writeControl .timeSyncResponse written, none)
  | .ok .sessionClose => (s.finish (.ok ()), none)
  | .ok (.fileTransferRequest none _) =>
    (s.finish (.error (.violation ReasonCode.PROTOCOL_UNEXPECTED_MESSAGE)), none)
  | .ok (.fileTransferRequest (some request) issued) =>
    s.handleFileTransferRequest request issued written
  | .ok .other => (s, none)

/-- A command of the administrator. -/
def handleCommand (s : Session) (command : AdminCommand) (written : Written) :
    Session × Option SpawnedTask :=
  match command with
  | .togglePermission bit grant =>
    -- made from the permissions the session started with, not from those in effect
    let update := buildPermissionToggle s.grantedPermissions bit grant
    let s := { s with permissionSm := s.permissionSm.applyUpdate update }
    (s.writeControl (.permissionUpdate update) written, none)
  | .sendClipboard =>
    match s.permissionSm.checkGate Bit.CLIP_READ with
    | .error _ => (s, none)
    | .ok () => (s, some .clipboardAnnounce)

/-- Sending a frame. -/
def sendFrame (s : Session) (written : Written) : Session :=
  match written with
  | .error e => s.finish (.error (.video (.write e)))
  | .ok () => { s with frameId := s.frameId + 1 }

/-- The rest of a tick of the frames: generating a frame and sending it, if the client may
    see it and the desktop is not captured. -/
def handleFrame (s : Session) (frame : Except FrameError Bool) (written : Written) : Session :=
  if !s.permissionSm.isGranted Bit.VIEW then s
  else if !s.synthetic then s
  else
    match frame with
    | .error e => s.finish (.error e.toConnError)
    | .ok false => s
    | .ok true => s.sendFrame written

/-- A frame of the desktop, dropped unless the client may see it. -/
def handleDesktopFrame (s : Session) (frame : Except FrameError Bool) (written : Written) :
    Session :=
  match frame with
  | .error e => s.finish (.error e.toConnError)
  | .ok false => s.finish (.error .capture)
  | .ok true => if !s.permissionSm.isGranted Bit.VIEW then s else s.sendFrame written

/-- Giving up the instance for one of the next generation. -/
def reopenVideoGeneration (s : Session) (opening : OpenOutcome) : Session :=
  let videoChannel := s.videoChannel.prepareReopen
  -- the generation is counted as opened once its stream is, whatever fails after that
  let opened := if opening.streamOpened then s.opened ++ [videoChannel.generation] else s.opened
  let s := { s with videoChannel, opened }
  match opening.result ReasonCode.PROTOCOL_VIDEO_CONFIGURING_TIMEOUT with
  | .error e => s.finish (.error e)
  | .ok () =>
    match videoChannel.markInstanceStreaming with
    | .error v => s.finish (.error (.violation v.reason))
    | .ok videoChannel => { s with videoChannel, frameId := 1 }

/-- A message on the feedback stream. -/
def handleFeedback (s : Session) (nowUs : ℕ)
    (message : Except ReadFeedbackError FeedbackMessage) (opening : OpenOutcome) : Session :=
  match message with
  | .error e => s.finish (.error (.feedback e))
  | .ok (.keyframe request) =>
    match s.videoChannel.onKeyframeRequest nowUs request with
    | (.reopen, videoChannel) => { s with videoChannel }.reopenVideoGeneration opening
    | (.ignored _, videoChannel) => { s with videoChannel }
  | .ok .audioSync => s
  | .ok (.transport clientQueueDelayUs) =>
    -- the server does not measure what is queued on its own side
    match s.videoChannel.onFeedback nowUs clientQueueDelayUs 0 with
    | (.error v, videoChannel) => { s with videoChannel }.finish (.error (.violation v.reason))
    | (.ok .resetStream, videoChannel) => { s with videoChannel }.reopenVideoGeneration opening
    | (.ok _, videoChannel) => { s with videoChannel }

/-- A tick of the played audio, whose stream is opened on the first one it is granted. -/
def handleAudioTick (s : Session) (opening : Except AudioError Unit) (written : Written) :
    Session :=
  if s.permissionSm.isGranted Bit.AUDIO_PLAYBACK then
    match if s.audioPlaybackSend then .ok () else opening with
    | .error e => s.finish (.error (.audio e))
    | .ok () =>
      match written with
      | .error e => { s with audioPlaybackSend := true }.finish (.error (.audio (.write e)))
      | .ok () => { s with audioPlaybackSend := true, audioSequence := s.audioSequence + 1 }
  else s

/-- A stream of the client, dispatched on its kind: captured audio is read if it is granted,
    the first input stream is read, and everything else is stopped. -/
def handleIncomingUni (s : Session) (accepted : Except AcceptUniError StreamKind)
    (config : Except AudioError Unit) : Session × Option SpawnedTask :=
  match accepted with
  | .error e => (s.finish (.error e.toConnError), none)
  | .ok .audioCapture =>
    if s.permissionSm.isGranted Bit.AUDIO_CAPTURE then
      match config with
      | .error e => (s.finish (.error (.audio e)), none)
      | .ok () => (s, some .audioCapture)
    else (s, none)
  -- a second input stream is stopped, the first one is read on
  | .ok .input => ({ s with inputReceiver := true }, none)
  | .ok _ => (s, none)

/-- A message on the input stream, or its end. -/
def handleInput (s : Session) (handled : Option (Except ReasonCode Unit)) : Session :=
  match handled with
  | some (.ok ()) => s
  | some (.error reason) => s.finish (.error (.violation reason))
  | none => { s with inputReceiver := false }

/-- The formats of the client's clipboard: the first one is requested, if it may be. -/
def handleClipboardFormats (s : Session)
    (accepted : Except ClipboardSessionError ClipboardFormats) : Session × Option SpawnedTask :=
  match accepted with
  | .error e => (s.finish (.error (.clipboard e)), none)
  | .ok formats =>
    if !s.permissionSm.isGranted Bit.CLIP_WRITE then (s, none)
    else (s, formats.formats.head?.map (.clipboardRequest formats.requestId ·))

/-- What happens can happen now: the loop waits for it. -/
def Awaits (s : Session) (e : LoopEvent) : Prop :=
  s.result = none ∧
    match e with
    | .command _ _ | .frame _ _ => s.phase = .draining
    | .desktopFrame _ _ => s.phase = .selecting ∧ s.synthetic = false
    | .input _ => s.phase = .selecting ∧ s.inputReceiver
    | _ => s.phase = .selecting

instance (s : Session) (e : LoopEvent) : Decidable (s.Awaits e) := by
  unfold Awaits
  cases e <;> infer_instance

/-- A round of the loop, or a part of one: the session after it, and the task it spawned. -/
def handle (s : Session) : LoopEvent → Session × Option SpawnedTask
  | .shutdown =>
    -- whether the message is written makes no difference
    ({ s with sent := s.sent ++ [ControlOut.sessionClose] }.finish (.ok ()), none)
  | .idleTimeout => (s.finish (.error .idleTimeout), none)
  | .control message written => s.handleControl message written
  | .keepalive written => (s.writeControl .keepAlive written, none)
  | .frameTick => ({ s with phase := .draining }, none)
  | .command command written => s.handleCommand command written
  | .frame frame written => ({ s with phase := .selecting }.handleFrame frame written, none)
  | .desktopFrame frame written => (s.handleDesktopFrame frame written, none)
  | .feedback nowUs message opening => (s.handleFeedback nowUs message opening, none)
  | .audioTick opening written => (s.handleAudioTick opening written, none)
  | .incomingUni accepted config => s.handleIncomingUni accepted config
  | .input handled => (s.handleInput handled, none)
  | .clipboardFormats accepted => s.handleClipboardFormats accepted

/-- The loop takes what happens if it waits for it. -/
def step (s : Session) (e : LoopEvent) : Option (Session × Option SpawnedTask) :=
  if s.Awaits e then some (s.handle e) else none

/-- The rounds as a machine. -/
def machine : Machine Session LoopEvent := ⟨fun s e => (s.step e).map Prod.fst⟩

theorem step_eq_some {s : Session} {e : LoopEvent} {r : Session × Option SpawnedTask} :
    s.step e = some r ↔ s.Awaits e ∧ s.handle e = r := by
  simp [step]

theorem machine_step {s s' : Session} {e : LoopEvent} :
    machine.step s e = some s' ↔ s.Awaits e ∧ (s.handle e).1 = s' := by
  simp [machine, step]

end Session

end Sardp
