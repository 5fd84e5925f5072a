import Sardp.File.Reassembly
import Sardp.Server.Session

/-!
# The tasks of a session

What the loop of a session spawns and then leaves alone (`sardp-server.rs`): a file transfer
(`file_transfer_session.rs`), the announcement of the server's clipboard and the request for
the client's (`clipboard_session.rs`), and the reading of captured audio
(`audio_session.rs`). A task waits for the client for as long as it takes, and `Task.step` is
what it does when something happens.

The permission a task needs (`Task.permission`) is looked at when it is spawned, and by no
step of the task. Some of its steps are operations under that permission
(`TaskAction.permission`): a step only acts under the permission of its task
(`Task.permission_of_step`), and a task that is running can always act
(`Task.exists_acts`).
-/

namespace Sardp

/-! ## What the tasks do -/

/-- A stream of the client, with what reading its prologue comes to. -/
structure ClientStream where
  prologue : Except StreamReadError StreamPrologue
  deriving DecidableEq

/-- What a file transfer leaves to the task it runs in. -/
inductive FileTransferOutcome
  | done
  | reportError (e : FileTransferError)

def ReceiveOutcome.toFileTransferOutcome : ReceiveOutcome → FileTransferOutcome
  | .complete _ => .done
  | .error e => .reportError e

/-- Where a file transfer is. -/
inductive FileTransferPhase
  /-- Waiting for the next stream of the client. -/
  | accepting
  | readingPrologue (stream : ClientStream)
  /-- Receiving the file of a handle, of a size. -/
  | receiving (fileHandle resolvedSize : ℕ)
  | sending
  | ended (result : Except FileTransferSessionError FileTransferOutcome)

/-- Where the announcement of the server's clipboard is. -/
inductive AnnouncePhase
  | announcing
  | awaitingRequest
  | ended
  deriving DecidableEq

/-- Where the request for the client's clipboard is. -/
inductive RequestPhase
  | requesting
  | awaitingResponse
  | ended
  deriving DecidableEq

/-- A task the loop has spawned. -/
inductive Task
  | fileTransfer (request : FileTransferRequest) (fileHandle : ℕ) (phase : FileTransferPhase)
  | clipboardAnnounce (phase : AnnouncePhase)
  | clipboardRequest (request : ClipboardRequest) (phase : RequestPhase)
  /-- Whether the stream has not ended yet. -/
  | audioCapture (reading : Bool)

/-- What a task waits for. -/
inductive TaskEvent
  /-- The next stream of the client is accepted. -/
  | accept
  /-- The connection fails before, or, for `none`, the time is up. -/
  | acceptFailed (e : Option Quinn.ConnectionError)
  | prologue
  /-- The messages of a file, up to the one that decides the transfer. -/
  | received (events : List FileEvent)
  /-- What becomes of opening the stream of a file, and then of writing the file to it. -/
  | sent (opening : Except FileTransferSessionError Unit) (written : Written)
  | announced (announced : Except ClipboardSessionError Unit)
  | clipboardRequested (request : Except ClipboardSessionError ClipboardRequest)
  | requested (written : Written)
  | responded (response : Except ClipboardSessionError (Except ClipboardError ClipboardData))
  | audioFrame (frame : Except AudioError Unit)

/-- What a task does that is seen outside of it. -/
inductive TaskAction
  | sendClipboardData (data : ClipboardData)
  | sendClipboardError (e : ClipboardError)
  | acceptClipboardData (data : ClipboardData)
  | consumeAudioFrame
  /-- On the control stream. -/
  | reportFileTransferError (e : FileTransferError)

/-- What the tasks of a session share with its loop. -/
structure TaskContext where
  sessionId : SessionId
  userId : String
  nowUs : ℕ
  handles : FileHandleStore
  /-- The streams the client has opened and nobody has accepted, in order. -/
  incoming : List ClientStream

/-- Checking the stream of a file against the handles issued: the handle it is for. -/
def TaskContext.acceptFileStreamVerified (ctx : TaskContext) (direction : FileTransferDirection)
    (stream : ClientStream) : Except FileTransferSessionError ℕ :=
  match stream.prologue with
  | .error e => .error (.read e)
  | .ok prologue =>
    if prologue.kind ≠ .file then .error .wrongStreamKind
    else
      let fileHandle := prologue.contextId
      match ctx.handles.validate ctx.nowUs fileHandle ctx.sessionId ctx.userId direction with
      | .error e => .error (.ownershipRejected e)
      | .ok _ => .ok fileHandle

/-- The error the task of a transfer reports, if it has just ended in one. -/
def FileTransferPhase.report : FileTransferPhase → Option TaskAction
  | .ended (.ok (.reportError e)) => some (.reportFileTransferError e)
  | _ => none

/-- The clipboard of the server. -/
def pseudoClipboard : List UInt8 :=
  "hello from sardp-server's synthetic clipboard".toUTF8.toList

/-- The answer to a request for the clipboard: an error if it is larger than the policy
    allows, if there is one. -/
def respondToClipboardRequest (request : ClipboardRequest) (data : List UInt8)
    (maxSize : Option ℕ) : TaskAction :=
  if ∃ max ∈ maxSize, data.length > max then
    .sendClipboardError ⟨request.requestId, ReasonCode.POLICY_CLIPBOARD_FORMAT_TOO_LARGE⟩
  else .sendClipboardData ⟨request.requestId, request.ns, request.formatId, data⟩

/-- A task as it is spawned. -/
def SpawnedTask.start : SpawnedTask → Task
  | .fileTransfer request fileHandle =>
    match request.direction with
    | .upload => .fileTransfer request fileHandle .accepting
    | .download => .fileTransfer request fileHandle .sending
  | .clipboardAnnounce => .clipboardAnnounce .announcing
  | .clipboardRequest requestId format =>
    .clipboardRequest ⟨requestId, format.ns, format.formatId⟩ .requesting
  | .audioCapture => .audioCapture true

section

variable (sha256 : List UInt8 → List UInt8)

/-- A step of a file transfer. The file received is one of the handle the *stream* was opened
    for, and of the size of the *request* the task was spawned for. -/
def runFileTransfer (ctx : TaskContext) (request : FileTransferRequest) (fileHandle : ℕ) :
    FileTransferPhase → TaskEvent → Option (FileTransferPhase × TaskContext)
  | .accepting, .accept =>
    -- the next stream of the client, whichever it is, out of the queue the loop accepts from
    match ctx.incoming with
    | [] => none
    | stream :: incoming => some (.readingPrologue stream, { ctx with incoming })
  | .accepting, .acceptFailed none => some (.ended (.error .acceptTimeout), ctx)
  | .accepting, .acceptFailed (some e) => some (.ended (.error (.quic e)), ctx)
  | .readingPrologue stream, .prologue =>
    match ctx.acceptFileStreamVerified request.direction stream with
    | .error e => some (.ended (.error e), ctx)
    -- any handle of the session will do, not only the one the task was spawned for
    | .ok verifiedHandle => some (.receiving verifiedHandle request.declaredSize, ctx)
  | .receiving verifiedHandle resolvedSize, .received events =>
    (receiveFile sha256 verifiedHandle resolvedSize events).map fun outcome =>
      (.ended (outcome.map ReceiveOutcome.toFileTransferOutcome),
        { ctx with handles := ctx.handles.remove verifiedHandle })
  -- without a stream, the handle is left to expire
  | .sending, .sent (.error e) _ => some (.ended (.error e), ctx)
  | .sending, .sent (.ok ()) written =>
    some (.ended ((written.mapError .write).map fun () => .done),
      { ctx with handles := ctx.handles.remove fileHandle })
  | _, _ => none

/-- A step of a task, with what it does; `none` where the task does not wait for that. -/
def Task.step (ctx : TaskContext) : Task → TaskEvent → Option (Task × TaskContext × Option TaskAction)
  | .fileTransfer request fileHandle phase, e =>
    (runFileTransfer sha256 ctx request fileHandle phase e).map fun (phase, ctx) =>
      (.fileTransfer request fileHandle phase, ctx, phase.report)
  | .clipboardAnnounce .announcing, .announced (.error _) =>
    some (.clipboardAnnounce .ended, ctx, none)
  | .clipboardAnnounce .announcing, .announced (.ok ()) =>
    some (.clipboardAnnounce .awaitingRequest, ctx, none)
  | .clipboardAnnounce .awaitingRequest, .clipboardRequested (.error _) =>
    some (.clipboardAnnounce .ended, ctx, none)
  | .clipboardAnnounce .awaitingRequest, .clipboardRequested (.ok request) =>
    some (.clipboardAnnounce .ended, ctx,
      -- the permission has been looked at when the task was spawned, and is not again
      some (respondToClipboardRequest request pseudoClipboard none))
  | .clipboardRequest request .requesting, .requested (.error _) =>
    some (.clipboardRequest request .ended, ctx, none)
  | .clipboardRequest request .requesting, .requested (.ok ()) =>
    some (.clipboardRequest request .awaitingResponse, ctx, none)
  | .clipboardRequest request .awaitingResponse, .responded (.ok (.ok data)) =>
    some (.clipboardRequest request .ended, ctx, some (.acceptClipboardData data))
  | .clipboardRequest request .awaitingResponse, .responded _ =>
    some (.clipboardRequest request .ended, ctx, none)
  | .audioCapture true, .audioFrame (.ok ()) =>
    some (.audioCapture true, ctx, some .consumeAudioFrame)
  | .audioCapture true, .audioFrame (.error _) => some (.audioCapture false, ctx, none)
  | _, _ => none

end

/-! ## What they need -/

/-- The permission the loop looks at before it spawns a task. -/
def SpawnedTask.permission : SpawnedTask → PermissionSet
  | .fileTransfer request _ => requiredPermissionBit request.direction
  | .clipboardAnnounce => Bit.CLIP_READ
  | .clipboardRequest _ _ => Bit.CLIP_WRITE
  | .audioCapture => Bit.AUDIO_CAPTURE

/-- The permission a task was spawned with. -/
def Task.permission : Task → PermissionSet
  | .fileTransfer request _ _ => requiredPermissionBit request.direction
  | .clipboardAnnounce _ => Bit.CLIP_READ
  | .clipboardRequest _ _ => Bit.CLIP_WRITE
  | .audioCapture _ => Bit.AUDIO_CAPTURE

/-- The permission whose operation an action is, if it is one. -/
def TaskAction.permission : TaskAction → Option PermissionSet
  | .sendClipboardData _ => some Bit.CLIP_READ
  | .acceptClipboardData _ => some Bit.CLIP_WRITE
  | .consumeAudioFrame => some Bit.AUDIO_CAPTURE
  | .sendClipboardError _ | .reportFileTransferError _ => none

/-- The task has not ended. -/
def Task.inProgress : Task → Bool
  | .fileTransfer _ _ (.ended _) => false
  | .fileTransfer _ _ _ => true
  | .clipboardAnnounce phase => phase ≠ .ended
  | .clipboardRequest _ phase => phase ≠ .ended
  | .audioCapture reading => reading

/-- The permissions whose operations the tasks carry out. -/
def TASK_BITS : List PermissionSet := [Bit.CLIP_READ, Bit.CLIP_WRITE, Bit.AUDIO_CAPTURE]

variable {sha256 : List UInt8 → List UInt8} {ctx ctx' : TaskContext} {task task' : Task}
  {e : TaskEvent} {action : Option TaskAction}

theorem SpawnedTask.permission_start (spawned : SpawnedTask) :
    spawned.start.permission = spawned.permission := by
  cases spawned with
  | fileTransfer request fileHandle =>
    simp only [start]
    split <;> rfl
  | _ => rfl

/-- Without a limit the clipboard is sent. -/
theorem respondToClipboardRequest_none (request : ClipboardRequest) (data : List UInt8) :
    respondToClipboardRequest request data none =
      .sendClipboardData ⟨request.requestId, request.ns, request.formatId, data⟩ := by
  simp [respondToClipboardRequest]

theorem FileTransferPhase.permission_of_report {phase : FileTransferPhase} {a : TaskAction}
    (h : phase.report = some a) : a.permission = none := by
  simp only [report] at h
  split at h
  · cases h
    rfl
  · cases h

/-- A transfer accepts a stream, starts to receive the file of it, or ends, and then removes
    one handle or none. -/
theorem runFileTransfer_cases {request : FileTransferRequest} {fileHandle : ℕ}
    {phase phase' : FileTransferPhase}
    (h : runFileTransfer sha256 ctx request fileHandle phase e = some (phase', ctx')) :
    (∃ stream incoming, phase = .accepting ∧ e = .accept ∧ ctx.incoming = stream :: incoming ∧
        phase' = .readingPrologue stream ∧ ctx' = { ctx with incoming }) ∨
      (∃ stream verifiedHandle, phase = .readingPrologue stream ∧ e = .prologue ∧
        ctx.acceptFileStreamVerified request.direction stream = .ok verifiedHandle ∧
        phase' = .receiving verifiedHandle request.declaredSize ∧ ctx' = ctx) ∨
      ∃ result, phase' = .ended result ∧
        (ctx' = ctx ∨ ∃ removed, ctx' = { ctx with handles := ctx.handles.remove removed }) := by
  simp only [runFileTransfer] at h
  -- the branches that end the transfer without touching a handle come last
  split at h
  case h_1 =>
    split at h
    · cases h
    · next stream incoming hincoming =>
      cases h
      exact .inl ⟨stream, incoming, rfl, rfl, hincoming, rfl, rfl⟩
  case h_4 stream =>
    split at h
    · cases h
      exact .inr (.inr ⟨_, rfl, .inl rfl⟩)
    · next verifiedHandle hverified =>
      cases h
      exact .inr (.inl ⟨stream, verifiedHandle, rfl, rfl, hverified, rfl, rfl⟩)
  case h_5 verifiedHandle _ _ =>
    obtain ⟨outcome, -, h⟩ := Option.map_eq_some_iff.1 h
    cases h
    exact .inr (.inr ⟨_, rfl, .inr ⟨verifiedHandle, rfl⟩⟩)
  case h_7 =>
    cases h
    exact .inr (.inr ⟨_, rfl, .inr ⟨fileHandle, rfl⟩⟩)
  all_goals cases h
  all_goals exact .inr (.inr ⟨_, rfl, .inl rfl⟩)

/-- A step of a task is one of a transfer, or changes nothing but a task that is none. -/
theorem Task.step_cases (h : task.step sha256 ctx e = some (task', ctx', action)) :
    (∃ request fileHandle phase phase', task = .fileTransfer request fileHandle phase ∧
        task' = .fileTransfer request fileHandle phase' ∧ action = phase'.report ∧
        runFileTransfer sha256 ctx request fileHandle phase e = some (phase', ctx')) ∨
      ctx' = ctx ∧ ∀ request fileHandle phase, task' ≠ .fileTransfer request fileHandle phase := by
  simp only [step] at h
  split at h
  case h_1 e request fileHandle phase =>
    obtain ⟨⟨phase', ctx₁⟩, hstep, h⟩ := Option.map_eq_some_iff.1 h
    cases h
    exact .inl ⟨request, fileHandle, phase, phase', rfl, rfl, rfl, hstep⟩
  all_goals cases h
  all_goals
    refine .inr ⟨rfl, fun _ _ _ heq => ?_⟩
    cases heq

/-- A step is one of a task in progress, keeps its permission, and acts under no other. -/
theorem Task.step_spec (h : task.step sha256 ctx e = some (task', ctx', action)) :
    task.inProgress ∧ task'.permission = task.permission ∧
      ∀ a ∈ action, ∀ b ∈ a.permission, b = task.permission := by
  simp only [step] at h
  split at h
  case h_1 e request fileHandle phase =>
    obtain ⟨⟨phase', ctx₁⟩, hstep, h⟩ := Option.map_eq_some_iff.1 h
    simp only [Prod.mk.injEq] at h
    obtain ⟨rfl, rfl, rfl⟩ := h
    refine ⟨?_, rfl, fun a ha b hb => ?_⟩
    · -- a transfer that has ended waits for nothing
      cases phase with
      | ended result => cases e <;> cases hstep
      | _ => rfl
    · rw [FileTransferPhase.permission_of_report ha] at hb
      cases hb
  case h_5 request =>
    cases h
    refine ⟨rfl, rfl, ?_⟩
    rintro _ ⟨⟩ b hb
    rw [respondToClipboardRequest_none] at hb
    exact (Option.some.inj hb).symm
  all_goals cases h
  all_goals refine ⟨rfl, rfl, ?_⟩
  all_goals
    rintro _ ⟨⟩ b hb
    try exact (Option.some.inj hb).symm

theorem Task.mem_TASK_BITS (hbits : task.permission ∈ TASK_BITS) :
    (∃ phase, task = .clipboardAnnounce phase) ∨
      (∃ request phase, task = .clipboardRequest request phase) ∨
        ∃ reading, task = .audioCapture reading := by
  cases task with
  | fileTransfer request fileHandle phase =>
    have hnot : ∀ direction, requiredPermissionBit direction ∉ TASK_BITS := by
      rintro (_ | _) <;> decide
    exact absurd hbits (hnot request.direction)
  | clipboardAnnounce phase => exact .inl ⟨phase, rfl⟩
  | clipboardRequest request phase => exact .inr (.inl ⟨request, phase, rfl⟩)
  | audioCapture reading => exact .inr (.inr ⟨reading, rfl⟩)

/-- A task in progress that carries out operations can do so in one or two steps, with
    nothing but the client to wait for. -/
theorem Task.exists_acts (sha256 : List UInt8 → List UInt8) (ctx : TaskContext)
    (hbits : task.permission ∈ TASK_BITS) (hprogress : task.inProgress) :
    ∃ e task' a, a.permission = some task.permission ∧
      (task.step sha256 ctx e = some (task', ctx, some a) ∨
        ∃ e₀ task₀, task.step sha256 ctx e₀ = some (task₀, ctx, none) ∧
          task₀.step sha256 ctx e = some (task', ctx, some a)) := by
  rcases mem_TASK_BITS hbits with ⟨phase, rfl⟩ | ⟨request, phase, rfl⟩ | ⟨reading, rfl⟩
  · -- the client asks for what is announced, after the announcement if that is still due
    have hresponse : (respondToClipboardRequest ⟨1, .mime, "text/plain"⟩ pseudoClipboard none
        ).permission = some Bit.CLIP_READ := by
      rw [respondToClipboardRequest_none]
      rfl
    refine ⟨.clipboardRequested (.ok ⟨1, .mime, "text/plain"⟩), .clipboardAnnounce .ended, _,
      hresponse, ?_⟩
    cases phase with
    | announcing => exact .inr ⟨.announced (.ok ()), .clipboardAnnounce .awaitingRequest, rfl, rfl⟩
    | awaitingRequest => exact .inl rfl
    | ended => cases hprogress
  · refine ⟨.responded (.ok (.ok ⟨1, .mime, "text/plain", []⟩)), .clipboardRequest request .ended,
      .acceptClipboardData ⟨1, .mime, "text/plain", []⟩, rfl, ?_⟩
    cases phase with
    | requesting =>
      exact .inr ⟨.requested (.ok ()), .clipboardRequest request .awaitingResponse, rfl, rfl⟩
    | awaitingResponse => exact .inl rfl
    | ended => cases hprogress
  · cases reading with
    | false => cases hprogress
    | true => exact ⟨.audioFrame (.ok ()), .audioCapture true, .consumeAudioFrame, rfl, .inl rfl⟩

end Sardp
