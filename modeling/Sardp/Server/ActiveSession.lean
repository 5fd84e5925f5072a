import Sardp.Server.Rounds
import Sardp.Server.Tasks

/-!
# The active session and its tasks

An active session is more than its loop: next to it run the tasks it has spawned, the client
opens streams whenever it likes, and the handles are shared with the other sessions of the
server. `ActiveSession.step` interleaves them all, one step of one of them at a time.

The streams of the client go through one queue, and whoever accepts next gets the first one:
the loop, which waits for streams next to everything else it waits for
(`accept_incoming_uni`), or a task that waits for the stream of a file. The clipboard streams
have a queue of their own, which only the loop accepts from
(`accept_clipboard_formats` in `clipboard_session.rs`). The loop accepts a stream and reads
the first bytes of it within one wait, so when anything else happens in between, it drops the
stream it has already accepted.

A step of the loop is one of `ActiveSession.loopEvent`: it alone changes the session
(`ActiveSession.loop_step`, `ActiveSession.other_step`).
-/

namespace Sardp

/-- A clipboard stream of the client, with what reading its prologue comes to, and then what
    reading its first message does, as far as that decodes. -/
structure ClipboardStream where
  prologue : Except StreamReadError StreamPrologue
  message : Except StreamReadError (UInt16 × Option ClipboardFormats)

/-- The prologue is one of a clipboard stream. -/
def ClipboardStream.isClipboard (stream : ClipboardStream) : Bool :=
  match stream.prologue with
  | .error _ => false
  | .ok prologue => prologue.kind = .clipboard

/-- What accepting the stream comes to. -/
def ClipboardStream.formats (stream : ClipboardStream) :
    Except ClipboardSessionError ClipboardFormats :=
  match stream.prologue with
  | .error e => .error (.read e)
  | .ok prologue =>
    if prologue.kind ≠ .clipboard then .error .wrongStreamKind
    else
      match stream.message with
      | .error e => .error (.read e)
      | .ok (typeRaw, formats) =>
        if typeRaw ≠ TypeId.CLIPBOARD_FORMATS then .error (.unexpectedType typeRaw)
        else
          match formats with
          | none => .error .decode
          | some formats =>
            if formats.requestId ≠ prologue.contextId then
              .error (.requestIdMismatch prologue.contextId formats.requestId)
            else .ok formats

/-- A session with everything that goes on in it. -/
structure ActiveSession extends TaskContext where
  session : Session
  /-- The stream the loop has accepted and reads the prologue of. -/
  accepting : Option ClientStream
  /-- The clipboard streams the client has opened and the loop has not accepted, in order. -/
  incomingBi : List ClipboardStream
  /-- The clipboard stream the loop has accepted, and whether it has read the prologue. -/
  acceptingBi : Option (ClipboardStream × Bool)
  tasks : List Task

/-- What goes on in a session. -/
inductive ActiveEvent
  /-- The client opens a stream. -/
  | openUni (stream : ClientStream)
  /-- A round of the loop that is none of those below. -/
  | round (e : LoopEvent)
  /-- The round of a request for a file transfer, with the handle drawn for it. -/
  | request (request : FileTransferRequest) (candidate : ℕ) (written : Written)
  /-- The loop accepts the next stream of the client. -/
  | acceptUni
  /-- The round of the stream it has accepted, now that the prologue is read. -/
  | dispatch (config : Except AudioError Unit)
  /-- The client opens a clipboard stream. -/
  | openBi (stream : ClipboardStream)
  /-- The loop accepts the next clipboard stream. -/
  | acceptBi
  /-- It has read the prologue, and goes on to the first message. -/
  | prologueBi
  /-- The round of the clipboard stream, now that it knows what is announced or why not. -/
  | dispatchBi
  /-- A step of the task with the index. -/
  | task (i : ℕ) (e : TaskEvent)
  | clock (elapsedUs : ℕ)
  | sweep
  /-- Another session issues a handle. -/
  | issueOther (sessionId : SessionId) (userId : String) (direction : FileTransferDirection)
      (resolvedSize candidate : ℕ)
  /-- Another session removes one of its handles. -/
  | removeOther (fileHandle : ℕ)

/-- What reading the prologue of an accepted stream comes to. -/
def ClientStream.accepted (stream : ClientStream) : Except AcceptUniError StreamKind :=
  match stream.prologue with
  | .error e => .error (.read e)
  | .ok prologue => .ok prologue.kind

namespace ActiveSession

/-- The session as its loop starts. The handles and the streams may be there already. -/
def start (ctx : TaskContext) (grantedPermissions : PermissionSet) (synthetic : Bool)
    (videoChannel : VideoChannel) (opened : List ℕ) : ActiveSession where
  toTaskContext := ctx
  session := .start grantedPermissions synthetic videoChannel opened
  accepting := none
  incomingBi := []
  acceptingBi := none
  tasks := []

/-- The handle for a request, if it may be issued, and the handles with it. -/
def issue (s : ActiveSession) (request : FileTransferRequest) (candidate : ℕ) :
    Option (ℕ × ℕ) × FileHandleStore :=
  match s.session.permissionSm.checkGate (requiredPermissionBit request.direction) with
  | .error _ => (none, s.handles)
  | .ok () =>
    s.handles.tryIssue s.sessionId s.userId request.direction request.declaredSize s.nowUs candidate

/-- The round is about neither a request for a file transfer nor an accepted stream. -/
def admits (s : ActiveSession) : LoopEvent → Bool
  | .control (.ok (.fileTransferRequest (some _) _)) _ => false
  | .incomingUni (.error (.quic _)) _ => s.accepting.isNone
  | .incomingUni _ _ => false
  | .clipboardFormats (.error (.quic _)) => s.acceptingBi.isNone
  | .clipboardFormats _ => false
  | _ => true

/-- The loop waits for what happens next. -/
def Selecting (s : ActiveSession) : Prop := s.session.result = none ∧ s.session.phase = .selecting

instance (s : ActiveSession) : Decidable s.Selecting := by
  unfold Selecting
  infer_instance

/-- A round of the loop. What it was waiting for besides is dropped, and the task it spawns
    is added. -/
def loopRound (s : ActiveSession) (e : LoopEvent) : Option ActiveSession :=
  (s.session.step e).map fun (session, spawned) =>
    { s with
      session
      -- the futures of the other waits are dropped with the streams they hold
      accepting := none
      acceptingBi := none
      tasks := s.tasks ++ (spawned.map SpawnedTask.start).toList }

section

variable (sha256 : List UInt8 → List UInt8)

/-- A step of the session; `none` where the event is not possible. -/
def step (s : ActiveSession) : ActiveEvent → Option ActiveSession
  | .openUni stream => some { s with incoming := s.incoming ++ [stream] }
  | .round e => if s.admits e then s.loopRound e else none
  | .request request candidate written =>
    if s.handles.get candidate = none then
      let (issued, handles) := s.issue request candidate
      { s with handles }.loopRound
        (.control (.ok (.fileTransferRequest (some request) issued)) written)
    else none
  | .acceptUni =>
    match s.incoming with
    | [] => none
    | stream :: incoming =>
      if s.Selecting ∧ s.accepting = none then
        some { s with incoming, accepting := some stream }
      else none
  | .dispatch config =>
    match s.accepting with
    | none => none
    | some stream => s.loopRound (.incomingUni stream.accepted config)
  | .openBi stream => some { s with incomingBi := s.incomingBi ++ [stream] }
  | .acceptBi =>
    match s.incomingBi with
    | [] => none
    | stream :: incomingBi =>
      if s.Selecting ∧ s.acceptingBi = none then
        some { s with incomingBi, acceptingBi := some (stream, false) }
      else none
  | .prologueBi =>
    match s.acceptingBi with
    | some (stream, false) =>
      if stream.isClipboard then some { s with acceptingBi := some (stream, true) } else none
    | _ => none
  | .dispatchBi =>
    match s.acceptingBi with
    | none => none
    | some (stream, prologueRead) =>
      -- the wait goes on to the first message exactly if the prologue is one of the clipboard
      if prologueRead = stream.isClipboard then s.loopRound (.clipboardFormats stream.formats)
      else none
  | .task i e =>
    match s.tasks[i]? with
    | none => none
    | some task => (task.step sha256 s.toTaskContext e).map fun (task, ctx, _) =>
        { s with toTaskContext := ctx, tasks := s.tasks.set i task }
  | .clock elapsedUs => some { s with nowUs := s.nowUs + elapsedUs }
  | .sweep => some { s with handles := s.handles.sweepExpired s.nowUs }
  | .issueOther sessionId userId direction resolvedSize candidate =>
    if sessionId ≠ s.sessionId ∧ s.handles.get candidate = none then
      some { s with handles :=
        (s.handles.tryIssue sessionId userId direction resolvedSize s.nowUs candidate).2 }
    else none
  | .removeOther fileHandle =>
    if ∃ record ∈ s.handles.get fileHandle, record.sessionId ≠ s.sessionId then
      some { s with handles := s.handles.remove fileHandle }
    else none

/-- The steps as a machine. -/
def machine : Machine ActiveSession ActiveEvent := ⟨step sha256⟩

/-- What a task does in the step, if it does something that is seen outside of it. -/
def action (s : ActiveSession) : ActiveEvent → Option TaskAction
  | .task i e =>
    (s.tasks[i]?.bind (Task.step sha256 s.toTaskContext · e)).bind fun (_, _, action) => action
  | _ => none

end

/-- The round of the loop an event is, if it is one. -/
def loopEvent (s : ActiveSession) : ActiveEvent → Option LoopEvent
  | .round e => some e
  | .request request candidate written =>
    some (.control (.ok (.fileTransferRequest (some request) (s.issue request candidate).1))
      written)
  | .dispatch config => s.accepting.map fun stream => .incomingUni stream.accepted config
  | .dispatchBi => s.acceptingBi.map fun (stream, _) => .clipboardFormats stream.formats
  | _ => none

variable {sha256 : List UInt8 → List UInt8} {s s' : ActiveSession} {e : ActiveEvent}
  {le : LoopEvent}

theorem loopRound_eq_some :
    s.loopRound le = some s' ↔ s.session.Awaits le ∧
      { s with
        session := (s.session.handle le).1
        accepting := none
        acceptingBi := none
        tasks := s.tasks ++ ((s.session.handle le).2.map SpawnedTask.start).toList } = s' := by
  simp [loopRound, Session.step]

theorem step_round (hadmits : s.admits le) (hawaits : s.session.Awaits le) :
    (machine sha256).step s (.round le) = some
      { s with
        session := (s.session.handle le).1
        accepting := none
        acceptingBi := none
        tasks := s.tasks ++ ((s.session.handle le).2.map SpawnedTask.start).toList } := by
  simp only [machine, step, if_pos hadmits]
  exact loopRound_eq_some.2 ⟨hawaits, rfl⟩

/-- What a round of the loop changes, but for the handles: it drops the streams it has accepted
    and adds the task it spawns. -/
structure LoopStep (s : ActiveSession) (le : LoopEvent) (s' : ActiveSession) : Prop where
  awaits : s.session.Awaits le
  session : s'.session = (s.session.handle le).1
  tasks : s'.tasks = s.tasks ++ ((s.session.handle le).2.map SpawnedTask.start).toList
  incoming : s'.incoming = s.incoming
  accepting : s'.accepting = none
  incomingBi : s'.incomingBi = s.incomingBi
  acceptingBi : s'.acceptingBi = none

theorem loop_step (hle : s.loopEvent e = some le) (h : (machine sha256).step s e = some s') :
    LoopStep s le s' := by
  cases e with
  | round e =>
    cases hle
    simp only [machine, step] at h
    split_ifs at h
    obtain ⟨hawaits, rfl⟩ := loopRound_eq_some.1 h
    exact ⟨hawaits, rfl, rfl, rfl, rfl, rfl, rfl⟩
  | request request candidate written =>
    cases hle
    simp only [machine, step] at h
    split_ifs at h
    obtain ⟨hawaits, rfl⟩ := loopRound_eq_some.1 h
    exact ⟨hawaits, rfl, rfl, rfl, rfl, rfl, rfl⟩
  | dispatch config =>
    obtain ⟨stream, hstream, rfl⟩ := Option.map_eq_some_iff.1 hle
    simp only [machine, step, hstream] at h
    obtain ⟨hawaits, rfl⟩ := loopRound_eq_some.1 h
    exact ⟨hawaits, rfl, rfl, rfl, rfl, rfl, rfl⟩
  | dispatchBi =>
    obtain ⟨⟨stream, prologueRead⟩, hstream, rfl⟩ := Option.map_eq_some_iff.1 hle
    simp only [machine, step, hstream] at h
    split_ifs at h
    obtain ⟨hawaits, rfl⟩ := loopRound_eq_some.1 h
    exact ⟨hawaits, rfl, rfl, rfl, rfl, rfl, rfl⟩
  | _ => cases hle

/-- A step of a task, among the others. -/
theorem step_task {i : ℕ} {te : TaskEvent} {task task' : Task} {ctx : TaskContext}
    {a : Option TaskAction} (hi : s.tasks[i]? = some task)
    (hstep : task.step sha256 s.toTaskContext te = some (task', ctx, a)) :
    (machine sha256).step s (.task i te) =
        some { s with toTaskContext := ctx, tasks := s.tasks.set i task' } ∧
      s.action sha256 (.task i te) = a := by
  simp [machine, step, action, hi, hstep]

theorem acceptUni_step {stream : ClientStream} {incoming : List ClientStream}
    (h : (machine sha256).step s .acceptUni = some s') (hincoming : s.incoming = stream :: incoming) :
    s.Selecting ∧ s' = { s with incoming, accepting := some stream } ∧ s.accepting = none := by
  simp only [machine, step, hincoming] at h
  split_ifs at h with hselecting
  exact ⟨hselecting.1, (Option.some.inj h).symm, hselecting.2⟩

theorem acceptBi_step {stream : ClipboardStream} {incomingBi : List ClipboardStream}
    (h : (machine sha256).step s .acceptBi = some s')
    (hincoming : s.incomingBi = stream :: incomingBi) :
    s.Selecting ∧ s' = { s with incomingBi, acceptingBi := some (stream, false) } ∧
      s.acceptingBi = none := by
  simp only [machine, step, hincoming] at h
  split_ifs at h with hselecting
  exact ⟨hselecting.1, (Option.some.inj h).symm, hselecting.2⟩

theorem task_step {i : ℕ} {te : TaskEvent} (h : (machine sha256).step s (.task i te) = some s') :
    ∃ task task' ctx, s.tasks[i]? = some task ∧
      task.step sha256 s.toTaskContext te = some (task', ctx, s.action sha256 (.task i te)) ∧
      s' = { s with toTaskContext := ctx, tasks := s.tasks.set i task' } := by
  simp only [machine, step] at h
  split at h
  · cases h
  · next task htask =>
    obtain ⟨⟨task', ctx, a⟩, hstep, rfl⟩ := Option.map_eq_some_iff.1 h
    exact ⟨task, task', ctx, htask, by simp [action, htask, hstep], rfl⟩

/-- What any other step changes: one task, or what the loop has accepted. -/
structure OtherStep (sha256 : List UInt8 → List UInt8) (s : ActiveSession) (e : ActiveEvent)
    (s' : ActiveSession) : Prop where
  session : s'.session = s.session
  tasks : s'.tasks = s.tasks ∧ s.action sha256 e = none ∨
    ∃ i te task task' ctx, e = .task i te ∧ s.tasks[i]? = some task ∧
      task.step sha256 s.toTaskContext te = some (task', ctx, s.action sha256 e) ∧
      s' = { s with toTaskContext := ctx, tasks := s.tasks.set i task' }
  accepting : e ≠ .acceptUni ∧ s'.accepting = s.accepting ∨
    e = .acceptUni ∧ s.Selecting ∧ s.accepting = none ∧
      ∃ stream incoming, s.incoming = stream :: incoming ∧ s'.accepting = some stream
  acceptingBi : e ≠ .acceptBi ∧ s'.acceptingBi = s.acceptingBi ∨
    (e = .acceptBi ∧ s.Selecting ∧ s.acceptingBi = none ∧
      ∃ stream incomingBi, s.incomingBi = stream :: incomingBi ∧ s'.incomingBi = incomingBi ∧
        s'.acceptingBi = some (stream, false)) ∨
    e = .prologueBi ∧ ∃ stream : ClipboardStream, stream.isClipboard ∧
      s.acceptingBi = some (stream, false) ∧ s'.acceptingBi = some (stream, true)
  incomingBi : e ≠ .acceptBi → (∀ stream, e ≠ .openBi stream) → s'.incomingBi = s.incomingBi

theorem other_step (hle : s.loopEvent e = none) (h : (machine sha256).step s e = some s') :
    OtherStep sha256 s e s' := by
  cases e with
  | round | request => cases hle
  | dispatch config =>
    have hnone : s.accepting = none := Option.map_eq_none_iff.1 hle
    simp only [machine, step, hnone] at h
    cases h
  | dispatchBi =>
    have hnone : s.acceptingBi = none := Option.map_eq_none_iff.1 hle
    simp only [machine, step, hnone] at h
    cases h
  | acceptUni =>
    cases hincoming : s.incoming with
    | nil => simp [machine, step, hincoming] at h
    | cons stream incoming =>
      obtain ⟨hselecting, rfl, hnone⟩ := acceptUni_step h hincoming
      exact ⟨rfl, .inl ⟨rfl, rfl⟩,
        .inr ⟨rfl, hselecting, hnone, stream, incoming, hincoming, rfl⟩, .inl ⟨nofun, rfl⟩,
        fun _ _ => rfl⟩
  | acceptBi =>
    cases hincoming : s.incomingBi with
    | nil => simp [machine, step, hincoming] at h
    | cons stream incomingBi =>
      obtain ⟨hselecting, rfl, hnone⟩ := acceptBi_step h hincoming
      exact ⟨rfl, .inl ⟨rfl, rfl⟩, .inl ⟨nofun, rfl⟩,
        .inr (.inl ⟨rfl, hselecting, hnone, stream, incomingBi, hincoming, rfl, rfl⟩),
        fun hne _ => absurd rfl hne⟩
  | prologueBi =>
    simp only [machine, step] at h
    split at h
    · next stream hstream =>
      split_ifs at h with hclipboard
      cases h
      exact ⟨rfl, .inl ⟨rfl, rfl⟩, .inl ⟨nofun, rfl⟩,
        .inr (.inr ⟨rfl, stream, hclipboard, hstream, rfl⟩), fun _ _ => rfl⟩
    · cases h
  | task i te =>
    obtain ⟨task, task', ctx, hi, hstep, rfl⟩ := task_step h
    exact ⟨rfl, .inr ⟨i, te, task, task', ctx, rfl, hi, hstep, rfl⟩, .inl ⟨nofun, rfl⟩,
      .inl ⟨nofun, rfl⟩, fun _ _ => rfl⟩
  | issueOther =>
    simp only [machine, step] at h
    split_ifs at h
    cases h
    exact ⟨rfl, .inl ⟨rfl, rfl⟩, .inl ⟨nofun, rfl⟩, .inl ⟨nofun, rfl⟩,
      fun _ _ => rfl⟩
  | removeOther =>
    simp only [machine, step] at h
    split_ifs at h
    cases h
    exact ⟨rfl, .inl ⟨rfl, rfl⟩, .inl ⟨nofun, rfl⟩, .inl ⟨nofun, rfl⟩,
      fun _ _ => rfl⟩
  | openBi stream =>
    cases h
    exact ⟨rfl, .inl ⟨rfl, rfl⟩, .inl ⟨nofun, rfl⟩, .inl ⟨nofun, rfl⟩,
      fun _ hne => absurd rfl (hne stream)⟩
  | openUni | clock | sweep =>
    cases h
    exact ⟨rfl, .inl ⟨rfl, rfl⟩, .inl ⟨nofun, rfl⟩, .inl ⟨nofun, rfl⟩,
      fun _ _ => rfl⟩

end ActiveSession

end Sardp
