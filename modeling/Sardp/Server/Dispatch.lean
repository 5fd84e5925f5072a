import Sardp.Library.Conservation
import Sardp.Server.ActiveSession
import Sardp.Session.Handshake

/-!
# Who gets a stream of the client

The input and the captured audio of the client are for the loop, and the stream of a file whose
handle was issued is for a transfer. But the loop and the transfers take the streams from one
queue, whoever comes first, and only then look at the kind: the loop stops the stream of a
file, and a transfer drops whatever is none. The loop also drops the stream whose prologue it is
reading when another of its waits ends.

What should become of the streams is `ActiveSession.Delivers`: a stream that is for someone is
pending until it is handed to the handler of its kind, and there it has its effect. It is
delivered as long as nobody who waits would get one that is for the other side
(`ActiveSession.Sole`) and the loop is left alone while it reads a prologue
(`ActiveSession.Undisturbed`); in any other situation somebody who takes the next stream loses it
(`ActiveSession.streams_reach_handlers_iff`).
-/

namespace Sardp

/-- The kind of the stream, if its prologue can be read. -/
def ClientStream.kind (stream : ClientStream) : Option StreamKind :=
  stream.prologue.toOption.map StreamPrologue.kind

/-- The stream is one of input or captured audio. -/
def ClientStream.ForLoop (stream : ClientStream) : Prop :=
  stream.kind = some .input ∨ stream.kind = some .audioCapture

instance (stream : ClientStream) : Decidable stream.ForLoop := by
  unfold ClientStream.ForLoop
  infer_instance

/-- The stream a transfer has accepted and reads the prologue of. -/
def Task.reading : Task → Option ClientStream
  | .fileTransfer _ _ (.readingPrologue stream) => some stream
  | _ => none

theorem ClientStream.kind_eq_some {stream : ClientStream} {kind : StreamKind} :
    stream.kind = some kind ↔
      ∃ prologue, stream.prologue = .ok prologue ∧ prologue.kind = kind := by
  rw [ClientStream.kind]
  cases stream.prologue <;> simp [Except.toOption]

theorem ClientStream.ForLoop.kind_ne_file {stream : ClientStream} (h : stream.ForLoop) :
    stream.kind ≠ some .file := by
  rcases h with h | h <;> simp [h]

theorem ClientStream.accepted_of_kind {stream : ClientStream} {kind : StreamKind}
    (h : stream.kind = some kind) : stream.accepted = .ok kind := by
  obtain ⟨prologue, hprologue, rfl⟩ := kind_eq_some.1 h
  rw [accepted, hprologue]

variable {sha256 : List UInt8 → List UInt8}

theorem SpawnedTask.reading_start (spawned : SpawnedTask) : spawned.start.reading = none := by
  cases spawned with
  | fileTransfer request fileHandle =>
    simp only [start]
    split <;> rfl
  | _ => rfl

/-- What a step of a task does with the streams: it accepts the next one, or it has read the
    prologue of the one it has accepted, or it does nothing with them. -/
theorem Task.reading_step {ctx ctx' : TaskContext} {task task' : Task} {e : TaskEvent}
    {a : Option TaskAction} (h : task.step sha256 ctx e = some (task', ctx', a)) :
    (∃ request fileHandle stream, e = .accept ∧
        task = .fileTransfer request fileHandle .accepting ∧
        task' = .fileTransfer request fileHandle (.readingPrologue stream) ∧
        ctx.incoming = stream :: ctx'.incoming) ∨
      (∃ stream, e = .prologue ∧ task.reading = some stream ∧ task'.reading = none ∧
        ctx'.incoming = ctx.incoming) ∨
      task.reading = none ∧ task'.reading = none ∧ ctx'.incoming = ctx.incoming := by
  rcases step_cases h with ⟨request, fileHandle, phase, phase', rfl, rfl, -, hstep⟩ | ⟨rfl, hne⟩
  · cases phase with
    | accepting =>
      rcases runFileTransfer_cases hstep with ⟨stream, incoming, -, rfl, hincoming, rfl, rfl⟩ |
        ⟨_, _, hphase, -⟩ | ⟨result, rfl, hctx⟩
      · exact .inl ⟨request, fileHandle, stream, rfl, rfl, rfl, hincoming⟩
      · cases hphase
      · refine .inr (.inr ⟨rfl, rfl, ?_⟩)
        rcases hctx with rfl | ⟨removed, rfl⟩ <;> rfl
    | readingPrologue stream =>
      have hprologue : e = .prologue := by cases e <;> first | rfl | cases hstep
      subst hprologue
      refine .inr (.inl ⟨stream, rfl, rfl, ?_⟩)
      simp only [runFileTransfer] at hstep
      split at hstep <;> cases hstep <;> exact ⟨rfl, rfl⟩
    | receiving | sending =>
      rcases runFileTransfer_cases hstep with ⟨_, _, hphase, -⟩ | ⟨_, _, hphase, -⟩ |
        ⟨result, rfl, hctx⟩
      · cases hphase
      · cases hphase
      · refine .inr (.inr ⟨rfl, rfl, ?_⟩)
        rcases hctx with rfl | ⟨removed, rfl⟩ <;> rfl
    | ended => cases e <;> cases hstep
  · -- no other task takes streams
    cases task with
    | fileTransfer request fileHandle phase =>
      obtain ⟨⟨phase', ctx₁⟩, -, h⟩ := Option.map_eq_some_iff.1 h
      cases h
      exact absurd rfl (hne request fileHandle phase')
    | _ =>
      refine .inr (.inr ⟨rfl, ?_, rfl⟩)
      cases task' with
      | fileTransfer request fileHandle phase => exact absurd rfl (hne request fileHandle phase)
      | _ => rfl

/-- Reading the prologue, a transfer either receives the file of the handle the stream is for, or
    refuses that. -/
theorem Task.step_prologue_of_file {ctx ctx' : TaskContext} {request : FileTransferRequest}
    {fileHandle : ℕ} {stream : ClientStream} {prologue : StreamPrologue} {task' : Task}
    {a : Option TaskAction} (hprologue : stream.prologue = .ok prologue)
    (hkind : prologue.kind = .file)
    (h : (Task.fileTransfer request fileHandle (.readingPrologue stream)).step sha256 ctx
      .prologue = some (task', ctx', a)) :
    task' = .fileTransfer request fileHandle
      (match ctx.handles.validate ctx.nowUs prologue.contextId ctx.sessionId ctx.userId
          request.direction with
        | .ok _ => .receiving prologue.contextId request.declaredSize
        | .error e => .ended (.error (.ownershipRejected e))) := by
  simp only [step, runFileTransfer, TaskContext.acceptFileStreamVerified, hprologue, hkind,
    ne_eq, not_true_eq_false, if_false] at h
  cases hvalidate : ctx.handles.validate ctx.nowUs prologue.contextId ctx.sessionId ctx.userId
    request.direction with
  | ok record =>
    simp only [hvalidate] at h
    cases h
    rfl
  | error e =>
    simp only [hvalidate] at h
    cases h
    rfl

namespace ActiveSession

variable {s s' : ActiveSession} {e : ActiveEvent}

/-- The handle was issued to the session. -/
def Issued (s : ActiveSession) (fileHandle : ℕ) : Prop :=
  ∃ accept, ControlOut.fileTransferAccept accept ∈ s.session.sent ∧ accept.fileHandle = fileHandle

/-- The stream is one of a file whose handle was issued. -/
def ForTransfer (s : ActiveSession) (stream : ClientStream) : Prop :=
  ∃ prologue, stream.prologue = .ok prologue ∧ prologue.kind = .file ∧ s.Issued prologue.contextId

/-- The stream is for the loop or for a transfer. -/
def ForSomeone (s : ActiveSession) (stream : ClientStream) : Prop :=
  stream.ForLoop ∨ s.ForTransfer stream

/-! ## What becomes of the streams -/

/-- The stream the client opens. -/
def opens (_ : ActiveSession) : ActiveEvent → List ClientStream
  | .openUni stream => [stream]
  | _ => []

/-- The stream that is handed to the handler of its kind: one of input or captured audio in the
    loop, one of a file in a transfer. -/
def handed (s : ActiveSession) : ActiveEvent → List ClientStream
  | .dispatch _ => s.accepting.toList.filter fun stream => stream.ForLoop
  | .task i .prologue =>
    (s.tasks[i]?.bind Task.reading).toList.filter fun stream => stream.kind = some .file
  | _ => []

/-- The streams that have been opened and are neither handed to anyone nor lost. -/
def pending (s : ActiveSession) : List ClientStream :=
  s.accepting.toList ++ s.tasks.filterMap Task.reading ++ s.incoming

/-- What the handler does with the stream: the loop reads the input from then on, as it does when a
    second stream of input comes; captured audio is read by a task, if it is granted and its
    configuration can be read; and a transfer receives the file of the handle, if that is valid. -/
def Handles (s : ActiveSession) (stream : ClientStream) (s' : ActiveSession) : ActiveEvent → Prop
  | .dispatch config =>
    (stream.kind = some .input → s'.session.inputReceiver = true ∧ s'.session.result = none) ∧
      (stream.kind = some .audioCapture →
        if s.session.permissionSm.isGranted Bit.AUDIO_CAPTURE then
          match config with
          | .ok () => s'.tasks = s.tasks ++ [.audioCapture true] ∧ s'.session.result = none
          | .error e => s'.session.result = some (.error (.audio e))
        else s'.session = s.session)
  | .task i _ => ∃ prologue request fileHandle, stream.prologue = .ok prologue ∧
      s'.tasks[i]? = some (.fileTransfer request fileHandle
        (match s.handles.validate s.nowUs prologue.contextId s.sessionId s.userId
            request.direction with
          | .ok _ => .receiving prologue.contextId request.declaredSize
          | .error e => .ended (.error (.ownershipRejected e))))
  | _ => False

/-- From any moment of the run to its end, every stream that is for someone and was pending or has
    been opened is handed to the handler of its kind or still pending, as long as the session goes
    on; and every handler does with the stream what it is there for. -/
def Delivers (sha256 : List UInt8 → List UInt8) (s : ActiveSession) (es : List ActiveEvent) :
    Prop :=
  (∀ es₁ es₂ s₁ s₂, es = es₁ ++ es₂ → (machine sha256).run s es₁ = some s₁ →
    (machine sha256).run s₁ es₂ = some s₂ → s₂.session.result = none →
      ∀ stream, s₁.ForSomeone stream →
        ((machine sha256).outputs handed s₁ es₂ ++ s₂.pending).count stream =
          (s₁.pending ++ (machine sha256).outputs opens s₁ es₂).count stream) ∧
    (machine sha256).Always (fun s e s' => ∀ stream ∈ s.handed e, s.Handles stream s' e) s es

/-! ## The situations -/

/-- Nobody who waits for a stream would get one that is for the other side. -/
structure Sole (s : ActiveSession) : Prop where
  loop {stream : ClientStream} : s.Selecting → s.accepting = none →
    s.incoming.head? = some stream → ¬ s.ForTransfer stream
  transfer {request : FileTransferRequest} {fileHandle : ℕ} {stream : ClientStream} :
    s.session.result = none → .fileTransfer request fileHandle .accepting ∈ s.tasks →
      s.incoming.head? = some stream → ¬ stream.ForLoop

/-- No other wait of the loop ends while it reads the prologue of a stream that is for it, unless
    the session ends with it. -/
def Undisturbed (s : ActiveSession) (e : ActiveEvent) (s' : ActiveSession) : Prop :=
  ∀ stream, s.accepting = some stream → stream.ForLoop → (s.loopEvent e).isSome →
    s'.session.result = none → ∃ config, e = .dispatch config

/-- Somebody takes the next stream and reads its prologue, or nobody does. -/
inductive Taking : List ActiveEvent → Prop
  | nobody : Taking []
  | loop : Taking [.acceptUni, .dispatch (.ok ())]
  | transfer (i : ℕ) : Taking [.task i .accept, .task i .prologue]

/-! ## Steps -/

theorem forTransfer_of_session {stream : ClientStream} (h : s'.session = s.session) :
    s'.ForTransfer stream ↔ s.ForTransfer stream := by
  simp only [ForTransfer, Issued, h]

theorem ForTransfer.kind {stream : ClientStream} (h : s.ForTransfer stream) :
    stream.kind = some .file := by
  obtain ⟨prologue, hprologue, hkind, -⟩ := h
  exact ClientStream.kind_eq_some.2 ⟨prologue, hprologue, hkind⟩

/-- What has ended the session remains what has ended it. -/
theorem result_of_step (h : (machine sha256).step s e = some s')
    (hresult : s'.session.result = none) : s.session.result = none := by
  cases hle : s.loopEvent e with
  | some le => exact (loop_step hle h).awaits.1
  | none => rw [← (other_step hle h).session, hresult]

/-- A stream that is for someone remains so. -/
theorem ForSomeone.step {stream : ClientStream} (hfor : s.ForSomeone stream)
    (h : (machine sha256).step s e = some s') : s'.ForSomeone stream := by
  refine hfor.imp id fun htransfer => ?_
  cases hle : s.loopEvent e with
  | some le =>
    obtain ⟨prologue, hprologue, hkind, accept, hsent, hhandle⟩ := htransfer
    refine ⟨prologue, hprologue, hkind, accept, ?_, hhandle⟩
    rw [(loop_step hle h).session]
    exact (Session.sent_prefix_handle le).subset hsent
  | none => exact (forTransfer_of_session (other_step hle h).session).2 htransfer

theorem reading_append_start (spawned : Option SpawnedTask) :
    (s.tasks ++ (spawned.map SpawnedTask.start).toList).filterMap Task.reading =
      s.tasks.filterMap Task.reading := by
  cases spawned with
  | none => simp
  | some spawned => simp [SpawnedTask.reading_start]

/-- A round of the loop drops the stream it has accepted, unless it is the round of that stream. -/
theorem count_loop {le : LoopEvent} (hle : s.loopEvent e = some le)
    (h : (machine sha256).step s e = some s') (stream : ClientStream) :
    (s.handed e ++ s'.pending).count stream + s.accepting.toList.count stream =
      (s.pending ++ s.opens e).count stream + (s.handed e).count stream := by
  have hround := loop_step hle h
  have hopens : s.opens e = [] := by cases e <;> first | rfl | cases hle
  have hpending : s'.pending = s.tasks.filterMap Task.reading ++ s.incoming := by
    rw [pending, hround.accepting, hround.tasks, hround.incoming, reading_append_start]
    rfl
  rw [hopens, hpending, pending]
  simp only [List.count_append, List.append_nil]
  omega

/-- A step of a task loses the stream it has read the prologue of, if that is not one of a file. -/
theorem count_task {i : ℕ} {te : TaskEvent} (h : (machine sha256).step s (.task i te) = some s')
    (stream : ClientStream) :
    (s.handed (.task i te) ++ s'.pending).count stream ≤ s.pending.count stream ∧
      ((s.handed (.task i te) ++ s'.pending).count stream = s.pending.count stream ↔
        (te = .prologue → s.tasks[i]?.bind Task.reading = some stream →
          stream.kind = some .file)) := by
  obtain ⟨task, task', ctx, hi, hstep, rfl⟩ := task_step h
  have hset := Machine.count_filterMap_set (f := Task.reading) hi task' stream
  simp only [pending, List.count_append]
  rcases Task.reading_step hstep with ⟨request, fileHandle, accepted, rfl, rfl, rfl, hincoming⟩ |
    ⟨accepted, rfl, hreading, hreading', hincoming⟩ | ⟨hreading, hreading', hincoming⟩
  · -- the stream goes from the queue to the task
    rw [hincoming, List.count_cons]
    simp only [Task.reading, Option.toList_none, Option.toList_some, List.count_nil,
      List.count_singleton] at hset
    simp only [handed, List.count_nil]
    refine ⟨by omega, iff_of_true (by omega) nofun⟩
  · have hhanded : s.handed (.task i .prologue) =
        [accepted].filter fun stream => stream.kind = some .file := by
      simp only [handed, hi, Option.bind_some, hreading, Option.toList_some]
    rw [hreading, hreading'] at hset
    simp only [Option.toList_none, Option.toList_some, List.count_nil] at hset
    rw [hhanded, hincoming]
    simp only [hi, Option.bind_some, hreading, true_implies, Option.some_inj]
    by_cases hkind : stream.kind = some .file
    · rw [List.count_filter (p := fun stream : ClientStream => stream.kind = some .file)
        (decide_eq_true hkind)]
      exact ⟨by omega, iff_of_true (by omega) fun _ => hkind⟩
    · have hnone : ([accepted].filter fun stream => stream.kind = some .file).count stream = 0 :=
        List.count_eq_zero.2 fun hmem => hkind (of_decide_eq_true (List.mem_filter.1 hmem).2)
      have hcount : [accepted].count stream = 0 ↔ ¬ accepted = stream := by
        rw [List.count_eq_zero, List.mem_singleton, eq_comm]
      rw [hnone]
      refine ⟨by omega, fun heq haccepted => ?_, fun h => ?_⟩
      · exact absurd haccepted (hcount.1 (by omega))
      · have hne := hcount.2 fun haccepted => hkind (h haccepted)
        omega
  · have hhanded : s.handed (.task i te) = [] := by
      cases te <;> simp [handed, hi, hreading]
    rw [hreading, hreading'] at hset
    simp only [Option.toList_none, List.count_nil] at hset
    rw [hhanded, hincoming, hi]
    simp only [List.count_nil, Option.bind_some, hreading]
    refine ⟨by omega, iff_of_true (by omega) nofun⟩

/-- Any other step loses none. -/
theorem count_other (hle : s.loopEvent e = none) (htask : ∀ i te, e ≠ .task i te)
    (h : (machine sha256).step s e = some s') (stream : ClientStream) :
    (s.handed e ++ s'.pending).count stream = (s.pending ++ s.opens e).count stream := by
  cases e with
  | round | request => cases hle
  | task i te => exact absurd rfl (htask i te)
  | dispatch config =>
    have hnone : s.accepting = none := Option.map_eq_none_iff.1 hle
    simp only [machine, step, hnone] at h
    cases h
  | dispatchBi =>
    have hnone : s.acceptingBi = none := Option.map_eq_none_iff.1 hle
    simp only [machine, step, hnone] at h
    cases h
  | openUni opened =>
    cases h
    simp [handed, pending, opens]
  | acceptUni =>
    cases hincoming : s.incoming with
    | nil => simp [machine, step, hincoming] at h
    | cons accepted incoming =>
      obtain ⟨-, rfl, hnone⟩ := acceptUni_step h hincoming
      simp only [handed, pending, opens, hnone, hincoming, Option.toList_none, Option.toList_some,
        List.nil_append, List.append_nil, List.count_append, List.count_cons, List.count_nil]
      omega
  | acceptBi =>
    cases hincoming : s.incomingBi with
    | nil => simp [machine, step, hincoming] at h
    | cons accepted incomingBi =>
      obtain ⟨-, rfl, -⟩ := acceptBi_step h hincoming
      simp [handed, pending, opens]
  | prologueBi =>
    simp only [machine, step] at h
    split at h
    · split_ifs at h
      cases h
      simp [handed, pending, opens]
    · cases h
  | issueOther | removeOther =>
    simp only [machine, step] at h
    split_ifs at h
    cases h
    simp [handed, pending, opens]
  | openBi | clock | sweep =>
    cases h
    simp [handed, pending, opens]

/-- Whatever is handed to a handler has its effect there. -/
theorem handles_of_handed (h : (machine sha256).step s e = some s') :
    ∀ stream ∈ s.handed e, s.Handles stream s' e := by
  intro stream hstream
  cases e with
  | dispatch config =>
    obtain ⟨haccepting, -⟩ := List.mem_filter.1 hstream
    rw [Option.mem_toList] at haccepting
    have hle : s.loopEvent (.dispatch config) = some (.incomingUni stream.accepted config) := by
      rw [loopEvent, haccepting]
      rfl
    have hround := loop_step hle h
    have hsession := hround.session
    have htasks := hround.tasks
    constructor
    · intro hkind
      rw [stream.accepted_of_kind hkind] at hsession
      rw [hsession]
      exact ⟨rfl, hround.awaits.1⟩
    · intro hkind
      rw [stream.accepted_of_kind hkind] at hsession htasks
      simp only [Session.handle, Session.handleIncomingUni] at hsession htasks
      split_ifs with hgranted
      · rw [if_pos hgranted] at hsession htasks
        cases config with
        | ok => exact ⟨htasks, hsession ▸ hround.awaits.1⟩
        | error e =>
          rw [hsession]
          rfl
      · rw [if_neg hgranted] at hsession
        exact hsession
  | task i te =>
    cases te with
    | prologue =>
      obtain ⟨hreading, hkind⟩ := List.mem_filter.1 hstream
      rw [Option.mem_toList] at hreading
      obtain ⟨prologue, hprologue, hkind⟩ :=
        ClientStream.kind_eq_some.1 (of_decide_eq_true hkind)
      obtain ⟨task, task', ctx, hi, hstep, rfl⟩ := task_step h
      rw [hi, Option.bind_some] at hreading
      cases task with
      | fileTransfer request fileHandle phase =>
        cases phase with
        | readingPrologue accepted =>
          cases hreading
          refine ⟨prologue, request, fileHandle, hprologue, ?_⟩
          rw [← Task.step_prologue_of_file hprologue hkind hstep]
          exact List.getElem?_set_self (List.getElem?_eq_some_iff.1 hi).1
        | _ => cases hreading
      | _ => cases hreading
    | _ => cases hstream
  | _ => cases hstream

/-! ## Runs -/

/-- Nobody holds a stream that is for the other side. -/
structure Sorted (s : ActiveSession) : Prop where
  loop {stream : ClientStream} : s.accepting = some stream → ¬ s.ForTransfer stream
  transfer {task : Task} {stream : ClientStream} :
    task ∈ s.tasks → task.reading = some stream → ¬ stream.ForLoop

theorem sorted_start (ctx : TaskContext) (g : PermissionSet) (synthetic : Bool)
    (videoChannel : VideoChannel) (opened : List ℕ) :
    (start ctx g synthetic videoChannel opened).Sorted :=
  ⟨nofun, nofun⟩

/-- The step takes no stream from the queue that is for the other side, and the loop is not
    disturbed. -/
structure Dispatches (s : ActiveSession) (e : ActiveEvent) (s' : ActiveSession) : Prop where
  loop {stream : ClientStream} :
    e = .acceptUni → s.incoming.head? = some stream → ¬ s.ForTransfer stream
  transfer {i : ℕ} {stream : ClientStream} : s.session.result = none →
    e = .task i .accept → s.incoming.head? = some stream → ¬ stream.ForLoop
  undisturbed : s.Undisturbed e s'

theorem Sole.dispatches (hsole : s.Sole) (h : (machine sha256).step s e = some s')
    (hundisturbed : s.Undisturbed e s') : s.Dispatches e s' := by
  refine ⟨fun he hhead => ?_, fun hresult he hhead => ?_, hundisturbed⟩
  · subst he
    obtain ⟨incoming, hincoming⟩ := List.head?_eq_some_iff.1 hhead
    obtain ⟨hselecting, -, hnone⟩ := acceptUni_step h hincoming
    exact hsole.loop hselecting hnone hhead
  · subst he
    obtain ⟨task, task', ctx, hi, hstep, -⟩ := task_step h
    rcases Task.reading_step hstep with ⟨request, fileHandle, _, -, rfl, -⟩ | ⟨_, he, -⟩ |
      ⟨hreading, hreading', -⟩
    · exact hsole.transfer hresult (List.mem_of_getElem? hi) hhead
    · cases he
    · -- whoever accepts a stream reads its prologue next
      cases task with
      | fileTransfer request fileHandle phase =>
        cases phase with
        | accepting => exact hsole.transfer hresult (List.mem_of_getElem? hi) hhead
        | _ => cases hstep
      | clipboardAnnounce phase => cases phase <;> cases hstep
      | clipboardRequest request phase => cases phase <;> cases hstep
      | audioCapture reading => cases reading <;> cases hstep

/-- Such steps keep everyone from holding a stream for the other side. -/
theorem Sorted.step (hs : s.Sorted) (h : (machine sha256).step s e = some s')
    (hresult : s.session.result = none) (hdispatches : s.Dispatches e s') : s'.Sorted := by
  cases hle : s.loopEvent e with
  | some le =>
    -- a round leaves the loop without a stream, and the task it spawns has none yet
    have hround := loop_step hle h
    refine ⟨fun hstream => ?_, fun hmem hreading => ?_⟩
    · rw [hround.accepting] at hstream
      cases hstream
    · rw [hround.tasks] at hmem
      rcases List.mem_append.1 hmem with hmem | hmem
      · exact hs.transfer hmem hreading
      · obtain ⟨spawned, -, rfl⟩ := Option.map_eq_some_iff.1 (Option.mem_toList.1 hmem)
        rw [spawned.reading_start] at hreading
        cases hreading
  | none =>
    have hother := other_step hle h
    refine ⟨fun hstream => ?_, fun hmem hreading => ?_⟩
    · rw [forTransfer_of_session hother.session]
      rcases hother.accepting with ⟨-, haccepting⟩ | ⟨he, -, -, stream, incoming, hincoming, h'⟩
      · exact hs.loop (haccepting ▸ hstream)
      · rw [h'] at hstream
        cases hstream
        exact hdispatches.loop he (by rw [hincoming]; rfl)
    · rcases hother.tasks with ⟨htasks, -⟩ | ⟨i, te, task, task', ctx, rfl, hi, hstep, rfl⟩
      · exact hs.transfer (htasks ▸ hmem) hreading
      · rcases List.mem_or_eq_of_mem_set hmem with hmem | rfl
        · exact hs.transfer hmem hreading
        · rcases Task.reading_step hstep with ⟨_, _, accepted, rfl, -, rfl, hincoming⟩ |
            ⟨_, -, -, hreading', -⟩ | ⟨-, hreading', -⟩
          · cases hreading
            exact hdispatches.transfer hresult rfl (by rw [hincoming]; rfl)
          all_goals
            rw [hreading'] at hreading
            cases hreading

/-- Where nobody holds a stream for the other side, a step that does not disturb the loop loses
    no stream that is for someone. -/
theorem Sorted.count_step (hs : s.Sorted) (h : (machine sha256).step s e = some s')
    (hundisturbed : s.Undisturbed e s') (hresult : s'.session.result = none)
    {stream : ClientStream} (hfor : s.ForSomeone stream) :
    (s.handed e ++ s'.pending).count stream = (s.pending ++ s.opens e).count stream := by
  cases hle : s.loopEvent e with
  | some le =>
    have hcount := count_loop hle h stream
    have hhanded : (s.handed e).count stream = s.accepting.toList.count stream := by
      by_cases haccepting : s.accepting = some stream
      · -- what the loop holds is for the loop, and it is its round that comes
        have hloop : stream.ForLoop := hfor.resolve_right (hs.loop haccepting)
        obtain ⟨config, rfl⟩ := hundisturbed stream haccepting hloop (by rw [hle]; rfl) hresult
        rw [handed, List.count_filter (p := fun stream : ClientStream => stream.ForLoop)
          (decide_eq_true hloop)]
      · have hnone : s.accepting.toList.count stream = 0 :=
          List.count_eq_zero.2 fun hmem => haccepting (Option.mem_toList.1 hmem)
        rw [hnone, List.count_eq_zero]
        intro hmem
        cases e with
        | dispatch config => exact haccepting (Option.mem_toList.1 (List.mem_filter.1 hmem).1)
        | task => cases hle
        | _ => cases hmem
    omega
  | none =>
    by_cases htask : ∃ i te, e = .task i te
    · obtain ⟨i, te, rfl⟩ := htask
      have hopens : s.opens (.task i te) = [] := rfl
      rw [hopens, List.append_nil]
      refine (count_task h stream).2.2 fun _ hreading => ?_
      obtain ⟨task, hi, hreading⟩ := Option.bind_eq_some_iff.1 hreading
      have hloop : ¬ stream.ForLoop := hs.transfer (List.mem_of_getElem? hi) hreading
      exact (hfor.resolve_left hloop).kind
    · exact count_other hle (fun i te he => htask ⟨i, te, he⟩) h stream

/-- Runs of such steps lose no stream that is for someone. -/
theorem Sorted.count_run {es : List ActiveEvent} (hs : s.Sorted)
    (hall : (machine sha256).Always Dispatches s es) (hrun : (machine sha256).run s es = some s')
    (hresult : s'.session.result = none) {stream : ClientStream} (hfor : s.ForSomeone stream) :
    ((machine sha256).outputs handed s es ++ s'.pending).count stream =
      (s.pending ++ (machine sha256).outputs opens s es).count stream := by
  induction es generalizing s with
  | nil =>
    cases hrun
    simp
  | cons e es ih =>
    obtain ⟨s₁, hstep, hrun⟩ := Machine.run_cons_eq_some.1 hrun
    obtain ⟨hdispatches, hall⟩ := hall s₁ hstep
    have hgoing : s₁.session.result = none := by
      refine by_contra fun hended => ?_
      exact (Machine.run_invariant (I := fun s : ActiveSession => s.session.result ≠ none)
        (fun _ _ _ hs h hresult => hs (result_of_step h hresult)) hended hrun) hresult
    have hfirst := hs.count_step hstep hdispatches.undisturbed hgoing hfor
    have hrest := ih (hs.step hstep (result_of_step hstep hgoing) hdispatches) hall hrun
      (hfor.step hstep)
    rw [Machine.outputs_cons hstep, Machine.outputs_cons hstep]
    simp only [List.count_append] at hfirst hrest ⊢
    omega

/-- The loop, taking a stream that is for a transfer, stops it. -/
theorem lost_by_loop (sha256 : List UInt8 → List UInt8) {stream : ClientStream}
    (hselecting : s.Selecting) (hnone : s.accepting = none) (hhead : s.incoming.head? = some stream)
    (hstream : s.ForTransfer stream) :
    ∃ s', (machine sha256).run s [.acceptUni, .dispatch (.ok ())] = some s' ∧
      s'.session.result = none ∧
      ((machine sha256).outputs handed s [.acceptUni, .dispatch (.ok ())] ++ s'.pending).count
          stream + 1 =
        (s.pending ++
          (machine sha256).outputs opens s [.acceptUni, .dispatch (.ok ())]).count stream := by
  obtain ⟨incoming, hincoming⟩ := List.head?_eq_some_iff.1 hhead
  have haccept : (machine sha256).step s .acceptUni =
      some { s with incoming, accepting := some stream } := by
    simp only [machine, step, hincoming, if_pos (And.intro hselecting hnone)]
  generalize hs₁ : { s with incoming, accepting := some stream } = s₁ at haccept
  have haccepting : s₁.accepting = some stream := hs₁ ▸ rfl
  have hsession : s₁.session = s.session := hs₁ ▸ rfl
  have hle : s₁.loopEvent (.dispatch (.ok ())) = some (.incomingUni (.ok .file) (.ok ())) := by
    rw [loopEvent, haccepting, Option.map_some, stream.accepted_of_kind hstream.kind]
  obtain ⟨s', hdispatch⟩ : ∃ s', (machine sha256).step s₁ (.dispatch (.ok ())) = some s' := by
    simp only [machine, step, haccepting]
    exact ⟨_, loopRound_eq_some.2 ⟨⟨hsession ▸ hselecting.1, hsession ▸ hselecting.2⟩, rfl⟩⟩
  have hround := loop_step hle hdispatch
  refine ⟨s', Machine.run_cons_eq_some.2 ⟨s₁, haccept, Machine.run_cons_eq_some.2
    ⟨s', hdispatch, rfl⟩⟩, ?_, ?_⟩
  · rw [hround.session]
    exact hround.awaits.1
  · have hfirst := count_other rfl (by simp) haccept stream
    have hsecond := count_loop hle hdispatch stream
    -- the handler of the streams of files is not the loop
    have hhanded : s₁.handed (.dispatch (.ok ())) = [] := by
      have hloop : ¬ stream.ForLoop := fun hloop => hloop.kind_ne_file hstream.kind
      simp [handed, haccepting, hloop]
    rw [hhanded, haccepting] at hsecond
    rw [Machine.outputs_cons haccept, Machine.outputs_cons hdispatch, Machine.outputs_cons haccept,
      Machine.outputs_cons hdispatch, hhanded]
    simp only [List.count_append, Option.toList_some, List.count_singleton_self, List.count_nil,
      Machine.outputs_nil] at hfirst hsecond ⊢
    omega

/-- A transfer, taking a stream that is for the loop, drops it. -/
theorem lost_by_transfer (sha256 : List UInt8 → List UInt8) {i : ℕ} {request : FileTransferRequest}
    {fileHandle : ℕ} {stream : ClientStream} (hresult : s.session.result = none)
    (hi : s.tasks[i]? = some (.fileTransfer request fileHandle .accepting))
    (hhead : s.incoming.head? = some stream) (hstream : stream.ForLoop) :
    ∃ s', (machine sha256).run s [.task i .accept, .task i .prologue] = some s' ∧
      s'.session.result = none ∧
      ((machine sha256).outputs handed s [.task i .accept, .task i .prologue] ++ s'.pending).count
          stream <
        (s.pending ++
          (machine sha256).outputs opens s [.task i .accept, .task i .prologue]).count stream := by
  obtain ⟨incoming, hincoming⟩ := List.head?_eq_some_iff.1 hhead
  have hstep : (Task.fileTransfer request fileHandle .accepting).step sha256 s.toTaskContext
      .accept = some (.fileTransfer request fileHandle (.readingPrologue stream),
        { s.toTaskContext with incoming }, none) := by
    simp only [Task.step, runFileTransfer, hincoming]
    rfl
  have haccept := (step_task hi hstep).1
  generalize hs₁ : { s with
    incoming, tasks := s.tasks.set i (.fileTransfer request fileHandle (.readingPrologue stream)) }
      = s₁ at haccept
  have hi₁ : s₁.tasks[i]? = some (.fileTransfer request fileHandle (.readingPrologue stream)) := by
    rw [← hs₁]
    exact List.getElem?_set_self (List.getElem?_eq_some_iff.1 hi).1
  obtain ⟨task', ctx, a, hstep₁⟩ : ∃ task' ctx a, (Task.fileTransfer request fileHandle
      (.readingPrologue stream)).step sha256 s₁.toTaskContext .prologue = some (task', ctx, a) := by
    simp only [Task.step, runFileTransfer]
    split <;> exact ⟨_, _, _, rfl⟩
  have hprologue := (step_task hi₁ hstep₁).1
  refine ⟨_, Machine.run_cons_eq_some.2 ⟨s₁, haccept, Machine.run_cons_eq_some.2
    ⟨_, hprologue, rfl⟩⟩, ?_, ?_⟩
  · rw [← hs₁]
    exact hresult
  · have hfirst := count_task haccept stream
    have hsecond := count_task hprologue stream
    have hlost : ¬ (TaskEvent.prologue = .prologue → s₁.tasks[i]?.bind Task.reading = some stream →
        stream.kind = some .file) := by
      intro hkept
      exact hstream.kind_ne_file (hkept rfl (by rw [hi₁]; rfl))
    have hlt := lt_of_le_of_ne hsecond.1 fun heq => hlost (hsecond.2.1 heq)
    rw [Machine.outputs_cons haccept, Machine.outputs_cons hprologue, Machine.outputs_cons haccept,
      Machine.outputs_cons hprologue]
    have hle := hfirst.1
    simp only [List.count_append, opens, List.count_nil, Machine.outputs_nil] at hle hlt ⊢
    omega

/-- Where somebody who waits for a stream would get one for the other side, taking it loses it. -/
theorem sole_of_delivers {es : List ActiveEvent} {s₁ : ActiveSession}
    (hrun : (machine sha256).run s es = some s₁)
    (h : ∀ es₂, Taking es₂ → Delivers sha256 s (es ++ es₂)) : s₁.Sole := by
  refine ⟨fun hselecting hnone hhead htransfer => ?_, fun hresult hmem hhead hloop => ?_⟩
  · obtain ⟨s₂, hrun₂, hresult, hcount⟩ :=
      lost_by_loop sha256 hselecting hnone hhead htransfer
    have heq := (h _ .loop).1 es _ s₁ s₂ rfl hrun hrun₂ hresult _ (.inr htransfer)
    omega
  · obtain ⟨i, hi⟩ := List.mem_iff_getElem?.1 hmem
    obtain ⟨s₂, hrun₂, hresult, hcount⟩ := lost_by_transfer sha256 hresult hi hhead hloop
    have heq := (h _ (.transfer i)).1 es _ s₁ s₂ rfl hrun hrun₂ hresult _ (.inl hloop)
    omega

/-- Where another wait of the loop ends, it has dropped the stream. -/
theorem undisturbed_of_delivers (h : Delivers sha256 s [e])
    (hstep : (machine sha256).step s e = some s') : s.Undisturbed e s' := by
  intro stream haccepting hloop hle hresult
  obtain ⟨le, hle⟩ := Option.isSome_iff_exists.1 hle
  have hrun : (machine sha256).run s [e] = some s' :=
    Machine.run_cons_eq_some.2 ⟨s', hstep, rfl⟩
  have heq := h.1 [] [e] s s' rfl rfl hrun hresult stream (.inl hloop)
  have hcount := count_loop hle hstep stream
  rw [Machine.outputs_cons hstep, Machine.outputs_cons hstep, Machine.outputs_nil,
    Machine.outputs_nil, List.append_nil, List.append_nil] at heq
  rw [heq, haccepting, Option.toList_some, List.count_singleton_self] at hcount
  have hmem : stream ∈ s.handed e := List.count_pos_iff.1 (by omega)
  cases e with
  | dispatch config => exact ⟨config, rfl⟩
  | task => cases hle
  | _ => cases hmem

/-- Runs of steps that dispatch their streams deliver them. -/
theorem Sorted.delivers {es : List ActiveEvent} (hs : s.session.result = none → s.Sorted)
    (hall : (machine sha256).Always Dispatches s es) : Delivers sha256 s es := by
  refine ⟨fun es₁ es₂ s₁ s₂ hes hrun₁ hrun₂ hresult stream hfor => ?_,
    Machine.always_of_step (I := fun _ => True) (fun _ _ _ _ _ => trivial)
      (fun _ _ _ _ => handles_of_handed) trivial⟩
  subst hes
  obtain ⟨hall₁, hall₂⟩ := Machine.always_append.1 hall
  have hsorted := hall₁.run_invariant
    (I := fun s : ActiveSession => s.session.result = none → s.Sorted)
    (fun _ _ _ hs h hd hresult => (hs (result_of_step h hresult)).step h
      (result_of_step h hresult) hd) hs hrun₁
  have hgoing : s₁.session.result = none := by
    refine by_contra fun hended => ?_
    exact (Machine.run_invariant (I := fun s : ActiveSession => s.session.result ≠ none)
      (fun _ _ _ hs h hresult => hs (result_of_step h hresult)) hended hrun₂) hresult
  exact (hsorted hgoing).count_run (hall₂ s₁ hrun₁) hrun₂ hresult hfor

/-- From a situation in which nobody would get a stream for the other side, whoever takes the next
    one dispatches it. -/
theorem Sole.dispatches_taking (hsole : s.Sole) {es : List ActiveEvent} (hes : Taking es) :
    (machine sha256).Always Dispatches s es := by
  cases hes with
  | nobody => trivial
  | loop =>
    intro s₁ haccept
    refine ⟨hsole.dispatches haccept (by simp [Undisturbed, loopEvent]), fun s₂ _ => ?_⟩
    exact ⟨⟨nofun, nofun, fun _ _ _ _ _ => ⟨_, rfl⟩⟩, trivial⟩
  | transfer i =>
    intro s₁ haccept
    refine ⟨hsole.dispatches haccept (by simp [Undisturbed, loopEvent]), fun s₂ _ => ?_⟩
    exact ⟨⟨nofun, nofun, by simp [Undisturbed, loopEvent]⟩, trivial⟩

/-- However the next stream is taken in any situation of a run, every stream is delivered, exactly
    if in every situation nobody who waits would get a stream that is for the other side, and the
    loop is left alone while it reads the prologue of one that is for it. -/
theorem streams_reach_handlers_iff (sha256 : List UInt8 → List UInt8) (ctx : TaskContext)
    (grantedPermissions : PermissionSet) (synthetic : Bool) (videoChannel : VideoChannel)
    (opened : List ℕ) (es : List ActiveEvent) :
    let s := start ctx grantedPermissions synthetic videoChannel opened
    (∀ es₁ es₂, es₁ <+: es → Taking es₂ → Delivers sha256 s (es₁ ++ es₂)) ↔
      (∀ es₁ s₁, es₁ <+: es → (machine sha256).run s es₁ = some s₁ → s₁.Sole) ∧
        (machine sha256).Always Undisturbed s es := by
  intro s
  constructor
  · intro h
    refine ⟨fun es₁ s₁ hes hrun => sole_of_delivers hrun fun es₂ => h es₁ es₂ hes,
      Machine.always_of_prefix fun es₁ e es' s₁ s₂ hes hrun hstep => ?_⟩
    have hprefix : es₁ ++ [e] <+: es := ⟨es', by simp [hes]⟩
    have hdelivers := h (es₁ ++ [e]) [] hprefix .nobody
    rw [List.append_nil] at hdelivers
    -- what the whole run delivers, its last step does
    refine undisturbed_of_delivers ⟨fun es₂ es₃ s₂' s₃ heq hrun₂ hrun₃ => ?_, ?_⟩ hstep
    · rw [heq] at hdelivers
      refine hdelivers.1 (es₁ ++ es₂) es₃ s₂' s₃ (List.append_assoc _ _ _).symm ?_ hrun₃
      exact Machine.run_append_eq_some.2 ⟨s₁, hrun, hrun₂⟩
    · exact (Machine.always_append.1 hdelivers.2).2 s₁ hrun
  · rintro ⟨hsole, hundisturbed⟩ es₁ es₂ ⟨es', rfl⟩ hes₂
    have hsorted : s.Sorted := sorted_start ctx grantedPermissions synthetic videoChannel opened
    refine Sorted.delivers (fun _ => hsorted) (Machine.always_append.2
      ⟨Machine.always_of_prefix fun es₃ e es₄ s₁ s₂ hes hrun hstep => ?_,
        fun s₁ hrun => (hsole es₁ s₁ (List.prefix_append _ _) hrun).dispatches_taking hes₂⟩)
    subst hes
    have hprefix : es₃ <+: es₃ ++ e :: es₄ ++ es' := ⟨e :: es₄ ++ es', by simp⟩
    exact (hsole es₃ s₁ hprefix hrun).dispatches hstep
      ((Machine.always_append.1 hundisturbed).1.of_append hrun hstep)

/-- With an upload under way, the loop may take and stop the stream of its file, and the transfer
    may take and drop the input stream: then nothing is left of the stream. -/
theorem stream_lost_to_other_side :
    let s := start ⟨Vector.replicate 16 0, "user", 0, .new, []⟩ (FRESH_GRANT ||| Bit.FILE_UP) true
      (.streaming 0) [0]
    let request := ActiveEvent.request ⟨1, .upload, "file", 3⟩ 1 (.ok ())
    let file : ClientStream := ⟨.ok ⟨.file, 1, 1⟩⟩
    let input : ClientStream := ⟨.ok ⟨.input, 1, 0⟩⟩
    (∃ s₁ s₂, (machine id).run s [request, .openUni file] = some s₁ ∧
      s₁.ForTransfer file ∧ s₁.pending = [file] ∧
      (machine id).run s₁ [.acceptUni, .dispatch (.ok ())] = some s₂ ∧
      s₂.session.result = none ∧
      (machine id).outputs handed s₁ [.acceptUni, .dispatch (.ok ())] ++ s₂.pending = []) ∧
    ∃ s₁ s₂, (machine id).run s [request, .openUni input] = some s₁ ∧
      input.ForLoop ∧ s₁.pending = [input] ∧
      (machine id).run s₁ [.task 0 .accept, .task 0 .prologue] = some s₂ ∧
      s₂.session.result = none ∧
      (machine id).outputs handed s₁ [.task 0 .accept, .task 0 .prologue] ++ s₂.pending = [] := by
  intro s request file input
  refine ⟨⟨_, _, rfl, ⟨_, rfl, rfl, _, List.mem_singleton_self _, rfl⟩, rfl, rfl, rfl, rfl⟩,
    ⟨_, _, rfl, .inl rfl, rfl, rfl, rfl, rfl⟩⟩

end ActiveSession

end Sardp
