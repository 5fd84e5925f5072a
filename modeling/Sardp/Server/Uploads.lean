import Sardp.Server.ActiveSession
import Sardp.Session.Handshake

/-!
# The size of an upload

Every handle is issued with the size of its file, and the client opens the stream of a file
with the handle. But the task that receives it is any one that waits for a stream, and it goes
by the size of the request it was spawned for (`runFileTransfer`).

`ActiveSession.SizesAgree` says that this makes no difference: whichever stream a waiting task
may still get, the size recorded for its handle is the one the task goes by. Until another
transfer is requested this stays so (`ActiveSession.SizesAgree.step`), and where it is not so
the client can open its streams such that a task goes by a wrong size. So the recorded sizes
are enforced whatever the order of the streams exactly if the sizes agree
(`ActiveSession.uploads_bind_size_iff`).
-/

namespace Sardp

/-- What the handle is bound to, if the session may use it now. -/
def TaskContext.validate (ctx : TaskContext) (fileHandle : ℕ) (direction : FileTransferDirection) :
    Except FileHandleError FileHandleRecord :=
  ctx.handles.validate ctx.nowUs fileHandle ctx.sessionId ctx.userId direction

/-- From one context to the other, the session gets no handles. -/
structure TaskContext.Shrinks (ctx ctx' : TaskContext) : Prop where
  sessionId : ctx'.sessionId = ctx.sessionId
  userId : ctx'.userId = ctx.userId
  nowUs : ctx.nowUs ≤ ctx'.nowUs
  get {fileHandle : ℕ} {record : FileHandleRecord} :
    ctx'.handles.get fileHandle = some record → record.sessionId = ctx.sessionId →
      ctx.handles.get fileHandle = some record

variable {sha256 : List UInt8 → List UInt8} {ctx ctx' : TaskContext} {fileHandle : ℕ}
  {direction : FileTransferDirection} {record : FileHandleRecord}

theorem TaskContext.Shrinks.refl (ctx : TaskContext) : Shrinks ctx ctx :=
  ⟨rfl, rfl, le_rfl, fun hget _ => hget⟩

/-- A handle the session may use afterwards, it may use before. -/
theorem TaskContext.Shrinks.validate (h : Shrinks ctx ctx')
    (hvalidate : ctx'.validate fileHandle direction = .ok record) :
    ctx.validate fileHandle direction = .ok record := by
  obtain ⟨hget, hsession, huser, hdirection, hexpiry⟩ := FileHandleStore.validate_eq_ok.1 hvalidate
  rw [h.sessionId] at hsession
  exact FileHandleStore.validate_eq_ok.2
    ⟨h.get hget hsession, hsession, huser.trans h.userId, hdirection, h.nowUs.trans hexpiry⟩

/-- A step of a task accepts a stream, or removes a handle. -/
theorem Task.shrinks_of_step {task task' : Task} {e : TaskEvent} {a : Option TaskAction}
    (h : task.step sha256 ctx e = some (task', ctx', a)) : ctx.Shrinks ctx' := by
  rcases step_cases h with ⟨request, fileHandle, phase, phase', -, -, -, h⟩ | ⟨rfl, -⟩
  · rcases runFileTransfer_cases h with
      ⟨stream, incoming, -, -, -, -, rfl⟩ | ⟨stream, verifiedHandle, -, -, -, -, rfl⟩ |
        ⟨result, -, rfl | ⟨removed, rfl⟩⟩
    · exact ⟨rfl, rfl, le_rfl, fun hget _ => hget⟩
    · exact .refl _
    · exact .refl _
    · exact ⟨rfl, rfl, le_rfl, fun hget _ => FileHandleStore.get_of_remove hget⟩
  · exact .refl _

/-- Whichever stream the task may still receive, the size recorded for its handle is the one
    the task goes by. -/
def Task.SizeAgrees (ctx : TaskContext) : Task → Prop
  | .fileTransfer request _ .accepting => ∀ fileHandle record,
    ctx.validate fileHandle request.direction = .ok record →
      record.resolvedSize = request.declaredSize
  | .fileTransfer request _ (.readingPrologue stream) => ∀ prologue record,
    stream.prologue = .ok prologue → prologue.kind = .file →
      ctx.validate prologue.contextId request.direction = .ok record →
        record.resolvedSize = request.declaredSize
  | _ => True

theorem Task.SizeAgrees.of_shrinks {task : Task} (h : task.SizeAgrees ctx)
    (hctx : ctx.Shrinks ctx') : task.SizeAgrees ctx' := by
  simp only [SizeAgrees] at h ⊢
  split
  · exact fun fileHandle record hvalidate => h fileHandle record (hctx.validate hvalidate)
  · exact fun prologue record hp hkind hvalidate =>
      h prologue record hp hkind (hctx.validate hvalidate)
  · trivial

theorem Task.sizeAgrees_of_ne {task : Task}
    (h : ∀ request fileHandle phase, task ≠ .fileTransfer request fileHandle phase) :
    task.SizeAgrees ctx := by
  cases task with
  | fileTransfer request fileHandle phase => exact absurd rfl (h request fileHandle phase)
  | _ => trivial

/-- A task that could have received any stream accepts one of them. -/
theorem Task.SizeAgrees.step {task task' : Task} {e : TaskEvent} {a : Option TaskAction}
    (h : task.SizeAgrees ctx) (hstep : task.step sha256 ctx e = some (task', ctx', a)) :
    task'.SizeAgrees ctx' := by
  refine SizeAgrees.of_shrinks ?_ (shrinks_of_step hstep)
  rcases step_cases hstep with ⟨request, fileHandle, phase, phase', rfl, rfl, -, hstep⟩ | ⟨-, hne⟩
  · rcases runFileTransfer_cases hstep with
      ⟨stream, incoming, rfl, -, -, rfl, -⟩ | ⟨stream, verifiedHandle, -, -, -, rfl, -⟩ |
        ⟨result, rfl, -⟩
    · exact fun prologue record _ _ hvalidate => h prologue.contextId record hvalidate
    · trivial
    · trivial
  · exact sizeAgrees_of_ne hne

/-- The event is a request for a file transfer. -/
def ActiveEvent.isRequest : ActiveEvent → Bool
  | .request _ _ _ => true
  | _ => false

/-- Only a request for a file transfer spawns one. -/
theorem Session.request_of_fileTransfer {s : Session} {le : LoopEvent}
    {request : FileTransferRequest} (h : (s.handle le).2 = some (.fileTransfer request fileHandle)) :
    ∃ issued written, le = .control (.ok (.fileTransferRequest (some request) issued)) written := by
  cases le with
  | control message written =>
    simp only [handle, handleControl] at h
    split at h
    case h_6 request' issued =>
      simp only [handleFileTransferRequest] at h
      split at h
      · cases h
      · split at h
        · cases h
        · dsimp only at h
          split_ifs at h
          cases h
          exact ⟨_, written, rfl⟩
    all_goals cases h
  | command command written =>
    simp only [handle, handleCommand] at h
    split at h
    · cases h
    · split at h <;> cases h
  | incomingUni accepted config =>
    simp only [handle, handleIncomingUni] at h
    split at h
    case h_2 =>
      split_ifs at h
      split at h <;> cases h
    all_goals cases h
  | clipboardFormats accepted =>
    simp only [handle, handleClipboardFormats] at h
    split at h
    · cases h
    · split_ifs at h
      obtain ⟨format, -, h⟩ := Option.map_eq_some_iff.1 h
      cases h
  | _ => cases h

namespace ActiveSession

variable {s s' : ActiveSession} {e : ActiveEvent}

/-- If a task starts to receive a file in the step, it goes by the size recorded for the
    handle of the stream. -/
def BindsSize (s : ActiveSession) (e : ActiveEvent) (s' : ActiveSession) : Prop :=
  ∀ i request fileHandle stream prologue record, e = .task i .prologue →
    s.tasks[i]? = some (.fileTransfer request fileHandle (.readingPrologue stream)) →
    stream.prologue = .ok prologue → prologue.kind = .file →
    s.validate prologue.contextId request.direction = .ok record →
    s'.tasks[i]? = some (.fileTransfer request fileHandle
      (.receiving prologue.contextId record.resolvedSize))

/-- The size recorded for every handle that a task may still receive the file of is the one
    the task goes by. -/
def SizesAgree (s : ActiveSession) : Prop := ∀ task ∈ s.tasks, task.SizeAgrees s.toTaskContext

theorem shrinks_of_step (he : e.isRequest = false) (h : (machine sha256).step s e = some s') :
    s.toTaskContext.Shrinks s'.toTaskContext := by
  cases e with
  | request => cases he
  | round e =>
    simp only [machine, step] at h
    split_ifs at h
    obtain ⟨-, rfl⟩ := loopRound_eq_some.1 h
    exact .refl _
  | dispatch config =>
    simp only [machine, step] at h
    split at h
    · cases h
    · obtain ⟨-, rfl⟩ := loopRound_eq_some.1 h
      exact .refl _
  | task i te =>
    obtain ⟨task, task', ctx, -, hstep, rfl⟩ := task_step h
    exact Task.shrinks_of_step hstep
  | acceptUni =>
    simp only [machine, step] at h
    split at h
    · cases h
    · split_ifs at h
      cases h
      exact ⟨rfl, rfl, le_rfl, fun hget _ => hget⟩
  | openUni | openBi =>
    cases h
    exact ⟨rfl, rfl, le_rfl, fun hget _ => hget⟩
  | acceptBi =>
    simp only [machine, step] at h
    split at h
    · cases h
    · split_ifs at h
      cases h
      exact .refl _
  | prologueBi =>
    simp only [machine, step] at h
    split at h
    · split_ifs at h
      cases h
      exact .refl _
    · cases h
  | dispatchBi =>
    simp only [machine, step] at h
    split at h
    · cases h
    · split_ifs at h
      obtain ⟨-, rfl⟩ := loopRound_eq_some.1 h
      exact .refl _
  | clock elapsedUs =>
    cases h
    exact ⟨rfl, rfl, Nat.le_add_right .., fun hget _ => hget⟩
  | sweep =>
    cases h
    exact ⟨rfl, rfl, le_rfl, fun hget _ => FileHandleStore.get_of_sweepExpired hget⟩
  | issueOther sessionId userId direction resolvedSize candidate =>
    simp only [machine, step] at h
    split_ifs at h with hother
    cases h
    exact ⟨rfl, rfl, le_rfl, fun hget hsession =>
      FileHandleStore.get_of_tryIssue hget (hsession.symm ▸ hother.1)⟩
  | removeOther fileHandle =>
    simp only [machine, step] at h
    split_ifs at h
    cases h
    exact ⟨rfl, rfl, le_rfl, fun hget _ => FileHandleStore.get_of_remove hget⟩

theorem isRequest_of_loopEvent {request : FileTransferRequest} {issued : Option (ℕ × ℕ)}
    {written : Written}
    (hle : s.loopEvent e = some (.control (.ok (.fileTransferRequest (some request) issued)) written))
    (h : (machine sha256).step s e = some s') : e.isRequest = true := by
  cases e with
  | round e =>
    cases hle
    cases h
  | request => rfl
  | dispatch | dispatchBi =>
    obtain ⟨stream, -, hle⟩ := Option.map_eq_some_iff.1 hle
    cases hle
  | _ => cases hle

/-- The sizes agree until a transfer is requested. -/
theorem SizesAgree.step (hs : s.SizesAgree) (he : e.isRequest = false)
    (h : (machine sha256).step s e = some s') : s'.SizesAgree := by
  have hctx := shrinks_of_step he h
  intro task hmem
  cases hle : s.loopEvent e with
  | none =>
    rcases (other_step hle h).tasks with ⟨htasks, -⟩ | ⟨i, te, t, t', ctx, rfl, hi, hstep, rfl⟩
    · exact (hs task (htasks ▸ hmem)).of_shrinks hctx
    · rcases List.mem_or_eq_of_mem_set hmem with hmem | rfl
      · exact (hs task hmem).of_shrinks hctx
      · exact (hs t (List.mem_of_getElem? hi)).step hstep
  | some le =>
    rw [(loop_step hle h).tasks] at hmem
    rcases List.mem_append.1 hmem with hmem | hmem
    · exact (hs task hmem).of_shrinks hctx
    · obtain ⟨spawned, hspawned, rfl⟩ := Option.map_eq_some_iff.1 (Option.mem_toList.1 hmem)
      cases spawned with
      | fileTransfer request fileHandle =>
        -- a new transfer comes from a request only
        obtain ⟨issued, written, rfl⟩ := Session.request_of_fileTransfer hspawned
        rw [isRequest_of_loopEvent hle h] at he
        cases he
      | _ => trivial

section

variable {i : ℕ} {request : FileTransferRequest} {stream : ClientStream}
  {prologue : StreamPrologue}

/-- A task receives the file of the handle of the stream, of the size of its own request. -/
theorem step_prologue (sha256 : List UInt8 → List UInt8)
    (hi : s.tasks[i]? = some (.fileTransfer request fileHandle (.readingPrologue stream)))
    (hprologue : stream.prologue = .ok prologue) (hkind : prologue.kind = .file)
    (hvalidate : s.validate prologue.contextId request.direction = .ok record) :
    ∃ s', (machine sha256).step s (.task i .prologue) = some s' ∧
      s'.tasks[i]? = some (.fileTransfer request fileHandle
        (.receiving prologue.contextId request.declaredSize)) := by
  have hverified : s.acceptFileStreamVerified request.direction stream = .ok prologue.contextId := by
    rw [TaskContext.validate] at hvalidate
    simp [TaskContext.acceptFileStreamVerified, hprologue, hkind, hvalidate]
  have hstep : (Task.fileTransfer request fileHandle (.readingPrologue stream)).step sha256
      s.toTaskContext .prologue = some (.fileTransfer request fileHandle
        (.receiving prologue.contextId request.declaredSize), s.toTaskContext, none) := by
    simp [Task.step, runFileTransfer, hverified, FileTransferPhase.report]
  exact ⟨_, (step_task hi hstep).1, List.getElem?_set_self (List.getElem?_eq_some_iff.1 hi).1⟩

/-- The task goes by the recorded size exactly if it is the size of its own request. -/
theorem bindsSize_prologue_iff (h : (machine sha256).step s (.task i .prologue) = some s')
    (hi : s.tasks[i]? = some (.fileTransfer request fileHandle (.readingPrologue stream)))
    (hprologue : stream.prologue = .ok prologue) (hkind : prologue.kind = .file)
    (hvalidate : s.validate prologue.contextId request.direction = .ok record) :
    s'.tasks[i]? = some (.fileTransfer request fileHandle
      (.receiving prologue.contextId record.resolvedSize)) ↔
        record.resolvedSize = request.declaredSize := by
  obtain ⟨s₁, hs₁, hi'⟩ := step_prologue sha256 hi hprologue hkind hvalidate
  rw [hs₁] at h
  obtain rfl := Option.some.inj h
  rw [hi']
  simp [eq_comm]

end

/-- Where the sizes agree, a task that starts to receive a file goes by the recorded size. -/
theorem SizesAgree.bindsSize (hs : s.SizesAgree) (h : (machine sha256).step s e = some s') :
    s.BindsSize e s' := by
  rintro i request fileHandle stream prologue record rfl hi hprologue hkind hvalidate
  refine (bindsSize_prologue_iff h hi hprologue hkind hvalidate).2 ?_
  exact hs _ (List.mem_of_getElem? hi) prologue record hprologue hkind hvalidate

/-! ## Getting the stream to the wrong task -/

/-- The loop is about to wait for what happens next; the tasks and the handles are those of
    another state. -/
structure Settled (s₀ s : ActiveSession) : Prop where
  selecting : s.Selecting
  accepting : s.accepting = none
  context (incoming : List ClientStream) :
    { s.toTaskContext with incoming } = { s₀.toTaskContext with incoming }
  tasks : s.tasks = s₀.tasks

/-- The loop can finish its round. -/
theorem exists_settled (sha256 : List UInt8 → List UInt8) (hrunning : s.session.result = none) :
    ∃ e s', e.isRequest = false ∧ (machine sha256).step s e = some s' ∧
      s'.incoming = s.incoming ∧ Settled s s' := by
  -- the next round that changes nothing but the phase
  cases hphase : s.session.phase with
  | selecting =>
    have hstep : (machine sha256).step s (.round (.keepalive (.ok ()))) = _ :=
      step_round rfl ⟨hrunning, hphase⟩
    exact ⟨_, _, rfl, hstep, rfl, ⟨hrunning, hphase⟩, rfl, fun _ => rfl, List.append_nil _⟩
  | draining =>
    have hstep : (machine sha256).step s (.round (.frame (.ok false) (.ok ()))) = _ :=
      step_round rfl ⟨hrunning, hphase⟩
    have hframe : (s.session.handle (.frame (.ok false) (.ok ()))).1 =
        { s.session with phase := .selecting } := by
      simp [Session.handle, Session.handleFrame]
    refine ⟨_, _, rfl, hstep, rfl, ?_, rfl, fun _ => rfl, List.append_nil _⟩
    rw [Selecting, hframe]
    exact ⟨hrunning, rfl⟩

/-- The loop can accept a stream and drop it again. -/
theorem Settled.exists_dropped {s₀ : ActiveSession} (sha256 : List UInt8 → List UInt8)
    (hs : Settled s₀ s) {stream : ClientStream} {incoming : List ClientStream}
    (hincoming : s.incoming = stream :: incoming) :
    ∃ es s', (∀ e ∈ es, e.isRequest = false) ∧ (machine sha256).run s es = some s' ∧
      s'.incoming = incoming ∧ Settled s₀ s' := by
  let s₁ : ActiveSession := { s with incoming, accepting := some stream }
  have haccept : (machine sha256).step s .acceptUni = some s₁ := by
    simp [machine, step, hincoming, hs.selecting, hs.accepting, s₁]
  obtain ⟨e, s₂, he, hstep, hincoming₂, hs₂⟩ := exists_settled sha256 (s := s₁) hs.selecting.1
  refine ⟨[.acceptUni, e], s₂, ?_, ?_, hincoming₂, ?_⟩
  · exact List.forall_mem_cons.2 ⟨rfl, List.forall_mem_singleton.2 he⟩
  · exact Machine.run_cons_eq_some.2 ⟨s₁, haccept, Machine.run_cons_eq_some.2 ⟨s₂, hstep, rfl⟩⟩
  · exact ⟨hs₂.selecting, hs₂.accepting,
      fun incoming => (hs₂.context incoming).trans (hs.context incoming), hs₂.tasks.trans hs.tasks⟩

/-- The loop can do so until no stream is left. -/
theorem Settled.exists_drained {s₀ : ActiveSession} (sha256 : List UInt8 → List UInt8)
    (hs : Settled s₀ s) : ∃ es s', (∀ e ∈ es, e.isRequest = false) ∧
      (machine sha256).run s es = some s' ∧ s'.incoming = [] ∧ Settled s₀ s' := by
  induction hincoming : s.incoming generalizing s with
  | nil => exact ⟨[], s, List.forall_mem_nil _, rfl, hincoming, hs⟩
  | cons stream incoming ih =>
    obtain ⟨es, s₁, hes, hrun, hincoming₁, hs₁⟩ := hs.exists_dropped sha256 hincoming
    obtain ⟨es', s', hes', hrun', hs'⟩ := ih hs₁ hincoming₁
    refine ⟨es ++ es', s', ?_, Machine.run_append_eq_some.2 ⟨s₁, hrun, hrun'⟩, hs'⟩
    exact List.forall_mem_append.2 ⟨hes, hes'⟩

/-- A waiting task gets the stream the client opens next, if the loop leaves it to it. -/
theorem exists_readingPrologue (sha256 : List UInt8 → List UInt8)
    (hrunning : s.session.result = none) {i : ℕ} {request : FileTransferRequest}
    (hi : s.tasks[i]? = some (.fileTransfer request fileHandle .accepting))
    (stream : ClientStream) :
    ∃ es s', (∀ e ∈ es, e.isRequest = false) ∧ (machine sha256).run s es = some s' ∧
      s'.tasks[i]? = some (.fileTransfer request fileHandle (.readingPrologue stream)) ∧
        s'.toTaskContext = { s.toTaskContext with incoming := [] } := by
  -- the loop drains the queue, so that the stream is the first in it and the task's to accept
  obtain ⟨e, s₁, he, hstep, -, hs₁⟩ := exists_settled sha256 hrunning
  obtain ⟨es, s₂, hes, hrun, hincoming, hs₂⟩ := hs₁.exists_drained sha256
  let s₃ : ActiveSession := { s₂ with incoming := [stream] }
  have hopen : (machine sha256).step s₂ (.openUni stream) = some s₃ := by
    simp [machine, step, hincoming, s₃]
  have hi₃ : s₃.tasks[i]? = some (.fileTransfer request fileHandle .accepting) := by
    rw [← hi, ← hs₂.tasks]
  have haccept : (Task.fileTransfer request fileHandle .accepting).step sha256 s₃.toTaskContext
      .accept = some (.fileTransfer request fileHandle (.readingPrologue stream),
        { s₃.toTaskContext with incoming := [] }, none) := rfl
  let s₄ : ActiveSession :=
    { s₃ with
      incoming := []
      tasks := s₃.tasks.set i (.fileTransfer request fileHandle (.readingPrologue stream)) }
  have hi₄ : s₄.tasks[i]? = some (.fileTransfer request fileHandle (.readingPrologue stream)) :=
    List.getElem?_set_self (List.getElem?_eq_some_iff.1 hi₃).1
  refine ⟨e :: (es ++ [.openUni stream, .task i .accept]), s₄, ?_, ?_, hi₄, hs₂.context []⟩
  · simp only [List.forall_mem_cons, List.forall_mem_append]
    exact ⟨he, hes, rfl, rfl, List.forall_mem_nil _⟩
  · refine Machine.run_cons_eq_some.2 ⟨s₁, hstep, Machine.run_append_eq_some.2 ⟨s₂, hrun, ?_⟩⟩
    refine Machine.run_cons_eq_some.2 ⟨s₃, hopen, Machine.run_cons_eq_some.2 ⟨s₄, ?_, rfl⟩⟩
    exact (step_task hi₃ haccept).1

/-- If the recorded sizes are enforced whatever happens before the next request, they agree
    with those the tasks go by. -/
theorem sizesAgree_of_bindsSize (hrunning : s.session.result = none)
    (h : ∀ es, (∀ e ∈ es, e.isRequest = false) → (machine sha256).Always BindsSize s es) :
    s.SizesAgree := by
  intro task hmem
  obtain ⟨i, hi⟩ := List.mem_iff_getElem?.1 hmem
  simp only [Task.SizeAgrees]
  split
  · next request _ =>
    intro fileHandle record hvalidate
    -- the client opens the stream of that handle, and the task is the one to get it
    obtain ⟨es, s₁, hes, hrun, hi₁, hctx⟩ :=
      exists_readingPrologue sha256 hrunning hi ⟨.ok ⟨.file, 1, fileHandle⟩⟩
    have hvalidate : s₁.validate fileHandle request.direction = .ok record := by
      rw [hctx]
      exact hvalidate
    obtain ⟨s₂, hstep, -⟩ := step_prologue sha256 hi₁ rfl rfl hvalidate
    refine (bindsSize_prologue_iff hstep hi₁ rfl rfl hvalidate).1 ?_
    have halways := h (es ++ [.task i .prologue])
      (List.forall_mem_append.2 ⟨hes, List.forall_mem_singleton.2 rfl⟩)
    exact halways.of_append hrun hstep _ _ _ _ _ _ rfl hi₁ rfl rfl hvalidate
  · -- the task has the stream already
    intro prologue record hprologue hkind hvalidate
    obtain ⟨s₁, hstep, -⟩ := step_prologue sha256 hi hprologue hkind hvalidate
    refine (bindsSize_prologue_iff hstep hi hprologue hkind hvalidate).1 ?_
    exact (h [.task i .prologue] (List.forall_mem_singleton.2 rfl) s₁ hstep).1 _ _ _ _ _ _ rfl hi
      hprologue hkind hvalidate
  · trivial

/-! ## What becomes of a transfer -/

section

variable {i : ℕ} {request : FileTransferRequest} {verifiedHandle resolvedSize : ℕ}

/-- A task that is receiving a file, all of its messages having arrived, is done with it. -/
theorem step_received (sha256 : List UInt8 → List UInt8)
    (hi : s.tasks[i]? = some (.fileTransfer request fileHandle
      (.receiving verifiedHandle resolvedSize)))
    {events : List FileEvent} {outcome : Except FileTransferSessionError ReceiveOutcome}
    (houtcome : receiveFile sha256 verifiedHandle resolvedSize events = some outcome) :
    ∃ s', (machine sha256).step s (.task i (.received events)) = some s' ∧
      s'.tasks[i]? = some (.fileTransfer request fileHandle
        (.ended (outcome.map ReceiveOutcome.toFileTransferOutcome))) := by
  have hstep : (Task.fileTransfer request fileHandle (.receiving verifiedHandle resolvedSize)).step
      sha256 s.toTaskContext (.received events) = some (.fileTransfer request fileHandle
        (.ended (outcome.map ReceiveOutcome.toFileTransferOutcome)),
        { s.toTaskContext with handles := s.handles.remove verifiedHandle },
        (FileTransferPhase.ended (outcome.map ReceiveOutcome.toFileTransferOutcome)).report) := by
    simp [Task.step, runFileTransfer, houtcome]
  exact ⟨_, (step_task hi hstep).1, List.getElem?_set_self (List.getElem?_eq_some_iff.1 hi).1⟩

end

/-- The messages of a file in chunks: the chunks, and then the checksum. -/
def fileMessages (sha256 : List UInt8 → List UInt8) (file : List UInt8) (chunks : List FileChunk) :
    List FileEvent :=
  chunks.map (fun c => .chunk (some c)) ++ [.complete (some ⟨sha256 file⟩)]

/-- The messages make the task end with an outcome. -/
def EndsWith (sha256 : List UInt8 → List UInt8) (s : ActiveSession) (i : ℕ)
    (events : List FileEvent) (outcome : FileTransferOutcome) : Prop :=
  ∃ s' request fileHandle, (machine sha256).step s (.task i (.received events)) = some s' ∧
    s'.tasks[i]? = some (.fileTransfer request fileHandle (.ended (.ok outcome)))

/-- Where the loop runs, the recorded sizes are enforced until the next request, whatever the
    order of the streams and of those who accept them, exactly if they agree with the sizes the
    waiting tasks go by. The size a task goes by decides the transfer: a file of that size is
    accepted, and one that exceeds it is refused. -/
theorem uploads_bind_size_iff (sha256 : List UInt8 → List UInt8) (s : ActiveSession)
    (hrunning : s.session.result = none) :
    ((∀ es, (∀ e ∈ es, e.isRequest = false) → (machine sha256).Always BindsSize s es) ↔
        s.SizesAgree) ∧
      ∀ (s₁ : ActiveSession) (i : ℕ) (request : FileTransferRequest) (fileHandle h size : ℕ),
        s₁.tasks[i]? = some (.fileTransfer request fileHandle (.receiving h size)) →
          (∀ file chunks, Pieces file chunks → file.length = size →
            s₁.EndsWith sha256 i (fileMessages sha256 file chunks) .done) ∧
          ∀ (chunks : List FileChunk) (events : List FileEvent),
            (∃ c ∈ chunks, size < c.offset + c.length) →
              ∃ err, s₁.EndsWith sha256 i (chunks.map (fun c => .chunk (some c)) ++ events)
                (.reportError err) := by
  refine ⟨⟨sizesAgree_of_bindsSize hrunning, fun hs es hes => ?_⟩, ?_⟩
  · -- the sizes agree all along, as nothing is requested
    refine Machine.Always.imp (I := SizesAgree) (P := fun _ e _ => e.isRequest = false) ?_ hs
      (Machine.always_of_forall_mem fun e he _ _ => hes e he)
    exact fun s e s' hs hstep he => ⟨hs.step he hstep, hs.bindsSize hstep⟩
  · intro s₁ i request fileHandle h size hi
    refine ⟨fun file chunks hpieces hsize => ?_, fun chunks events hexceeds => ?_⟩
    · subst hsize
      obtain ⟨s₂, hstep, hi₂⟩ := step_received sha256 hi (receiveFile_of_pieces hpieces)
      exact ⟨s₂, request, fileHandle, hstep, hi₂⟩
    · obtain ⟨err, herr⟩ := @receiveFile_of_exceeds sha256 h chunks size events hexceeds
      obtain ⟨s₂, hstep, hi₂⟩ := step_received sha256 hi herr
      exact ⟨err, s₂, request, fileHandle, hstep, hi₂⟩

/-- Of two uploads, of 3 bytes and of 1, the client opens the stream of the second one first.
    The task of the first one gets it: it refuses the file of 1 byte, and accepts one of 3. -/
theorem upload_goes_by_other_size :
    let s := start ⟨Vector.replicate 16 0, "user", 0, .new, []⟩ (FRESH_GRANT ||| Bit.FILE_UP) true
      (.streaming 0) [0]
    let es := [.request ⟨1, .upload, "first", 3⟩ 1 (.ok ()),
      .request ⟨2, .upload, "second", 1⟩ 2 (.ok ()), .openUni ⟨.ok ⟨.file, 1, 2⟩⟩, .task 0 .accept]
    (∃ s₁ s₂, (machine id).run s es = some s₁ ∧
      (∃ record, s₁.validate 2 .upload = .ok record ∧ record.resolvedSize = 1) ∧
      (machine id).step s₁ (.task 0 .prologue) = some s₂ ∧
      s₂.EndsWith id 0 (fileMessages id [7] [⟨0, 1, [7]⟩])
        (.reportError ⟨2, ReasonCode.PROTOCOL_FILE_INCOMPLETE_TRANSFER⟩) ∧
      s₂.EndsWith id 0 (fileMessages id [7, 7, 7] [⟨0, 3, [7, 7, 7]⟩]) .done) ∧
      ¬ (machine id).Always BindsSize s (es ++ [.task 0 .prologue]) := by
  intro s es
  have htask : ((machine id).run s es).bind (fun s₁ => s₁.tasks[0]?) =
      some (.fileTransfer ⟨1, .upload, "first", 3⟩ 1
        (.readingPrologue ⟨.ok ⟨.file, 1, 2⟩⟩)) := by
    simp only [s, es]
    rfl
  have hrecord : ((machine id).run s es).map (fun s₁ =>
      (s₁.validate 2 .upload).toOption.map FileHandleRecord.resolvedSize) = some (some 1) := by
    simp only [s, es]
    rfl
  obtain ⟨s₁, hrun, htask⟩ := Option.bind_eq_some_iff.1 htask
  rw [hrun] at hrecord
  obtain ⟨record, hvalidate, hsize⟩ := Option.map_eq_some_iff.1 (Option.some.inj hrecord)
  have hvalidate : s₁.validate 2 .upload = .ok record := by
    cases hv : s₁.validate 2 .upload with
    | error e =>
      rw [hv] at hvalidate
      cases hvalidate
    | ok record' =>
      rw [hv] at hvalidate
      exact congrArg Except.ok (Option.some.inj hvalidate)
  obtain ⟨s₂, hstep, htask₂⟩ := step_prologue id htask rfl rfl hvalidate
  refine ⟨⟨s₁, s₂, hrun, ⟨record, hvalidate, hsize⟩, hstep, ?_, ?_⟩, fun h => ?_⟩
  · have hrefused : receiveFile id 2 3 (fileMessages id [7] [⟨0, 1, [7]⟩]) =
        some (.ok (.error ⟨2, ReasonCode.PROTOCOL_FILE_INCOMPLETE_TRANSFER⟩)) := by
      simp [receiveFile, fileMessages, receiveMessages, FileReassembly.applyChunk,
        FileReassembly.new, FileReassembly.isComplete, Intervals.sweep, FileChunk.range]
    obtain ⟨s₃, hstep₃, hi₃⟩ := step_received id htask₂ hrefused
    exact ⟨s₃, _, _, hstep₃, hi₃⟩
  · obtain ⟨s₃, hstep₃, hi₃⟩ :=
      step_received id htask₂ (receiveFile_of_pieces (pieces_whole [7, 7, 7]))
    exact ⟨s₃, _, _, hstep₃, hi₃⟩
  · have hbinds := h.of_append hrun hstep 0 _ _ _ _ _ rfl htask rfl rfl hvalidate
    have hthree := (bindsSize_prologue_iff hstep htask rfl rfl hvalidate).1 hbinds
    rw [hsize] at hthree
    cases hthree

/-- Two uploads of the same size may open their streams in any order. -/
theorem uploads_bind_size_sameSize :
    let s := start ⟨Vector.replicate 16 0, "user", 0, .new, []⟩ (FRESH_GRANT ||| Bit.FILE_UP) true
      (.streaming 0) [0]
    let es := [.request ⟨1, .upload, "first", 3⟩ 1 (.ok ()),
      .request ⟨2, .upload, "second", 3⟩ 2 (.ok ())]
    ∃ s', (machine id).run s es = some s' ∧ ∀ es', (∀ e ∈ es', e.isRequest = false) →
      (machine id).Always BindsSize s' es' := by
  intro s es
  have hall : ((machine id).run s es).map (fun s' => (s'.session.result, s'.tasks,
      s'.handles.handles.entries.map fun entry => entry.2.resolvedSize)) =
      some (none, [.fileTransfer ⟨1, .upload, "first", 3⟩ 1 .accepting,
        .fileTransfer ⟨2, .upload, "second", 3⟩ 2 .accepting], [3, 3]) := by
    simp only [s, es]
    rfl
  obtain ⟨s', hrun, hall⟩ := Option.map_eq_some_iff.1 hall
  simp only [Prod.mk.injEq] at hall
  obtain ⟨hrunning, htasks, hsizes⟩ := hall
  have hthree (fileHandle : ℕ) (record : FileHandleRecord)
      (hvalidate : s'.validate fileHandle .upload = .ok record) : record.resolvedSize = 3 := by
    have hget := (FileHandleStore.validate_eq_ok.1 hvalidate).1
    have hmem := List.mem_map_of_mem (f := fun entry => entry.2.resolvedSize)
      (AList.mem_lookup_iff.1 hget)
    rw [hsizes] at hmem
    simpa using hmem
  refine ⟨s', hrun, (uploads_bind_size_iff id s' hrunning).1.2 fun task hmem => ?_⟩
  rw [htasks] at hmem
  rcases List.mem_cons.1 hmem with rfl | hmem
  · exact hthree
  · obtain rfl := List.mem_singleton.1 hmem
    exact hthree

end ActiveSession

end Sardp
