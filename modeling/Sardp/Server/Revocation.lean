import Sardp.Server.ActiveSession
import Sardp.Session.Handshake

/-!
# Revoking permissions from tasks in progress

An update may revoke a permission *at once*, which the client and the administrator take to
end even the operations in progress. The loop checks a permission before it spawns a task
(`Session.isGranted_of_spawned`), but nobody tells the task of a later revoke.

`Session.Revoked` says what the client has been told. A session in which a permission is
revoked and no task in progress has it is `ActiveSession.Idle`, and stays so until the
permission is granted again (`ActiveSession.Idle.step`); as long as a task is in progress, it
may still act (`ActiveSession.exists_revoked_action`). So the revokes of a run stop the
operations exactly if there are none to stop
(`ActiveSession.revokes_stop_operations_iff`).
-/

namespace Sardp

namespace Session

variable {s : Session} {b : PermissionSet}

/-- The permission after an update, revoked at once or not, given whether it was before. -/
def revokedAfter (b : PermissionSet) (revoked : Bool) (update : PermissionUpdate) : Bool :=
  if update.grantedPermissions &&& b ≠ 0 then false
  else if update.immediateRevoke &&& b ≠ 0 then true
  else revoked

/-- An update has revoked the permission at once, and no later one has granted it. -/
def Revoked (s : Session) (b : PermissionSet) : Prop := s.updates.foldl (revokedAfter b) false

theorem revokedAfter_iff {revoked : Bool} {update : PermissionUpdate} :
    revokedAfter b revoked update ↔ ¬ update.grantedPermissions &&& b ≠ 0 ∧
      (update.immediateRevoke &&& b ≠ 0 ∨ revoked) := by
  rw [revokedAfter]
  split_ifs with hgranted hrevoked
  · exact iff_of_false nofun fun h => h.1 hgranted
  · exact iff_of_true rfl ⟨hgranted, .inl hrevoked⟩
  · exact ⟨fun h => ⟨hgranted, .inr h⟩, fun h => h.2.resolve_left hrevoked⟩

/-- A toggle revokes at once what it revokes at all. -/
theorem immediateRevoke_toggle {g bit : PermissionSet} {grant : Bool} :
    (buildPermissionToggle g bit grant).immediateRevoke &&& b ≠ 0 ↔
      grant = false ∧ bit &&& b ≠ 0 := by
  cases grant <;> simp [buildPermissionToggle]

theorem revoked_of_permissions {s' : Session} (h : s'.permissions = s.permissions) :
    (s'.Revoked b ↔ s.Revoked b) ∧ s'.permissionSm = s.permissionSm := by
  simp only [permissions, Prod.mk.injEq] at h
  rw [Revoked, Revoked, h.2.2]
  exact ⟨Iff.rfl, h.2.1⟩

/-- After a toggle, a permission is revoked if it is not granted, and the toggle or an
    earlier one has revoked it. -/
theorem revoked_handle_toggle (bit : PermissionSet) (grant : Bool) (written : Written)
    (hb : b ∈ ALL_BITS) :
    let s' := (s.handle (.command (.togglePermission bit grant) written)).1
    s'.Revoked b ↔ ¬ s'.permissionSm.isGranted b ∧
      ((grant = false ∧ bit &&& b ≠ 0) ∨ s.Revoked b) := by
  intro s'
  have h := permissions_handle_toggle (s := s) bit grant written
  simp only [permissions, Prod.mk.injEq] at h
  rw [Revoked, h.2.1, h.2.2, PermissionSm.isGranted_applyUpdate hb, List.foldl_append,
    List.foldl_cons, List.foldl_nil, revokedAfter_iff, immediateRevoke_toggle]
  rfl

/-- A revoke at once, of the permission and maybe others, revokes it. -/
theorem revoked_handle_revoke {bit : PermissionSet} (written : Written) (hb : b ∈ ALL_BITS)
    (hbit : bit &&& b ≠ 0) :
    (s.handle (.command (.togglePermission bit false) written)).1.Revoked b := by
  have h := permissions_handle_toggle (s := s) bit false written
  simp only [permissions, Prod.mk.injEq] at h
  refine (revoked_handle_toggle bit false written hb).2 ⟨?_, .inl ⟨rfl, hbit⟩⟩
  rw [h.2.1, PermissionSm.isGranted_applyUpdate hb,
    (buildPermissionToggle_setsExactly s.grantedPermissions bit false).mem hb, if_pos hbit]
  exact Bool.false_ne_true

/-- The loop only spawns a task whose permission is granted, and does not toggle
    permissions in that round. -/
theorem isGranted_of_spawned {e : LoopEvent} {spawned : SpawnedTask}
    (h : (s.handle e).2 = some spawned) :
    e.toggle = none ∧ s.permissionSm.isGranted spawned.permission := by
  cases e with
  | control message written =>
    refine ⟨rfl, ?_⟩
    simp only [handle, handleControl] at h
    split at h
    case h_6 request issued =>
      simp only [handleFileTransferRequest] at h
      split at h
      · cases h
      · next hgate =>
        split at h
        · cases h
        · dsimp only at h
          split_ifs at h
          cases h
          exact (PermissionSm.checkGate_eq_ok _).1 hgate
    all_goals cases h
  | command command written =>
    cases command with
    | togglePermission bit grant => cases h
    | sendClipboard =>
      refine ⟨rfl, ?_⟩
      simp only [handle, handleCommand] at h
      split at h
      · cases h
      · next hgate =>
        cases h
        exact (PermissionSm.checkGate_eq_ok _).1 hgate
  | incomingUni accepted config =>
    refine ⟨rfl, ?_⟩
    simp only [handle, handleIncomingUni] at h
    split at h
    case h_2 =>
      split_ifs at h with hgranted
      split at h
      · cases h
      · cases h
        exact hgranted
    all_goals cases h
  | clipboardFormats accepted =>
    refine ⟨rfl, ?_⟩
    simp only [handle, handleClipboardFormats] at h
    split at h
    · cases h
    · split_ifs at h with hgranted
      obtain ⟨format, -, rfl⟩ := Option.map_eq_some_iff.1 h
      simpa [SpawnedTask.permission] using hgranted
  | _ => cases h

end Session

/-- The administrator revokes the permission at once, and maybe others with it. -/
def ActiveEvent.RevokesAtOnce (e : ActiveEvent) (b : PermissionSet) : Prop :=
  ∃ bit written, e = .round (.command (.togglePermission bit false) written) ∧ bit &&& b ≠ 0

theorem mem_ALL_BITS_of_mem_TASK_BITS {b : PermissionSet} (hb : b ∈ TASK_BITS) : b ∈ ALL_BITS := by
  simp only [TASK_BITS, List.mem_cons, List.not_mem_nil, or_false] at hb
  rcases hb with rfl | rfl | rfl <;> decide

/-- Operations are those under a permission of `TASK_BITS`. -/
theorem TaskAction.mem_TASK_BITS {a : TaskAction} {b : PermissionSet} (h : b ∈ a.permission) :
    b ∈ TASK_BITS := by
  cases a <;> cases h <;> decide

namespace ActiveSession

variable {sha256 : List UInt8 → List UInt8} {s s' : ActiveSession} {e : ActiveEvent}
  {b : PermissionSet}

/-- A task with the permission is in progress. -/
def InProgress (s : ActiveSession) (b : PermissionSet) : Prop :=
  ∃ task ∈ s.tasks, task.permission = b ∧ task.inProgress

/-- Where the permission is revoked, it is not granted and no task with it is in progress. -/
def Idle (b : PermissionSet) (s : ActiveSession) : Prop :=
  s.session.Revoked b → ¬ s.session.permissionSm.isGranted b ∧ ¬ s.InProgress b

/-- The step is no revoke of a permission with a task in progress. -/
def RevokesIdle (s : ActiveSession) (e : ActiveEvent) (_ : ActiveSession) : Prop :=
  ∀ b ∈ TASK_BITS, e.RevokesAtOnce b → ¬ s.InProgress b

/-- The step is no operation under a permission that is revoked. -/
def StopsRevoked (sha256 : List UInt8 → List UInt8) (s : ActiveSession) (e : ActiveEvent)
    (_ : ActiveSession) : Prop :=
  ∀ a ∈ s.action sha256 e, ∀ b ∈ a.permission, ¬ s.session.Revoked b

theorem idle_start (ctx : TaskContext) (g : PermissionSet) (synthetic : Bool)
    (videoChannel : VideoChannel) (opened : List ℕ) :
    Idle b (start ctx g synthetic videoChannel opened) :=
  nofun

/-- What a task does, it does in a step. -/
theorem exists_step_of_action {a : TaskAction} (ha : s.action sha256 e = some a) :
    ∃ s', (machine sha256).step s e = some s' := by
  cases e with
  | task i te =>
    obtain ⟨⟨task', ctx, a'⟩, hstep, -⟩ := Option.bind_eq_some_iff.1 ha
    obtain ⟨task, hi, hstep⟩ := Option.bind_eq_some_iff.1 hstep
    exact ⟨_, (step_task hi hstep).1⟩
  | _ => cases ha

/-- An operation is one of a task in progress with its permission. -/
theorem inProgress_of_action {a : TaskAction} (h : (machine sha256).step s e = some s')
    (ha : a ∈ s.action sha256 e) (hb : b ∈ a.permission) : s.InProgress b := by
  cases hle : s.loopEvent e with
  | some le =>
    cases e with
    | task => cases hle
    | _ => cases ha
  | none =>
    rcases (other_step hle h).tasks with ⟨-, hnone⟩ | ⟨i, te, task, task', ctx, rfl, hi, hstep, -⟩
    · rw [hnone] at ha
      cases ha
    · obtain ⟨hprogress, -, hact⟩ := Task.step_spec hstep
      exact ⟨task, List.mem_of_getElem? hi, (hact a ha b hb).symm, hprogress⟩

/-- Tasks are only started by the loop. -/
theorem inProgress_of_other_step (hle : s.loopEvent e = none)
    (h : (machine sha256).step s e = some s') (hprogress : s'.InProgress b) : s.InProgress b := by
  obtain ⟨task, hmem, hb, htask⟩ := hprogress
  rcases (other_step hle h).tasks with ⟨htasks, -⟩ | ⟨i, te, t, t', ctx, rfl, hi, hstep, rfl⟩
  · exact ⟨task, htasks ▸ hmem, hb, htask⟩
  · rcases List.mem_or_eq_of_mem_set hmem with hmem | rfl
    · exact ⟨task, hmem, hb, htask⟩
    · obtain ⟨ht, hpermission, -⟩ := Task.step_spec hstep
      exact ⟨t, List.mem_of_getElem? hi, hpermission.symm.trans hb, ht⟩

/-- A round only starts a task with a permission that is granted. -/
theorem inProgress_of_loop_step {le : LoopEvent} (hle : s.loopEvent e = some le)
    (h : (machine sha256).step s e = some s') (hprogress : s'.InProgress b) :
    s.InProgress b ∨ le.toggle = none ∧ s.session.permissionSm.isGranted b := by
  obtain ⟨task, hmem, rfl, htask⟩ := hprogress
  rw [(loop_step hle h).tasks] at hmem
  rcases List.mem_append.1 hmem with hmem | hmem
  · exact .inl ⟨task, hmem, rfl, htask⟩
  · obtain ⟨spawned, hspawned, rfl⟩ := Option.map_eq_some_iff.1 (Option.mem_toList.1 hmem)
    rw [SpawnedTask.permission_start]
    exact .inr (Session.isGranted_of_spawned hspawned)

/-- Toggles are rounds of their own. -/
theorem round_of_toggle {le : LoopEvent} (hle : s.loopEvent e = some le)
    (htoggle : le.toggle ≠ none) : e = .round le := by
  cases e with
  | round e => exact congrArg ActiveEvent.round (Option.some.inj hle)
  | request request candidate written =>
    cases hle
    exact absurd rfl htoggle
  | dispatch | dispatchBi =>
    obtain ⟨stream, -, rfl⟩ := Option.map_eq_some_iff.1 hle
    exact absurd rfl htoggle
  | _ => cases hle

/-- A step that does not revoke the permission with a task in progress keeps it idle. -/
theorem Idle.step (hb : b ∈ ALL_BITS) (hs : Idle b s) (h : (machine sha256).step s e = some s')
    (hrevoke : e.RevokesAtOnce b → ¬ s.InProgress b) : Idle b s' := by
  intro hrevoked
  cases hle : s.loopEvent e with
  | none =>
    have hsession := (other_step hle h).session
    rw [hsession] at hrevoked ⊢
    obtain ⟨hgranted, hidle⟩ := hs hrevoked
    exact ⟨hgranted, fun hprogress => hidle (inProgress_of_other_step hle h hprogress)⟩
  | some le =>
    have hsession := (loop_step hle h).session
    cases htoggle : le.toggle with
    | none =>
      -- the task the round may start has a permission that is granted, so another one
      obtain ⟨hiff, hsm⟩ := Session.revoked_of_permissions (b := b)
        (hsession ▸ Session.permissions_handle htoggle)
      obtain ⟨hgranted, hidle⟩ := hs (hiff.1 hrevoked)
      refine ⟨hsm ▸ hgranted, fun hprogress => ?_⟩
      rcases inProgress_of_loop_step hle h hprogress with hprogress | ⟨-, hgranted'⟩
      · exact hidle hprogress
      · exact hgranted hgranted'
    | some toggle =>
      -- the toggle starts no task: it revokes with none in progress, or none was before
      obtain ⟨written, rfl⟩ := LoopEvent.toggle_eq_some.1 htoggle
      have hround := round_of_toggle hle (by simp [htoggle])
      rw [hsession] at hrevoked
      obtain ⟨hgranted, hcause⟩ := (Session.revoked_handle_toggle _ _ written hb).1 hrevoked
      refine ⟨hsession ▸ hgranted, fun hprogress => ?_⟩
      have hprogress : s.InProgress b :=
        (inProgress_of_loop_step hle h hprogress).resolve_right (by simp [htoggle])
      rcases hcause with ⟨hgrant, hbit⟩ | hbefore
      · exact hrevoke ⟨_, written, hgrant ▸ hround, hbit⟩ hprogress
      · exact (hs hbefore).2 hprogress

/-- Without a revoke of a permission with a task in progress, no operation under a revoked
    permission takes place. -/
theorem stopsRevoked_of_revokesIdle {es : List ActiveEvent} (hs : ∀ b ∈ TASK_BITS, Idle b s)
    (h : (machine sha256).Always RevokesIdle s es) :
    (machine sha256).Always (StopsRevoked sha256) s es := by
  refine Machine.Always.imp (I := fun s => ∀ b ∈ TASK_BITS, Idle b s) ?_ hs h
  intro s e s' hidle hstep hrevoke
  refine ⟨fun b hb => ?_, fun a ha b hab hrevoked => ?_⟩
  · exact (hidle b hb).step (mem_ALL_BITS_of_mem_TASK_BITS hb) hstep (hrevoke b hb)
  · have hb := TaskAction.mem_TASK_BITS hab
    exact (hidle b hb hrevoked).2 (inProgress_of_action hstep ha hab)

theorem not_stopsRevoked {i : ℕ} {te : TaskEvent} {task task' : Task} {ctx : TaskContext}
    {a : TaskAction} (hi : s.tasks[i]? = some task)
    (hstep : task.step sha256 s.toTaskContext te = some (task', ctx, some a))
    (hab : b ∈ a.permission) (hrevoked : s.session.Revoked b) :
    ¬ (machine sha256).Always (StopsRevoked sha256) s [.task i te] := by
  obtain ⟨hs', ha⟩ := step_task hi hstep
  intro h
  exact (h _ hs').1 a ha b hab hrevoked

/-- As long as a task with a revoked permission is in progress, it and the client can carry
    out an operation under it. -/
theorem exists_revoked_action (sha256 : List UInt8 → List UInt8) (hb : b ∈ TASK_BITS)
    (hrevoked : s.session.Revoked b) (hprogress : s.InProgress b) :
    ∃ es, (∀ e ∈ es, ∃ i te, e = .task i te) ∧
      ¬ (machine sha256).Always (StopsRevoked sha256) s es := by
  obtain ⟨task, hmem, rfl, htask⟩ := hprogress
  obtain ⟨i, hi⟩ := List.mem_iff_getElem?.1 hmem
  obtain ⟨te, task', a, ha, hstep | ⟨te₀, task₀, hstep₀, hstep⟩⟩ :=
    Task.exists_acts sha256 s.toTaskContext hb htask
  · exact ⟨[.task i te], by simp, not_stopsRevoked hi hstep ha hrevoked⟩
  · -- the first of the two steps only moves the task on
    refine ⟨[.task i te₀, .task i te], by simp, fun h => ?_⟩
    have hlt : i < s.tasks.length := (List.getElem?_eq_some_iff.1 hi).1
    have hi₀ : (s.tasks.set i task₀)[i]? = some task₀ := List.getElem?_set_self hlt
    let s₀ : ActiveSession := { s with tasks := s.tasks.set i task₀ }
    exact not_stopsRevoked (s := s₀) hi₀ hstep ha hrevoked (h _ (step_task hi hstep₀).1).2

/-- The revokes at once of a run stop the operations under the permissions they revoke,
    whatever the tasks and the client do next, exactly if none of them finds a task with such
    a permission in progress. -/
theorem revokes_stop_operations_iff (sha256 : List UInt8 → List UInt8) (ctx : TaskContext)
    (grantedPermissions : PermissionSet) (synthetic : Bool) (videoChannel : VideoChannel)
    (opened : List ℕ) (es : List ActiveEvent) :
    let s := start ctx grantedPermissions synthetic videoChannel opened
    (∀ es₁ es₂, es₁ <+: es → (∀ e ∈ es₂, ∀ b ∈ TASK_BITS, ¬ e.RevokesAtOnce b) →
        (machine sha256).Always (StopsRevoked sha256) s (es₁ ++ es₂)) ↔
      (machine sha256).Always RevokesIdle s es := by
  intro s
  constructor
  · intro h
    refine Machine.always_of_prefix fun es₁ e es' s₁ s₂ hes hrun hstep b hb hrevoke hprogress => ?_
    -- the run is cut short after the revoke, and the task goes on
    obtain ⟨bit, written, rfl, hbit⟩ := hrevoke
    have hround := loop_step rfl hstep
    have hrevoked : s₂.session.Revoked b := by
      rw [hround.session]
      exact Session.revoked_handle_revoke written (mem_ALL_BITS_of_mem_TASK_BITS hb) hbit
    have hprogress : s₂.InProgress b := by
      obtain ⟨task, hmem, htask⟩ := hprogress
      exact ⟨task, hround.tasks ▸ List.mem_append_left _ hmem, htask⟩
    obtain ⟨es₂, hes₂, hnot⟩ := exists_revoked_action sha256 hb hrevoked hprogress
    have hprefix : es₁ ++ [.round (.command (.togglePermission bit false) written)] <+: es :=
      ⟨es', by simp [hes]⟩
    refine hnot ((Machine.always_append.1 (h _ es₂ hprefix ?_)).2 s₂ ?_)
    · intro e he b hb hrevoke
      obtain ⟨i, te, rfl⟩ := hes₂ e he
      obtain ⟨bit, written, heq, -⟩ := hrevoke
      cases heq
    · exact Machine.run_append_eq_some.2 ⟨s₁, hrun, Machine.run_cons_eq_some.2 ⟨s₂, hstep, rfl⟩⟩
  · rintro h es₁ es₂ ⟨es', rfl⟩ hes₂
    have hidle : ∀ b ∈ TASK_BITS, Idle b s := fun b _ =>
      idle_start ctx grantedPermissions synthetic videoChannel opened
    refine stopsRevoked_of_revokesIdle hidle ?_
    refine Machine.always_append.2 ⟨(Machine.always_append.1 h).1, fun s₁ _ => ?_⟩
    exact Machine.always_of_forall_mem fun e he _ _ b hb hrevoke => absurd hrevoke (hes₂ e he b hb)

/-- The clipboard is announced while it may be read. The permission is revoked before the
    client asks for the clipboard, and it gets it. -/
theorem clipboard_sent_after_revoke :
    let s := start ⟨Vector.replicate 16 0, "user", 0, .new, []⟩ FRESH_GRANT true (.streaming 0) [0]
    let es := [.round .frameTick,
      .round (.command (.togglePermission Bit.CLIP_READ true) (.ok ())),
      .round (.command .sendClipboard (.ok ())), .task 0 (.announced (.ok ())),
      .round (.command (.togglePermission Bit.CLIP_READ false) (.ok ()))]
    let e := ActiveEvent.task 0 (.clipboardRequested (.ok ⟨1, .mime, "text/plain"⟩))
    (∃ s' data, (machine id).run s es = some s' ∧ s'.session.Revoked Bit.CLIP_READ ∧
      s'.action id e = some (.sendClipboardData data)) ∧
      ¬ (machine id).Always (StopsRevoked id) s (es ++ [e]) := by
  intro s es e
  have hrevoked : ((machine id).run s es).map (fun s' =>
      s'.session.updates.foldl (Session.revokedAfter Bit.CLIP_READ) false) = some true := by
    decide
  have hsent : ((machine id).run s es).bind (·.action id e) =
      some (.sendClipboardData ⟨1, .mime, "text/plain", pseudoClipboard⟩) := by
    simp only [s, es, e]
    rfl
  obtain ⟨s', hrun, hrevoked⟩ := Option.map_eq_some_iff.1 hrevoked
  rw [hrun, Option.bind_some] at hsent
  refine ⟨⟨s', _, hrun, hrevoked, hsent⟩, fun h => ?_⟩
  obtain ⟨s'', hstep⟩ := exists_step_of_action hsent
  exact (Machine.Always.of_append h hrun hstep) _ hsent Bit.CLIP_READ rfl hrevoked

end ActiveSession

end Sardp
