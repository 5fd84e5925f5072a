import Sardp.Library.Progress
import Sardp.Server.Session
import Sardp.Session.Handshake

/-!
# Shutting the server down

To shut down, the server notifies those who wait for it, and closes its endpoint (`main` in
`sardp-server.rs`). The notification stores nothing: it reaches the loops that wait in their
`select!` at that moment, which take the arm of the shutdown before any other, and close their
sessions (`close_gracefully`). A loop in the body of an arm waits anew once the body is over, and a
session that is being set up comes to wait later; neither has been notified. And once the endpoint
is closed, a session cannot send that it is being closed.

So every session heeds the shutdown exactly if all of them wait when they are notified, and have
sent what there is to send when the endpoint is closed (`ServerShutdown.heeds_iff_fits`).
-/

namespace Sardp

/-- The task of a connection. -/
inductive SessionTask
  /-- The loop has not been entered. -/
  | settingUp
  /-- The loop waits in its `select!`, and has been notified or not. -/
  | selecting (session : Session) (notified : Bool)
  /-- The loop is in the body of an arm other than that of the shutdown. -/
  | inArm (session : Session)
  /-- The loop is in the body of the arm of the shutdown. -/
  | closing (session : Session)
  /-- The message that closes the session has been sent, or could not be. -/
  | closed (session : Session) (sent : Bool)
  /-- The task has ended otherwise. -/
  | ended

/-- A step of the task of a connection. -/
inductive SessionTaskEvent
  /-- The loop is entered. -/
  | setUp (grantedPermissions : PermissionSet) (synthetic : Bool) (videoChannel : VideoChannel)
      (opened : List ℕ)
  /-- The connection fails before that. -/
  | setUpFailed
  /-- The loop takes an arm other than that of the shutdown. -/
  | select
  /-- The body of the arm, or a part of it, with what becomes of it. -/
  | handle (e : LoopEvent)
  /-- The loop takes the arm of the shutdown. -/
  | shutdown
  | sendClose

/-- What happens is the shutdown. -/
def LoopEvent.isShutdown : LoopEvent → Bool
  | .shutdown => true
  | _ => false

namespace SessionTask

/-- The loop goes on after a round, or a part of one. -/
def afterRound (session : Session) : SessionTask :=
  if session.result.isSome then .ended
  else if session.phase = .draining then .inArm session
  else .selecting session false

/-- A step of the task; `none` where it is not possible. -/
def step (endpointOpen : Bool) : SessionTask → SessionTaskEvent → Option SessionTask
  | .settingUp, .setUp grantedPermissions synthetic videoChannel opened =>
    some (.selecting (.start grantedPermissions synthetic videoChannel opened) false)
  | .settingUp, .setUpFailed => some .ended
  -- the arm of the shutdown comes first
  | .selecting session false, .select => some (.inArm session)
  | .selecting session true, .shutdown => some (.closing session)
  | .inArm session, .handle e =>
    if e.isShutdown then none else (session.step e).map fun r => afterRound r.1
  | .closing session, .sendClose => some (.closed (session.handle .shutdown).1 endpointOpen)
  | _, _ => none

/-- The task is notified, if it waits for that. -/
def notify : SessionTask → SessionTask
  | .selecting session _ => .selecting session true
  | task => task

end SessionTask

/-- How far the server is with shutting down. -/
inductive MainPlace
  | accepting
  /-- Those who waited have been notified. -/
  | notified
  /-- The endpoint has been closed. -/
  | closed
  deriving DecidableEq

/-- The server and the tasks of its connections. -/
structure ServerShutdown where
  main : MainPlace
  tasks : List SessionTask

/-- What happens to the server. -/
inductive ShutdownEvent
  | accept
  | task (i : ℕ) (e : SessionTaskEvent)
  | notifyWaiters
  | closeEndpoint

namespace ServerShutdown

def started : ServerShutdown := ⟨.accepting, []⟩

def endpointOpen (s : ServerShutdown) : Bool := s.main ≠ .closed

/-- A step of the task with the number; `none` where it is not possible. -/
def stepTask (s : ServerShutdown) (i : ℕ) (e : SessionTaskEvent) : Option ServerShutdown :=
  s.tasks[i]?.bind fun task =>
    (task.step s.endpointOpen e).map fun task => { s with tasks := s.tasks.set i task }

/-- What happens; `none` where it is not possible. -/
def step (s : ServerShutdown) : ShutdownEvent → Option ServerShutdown
  | .accept =>
    if s.main = .accepting then some { s with tasks := s.tasks ++ [.settingUp] } else none
  | .task i e => s.stepTask i e
  | .notifyWaiters =>
    if s.main = .accepting then some ⟨.notified, s.tasks.map .notify⟩ else none
  | .closeEndpoint => if s.main = .notified then some { s with main := .closed } else none

/-- The steps as a machine. -/
def machine : Machine ServerShutdown ShutdownEvent := ⟨step⟩

end ServerShutdown

/-! ## Heeding the shutdown -/

/-- The loop waits in its `select!`, or the task is over. -/
def SessionTask.Waits : SessionTask → Prop
  | .settingUp | .inArm _ => False
  | .selecting _ _ | .closing _ | .closed _ _ | .ended => True

/-- The task is over. -/
def SessionTask.Over : SessionTask → Prop
  | .closed _ _ | .ended => True
  | .settingUp | .selecting _ _ | .inArm _ | .closing _ => False

namespace ServerShutdown

/-- The shutdown has been signalled. -/
def Signalled (s : ServerShutdown) : Prop := s.main ≠ .accepting

/-- The session with the number heeds the shutdown. -/
structure Heeds (s : ServerShutdown) (i : ℕ) : Prop where
  /-- Whatever happens, its loop takes no arm but that of the shutdown any more. -/
  selects_none : ∀ events s', machine.run s events = some s' →
    machine.step s' (.task i .select) = none
  /-- Unless the session has ended otherwise, it comes to send that it is being closed. -/
  closes : s.tasks[i]? = some .ended ∨ machine.MayReach (fun e => ∃ e', e = .task i e')
    (fun s' => ∃ session, s'.tasks[i]? = some (.closed session true)) s

/-- Every task waits when it is notified, and is over when the endpoint is closed. -/
def Fits (s : ServerShutdown) : ShutdownEvent → Prop
  | .notifyWaiters => ∀ task ∈ s.tasks, task.Waits
  | .closeEndpoint => ∀ task ∈ s.tasks, task.Over
  | .accept | .task _ _ => True

end ServerShutdown

/-- The loop is not entered any more, and takes no arm but that of the shutdown. -/
def SessionTask.Heeding : SessionTask → Prop
  | .selecting _ true | .closing _ | .closed _ true | .ended => True
  | .settingUp | .selecting _ false | .inArm _ | .closed _ false => False

/-- The task has not been notified. -/
def SessionTask.Unnotified : SessionTask → Prop
  | .settingUp | .selecting _ false | .inArm _ | .ended => True
  | .selecting _ true | .closing _ | .closed _ _ => False

/-- A loop that goes on has not returned. -/
def SessionTask.Ok : SessionTask → Prop
  | .selecting session _ | .inArm session => session.result = none
  | .settingUp | .closing _ | .closed _ _ | .ended => True

namespace ServerShutdown

/-- What holds of the server at any time. -/
structure Inv (s : ServerShutdown) : Prop where
  ok : ∀ task ∈ s.tasks, task.Ok
  unnotified : s.main = .accepting → ∀ task ∈ s.tasks, task.Unnotified

/-- Once the shutdown has been signalled, every task heeds it, and is over once the endpoint has
    been closed. -/
structure Heeding (s : ServerShutdown) : Prop where
  task : s.Signalled → ∀ task ∈ s.tasks, task.Heeding
  isOver : s.main = .closed → ∀ task ∈ s.tasks, task.Over

end ServerShutdown

/-! ## What a task does -/

namespace SessionTask

variable {task task' : SessionTask} {endpointOpen : Bool} {e : SessionTaskEvent}

theorem ok_afterRound (session : Session) : (afterRound session).Ok := by
  rw [afterRound]
  split_ifs with hresult
  · trivial
  · exact Option.not_isSome_iff_eq_none.1 hresult
  · exact Option.not_isSome_iff_eq_none.1 hresult

theorem unnotified_afterRound (session : Session) : (afterRound session).Unnotified := by
  rw [afterRound]
  split_ifs <;> trivial

/-- A step of a task: it goes on without having been notified, or heeds the shutdown. -/
theorem step_cases (h : task.step endpointOpen e = some task') :
    (task.Unnotified ∧ task'.Unnotified) ∨
      (∃ session, task = .selecting session true ∧ task' = .closing session) ∨
      ∃ session, task = .closing session ∧
        task' = .closed (session.handle .shutdown).1 endpointOpen := by
  unfold step at h
  split at h
  · cases h
    exact .inl ⟨trivial, trivial⟩
  · cases h
    exact .inl ⟨trivial, trivial⟩
  · cases h
    exact .inl ⟨trivial, trivial⟩
  · cases h
    exact .inr (.inl ⟨_, rfl, rfl⟩)
  · split_ifs at h
    obtain ⟨r, -, rfl⟩ := Option.map_eq_some_iff.1 h
    exact .inl ⟨trivial, unnotified_afterRound r.1⟩
  · cases h
    exact .inr (.inr ⟨_, rfl, rfl⟩)
  · cases h

theorem Ok.step (hok : task.Ok) (h : task.step endpointOpen e = some task') : task'.Ok := by
  unfold SessionTask.step at h
  split at h
  · cases h
    rfl
  · cases h
    trivial
  · cases h
    exact hok
  · cases h
    trivial
  · split_ifs at h
    obtain ⟨r, -, rfl⟩ := Option.map_eq_some_iff.1 h
    exact ok_afterRound r.1
  · cases h
    trivial
  · cases h

theorem Ok.notify (hok : task.Ok) : task.notify.Ok := by
  cases task <;> exact hok

/-- Of the tasks that have not been notified before, those that wait heed the shutdown. -/
theorem Unnotified.heeding_notify_iff (h : task.Unnotified) : task.notify.Heeding ↔ task.Waits := by
  cases task with
  | settingUp | inArm _ => exact iff_of_false id id
  | selecting session notified => exact iff_of_true trivial trivial
  | closing _ => exact h.elim
  | closed _ _ => exact h.elim
  | ended => exact iff_of_true trivial trivial

theorem Heeding.eq_ended (h : task.Heeding) (hunnotified : task.Unnotified) : task = .ended := by
  cases task with
  | settingUp => exact h.elim
  | inArm _ => exact h.elim
  | selecting session notified =>
    cases notified with
    | false => exact h.elim
    | true => exact hunnotified.elim
  | closing _ => exact hunnotified.elim
  | closed _ _ => exact hunnotified.elim
  | ended => rfl

/-- A task that heeds the shutdown goes on to do so while the endpoint is open. -/
theorem Heeding.step (hheeding : task.Heeding) (h : task.step true e = some task') :
    task'.Heeding := by
  rcases step_cases h with ⟨hunnotified, -⟩ | ⟨session, rfl, rfl⟩ | ⟨session, rfl, rfl⟩
  · rw [hheeding.eq_ended hunnotified] at h
    cases h
  · trivial
  · trivial

/-- A task that is over takes no step. -/
theorem Over.step_eq_none (h : task.Over) : task.step endpointOpen e = none := by
  cases task with
  | closed _ _ | ended => rfl
  | settingUp => exact h.elim
  | selecting _ _ => exact h.elim
  | inArm _ => exact h.elim
  | closing _ => exact h.elim

/-- A loop in the body of an arm may come to wait anew. -/
theorem exists_handle (endpointOpen : Bool) {session : Session} (h : session.result = none) :
    ∃ e session', (SessionTask.inArm session).step endpointOpen (.handle e) =
      some (.selecting session' false) := by
  cases hphase : session.phase with
  | selecting =>
    refine ⟨.keepalive (.ok ()), { session with sent := session.sent ++ [.keepAlive] }, ?_⟩
    simp [step, LoopEvent.isShutdown, Session.step, Session.Awaits, Session.handle,
      Session.writeControl, afterRound, h, hphase]
  | draining =>
    refine ⟨.frame (.ok false) (.ok ()), { session with phase := .selecting }, ?_⟩
    simp [step, LoopEvent.isShutdown, Session.step, Session.Awaits, Session.handle,
      Session.handleFrame, afterRound, h, hphase]

/-- The task has been notified, or has ended. -/
def Notified (task : SessionTask) : Prop := task.Unnotified → task = .ended

theorem Notified.step (hnotified : task.Notified) (h : task.step endpointOpen e = some task') :
    task'.Notified := by
  rcases step_cases h with ⟨hunnotified, -⟩ | ⟨session, rfl, rfl⟩ | ⟨session, rfl, rfl⟩
  · rw [hnotified hunnotified] at h
    cases h
  · exact False.elim
  · exact False.elim

theorem Notified.notify (h : task.Notified) : task.notify.Notified := by
  cases task with
  | selecting _ _ => exact False.elim
  | settingUp | inArm _ | closing _ | closed _ _ | ended => exact h

/-- A task that has been notified takes no arm but that of the shutdown. -/
theorem Notified.select_eq_none (hnotified : task.Notified) :
    task.step endpointOpen .select = none := by
  by_contra hsome
  obtain ⟨task', h⟩ := Option.ne_none_iff_exists'.1 hsome
  rcases step_cases h with ⟨hunnotified, -⟩ | ⟨session, rfl, rfl⟩ | ⟨session, rfl, rfl⟩
  · rw [hnotified hunnotified] at h
    cases h
  · cases h
  · cases h

end SessionTask

/-! ## What the server does -/

namespace ServerShutdown

variable {s s' : ServerShutdown} {i : ℕ} {task : SessionTask}

theorem stepTask_eq_some {e : SessionTaskEvent} : s.stepTask i e = some s' ↔
    ∃ task task', s.tasks[i]? = some task ∧ task.step s.endpointOpen e = some task' ∧
      s' = { s with tasks := s.tasks.set i task' } := by
  simp only [stepTask, Option.bind_eq_some_iff, Option.map_eq_some_iff]
  constructor
  · rintro ⟨task, htask, task', hstep, rfl⟩
    exact ⟨task, task', htask, hstep, rfl⟩
  · rintro ⟨task, task', htask, hstep, rfl⟩
    exact ⟨task, htask, task', hstep, rfl⟩

theorem getElem?_set_self (htask : s.tasks[i]? = some task) (task' : SessionTask) :
    (s.tasks.set i task')[i]? = some task' := by
  obtain ⟨hi, -⟩ := List.getElem?_eq_some_iff.1 htask
  rw [List.getElem?_set_self hi]

theorem forall_mem_set {P : SessionTask → Prop} (h : ∀ task ∈ s.tasks, P task) (htask : P task) :
    ∀ task' ∈ s.tasks.set i task, P task' := fun task' hmem =>
  (List.mem_or_eq_of_mem_set hmem).elim (h task') fun heq => heq ▸ htask

theorem inv_started : started.Inv where
  ok _ hmem := (List.not_mem_nil hmem).elim
  unnotified _ _ hmem := (List.not_mem_nil hmem).elim

theorem heeding_started : started.Heeding where
  task hsignalled := (hsignalled rfl).elim
  isOver hclosed := by cases hclosed

theorem Inv.step (h : s.Inv) {e : ShutdownEvent} (hstep : machine.step s e = some s') :
    s'.Inv := by
  cases e with
  | accept =>
    simp only [machine, ServerShutdown.step] at hstep
    split_ifs at hstep with haccepting
    cases hstep
    exact
      { ok := List.forall_mem_append.2 ⟨h.ok, List.forall_mem_singleton.2 trivial⟩
        unnotified := fun _ => List.forall_mem_append.2
          ⟨h.unnotified haccepting, List.forall_mem_singleton.2 trivial⟩ }
  | task i e =>
    obtain ⟨task, task', htask, htask', rfl⟩ := stepTask_eq_some.1 hstep
    have hmem := List.mem_of_getElem? htask
    refine ⟨forall_mem_set h.ok ((h.ok task hmem).step htask'), fun haccepting => ?_⟩
    refine forall_mem_set (h.unnotified haccepting) ?_
    have hunnotified := h.unnotified haccepting task hmem
    rcases SessionTask.step_cases htask' with ⟨-, hunnotified'⟩ | ⟨session, rfl, -⟩ |
      ⟨session, rfl, -⟩
    · exact hunnotified'
    · exact hunnotified.elim
    · exact hunnotified.elim
  | notifyWaiters =>
    simp only [machine, ServerShutdown.step] at hstep
    split_ifs at hstep
    cases hstep
    exact ⟨List.forall_mem_map.2 fun task hmem => (h.ok task hmem).notify, nofun⟩
  | closeEndpoint =>
    simp only [machine, ServerShutdown.step] at hstep
    split_ifs at hstep
    cases hstep
    exact ⟨h.ok, nofun⟩

/-- While the shutdown is heeded, a task only takes a step before it, or while the endpoint is
    open. -/
theorem Heeding.accepting_or_open (h : s.Heeding) {e : SessionTaskEvent} {task' : SessionTask}
    (htask : s.tasks[i]? = some task) (hstep : task.step s.endpointOpen e = some task') :
    s.main = .accepting ∨ s.main = .notified := by
  cases hmain : s.main with
  | accepting => exact .inl rfl
  | notified => exact .inr rfl
  | closed =>
    rw [(h.isOver hmain task (List.mem_of_getElem? htask)).step_eq_none] at hstep
    cases hstep

/-- A step keeps the tasks heeding the shutdown exactly if it fits. -/
theorem Inv.heeding_iff (h : s.Inv) (hheeding : s.Heeding) {e : ShutdownEvent}
    (hstep : machine.step s e = some s') : s'.Heeding ↔ s.Fits e := by
  cases e with
  | accept =>
    simp only [machine, ServerShutdown.step] at hstep
    split_ifs at hstep with haccepting
    cases hstep
    refine iff_of_true ⟨fun hsignalled => (hsignalled haccepting).elim, fun hclosed => ?_⟩ trivial
    rw [show s.main = .closed from hclosed] at haccepting
    cases haccepting
  | task i e =>
    obtain ⟨task, task', htask, htask', rfl⟩ := stepTask_eq_some.1 hstep
    refine iff_of_true ?_ trivial
    rcases hheeding.accepting_or_open htask htask' with hmain | hmain
    · exact ⟨fun hsignalled => (hsignalled hmain).elim, fun hclosed =>
        nomatch hmain.symm.trans hclosed⟩
    · have hsignalled : s.Signalled := by simp [Signalled, hmain]
      have hopen : s.endpointOpen = true := by simp [endpointOpen, hmain]
      rw [hopen] at htask'
      refine ⟨fun _ => forall_mem_set (hheeding.task hsignalled) ?_, fun hclosed =>
        nomatch hmain.symm.trans hclosed⟩
      exact (hheeding.task hsignalled task (List.mem_of_getElem? htask)).step htask'
  | notifyWaiters =>
    simp only [machine, ServerShutdown.step] at hstep
    split_ifs at hstep with haccepting
    cases hstep
    have hiff : ∀ task ∈ s.tasks, task.notify.Heeding ↔ task.Waits := fun task hmem =>
      (h.unnotified haccepting task hmem).heeding_notify_iff
    constructor
    · intro hheeding' task hmem
      exact (hiff task hmem).1 (hheeding'.task (by simp [Signalled]) _ (List.mem_map_of_mem hmem))
    · intro hfits
      exact ⟨fun _ => List.forall_mem_map.2 fun task hmem => (hiff task hmem).2 (hfits task hmem),
        nofun⟩
  | closeEndpoint =>
    simp only [machine, ServerShutdown.step] at hstep
    split_ifs at hstep with hnotified
    cases hstep
    have hsignalled : s.Signalled := by simp [Signalled, hnotified]
    exact ⟨fun hheeding' => hheeding'.isOver rfl, fun hfits =>
      ⟨fun _ => hheeding.task hsignalled, fun _ => hfits⟩⟩

/-! ## Sessions that heed the shutdown -/

/-- What a step does to a task: nothing, a step of its own, or it is notified. -/
theorem getElem?_of_step (htask : s.tasks[i]? = some task) {e : ShutdownEvent}
    (hstep : machine.step s e = some s') : ∃ task', s'.tasks[i]? = some task' ∧
      (task' = task ∨ task' = task.notify ∨
        ∃ e', task.step s.endpointOpen e' = some task') := by
  cases e with
  | accept =>
    simp only [machine, ServerShutdown.step] at hstep
    split_ifs at hstep
    cases hstep
    have hi := (List.getElem?_eq_some_iff.1 htask).1
    exact ⟨task, (List.getElem?_append_left hi).trans htask, .inl rfl⟩
  | task j e =>
    obtain ⟨task₁, task₂, htask₁, htask₂, rfl⟩ := stepTask_eq_some.1 hstep
    by_cases hj : j = i
    · subst hj
      cases htask.symm.trans htask₁
      exact ⟨task₂, getElem?_set_self htask task₂, .inr (.inr ⟨e, htask₂⟩)⟩
    · exact ⟨task, by rw [List.getElem?_set_ne hj, htask], .inl rfl⟩
  | notifyWaiters =>
    simp only [machine, ServerShutdown.step] at hstep
    split_ifs at hstep
    cases hstep
    exact ⟨task.notify, by rw [List.getElem?_map, htask, Option.map_some], .inr (.inl rfl)⟩
  | closeEndpoint =>
    simp only [machine, ServerShutdown.step] at hstep
    split_ifs at hstep
    cases hstep
    exact ⟨task, htask, .inl rfl⟩

/-- A step of a task, as a step of the server. -/
theorem step_task (htask : s.tasks[i]? = some task) {e : SessionTaskEvent} {task' : SessionTask}
    (hstep : task.step s.endpointOpen e = some task') :
    machine.step s (.task i e) = some { s with tasks := s.tasks.set i task' } :=
  stepTask_eq_some.2 ⟨task, task', htask, hstep, rfl⟩

/-- A task that has been notified takes no arm but that of the shutdown, whatever happens. -/
theorem selects_none_of_notified (htask : s.tasks[i]? = some task) (hnotified : task.Notified)
    (events : List ShutdownEvent) (hrun : machine.run s events = some s') :
    machine.step s' (.task i .select) = none := by
  have hinv : ∃ task, s'.tasks[i]? = some task ∧ task.Notified := by
    refine Machine.run_invariant (m := machine)
      (I := fun s => ∃ task, s.tasks[i]? = some task ∧ task.Notified) ?_
      ⟨task, htask, hnotified⟩ hrun
    rintro s e s' ⟨task, htask, hnotified⟩ hstep
    obtain ⟨task', htask', rfl | rfl | ⟨e', hstep'⟩⟩ := getElem?_of_step htask hstep
    · exact ⟨task', htask', hnotified⟩
    · exact ⟨_, htask', hnotified.notify⟩
    · exact ⟨task', htask', hnotified.step hstep'⟩
  obtain ⟨task', htask', hnotified'⟩ := hinv
  by_contra hsome
  obtain ⟨s'', hstep⟩ := Option.ne_none_iff_exists'.1 hsome
  obtain ⟨task₁, task₂, htask₁, htask₂, -⟩ := stepTask_eq_some.1 hstep
  cases htask'.symm.trans htask₁
  rw [hnotified'.select_eq_none] at htask₂
  cases htask₂

/-- A session whose loop has taken the arm of the shutdown may send that it is being closed. -/
theorem mayReach_of_closing {session : Session} (htask : s.tasks[i]? = some (.closing session))
    (hopen : s.endpointOpen = true) : machine.MayReach (fun e => ∃ e', e = .task i e')
      (fun s' => ∃ session, s'.tasks[i]? = some (.closed session true)) s := by
  have hstep : (SessionTask.closing session).step s.endpointOpen .sendClose =
      some (.closed (session.handle .shutdown).1 true) := by rw [hopen]; rfl
  exact (Machine.mayReach_of_now ⟨_, getElem?_set_self htask _⟩).cons ⟨_, rfl⟩
    (step_task htask hstep)

/-- A task that heeds the shutdown, and is over if the endpoint is closed, is that of a session that
    does. -/
theorem Heeding.heeds (h : s.Heeding) (hsignalled : s.Signalled)
    (htask : s.tasks[i]? = some task) : s.Heeds i where
  selects_none events s' hrun := selects_none_of_notified htask
    (fun hunnotified => (h.task hsignalled task (List.mem_of_getElem? htask)).eq_ended hunnotified)
    events hrun
  closes := by
    have hmem := List.mem_of_getElem? htask
    have hheeding := h.task hsignalled task hmem
    have hopen (hover : ¬task.Over) : s.endpointOpen = true :=
      decide_eq_true fun hclosed => hover (h.isOver hclosed task hmem)
    cases task with
    | settingUp => exact hheeding.elim
    | inArm session => exact hheeding.elim
    | selecting session notified =>
      cases notified with
      | false => exact hheeding.elim
      | true =>
        have hstep : (SessionTask.selecting session true).step s.endpointOpen .shutdown =
            some (.closing session) := rfl
        have hcloses := mayReach_of_closing
          (s := { s with tasks := s.tasks.set i (.closing session) })
          (getElem?_set_self htask _) (hopen id)
        exact .inr (hcloses.cons ⟨_, rfl⟩ (step_task htask hstep))
    | closing session => exact .inr (mayReach_of_closing htask (hopen id))
    | closed session sent =>
      cases sent with
      | false => exact hheeding.elim
      | true => exact .inr (Machine.mayReach_of_now ⟨session, htask⟩)
    | ended => exact .inl htask

/-- A loop that waits without having been notified may take another arm. -/
theorem not_heeds_of_selecting {events : List ShutdownEvent} {session : Session}
    (hrun : machine.run s events = some s')
    (htask : s'.tasks[i]? = some (.selecting session false)) : ¬s.Heeds i := by
  intro hheeds
  have hstep : machine.step s' (.task i .select) = some _ := step_task htask rfl
  rw [hheeds.selects_none events s' hrun] at hstep
  cases hstep

theorem not_heeds_of_step {e : SessionTaskEvent} {session : Session}
    (htask : s.tasks[i]? = some task)
    (hstep : task.step s.endpointOpen e = some (.selecting session false)) : ¬s.Heeds i := by
  have hrun : machine.run s [.task i e] =
      some { s with tasks := s.tasks.set i (.selecting session false) } :=
    Machine.run_cons_eq_some.2 ⟨_, step_task htask hstep, rfl⟩
  exact not_heeds_of_selecting hrun (getElem?_set_self htask _)

/-- A task that has not been notified comes to wait again, and may take another arm. -/
theorem Inv.not_heeds_of_unnotified (h : s.Inv) (htask : s.tasks[i]? = some task)
    (hunnotified : task.Unnotified) (hended : task ≠ .ended) : ¬s.Heeds i := by
  have hok := h.ok task (List.mem_of_getElem? htask)
  cases task with
  | settingUp =>
    have hstep : SessionTask.settingUp.step s.endpointOpen (.setUp 0 true (.new 0) []) =
        some (.selecting (.start 0 true (.new 0) []) false) := rfl
    exact not_heeds_of_step htask hstep
  | selecting session notified =>
    cases notified with
    | false => exact not_heeds_of_selecting (machine.run_nil s) htask
    | true => exact hunnotified.elim
  | inArm session =>
    obtain ⟨e, session', hstep⟩ := SessionTask.exists_handle s.endpointOpen hok
    exact not_heeds_of_step htask hstep
  | closing session => exact hunnotified.elim
  | closed session sent => exact hunnotified.elim
  | ended => exact (hended rfl).elim

/-- A session that has not sent that it is being closed by the time the endpoint is closed, or the
    task is over, does not come to send it. -/
theorem not_heeds_of_lost (hlost : s.main = .closed ∨ task.Over) (htask : s.tasks[i]? = some task)
    (hended : task ≠ .ended) (hsent : ∀ session, task ≠ .closed session true) : ¬s.Heeds i := by
  intro hheeds
  rcases hheeds.closes with hended' | hcloses
  · exact hended (Option.some.inj (htask.symm.trans hended'))
  · refine Machine.not_mayReach (I := fun s => ∃ task, s.tasks[i]? = some task ∧
      (s.main = .closed ∨ task.Over) ∧ ∀ session, task ≠ .closed session true) ?_ ?_
      ⟨task, htask, hlost, hsent⟩ hcloses
    · rintro s e s' ⟨e, rfl⟩ ⟨task, htask, hlost, hsent⟩ hstep
      obtain ⟨task₁, task', htask₁, hstep', rfl⟩ := stepTask_eq_some.1 hstep
      cases htask.symm.trans htask₁
      have hclosed : s.main = .closed := hlost.resolve_right fun hover => by
        rw [hover.step_eq_none] at hstep'
        cases hstep'
      have hopen : s.endpointOpen = false := by simp [endpointOpen, hclosed]
      refine ⟨task', getElem?_set_self htask task', .inl hclosed, fun session heq => ?_⟩
      rcases SessionTask.step_cases hstep' with ⟨-, hunnotified⟩ | ⟨session', -, rfl⟩ |
        ⟨session', -, rfl⟩
      · rw [heq] at hunnotified
        exact hunnotified
      · cases heq
      · have hsent' := (SessionTask.closed.inj heq).2
        rw [hopen] at hsent'
        cases hsent'
    · rintro s ⟨task, htask, -, hsent⟩ ⟨session, htask'⟩
      exact hsent session (Option.some.inj (htask.symm.trans htask'))

/-- A task of a session that heeds the shutdown heeds it, and is over if the endpoint is closed. -/
theorem Inv.heeding_of_heeds (h : s.Inv) (htask : s.tasks[i]? = some task) (hheeds : s.Heeds i) :
    task.Heeding ∧ (s.main = .closed → task.Over) := by
  have hunnotified (hunnotified : task.Unnotified) : task = .ended := by
    by_contra hended
    exact h.not_heeds_of_unnotified htask hunnotified hended hheeds
  have hlost (hlost : s.main = .closed ∨ task.Over) (hended : task ≠ .ended) :
      ∃ session, task = .closed session true := by
    by_contra hsent
    exact not_heeds_of_lost hlost htask hended (not_exists.1 hsent) hheeds
  cases task with
  | settingUp => cases hunnotified trivial
  | inArm session => cases hunnotified trivial
  | selecting session notified =>
    cases notified with
    | false => cases hunnotified trivial
    | true =>
      refine ⟨trivial, fun hclosed => ?_⟩
      obtain ⟨session', heq⟩ := hlost (.inl hclosed) nofun
      cases heq
  | closing session =>
    refine ⟨trivial, fun hclosed => ?_⟩
    obtain ⟨session', heq⟩ := hlost (.inl hclosed) nofun
    cases heq
  | closed session sent =>
    obtain ⟨session', heq⟩ := hlost (.inr trivial) nofun
    cases heq
    exact ⟨trivial, fun _ => trivial⟩
  | ended => exact ⟨trivial, fun _ => trivial⟩

/-- Once the shutdown has been signalled, the tasks heed it exactly if every session does. -/
theorem Inv.heeding_iff_heeds (h : s.Inv) :
    s.Heeding ↔ (s.Signalled → ∀ i < s.tasks.length, s.Heeds i) := by
  constructor
  · intro hheeding hsignalled i hi
    exact hheeding.heeds hsignalled (List.getElem?_eq_getElem hi)
  · intro hheeds
    have hmem (hsignalled : s.Signalled) (task : SessionTask) (hmem : task ∈ s.tasks) :
        task.Heeding ∧ (s.main = .closed → task.Over) := by
      obtain ⟨i, hi, rfl⟩ := List.mem_iff_getElem.1 hmem
      exact h.heeding_of_heeds (List.getElem?_eq_getElem hi) (hheeds hsignalled i hi)
    have hsignalled (hclosed : s.main = .closed) : s.Signalled := by simp [Signalled, hclosed]
    exact ⟨fun hsignalled task htask => (hmem hsignalled task htask).1,
      fun hclosed task htask => (hmem (hsignalled hclosed) task htask).2 hclosed⟩

/-- In every state that a run comes to after the shutdown has been signalled, every session heeds
    it, exactly if every step of the run fits. -/
theorem heeds_iff_fits (events : List ShutdownEvent) :
    machine.Always (fun _ _ s' => s'.Signalled → ∀ i < s'.tasks.length, s'.Heeds i)
        started events ↔
      machine.Always (fun s e _ => s.Fits e) started events := by
  exact Machine.always_iff_of_keeps (I := Inv) (fun s e s' h hstep => h.step hstep)
    (fun s e s' h hheeding hstep => h.heeding_iff hheeding hstep)
    (fun s h => h.heeding_iff_heeds) inv_started heeding_started

/-! ## A shutdown that is missed -/

/-- A session that is sending a message when it is to be notified. -/
def missedShutdown : List ShutdownEvent :=
  [.accept, .task 0 (.setUp FRESH_GRANT false (.new 0) []), .task 0 .select, .notifyWaiters,
    .task 0 (.handle (.keepalive (.ok ())))]

/-- The session goes on: where its loop waits next, it may take another arm, and not that of the
    shutdown. -/
theorem missed_of_inArm : ∃ s, machine.run started missedShutdown = some s ∧ s.Signalled ∧
    (machine.step s (.task 0 .select)).isSome ∧ machine.step s (.task 0 .shutdown) = none :=
  ⟨_, rfl, by simp [Signalled], rfl, rfl⟩

end ServerShutdown

end Sardp
