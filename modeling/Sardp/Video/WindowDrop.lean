import Sardp.Library.Progress
import Sardp.Video.DisplayWindow

/-!
# Dropping the display window

The client drops its window (`H264DisplayWindow` in `display.rs`) by setting a flag, closing the
channel of the frames, and waiting for the worker to exit (`WorkerHandle` in `worker_handle.rs`);
only then it drops the end on which it receives the reports. The worker sends these with a blocking
send, to a channel with a capacity, and looks at the flag once in every turn of its loop.

So the worker exits as long as there is room for what it has left to report when the drop begins,
and for what it decodes after that (`WindowThreads.Fits`). Otherwise it waits for room that the
client, which waits for it, will not make. A run comes to no state of that kind exactly if its steps
meet the condition (`WindowThreads.finishes_iff_fits`).
-/

namespace Sardp

/-- Where the worker is in its loop. -/
inductive WorkerPlace
  | pumpMessages
  | checkClosed
  | recvTimeout
  /-- With a frame in hand that is not stale. -/
  | decodeAndPresent
  /-- Sending the reports on the frame. -/
  | blockingSend
  | exited
  deriving DecidableEq

/-- What the client has done about its window. -/
inductive OwnerPlace
  | inUse
  /-- The flag has been set. -/
  | closing
  /-- The channel of the frames has been closed, and the client waits for the worker. -/
  | joining
  | joined
  /-- The end on which the reports are received has been dropped, too. -/
  | dropped
  deriving DecidableEq

/-- The client's thread and the worker's, and what they share. -/
structure WindowThreads where
  window : DisplayWindow
  closed : Bool
  worker : WorkerPlace
  owner : OwnerPlace
  deriving DecidableEq

/-- A step of the worker. -/
inductive WorkerEvent
  /-- With whether the user has closed the window. -/
  | pumpMessages (quit : Bool)
  | checkClosed
  /-- The next frame is taken, and skipped if it is stale; or there is none in time. -/
  | recvTimeout
  /-- With the number of images, unless the decoder fails. -/
  | decodeAndPresent (images : Option ℕ)
  | blockingSend

/-- A step of one of the threads. -/
inductive WindowEvent
  | submit (frame : NumberedFrame)
  | nextTiming
  /-- The drop begins: the flag is set. -/
  | drop
  | dropSender
  | join
  | dropTimingRx
  | worker (e : WorkerEvent)

/-- The step is one of the worker's. -/
def WindowEvent.IsWorker (e : WindowEvent) : Prop := ∃ e', e = .worker e'

/-- The images that come of the step. -/
def WindowEvent.images : WindowEvent → ℕ
  | .worker (.decodeAndPresent images) => images.getD 0
  | _ => 0

namespace WindowThreads

/-- The window as it is opened. -/
def opened : WindowThreads := ⟨.new, false, .pumpMessages, .inUse⟩

/-- The worker exits, and sets the flag. -/
def exit (s : WindowThreads) : WindowThreads :=
  { s with worker := .exited, closed := true, window := { s.window with decoding := none } }

/-- A step of the worker; `none` where it is not possible. -/
def workerStep (s : WindowThreads) : WorkerEvent → Option WindowThreads
  | .pumpMessages quit =>
    if s.worker = .pumpMessages then
      some (if quit then s.exit else { s with worker := .checkClosed })
    else none
  | .checkClosed =>
    if s.worker = .checkClosed then
      some (if s.closed then s.exit else { s with worker := .recvTimeout })
    else none
  | .recvTimeout =>
    if s.worker = .recvTimeout then
      match s.window.step .take with
      | some window =>
        some { s with
          window
          worker := if window.decoding.isSome then .decodeAndPresent else .pumpMessages }
      | none =>
        -- a channel that has been closed is noticed once there are no frames left in it
        some (if s.owner = .inUse ∨ s.owner = .closing then { s with worker := .pumpMessages }
          else s.exit)
    else none
  | .decodeAndPresent images =>
    if s.worker = .decodeAndPresent then
      match images with
      | none => some s.exit
      | some images =>
        (s.window.step (.decode images)).map fun window =>
          { s with window, worker := .blockingSend }
    else none
  | .blockingSend =>
    if s.worker = .blockingSend then
      if s.window.emitting = [] then some { s with worker := .pumpMessages }
      else if s.owner = .dropped then some s.exit
      else (s.window.step .emit).map fun window => { s with window }
    else none

/-- The next report is received, or none if the worker has exited; otherwise the client waits. -/
def nextTiming (s : WindowThreads) : Option WindowThreads :=
  match s.window.timings with
  | _ :: timings => some { s with window := { s.window with timings } }
  | [] => if s.worker = .exited then some s else none

/-- A step; `none` where it is not possible. -/
def step (s : WindowThreads) : WindowEvent → Option WindowThreads
  | .submit frame =>
    if s.owner = .inUse then
      some (if s.closed then s else { s with window := s.window.submit frame })
    else none
  | .nextTiming => if s.owner = .inUse then s.nextTiming else none
  | .drop => if s.owner = .inUse then some { s with closed := true, owner := .closing } else none
  | .dropSender => if s.owner = .closing then some { s with owner := .joining } else none
  | .join =>
    if s.owner = .joining ∧ s.worker = .exited then some { s with owner := .joined } else none
  | .dropTimingRx => if s.owner = .joined then some { s with owner := .dropped } else none
  | .worker e => s.workerStep e

/-- The steps as a machine. -/
def machine : Machine WindowThreads WindowEvent := ⟨step⟩

/-! ## When the drop comes to an end -/

/-- The drop has begun. -/
def Dropping (s : WindowThreads) : Prop := s.owner ≠ .inUse

/-- How many reports have not been received. -/
def unread (s : WindowThreads) : ℕ := s.window.timings.length + s.window.emitting.length

/-- The client waits for the worker, which has not exited, and there is no step. -/
def Deadlocked (s : WindowThreads) : Prop :=
  s.owner = .joining ∧ s.worker ≠ .exited ∧ ∀ e, machine.step s e = none

/-- There is no deadlock, and the worker's steps may lead to where it has exited. -/
structure Finishes (s : WindowThreads) : Prop where
  not_deadlocked : ¬s.Deadlocked
  exits : machine.MayReach WindowEvent.IsWorker (fun s' => s'.worker = .exited) s

/-- When the drop begins, there is room for the reports that have not been sent; and after that,
    for those on every frame that is decoded. -/
def Fits (s : WindowThreads) : WindowEvent → Prop
  | .drop => s.unread ≤ TIMING_CHANNEL_CAPACITY
  | .worker (.decodeAndPresent (some images)) =>
    s.Dropping → s.window.timings.length + images ≤ TIMING_CHANNEL_CAPACITY
  | _ => True

/-- What holds of the two threads at any time. -/
structure Inv (s : WindowThreads) : Prop where
  timings : s.window.timings.length ≤ TIMING_CHANNEL_CAPACITY
  decoding : s.window.decoding.isSome ↔ s.worker = .decodeAndPresent
  emitting : s.window.emitting ≠ [] → s.worker = .blockingSend
  closed : s.Dropping → s.closed
  joined : s.owner = .joined ∨ s.owner = .dropped → s.worker = .exited

/-- Once the drop has begun, there is room for the reports that have not been sent. -/
def HasRoom (s : WindowThreads) : Prop := s.Dropping → s.unread ≤ TIMING_CHANNEL_CAPACITY

/-- How many steps the worker takes before it has exited, not counting those for the frame it may
    still decode. -/
def remaining (s : WindowThreads) : ℕ :=
  match s.worker with
  | .exited => 0
  | .checkClosed => 1
  | .pumpMessages => 2
  | .blockingSend => 3 + s.window.emitting.length
  | .decodeAndPresent => 4
  | .recvTimeout => 5

end WindowThreads

/-! ## What a step of the worker does -/

namespace DisplayWindow

variable {w w' : DisplayWindow}

theorem take_eq_some (h : w.step .take = some w') :
    w'.timings = w.timings ∧ w'.emitting = w.emitting := by
  rw [DisplayWindow.step] at h
  split_ifs at h
  split at h
  · cases h
  · split_ifs at h
    · cases h
      exact ⟨rfl, rfl⟩
    · cases h
      exact ⟨rfl, rfl⟩

theorem decode_eq_some {images : ℕ} (h : w.step (.decode images) = some w') :
    w'.timings = w.timings ∧ w'.emitting.length = w.emitting.length + images ∧
      w'.decoding = none := by
  obtain ⟨frame, -, rfl⟩ := Option.map_eq_some_iff.1 h
  exact ⟨rfl, by rw [List.length_append, List.length_replicate], rfl⟩

theorem emit_eq_some (h : w.step .emit = some w') :
    w'.timings.length = w.timings.length + 1 ∧ w.emitting.length = w'.emitting.length + 1 ∧
      w'.timings.length ≤ TIMING_CHANNEL_CAPACITY ∧ w'.decoding = w.decoding := by
  rw [DisplayWindow.step] at h
  split at h
  · cases h
  · next frame emitting hemitting =>
    split_ifs at h with hroom
    cases h
    rw [hemitting, List.length_append, List.length_singleton]
    exact ⟨rfl, rfl, hroom, rfl⟩

end DisplayWindow

namespace WindowThreads

variable {s s' : WindowThreads}

theorem nextTiming_eq_some (h : s.nextTiming = some s') : s' = s ∨
    ∃ frame timings, s.window.timings = frame :: timings ∧
      s' = { s with window := { s.window with timings } } := by
  rw [nextTiming] at h
  split at h
  · next frame timings htimings =>
    cases h
    exact .inr ⟨frame, timings, htimings, rfl⟩
  · split_ifs at h
    cases h
    exact .inl rfl

/-- What a step of the worker comes to. -/
structure Turn (s : WindowThreads) (e : WorkerEvent) (s' : WindowThreads) : Prop where
  inv : s'.Inv
  owner : s'.owner = s.owner
  unread : s'.unread = s.unread + (WindowEvent.worker e).images
  remaining : s.closed → s'.remaining + 1 ≤ s.remaining + (WindowEvent.worker e).images

/-- Anywhere but where it sends, the worker has nothing to send. -/
theorem Inv.emitting_eq_nil (h : s.Inv) (hworker : s.worker ≠ .blockingSend) :
    s.window.emitting = [] :=
  Classical.byContradiction fun hne => hworker (h.emitting hne)

theorem Inv.decoding_eq_none (h : s.Inv) (hworker : s.worker ≠ .decodeAndPresent) :
    s.window.decoding = none := by
  rw [← Option.not_isSome_iff_eq_none, h.decoding]
  exact hworker

/-- The client has not joined a worker that has not exited. -/
theorem Inv.not_joined (h : s.Inv) (hworker : s.worker ≠ .exited) :
    ¬(s.owner = .joined ∨ s.owner = .dropped) := fun howner => hworker (h.joined howner)

/-- The worker exits from where it has nothing to send. -/
theorem Inv.turn_exit (h : s.Inv) {e : WorkerEvent} (hexited : s.worker ≠ .exited)
    (hsend : s.worker ≠ .blockingSend) (himages : (WindowEvent.worker e).images = 0) :
    s.Turn e s.exit where
  inv :=
    { timings := h.timings
      decoding := by simp [exit]
      emitting := fun hne => (hne (h.emitting_eq_nil hsend)).elim
      closed := fun _ => rfl
      joined := fun _ => rfl }
  owner := rfl
  unread := by rw [himages]; rfl
  remaining _ := by
    rw [himages]
    cases hworker : s.worker <;> simp_all [remaining, exit]

/-- The worker goes on to where it has no frame in hand. -/
theorem Inv.turn_goOn (h : s.Inv) {e : WorkerEvent} {worker : WorkerPlace}
    (hdecode : s.worker ≠ .decodeAndPresent) (hemitting : s.window.emitting = [])
    (hexited : s.worker ≠ .exited) (hworker : worker ≠ .decodeAndPresent)
    (himages : (WindowEvent.worker e).images = 0)
    (hremaining : s.closed → { s with worker }.remaining + 1 ≤ s.remaining) :
    s.Turn e { s with worker } where
  inv :=
    { timings := h.timings
      decoding := by
        rw [h.decoding_eq_none hdecode]
        simpa using hworker
      emitting := fun hne => (hne hemitting).elim
      closed := h.closed
      joined := fun howner => (h.not_joined hexited howner).elim }
  owner := rfl
  unread := by rw [himages]; rfl
  remaining := by rwa [himages]

/-- The worker waits for a frame, and takes it or not. -/
theorem Inv.turn_recvTimeout (h : s.Inv) (hstep : s.workerStep .recvTimeout = some s') :
    s.Turn .recvTimeout s' := by
  have hworker : s.worker = .recvTimeout := by
    by_contra hworker
    simp [workerStep, hworker] at hstep
  have hexited : s.worker ≠ .exited := by simp [hworker]
  have hsend : s.worker ≠ .blockingSend := by simp [hworker]
  have hdecode : s.worker ≠ .decodeAndPresent := by simp [hworker]
  have hemitting := h.emitting_eq_nil hsend
  simp only [workerStep, if_pos hworker] at hstep
  cases htake : s.window.step .take with
  | none =>
    simp only [htake] at hstep
    split_ifs at hstep with howner <;> cases hstep
    · exact h.turn_goOn hdecode hemitting hexited (by decide) rfl
        (fun _ => by simp [remaining, hworker])
    · exact h.turn_exit hexited hsend rfl
  | some window =>
    simp only [htake] at hstep
    cases hstep
    obtain ⟨htimings, hemitting'⟩ := DisplayWindow.take_eq_some htake
    exact
      { inv :=
          { timings := htimings.symm ▸ h.timings
            decoding := by by_cases hsome : window.decoding.isSome <;> simp [hsome]
            emitting := fun hne => (hne (hemitting'.trans hemitting)).elim
            closed := h.closed
            joined := fun howner => (h.not_joined hexited howner).elim }
        owner := rfl
        unread := by simp [unread, htimings, hemitting', WindowEvent.images]
        remaining := fun _ => by
          by_cases hsome : window.decoding.isSome <;>
            simp [remaining, hworker, hsome, WindowEvent.images] }

/-- The frame in hand is decoded, unless the decoder fails. -/
theorem Inv.turn_decodeAndPresent (h : s.Inv) {images : Option ℕ}
    (hstep : s.workerStep (.decodeAndPresent images) = some s') :
    s.Turn (.decodeAndPresent images) s' := by
  simp only [workerStep] at hstep
  split_ifs at hstep with hworker
  have hexited : s.worker ≠ .exited := by simp [hworker]
  have hsend : s.worker ≠ .blockingSend := by simp [hworker]
  cases images with
  | none =>
    cases hstep
    exact h.turn_exit hexited hsend rfl
  | some images =>
    obtain ⟨window, hdecode, rfl⟩ := Option.map_eq_some_iff.1 hstep
    obtain ⟨htimings, hemitting, hdecoding⟩ := DisplayWindow.decode_eq_some hdecode
    exact
      { inv :=
          { timings := htimings.symm ▸ h.timings
            decoding := by simp [hdecoding]
            emitting := fun _ => rfl
            closed := h.closed
            joined := fun howner => (h.not_joined hexited howner).elim }
        owner := rfl
        unread := by simp [unread, htimings, hemitting, WindowEvent.images, Nat.add_assoc]
        remaining := fun _ => by
          simp only [remaining, hworker, hemitting, h.emitting_eq_nil hsend, List.length_nil,
            WindowEvent.images, Option.getD_some]
          omega }

/-- The next report is sent, if there is one; the client has not dropped its end as long as it
    waits for the worker. -/
theorem Inv.turn_blockingSend (h : s.Inv) (hstep : s.workerStep .blockingSend = some s') :
    s.Turn .blockingSend s' := by
  simp only [workerStep] at hstep
  split_ifs at hstep with hworker hemitting howner
  · cases hstep
    exact h.turn_goOn (by simp [hworker]) hemitting (by simp [hworker]) (by decide) rfl
      (fun _ => by simp [remaining, hworker])
  · exact (h.not_joined (by simp [hworker]) (.inr howner)).elim
  · obtain ⟨window, hemit, rfl⟩ := Option.map_eq_some_iff.1 hstep
    obtain ⟨htimings, hsent, hroom, hdecoding⟩ := DisplayWindow.emit_eq_some hemit
    exact
      { inv :=
          { timings := hroom
            decoding := by rw [hdecoding]; exact h.decoding
            emitting := fun _ => hworker
            closed := h.closed
            joined := h.joined }
        owner := rfl
        unread := by
          simp only [unread, htimings, hsent, WindowEvent.images]
          omega
        remaining := fun _ => by
          simp only [remaining, hworker, hsent, WindowEvent.images]
          omega }

theorem Inv.turn (h : s.Inv) {e : WorkerEvent} (hstep : s.workerStep e = some s') :
    s.Turn e s' := by
  cases e with
  | pumpMessages quit =>
    simp only [workerStep] at hstep
    split_ifs at hstep with hworker hquit <;> cases hstep
    · exact h.turn_exit (by simp [hworker]) (by simp [hworker]) rfl
    · exact h.turn_goOn (by simp [hworker]) (h.emitting_eq_nil (by simp [hworker]))
        (by simp [hworker]) (by decide) rfl (fun _ => by simp [remaining, hworker])
  | checkClosed =>
    simp only [workerStep] at hstep
    split_ifs at hstep with hworker hclosed <;> cases hstep
    · exact h.turn_exit (by simp [hworker]) (by simp [hworker]) rfl
    · exact h.turn_goOn (by simp [hworker]) (h.emitting_eq_nil (by simp [hworker]))
        (by simp [hworker]) (by decide) rfl (fun hclosed' => (hclosed hclosed').elim)
  | recvTimeout => exact h.turn_recvTimeout hstep
  | decodeAndPresent images => exact h.turn_decodeAndPresent hstep
  | blockingSend => exact h.turn_blockingSend hstep

/-! ## Room for the reports -/

theorem inv_opened : opened.Inv where
  timings := Nat.zero_le _
  decoding := by decide
  emitting hne := (hne rfl).elim
  closed hdropping := (hdropping rfl).elim
  joined howner := by rcases howner with howner | howner <;> cases howner

theorem hasRoom_opened : opened.HasRoom := fun hdropping => (hdropping rfl).elim

/-- The client goes on with the drop once the flag has been set, and past the join once the worker
    has exited. -/
theorem Inv.withOwner (h : s.Inv) {owner : OwnerPlace} (hclosed : s.closed)
    (hjoined : owner = .joined ∨ owner = .dropped → s.worker = .exited) :
    { s with owner }.Inv :=
  ⟨h.timings, h.decoding, h.emitting, fun _ => hclosed, hjoined⟩

theorem Inv.step (h : s.Inv) {e : WindowEvent} (hstep : machine.step s e = some s') : s'.Inv := by
  cases e with
  | submit frame =>
    simp only [machine, WindowThreads.step] at hstep
    split_ifs at hstep <;> cases hstep
    · exact h
    · exact ⟨h.timings, h.decoding, h.emitting, h.closed, h.joined⟩
  | nextTiming =>
    simp only [machine, WindowThreads.step] at hstep
    split_ifs at hstep
    rcases nextTiming_eq_some hstep with rfl | ⟨frame, timings, htimings, rfl⟩
    · exact h
    · have hle := h.timings
      rw [htimings, List.length_cons] at hle
      exact ⟨Nat.le_of_succ_le hle, h.decoding, h.emitting, h.closed, h.joined⟩
  | drop =>
    simp only [machine, WindowThreads.step] at hstep
    split_ifs at hstep
    cases hstep
    have hclosed : { s with closed := true }.Inv :=
      ⟨h.timings, h.decoding, h.emitting, fun _ => rfl, h.joined⟩
    exact hclosed.withOwner rfl (by rintro (howner | howner) <;> cases howner)
  | dropSender =>
    simp only [machine, WindowThreads.step] at hstep
    split_ifs at hstep with howner
    cases hstep
    exact h.withOwner (h.closed (by simp [Dropping, howner]))
      (by rintro (howner | howner) <;> cases howner)
  | join =>
    simp only [machine, WindowThreads.step] at hstep
    split_ifs at hstep with howner
    cases hstep
    exact h.withOwner (h.closed (by simp [Dropping, howner.1])) fun _ => howner.2
  | dropTimingRx =>
    simp only [machine, WindowThreads.step] at hstep
    split_ifs at hstep with howner
    cases hstep
    exact h.withOwner (h.closed (by simp [Dropping, howner])) fun _ => h.joined (.inl howner)
  | worker e => exact (h.turn hstep).inv

/-- Where a step of the worker leaves room: the reports on what it decodes are new. -/
theorem Inv.hasRoom_iff_of_worker (h : s.Inv) {e : WorkerEvent}
    (hstep : s.workerStep e = some s') : s'.HasRoom ↔
      (s.Dropping → s.unread + (WindowEvent.worker e).images ≤ TIMING_CHANNEL_CAPACITY) := by
  have hturn := h.turn hstep
  rw [HasRoom, Dropping, hturn.owner, hturn.unread]
  rfl

/-- A step keeps the room exactly if it fits. -/
theorem Inv.hasRoom_iff (h : s.Inv) (hroom : s.HasRoom) {e : WindowEvent}
    (hstep : machine.step s e = some s') : s'.HasRoom ↔ s.Fits e := by
  cases e with
  | submit frame =>
    simp only [machine, WindowThreads.step] at hstep
    split_ifs at hstep with howner <;> cases hstep
    · exact iff_of_true hroom trivial
    · exact iff_of_true (fun hdropping => (hdropping howner).elim) trivial
  | nextTiming =>
    simp only [machine, WindowThreads.step] at hstep
    split_ifs at hstep with howner
    rcases nextTiming_eq_some hstep with rfl | ⟨frame, timings, -, rfl⟩
    · exact iff_of_true hroom trivial
    · exact iff_of_true (fun hdropping => (hdropping howner).elim) trivial
  | drop =>
    simp only [machine, WindowThreads.step] at hstep
    split_ifs at hstep
    cases hstep
    exact ⟨fun hroom' => hroom' (by simp [Dropping]), fun hfits _ => hfits⟩
  | dropSender | join | dropTimingRx =>
    -- the drop has begun before
    simp only [machine, WindowThreads.step] at hstep
    split_ifs at hstep with howner
    cases hstep
    exact iff_of_true (fun _ => hroom (by simp [Dropping, howner])) trivial
  | worker e =>
    rw [h.hasRoom_iff_of_worker hstep]
    cases e with
    | decodeAndPresent images =>
      cases images with
      | none => exact iff_of_true hroom trivial
      | some images =>
        have hworker : s.worker = .decodeAndPresent := by
          by_contra hworker
          simp [machine, WindowThreads.step, workerStep, hworker] at hstep
        rw [unread, h.emitting_eq_nil (by simp [hworker])]
        exact Iff.rfl
    | pumpMessages | checkClosed | recvTimeout | blockingSend => exact iff_of_true hroom trivial

/-! ## The end of the drop -/

/-- As long as there is room, the worker has a step until it has exited. -/
theorem Inv.exists_workerStep (h : s.Inv) (hdropping : s.Dropping) (hroom : s.HasRoom)
    (hexited : s.worker ≠ .exited) :
    ∃ e, (s.workerStep e).isSome ∧ (WindowEvent.worker e).images = 0 := by
  cases hworker : s.worker with
  | pumpMessages => exact ⟨.pumpMessages false, by simp [workerStep, hworker], rfl⟩
  | checkClosed => exact ⟨.checkClosed, by simp [workerStep, hworker], rfl⟩
  | recvTimeout =>
    refine ⟨.recvTimeout, ?_, rfl⟩
    cases htake : s.window.step .take <;> simp [workerStep, hworker, htake]
  | decodeAndPresent => exact ⟨.decodeAndPresent none, by simp [workerStep, hworker], rfl⟩
  | blockingSend =>
    refine ⟨.blockingSend, ?_, rfl⟩
    cases hemitting : s.window.emitting with
    | nil => simp [workerStep, hworker, hemitting]
    | cons frame emitting =>
      -- what is left to send has room, and the client has not dropped its end
      have hlt : s.window.timings.length < TIMING_CHANNEL_CAPACITY := by
        have hunread := hroom hdropping
        rw [unread, hemitting, List.length_cons] at hunread
        omega
      have howner : s.owner ≠ .dropped := fun howner => h.not_joined hexited (.inr howner)
      simp [workerStep, hworker, hemitting, howner, DisplayWindow.step, hlt]
  | exited => exact (hexited hworker).elim

/-- With room for the reports the drop comes to an end. -/
theorem Inv.finishes (h : s.Inv) (hdropping : s.Dropping) (hroom : s.HasRoom) : s.Finishes where
  not_deadlocked := by
    rintro ⟨-, hexited, hnone⟩
    obtain ⟨e, hstep, -⟩ := h.exists_workerStep hdropping hroom hexited
    have hnone' : s.workerStep e = none := hnone (.worker e)
    rw [hnone'] at hstep
    cases hstep
  exits := by
    refine Machine.mayReach_of_measure (I := fun s => s.Inv ∧ s.Dropping ∧ s.HasRoom) remaining
      (fun s ⟨h, hdropping, hroom⟩ hexited => ?_) ⟨h, hdropping, hroom⟩
    obtain ⟨e, hsome, himages⟩ := h.exists_workerStep hdropping hroom hexited
    obtain ⟨s', hstep⟩ := Option.isSome_iff_exists.1 hsome
    have hturn := h.turn hstep
    have hlt := hturn.remaining (h.closed hdropping)
    rw [himages, Nat.add_zero] at hlt
    refine ⟨.worker e, s', ⟨e, rfl⟩, hstep, ⟨hturn.inv, ?_, ?_⟩, hlt⟩
    · rwa [Dropping, hturn.owner]
    · rw [h.hasRoom_iff_of_worker hstep, himages]
      exact hroom

/-- Without room for the reports the worker never exits: what it has left to send stays more than
    there is room for. -/
theorem Inv.not_finishes (h : s.Inv) (hroom : ¬s.HasRoom) : ¬s.Finishes := by
  have hover : ∀ s : WindowThreads, ¬s.HasRoom ↔ s.Dropping ∧ TIMING_CHANNEL_CAPACITY < s.unread :=
    fun s => by rw [HasRoom, Classical.not_imp, Nat.not_le]
  intro hfinishes
  refine Machine.not_mayReach (I := fun s => s.Inv ∧ ¬s.HasRoom) ?_ ?_ ⟨h, hroom⟩ hfinishes.exits
  · rintro s e s' ⟨e, rfl⟩ ⟨h, hroom⟩ hstep
    refine ⟨(h.turn hstep).inv, fun hroom' => hroom fun hdropping => ?_⟩
    exact (Nat.le_add_right ..).trans ((h.hasRoom_iff_of_worker hstep).1 hroom' hdropping)
  · rintro s ⟨h, hroom⟩ hexited
    have hlt := ((hover s).1 hroom).2
    rw [unread, h.emitting_eq_nil (by simp [hexited])] at hlt
    exact Nat.not_lt_of_le h.timings hlt

/-- Once the drop has begun, it comes to an end from a state exactly if there is room. -/
theorem Inv.hasRoom_iff_finishes (h : s.Inv) : s.HasRoom ↔ (s.Dropping → s.Finishes) := by
  constructor
  · exact fun hroom hdropping => h.finishes hdropping hroom
  · intro hfinishes
    by_contra hroom
    have hdropping : s.Dropping := by
      by_contra hinUse
      exact hroom fun hdropping => (hinUse hdropping).elim
    exact h.not_finishes hroom (hfinishes hdropping)

/-- Once the drop has begun, the worker takes no more steps than it has left, and one for every
    image of what it decodes. -/
theorem Inv.length_le_of_run (h : s.Inv) (hdropping : s.Dropping) {events : List WindowEvent}
    (hevents : ∀ e ∈ events, e.IsWorker) (hrun : machine.run s events = some s') :
    events.length ≤ s.remaining + (events.map WindowEvent.images).sum := by
  have hlen := Machine.length_le_of_measure (I := fun s => s.Inv ∧ s.Dropping) remaining
    WindowEvent.images ?_ hevents ⟨h, hdropping⟩ hrun
  · exact (Nat.le_add_right ..).trans hlen
  · rintro s e s' ⟨e, rfl⟩ ⟨h, hdropping⟩ hstep
    have hturn := h.turn hstep
    exact ⟨⟨hturn.inv, by rwa [Dropping, hturn.owner]⟩, hturn.remaining (h.closed hdropping)⟩

/-- In every state that a run comes to after the drop has begun, there is no deadlock and the worker
    may go on until it has exited, exactly if every step of the run fits. -/
theorem finishes_iff_fits (events : List WindowEvent) :
    machine.Always (fun _ _ s' => s'.Dropping → s'.Finishes) opened events ↔
      machine.Always (fun s e _ => s.Fits e) opened events := by
  exact Machine.always_iff_of_keeps (I := Inv) (fun s e s' h hstep => h.step hstep)
    (fun s e s' h hroom hstep => h.hasRoom_iff hroom hstep)
    (fun s h => h.hasRoom_iff_finishes) inv_opened hasRoom_opened

/-! ## A deadlock -/

/-- A full channel, a report to send, and the client waiting: nobody has a step. -/
theorem deadlocked_of_full (howner : s.owner = .joining) (hworker : s.worker = .blockingSend)
    (hemitting : s.window.emitting ≠ [])
    (hfull : s.window.timings.length = TIMING_CHANNEL_CAPACITY) : s.Deadlocked := by
  have hsend : s.window.step .emit = none := by
    rw [DisplayWindow.step]
    split
    · rfl
    · rw [hfull, if_neg (Nat.lt_irrefl _)]
  refine ⟨howner, by simp [hworker], fun e => ?_⟩
  cases e with
  | worker e =>
    cases e <;> simp [machine, WindowThreads.step, workerStep, hworker, hemitting, howner, hsend]
  | _ => simp [machine, WindowThreads.step, howner, hworker]

/-- A frame that is submitted, taken and decoded to one image. -/
def shown (frame : NumberedFrame) : List WindowEvent :=
  [.submit frame, .worker (.pumpMessages false), .worker .checkClosed, .worker .recvTimeout,
    .worker (.decodeAndPresent (some 1)), .worker .blockingSend, .worker .blockingSend]

/-- As many frames as the channel has room for, without a report being received; one more is being
    decoded as the drop begins. -/
def unreadDrop : List WindowEvent :=
  (List.range TIMING_CHANNEL_CAPACITY).flatMap (fun n => shown (⟨0, n⟩, n)) ++
    [.submit (⟨0, TIMING_CHANNEL_CAPACITY⟩, TIMING_CHANNEL_CAPACITY),
      .worker (.pumpMessages false), .worker .checkClosed, .worker .recvTimeout, .drop,
      .worker (.decodeAndPresent (some 1)), .dropSender]

/-- The client does not receive the reports on its frames, and then drops its window: it waits for
    the worker, and the worker for the client. -/
theorem deadlocked_of_unread : ∃ s, machine.run opened unreadDrop = some s ∧ s.Deadlocked := by
  have hrun : (machine.run opened unreadDrop).isSome ∧
      ∀ s ∈ machine.run opened unreadDrop, s.owner = .joining ∧ s.worker = .blockingSend ∧
        s.window.emitting ≠ [] ∧ s.window.timings.length = TIMING_CHANNEL_CAPACITY := by
    decide +kernel
  obtain ⟨s, hs⟩ := Option.isSome_iff_exists.1 hrun.1
  obtain ⟨howner, hworker, hemitting, hfull⟩ := hrun.2 s hs
  exact ⟨s, hs, deadlocked_of_full howner hworker hemitting hfull⟩

end WindowThreads

end Sardp
