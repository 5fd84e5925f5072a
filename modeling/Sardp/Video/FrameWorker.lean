import Sardp.Library.Conservation
import Sardp.Library.Progress
import Sardp.Video.DesktopSource

/-!
# The worker of a frame source

The frames of a source come from a thread of its own (`FrameWorker` in `frame_source.rs`). Its body
is different on every platform: it may report that it is ready, offer frames, and return or panic,
at any time and in any order. `spawn` waits for the report, but not for ever, and the worker is
stopped and joined when it is dropped. All of this is once there is a thread: where the system cannot
create one, `spawn` fails at once, and nothing else happens.

* What `spawn` returns is what the body was the first to tell (`FrameWorker.verdict`), unless the
  time is up first; and the thread has ended where `spawn` has failed for another reason, or the
  worker has been dropped (`FrameWorker.spawn_answers`).
* The frames that were not dropped for want of room are received in order, and the channel is closed
  after the last of them (`FrameWorker.frames_conserved`).
* Whoever joins the thread has told it to stop, and waits for the body alone: it offers frames
  as before, and once it has returned, the join comes to an end (`FrameWorker.join_finishes`).

The desktop as a source (`DesktopSource`) is the body of such a worker: what it does is what the
worker does (`DesktopSource.RunsIn.step`).
-/

namespace Sardp

/-- Why a source has failed. -/
inductive SourceError
  | init (message : String)
  | worker (message : String)
  deriving DecidableEq

namespace FrameWorker

/-- What happened to a frame that was offered. -/
inductive SendOutcome
  | sent
  | dropped
  /-- Nobody will receive it. -/
  | closed
  deriving DecidableEq

/-- Where the thread is. -/
inductive BodyPlace
  | running
  | returned (result : Except String Unit)
  /-- The end of the thread. -/
  | leaving
  | exited

/-- Where whoever has spawned the thread is. -/
inductive OwnerPlace (I : Type)
  /-- In `spawn`, for the report. -/
  | waiting
  /-- In `spawn`, for the thread to end before the error is returned. -/
  | failing (e : SourceError)
  | failed (e : SourceError)
  /-- The time was up, and the thread is on its own. -/
  | detached (e : SourceError)
  | owning (info : I)
  /-- Dropping the worker, and waiting for the thread to end. -/
  | dropping (info : I)
  | dropped (info : I)

end FrameWorker

/-- The thread, its owner, and what they share. -/
structure FrameWorker (T I : Type) where
  capacity : ℕ
  stop : Bool
  /-- The report may still be made. -/
  ready : Bool
  /-- The report on its way. -/
  report : Option (Except String I)
  body : FrameWorker.BodyPlace
  /-- The frames that have been sent and not been received. -/
  frames : List T
  /-- How many frames found no room. -/
  dropped : ℕ
  owner : FrameWorker.OwnerPlace I

namespace FrameWorker

/-- A step of the thread or of its owner. -/
inductive Event (T I : Type)
  | reportReady (info : I)
  | send (frame : T)
  | bodyReturns (result : Except String Unit)
  | bodyPanics
  /-- The error of the body is reported, if nothing else has been, or logged. -/
  | handleResult
  /-- What the thread holds is dropped. -/
  | exit
  | recv
  | recvDisconnected
  | recvTimeout
  | join
  | next
  /-- Whoever has the flag sets it. -/
  | setStop
  | drop

variable {T I : Type}

/-- A worker as it is spawned, its thread created. -/
def spawned (capacity : ℕ) : FrameWorker T I where
  capacity := max capacity 1
  stop := false
  ready := true
  report := none
  body := .running
  frames := []
  dropped := 0
  owner := .waiting

/-- There is someone to receive the frames. -/
def hasReceiver (s : FrameWorker T I) : Bool :=
  match s.owner with
  | .waiting | .failing _ | .owning _ | .dropping _ => true
  | .failed _ | .detached _ | .dropped _ => false

/-- What happens to a frame that is offered. -/
def outcome (s : FrameWorker T I) : SendOutcome :=
  if s.hasReceiver then if s.frames.length < s.capacity then .sent else .dropped else .closed

/-- Offering a frame, without waiting. -/
def offer (s : FrameWorker T I) (frame : T) : FrameWorker T I :=
  match s.outcome with
  | .sent => { s with frames := s.frames ++ [frame] }
  | .dropped => { s with dropped := s.dropped + 1 }
  | .closed => s

/-- Only the first report counts; nobody gets it once the time is up. -/
def makeReport (s : FrameWorker T I) (report : Except String I) : FrameWorker T I :=
  match s.ready, s.owner with
  | true, .waiting => { s with ready := false, report := some report }
  | _, _ => { s with ready := false }

/-- What the owner makes of the report. -/
def receive (s : FrameWorker T I) : Except String I → FrameWorker T I
  | .ok info => { s with report := none, owner := .owning info }
  | .error e => { s with report := none, stop := true, owner := .failing (.init e) }

def EXITED_WITHOUT_REPORTING : SourceError := .init "worker exited without reporting readiness"

/-- What the thread has done when its body has returned. -/
def handleResult (s : FrameWorker T I) : Except String Unit → FrameWorker T I
  | .ok () => { s with body := .leaving }
  | .error e => if s.ready then { s.makeReport (.error e) with body := .leaving }
    else { s with body := .leaving }

/-- A step; `none` where it is not possible. The time `spawn` waits is up with an error of its
    own. -/
def step (timedOut : SourceError) (s : FrameWorker T I) : Event T I → Option (FrameWorker T I)
  | .reportReady info =>
    match s.body with
    | .running => some (s.makeReport (.ok info))
    | _ => none
  | .send frame =>
    match s.body with
    | .running => some (s.offer frame)
    | _ => none
  | .bodyReturns result =>
    match s.body with
    | .running => some { s with body := .returned result }
    | _ => none
  | .bodyPanics =>
    match s.body with
    | .running => some { s with body := .leaving }
    | _ => none
  | .handleResult =>
    match s.body with
    | .returned result => some (s.handleResult result)
    | _ => none
  | .exit =>
    match s.body with
    | .leaving => some { s with ready := false, body := .exited }
    | _ => none
  | .recv =>
    match s.owner with
    | .waiting => s.report.map s.receive
    | _ => none
  | .recvDisconnected =>
    match s.owner, s.report, s.ready with
    | .waiting, none, false =>
      some { s with stop := true, owner := .failing EXITED_WITHOUT_REPORTING }
    | _, _, _ => none
  | .recvTimeout =>
    match s.owner, s.report with
    -- the thread may be stuck, and is not waited for
    | .waiting, none => some { s with stop := true, owner := .detached timedOut }
    | _, _ => none
  | .join =>
    match s.owner, s.body with
    | .failing e, .exited => some { s with owner := .failed e }
    | .dropping info, .exited => some { s with owner := .dropped info }
    | _, _ => none
  | .next =>
    match s.owner, s.frames with
    | .owning _, _ :: frames => some { s with frames }
    | _, _ => none
  | .setStop => some { s with stop := true }
  | .drop =>
    match s.owner with
    | .owning info => some { s with stop := true, owner := .dropping info }
    | _ => none

/-- The steps as a machine. -/
def machine (timedOut : SourceError) : Machine (FrameWorker T I) (Event T I) := ⟨step timedOut⟩

/-- What a step does. -/
theorem step_eq_some {timedOut : SourceError} {s s' : FrameWorker T I} {e : Event T I} :
    (machine timedOut).step s e = some s' ↔
      match e with
      | .reportReady info => s.body = .running ∧ s.makeReport (.ok info) = s'
      | .send frame => s.body = .running ∧ s.offer frame = s'
      | .bodyReturns result => s.body = .running ∧ { s with body := .returned result } = s'
      | .bodyPanics => s.body = .running ∧ { s with body := .leaving } = s'
      | .handleResult => ∃ result, s.body = .returned result ∧ s.handleResult result = s'
      | .exit => s.body = .leaving ∧ { s with ready := false, body := .exited } = s'
      | .recv => s.owner = .waiting ∧ ∃ report, s.report = some report ∧ s.receive report = s'
      | .recvDisconnected => s.owner = .waiting ∧ s.report = none ∧ s.ready = false ∧
          { s with stop := true, owner := .failing EXITED_WITHOUT_REPORTING } = s'
      | .recvTimeout => s.owner = .waiting ∧ s.report = none ∧
          { s with stop := true, owner := .detached timedOut } = s'
      | .join => s.body = .exited ∧
          ((∃ e, s.owner = .failing e ∧ { s with owner := .failed e } = s') ∨
            ∃ info, s.owner = .dropping info ∧ { s with owner := .dropped info } = s')
      | .next => (∃ info, s.owner = .owning info) ∧
          ∃ frame frames, s.frames = frame :: frames ∧ { s with frames } = s'
      | .setStop => { s with stop := true } = s'
      | .drop => ∃ info, s.owner = .owning info ∧
          { s with stop := true, owner := .dropping info } = s' := by
  cases e with
  | recv | recvTimeout =>
    cases howner : s.owner <;> cases hreport : s.report <;> simp [machine, step, howner, hreport]
  | recvDisconnected =>
    cases howner : s.owner <;> cases hreport : s.report <;> cases hready : s.ready <;>
      simp [machine, step, howner, hreport, hready]
  | join =>
    cases howner : s.owner <;> cases hbody : s.body <;> simp [machine, step, howner, hbody]
  | next =>
    cases howner : s.owner <;> cases hframes : s.frames <;>
      simp [machine, step, howner, hframes]
  | drop => cases howner : s.owner <;> simp [machine, step, howner]
  | setStop => simp [machine, step]
  | reportReady | send | bodyReturns | bodyPanics | handleResult | exit =>
    cases hbody : s.body <;> simp [machine, step, hbody]

/-! ## What `spawn` returns -/

/-- What a body tells whoever waits for it. -/
inductive Verdict (I : Type)
  | ready (info : I)
  | failed (e : String)
  /-- It has ended without a word. -/
  | silent

/-- What the body tells by a step, unless it has told something before. -/
def Event.verdict : Event T I → Option (Verdict I)
  | .reportReady info => some (.ready info)
  | .bodyReturns (.error e) => some (.failed e)
  | .bodyReturns (.ok ()) | .bodyPanics => some .silent
  | _ => none

/-- What the body is the first to tell. -/
def verdict (es : List (Event T I)) : Option (Verdict I) := es.findSome? Event.verdict

/-- The error that `spawn` makes of it. -/
def Verdict.error : Verdict I → Option SourceError
  | .ready _ => none
  | .failed e => some (.init e)
  | .silent => some EXITED_WITHOUT_REPORTING

/-- What the report says. -/
def Verdict.ofReport : Except String I → Verdict I
  | .ok info => .ready info
  | .error e => .failed e

/-- What `spawn` has returned, or is about to, is what the body was the first to tell; it has failed
    otherwise only if the time was up, and not before the thread has ended. -/
def Answers (timedOut : SourceError) (v : Option (Verdict I)) (s : FrameWorker T I) : Prop :=
  match s.owner with
  | .waiting => True
  | .failing e => ∃ told, v = some told ∧ told.error = some e
  | .failed e => (∃ told, v = some told ∧ told.error = some e) ∧ s.body = .exited
  | .detached e => e = timedOut
  | .owning info | .dropping info => v = some (.ready info)
  | .dropped info => v = some (.ready info) ∧ s.body = .exited

/-- The owner waits for the thread to end. -/
def Joining (s : FrameWorker T I) : Prop :=
  match s.owner with
  | .failing _ | .dropping _ => True
  | .waiting | .failed _ | .detached _ | .owning _ | .dropped _ => False

/-- What the thread is about to tell. -/
def Tells (v : Option (Verdict I)) (s : FrameWorker T I) : Prop :=
  match s.body with
  | .running => v = none
  | .returned (.error e) => v = some (.failed e)
  | .returned (.ok ()) | .leaving => v = some .silent
  | .exited => False

/-- What holds of a worker and of what its body was the first to tell. -/
structure Inv (timedOut : SourceError) (v : Option (Verdict I)) (s : FrameWorker T I) : Prop where
  tells : s.ready → s.Tells v
  /-- Something has been told once the report has been made. -/
  told : s.ready = false → v ≠ none
  report : ∀ report ∈ s.report, s.ready = false ∧ v = some (.ofReport report)
  /-- The report has been made and not received, or there will be none. -/
  silent : s.owner = .waiting → s.report = none → s.ready = false → v = some .silent
  answers : s.Answers timedOut v
  stopped : s.Joining → s.stop

variable {timedOut : SourceError} {v : Option (Verdict I)} {s s' : FrameWorker T I}
  {e : Event T I}

theorem verdict_append_singleton (es : List (Event T I)) (e : Event T I) :
    verdict (es ++ [e]) = (verdict es).or e.verdict := by
  simp [verdict, List.findSome?_append]

/-- Before the body has told anything else, nothing else has been told. -/
theorem Inv.or_eq (h : Inv timedOut v s) (w : Option (Verdict I)) (hready : s.ready = false) :
    v.or w = v := by
  obtain ⟨told, rfl⟩ := Option.ne_none_iff_exists'.1 (h.told hready)
  rfl

/-- The answer stays what it is whatever the thread does. -/
theorem Answers.of_owner_eq (h : s.Answers timedOut v) (howner : s'.owner = s.owner)
    (hbody : s.body = .exited → s'.body = .exited) (w : Option (Verdict I)) :
    s'.Answers timedOut (v.or w) := by
  rw [Answers] at h ⊢
  rw [howner]
  cases howner : s.owner with
  | waiting => trivial
  | detached e => simpa only [howner] using h
  | failing e =>
    simp only [howner] at h ⊢
    obtain ⟨told, rfl, htold⟩ := h
    exact ⟨told, rfl, htold⟩
  | failed e =>
    simp only [howner] at h ⊢
    obtain ⟨⟨told, rfl, htold⟩, hexited⟩ := h
    exact ⟨⟨told, rfl, htold⟩, hbody hexited⟩
  | owning info | dropping info =>
    simp only [howner] at h ⊢
    rw [h, Option.some_or]
  | dropped info =>
    simp only [howner] at h ⊢
    rw [h.1, Option.some_or]
    exact ⟨rfl, hbody h.2⟩

theorem Joining.of_owner_eq (h : s'.Joining) (howner : s'.owner = s.owner) : s.Joining := by
  rw [Joining] at h ⊢
  rwa [← howner]

/-- What the thread does leaves the owner alone, and it tells no more than it is about to. -/
structure ThreadStep (v w : Option (Verdict I)) (s s' : FrameWorker T I) : Prop where
  owner : s'.owner = s.owner
  stop : s.stop → s'.stop
  exited : s.body = .exited → s'.body = .exited
  tells : s'.ready → s.ready ∧ s'.Tells (v.or w)
  /-- The report is made of what has been told. -/
  report : s.ready → s'.ready = false → v.or w ≠ none ∧
    (∀ report ∈ s'.report, v.or w = some (.ofReport report)) ∧
    (s.owner = .waiting → s'.report = none → v.or w = some .silent)
  /-- And nothing is reported after that. -/
  after : s.ready = false → s'.ready = false ∧ s'.report = s.report
  before : s'.ready → s'.report = s.report

theorem Inv.of_threadStep (h : Inv timedOut v s) {w : Option (Verdict I)}
    (hs' : ThreadStep v w s s') : Inv timedOut (v.or w) s' where
  tells hready := (hs'.tells hready).2
  told hready := by
    cases hbefore : s.ready with
    | true => exact (hs'.report hbefore hready).1
    | false =>
      rw [h.or_eq w hbefore]
      exact h.told hbefore
  report report hreport := by
    cases hbefore : s.ready with
    | true =>
      cases hready : s'.ready with
      | true =>
        rw [hs'.before hready] at hreport
        cases (h.report report hreport).1.symm.trans hbefore
      | false => exact ⟨rfl, (hs'.report hbefore hready).2.1 report hreport⟩
    | false =>
      obtain ⟨hready, heq⟩ := hs'.after hbefore
      rw [heq] at hreport
      rw [h.or_eq w hbefore]
      exact ⟨hready, (h.report report hreport).2⟩
  silent howner hreport hready := by
    rw [hs'.owner] at howner
    cases hbefore : s.ready with
    | true => exact (hs'.report hbefore hready).2.2 howner hreport
    | false =>
      rw [(hs'.after hbefore).2] at hreport
      rw [h.or_eq w hbefore]
      exact h.silent howner hreport hbefore
  answers := h.answers.of_owner_eq hs'.owner hs'.exited w
  stopped hjoining := hs'.stop (h.stopped (hjoining.of_owner_eq hs'.owner))

/-- A step of the thread that reports nothing. -/
theorem threadStep_of_silent {w : Option (Verdict I)}
    (howner : s'.owner = s.owner) (hstop : s.stop → s'.stop) (hready : s'.ready = s.ready)
    (hreport : s'.report = s.report) (hexited : s.body = .exited → s'.body = .exited)
    (htells : s.ready → s'.Tells (v.or w)) : ThreadStep v w s s' where
  owner := howner
  stop := hstop
  exited := hexited
  tells hready' := ⟨hready ▸ hready', htells (hready ▸ hready')⟩
  report hbefore hafter := by rw [hready, hbefore] at hafter; cases hafter
  after hbefore := ⟨hready.trans hbefore, hreport⟩
  before _ := hreport

/-- Making the report of what has been told. -/
theorem Inv.threadStep_makeReport (h : Inv timedOut v s) {w : Option (Verdict I)}
    {report : Except String I} {body : BodyPlace} (hbody : s.body ≠ .exited)
    (hw : s.ready → v.or w = some (.ofReport report)) :
    ThreadStep v w s { s.makeReport report with body } := by
  have hnone : s.ready = true → s.report = none := by
    intro hready
    refine Option.eq_none_iff_forall_not_mem.2 fun report hreport => ?_
    cases hready.symm.trans (h.report report hreport).1
  unfold makeReport
  split
  · next hready howner =>
    exact
      { owner := rfl
        stop := id
        exited := fun hexited => (hbody hexited).elim
        tells := nofun
        report := fun _ _ => ⟨by simp [hw hready], fun report' hreport' => by
          cases hreport'
          exact hw hready, fun _ hnone => by cases hnone⟩
        after := fun hafter => by cases hready.symm.trans hafter
        before := nofun }
  · next hother =>
    refine ⟨rfl, id, fun hexited => (hbody hexited).elim, nofun, fun hready _ => ?_,
      fun _ => ⟨rfl, rfl⟩, nofun⟩
    refine ⟨by simp [hw hready], fun report' hreport' => ?_, fun howner _ => ?_⟩
    · rw [hnone hready] at hreport'
      cases hreport'
    · exact (hother hready howner).elim

/-- Offering a frame reports nothing. -/
theorem offer_eq (s : FrameWorker T I) (frame : T) : ∃ frames dropped,
    s.offer frame = { s with frames, dropped } := by
  rw [offer]
  cases s.outcome with
  | sent => exact ⟨_, _, rfl⟩
  | dropped => exact ⟨_, _, rfl⟩
  | closed => exact ⟨s.frames, s.dropped, rfl⟩

theorem Inv.threadStep_handleResult (h : Inv timedOut v s) {result : Except String Unit}
    (hbody : s.body = .returned result) : ThreadStep v none s (s.handleResult result) := by
  have hexited : s.body ≠ .exited := by simp [hbody]
  have htells := h.tells
  simp only [Tells, hbody] at htells
  cases result with
  | ok =>
    refine threadStep_of_silent rfl id rfl rfl (fun hexited' => (hexited hexited').elim)
      fun hready => ?_
    rw [Option.or_none]
    exact htells hready
  | error e =>
    rw [handleResult]
    split_ifs with hready
    · refine h.threadStep_makeReport hexited fun _ => ?_
      rw [Option.or_none]
      exact htells hready
    · exact threadStep_of_silent rfl id rfl rfl (fun hexited' => (hexited hexited').elim)
        fun hready' => (hready hready').elim

theorem Inv.threadStep_exit (h : Inv timedOut v s) (hbody : s.body = .leaving) :
    ThreadStep v none s { s with ready := false, body := .exited } where
  owner := rfl
  stop := id
  exited _ := rfl
  tells := nofun
  report hready _ := by
    have htells : v = some .silent := by simpa only [Tells, hbody] using h.tells hready
    rw [Option.or_none, htells]
    refine ⟨nofun, fun report hreport => ?_, fun _ _ => rfl⟩
    cases hready.symm.trans (h.report report hreport).1
  after _ := ⟨rfl, rfl⟩
  before := nofun

/-- Every step keeps the invariant. -/
theorem Inv.step (h : Inv timedOut v s) (hstep : (machine timedOut).step s e = some s') :
    Inv timedOut (v.or e.verdict) s' := by
  have hstep := step_eq_some.1 hstep
  cases e with
  | reportReady info =>
    obtain ⟨hbody, rfl⟩ := hstep
    have htells : s.ready → v = none := by simpa only [Tells, hbody] using h.tells
    have hmake : s.makeReport (.ok info) = { s.makeReport (.ok info) with body := s.body } := by
      unfold makeReport
      split <;> rfl
    rw [hmake]
    refine h.of_threadStep (h.threadStep_makeReport (by simp [hbody]) fun hready => ?_)
    rw [htells hready]
    rfl
  | send frame =>
    obtain ⟨hbody, rfl⟩ := hstep
    obtain ⟨frames, dropped, hoffer⟩ := s.offer_eq frame
    rw [hoffer]
    refine h.of_threadStep (threadStep_of_silent rfl id rfl rfl id fun hready => ?_)
    exact (Option.or_none (o := v)).symm ▸ h.tells hready
  | bodyReturns result =>
    obtain ⟨hbody, rfl⟩ := hstep
    refine h.of_threadStep (threadStep_of_silent rfl id rfl rfl (by simp [hbody]) fun hready => ?_)
    have htells : v = none := by simpa only [Tells, hbody] using h.tells hready
    rw [htells]
    cases result <;> rfl
  | bodyPanics =>
    obtain ⟨hbody, rfl⟩ := hstep
    refine h.of_threadStep (threadStep_of_silent rfl id rfl rfl (by simp [hbody]) fun hready => ?_)
    have htells : v = none := by simpa only [Tells, hbody] using h.tells hready
    rw [htells]
    rfl
  | handleResult =>
    obtain ⟨result, hbody, rfl⟩ := hstep
    exact h.of_threadStep (h.threadStep_handleResult hbody)
  | exit =>
    obtain ⟨hbody, rfl⟩ := hstep
    exact h.of_threadStep (h.threadStep_exit hbody)
  | next =>
    obtain ⟨-, frame, frames, -, rfl⟩ := hstep
    refine h.of_threadStep (threadStep_of_silent rfl id rfl rfl id fun hready => ?_)
    exact (Option.or_none (o := v)).symm ▸ h.tells hready
  | setStop =>
    subst hstep
    refine h.of_threadStep (threadStep_of_silent rfl (fun _ => rfl) rfl rfl id fun hready => ?_)
    exact (Option.or_none (o := v)).symm ▸ h.tells hready
  | recv =>
    obtain ⟨-, report, hreport, rfl⟩ := hstep
    obtain ⟨hready, hv⟩ := h.report report hreport
    rw [show (Event.recv : Event T I).verdict = none from rfl, Option.or_none]
    cases report with
    | ok info =>
      exact ⟨fun hready' => h.tells hready', h.told, nofun, nofun, hv, fun hjoining => hjoining.elim⟩
    | error e =>
      exact ⟨fun hready' => h.tells hready', h.told, nofun, nofun, ⟨_, hv, rfl⟩, fun _ => rfl⟩
  | recvDisconnected =>
    obtain ⟨howner, hreport, hready, rfl⟩ := hstep
    rw [show (Event.recvDisconnected : Event T I).verdict = none from rfl, Option.or_none]
    have hv := h.silent howner hreport hready
    exact ⟨fun hready' => h.tells hready', h.told, h.report, nofun, ⟨_, hv, rfl⟩, fun _ => rfl⟩
  | recvTimeout =>
    obtain ⟨howner, hreport, rfl⟩ := hstep
    rw [show (Event.recvTimeout : Event T I).verdict = none from rfl, Option.or_none]
    exact ⟨fun hready' => h.tells hready', h.told, h.report, nofun, rfl, fun _ => rfl⟩
  | join =>
    rw [show (Event.join : Event T I).verdict = none from rfl, Option.or_none]
    have hanswers := h.answers
    rw [Answers] at hanswers
    obtain ⟨hbody, ⟨e, howner, rfl⟩ | ⟨info, howner, rfl⟩⟩ := hstep <;> simp only [howner] at hanswers
    · exact ⟨fun hready' => h.tells hready', h.told, h.report, nofun, ⟨hanswers, hbody⟩,
        fun hjoining => hjoining.elim⟩
    · exact ⟨fun hready' => h.tells hready', h.told, h.report, nofun, ⟨hanswers, hbody⟩,
        fun hjoining => hjoining.elim⟩
  | drop =>
    obtain ⟨info, howner, rfl⟩ := hstep
    rw [show (Event.drop : Event T I).verdict = none from rfl, Option.or_none]
    have hanswers := h.answers
    simp only [Answers, howner] at hanswers
    exact ⟨fun hready' => h.tells hready', h.told, h.report, nofun, hanswers, fun _ => rfl⟩

theorem inv_of_run {capacity : ℕ} {es : List (Event T I)}
    (hrun : (machine timedOut).run (spawned capacity) es = some s) :
    Inv timedOut (verdict es) s := by
  refine Machine.run_history (R := fun es s => Inv timedOut (verdict es) s)
    (fun es s e s' h hstep => ?_) ?_ hrun
  · rw [verdict_append_singleton]
    exact h.step hstep
  · exact ⟨fun _ => rfl, nofun, nofun, nofun, trivial, fun hjoining => hjoining.elim⟩

/-- Once there is a thread, what `spawn` returns is what the body was the first to tell, unless the
    time is up first. If it fails otherwise, and when the worker has been dropped, the thread has
    ended. -/
theorem spawn_answers {capacity : ℕ} {es : List (Event T I)}
    (hrun : (machine timedOut).run (spawned capacity) es = some s) :
    s.Answers timedOut (verdict es) := (inv_of_run hrun).answers

/-- A body that fails after its report does not fail `spawn`, and one that fails before does. -/
theorem spawn_answers_failing :
    let late : List (Event ℕ ℕ) := [.reportReady 7, .bodyReturns (.error "lost"), .recv]
    let early : List (Event ℕ ℕ) := [.send 3, .bodyReturns (.error "lost"), .handleResult, .exit,
      .recv, .join]
    (∃ s, (machine (.init "slow")).run (spawned 4) late = some s ∧ s.owner = .owning 7 ∧
      s.Answers (.init "slow") (verdict late)) ∧
    ∃ s, (machine (.init "slow")).run (spawned 4) early = some s ∧
      s.owner = .failed (.init "lost") ∧ s.Answers (.init "slow") (verdict early) := by
  intro late early
  have hlate : (machine (.init "slow")).run (spawned 4) late =
    some ⟨4, false, false, none, .returned (.error "lost"), [], 0, .owning 7⟩ := rfl
  have hearly : (machine (.init "slow")).run (spawned 4) early =
    some ⟨4, true, false, none, .exited, [3], 0, .failed (.init "lost")⟩ := rfl
  exact ⟨⟨_, hlate, rfl, spawn_answers hlate⟩, ⟨_, hearly, rfl, spawn_answers hearly⟩⟩

/-! ## The frames -/

/-- The frame that is offered, if this is what happens to it. -/
def offered (outcome : SendOutcome) (s : FrameWorker T I) : Event T I → List T
  | .send frame => if s.outcome = outcome then [frame] else []
  | _ => []

/-- The frame that is received. -/
def received (s : FrameWorker T I) : Event T I → List T
  | .next => s.frames.head?.toList
  | _ => []

/-- What the owner gets when it asks for the next frame: nothing for now, that there will be none,
    or a frame. -/
def nextResult (s : FrameWorker T I) : Option (Option T) :=
  match s.frames, s.body with
  | frame :: _, _ => some (some frame)
  | [], .exited => some none
  | [], _ => none

theorem frames_makeReport (s : FrameWorker T I) (report : Except String I) :
    (s.makeReport report).frames = s.frames ∧ (s.makeReport report).dropped = s.dropped ∧
      (s.makeReport report).capacity = s.capacity := by
  unfold makeReport
  split <;> exact ⟨rfl, rfl, rfl⟩

theorem frames_handleResult (s : FrameWorker T I) (result : Except String Unit) :
    (s.handleResult result).frames = s.frames ∧ (s.handleResult result).dropped = s.dropped ∧
      (s.handleResult result).capacity = s.capacity := by
  cases result with
  | ok => exact ⟨rfl, rfl, rfl⟩
  | error e =>
    rw [handleResult]
    split_ifs
    · exact s.frames_makeReport _
    · exact ⟨rfl, rfl, rfl⟩

theorem frames_receive (s : FrameWorker T I) (report : Except String I) :
    (s.receive report).frames = s.frames ∧ (s.receive report).dropped = s.dropped ∧
      (s.receive report).capacity = s.capacity := by
  cases report <;> exact ⟨rfl, rfl, rfl⟩

/-- What a step does with the frames. -/
structure FrameStep (s : FrameWorker T I) (e : Event T I) (s' : FrameWorker T I) : Prop where
  conserves : Machine.Conserves (offered .sent) received FrameWorker.frames s e s'
  dropped : s'.dropped = s.dropped + (offered .dropped s e).length
  capacity : s'.capacity = s.capacity
  fits : s.frames.length ≤ s.capacity → s'.frames.length ≤ s.capacity

/-- A step that leaves the frames alone. -/
theorem frameStep_of_eq (hsent : offered .sent s e = []) (hdropped : offered .dropped s e = [])
    (hreceived : received s e = []) (h : s'.frames = s.frames ∧ s'.dropped = s.dropped ∧
      s'.capacity = s.capacity) : FrameStep s e s' where
  conserves := by rw [Machine.Conserves, hsent, hreceived, h.1, List.append_nil, List.nil_append]
  dropped := by rw [hdropped, h.2.1]; rfl
  capacity := h.2.2
  fits hfits := h.1.symm ▸ hfits

theorem frameStep_send (s : FrameWorker T I) (frame : T) :
    FrameStep s (.send frame) (s.offer frame) := by
  have hsent : s.outcome = .sent → s.frames.length < s.capacity := by
    intro houtcome
    rw [outcome] at houtcome
    split_ifs at houtcome with hreceiver hroom
    exact hroom
  rw [offer]
  cases houtcome : s.outcome with
  | sent =>
    refine ⟨?_, by simp [offered, houtcome], rfl, fun _ => ?_⟩
    · simp [Machine.Conserves, offered, received, houtcome]
    · rw [List.length_append, List.length_singleton]
      exact hsent houtcome
  | dropped =>
    refine ⟨?_, by simp [offered, houtcome], rfl, id⟩
    simp [Machine.Conserves, offered, received, houtcome]
  | closed =>
    refine frameStep_of_eq ?_ ?_ rfl ⟨rfl, rfl, rfl⟩
    · simp [offered, houtcome]
    · simp [offered, houtcome]

theorem frameStep (hstep : (machine timedOut).step s e = some s') : FrameStep s e s' := by
  have hstep := step_eq_some.1 hstep
  cases e with
  | send frame =>
    obtain ⟨-, rfl⟩ := hstep
    exact s.frameStep_send frame
  | next =>
    obtain ⟨-, frame, frames, hframes, rfl⟩ := hstep
    refine ⟨?_, rfl, rfl, fun hfits => ?_⟩
    · simp [Machine.Conserves, offered, received, hframes]
    · rw [hframes, List.length_cons] at hfits
      exact Nat.le_of_succ_le hfits
  | reportReady info =>
    obtain ⟨-, rfl⟩ := hstep
    exact frameStep_of_eq rfl rfl rfl (s.frames_makeReport _)
  | handleResult =>
    obtain ⟨result, -, rfl⟩ := hstep
    exact frameStep_of_eq rfl rfl rfl (s.frames_handleResult result)
  | recv =>
    obtain ⟨-, report, -, rfl⟩ := hstep
    exact frameStep_of_eq rfl rfl rfl (s.frames_receive report)
  | bodyReturns | bodyPanics | exit =>
    obtain ⟨-, rfl⟩ := hstep
    exact frameStep_of_eq rfl rfl rfl ⟨rfl, rfl, rfl⟩
  | recvDisconnected =>
    obtain ⟨-, -, -, rfl⟩ := hstep
    exact frameStep_of_eq rfl rfl rfl ⟨rfl, rfl, rfl⟩
  | recvTimeout =>
    obtain ⟨-, -, rfl⟩ := hstep
    exact frameStep_of_eq rfl rfl rfl ⟨rfl, rfl, rfl⟩
  | join =>
    obtain ⟨-, ⟨e, -, rfl⟩ | ⟨info, -, rfl⟩⟩ := hstep <;>
      exact frameStep_of_eq rfl rfl rfl ⟨rfl, rfl, rfl⟩
  | setStop =>
    subst hstep
    exact frameStep_of_eq rfl rfl rfl ⟨rfl, rfl, rfl⟩
  | drop =>
    obtain ⟨info, -, rfl⟩ := hstep
    exact frameStep_of_eq rfl rfl rfl ⟨rfl, rfl, rfl⟩

/-- The frames that are sent are received in order, and no more wait than may; those that find no
    room are counted. The owner is told that there will be no other frame only when it has received
    all that were sent. -/
theorem frames_conserved {capacity : ℕ} {es : List (Event T I)}
    (hrun : (machine timedOut).run (spawned capacity) es = some s) :
    (machine timedOut).outputs (offered .sent) (spawned capacity) es =
        (machine timedOut).outputs received (spawned capacity) es ++ s.frames ∧
      s.frames.length ≤ max capacity 1 ∧
      s.dropped = ((machine timedOut).outputs (offered .dropped) (spawned capacity) es).length ∧
      (s.nextResult = some none →
        (machine timedOut).outputs (offered .sent) (spawned capacity) es =
          (machine timedOut).outputs received (spawned capacity) es) := by
  have hconserved := Machine.outputs_conserved (fun s e s' hs' => (frameStep hs').conserves) hrun
  have hdropped := Machine.add_length_outputs (μ := dropped)
    (fun s e s' hs' => (frameStep hs').dropped) hrun
  have hfits : s.frames.length ≤ s.capacity ∧ s.capacity = max capacity 1 := by
    refine Machine.run_invariant (I := fun s => s.frames.length ≤ s.capacity ∧
      s.capacity = max capacity 1) (fun s e s' h hs' => ?_) ⟨Nat.zero_le _, rfl⟩ hrun
    rw [(frameStep hs').capacity]
    exact ⟨(frameStep hs').fits h.1, h.2⟩
  refine ⟨hconserved, hfits.2 ▸ hfits.1, hdropped.trans (Nat.zero_add _), fun hnone => ?_⟩
  have hframes : s.frames = [] := by
    rw [nextResult] at hnone
    split at hnone
    · cases hnone
    · assumption
    · cases hnone
  rwa [hframes, List.append_nil] at hconserved

/-- Room for one frame, and two of them offered before the first is received. -/
theorem frames_conserved_full :
    let es : List (Event ℕ ℕ) := [.reportReady 7, .send 1, .send 2, .recv, .next, .send 3,
      .bodyReturns (.ok ()), .handleResult, .exit, .next]
    ∃ s, (machine (.init "slow")).run (spawned 0) es = some s ∧ s.dropped = 1 ∧
      s.nextResult = some none ∧
      (machine (.init "slow")).outputs (offered .sent) (spawned 0) es =
        (machine (.init "slow")).outputs received (spawned 0) es := by
  intro es
  have hrun : (machine (.init "slow")).run (spawned 0) es =
    some ⟨1, false, false, none, .exited, [], 1, .owning 7⟩ := rfl
  exact ⟨_, hrun, rfl, rfl, (frames_conserved hrun).2.2.2 rfl⟩

/-! ## Joining the thread -/

/-- The step is one of the body. -/
def Event.OfBody : Event T I → Prop
  | .reportReady _ | .send _ | .bodyReturns _ | .bodyPanics => True
  | _ => False

/-- How many steps there are to the end of the thread. -/
def BodyPlace.remaining : BodyPlace → ℕ
  | .running => 3
  | .returned _ => 2
  | .leaving => 1
  | .exited => 0

/-- How many steps there are before the thread is joined. -/
def remaining (s : FrameWorker T I) : ℕ :=
  match s.owner with
  | .failing _ | .dropping _ => s.body.remaining + 1
  | .waiting | .failed _ | .detached _ | .owning _ | .dropped _ => 0

theorem Joining.remaining_eq (h : s.Joining) : s.remaining = s.body.remaining + 1 := by
  rw [Joining] at h
  rw [remaining]
  cases howner : s.owner <;> simp_all

/-- Nothing the body does waits for the owner. -/
theorem exists_step_of_running {e : Event T I} (he : e.OfBody) (hbody : s.body = .running) :
    ∃ s', (machine timedOut).step s e = some s' := by
  cases e with
  | reportReady | send | bodyReturns | bodyPanics => exact ⟨_, step_eq_some.2 ⟨hbody, rfl⟩⟩
  | handleResult | exit | recv | recvDisconnected | recvTimeout | join | next | setStop | drop =>
    exact he.elim

/-- As long as the body runs, whoever joins the thread waits. -/
theorem joining_of_not_ofBody (he : ¬e.OfBody) (hbody : s.body = .running) (hjoining : s.Joining)
    (hstep : (machine timedOut).step s e = some s') : s'.body = .running ∧ s'.Joining := by
  have hstep := step_eq_some.1 hstep
  have hwaiting : s.owner ≠ .waiting := fun howner => by simp only [Joining, howner] at hjoining
  cases e with
  | reportReady | send | bodyReturns | bodyPanics => exact (he trivial).elim
  | handleResult =>
    obtain ⟨result, hreturned, -⟩ := hstep
    cases hbody.symm.trans hreturned
  | exit => cases hbody.symm.trans hstep.1
  | join => cases hbody.symm.trans hstep.1
  | recv | recvDisconnected | recvTimeout => exact (hwaiting hstep.1).elim
  | next =>
    obtain ⟨-, frame, frames, -, rfl⟩ := hstep
    exact ⟨hbody, hjoining⟩
  | setStop =>
    subst hstep
    exact ⟨hbody, hjoining⟩
  | drop =>
    obtain ⟨info, -, rfl⟩ := hstep
    exact ⟨hbody, trivial⟩

/-- Once the body has returned, the thread comes to its end and is joined. -/
theorem mayReach_joined (hbody : s.body ≠ .running) :
    (machine timedOut).MayReach (fun e => ¬e.OfBody) (fun s => ¬s.Joining) s := by
  refine Machine.mayReach_of_measure (I := fun s => s.body ≠ .running) remaining
    (fun s hbody hjoining => ?_) hbody
  have hjoining := not_not.1 hjoining
  rw [hjoining.remaining_eq]
  cases hplace : s.body with
  | running => exact (hbody hplace).elim
  | returned result =>
    have hleaving : (s.handleResult result).body = .leaving ∧
        (s.handleResult result).owner = s.owner := by
      cases result with
      | ok => exact ⟨rfl, rfl⟩
      | error e =>
        rw [handleResult, makeReport]
        split_ifs
        · split <;> exact ⟨rfl, rfl⟩
        · exact ⟨rfl, rfl⟩
    refine ⟨.handleResult, s.handleResult result, nofun, step_eq_some.2 ⟨result, hplace, rfl⟩, ?_⟩
    rw [(hjoining.of_owner_eq hleaving.2.symm).remaining_eq, hleaving.1]
    exact ⟨nofun, Nat.lt_succ_self _⟩
  | leaving =>
    have hjoining' : Joining { s with ready := false, body := .exited } := hjoining
    refine ⟨.exit, _, nofun, step_eq_some.2 ⟨hplace, rfl⟩, nofun, ?_⟩
    rw [hjoining'.remaining_eq]
    exact Nat.lt_succ_self _
  | exited =>
    have hjoined : ∃ s', (machine timedOut).step s .join = some s' ∧ s'.body = s.body ∧
        s'.remaining = 0 := by
      rw [Joining] at hjoining
      cases howner : s.owner with
      | failing e => exact ⟨_, step_eq_some.2 ⟨hplace, .inl ⟨e, howner, rfl⟩⟩, rfl, rfl⟩
      | dropping info => exact ⟨_, step_eq_some.2 ⟨hplace, .inr ⟨info, howner, rfl⟩⟩, rfl, rfl⟩
      | waiting | failed | detached | owning | dropped =>
        simp only [howner] at hjoining
    obtain ⟨s', hstep, hbody', hzero⟩ := hjoined
    refine ⟨.join, s', nofun, hstep, by simp [hbody', hplace], ?_⟩
    rw [hzero]
    exact Nat.succ_pos _

/-- Whoever joins the thread has told it to stop, and the body goes on as before: its frames are
    sent or dropped, and nothing it does waits. The join comes to an end exactly if it returns. -/
theorem join_finishes {capacity : ℕ} {es : List (Event T I)}
    (hrun : (machine timedOut).run (spawned capacity) es = some s) (hjoining : s.Joining) :
    s.stop ∧ s.outcome ≠ .closed ∧
      (s.body = .running → ∀ e : Event T I, e.OfBody → ∃ s', (machine timedOut).step s e = some s') ∧
      ((machine timedOut).MayReach (fun e => ¬e.OfBody) (fun s => ¬s.Joining) s ↔
        s.body ≠ .running) := by
  have hinv := inv_of_run hrun
  have hreceiver : s.hasReceiver = true := by
    rw [Joining] at hjoining
    rw [hasReceiver]
    cases howner : s.owner <;> simp_all
  refine ⟨hinv.stopped hjoining, ?_, fun hbody e he => exists_step_of_running he hbody, ?_⟩
  · rw [outcome, if_pos hreceiver]
    split_ifs <;> nofun
  · refine ⟨fun hreach hbody => ?_, fun hbody => mayReach_joined hbody⟩
    -- as long as the body runs, the owner stays where it is
    refine Machine.not_mayReach (I := fun s : FrameWorker T I => s.body = .running ∧ s.Joining)
      (fun s e s' he h hstep => ?_) (fun s h => not_not.2 h.2) ⟨hbody, hjoining⟩ hreach
    exact joining_of_not_ofBody he h.1 h.2 hstep

/-- A worker that is dropped while its body runs, and has a frame for it still. -/
theorem join_finishes_dropping :
    let es : List (Event ℕ ℕ) := [.reportReady 7, .recv, .drop, .send 1]
    ∃ s, (machine (.init "slow")).run (spawned 4) es = some s ∧ s.stop ∧ s.frames = [1] ∧
      ¬(machine (.init "slow")).MayReach (fun e => ¬e.OfBody) (fun s => ¬s.Joining) s := by
  intro es
  have hrun : (machine (.init "slow")).run (spawned 4) es =
    some ⟨4, true, false, none, .running, [1], 0, .dropping 7⟩ := rfl
  obtain ⟨hstop, -, -, hiff⟩ := join_finishes hrun trivial
  exact ⟨_, hrun, hstop, rfl, fun hreach => hiff.1 hreach rfl⟩

end FrameWorker

/-! ## The desktop -/

namespace DesktopSource

open FrameWorker

variable {timedOut : SourceError} {s s' : DesktopSource} {w : FrameWorker EncodedFrame Unit}

/-- The source is the body of the worker, and its channel is that of the worker. -/
structure RunsIn (s : DesktopSource) (w : FrameWorker EncodedFrame Unit) : Prop where
  capacity : s.channel.capacity = some w.capacity
  frames : s.channel.waiting = w.frames
  receiver : w.hasReceiver
  running : s.stopped = false → w.body = .running
  ended : s.stopped → w.body ≠ .running

/-- A frame finds room in the channel of the source if it does in that of the worker. -/
theorem RunsIn.offer (h : s.RunsIn w) (frame : EncodedFrame) :
    (s.channel.offer frame).waiting = (w.offer frame).frames ∧
      ((FrameSender.send s.channel frame).1 = .dropped ↔ w.outcome = .dropped) := by
  have hroom : s.channel.hasRoom = decide (w.frames.length < w.capacity) := by
    rw [Passage.hasRoom, h.capacity, h.frames]
    rfl
  rw [Passage.offer, FrameWorker.offer, FrameSender.send, outcome, if_pos h.receiver, hroom]
  by_cases hlt : w.frames.length < w.capacity <;> simp [hlt, h.frames]

/-- What the source does is what the worker does. -/
theorem RunsIn.step {e : SourceEvent} (h : s.RunsIn w)
    (hstep : DesktopSource.machine.step s e = some s') :
    ∃ es w', (FrameWorker.machine timedOut).run w es = some w' ∧ s'.RunsIn w' := by
  obtain ⟨hstopped, hstep⟩ := step_eq_some.1 hstep
  have hbody := h.running hstopped
  cases e with
  | capture =>
    subst hstep
    exact ⟨[], w, rfl, h.capacity, h.frames, h.receiver, h.running, h.ended⟩
  | refuse =>
    obtain ⟨-, rfl⟩ := hstep
    exact ⟨[], w, rfl, h.capacity, h.frames, h.receiver, h.running, h.ended⟩
  | encode isIdr | skip =>
    obtain ⟨forced, encoder, -, rfl⟩ := hstep
    exact ⟨[], w, rfl, h.capacity, h.frames, h.receiver, h.running, h.ended⟩
  | send =>
    obtain ⟨frame, handoff, -, rfl⟩ := hstep
    obtain ⟨frames, dropped, hoffer⟩ := w.offer_eq frame
    refine ⟨[.send frame], w.offer frame, ?_, ?_⟩
    · exact Machine.run_cons_eq_some.2 ⟨_, FrameWorker.step_eq_some.2 ⟨hbody, rfl⟩, rfl⟩
    · have hframes := (h.offer frame).1
      rw [hoffer] at hframes ⊢
      exact ⟨h.capacity, hframes, h.receiver, h.running, h.ended⟩
  | stop =>
    subst hstep
    refine ⟨[.bodyReturns (.ok ())], { w with body := .returned (.ok ()) }, ?_, ?_⟩
    · exact Machine.run_cons_eq_some.2 ⟨_, FrameWorker.step_eq_some.2 ⟨hbody, rfl⟩, rfl⟩
    · exact ⟨h.capacity, h.frames, h.receiver, nofun, fun _ => nofun⟩

/-- The frame the session takes is the one the worker hands to its owner. -/
theorem RunsIn.nextFrame {frame : EncodedFrame} {info : Unit} (h : s.RunsIn w)
    (howner : w.owner = .owning info) (hnext : s.nextFrame = some (frame, s')) :
    w.nextResult = some (some frame) ∧
      ∃ w', (FrameWorker.machine timedOut).step w .next = some w' ∧ s'.RunsIn w' := by
  obtain ⟨channel, htake, rfl⟩ := nextFrame_eq_some.1 hnext
  obtain ⟨waiting, hwaiting, rfl⟩ := Passage.take_eq_some.1 htake
  have hframes : w.frames = frame :: waiting := h.frames.symm.trans hwaiting
  refine ⟨by rw [nextResult, hframes], { w with frames := waiting }, ?_, ?_⟩
  · exact FrameWorker.step_eq_some.2 ⟨⟨info, howner⟩, frame, waiting, hframes, rfl⟩
  · exact ⟨h.capacity, rfl, h.receiver, h.running, h.ended⟩

end DesktopSource

end Sardp
