import Sardp.Input.Injection
import Sardp.Server.Session

/-!
# The input of a session

The loop of an active session injects the input of its client, and releases what is down when the
input stream ends. When the loop returns, the connection releases what is down, and so it does when
its input is dropped, wherever it is by then (`InputSession.machine`).

So nothing stays down (`InputSession.no_key_stays_down`): whatever is done to the input, what it
has recorded is what the sink has last been told to press, and in a session the sink has last been
told to release every key and button, unless the loop runs and reads an input stream.
-/

namespace Sardp

open Histories

/-! ## Rounds without input -/

/-- A message on the input stream, or its end. -/
def LoopEvent.isInput : LoopEvent → Bool
  | .input _ => true
  | _ => false

namespace Session

variable {s : Session}

@[simp] theorem inputReceiver_finish (result : Except ConnError Unit) :
    (s.finish result).inputReceiver = s.inputReceiver := rfl

@[simp] theorem inputReceiver_writeControl (message : ControlOut) (written : Written) :
    (s.writeControl message written).inputReceiver = s.inputReceiver := by
  cases written <;> rfl

@[simp] theorem inputReceiver_sendFrame (written : Written) :
    (s.sendFrame written).inputReceiver = s.inputReceiver := by
  cases written <;> rfl

@[simp] theorem inputReceiver_reopenVideoGeneration (opening : OpenOutcome) :
    (s.reopenVideoGeneration opening).inputReceiver = s.inputReceiver := by
  simp only [reopenVideoGeneration]
  split
  · rfl
  · split <;> rfl

theorem inputReceiver_handleControl (message : Except StreamReadError ControlMessage)
    (written : Written) : (s.handleControl message written).1.inputReceiver = s.inputReceiver := by
  simp only [handleControl, handleFileTransferRequest]
  split
  case h_6 => repeat' split; all_goals simp
  all_goals simp

theorem inputReceiver_handleFeedback (nowUs : ℕ)
    (message : Except ReadFeedbackError FeedbackMessage) (opening : OpenOutcome) :
    (s.handleFeedback nowUs message opening).inputReceiver = s.inputReceiver := by
  simp only [handleFeedback]
  split
  case h_2 | h_4 => split <;> simp
  all_goals simp

theorem inputReceiver_handleInput_some (handled : Except ReasonCode Unit) :
    (s.handleInput (some handled)).inputReceiver = s.inputReceiver := by
  cases handled <;> rfl

/-- A round that is not about the input stream ends none. -/
theorem inputReceiver_of_handle {e : LoopEvent} (he : e.isInput = false)
    (h : (s.handle e).1.inputReceiver = false) : s.inputReceiver = false := by
  cases e with
  | shutdown | idleTimeout | frameTick => exact h
  | control message written => rwa [← inputReceiver_handleControl message written]
  | keepalive written => rwa [← inputReceiver_writeControl .keepAlive written]
  | command command written =>
    simp only [handle, handleCommand] at h
    split at h
    · simpa using h
    · split at h <;> exact h
  | frame frame written =>
    simp only [handle, handleFrame] at h
    split_ifs at h
    · exact h
    · exact h
    · split at h <;> simpa using h
  | desktopFrame frame written =>
    simp only [handle, handleDesktopFrame] at h
    split at h
    · exact h
    · exact h
    · split_ifs at h <;> simpa using h
  | feedback nowUs message opening => rwa [← inputReceiver_handleFeedback nowUs message opening]
  | audioTick opening written =>
    simp only [handle, handleAudioTick] at h
    split at h
    · split at h
      · exact h
      · cases written <;> exact h
    · exact h
  | incomingUni accepted config =>
    simp only [handle, handleIncomingUni] at h
    split at h
    · exact h
    · split_ifs at h
      · cases config <;> exact h
      · exact h
    · cases h
    · exact h
  | input handled => exact Bool.noConfusion he
  | clipboardFormats accepted =>
    simp only [handle, handleClipboardFormats] at h
    split at h
    · exact h
    · split_ifs at h <;> exact h

end Session

/-! ## Connections -/

/-- Where a connection is with its input: in the loop or at its end, after the loop has returned,
    or past the end of the input. -/
inductive InputPhase
  | looping
  | returned
  | dropped
  deriving DecidableEq

/-- A session in its loop, and its input. -/
structure InputSession where
  session : Session
  injection : InputInjection
  phase : InputPhase

/-- What happens to the input of a session. -/
inductive InputSessionEvent
  /-- A round of the loop that is not about the input stream. -/
  | round (e : LoopEvent)
  | message (message : InputMessage)
  | streamEnded
  /-- The loop returns, however it has ended. -/
  | returned
  /-- The connection ends, or is given up in the middle. -/
  | dropped

namespace InputSession

/-- The session as its loop starts. -/
def start (grantedPermissions : PermissionSet) (synthetic : Bool) (videoChannel : VideoChannel)
    (opened : List ℕ) : InputSession :=
  ⟨.start grantedPermissions synthetic videoChannel opened, .new, .looping⟩

def step (s : InputSession) : InputSessionEvent → Option InputSession
  | .round e =>
    if s.phase = .looping ∧ e.isInput = false then
      (Session.machine.step s.session e).map fun session => { s with session }
    else none
  | .message message =>
    let handled := s.injection.handle message s.session.permissionSm
    if s.phase = .looping then
      (Session.machine.step s.session (.input (some handled.1))).map fun session =>
        { s with session, injection := handled.2 }
    else none
  | .streamEnded =>
    if s.phase = .looping then
      (Session.machine.step s.session (.input none)).map fun session =>
        { s with session, injection := s.injection.releaseAll }
    else none
  | .returned =>
    if s.phase = .looping ∧ s.session.result ≠ none then
      some { s with injection := s.injection.releaseAll, phase := .returned }
    else none
  | .dropped =>
    if s.phase ≠ .dropped then
      some { s with injection := s.injection.releaseAll, phase := .dropped }
    else none

/-- The steps as a machine. -/
def machine : Machine InputSession InputSessionEvent := ⟨step⟩

/-- What is recorded is down, and nothing is unless the loop runs and reads an input stream. -/
structure Inv (s : InputSession) : Prop where
  tracks : s.injection.Tracks
  up : s.session.inputReceiver = false ∨ s.phase ≠ .looping →
    ∀ k, ¬Down SinkEvent.signal s.injection.emitted k

variable {s s' : InputSession} {e : InputSessionEvent}

theorem inv_start (grantedPermissions : PermissionSet) (synthetic : Bool)
    (videoChannel : VideoChannel) (opened : List ℕ) :
    (start grantedPermissions synthetic videoChannel opened).Inv where
  tracks := InputInjection.tracks_new
  up _ _ := not_down_nil

/-- Releasing what is down restores the invariant, whatever becomes of the rest. -/
theorem Inv.releaseAll (h : s.Inv) (session : Session) (phase : InputPhase) :
    Inv ⟨session, s.injection.releaseAll, phase⟩ where
  tracks := h.tracks.releaseAll
  up _ := h.tracks.not_down_releaseAll

theorem Inv.step (h : s.Inv) (hstep : machine.step s e = some s') : s'.Inv := by
  cases e with
  | round e =>
    simp only [machine, InputSession.step, Option.ite_none_right_eq_some, Option.map_eq_some_iff,
      Session.machine_step] at hstep
    obtain ⟨⟨hphase, he⟩, _, ⟨-, rfl⟩, rfl⟩ := hstep
    exact ⟨h.tracks, fun hup => h.up (hup.imp_left (Session.inputReceiver_of_handle he))⟩
  | message message =>
    simp only [machine, InputSession.step, Option.ite_none_right_eq_some, Option.map_eq_some_iff,
      Session.machine_step] at hstep
    obtain ⟨hphase, _, ⟨⟨-, -, hreceiver⟩, rfl⟩, rfl⟩ := hstep
    refine ⟨h.tracks.handle message _, fun hup => ?_⟩
    -- the stream goes on to be read
    rcases hup with hup | hup
    · have hread := hreceiver.symm.trans
        ((Session.inputReceiver_handleInput_some _).symm.trans hup)
      cases hread
    · exact absurd hphase hup
  | streamEnded =>
    simp only [machine, InputSession.step, Option.ite_none_right_eq_some, Option.map_eq_some_iff]
      at hstep
    obtain ⟨-, session, -, rfl⟩ := hstep
    exact h.releaseAll session s.phase
  | returned =>
    obtain ⟨-, hstep⟩ := Option.ite_none_right_eq_some.1 hstep
    exact Option.some.inj hstep ▸ h.releaseAll s.session .returned
  | dropped =>
    obtain ⟨-, hstep⟩ := Option.ite_none_right_eq_some.1 hstep
    exact Option.some.inj hstep ▸ h.releaseAll s.session .dropped

end InputSession

/-- Every key and button that occurs in what the sink was given has last been released. -/
def Released (emitted : List SinkEvent) : Prop :=
  ∀ k, (∃ e ∈ emitted, e.signal k ≠ none) → last SinkEvent.signal emitted k = some false

theorem released_of_up {emitted : List SinkEvent} (h : ∀ k, ¬Down SinkEvent.signal emitted k) :
    Released emitted := fun k => last_eq_some_false (h k)

/-- After any calls, the keys and buttons recorded are those that the sink has last been told to
    press, and releasing them, each once, leaves every one released. So in every run of a
    session, nothing is down unless its loop runs and reads an input stream. -/
theorem InputSession.no_key_stays_down :
    (∀ calls : List InputInjection.Call,
      let s := InputInjection.run calls
      (∀ k, k ∈ s.pressed ↔ Down SinkEvent.signal s.emitted k) ∧
        Released s.releaseAll.emitted ∧
        ∃ releases : List Release, releases.Nodup ∧
          (∀ k ∈ releases, Down SinkEvent.signal s.emitted k) ∧
          s.releaseAll.emitted = s.emitted ++ releases.map Release.emission) ∧
      ∀ (grantedPermissions : PermissionSet) (synthetic : Bool) (videoChannel : VideoChannel)
        (opened : List ℕ) (events : List InputSessionEvent) (s : InputSession),
        machine.run (start grantedPermissions synthetic videoChannel opened) events = some s →
        (∀ k, k ∈ s.injection.pressed ↔ Down SinkEvent.signal s.injection.emitted k) ∧
          (s.session.inputReceiver = false ∨ s.phase ≠ .looping → Released s.injection.emitted) := by
  constructor
  · intro calls s
    have htracks : s.Tracks := InputInjection.tracks_run calls
    refine ⟨htracks, released_of_up htracks.not_down_releaseAll, s.pressed.takeReleases.1,
      s.pressed.nodup_takeReleases, fun k hk => (htracks k).1 ?_, ?_⟩
    · exact PressedInputs.mem_takeReleases.1 hk
    · rw [InputInjection.releaseAll_eq]
  · intro grantedPermissions synthetic videoChannel opened events s hrun
    have hinv : s.Inv := Machine.run_invariant (fun _ _ _ h hstep => h.step hstep)
      (inv_start grantedPermissions synthetic videoChannel opened) hrun
    exact ⟨hinv.tracks, fun hup => released_of_up (hinv.up hup)⟩

end Sardp
