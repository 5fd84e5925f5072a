import Sardp.Library.Conservation
import Sardp.Server.ConnError

/-!
# The streams of the server

The server opens two kinds of streams during a session: one for every instance, and one for the
audio it plays. The loop of the client (`sardp-client.rs`) accepts them in two places, and each of
them takes the next stream, whatever it is: an arm of the loop waits for the audio as long as there
is none, and the arm that reads the instance waits for the next one once it has read that the
stream of the old one is reset (`accept_next_generation`). Only then is the kind of the stream read,
and one of the other kind ends the session.

The streams and the reset are independent, so that it depends on when they become visible who takes
what. The arms are asked in order, that of the instance before that of the audio; but a reset that
is not visible yet does not help (`ClientSession.streams_taken_by_other_arm`). And the arm of the
audio drops the stream it has accepted when another arm is the first to have something.

All is well (`ClientSession.Delivers`) exactly if the next stream is always one of the kind that is
waited for (`ClientSession.Sole`) and no other arm has something while one is being read
(`ClientSession.streams_dispatched_iff`).
-/

namespace Sardp

/-- Why a session of the client ended. -/
inductive AppError
  | quic (e : Quinn.ConnectionError)
  | connect
  | handshake (e : HandshakeError)
  | timeSync (e : TimeSyncError)
  | video (e : VideoError)
  | read (e : StreamReadError)
  | write (e : Quinn.WriteError)
  | decode
  | join
  | violation (reason : ReasonCode)
  | audio (e : AudioError)
  | clipboard (e : ClipboardSessionError)
  | display (message : String)
  deriving DecidableEq

/-- A stream of another kind was accepted than the one waited for. -/
def AppError.isWrongStreamKind : AppError → Bool
  | .video .wrongStreamKind | .audio .wrongStreamKind => true
  | _ => false

/-- The loop has ended because a stream of another kind was accepted. -/
def endedByWrongStreamKind : Option (Except AppError Unit) → Bool
  | some (.error e) => e.isWrongStreamKind
  | _ => false

/-- What the loop of the client waits for. -/
inductive ClientPhase
  /-- Whatever happens next. -/
  | selecting
  /-- The next instance. -/
  | reopening
  deriving DecidableEq

/-- The kind of the streams waited for. -/
def ClientPhase.kind : ClientPhase → StreamKind
  | .selecting => .audioPlayback
  | .reopening => .video

/-- The error of a stream that is waited for. -/
def ClientPhase.wrongStreamKind : ClientPhase → AppError
  | .selecting => .audio .wrongStreamKind
  | .reopening => .video .wrongStreamKind

/-- The error when no stream can be accepted. -/
def ClientPhase.quic (phase : ClientPhase) (e : Quinn.ConnectionError) : AppError :=
  match phase with
  | .selecting => .audio (.quic e)
  | .reopening => .video (.quic e)

/-- The loop of the client, as far as the streams of the server are concerned. -/
structure ClientSession where
  /-- The streams that are visible and have not been accepted, in order. -/
  incoming : List StreamKind
  /-- The reset of the stream of the instance is visible. -/
  resetVisible : Bool
  phase : ClientPhase
  /-- The stream that has been accepted, and whether its prologue has been read. -/
  accepting : Option (StreamKind × Bool)
  /-- The audio is being read. -/
  audioPlaybackReader : Bool
  /-- What the loop has returned. -/
  result : Option (Except AppError Unit)

/-- What goes on in the loop. -/
inductive ClientEvent
  /-- A stream of the server becomes visible. -/
  | opened (kind : StreamKind)
  /-- The reset of the stream of the instance becomes visible. -/
  | reset
  /-- The arm of the instance reads the reset. -/
  | readReset
  /-- The next stream is accepted, or none will come. -/
  | accept
  | acceptFailed (e : Quinn.ConnectionError)
  /-- The prologue of the stream has been read. -/
  | prologue (read : Except StreamReadError Unit)
  /-- The configuration of the audio has been read. -/
  | audioConfig (config : Except AudioError Unit)
  /-- The setup of the instance and its first frame have been read. -/
  | videoIntro (intro : Except VideoError Unit)
  /-- Another arm has something, which may end the session. -/
  | otherArm (result : Option (Except AppError Unit))
  /-- The audio ends. -/
  | audioEnded
  /-- The time for the next instance is up. -/
  | setupTimeout

/-- The event may end the session, whatever the streams are: something fails, or another arm or the
    time ends it. -/
def ClientEvent.mayEnd : ClientEvent → Bool
  | .acceptFailed _ | .prologue (.error _) | .audioConfig (.error _) | .videoIntro (.error _)
  | .otherArm (some _) | .setupTimeout => true
  | _ => false

/-- Another arm than that of the audio is the first to have something. -/
def ClientEvent.disturbs : ClientEvent → Bool
  | .readReset | .otherArm none | .audioEnded => true
  | _ => false

namespace ClientSession

/-- The loop as it starts; streams may be visible already. -/
def start (incoming : List StreamKind) : ClientSession where
  incoming
  resetVisible := false
  phase := .selecting
  accepting := none
  audioPlaybackReader := false
  result := none

/-- Someone waits for a stream: in the loop that is the arm of the audio, which is asked after
    that of the instance. -/
def Waiting (s : ClientSession) : Prop :=
  s.phase = .reopening ∨ s.resetVisible = false ∧ s.audioPlaybackReader = false

instance (s : ClientSession) : Decidable s.Waiting :=
  inferInstanceAs (Decidable
    (s.phase = .reopening ∨ s.resetVisible = false ∧ s.audioPlaybackReader = false))

/-- The session ends. -/
def finish (s : ClientSession) (result : Except AppError Unit) : ClientSession :=
  { s with accepting := none, result := some result }

/-- Reading a stream has failed: if it is the one of an instance that has been reset in turn,
    another one will follow. -/
def readFailed (s : ClientSession) (e : StreamReadError) : ClientSession :=
  match s.phase, e with
  | .selecting, e => s.finish (.error (.audio (.read e)))
  | .reopening, .read (.reset _) => { s with accepting := none }
  | .reopening, e => s.finish (.error (.video (.read e)))

/-- The prologue of the accepted stream has been read, or could not be. -/
def readPrologue (s : ClientSession) (kind : StreamKind) (read : Except StreamReadError Unit) :
    ClientSession :=
  match read with
  | .error e => s.readFailed e
  | .ok () =>
    if kind = s.phase.kind then { s with accepting := some (kind, true) }
    else s.finish (.error s.phase.wrongStreamKind)

/-- The configuration of the audio has been read, or could not be. -/
def readAudioConfig (s : ClientSession) (config : Except AudioError Unit) : ClientSession :=
  match config with
  | .error e => s.finish (.error (.audio e))
  | .ok () => { s with accepting := none, audioPlaybackReader := true }

/-- The setup of the instance has been read, or could not be. -/
def readVideoIntro (s : ClientSession) (intro : Except VideoError Unit) : ClientSession :=
  match intro with
  | .error (.read e) => s.readFailed e
  | .error e => s.finish (.error (.video e))
  | .ok () => { s with accepting := none, phase := .selecting, resetVisible := false }

/-- What happens next; `none` where it is not possible. -/
def step (s : ClientSession) (e : ClientEvent) : Option ClientSession :=
  if s.result.isSome then none
  else
    match e with
    | .opened kind => some { s with incoming := s.incoming ++ [kind] }
    | .reset =>
      if s.phase = .selecting then some { s with resetVisible := true } else none
    | .readReset =>
      -- what the other arms have is dropped
      if s.phase = .selecting ∧ s.resetVisible then
        some { s with phase := .reopening, accepting := none }
      else none
    | .accept =>
      match s.incoming with
      | [] => none
      | kind :: incoming =>
        if s.Waiting ∧ s.accepting = none then
          some { s with incoming, accepting := some (kind, false) }
        else none
    | .acceptFailed e =>
      if s.Waiting ∧ s.accepting = none then some (s.finish (.error (s.phase.quic e))) else none
    | .prologue read =>
      match s.accepting with
      | some (kind, false) => if s.Waiting then some (s.readPrologue kind read) else none
      | _ => none
    | .audioConfig config =>
      match s.phase, s.accepting with
      | .selecting, some (_, true) =>
        if s.Waiting ∧ config ≠ .error .wrongStreamKind then some (s.readAudioConfig config)
        else none
      | _, _ => none
    | .videoIntro intro =>
      match s.phase, s.accepting with
      | .reopening, some (_, true) =>
        if intro ≠ .error .wrongStreamKind then some (s.readVideoIntro intro) else none
      | _, _ => none
    | .otherArm result =>
      -- no other arm accepts streams of the server
      if s.phase = .selecting ∧ endedByWrongStreamKind result = false then
        match result with
        | none => some { s with accepting := none }
        | some result => some (s.finish result)
      else none
    | .audioEnded =>
      if s.phase = .selecting ∧ s.audioPlaybackReader then
        some { s with accepting := none, audioPlaybackReader := false }
      else none
    | .setupTimeout =>
      if s.phase = .reopening then
        some (s.finish (.error (.violation ReasonCode.PROTOCOL_VIDEO_CONFIGURING_TIMEOUT)))
      else none

/-- The steps as a machine. -/
def machine : Machine ClientSession ClientEvent := ⟨step⟩

variable {s s' : ClientSession} {e : ClientEvent}

/-- What a step does. -/
theorem step_eq_some : machine.step s e = some s' ↔ s.result = none ∧
    match e with
    | .opened kind => { s with incoming := s.incoming ++ [kind] } = s'
    | .reset => s.phase = .selecting ∧ { s with resetVisible := true } = s'
    | .readReset => (s.phase = .selecting ∧ s.resetVisible = true) ∧
        { s with phase := .reopening, accepting := none } = s'
    | .accept => ∃ kind incoming, s.incoming = kind :: incoming ∧
        (s.Waiting ∧ s.accepting = none) ∧
        { s with incoming, accepting := some (kind, false) } = s'
    | .acceptFailed e => (s.Waiting ∧ s.accepting = none) ∧ s.finish (.error (s.phase.quic e)) = s'
    | .prologue read => ∃ kind, s.accepting = some (kind, false) ∧ s.Waiting ∧
        s.readPrologue kind read = s'
    | .audioConfig config => s.phase = .selecting ∧ (∃ kind, s.accepting = some (kind, true)) ∧
        (s.Waiting ∧ config ≠ .error .wrongStreamKind) ∧ s.readAudioConfig config = s'
    | .videoIntro intro => s.phase = .reopening ∧ (∃ kind, s.accepting = some (kind, true)) ∧
        intro ≠ .error .wrongStreamKind ∧ s.readVideoIntro intro = s'
    | .otherArm result => (s.phase = .selecting ∧ endedByWrongStreamKind result = false) ∧
        result.elim { s with accepting := none } s.finish = s'
    | .audioEnded => (s.phase = .selecting ∧ s.audioPlaybackReader = true) ∧
        { s with accepting := none, audioPlaybackReader := false } = s'
    | .setupTimeout => s.phase = .reopening ∧
        s.finish (.error (.violation ReasonCode.PROTOCOL_VIDEO_CONFIGURING_TIMEOUT)) = s' := by
  cases hresult : s.result with
  | some => simp [machine, step, hresult]
  | none =>
    cases e with
    | accept => cases hincoming : s.incoming <;> simp [machine, step, hresult, hincoming]
    | prologue =>
      rcases haccepting : s.accepting with _ | ⟨kind, read⟩
      · simp [machine, step, hresult, haccepting]
      · cases read <;> simp [machine, step, hresult, haccepting]
    | audioConfig | videoIntro =>
      rcases haccepting : s.accepting with _ | ⟨kind, read⟩
      · simp [machine, step, hresult, haccepting]
      · cases read <;> cases hphase : s.phase <;> simp [machine, step, hresult, haccepting, hphase]
    | otherArm result => cases result <;> simp [machine, step, hresult]
    | acceptFailed => simp [machine, step, hresult]
    | opened | reset | readReset | audioEnded | setupTimeout => simp [machine, step, hresult]

/-! ## What becomes of the streams -/

/-- The stream that becomes visible. -/
def visible (_ : ClientSession) : ClientEvent → List StreamKind
  | .opened kind => [kind]
  | _ => []

/-- The stream that is being read by the place its kind is meant for. -/
def reading (s : ClientSession) : List StreamKind :=
  match s.accepting with
  | some (kind, _) => if kind = s.phase.kind then [kind] else []
  | none => []

/-- The stream that place is done with: it has read the setup of the stream or could not do so, or
    the session ends. -/
def settled (s : ClientSession) : ClientEvent → List StreamKind
  | .prologue (.error _) | .audioConfig _ | .videoIntro _ | .otherArm (some _) | .setupTimeout =>
    s.reading
  | _ => []

/-- The streams that have not been lost. -/
def pending (s : ClientSession) : List StreamKind := s.reading ++ s.incoming

/-- The session goes on unless something else ends it, and what has been read of a stream is for
    the place its kind is meant for: audio to play, or an instance to go on with. -/
structure GoesOn (s : ClientSession) (e : ClientEvent) (s' : ClientSession) : Prop where
  result : e.mayEnd = false → s'.result = none
  audio : e = .audioConfig (.ok ()) →
    s.settled e = [.audioPlayback] ∧ s'.audioPlaybackReader = true
  video : e = .videoIntro (.ok ()) →
    s.settled e = [.video] ∧ s'.phase = .selecting ∧ s'.resetVisible = false

/-- Over the run, the session goes on, it does not end because of the kind of a stream, and every
    stream that has become visible has been settled, is being read, or has not been accepted. -/
def Delivers (incoming : List StreamKind) (es : List ClientEvent) : Prop :=
  machine.Always GoesOn (start incoming) es ∧
    ∀ s, machine.run (start incoming) es = some s →
      incoming ++ machine.outputs visible (start incoming) es =
          machine.outputs settled (start incoming) es ++ s.pending ∧
        endedByWrongStreamKind s.result = false

/-! ## The situations -/

/-- Whoever waits for a stream would get one of the kind waited for. -/
def Sole (s : ClientSession) : Prop :=
  s.result = none → s.Waiting → s.accepting = none →
    ∀ kind, s.incoming.head? = some kind → kind = s.phase.kind

/-- No other arm has something while a stream is being accepted. -/
def Undisturbed (s : ClientSession) (e : ClientEvent) (_ : ClientSession) : Prop :=
  e.disturbs = true → s.accepting = none

/-- Whoever waits takes the next stream and reads its prologue, or nobody does. -/
inductive Taking : List ClientEvent → Prop
  | nobody : Taking []
  | waiting : Taking [.accept, .prologue (.ok ())]

/-! ## Steps -/

/-- A stream is accepted where its kind is meant to be, and none is dropped that is. -/
def Dispatches (s : ClientSession) : ClientEvent → Prop
  | .accept => s.incoming.head? = some s.phase.kind
  | .readReset | .otherArm none | .audioEnded => s.reading = []
  | _ => True

@[simp] theorem pending_finish (result : Except AppError Unit) :
    (s.finish result).pending = s.incoming := rfl

@[simp] theorem pending_readFailed (e : StreamReadError) :
    (s.readFailed e).pending = s.incoming := by
  simp only [readFailed]
  split <;> rfl

@[simp] theorem pending_readAudioConfig (config : Except AudioError Unit) :
    (s.readAudioConfig config).pending = s.incoming := by
  cases config <;> rfl

@[simp] theorem pending_readVideoIntro (intro : Except VideoError Unit) :
    (s.readVideoIntro intro).pending = s.incoming := by
  simp only [readVideoIntro]
  split
  · exact pending_readFailed _
  all_goals rfl

/-- Whoever is done with its stream has not lost it. -/
theorem conserves_of_settled (hvisible : s.visible e = []) (hsettled : s.settled e = s.reading)
    (hpending : s'.pending = s.incoming) : Machine.Conserves visible settled pending s e s' := by
  rw [Machine.Conserves, hvisible, hsettled, hpending, List.append_nil, pending]

/-- Whoever drops its stream loses it. -/
theorem dropped_cases (hvisible : s.visible e = []) (hsettled : s.settled e = [])
    (hpending : s'.pending = s.incoming) (hdispatches : s.Dispatches e ↔ s.reading = []) :
    (Machine.Conserves visible settled pending s e s' ∧ s.Dispatches e) ∨
      (s.settled e ++ s'.pending).length < (s.pending ++ s.visible e).length ∧
        ¬ s.Dispatches e := by
  refine Machine.conserves_or_loses hvisible rfl ?_ hdispatches
  rw [hsettled, hpending, List.nil_append]

/-- A step that does not dispatch its stream loses it, and no other step loses one. -/
theorem dispatch_cases (hstep : machine.step s e = some s') :
    (Machine.Conserves visible settled pending s e s' ∧ s.Dispatches e) ∨
      (s.settled e ++ s'.pending).length < (s.pending ++ s.visible e).length ∧
        ¬ s.Dispatches e := by
  obtain ⟨-, hcase⟩ := step_eq_some.1 hstep
  cases e with
  | opened kind =>
    cases hcase
    exact .inl ⟨by simp [Machine.Conserves, visible, settled, pending, reading], trivial⟩
  | reset =>
    obtain ⟨-, rfl⟩ := hcase
    exact .inl ⟨by simp [Machine.Conserves, visible, settled, pending, reading], trivial⟩
  | readReset | audioEnded =>
    obtain ⟨-, rfl⟩ := hcase
    exact dropped_cases rfl rfl rfl Iff.rfl
  | accept =>
    obtain ⟨kind, incoming, hincoming, ⟨-, hnone⟩, rfl⟩ := hcase
    -- a stream of another kind is accepted, too, and the place it is meant for never sees it
    by_cases hkind : kind = s.phase.kind
    · refine .inl ⟨?_, by rw [Dispatches, hincoming, hkind]; rfl⟩
      simp [Machine.Conserves, visible, settled, pending, reading, hnone, hincoming, hkind]
    · refine .inr ⟨?_, fun h => hkind ?_⟩
      · simp [visible, settled, pending, reading, hnone, hincoming, hkind]
      · rw [Dispatches, hincoming] at h
        exact Option.some.inj h
  | acceptFailed e =>
    obtain ⟨⟨-, hnone⟩, rfl⟩ := hcase
    have hreading : s.reading = [] := by simp [reading, hnone]
    exact .inl ⟨conserves_of_settled rfl hreading.symm rfl, trivial⟩
  | prologue read =>
    obtain ⟨kind, haccepting, -, rfl⟩ := hcase
    refine .inl ⟨?_, trivial⟩
    cases read with
    | error e => exact conserves_of_settled rfl rfl (pending_readFailed e)
    | ok =>
      by_cases hkind : kind = s.phase.kind
      · simp [Machine.Conserves, visible, settled, pending, readPrologue, reading, haccepting,
          hkind]
      · simp [Machine.Conserves, visible, settled, pending, readPrologue, reading, haccepting,
          hkind, finish]
  | audioConfig config =>
    obtain ⟨-, -, -, rfl⟩ := hcase
    exact .inl ⟨conserves_of_settled rfl rfl (pending_readAudioConfig config), trivial⟩
  | videoIntro intro =>
    obtain ⟨-, -, -, rfl⟩ := hcase
    exact .inl ⟨conserves_of_settled rfl rfl (pending_readVideoIntro intro), trivial⟩
  | otherArm result =>
    obtain ⟨-, rfl⟩ := hcase
    cases result with
    | none => exact dropped_cases rfl rfl rfl Iff.rfl
    | some result => exact .inl ⟨conserves_of_settled rfl rfl rfl, trivial⟩
  | setupTimeout =>
    obtain ⟨-, rfl⟩ := hcase
    exact .inl ⟨conserves_of_settled rfl rfl rfl, trivial⟩

/-- Whoever has accepted a stream waits for one of its kind, and the loop has not ended because of
    another kind. -/
structure Fits (s : ClientSession) : Prop where
  accepting : ∀ kind read, s.accepting = some (kind, read) → kind = s.phase.kind
  result : endedByWrongStreamKind s.result = false

theorem fits_start (incoming : List StreamKind) : (start incoming).Fits := ⟨nofun, rfl⟩

theorem fits_finish {result : Except AppError Unit}
    (hresult : endedByWrongStreamKind (some result) = false) : (s.finish result).Fits :=
  ⟨nofun, hresult⟩

theorem Fits.readFailed (h : s.Fits) (e : StreamReadError) : (s.readFailed e).Fits := by
  simp only [ClientSession.readFailed]
  split
  · exact fits_finish rfl
  · exact ⟨nofun, h.result⟩
  · exact fits_finish rfl

theorem Fits.step (h : s.Fits) (hstep : machine.step s e = some s') (hdispatches : s.Dispatches e) :
    s'.Fits := by
  obtain ⟨-, hcase⟩ := step_eq_some.1 hstep
  cases e with
  | opened kind =>
    cases hcase
    exact ⟨h.accepting, h.result⟩
  | reset =>
    obtain ⟨-, rfl⟩ := hcase
    exact ⟨h.accepting, h.result⟩
  | readReset | audioEnded =>
    obtain ⟨-, rfl⟩ := hcase
    exact ⟨nofun, h.result⟩
  | accept =>
    obtain ⟨kind, incoming, hincoming, -, rfl⟩ := hcase
    -- the only step that chooses a stream: that it fits is what the step has to guarantee
    rw [Dispatches, hincoming] at hdispatches
    refine ⟨fun kind' read heq => ?_, h.result⟩
    cases heq
    exact Option.some.inj hdispatches
  | acceptFailed e =>
    obtain ⟨-, rfl⟩ := hcase
    exact fits_finish (by cases s.phase <;> rfl)
  | prologue read =>
    obtain ⟨kind, haccepting, -, rfl⟩ := hcase
    have hkind : kind = s.phase.kind := h.accepting kind false haccepting
    cases read with
    | error e => exact h.readFailed e
    | ok =>
      rw [readPrologue, if_pos hkind]
      exact ⟨fun kind' read heq => by cases heq; exact hkind, h.result⟩
  | audioConfig config =>
    obtain ⟨-, -, ⟨-, hconfig⟩, rfl⟩ := hcase
    cases config with
    | error e =>
      refine fits_finish ?_
      cases e with
      | wrongStreamKind => exact absurd rfl hconfig
      | _ => rfl
    | ok => exact ⟨nofun, h.result⟩
  | videoIntro intro =>
    obtain ⟨-, -, hintro, rfl⟩ := hcase
    simp only [readVideoIntro]
    split
    · exact h.readFailed _
    · next e _ =>
      refine fits_finish ?_
      cases e with
      | wrongStreamKind => exact absurd rfl hintro
      | _ => rfl
    · exact ⟨nofun, h.result⟩
  | otherArm result =>
    obtain ⟨⟨-, hresult⟩, rfl⟩ := hcase
    cases result with
    | none => exact ⟨nofun, h.result⟩
    | some result => exact fits_finish hresult
  | setupTimeout =>
    obtain ⟨-, rfl⟩ := hcase
    exact fits_finish rfl

/-- Where a stream that fits is being accepted, only what may end the session does. -/
theorem Fits.goesOn (h : s.Fits) (hstep : machine.step s e = some s') : s.GoesOn e s' := by
  obtain ⟨hgoing, hcase⟩ := step_eq_some.1 hstep
  refine ⟨fun hend => ?_, ?_, ?_⟩
  · cases e with
    | opened kind =>
      cases hcase
      exact hgoing
    | reset | readReset | audioEnded =>
      obtain ⟨-, rfl⟩ := hcase
      exact hgoing
    | accept =>
      obtain ⟨kind, incoming, -, -, rfl⟩ := hcase
      exact hgoing
    | prologue read =>
      obtain ⟨kind, haccepting, -, rfl⟩ := hcase
      cases read with
      | error => cases hend
      | ok =>
        -- the only place where the kind decides
        rw [readPrologue, if_pos (h.accepting kind false haccepting)]
        exact hgoing
    | audioConfig config =>
      obtain ⟨-, -, -, rfl⟩ := hcase
      cases config with
      | error => cases hend
      | ok => exact hgoing
    | videoIntro intro =>
      obtain ⟨-, -, -, rfl⟩ := hcase
      cases intro with
      | error => cases hend
      | ok => exact hgoing
    | otherArm result =>
      obtain ⟨-, rfl⟩ := hcase
      cases result with
      | none => exact hgoing
      | some => cases hend
    | acceptFailed | setupTimeout => cases hend
  · rintro rfl
    obtain ⟨hphase, ⟨kind, haccepting⟩, -, rfl⟩ := hcase
    have hkind : kind = s.phase.kind := h.accepting kind true haccepting
    refine ⟨?_, rfl⟩
    rw [settled, reading, haccepting]
    simp [hkind, hphase, ClientPhase.kind]
  · rintro rfl
    obtain ⟨hphase, ⟨kind, haccepting⟩, -, rfl⟩ := hcase
    have hkind : kind = s.phase.kind := h.accepting kind true haccepting
    refine ⟨?_, rfl, rfl⟩
    rw [settled, reading, haccepting]
    simp [hkind, hphase, ClientPhase.kind]

/-! ## Runs -/

/-- Streams are conserved by exactly the runs that dispatch them. -/
theorem conserved_iff {incoming : List StreamKind} {es : List ClientEvent}
    (hrun : machine.run (start incoming) es = some s) :
    incoming ++ machine.outputs visible (start incoming) es =
        machine.outputs settled (start incoming) es ++ s.pending ↔
      machine.Always (fun s e _ => s.Dispatches e) (start incoming) es :=
  Machine.outputs_conserved_iff (f := visible) (g := settled)
    (P := fun s e _ => s.Dispatches e) (fun _ _ _ => dispatch_cases) hrun

theorem fits_of_dispatches {incoming : List StreamKind} {es : List ClientEvent}
    (h : machine.Always (fun s e _ => s.Dispatches e) (start incoming) es)
    (hrun : machine.run (start incoming) es = some s) : s.Fits :=
  h.run_invariant (fun _ _ _ hs hstep hd => hs.step hstep hd) (fits_start incoming) hrun

/-- Runs that dispatch their streams deliver them. -/
theorem delivers_of_dispatches {incoming : List StreamKind} {es : List ClientEvent}
    (h : machine.Always (fun s e _ => s.Dispatches e) (start incoming) es) :
    Delivers incoming es := by
  refine ⟨Machine.Always.imp (I := Fits) (fun _ _ _ hs hstep hd => ?_) (fits_start incoming) h,
    fun s hrun => ⟨(conserved_iff hrun).2 h, (fits_of_dispatches h hrun).result⟩⟩
  exact ⟨hs.step hstep hd, hs.goesOn hstep⟩

/-- Where the next stream is of the kind waited for and no other arm has something, a step
    dispatches its stream. -/
theorem Sole.dispatches (hsole : s.Sole) (hstep : machine.step s e = some s')
    (hundisturbed : s.Undisturbed e s') : s.Dispatches e := by
  obtain ⟨hgoing, hcase⟩ := step_eq_some.1 hstep
  cases e with
  | accept =>
    obtain ⟨kind, incoming, hincoming, ⟨hwaiting, hnone⟩, -⟩ := hcase
    have hkind := hsole hgoing hwaiting hnone kind (by rw [hincoming]; rfl)
    rw [Dispatches, hincoming, hkind]
    rfl
  | readReset | audioEnded => simp [Dispatches, reading, hundisturbed rfl]
  | otherArm result =>
    cases result with
    | none => simp [Dispatches, reading, hundisturbed rfl]
    | some => trivial
  | _ => trivial

/-- Where the next stream is of another kind, whoever waits takes it and ends the session. -/
theorem exists_wrong (hgoing : s.result = none) (hwaiting : s.Waiting) (hnone : s.accepting = none)
    {kind : StreamKind} (hhead : s.incoming.head? = some kind) (hkind : kind ≠ s.phase.kind) :
    ∃ s', machine.run s [.accept, .prologue (.ok ())] = some s' ∧
      endedByWrongStreamKind s'.result = true := by
  obtain ⟨incoming, hincoming⟩ := List.head?_eq_some_iff.1 hhead
  have haccept : machine.step s .accept =
      some { s with incoming, accepting := some (kind, false) } :=
    step_eq_some.2 ⟨hgoing, kind, incoming, hincoming, ⟨hwaiting, hnone⟩, rfl⟩
  refine ⟨_, Machine.run_cons_eq_some.2 ⟨_, haccept, Machine.run_cons_eq_some.2 ⟨_,
    step_eq_some.2 ⟨hgoing, kind, rfl, hwaiting, rfl⟩, rfl⟩⟩, ?_⟩
  rw [readPrologue, if_neg hkind]
  cases s.phase <;> simp [finish, endedByWrongStreamKind,
    ClientPhase.wrongStreamKind, AppError.isWrongStreamKind]

/-- Audio that is accepted before the reset, and an instance that is opened after it. -/
example : machine.outputs settled (start [])
    [.opened .audioPlayback, .accept, .prologue (.ok ()), .audioConfig (.ok ()), .reset, .readReset,
      .opened .video, .accept, .prologue (.ok ()), .videoIntro (.ok ())] =
    [.audioPlayback, .video] := by
  decide

end ClientSession

end Sardp
