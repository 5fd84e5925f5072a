import Mathlib.Data.List.Induction
import Sardp.Library.Conservation
import Sardp.Library.Deadlines
import Sardp.Session.ConnectionSm
import Sardp.Wire.Prologue

/-!
# The deadlines of setting a connection up

What `handle_connection` waits for from when it is handed a connection until its video is live
(`reconnection.rs`, `handshake.rs`, `timesync.rs`, `sardp-server.rs`), with a clock: an await under
a timeout is given up when the timeout is due, any other lasts as long as the client likes.

The handshake has one deadline, but what comes before the first envelope is not under it; and the
deadline of setting a session up only starts with the last step of it. So the server can be held up
in a phase from every await but those of the first envelope and of its own hello, and the phases of
a run are in time exactly as long as these other awaits do not take too long together
(`phases_bounded_iff`).
-/

namespace Sardp

/-- The time for the hellos, in milliseconds. -/
def HANDSHAKE_TIMEOUT : ℕ := 10 * 1000

/-- The time for the signature. -/
def AUTH_TIMEOUT : ℕ := 60 * 1000

/-- The time for an authenticated session to get its first channel live. -/
def SESSION_SETUP_TIMEOUT : ℕ := 15 * 1000

/-- How long a further request for the time may take. -/
def FOLLOW_UP_GAP : ℕ := 200

/-- What `handle_connection` waits for. -/
inductive SetupAwait
  /-- The control stream, and its prologue. -/
  | controlStream
  | prologue
  | firstEnvelope
  /-- The server's hello to be written. -/
  | serverHello
  | authPubkey
  /-- The result of an authentication to be written, and of a reconnect. -/
  | authResult (granted : Bool)
  | reconnectResult (accepted : Bool)
  /-- The first request for the time, the answer to one, and whether another follows. -/
  | timeSyncRequest
  | timeSyncResponse
  | followUp
  /-- The capture of the desktop to start. -/
  | capture
  /-- The first generation to open. -/
  | opening
  /-- What comes after the first channel is live. -/
  | live
  /-- Nothing more: the connection is over. -/
  | returned
  deriving DecidableEq

/-- A connection that is being set up. -/
structure ConnectionSetup where
  await : SetupAwait
  /-- The state of the session, if the connection has one or is to have one. -/
  sm : Option ConnectionSm
  isResumed : Bool
  /-- When the connection was handed over. -/
  start : ℕ
  now : ℕ
  /-- When the await began. -/
  since : ℕ
  /-- When the authentication was complete. -/
  authenticatedAt : ℕ
  deriving DecidableEq

/-- What ends an await. -/
inductive SetupEvent
  /-- What is waited for fails, or is not what is due. -/
  | fail
  /-- The deadline is due. -/
  | expire
  | streamAccepted
  | prologue (kind : StreamKind)
  | clientHello
  /-- The session of the credentials, if there is one. -/
  | sessionReauthenticate (found : Option ConnectionSm)
  | written
  | authPubkey (verified : Bool)
  | timeSyncRequest
  | captured
  | opened
  deriving DecidableEq

namespace ConnectionSetup

/-- A connection that has just been handed over. -/
def handed (start : ℕ) : ConnectionSetup :=
  { await := .controlStream, sm := some .new, isResumed := false, start, now := start,
    since := start, authenticatedAt := start }

/-- Going on to the next await. -/
def goOn (s : ConnectionSetup) (await : SetupAwait) : ConnectionSetup :=
  { s with await, since := s.now }

/-- Returning: the session of the connection is dropped. -/
def finish (s : ConnectionSetup) : ConnectionSetup := { s.goOn .returned with sm := none }

/-- Going on with a step of the session, or returning where the step is refused. -/
def advance (s : ConnectionSetup) (step : ConnectionSm → Except ProtocolViolation ConnectionSm)
    (await : SetupAwait) : ConnectionSetup :=
  match s.sm with
  | none => s.finish
  | some sm =>
    match step sm with
    | .ok sm => { s.goOn await with sm := some sm }
    | .error _ => s.finish

/-- When the await is given up. -/
def deadline (s : ConnectionSetup) : Option ℕ :=
  match s.await with
  | .firstEnvelope | .serverHello => some (s.start + HANDSHAKE_TIMEOUT)
  | .authPubkey => some (s.since + AUTH_TIMEOUT)
  | .followUp => some (s.since + FOLLOW_UP_GAP)
  | .opening => some (s.since + SESSION_SETUP_TIMEOUT)
  | _ => none

/-- Answering a reconnect: the session that is found goes on, if it is suspended. -/
def reconnect (s : ConnectionSetup) : Option ConnectionSm → ConnectionSetup
  | none => { s.goOn (.reconnectResult false) with sm := none }
  | some sm =>
    { s with sm := some sm, isResumed := true }.advance ConnectionSm.resume (.reconnectResult true)

/-- The end of an await. -/
def step (s : ConnectionSetup) : SetupEvent → Option ConnectionSetup
  | .fail => if s.await = .returned then none else some s.finish
  | .expire =>
    match s.deadline with
    | none => none
    | some t =>
      if s.now < t then none
      -- no further request is what ends the synchronisation
      else if s.await = .followUp then some (s.goOn .capture)
      else some s.finish
  | .streamAccepted => if s.await = .controlStream then some (s.goOn .prologue) else none
  | .prologue kind =>
    if s.await = .prologue then
      some (if kind = .control then s.goOn .firstEnvelope else s.finish)
    else none
  | .clientHello => if s.await = .firstEnvelope then some (s.goOn .serverHello) else none
  | .sessionReauthenticate found =>
    if s.await = .firstEnvelope then some (s.reconnect found) else none
  | .written =>
    match s.await with
    | .serverHello => some (s.advance ConnectionSm.completeHandshake .authPubkey)
    | .authResult true | .reconnectResult true => some (s.goOn .timeSyncRequest)
    | .authResult false | .reconnectResult false => some s.finish
    | .timeSyncResponse => some (s.goOn .followUp)
    | _ => none
  | .authPubkey verified =>
    if s.await = .authPubkey then
      some (if verified then
        { s.advance ConnectionSm.completeAuthentication (.authResult true) with
          authenticatedAt := s.now }
      else
        { s.goOn (.authResult false) with sm := s.sm.map fun sm => sm.recordAuthFailure.1 })
    else none
  | .timeSyncRequest =>
    match s.await with
    | .timeSyncRequest | .followUp => some (s.goOn .timeSyncResponse)
    | _ => none
  | .captured => if s.await = .capture then some (s.goOn .opening) else none
  | .opened =>
    if s.await = .opening then
      some (if s.isResumed then s.goOn .live else s.advance ConnectionSm.onChannelLive .live)
    else none

/-- Setting a connection up, with its clock. -/
def clocked : Clocked ConnectionSetup SetupEvent where
  now := now
  deadline := deadline
  wait s d := { s with now := s.now + d }
  step := step

/-- When the phase that the session is in has to be over. -/
def limit (s : ConnectionSetup) : Option ℕ :=
  match s.sm.map ConnectionSm.state with
  | some .handshaking => some (s.start + HANDSHAKE_TIMEOUT)
  | some .authenticated => some (s.authenticatedAt + SESSION_SETUP_TIMEOUT)
  | _ => none

end ConnectionSetup

/-- The await is before the signature is checked. -/
def SetupAwait.handshake : SetupAwait → Bool
  | .controlStream | .prologue | .firstEnvelope | .serverHello | .authPubkey => true
  | _ => false

/-- The state of the session during an await: after the authentication, a fresh session is
    authenticated until its first channel is live, and a resumed one is active. -/
def SetupAwait.state (isResumed : Bool) : SetupAwait → Option ConnectionState
  | .controlStream | .prologue | .firstEnvelope | .serverHello => some .handshaking
  | .authPubkey | .authResult false => some .authenticating
  | .authResult true | .reconnectResult true | .timeSyncRequest | .timeSyncResponse | .followUp
  | .capture | .opening => some (if isResumed then .active else .authenticated)
  | .live => some .active
  | .reconnectResult false | .returned => none

/-- The await is given up by the limit of its phase, or the phase has none: in the handshake that is
    so for the first envelope and the server's hello, and in the setup of a fresh session never. -/
def SetupAwait.covered (isResumed : Bool) : SetupAwait → Bool
  | .controlStream | .prologue => false
  | .authResult true | .reconnectResult true | .timeSyncRequest | .timeSyncResponse | .followUp
  | .capture
  -- the time for the opening begins with it, not with the setup
  | .opening => isResumed
  | _ => true

/-- What may be awaited next without a step of the session. -/
def SetupAwait.next : SetupAwait → List SetupAwait
  | .controlStream => [.prologue]
  | .prologue => [.firstEnvelope]
  | .firstEnvelope => [.serverHello]
  | .authResult true | .reconnectResult true => [.timeSyncRequest]
  | .timeSyncRequest => [.timeSyncResponse]
  | .timeSyncResponse => [.followUp]
  | .followUp => [.timeSyncResponse, .capture]
  | .capture => [.opening]
  | .opening => [.live]
  | _ => []

namespace SetupAwait

variable {isResumed : Bool} {a b : SetupAwait}

/-- Without a step of the session, its state stays, and no handshake begins. -/
theorem state_of_next (h : b ∈ a.next)
    (hlive : b = .live → isResumed = true) :
    b.state isResumed = a.state isResumed ∧ (b.handshake = true → a.handshake = true) := by
  cases a with
  | authResult granted => cases granted <;> simp_all [next, state, handshake]
  | reconnectResult accepted =>
    cases accepted <;> simp_all [next, state, handshake]
  | followUp =>
    simp only [next, List.mem_cons, List.not_mem_nil, or_false] at h
    rcases h with rfl | rfl <;> simp [state, handshake]
  | _ => simp_all [next, state, handshake]

theorem eq_capture_of_next (h : .opening ∈ a.next) : a = .capture := by
  cases a with
  | authResult granted => cases granted <;> simp [next] at h
  | reconnectResult accepted => cases accepted <;> simp [next] at h
  | capture => rfl
  | _ => simp [next] at h

/-- What follows a covered await is covered. -/
theorem covered_of_next (h : b ∈ a.next)
    (hcovered : a.covered isResumed = true) : b.covered isResumed = true := by
  cases a with
  | authResult granted => cases granted <;> simp_all [next, covered]
  | reconnectResult accepted => cases accepted <;> simp_all [next, covered]
  | followUp =>
    simp only [next, List.mem_cons, List.not_mem_nil, or_false] at h
    rcases h with rfl | rfl <;> exact hcovered
  | _ => simp_all [next, covered]

end SetupAwait

namespace ConnectionSetup

/-- The phase the session is in, if there is one. -/
def phase (s : ConnectionSetup) : Option ConnectionState := s.sm.map ConnectionSm.state

/-- The await is covered by the deadline of its phase. -/
def Covered (s : ConnectionSetup) : Prop := s.await.covered s.isResumed = true

instance (s : ConnectionSetup) : Decidable s.Covered :=
  inferInstanceAs (Decidable (s.await.covered s.isResumed = true))

/-- How long a phase waits for what its deadline does not cover. -/
def delays (phase : ConnectionState) (s : ConnectionSetup) : ClockEvent SetupEvent → List ℕ
  | .elapse d => if s.phase = some phase ∧ ¬ s.Covered then [d] else []
  | .event _ => []

variable {s s' : ConnectionSetup} {e : SetupEvent}

/-! ## What an await leads to -/

/-- The session is new. -/
structure Fresh (s : ConnectionSetup) : Prop where
  isResumed : s.isResumed = false
  authAttempts : ∀ sm, s.sm = some sm → sm.authAttempts = 0

/-- The session is in the state of the await, a handshake is one of a new session, and once the
    capture starts it has been waited whether a further request comes. -/
structure Placed (s : ConnectionSetup) : Prop where
  phase : s.phase = s.await.state s.isResumed
  fresh : s.await.handshake = true → s.Fresh
  since : s.authenticatedAt ≤ s.since ∧ s.since ≤ s.now
  gap : s.await = .capture ∨ s.await = .opening → s.authenticatedAt + FOLLOW_UP_GAP ≤ s.since

theorem Placed.authenticatedAt_le (h : s.Placed) : s.authenticatedAt ≤ s.now :=
  h.since.1.trans h.since.2

/-- A state that an await has just begun in is placed. -/
theorem placed_of_since (hphase : s.phase = s.await.state s.isResumed)
    (hfresh : s.await.handshake = true → s.Fresh) (htime : s.authenticatedAt ≤ s.now)
    (hsince : s.since = s.now)
    (hgap : s.await = .capture ∨ s.await = .opening → s.authenticatedAt + FOLLOW_UP_GAP ≤ s.now) :
    s.Placed :=
  ⟨hphase, hfresh, ⟨hsince ▸ htime, Nat.le_of_eq hsince⟩, fun h => hsince ▸ hgap h⟩

theorem placed_handed (start : ℕ) : (handed start).Placed :=
  placed_of_since rfl (fun _ => ⟨rfl, fun _ hsm => Option.some.inj hsm ▸ rfl⟩) (Nat.le_refl _) rfl
    (by simp [handed])

theorem placed_finish (htime : s.authenticatedAt ≤ s.now) : s.finish.Placed :=
  placed_of_since rfl (fun h => by cases h) htime rfl (by simp [finish, goOn])

/-- A step of the session is taken, or the connection is over. -/
theorem advance_cases (s : ConnectionSetup)
    (step : ConnectionSm → Except ProtocolViolation ConnectionSm) (await : SetupAwait) :
    s.advance step await = s.finish ∨ ∃ sm sm', s.sm = some sm ∧ step sm = .ok sm' ∧
      s.advance step await = { s.goOn await with sm := some sm' } := by
  cases hsm : s.sm with
  | none => exact .inl (by rw [advance, hsm])
  | some sm =>
    cases hstep : step sm with
    | error v => exact .inl (by simp only [advance, hsm, hstep])
    | ok sm' => exact .inr ⟨sm, sm', rfl, hstep, by simp only [advance, hsm, hstep]⟩

/-- Going on without a step of the session. -/
def Goes (s s' : ConnectionSetup) : Prop :=
  ∃ await ∈ s.await.next, s' = s.goOn await ∧ (await = .live → s.isResumed = true) ∧
    (await = .capture → s.since + FOLLOW_UP_GAP ≤ s.now)

/-- What the end of an await leads to. -/
inductive Leads (s : ConnectionSetup) : ConnectionSetup → Prop
  | finish : Leads s s.finish
  | goes {s' : ConnectionSetup} : s.Goes s' → Leads s s'
  | reconnect (h : s.await = .firstEnvelope) (found : Option ConnectionSm) :
      Leads s (s.reconnect found)
  | completeHandshake (h : s.await = .serverHello) :
      Leads s (s.advance ConnectionSm.completeHandshake .authPubkey)
  | completeAuthentication (h : s.await = .authPubkey) :
      Leads s { s.advance ConnectionSm.completeAuthentication (.authResult true) with
        authenticatedAt := s.now }
  | recordAuthFailure (h : s.await = .authPubkey) :
      Leads s { s.goOn (.authResult false) with sm := s.sm.map fun sm => sm.recordAuthFailure.1 }
  | onChannelLive (h : s.await = .opening) (hfresh : s.isResumed = false) :
      Leads s (s.advance ConnectionSm.onChannelLive .live)

theorem leads_of_step (h : s.step e = some s') : s.Leads s' := by
  have hgoes : ∀ {await : SetupAwait}, await ∈ s.await.next →
      (await = .live → s.isResumed = true) →
      (await = .capture → s.since + FOLLOW_UP_GAP ≤ s.now) →
      some (s.goOn await) = some s' → s.Leads s' := fun hnext hlive hcapture hs' =>
    .goes ⟨_, hnext, (Option.some.inj hs').symm, hlive, hcapture⟩
  cases e with
  | fail =>
    rw [step] at h
    split_ifs at h
    exact Option.some.inj h ▸ .finish
  | expire =>
    cases ht : s.deadline with
    | none => simp [step, ht] at h
    | some t =>
      simp only [step, ht] at h
      split_ifs at h with hnow hawait
      · refine hgoes (by rw [hawait]; decide) (by simp) (fun _ => ?_) h
        simp only [deadline, hawait, Option.some.injEq] at ht
        omega
      · exact Option.some.inj h ▸ .finish
  | streamAccepted =>
    rw [step] at h
    split_ifs at h with hawait
    exact hgoes (by rw [hawait]; decide) (by simp) (by simp) h
  | prologue kind =>
    rw [step] at h
    split_ifs at h with hawait
    · exact hgoes (by rw [hawait]; decide) (by simp) (by simp) h
    · exact Option.some.inj h ▸ .finish
  | clientHello =>
    rw [step] at h
    split_ifs at h with hawait
    exact hgoes (by rw [hawait]; decide) (by simp) (by simp) h
  | sessionReauthenticate found =>
    rw [step] at h
    split_ifs at h with hawait
    exact Option.some.inj h ▸ .reconnect hawait found
  | written =>
    rw [step] at h
    split at h
    · next hawait => exact Option.some.inj h ▸ .completeHandshake hawait
    · next hawait => exact hgoes (by rw [hawait]; decide) (by simp) (by simp) h
    · next hawait => exact hgoes (by rw [hawait]; decide) (by simp) (by simp) h
    · exact Option.some.inj h ▸ .finish
    · exact Option.some.inj h ▸ .finish
    · next hawait => exact hgoes (by rw [hawait]; decide) (by simp) (by simp) h
    · cases h
  | authPubkey verified =>
    rw [step] at h
    split_ifs at h with hawait hverified
    · exact Option.some.inj h ▸ .completeAuthentication hawait
    · exact Option.some.inj h ▸ .recordAuthFailure hawait
  | timeSyncRequest =>
    rw [step] at h
    split at h
    · next hawait => exact hgoes (by rw [hawait]; decide) (by simp) (by simp) h
    · next hawait => exact hgoes (by rw [hawait]; decide) (by simp) (by simp) h
    · cases h
  | captured =>
    rw [step] at h
    split_ifs at h with hawait
    exact hgoes (by rw [hawait]; decide) (by simp) (by simp) h
  | opened =>
    rw [step] at h
    split_ifs at h with hawait hresumed
    · exact hgoes (by rw [hawait]; decide) (fun _ => hresumed) (by simp) h
    · exact Option.some.inj h ▸ .onChannelLive hawait (Bool.eq_false_iff.2 hresumed)

/-- A step of the session takes it from the state of one await to the state of the other. -/
theorem placed_advance {source target : ConnectionState} {await : SetupAwait}
    (htime : s.authenticatedAt ≤ s.now) (hstate : await.state s.isResumed = some target)
    (hfresh : await.handshake = true → s.Fresh) (hgap : await ≠ .capture ∧ await ≠ .opening) :
    (s.advance (ConnectionSm.advance source target) await).Placed := by
  obtain h | ⟨sm, sm', hsm, hstep, h⟩ := s.advance_cases (ConnectionSm.advance source target) await
  · rw [h]
    exact placed_finish htime
  · obtain ⟨-, rfl⟩ := ConnectionSm.advance_eq_ok.1 hstep
    rw [h]
    refine placed_of_since hstate.symm (fun hawait => ⟨(hfresh hawait).isResumed, ?_⟩) htime rfl
      fun hawait => (not_or.2 hgap hawait).elim
    rintro _ ⟨⟩
    exact (hfresh hawait).authAttempts sm hsm

theorem placed_reconnect (htime : s.authenticatedAt ≤ s.now) (found : Option ConnectionSm) :
    (s.reconnect found).Placed := by
  cases found with
  | none =>
    exact placed_of_since rfl (fun h => by cases h) htime rfl (by simp [reconnect, goOn])
  | some sm =>
    exact placed_advance (s := { s with sm := some sm, isResumed := true }) htime rfl
      (by simp [SetupAwait.handshake]) (by simp)

/-- The time of the authentication does not matter to what is placed, if it is over. -/
theorem Placed.authenticated (h : s.Placed) {t : ℕ} (ht : t ≤ s.since)
    (hgap : s.await ≠ .capture ∧ s.await ≠ .opening) : { s with authenticatedAt := t }.Placed :=
  ⟨h.phase, fun hawait => ⟨(h.fresh hawait).isResumed, (h.fresh hawait).authAttempts⟩,
    ⟨ht, h.since.2⟩, fun hawait => (not_or.2 hgap hawait).elim⟩

theorem placed_step (h : s.Placed) (hstep : s.step e = some s') : s'.Placed := by
  have htime : s.authenticatedAt ≤ s.now := h.authenticatedAt_le
  cases leads_of_step hstep with
  | finish => exact placed_finish htime
  | goes hgoes =>
    obtain ⟨await, hnext, rfl, hlive, hcapture⟩ := hgoes
    obtain ⟨hstate, hhandshake⟩ := SetupAwait.state_of_next hnext hlive
    refine placed_of_since (h.phase.trans hstate.symm) (fun hawait => ?_) htime rfl fun hawait => ?_
    · exact ⟨(h.fresh (hhandshake hawait)).isResumed, (h.fresh (hhandshake hawait)).authAttempts⟩
    · -- the capture starts when no further request has come, and the opening after it
      rcases hawait with rfl | rfl
      · exact (Nat.add_le_add_right h.since.1 _).trans (hcapture rfl)
      · exact (h.gap (.inl (SetupAwait.eq_capture_of_next hnext))).trans h.since.2
  | reconnect _ found => exact placed_reconnect htime found
  | completeHandshake hawait =>
    exact placed_advance htime rfl (fun _ => h.fresh (by rw [hawait]; rfl)) (by simp)
  | completeAuthentication hawait =>
    have hfresh : s.Fresh := h.fresh (by rw [hawait]; rfl)
    have hplaced : (s.advance ConnectionSm.completeAuthentication (.authResult true)).Placed :=
      placed_advance htime (by simp [SetupAwait.state, hfresh.isResumed]) (fun _ => hfresh)
        (by simp)
    obtain h' | ⟨sm, sm', -, -, h'⟩ := s.advance_cases ConnectionSm.completeAuthentication
      (.authResult true)
    all_goals
      rw [h'] at hplaced ⊢
      exact hplaced.authenticated (Nat.le_refl s.now) (by simp [finish, goOn])
  | recordAuthFailure hawait =>
    have hfresh : s.Fresh := h.fresh (by rw [hawait]; rfl)
    refine placed_of_since ?_ (fun h => by cases h) htime rfl (by simp [goOn])
    obtain ⟨sm, hsm, hstate⟩ : ∃ sm, s.sm = some sm ∧ sm.state = .authenticating := by
      simpa [phase, hawait, SetupAwait.state] using h.phase
    change (s.sm.map fun sm => sm.recordAuthFailure.1).map ConnectionSm.state = some .authenticating
    -- one failure is below the limit
    simp [hsm, hstate, ConnectionSm.recordAuthFailure, hfresh.authAttempts sm hsm,
      AUTH_ATTEMPT_LIMIT]
  | onChannelLive _ _ =>
    exact placed_advance htime rfl (by simp [SetupAwait.handshake]) (by simp)

/-- The state of the await is kept by a whole run. -/
theorem placed_of_machine_step (s : ConnectionSetup) (e : ClockEvent SetupEvent)
    (s' : ConnectionSetup) (h : s.Placed) (hstep : clocked.machine.step s e = some s') :
    s'.Placed := by
  cases e with
  | elapse d =>
    obtain ⟨-, rfl⟩ := Clocked.step_elapse.1 hstep
    exact ⟨h.phase, fun hawait => ⟨(h.fresh hawait).isResumed, (h.fresh hawait).authAttempts⟩,
      ⟨h.since.1, h.since.2.trans (Nat.le_add_right ..)⟩, h.gap⟩
  | event e => exact placed_step h hstep

/-! ## Limits -/

theorem limit_finish (s : ConnectionSetup) : s.finish.limit = none := rfl

/-- A step of the session to a state without a limit. -/
theorem limit_advance (s : ConnectionSetup) {source target : ConnectionState} {await : SetupAwait}
    (hhandshaking : target ≠ .handshaking) (hauthenticated : target ≠ .authenticated) :
    (s.advance (ConnectionSm.advance source target) await).limit = none := by
  obtain h | ⟨sm, sm', -, hstep, h⟩ := s.advance_cases (ConnectionSm.advance source target) await
  · rw [h, limit_finish]
  · obtain ⟨-, rfl⟩ := ConnectionSm.advance_eq_ok.1 hstep
    rw [h]
    cases target <;> first | rfl | contradiction

theorem limit_reconnect (found : Option ConnectionSm) : (s.reconnect found).limit = none := by
  cases found with
  | none => rfl
  | some sm => exact limit_advance _ (by simp) (by simp)

theorem inTime_of_limit_eq_none (h : s.limit = none) : clocked.InTime limit s := fun t ht => by
  rw [h] at ht
  cases ht

/-- A phase that goes on has the limit it had, and one that begins is in time. -/
theorem inTime_step (h : s.Placed) (hstep : s.step e = some s') (htime : clocked.InTime limit s) :
    clocked.InTime limit s' := by
  have h' : s'.Placed := placed_step h hstep
  cases leads_of_step hstep with
  | finish => exact inTime_of_limit_eq_none (limit_finish s)
  | goes hgoes =>
    obtain ⟨await, -, rfl, -⟩ := hgoes
    exact htime
  | reconnect _ found => exact inTime_of_limit_eq_none (limit_reconnect found)
  | completeHandshake _ => exact inTime_of_limit_eq_none (limit_advance _ (by simp) (by simp))
  | completeAuthentication _ =>
    obtain h | ⟨sm, sm', -, hsm, h⟩ := s.advance_cases ConnectionSm.completeAuthentication
      (.authResult true)
    · rw [h]
      exact inTime_of_limit_eq_none rfl
    · obtain ⟨-, rfl⟩ := ConnectionSm.advance_eq_ok.1 hsm
      rw [h]
      -- the time for the setup begins with the authentication
      intro t ht
      obtain rfl := Option.some.inj ht
      exact Nat.le_add_right ..
  | recordAuthFailure _ =>
    refine inTime_of_limit_eq_none ?_
    have hphase : _ = some ConnectionState.authenticating := h'.phase
    rw [limit, ← phase, hphase]
  | onChannelLive _ _ => exact inTime_of_limit_eq_none (limit_advance _ (by simp) (by simp))

/-! ## What the deadlines cover -/

/-- A limit is one of the handshake, or one of the setup of a fresh session. -/
theorem limit_eq_some {t : ℕ} : s.limit = some t ↔
    s.phase = some .handshaking ∧ t = s.start + HANDSHAKE_TIMEOUT ∨
      s.phase = some .authenticated ∧ t = s.authenticatedAt + SESSION_SETUP_TIMEOUT := by
  rw [limit, ← phase]
  rcases s.phase with _ | _ | _ | _ | _ <;> simp [eq_comm]

/-- The setup of a fresh session is not covered. -/
theorem Placed.not_covered (h : s.Placed) (hphase : s.phase = some .authenticated) :
    ¬ s.Covered := by
  rw [h.phase] at hphase
  rw [Covered]
  cases hawait : s.await with
  | authResult granted => cases granted <;> simp_all [SetupAwait.state, SetupAwait.covered]
  | reconnectResult accepted => cases accepted <;> simp_all [SetupAwait.state, SetupAwait.covered]
  | _ => simp_all [SetupAwait.state, SetupAwait.covered]

/-- In the handshake, what is covered has its deadline. -/
theorem Placed.deadline_of_covered (h : s.Placed) (hphase : s.phase = some .handshaking)
    (hcovered : s.Covered) : s.deadline = some (s.start + HANDSHAKE_TIMEOUT) := by
  rw [h.phase] at hphase
  rw [Covered] at hcovered
  cases hawait : s.await with
  | authResult granted =>
    cases granted <;> cases hresumed : s.isResumed <;> simp_all [SetupAwait.state]
  | reconnectResult accepted =>
    cases accepted <;> cases hresumed : s.isResumed <;> simp_all [SetupAwait.state]
  | _ => simp_all [SetupAwait.state, SetupAwait.covered, deadline]

/-- What is not covered has a limit, and has no deadline but for two awaits. -/
theorem Placed.of_not_covered (h : s.Placed) (hcovered : ¬ s.Covered) :
    (∃ t, s.limit = some t) ∧ (s.deadline = none ∨ s.await = .followUp ∨
      s.await = .opening ∧ s.phase = some .authenticated) := by
  simp only [limit_eq_some, h.phase]
  rw [Covered] at hcovered
  rw [deadline]
  cases hawait : s.await with
  | authResult granted => cases granted <;> simp_all [SetupAwait.state, SetupAwait.covered]
  | reconnectResult accepted => cases accepted <;> simp_all [SetupAwait.state, SetupAwait.covered]
  | _ => simp_all [SetupAwait.state, SetupAwait.covered]

theorem covered_advance {step : ConnectionSm → Except ProtocolViolation ConnectionSm}
    {await : SetupAwait} (h : await.covered s.isResumed = true) :
    (s.advance step await).Covered := by
  obtain h' | ⟨sm, sm', -, -, h'⟩ := s.advance_cases step await
  · rw [h']
    rfl
  · rw [h']
    exact h

theorem covered_reconnect (found : Option ConnectionSm) : (s.reconnect found).Covered := by
  cases found with
  | none => rfl
  | some sm => exact covered_advance rfl

/-- A step of the session leads to its target, or the connection is over. -/
theorem phase_advance (s : ConnectionSetup) (source target : ConnectionState)
    (await : SetupAwait) :
    (s.advance (ConnectionSm.advance source target) await).phase = none ∨
      (s.advance (ConnectionSm.advance source target) await).phase = some target := by
  obtain h | ⟨sm, sm', -, hstep, h⟩ := s.advance_cases (ConnectionSm.advance source target) await
  · rw [h]
    exact .inl rfl
  · obtain ⟨-, rfl⟩ := ConnectionSm.advance_eq_ok.1 hstep
    rw [h]
    exact .inr rfl

theorem covers : clocked.Covers limit phase Placed Covered where
  wait h _ := h
  inTime := by
    intro s d h hcovered _ hwait t ht
    have ht' : s.limit = some t := ht
    rcases limit_eq_some.1 ht' with ⟨hphase, rfl⟩ | ⟨hphase, -⟩
    · exact hwait _ (h.deadline_of_covered hphase hcovered)
    · exact absurd hcovered (h.not_covered hphase)
  step := by
    intro s s' e h hcovered hstep hphase
    cases leads_of_step hstep with
    | finish => rfl
    | goes hgoes =>
      obtain ⟨await, hnext, rfl, -⟩ := hgoes
      exact SetupAwait.covered_of_next hnext hcovered
    | reconnect _ found => exact covered_reconnect found
    | completeHandshake _ => exact covered_advance rfl
    | completeAuthentication hawait =>
      -- another phase begins
      have hauthenticating : s.phase = some .authenticating := by
        rw [h.phase, hawait]
        rfl
      rw [hauthenticating] at hphase
      rcases s.phase_advance .authenticating .authenticated (.authResult true) with h' | h' <;>
        exact absurd (h'.symm.trans hphase) (by simp)
    | recordAuthFailure _ => rfl
    | onChannelLive _ _ => exact covered_advance rfl

/-- From whatever is not covered, the server can be held up beyond the limit. -/
theorem not_keeps (h : s.Placed) (htime : clocked.InTime limit s) (hcovered : ¬ s.Covered) :
    ¬ clocked.Keeps limit phase s := by
  -- without a deadline, the time may pass beyond any limit
  have hnone {s : ConnectionSetup} (h : s.Placed) (hcovered : ¬ s.Covered)
      (hdeadline : s.deadline = none) : ¬ clocked.Keeps limit phase s := by
    obtain ⟨⟨t, ht⟩, -⟩ := h.of_not_covered hcovered
    refine Clocked.not_keeps_of_mayWait (d := t + 1) (fun _ _ => rfl) (fun _ _ => rfl)
      (fun _ _ => rfl) (fun t' ht' => ?_) ht ?_
    · rw [show s.deadline = some t' from ht'] at hdeadline
      cases hdeadline
    · change t < s.now + (t + 1)
      omega
  obtain ⟨⟨t, ht⟩, hdeadline | hawait | ⟨hawait, hphase⟩⟩ := h.of_not_covered hcovered
  · exact hnone h hcovered hdeadline
  · -- another request, and its answer is not taken
    intro hkeeps
    have hstep : s.step .timeSyncRequest = some (s.goOn .timeSyncResponse) := by
      simp only [step, hawait]
    have hresponse : ¬ (s.goOn .timeSyncResponse).Covered := by
      intro h
      exact hcovered (by rw [Covered, hawait]; exact h)
    have hclocked : clocked.step s .timeSyncRequest = some (s.goOn .timeSyncResponse) := hstep
    exact hnone (placed_step h hstep) hresponse rfl (hkeeps.step hclocked rfl)
  · -- the deadline of the opening is the time for the setup from its beginning on
    have hgap := h.gap (.inr hawait)
    have hnow := htime t ht
    have hdeadline : s.deadline = some (s.since + SESSION_SETUP_TIMEOUT) := by
      rw [deadline, hawait]
    obtain ⟨hphase', -⟩ | ⟨-, rfl⟩ := limit_eq_some.1 ht
    · rw [hphase] at hphase'
      cases hphase'
    · change s.now ≤ _ at hnow
      refine Clocked.not_keeps_of_mayWait (d := s.since + SESSION_SETUP_TIMEOUT - s.now)
        (fun _ _ => rfl) (fun _ _ => rfl) (fun _ _ => rfl) (fun t ht => ?_) ht ?_
      · rw [show s.deadline = some t from ht] at hdeadline
        cases hdeadline
        change s.now + _ ≤ _
        omega
      · change _ < s.now + _
        rw [FOLLOW_UP_GAP] at hgap
        omega

/-! ## What the awaits without a deadline take -/

/-- How long the handshake has been held up and how long the setup, by what is not covered: that is
    all the time until a covered await, and in the setup all the time. -/
structure HeldUp (s : ConnectionSetup) (m n : ℕ) : Prop where
  handshake : s.phase = some .handshaking → ¬ s.Covered → s.now = s.start + m
  setup : s.phase = some .authenticated → s.now = s.authenticatedAt + n
  before : s.phase = some .handshaking ∨ s.phase = some .authenticating → n = 0

variable {m n : ℕ}

theorem heldUp_handed (start : ℕ) : (handed start).HeldUp 0 0 :=
  ⟨fun _ _ => rfl, fun _ => rfl, fun _ => rfl⟩

theorem heldUp_of_phase (h : s.phase = none ∨ s.phase = some .active) : s.HeldUp m n := by
  constructor
  all_goals
    intro hphase
    rcases h with h | h <;> simp [h] at hphase

theorem heldUp_of_authenticating (h : s.phase = some .authenticating) : s.HeldUp m 0 := by
  refine ⟨fun hphase => ?_, fun hphase => ?_, fun _ => rfl⟩
  all_goals simp [h] at hphase

theorem phase_reconnect (found : Option ConnectionSm) :
    (s.reconnect found).phase = none ∨ (s.reconnect found).phase = some .active := by
  cases found with
  | none => exact .inl rfl
  | some sm =>
    exact phase_advance { s with sm := some sm, isResumed := true } _ _ (.reconnectResult true)

theorem HeldUp.step (h : s.HeldUp m n) (hplaced : s.Placed) (hstep : s.step e = some s') :
    s'.HeldUp m n := by
  have hplaced' : s'.Placed := placed_step hplaced hstep
  cases leads_of_step hstep with
  | finish => exact heldUp_of_phase (.inl rfl)
  | goes hgoes =>
    obtain ⟨await, hnext, rfl, -⟩ := hgoes
    exact ⟨fun hphase hcovered => h.handshake hphase fun hc =>
      hcovered (SetupAwait.covered_of_next hnext hc), h.setup, h.before⟩
  | reconnect _ found => exact heldUp_of_phase (phase_reconnect found)
  | completeHandshake hawait =>
    obtain rfl : n = 0 := h.before (.inl (by rw [hplaced.phase, hawait]; rfl))
    rcases s.phase_advance .handshaking .authenticating .authPubkey with hphase | hphase
    · exact heldUp_of_phase (.inl hphase)
    · exact heldUp_of_authenticating hphase
  | completeAuthentication hawait =>
    -- the setup begins, and nothing has held it up
    obtain rfl : n = 0 := h.before (.inr (by rw [hplaced.phase, hawait]; rfl))
    obtain h' | ⟨sm, sm', -, hsm, h'⟩ := s.advance_cases ConnectionSm.completeAuthentication
      (.authResult true)
    · rw [h']
      exact heldUp_of_phase (.inl rfl)
    · obtain ⟨-, rfl⟩ := ConnectionSm.advance_eq_ok.1 hsm
      rw [h']
      exact ⟨nofun, fun _ => rfl, fun _ => rfl⟩
  | recordAuthFailure hawait =>
    obtain rfl : n = 0 := h.before (.inr (by rw [hplaced.phase, hawait]; rfl))
    exact heldUp_of_authenticating hplaced'.phase
  | onChannelLive _ _ => exact heldUp_of_phase (s.phase_advance _ _ .live)

/-- Time that passes adds to what holds the connection up. -/
theorem HeldUp.wait (h : s.HeldUp m n) (hplaced : s.Placed) (d : ℕ) :
    (clocked.wait s d).HeldUp (m + (s.delays .handshaking (.elapse d)).sum)
      (n + (s.delays .authenticated (.elapse d)).sum) := by
  refine ⟨fun hphase hcovered => ?_, fun hphase => ?_, fun hphase => ?_⟩
  · have hphase' : s.phase = some .handshaking := hphase
    have hcovered' : ¬ s.Covered := hcovered
    rw [delays, if_pos ⟨hphase', hcovered'⟩, List.sum_singleton, ← Nat.add_assoc]
    exact congrArg (· + d) (h.handshake hphase' hcovered')
  · have hphase' : s.phase = some .authenticated := hphase
    rw [delays, if_pos ⟨hphase', hplaced.not_covered hphase'⟩, List.sum_singleton, ← Nat.add_assoc]
    exact congrArg (· + d) (h.setup hphase')
  · have hphase' : s.phase = some .handshaking ∨ s.phase = some .authenticating := hphase
    have hnone : ¬ (s.phase = some .authenticated ∧ ¬ s.Covered) := by
      rcases hphase' with h' | h' <;> simp [h']
    rw [delays, if_neg hnone, List.sum_nil, h.before hphase', Nat.add_zero]

/-- Time passes in time exactly as long as the phase is not held up for too long. -/
theorem inTime_wait_iff (h : s.HeldUp m n) (hplaced : s.Placed) (htime : clocked.InTime limit s)
    {d : ℕ} (hwait : clocked.MayWait s d) (hm : m ≤ HANDSHAKE_TIMEOUT)
    (hn : n ≤ SESSION_SETUP_TIMEOUT) :
    clocked.InTime limit (clocked.wait s d) ↔
      m + (s.delays .handshaking (.elapse d)).sum ≤ HANDSHAKE_TIMEOUT ∧
        n + (s.delays .authenticated (.elapse d)).sum ≤ SESSION_SETUP_TIMEOUT := by
  by_cases hcovered : s.Covered
  · simp [delays, hcovered, hm, hn, covers.inTime hplaced hcovered htime hwait]
  · obtain ⟨⟨t, ht⟩, -⟩ := hplaced.of_not_covered hcovered
    have hinTime : clocked.InTime limit (clocked.wait s d) ↔ s.now + d ≤ t := by
      constructor
      · exact fun h => h t ht
      · intro h t' ht'
        rw [show s.limit = some t' from ht'] at ht
        cases ht
        exact h
    rw [hinTime]
    obtain ⟨hphase, rfl⟩ | ⟨hphase, rfl⟩ := limit_eq_some.1 ht
    · have hnow := h.handshake hphase hcovered
      simp [delays, hphase, hcovered, hn]
      omega
    · have hnow := h.setup hphase
      simp [delays, hphase, hcovered, hm]
      omega

end ConnectionSetup

/-! ## The phases of a whole run -/

namespace ConnectionSetup

variable {start : ℕ} {es : List (ClockEvent SetupEvent)}

theorem placed_of_run (hrun : clocked.machine.run (.handed start) es = some s) : s.Placed :=
  Machine.run_invariant placed_of_machine_step (placed_handed start) hrun

theorem heldUp_of_run (hrun : clocked.machine.run (.handed start) es = some s) :
    s.HeldUp (clocked.machine.outputs (delays .handshaking) (.handed start) es).sum
      (clocked.machine.outputs (delays .authenticated) (.handed start) es).sum := by
  induction es using List.reverseRecOn generalizing s with
  | nil =>
    cases hrun
    exact heldUp_handed start
  | append_singleton es e ih =>
    obtain ⟨s₁, hrun₁, hlast⟩ := Machine.run_append_eq_some.1 hrun
    obtain ⟨s₂, hstep, ⟨⟩⟩ := Machine.run_cons_eq_some.1 hlast
    simp only [Machine.outputs_append hrun₁, Machine.outputs_cons hstep, Machine.outputs_nil,
      List.append_nil, List.sum_append]
    cases e with
    | elapse d =>
      obtain ⟨-, rfl⟩ := Clocked.step_elapse.1 hstep
      exact (ih hrun₁).wait (placed_of_run hrun₁) d
    | event e => exact (ih hrun₁).step (placed_of_run hrun₁) hstep

/-- Every state of a run is in time exactly if what the deadlines do not cover has not held up
    either phase for too long. -/
theorem inTime_iff_delays (hrun : clocked.machine.run (.handed start) es = some s) :
    (∀ es', es' <+: es → ∀ s, clocked.machine.run (.handed start) es' = some s →
        clocked.InTime limit s) ↔
      (clocked.machine.outputs (delays .handshaking) (.handed start) es).sum ≤ HANDSHAKE_TIMEOUT ∧
        (clocked.machine.outputs (delays .authenticated) (.handed start) es).sum ≤
          SESSION_SETUP_TIMEOUT := by
  induction es using List.reverseRecOn generalizing s with
  | nil =>
    refine iff_of_true (fun es' hes' s hs => ?_) ⟨Nat.zero_le _, Nat.zero_le _⟩
    rw [List.prefix_nil.1 hes'] at hs
    cases hs
    exact fun t ht => Option.some.inj ht ▸ Nat.le_add_right ..
  | append_singleton es e ih =>
    obtain ⟨s₁, hrun₁, hlast⟩ := Machine.run_append_eq_some.1 hrun
    obtain ⟨s₂, hstep, ⟨⟩⟩ := Machine.run_cons_eq_some.1 hlast
    have hplaced := placed_of_run hrun₁
    rw [Machine.forall_prefix_run_append_singleton hrun₁ hstep]
    simp only [Machine.outputs_append hrun₁, Machine.outputs_cons hstep, Machine.outputs_nil,
      List.append_nil, List.sum_append]
    constructor
    · rintro ⟨hall, hs⟩
      obtain ⟨hm, hn⟩ := (ih hrun₁).1 hall
      have htime : clocked.InTime limit s₁ := hall es (List.prefix_refl es) s₁ hrun₁
      cases e with
      | elapse d =>
        obtain ⟨hwait, rfl⟩ := Clocked.step_elapse.1 hstep
        exact (inTime_wait_iff (heldUp_of_run hrun₁) hplaced htime hwait hm hn).1 hs
      | event e => exact ⟨hm, hn⟩
    · rintro ⟨hm, hn⟩
      have hall := (ih hrun₁).2 ⟨by omega, by omega⟩
      have htime : clocked.InTime limit s₁ := hall es (List.prefix_refl es) s₁ hrun₁
      refine ⟨hall, ?_⟩
      cases e with
      | elapse d =>
        obtain ⟨hwait, rfl⟩ := Clocked.step_elapse.1 hstep
        exact (inTime_wait_iff (heldUp_of_run hrun₁) hplaced htime hwait (by omega)
          (by omega)).2 ⟨hm, hn⟩
      | event e => exact inTime_step hplaced hstep htime

end ConnectionSetup

open ConnectionSetup

/-- From every state of a run, the server keeps its phase to the limit, whatever it meets, exactly
    if it is in time and the await is covered: in the handshake by its deadline, and never in the
    setup of a fresh session. And every state of a run is in time exactly if the handshake has
    waited for the control stream and its prologue no longer than it may take, and the setup for all
    it waits for. -/
theorem phases_bounded_iff {start : ℕ} {es : List (ClockEvent SetupEvent)} {s₁ : ConnectionSetup}
    (hrun : clocked.machine.run (.handed start) es = some s₁) :
    (clocked.Keeps limit phase s₁ ↔ clocked.InTime limit s₁ ∧ s₁.Covered) ∧
    ((∀ es', es' <+: es → ∀ s, clocked.machine.run (.handed start) es' = some s →
        clocked.InTime limit s) ↔
      (clocked.machine.outputs (delays .handshaking) (.handed start) es).sum ≤ HANDSHAKE_TIMEOUT ∧
        (clocked.machine.outputs (delays .authenticated) (.handed start) es).sum ≤
          SESSION_SETUP_TIMEOUT) :=
  ⟨Clocked.keeps_iff_covered placed_of_machine_step (fun _ _ _ => inTime_step) covers
    (fun _ => not_keeps) (placed_of_run hrun), inTime_iff_delays hrun⟩

/-- A fresh session that is set up with a request for the time. -/
def setUp : List (ClockEvent SetupEvent) :=
  [.elapse 500, .event .streamAccepted, .event (.prologue .control), .elapse 9000,
    .event .clientHello, .event .written, .elapse 30000, .event (.authPubkey true),
    .event .written, .event .timeSyncRequest, .event .written, .elapse 200, .event .expire,
    .elapse 1000, .event .captured, .elapse 300, .event .opened]

/-- The session is in time all along, having been held up for half a second in the handshake and for
    one and a half in the setup. -/
theorem phases_bounded_setUp : ∃ s₁,
    clocked.machine.run (.handed 0) setUp = some s₁ ∧ s₁.await = .live ∧
    ∀ es', es' <+: setUp → ∀ s, clocked.machine.run (.handed 0) es' = some s →
      clocked.InTime limit s :=
  have hrun : clocked.machine.run (.handed 0) setUp =
    some ⟨.live, some ⟨.active, 0⟩, false, 0, 41000, 41000, 39500⟩ := by decide
  ⟨_, hrun, rfl, (phases_bounded_iff hrun).2.2 (by decide)⟩

/-- A client that never opens the control stream keeps the handshake waiting, and one that never
    asks for the time keeps the setup waiting. -/
theorem client_delays_setup :
    (∃ s, clocked.machine.run (.handed 0) [.elapse 20000] = some s ∧
      s.phase = some .handshaking ∧ s.start + HANDSHAKE_TIMEOUT < s.now) ∧
    ∃ s, clocked.machine.run (.handed 0)
        [.event .streamAccepted, .event (.prologue .control), .event .clientHello,
          .event .written, .event (.authPubkey true), .event .written, .elapse 20000] = some s ∧
      s.phase = some .authenticated ∧ s.authenticatedAt + SESSION_SETUP_TIMEOUT < s.now :=
  ⟨⟨_, rfl, rfl, by decide⟩, _, rfl, rfl, by decide⟩

end Sardp
