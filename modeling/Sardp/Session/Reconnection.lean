import Sardp.Session.Handshake
import Sardp.Session.SessionStore

/-!
# Reconnection

The first control message of a new connection starts a fresh session or resumes a
suspended one (`reconnection.rs`). Resuming takes the session out of the store before
its connection is resumed and the result is written, so what a failure leaves behind
depends on where it happens: `serverCompleteReconnect_keeps_store_iff` says exactly when
it is the store there was.

`establishConnection` is the dispatch between the two, up to the context both enter the
active session with; `establishConnection_fresh` and `establishConnection_resumed` say
what is in it.
-/

namespace Sardp

/-- What a successful reconnect settles. -/
structure ReconnectOutcome where
  sessionId : SessionId
  reconnectToken : ReconnectToken
  grantedPermissions : PermissionSet
  /-- The generation the video channel goes on with. -/
  resumedGeneration : ℕ
  userId : String
  deriving DecidableEq

/-- Why the server could not complete a reconnect. -/
inductive ReconnectServerError
  | store (e : ReconnectError)
  | write (e : Quinn.WriteError)
  | violation (reason : ReasonCode)
  deriving DecidableEq

/-- The reason the client is told. -/
def ReconnectServerError.reasonCode : ReconnectServerError → ReasonCode
  | .store _ => ReasonCode.AUTH_RECONNECT_TOKEN_INVALID
  | .violation reason => reason
  | .write _ => ReasonCode.PROTOCOL_UNEXPECTED_MESSAGE

/-- Completing a reconnect, with the token drawn for it and what becomes of writing the
    result: the outcome, the store left, and the result that was handed to the control
    stream. -/
def serverCompleteReconnect (reauth : SessionReauthenticate) (store : SessionStore)
    (newReconnectToken : ReconnectToken) (written : Except Quinn.WriteError Unit) :
    Except ReconnectServerError (ReconnectOutcome × ConnectionSm) × SessionStore ×
      Option AuthResult :=
  match store.tryReconnect reauth.priorSessionId reauth.reconnectToken with
  | (.ok suspended, store) =>
    -- the session is out of the store, and no failure from here on puts it back
    match suspended.connectionSm.resume with
    | .error v => (.error (.violation v.reason), store, none)
    | .ok connectionSm =>
      let authResult : AuthResult :=
        { status := .ok, reason := ReasonCode.NONE, sessionId := reauth.priorSessionId,
          reconnectToken := newReconnectToken
          grantedPermissions := suspended.grantedPermissions }
      match written with
      | .error e => (.error (.write e), store, some authResult)
      | .ok () =>
        let outcome : ReconnectOutcome :=
          { sessionId := reauth.priorSessionId, reconnectToken := newReconnectToken,
            grantedPermissions := suspended.grantedPermissions,
            resumedGeneration := suspended.lastGeneration + 1, userId := suspended.userId }
        (.ok (outcome, connectionSm), store, some authResult)
  | (.error e, store) =>
    let authResult : AuthResult :=
      { status := .denied, reason := (ReconnectServerError.store e).reasonCode,
        sessionId := Vector.replicate 16 0, reconnectToken := Vector.replicate 32 0,
        grantedPermissions := 0 }
    -- whether the rejection is written makes no difference
    (.error (.store e), store, some authResult)

/-! ## What a reconnect does -/

section

variable {reauth : SessionReauthenticate} {store : SessionStore}
  {newReconnectToken : ReconnectToken} {written : Except Quinn.WriteError Unit}

/-- The session the credentials lead to, if any. -/
def SessionReauthenticate.Matches (reauth : SessionReauthenticate) (store : SessionStore)
    (session : SuspendedSession) : Prop :=
  store.sessions reauth.priorSessionId = some session ∧
    session.reconnectToken = reauth.reconnectToken

/-- Credentials that lead to no session fail, and change nothing. -/
theorem serverCompleteReconnect_of_no_match (h : ∀ session, ¬reauth.Matches store session) :
    ∃ e authResult, serverCompleteReconnect reauth store newReconnectToken written =
      (.error (.store e), store, some authResult) := by
  rw [serverCompleteReconnect]
  split
  · next session store' htry =>
    obtain ⟨hsession, htoken, -⟩ := SessionStore.tryReconnect_eq_ok.1 htry
    exact absurd ⟨hsession, htoken⟩ (h session)
  · next e store' htry =>
    rw [SessionStore.tryReconnect_error htry]
    exact ⟨e, _, rfl⟩

/-- Credentials that lead to a session take it out of the store, whatever happens next. -/
theorem serverCompleteReconnect_of_match {session : SuspendedSession}
    (h : reauth.Matches store session) :
    (serverCompleteReconnect reauth store newReconnectToken written).2.1 =
      store.expire reauth.priorSessionId := by
  have htry := SessionStore.tryReconnect_eq_ok.2 ⟨h.1, h.2, rfl⟩
  rw [serverCompleteReconnect, htry]
  dsimp only
  split
  · rfl
  · cases written <;> rfl

/-- The client is told the permissions of the session its credentials lead to. -/
theorem serverCompleteReconnect_authResult {session : SuspendedSession}
    (h : reauth.Matches store session) {authResult : AuthResult}
    (hsent : (serverCompleteReconnect reauth store newReconnectToken written).2.2 =
      some authResult) : authResult.grantedPermissions = session.grantedPermissions := by
  have htry := SessionStore.tryReconnect_eq_ok.2 ⟨h.1, h.2, rfl⟩
  rw [serverCompleteReconnect, htry] at hsent
  dsimp only at hsent
  split at hsent
  · cases hsent
  · cases written <;> cases hsent <;> rfl

/-- A reconnect fails, once the credentials lead to a session, when its connection is not
    suspended or when the result cannot be written. -/
theorem serverCompleteReconnect_error_iff_of_match {session : SuspendedSession}
    (h : reauth.Matches store session) :
    (∃ e, (serverCompleteReconnect reauth store newReconnectToken written).1 = .error e) ↔
      session.connectionSm.state ≠ .suspended ∨ ∃ e, written = .error e := by
  have htry := SessionStore.tryReconnect_eq_ok.2 ⟨h.1, h.2, rfl⟩
  rw [serverCompleteReconnect, htry]
  dsimp only
  split
  · next v hresume =>
    exact iff_of_true ⟨_, rfl⟩ (.inl (ConnectionSm.advance_eq_error.1 hresume).1)
  · next sm hresume =>
    have hstate := (ConnectionSm.advance_eq_ok.1 hresume).1
    cases written with
    | error e => exact iff_of_true ⟨_, rfl⟩ (.inr ⟨e, rfl⟩)
    | ok _ => exact iff_of_false nofun (by rintro (h | ⟨_, ⟨⟩⟩); exact h hstate)

/-- A reconnect is only refused for the state of a connection when the credentials lead to
    a session whose connection is not suspended. -/
theorem serverCompleteReconnect_violation {reason : ReasonCode}
    (h : (serverCompleteReconnect reauth store newReconnectToken written).1 =
      .error (.violation reason)) :
    ∃ session, reauth.Matches store session ∧ session.connectionSm.state ≠ .suspended := by
  rw [serverCompleteReconnect] at h
  split at h
  · next session _ htry =>
    obtain ⟨hsession, htoken, -⟩ := SessionStore.tryReconnect_eq_ok.1 htry
    split at h
    · next v hresume =>
      exact ⟨session, ⟨hsession, htoken⟩, (ConnectionSm.advance_eq_error.1 hresume).1⟩
    · cases written <;> nomatch h
  · nomatch h

/-- What a successful reconnect hands over: the identifier, the permissions and the user of
    the suspended session, the next generation, and an active connection; the client is
    told the same permissions. -/
theorem serverCompleteReconnect_eq_ok {outcome : ReconnectOutcome} {sm : ConnectionSm}
    {store' : SessionStore} {authResult : Option AuthResult}
    (h : serverCompleteReconnect reauth store newReconnectToken written =
      (.ok (outcome, sm), store', authResult)) :
    ∃ session, reauth.Matches store session ∧ session.connectionSm.state = .suspended ∧
      store' = store.expire reauth.priorSessionId ∧
      sm = { session.connectionSm with state := .active } ∧
      outcome = ⟨reauth.priorSessionId, newReconnectToken, session.grantedPermissions,
        session.lastGeneration + 1, session.userId⟩ ∧
      authResult = some ⟨.ok, ReasonCode.NONE, reauth.priorSessionId, newReconnectToken,
        session.grantedPermissions⟩ := by
  rw [serverCompleteReconnect] at h
  split at h
  · next session _ htry =>
    obtain ⟨hsession, htoken, rfl⟩ := SessionStore.tryReconnect_eq_ok.1 htry
    split at h
    · nomatch h
    · next sm' hresume =>
      obtain ⟨hstate, rfl⟩ := ConnectionSm.advance_eq_ok.1 hresume
      cases written with
      | error e => nomatch h
      | ok _ =>
        cases h
        exact ⟨session, ⟨hsession, htoken⟩, hstate, rfl, rfl, rfl, rfl⟩
  · nomatch h

/-- A removed session is not there any more. -/
theorem expire_ne {session : SuspendedSession} (h : reauth.Matches store session) :
    store.expire reauth.priorSessionId ≠ store := by
  intro heq
  have hnone := congrArg (fun store => store.sessions reauth.priorSessionId) heq
  simp [SessionStore.expire, h.1] at hnone

/-- A reconnect that fails leaves the store as it was, except when the credentials lead to
    a session and the failure comes after: its connection is not suspended, or the result
    cannot be written. -/
theorem serverCompleteReconnect_keeps_store_iff :
    (∀ e, (serverCompleteReconnect reauth store newReconnectToken written).1 = .error e →
      (serverCompleteReconnect reauth store newReconnectToken written).2.1 = store) ↔
      ¬∃ session, reauth.Matches store session ∧
        (session.connectionSm.state ≠ .suspended ∨ ∃ e, written = .error e) := by
  constructor
  · rintro hkeep ⟨session, hmatch, hfail⟩
    obtain ⟨e, he⟩ :
        ∃ e, (serverCompleteReconnect reauth store newReconnectToken written).1 = .error e :=
      (serverCompleteReconnect_error_iff_of_match hmatch).2 hfail
    exact expire_ne hmatch ((serverCompleteReconnect_of_match hmatch).symm.trans (hkeep e he))
  · intro hno e he
    -- a failure with a session is excluded, and one without takes nothing out of the store
    by_cases hmatch : ∃ session, reauth.Matches store session
    · obtain ⟨session, hmatch⟩ := hmatch
      exact absurd ⟨session, hmatch,
        (serverCompleteReconnect_error_iff_of_match hmatch).1 ⟨e, he⟩⟩ hno
    · obtain ⟨_, _, heq⟩ : ∃ e authResult,
          serverCompleteReconnect reauth store newReconnectToken written =
            (.error (.store e), store, some authResult) :=
        serverCompleteReconnect_of_no_match (not_exists.1 hmatch)
      rw [heq]

end

/-- A suspended session. -/
def waitingSession : SuspendedSession :=
  { reconnectToken := Vector.replicate 32 1, connectionSm := ⟨.suspended, 0⟩,
    grantedPermissions := FRESH_GRANT, lastGeneration := 0, userId := "alice" }

/-- The store with that session alone. -/
def waitingStore : SessionStore := SessionStore.new.suspend (Vector.replicate 16 7) waitingSession

/-- The reconnect that the session waits for. -/
def awaitedReauth : SessionReauthenticate :=
  ⟨.reconnect, Vector.replicate 16 7, Vector.replicate 32 1⟩

/-- When the result cannot be written, the session is gone from the store, and the client,
    which was told nothing, is refused when it tries again with the token it holds. -/
theorem serverCompleteReconnect_loses_session :
    let failed := serverCompleteReconnect awaitedReauth waitingStore (Vector.replicate 32 2)
      (.error (.connectionLost .timedOut))
    failed.1 = .error (.write (.connectionLost .timedOut)) ∧ failed.2.1 ≠ waitingStore ∧
      (serverCompleteReconnect awaitedReauth failed.2.1 (Vector.replicate 32 3) (.ok ())).1 =
        .error (.store .noSuchSession) := by
  refine ⟨by decide, ?_, by decide⟩
  have hmatch : awaitedReauth.Matches waitingStore waitingSession := ⟨by decide, rfl⟩
  rw [serverCompleteReconnect_of_match hmatch]
  exact expire_ne hmatch

/-! ## Establishing a connection -/

/-- What the active session starts from. -/
structure ConnectionContext where
  connectionSm : ConnectionSm
  sessionId : SessionId
  userId : String
  reconnectToken : ReconnectToken
  grantedPermissions : PermissionSet
  /-- The generation the video channel starts at. -/
  startingGeneration : ℕ
  isResumed : Bool

/-- The first control message of a connection, with what the rest of establishing it
    meets. -/
inductive FirstControlMessage
  | clientHello (i : ServerHandshakeInput)
  | sessionReauthenticate (reauth : SessionReauthenticate) (newReconnectToken : ReconnectToken)
      (written : Except Quinn.WriteError Unit)

/-- What establishing a connection leads to. -/
inductive EstablishOutcome
  | established (ctx : ConnectionContext)
  | reconnectRejected (reason : ReasonCode)

/-- Establishing a connection, from its first control message, if there is one: the
    outcome, and the store left. -/
def establishConnection (sessions : SessionStore)
    (first : Except HandshakeError FirstControlMessage) :
    Except HandshakeError EstablishOutcome × SessionStore :=
  match first with
  | .error e => (.error e, sessions)
  | .ok (.clientHello i) =>
    match serverHandshakeFromClientHello i with
    | .error e => (.error e, sessions)
    | .ok (outcome, connectionSm) =>
      (.ok (.established
        { connectionSm, sessionId := outcome.sessionId, userId := outcome.userId,
          reconnectToken := outcome.reconnectToken,
          grantedPermissions := outcome.grantedPermissions, startingGeneration := 0,
          isResumed := false }), sessions)
  | .ok (.sessionReauthenticate reauth newReconnectToken written) =>
    match serverCompleteReconnect reauth sessions newReconnectToken written with
    | (.ok (outcome, connectionSm), sessions, _) =>
      (.ok (.established
        { connectionSm, sessionId := outcome.sessionId, userId := outcome.userId,
          reconnectToken := outcome.reconnectToken,
          grantedPermissions := outcome.grantedPermissions,
          startingGeneration := outcome.resumedGeneration, isResumed := true }), sessions)
    | (.error e, sessions, _) => (.ok (.reconnectRejected e.reasonCode), sessions)

variable {sessions sessions' : SessionStore} {ctx : ConnectionContext}

/-- A fresh session starts authenticated, at generation 0, with the permissions of every
    fresh session, and leaves the store alone. -/
theorem establishConnection_fresh {i : ServerHandshakeInput}
    (h : establishConnection sessions (.ok (.clientHello i)) = (.ok (.established ctx), sessions')) :
    sessions' = sessions ∧ ctx.connectionSm.state = .authenticated ∧
      ctx.sessionId = i.sessionId ∧ ctx.reconnectToken = i.reconnectToken ∧
      ctx.grantedPermissions = FRESH_GRANT ∧ ctx.startingGeneration = 0 ∧
      ctx.isResumed = false := by
  rw [establishConnection] at h
  split at h
  · nomatch h
  · next outcome sm houtcome =>
    obtain ⟨hstate, hgrant, hid, htoken⟩ := serverHandshakeFromClientHello_eq_ok houtcome
    cases h
    exact ⟨rfl, hstate, hid, htoken, hgrant, rfl, rfl⟩

/-- A resumed session was suspended in the store, under the token presented, and is no
    longer; it starts active, at the next generation, with the permissions it was stored
    with. -/
theorem establishConnection_resumed {reauth : SessionReauthenticate}
    {newReconnectToken : ReconnectToken} {written : Except Quinn.WriteError Unit}
    (h : establishConnection sessions
      (.ok (.sessionReauthenticate reauth newReconnectToken written)) =
        (.ok (.established ctx), sessions')) :
    ∃ session, reauth.Matches sessions session ∧
      sessions' = sessions.expire reauth.priorSessionId ∧ ctx.connectionSm.state = .active ∧
      ctx.sessionId = reauth.priorSessionId ∧ ctx.reconnectToken = newReconnectToken ∧
      ctx.grantedPermissions = session.grantedPermissions ∧
      ctx.startingGeneration = session.lastGeneration + 1 ∧ ctx.isResumed = true := by
  rw [establishConnection] at h
  split at h
  · next outcome sm _ _ houtcome =>
    obtain ⟨session, hmatch, -, rfl, rfl, rfl, -⟩ := serverCompleteReconnect_eq_ok houtcome
    cases h
    exact ⟨session, hmatch, rfl, rfl, rfl, rfl, rfl, rfl, rfl⟩
  · nomatch h

/-- Establishing a connection takes at most one session out of the store. -/
theorem establishConnection_store (first : Except HandshakeError FirstControlMessage) :
    (establishConnection sessions first).2 = sessions ∨
      ∃ id, (establishConnection sessions first).2 = sessions.expire id := by
  match first with
  | .error e => exact .inl rfl
  | .ok (.clientHello i) =>
    refine .inl ?_
    rw [establishConnection]
    split <;> rfl
  | .ok (.sessionReauthenticate reauth newReconnectToken written) =>
    -- the store is the one the reconnect leaves, whether the connection is established or not
    have hstore : (establishConnection sessions
        (.ok (.sessionReauthenticate reauth newReconnectToken written))).2 =
          (serverCompleteReconnect reauth sessions newReconnectToken written).2.1 := by
      rw [establishConnection]
      split <;> next h => rw [h]
    rw [hstore]
    by_cases hmatch : ∃ session, reauth.Matches sessions session
    · obtain ⟨session, hmatch⟩ := hmatch
      exact .inr ⟨_, serverCompleteReconnect_of_match hmatch⟩
    · obtain ⟨_, _, heq⟩ : ∃ e authResult,
          serverCompleteReconnect reauth sessions newReconnectToken written =
            (.error (.store e), sessions, some authResult) :=
        serverCompleteReconnect_of_no_match (not_exists.1 hmatch)
      rw [heq]
      exact .inl rfl

/-- A connection is established by a handshake or by a reconnect. -/
theorem establishConnection_cases {first : Except HandshakeError FirstControlMessage}
    (h : establishConnection sessions first = (.ok (.established ctx), sessions')) :
    (∃ i, first = .ok (.clientHello i)) ∨
      ∃ reauth newReconnectToken written,
        first = .ok (.sessionReauthenticate reauth newReconnectToken written) := by
  match first with
  | .error e => nomatch h
  | .ok (.clientHello i) => exact .inl ⟨i, rfl⟩
  | .ok (.sessionReauthenticate reauth newReconnectToken written) => exact .inr ⟨_, _, _, rfl⟩

end Sardp
