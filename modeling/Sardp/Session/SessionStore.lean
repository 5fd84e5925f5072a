import Mathlib.Logic.Function.Basic
import Sardp.Session.ConnectionSm

/-!
# Suspended sessions

A session whose transport is gone waits in a store, under its identifier, for a new
connection to resume it (`session_store.rs`). The token it was suspended with is the
only way to it: a reconnect that presents it takes the session out of the store, one
that does not changes nothing (`SessionStore.tryReconnect_error`).
-/

namespace Sardp

/-- What a suspended session needs to be resumed. -/
structure SuspendedSession where
  reconnectToken : ReconnectToken
  connectionSm : ConnectionSm
  grantedPermissions : PermissionSet
  /-- The generation of the video channel when the session was suspended. -/
  lastGeneration : ℕ
  userId : String
  deriving DecidableEq

/-- Why no session could be resumed. -/
inductive ReconnectError
  | noSuchSession
  | tokenMismatch
  deriving DecidableEq

/-- The suspended sessions, by their identifiers. -/
@[ext]
structure SessionStore where
  sessions : SessionId → Option SuspendedSession

/-- The timer armed when a session is suspended: what it expires when it fires. -/
structure ExpiryTimer where
  sessionId : SessionId
  reconnectToken : ReconnectToken
  deriving DecidableEq

namespace SessionStore

/-- A store without sessions. -/
def new : SessionStore := ⟨fun _ => none⟩

/-- Storing a session, in place of any other of the same identifier. -/
def suspend (store : SessionStore) (sessionId : SessionId) (session : SuspendedSession) :
    SessionStore :=
  ⟨Function.update store.sessions sessionId (some session)⟩

/-- Removing a session, whatever its token. -/
def expire (store : SessionStore) (sessionId : SessionId) : SessionStore :=
  ⟨Function.update store.sessions sessionId none⟩

/-- Taking the session out of the store, if the token is the one it was suspended with. -/
def tryReconnect (store : SessionStore) (sessionId : SessionId) (token : ReconnectToken) :
    Except ReconnectError SuspendedSession × SessionStore :=
  match store.sessions sessionId with
  | some session =>
    if session.reconnectToken = token then (.ok session, store.expire sessionId)
    -- a wrong token does not cost the session, whose client may still come back
    else (.error .tokenMismatch, store)
  | none => (.error .noSuchSession, store)

/-- Removing a session, if it is still the one suspended with the token. -/
def expireIfTokenMatches (store : SessionStore) (sessionId : SessionId)
    (reconnectToken : ReconnectToken) : SessionStore :=
  match store.sessions sessionId with
  | some session => if session.reconnectToken = reconnectToken then store.expire sessionId else store
  | none => store

/-- Whether a session is suspended. -/
def contains (store : SessionStore) (sessionId : SessionId) : Bool :=
  (store.sessions sessionId).isSome

/-- Suspending the connection, storing the session, and arming the timer that expires
    it. Nothing is stored when the connection is not active. -/
def suspendAndScheduleExpiry (store : SessionStore) (sessionId : SessionId) (userId : String)
    (connectionSm : ConnectionSm) (reconnectToken : ReconnectToken)
    (grantedPermissions : PermissionSet) (lastGeneration : ℕ) :
    Except ProtocolViolation (SessionStore × ExpiryTimer) := do
  let connectionSm ← connectionSm.suspend
  let store := store.suspend sessionId
    { reconnectToken, connectionSm, grantedPermissions, lastGeneration, userId }
  return (store, { sessionId, reconnectToken })

variable {store store' : SessionStore} {sessionId : SessionId} {token : ReconnectToken}

/-- Only other sessions are left after one is removed. -/
theorem ne_of_expire {id : SessionId} {session : SuspendedSession}
    (h : (store.expire sessionId).sessions id = some session) : id ≠ sessionId := by
  rintro rfl
  simp [expire] at h

/-- Removing a session adds none. -/
theorem sessions_of_expire {id : SessionId} {session : SuspendedSession}
    (h : (store.expire sessionId).sessions id = some session) :
    store.sessions id = some session := by
  simpa [expire, ne_of_expire h] using h

/-- A reconnect succeeds exactly with the token of the stored session, and removes it. -/
theorem tryReconnect_eq_ok {session : SuspendedSession} :
    store.tryReconnect sessionId token = (.ok session, store') ↔
      store.sessions sessionId = some session ∧ session.reconnectToken = token ∧
        store' = store.expire sessionId := by
  rw [tryReconnect]
  split
  · next s hs =>
    rw [hs]
    split_ifs with htoken
    · simp only [Prod.mk.injEq, Except.ok.injEq, Option.some.injEq]
      constructor
      · rintro ⟨rfl, rfl⟩
        exact ⟨rfl, htoken, rfl⟩
      · rintro ⟨rfl, -, rfl⟩
        exact ⟨rfl, rfl⟩
    · constructor
      · nofun
      · rintro ⟨hs, htoken', -⟩
        exact absurd (Option.some.inj hs ▸ htoken') htoken
  · next hs => simp [hs]

/-- A reconnect that fails changes nothing. -/
theorem tryReconnect_error {e : ReconnectError}
    (h : store.tryReconnect sessionId token = (.error e, store')) : store' = store := by
  rw [tryReconnect] at h
  split at h
  · split_ifs at h
    · nomatch h
    · exact (Prod.mk.inj h).2.symm
  · exact (Prod.mk.inj h).2.symm

/-- A timer removes the session suspended with its token, and no other. -/
theorem expireIfTokenMatches_eq :
    store.expireIfTokenMatches sessionId token =
      if (store.sessions sessionId).map (·.reconnectToken) = some token then
        store.expire sessionId
      else store := by
  rw [expireIfTokenMatches]
  cases store.sessions sessionId <;> simp

/-- Suspending succeeds exactly for an active connection, and stores it suspended. -/
theorem suspendAndScheduleExpiry_eq_ok {userId : String} {connectionSm : ConnectionSm}
    {grantedPermissions : PermissionSet} {lastGeneration : ℕ} {timer : ExpiryTimer} :
    store.suspendAndScheduleExpiry sessionId userId connectionSm token grantedPermissions
        lastGeneration = .ok (store', timer) ↔
      connectionSm.state = .active ∧ timer = ⟨sessionId, token⟩ ∧
        store' = store.suspend sessionId
          ⟨token, { connectionSm with state := .suspended }, grantedPermissions, lastGeneration,
            userId⟩ := by
  rw [suspendAndScheduleExpiry]
  cases h : connectionSm.suspend with
  | error v =>
    have := (ConnectionSm.advance_eq_error.1 h).1
    simp [bind, Except.bind, this]
  | ok sm =>
    obtain ⟨hactive, rfl⟩ := ConnectionSm.advance_eq_ok.1 h
    simp only [bind, Except.bind, pure, Except.pure, Except.ok.injEq, Prod.mk.injEq, hactive,
      true_and]
    constructor
    · rintro ⟨rfl, rfl⟩
      exact ⟨rfl, rfl⟩
    · rintro ⟨rfl, rfl⟩
      exact ⟨rfl, rfl⟩

end SessionStore

end Sardp
