import Sardp.Library.Fallible
import Sardp.Session.ConnectionSm
import Sardp.Session.Permission
import Sardp.Wire.StreamReader

/-!
# The handshake of a fresh session

The server's side of a handshake (`handshake.rs`), from the client's hello to the result
of the authentication. What the peer sends, what becomes of the writes, the verification
of the signature and the random bytes are inputs (`ServerHandshakeInput`); whenever it
succeeds, it leaves an authenticated connection and grants the same permissions
(`serverHandshakeFromClientHello_eq_ok`).
-/

namespace Sardp

/-- Why a client could not be authenticated. -/
inductive AuthError
  | exportKeyingMaterialFailed
  | signatureInvalid
  deriving DecidableEq

/-- Why a handshake failed. -/
inductive HandshakeError
  | quic (e : Quinn.ConnectionError)
  | read (e : StreamReadError)
  | write (e : Quinn.WriteError)
  | decode
  | protocolViolation (reason : ReasonCode)
  | auth (e : AuthError)
  | authDenied
  | handshakeTimeout
  | authTimeout
  deriving DecidableEq

/-- What a successful handshake settles. -/
structure HandshakeOutcome where
  sessionId : SessionId
  reconnectToken : ReconnectToken
  grantedPermissions : PermissionSet
  userId : String

/-- What the server meets in a handshake, in order. -/
structure ServerHandshakeInput where
  /-- What becomes of writing the server's hello; `none` when the time is up. -/
  serverHello : Option (Except Quinn.WriteError Unit)
  /-- The type of the client's next message, and the user it names, if it decodes;
      `none` when the time is up. -/
  authPubkey : Option (Except StreamReadError (UInt16 × Option String))
  verification : Except AuthError Unit
  sessionId : SessionId
  reconnectToken : ReconnectToken
  /-- What becomes of writing the result. -/
  authResult : Except Quinn.WriteError Unit

/-- The permissions of a fresh session. -/
def FRESH_GRANT : PermissionSet := Bit.VIEW ||| Bit.INPUT_KEYBOARD ||| Bit.INPUT_MOUSE

/-- Whether the message is legal in the state of the connection. -/
def check (sm : ConnectionSm) (typeId : UInt16) : Except HandshakeError Unit :=
  (sm.checkMessage typeId).mapError fun v => .protocolViolation v.reason

/-- Writing the server's hello, within the time for it. -/
def sendServerHello (i : ServerHandshakeInput) (sm : ConnectionSm) : Except HandshakeError Unit :=
  match i.serverHello with
  | none => throw .handshakeTimeout
  | some written => do
    check sm TypeId.SERVER_HELLO
    written.mapError .write

/-- Reading the client's key, within the time for it: the user it names. -/
def readAuthPubkey (i : ServerHandshakeInput) (sm : ConnectionSm) : Except HandshakeError String :=
  match i.authPubkey with
  | none => throw .authTimeout
  | some authPubkey => do
    let (typeRaw, userId) ← authPubkey.mapError .read
    check sm typeRaw
    (userId.elim (throw .decode) pure : Except HandshakeError String)

/-- Writing the result of the verification. -/
def sendAuthResult (i : ServerHandshakeInput) (sm : ConnectionSm) (userId : String) :
    Except HandshakeError (HandshakeOutcome × ConnectionSm) :=
  match i.verification with
  | .ok () => do
    let sm ← sm.completeAuthentication.mapError fun v => .protocolViolation v.reason
    i.authResult.mapError .write
    return ({ sessionId := i.sessionId, reconnectToken := i.reconnectToken,
              grantedPermissions := FRESH_GRANT, userId }, sm)
  | .error e => do
    -- the failure is recorded in a machine that is then dropped
    i.authResult.mapError .write
    throw (.auth e)

/-- The handshake, once the client's hello has been read. -/
def serverHandshakeFromClientHello (i : ServerHandshakeInput) :
    Except HandshakeError (HandshakeOutcome × ConnectionSm) := do
  let sm := ConnectionSm.new
  check sm TypeId.CLIENT_HELLO
  sendServerHello i sm
  let sm ← sm.completeHandshake.mapError fun v => .protocolViolation v.reason
  let userId ← readAuthPubkey i sm
  sendAuthResult i sm userId

/-- A successful handshake leaves an authenticated connection, with the permissions of
    every fresh session and the identifiers drawn for it. -/
theorem serverHandshakeFromClientHello_eq_ok {i : ServerHandshakeInput}
    {outcome : HandshakeOutcome} {sm : ConnectionSm}
    (h : serverHandshakeFromClientHello i = .ok (outcome, sm)) :
    sm.state = .authenticated ∧ outcome.grantedPermissions = FRESH_GRANT ∧
      outcome.sessionId = i.sessionId ∧ outcome.reconnectToken = i.reconnectToken := by
  obtain ⟨_, -, h⟩ := Except.bind_eq_ok.1 h
  obtain ⟨_, -, h⟩ := Except.bind_eq_ok.1 h
  obtain ⟨_, -, h⟩ := Except.bind_eq_ok.1 h
  obtain ⟨userId, -, h⟩ := Except.bind_eq_ok.1 h
  rw [sendAuthResult] at h
  split at h
  · obtain ⟨_, hauth, h⟩ := Except.bind_eq_ok.1 h
    obtain ⟨-, rfl⟩ := ConnectionSm.advance_eq_ok.1 (Except.mapError_eq_ok.1 hauth)
    obtain ⟨_, -, h⟩ := Except.bind_eq_ok.1 h
    cases h
    exact ⟨rfl, rfl, rfl, rfl⟩
  · obtain ⟨_, -, h⟩ := Except.bind_eq_ok.1 h
    nomatch h

end Sardp
