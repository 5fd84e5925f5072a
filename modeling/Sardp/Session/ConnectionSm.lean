import Mathlib.Tactic.SplitIfs
import Sardp.Messages

/-!
# The states of a connection

A connection is set up in steps, each possible in one state only, and may then be
suspended and resumed (`connection_sm.rs`). An operation in any other state is refused
and changes nothing (`ConnectionSm.advance_eq_ok`).
-/

namespace Sardp

/-- The number of failed authentications that closes a connection. -/
def AUTH_ATTEMPT_LIMIT : ℕ := 3

/-- The states of a connection. -/
inductive ConnectionState
  | handshaking
  | authenticating
  | authenticated
  | active
  /-- The transport is gone; a new connection may resume the session. -/
  | suspended
  | closing (reason : ReasonCode)
  deriving DecidableEq

/-- A connection. -/
structure ConnectionSm where
  state : ConnectionState
  authAttempts : ℕ
  deriving DecidableEq

namespace ConnectionSm

/-- A new connection. -/
def new : ConnectionSm := ⟨.handshaking, 0⟩

/-- What an operation in the wrong state is refused with. -/
def unexpected : ProtocolViolation := ⟨ReasonCode.PROTOCOL_UNEXPECTED_MESSAGE⟩

def allowedInHandshaking (typeId : UInt16) : Bool :=
  typeId = TypeId.CLIENT_HELLO || typeId = TypeId.SERVER_HELLO

def allowedInAuthenticating (typeId : UInt16) : Bool := typeId = TypeId.AUTH_PUBKEY

def allowedInActive (typeId : UInt16) : Bool :=
  !(typeId = TypeId.CLIENT_HELLO || typeId = TypeId.SERVER_HELLO)

/-- Whether a control message of the type is legal in the state. -/
def checkMessage (sm : ConnectionSm) (typeId : UInt16) : Except ProtocolViolation Unit :=
  let allowed :=
    match sm.state with
    | .handshaking => allowedInHandshaking typeId
    | .authenticating => allowedInAuthenticating typeId
    | .authenticated => true
    | .active => allowedInActive typeId
    | .suspended => false
    | .closing _ => false
  if allowed then .ok () else .error unexpected

/-- The step from one state to another, refused in any other state. -/
def advance (source target : ConnectionState) (sm : ConnectionSm) :
    Except ProtocolViolation ConnectionSm :=
  if sm.state = source then .ok { sm with state := target } else .error unexpected

/-- The hellos have been exchanged. -/
def completeHandshake := advance .handshaking .authenticating

/-- An authentication has failed; the limit of failures closes the connection. -/
def recordAuthFailure (sm : ConnectionSm) : ConnectionSm × ProtocolViolation :=
  if sm.state = .authenticating then
    let sm := { sm with authAttempts := sm.authAttempts + 1 }
    if sm.authAttempts ≥ AUTH_ATTEMPT_LIMIT then
      ({ sm with state := .closing ReasonCode.AUTH_TOO_MANY_ATTEMPTS },
        ⟨ReasonCode.AUTH_TOO_MANY_ATTEMPTS⟩)
    else (sm, ⟨ReasonCode.AUTH_SIGNATURE_INVALID⟩)
  else (sm, unexpected)

/-- The authentication has succeeded. -/
def completeAuthentication := advance .authenticating .authenticated

/-- The first video channel is live. -/
def onChannelLive := advance .authenticated .active

/-- The transport is gone. -/
def suspend := advance .active .suspended

/-- A new connection carries on. -/
def resume := advance .suspended .active

/-- A step succeeds exactly in its source state, and only changes the state. -/
theorem advance_eq_ok {source target : ConnectionState} {sm sm' : ConnectionSm} :
    advance source target sm = .ok sm' ↔ sm.state = source ∧ sm' = { sm with state := target } := by
  rw [advance]
  split_ifs with h
  · simp [h, eq_comm]
  · simp [h]

/-- A step is only refused outside its source state, and always for the same reason. -/
theorem advance_eq_error {source target : ConnectionState} {sm : ConnectionSm}
    {v : ProtocolViolation} :
    advance source target sm = .error v ↔ sm.state ≠ source ∧ v = unexpected := by
  rw [advance]
  split_ifs with h
  · simp [h]
  · simp [h, eq_comm]

end ConnectionSm

end Sardp
