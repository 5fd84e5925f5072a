import Sardp.Session.Handshake

/-!
# The errors of a connection

Every operation of a connection has errors of its own, and the server wraps them all
(`conn_error.rs`). Which of them mean that the transport is gone is decided by
`isTransportDisconnect`, wrapper by wrapper.

`ConnError.IsTransport` says the same in terms of what went wrong: a failed operation of
the transport, a stream closed early, or the idle timeout, in whatever wrapper. The two
agree except for the errors of the handshake and of the clock synchronisation
(`isTransportDisconnect_iff`).
-/

namespace Sardp

/-- Why no feedback could be read. -/
inductive ReadFeedbackError
  | quic (e : Quinn.ConnectionError)
  | read (e : StreamReadError)
  | decode
  | wrongStreamKind
  | unexpectedType (typeRaw : UInt16)
  deriving DecidableEq

/-- Why an operation on a video stream failed. -/
inductive VideoError
  | quic (e : Quinn.ConnectionError)
  | write (e : Quinn.WriteError)
  | read (e : StreamReadError)
  | decode
  | protocolViolation (reason : ReasonCode)
  | frameLengthMismatch
  | wrongStreamKind
  deriving DecidableEq

/-- Why an operation on an audio stream failed. -/
inductive AudioError
  | quic (e : Quinn.ConnectionError)
  | write (e : Quinn.WriteError)
  | read (e : StreamReadError)
  | decode
  | protocolViolation (reason : ReasonCode)
  | frameLengthMismatch
  | wrongStreamKind
  deriving DecidableEq

/-- Why an operation on a clipboard stream failed. -/
inductive ClipboardSessionError
  | quic (e : Quinn.ConnectionError)
  | write (e : Quinn.WriteError)
  | read (e : StreamReadError)
  | decode
  | wrongStreamKind
  | unexpectedType (typeRaw : UInt16)
  | requestIdMismatch (contextId requestId : ℕ)
  | responseTimeout
  deriving DecidableEq

/-- Why the clocks could not be synchronised. -/
inductive TimeSyncError
  | write (e : Quinn.WriteError)
  | read (e : StreamReadError)
  | decode
  | unexpectedType (typeRaw : UInt16)
  deriving DecidableEq

/-- Why a connection ended. -/
inductive ConnError
  | handshake (e : HandshakeError)
  | quic (e : Quinn.ConnectionError)
  | write (e : Quinn.WriteError)
  | video (e : VideoError)
  | feedback (e : ReadFeedbackError)
  | violation (reason : ReasonCode)
  /-- The encoder failed. -/
  | encode
  /-- The task of the encoder failed. -/
  | join
  | read (e : StreamReadError)
  | timeSync (e : TimeSyncError)
  | audio (e : AudioError)
  | clipboard (e : ClipboardSessionError)
  /-- The capture of the desktop failed. -/
  | capture
  | idleTimeout
  deriving DecidableEq

/-- The error of a read is one of the transport. -/
def isReadDisconnect : StreamReadError → Bool
  | .read _ | .closedEarly => true
  | _ => false

/-- The error of a connection is one of the transport. -/
def isTransportDisconnect : ConnError → Bool
  | .idleTimeout => true
  | .quic _ | .write _ => true
  | .read e => isReadDisconnect e
  | .feedback (.quic _) => true
  | .feedback (.read e) => isReadDisconnect e
  | .video (.quic _) | .video (.write _) => true
  | .video (.read e) => isReadDisconnect e
  | .audio (.quic _) | .audio (.write _) => true
  | .audio (.read e) => isReadDisconnect e
  | .clipboard (.quic _) | .clipboard (.write _) => true
  | .clipboard (.read e) => isReadDisconnect e
  | _ => false

/-! ## What went wrong -/

/-- What a wrapped error comes down to. -/
inductive Cause
  /-- An operation on the connection failed. -/
  | quic (e : Quinn.ConnectionError)
  /-- A write to a stream failed. -/
  | write (e : Quinn.WriteError)
  /-- A read of a stream failed, or the stream was closed early or malformed. -/
  | read (e : StreamReadError)
  /-- Nothing was received for too long. -/
  | idleTimeout
  /-- The server itself found something wrong. -/
  | other
  deriving DecidableEq

/-- The transport is at fault: one of its operations failed, a stream was closed early, or
    nothing was received for too long. -/
def Cause.IsTransport : Cause → Prop
  | .quic _ | .write _ | .idleTimeout => True
  | .read (.read _) | .read .closedEarly => True
  | .read _ | .other => False

/-- The cause of an error, under all its wrappers. -/
def ConnError.cause : ConnError → Cause
  | .handshake (.quic e) | .quic e | .video (.quic e) | .feedback (.quic e) | .audio (.quic e)
  | .clipboard (.quic e) => .quic e
  | .handshake (.write e) | .write e | .video (.write e) | .timeSync (.write e)
  | .audio (.write e) | .clipboard (.write e) => .write e
  | .handshake (.read e) | .read e | .video (.read e) | .feedback (.read e)
  | .timeSync (.read e) | .audio (.read e) | .clipboard (.read e) => .read e
  | .idleTimeout => .idleTimeout
  | _ => .other

/-- The transport is at fault for an error. -/
def ConnError.IsTransport (e : ConnError) : Prop := e.cause.IsTransport

theorem isReadDisconnect_iff {e : StreamReadError} :
    isReadDisconnect e ↔ (Cause.read e).IsTransport := by
  cases e <;> simp [isReadDisconnect, Cause.IsTransport]

/-- The server recognises the errors of the transport, but for those of the handshake and
    of the clock synchronisation. -/
theorem isTransportDisconnect_iff {e : ConnError} :
    isTransportDisconnect e ↔
      e.IsTransport ∧ (∀ e', e ≠ .handshake e') ∧ ∀ e', e ≠ .timeSync e' := by
  cases e with
  | handshake e | timeSync e => simp [isTransportDisconnect]
  | quic e | write e | violation r | encode | join | capture | idleTimeout =>
    simp [isTransportDisconnect, ConnError.IsTransport, ConnError.cause, Cause.IsTransport]
  | read e =>
    simp [isTransportDisconnect, ConnError.IsTransport, ConnError.cause, isReadDisconnect_iff]
  | video e | feedback e | audio e | clipboard e =>
    cases e <;> simp [isTransportDisconnect, ConnError.IsTransport, ConnError.cause,
      isReadDisconnect_iff, Cause.IsTransport]

end Sardp
