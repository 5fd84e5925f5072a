import Mathlib.Data.Nat.Notation

/-!
# The errors of the transport

What the QUIC library under every connection fails with, as it documents it: the
errors of the connection as a whole, and those of reading from and writing to one of
its streams. Nothing here tells when it does.
-/

namespace Sardp.Quinn

/-- Why a connection ended. -/
inductive ConnectionError
  | versionMismatch
  | transportError
  | connectionClosed
  | applicationClosed
  | reset
  | timedOut
  | locallyClosed
  | cidsExhausted
  deriving DecidableEq, Repr

/-- Why a read of a stream failed. -/
inductive ReadError
  | reset (code : ℕ)
  | connectionLost (e : ConnectionError)
  | closedStream
  | illegalOrderedRead
  | zeroRttRejected
  deriving DecidableEq, Repr

/-- Why a write to a stream failed. -/
inductive WriteError
  | stopped (code : ℕ)
  | connectionLost (e : ConnectionError)
  | closedStream
  | zeroRttRejected
  deriving DecidableEq, Repr

end Sardp.Quinn
