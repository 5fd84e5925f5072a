import Sardp.Library.Inactivity
import Sardp.Session.StreamReaders

/-!
# The idle timeouts of the loops

The loops of the server and the client end when nothing has come from the other side for
`IDLE_TIMEOUT`. They look at the clock before anything else but the order to shut down, and note the
time of the last activity (`last_activity`) as soon as something has been read: a control envelope,
before its type is looked at, a message of the feedback or the input stream, or a frame of the
video or the audio.
-/

namespace Sardp

/-- In milliseconds. -/
def IDLE_TIMEOUT : ℕ := 45 * 1000

/-! ## The server -/

/-- Something has been read. A failure to read feedback counts as well, for what that is worth. -/
def LoopEvent.activity : LoopEvent → Option ℕ
  | .control (.ok _) _ | .feedback _ _ _ | .input (some _) => some 0
  | _ => none

/-- The loop looks at the order to shut down before the clock, and at what it does within a tick
    without looking at the clock again. -/
def LoopEvent.urgent : LoopEvent → Bool
  | .shutdown | .command _ _ | .frame _ _ => true
  | _ => false

/-- The idle timeout is over. -/
def LoopEvent.expiry : LoopEvent → Bool
  | .idleTimeout => true
  | _ => false

/-- The loop of the server, with its session and the tasks it has spawned. -/
def ControlCodec.serverLoop (codec : ControlCodec) :
    Watched (Session × List SpawnedTask) ControlledEvent where
  machine := ⟨fun s e => (s.1.step (codec.round e)).map fun (session, task) =>
    (session, s.2 ++ task.toList)⟩
  timeout := IDLE_TIMEOUT
  activity e := (codec.round e).activity
  expiry e := (codec.round e).expiry
  urgent e := (codec.round e).urgent

/-! ## The client -/

/-- What goes on in the loop of the client. -/
inductive ClientLoopEvent
  | shutdown
  | idleTimeout
  | control (read : Except StreamReadError (UInt16 × List UInt8))
  /-- A frame is read, or the first one of the next instance, with how long it takes to accept
      that; and what becomes of processing it. -/
  | frame (read : Except AppError ℕ) (processed : Except AppError Unit)
  /-- A frame of the audio is read, or the audio ends. -/
  | audioFrame (read : Bool)
  /-- Another arm, with what it ends the loop with, if it does. -/
  | other (result : Option (Except AppError Unit))

namespace ClientLoopEvent

/-- What the event ends the loop with, if it does. -/
def result : ClientLoopEvent → Option (Except AppError Unit)
  | .shutdown | .idleTimeout => some (.ok ())
  | .control read => clientControl read
  | .frame (.error e) _ | .frame (.ok _) (.error e) => some (.error e)
  | .frame (.ok _) (.ok ()) | .audioFrame _ => none
  | .other result => result

/-- Something has been read. -/
def activity : ClientLoopEvent → Option ℕ
  | .control (.ok _) | .audioFrame true => some 0
  | .frame (.ok took) _ => some took
  | _ => none

end ClientLoopEvent

/-- The loop of the client, with what it has returned. -/
def clientLoop : Watched (Option (Except AppError Unit)) ClientLoopEvent where
  machine := ⟨fun result e => if result.isSome then none else some e.result⟩
  timeout := IDLE_TIMEOUT
  activity := ClientLoopEvent.activity
  expiry
    | .idleTimeout => true
    | _ => false
  urgent
    | .shutdown => true
    | _ => false

end Sardp
