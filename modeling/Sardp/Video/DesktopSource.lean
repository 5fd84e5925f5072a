import Mathlib.Tactic.Cases
import Sardp.Library.Machine
import Sardp.Library.Passage

/-!
# The desktop as a source of frames

The desktop is captured and encoded next to the session (`desktop_h264.rs` of `sardp-win` and of
`sardp-mac`, and `frame_source.rs`): an image is captured and given to the encoder, the encoder
puts frames out in the order of the images, and a worker sends them into a channel the session
takes them from. On macOS, the frames reach the worker through a hand-off of its own; on Windows,
the worker has the frames it has not sent yet in a vector.

Neither the hand-off nor the channel makes anyone wait: a frame that finds no room is dropped
(`FrameSender.send`). That is *after* it has been encoded.

The session asks for an IDR by a flag (`DesktopSource.requestIdr`), which the next capture takes.

The encoder is not part of the repository: it may put out any frame for an image, keep it for any
time, drop it, and on macOS refuse it. The steps come in any order, which covers the orders of the
threads of either platform.
-/

namespace Sardp

/-- How many frames may wait for the session before the source drops some. -/
def DEFAULT_CHANNEL_CAPACITY : ℕ := 4

/-- A frame of the encoder. In place of what it shows it has its place in the output of the
    encoder, and whether an IDR had been requested when the image was captured. -/
structure EncodedFrame where
  index : ℕ
  isIdr : Bool
  forced : Bool
  deriving DecidableEq

/-- What happened to a frame that was sent. -/
inductive SendOutcome
  | sent
  | dropped
  deriving DecidableEq

/-- Sending a frame, which is dropped if the channel is full. -/
def FrameSender.send (channel : Passage EncodedFrame) (frame : EncodedFrame) :
    SendOutcome × Passage EncodedFrame :=
  (if channel.hasRoom then .sent else .dropped, channel.offer frame)

/-- The platforms that capture the desktop. -/
inductive Platform
  | windows
  | macOs
  deriving DecidableEq

/-- How many frames may wait for the worker. -/
def Platform.handoffCapacity : Platform → Option ℕ
  | .windows => none
  | .macOs => some DEFAULT_CHANNEL_CAPACITY

/-- A desktop that is being captured. -/
structure DesktopSource where
  platform : Platform
  /-- An IDR is requested of the next capture. -/
  forceIdr : Bool
  /-- The images in the encoder, in order: whether an IDR was requested of them. -/
  encoder : List Bool
  /-- How many frames the encoder has put out. -/
  outputs : ℕ
  /-- The frames the worker has not sent. -/
  handoff : Passage EncodedFrame
  channel : Passage EncodedFrame
  /-- The worker has ended. -/
  stopped : Bool

/-- What goes on in the source. -/
inductive SourceEvent
  /-- An image is captured and given to the encoder. -/
  | capture
  /-- An image is captured, and the encoder refuses it. -/
  | refuse
  /-- The encoder puts out the frame of the next image. -/
  | encode (isIdr : Bool)
  /-- The encoder drops the next image. -/
  | skip
  /-- The worker sends the next frame. -/
  | send
  /-- The worker ends, with an error or because it is to stop. -/
  | stop

namespace DesktopSource

/-- A source that has just been started. -/
def start (platform : Platform) : DesktopSource where
  platform
  forceIdr := false
  encoder := []
  outputs := 0
  handoff := .new platform.handoffCapacity
  channel := .new (some DEFAULT_CHANNEL_CAPACITY)
  stopped := false

/-- The session asks for an IDR. -/
def requestIdr (s : DesktopSource) : DesktopSource := { s with forceIdr := true }

/-- The frame the encoder puts out next. -/
def frame (s : DesktopSource) (isIdr forced : Bool) : EncodedFrame := ⟨s.outputs, isIdr, forced⟩

/-- What happens next; `none` where it is not possible. -/
def step (s : DesktopSource) (e : SourceEvent) : Option DesktopSource :=
  if s.stopped then none
  else
    match e with
    -- the request is taken with the image, before the encoder has done anything about it
    | .capture => some { s with forceIdr := false, encoder := s.encoder ++ [s.forceIdr] }
    -- on Windows, an error of the encoder ends the worker
    | .refuse => if s.platform = .macOs then some { s with forceIdr := false } else none
    | .encode isIdr =>
      match s.encoder with
      | [] => none
      | forced :: encoder =>
        some { s with
          encoder
          outputs := s.outputs + 1
          handoff := s.handoff.offer (s.frame isIdr forced) }
    | .skip =>
      match s.encoder with
      | [] => none
      | _ :: encoder => some { s with encoder }
    | .send => s.handoff.take.map fun (frame, handoff) =>
        { s with handoff, channel := (FrameSender.send s.channel frame).2 }
    | .stop => some { s with stopped := true }

/-- The steps as a machine. -/
def machine : Machine DesktopSource SourceEvent := ⟨step⟩

/-- What a step does. -/
theorem step_eq_some {s s' : DesktopSource} {e : SourceEvent} :
    machine.step s e = some s' ↔ s.stopped = false ∧
      match e with
      | .capture => { s with forceIdr := false, encoder := s.encoder ++ [s.forceIdr] } = s'
      | .refuse => s.platform = .macOs ∧ { s with forceIdr := false } = s'
      | .encode isIdr => ∃ forced encoder, s.encoder = forced :: encoder ∧
          { s with
            encoder
            outputs := s.outputs + 1
            handoff := s.handoff.offer (s.frame isIdr forced) } = s'
      | .skip => ∃ forced encoder, s.encoder = forced :: encoder ∧ { s with encoder } = s'
      | .send => ∃ frame handoff, s.handoff.take = some (frame, handoff) ∧
          { s with handoff, channel := s.channel.offer frame } = s'
      | .stop => { s with stopped := true } = s' := by
  cases hstopped : s.stopped with
  | true => simp [machine, step, hstopped]
  | false =>
    cases e with
    | encode | skip => cases hencoder : s.encoder <;> simp [machine, step, hstopped, hencoder]
    | capture | refuse | send | stop => simp [machine, step, hstopped, FrameSender.send]

/-- The session takes the next frame from the channel. -/
def nextFrame (s : DesktopSource) : Option (EncodedFrame × DesktopSource) :=
  s.channel.take.map fun (frame, channel) => (frame, { s with channel })

theorem nextFrame_eq_some {s s' : DesktopSource} {frame : EncodedFrame} :
    s.nextFrame = some (frame, s') ↔
      ∃ channel, s.channel.take = some (frame, channel) ∧ { s with channel } = s' := by
  simp [nextFrame]

end DesktopSource

end Sardp
