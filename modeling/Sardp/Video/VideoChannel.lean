import Mathlib.Algebra.Group.Nat.Defs
import Mathlib.Tactic.SplitIfs
import Sardp.Library.Fallible
import Sardp.Messages
import Sardp.Video.Backpressure

/-!
# Video channels

A video channel (`video_channel.rs`) goes through instances, one a generation. It holds
the state of the channel (`channel_sm.rs`), that of its current instance
(`video_sm.rs`), the trackers of `Sardp.Video.Backpressure`, and the generation.

Only `VideoChannel.prepareReopen` changes the generation, by one; the operations in
between leave it alone (`VideoChannel.generation_onFeedback` and its like).
-/

namespace Sardp

/-- The sum of two 64-bit numbers, or the largest one there is. -/
def saturatingAdd (a b : ℕ) : ℕ := min (a + b) (2 ^ 64 - 1)

/-! ## Channels -/

/-- The states of a channel. -/
inductive ChannelState
  | initializing
  | live
  | recovering
  /-- Not the monitor in focus; the instance goes on streaming. -/
  | paused
  deriving DecidableEq, Repr

def RECOVERY_BACKOFF_SEQUENCE_US : List ℕ :=
  [1000000, 2000000, 4000000, 8000000, 16000000, 30000000]

def RECOVERY_BACKOFF_PLATEAU_US : ℕ := 30000000

/-- A channel. -/
structure ChannelSm where
  state : ChannelState
  /-- The attempts in a row that have failed to recover. -/
  retryAttempt : ℕ
  /-- The time before which no attempt may be made. -/
  nextRetryAllowedAtUs : Option ℕ
  deriving DecidableEq

namespace ChannelSm

/-- A new channel. -/
def new : ChannelSm := ⟨.initializing, 0, none⟩

/-- An instance is streaming: whatever was to be recovered from is over. -/
def onInstanceStreaming (_ : ChannelSm) : ChannelSm := ⟨.live, 0, none⟩

/-- The instance has been given up. -/
def onReset (sm : ChannelSm) : ChannelSm := { sm with state := .recovering }

/-- An attempt to recover has failed. -/
def onRetryTimeout (sm : ChannelSm) (nowUs : ℕ) : ChannelSm :=
  let delayUs := (RECOVERY_BACKOFF_SEQUENCE_US[sm.retryAttempt]?).getD RECOVERY_BACKOFF_PLATEAU_US
  { sm with
    nextRetryAllowedAtUs := some (nowUs + delayUs), retryAttempt := sm.retryAttempt + 1 }

/-- Whether an attempt may be made. -/
def mayRetry (sm : ChannelSm) (nowUs : ℕ) : Bool :=
  match sm.nextRetryAllowedAtUs with
  | none => true
  | some t => nowUs ≥ t

/-- The monitor loses the focus. -/
def deactivate (sm : ChannelSm) : ChannelSm :=
  if sm.state = .live then { sm with state := .paused } else sm

/-- The monitor regains the focus. -/
def activate (sm : ChannelSm) : ChannelSm :=
  if sm.state = .paused then { sm with state := .live } else sm

end ChannelSm

/-! ## Instances -/

/-- Why an instance has closed. -/
inductive CloseReason
  | reset
  | failed
  | normal
  deriving DecidableEq, Repr

/-- The states of an instance. -/
inductive InstanceState
  | created
  | configuring
  | streaming
  | congested
  | closed (reason : CloseReason)
  deriving DecidableEq, Repr

/-- An instance: its state, and which of its setup messages have been sent. -/
structure VideoInstanceSm where
  state : InstanceState
  sentGeneration : Bool
  sentEncoderConfig : Bool
  deriving DecidableEq

namespace VideoInstanceSm

/-- What an operation in the wrong state is refused with. -/
def unexpected : ProtocolViolation := ⟨ReasonCode.PROTOCOL_UNEXPECTED_MESSAGE⟩

/-- A new instance. -/
def new : VideoInstanceSm := ⟨.created, false, false⟩

/-- An operation that is only possible under a condition. -/
def guarded (allowed : VideoInstanceSm → Bool) (f : VideoInstanceSm → VideoInstanceSm)
    (sm : VideoInstanceSm) : Except ProtocolViolation VideoInstanceSm :=
  if allowed sm then .ok (f sm) else .error unexpected

/-- The prologue has been sent. -/
def onPrologueSent :=
  guarded (fun sm => sm.state = .created) fun sm => { sm with state := .configuring }

/-- The generation has been sent, first and once. -/
def onGenerationSent :=
  guarded (fun sm => sm.state = .configuring && !sm.sentGeneration)
    fun sm => { sm with sentGeneration := true }

/-- The configuration has been sent, after the generation and once. -/
def onEncoderConfigSent :=
  guarded (fun sm => sm.state = .configuring && (sm.sentGeneration && !sm.sentEncoderConfig))
    fun sm => { sm with sentEncoderConfig := true }

/-- The first frame has been sent, after both. -/
def onFirstIdrSent :=
  guarded (fun sm => sm.state = .configuring && (sm.sentGeneration && sm.sentEncoderConfig))
    fun sm => { sm with state := .streaming }

/-- The client is falling behind. -/
def onCongested :=
  guarded (fun sm => sm.state = .streaming) fun sm => { sm with state := .congested }

/-- The client has caught up. -/
def onRecovered :=
  guarded (fun sm => sm.state = .congested) fun sm => { sm with state := .streaming }

/-- The server gives the instance up. -/
def onReset :=
  guarded (fun sm => sm.state = .congested) fun sm => { sm with state := .closed .reset }

/-- The server gives the instance up for the client. -/
def onClientRequestedReset :=
  guarded (fun sm => sm.state = .streaming || sm.state = .congested)
    fun sm => { sm with state := .closed .reset }

end VideoInstanceSm

/-! ## Video channels -/

/-- Why a request for a keyframe is ignored. -/
inductive KeyframeRequestIgnored
  | rateLimited (nextAllowedAtUs : ℕ)
  | notStreaming
  deriving DecidableEq

/-- What becomes of a request for a keyframe. -/
inductive KeyframeRequestDecision
  | reopen
  | ignored (why : KeyframeRequestIgnored)
  deriving DecidableEq

/-- The age of a client's queue that makes it ask for a keyframe. -/
def TRIP_THRESHOLD_US : ℕ :=
  MAX_VIDEO_QUEUE_DURATION_DELTA_US * HARD_THRESHOLD_CONSECUTIVE_COUNT + 100000

/-- The least time between the last reopen and one for a request. -/
def KEYFRAME_REQUEST_MIN_INTERVAL_US : ℕ := TRIP_THRESHOLD_US

/-- A video channel. -/
structure VideoChannel where
  channelSm : ChannelSm
  baseline : BaselineTracker
  congestion : CongestionTracker
  instanceSm : VideoInstanceSm
  generation : ℕ
  /-- The time of the last decision to reopen. -/
  lastReopenUs : Option ℕ
  deriving DecidableEq

namespace VideoChannel

/-- The channel of a session that starts at the generation. -/
def new (generation : ℕ) : VideoChannel where
  channelSm := .new
  baseline := .withDefaultWindow
  congestion := .new
  instanceSm := .new
  generation
  lastReopenUs := none

/-- The monitor of the channel loses the focus. -/
def deactivate (c : VideoChannel) : VideoChannel := { c with channelSm := c.channelSm.deactivate }

/-- The monitor of the channel regains the focus. -/
def activate (c : VideoChannel) : VideoChannel := { c with channelSm := c.channelSm.activate }

/-- The setup and the first frame of the instance have been sent. -/
def markInstanceStreaming (c : VideoChannel) : Except ProtocolViolation VideoChannel := do
  let instanceSm ← c.instanceSm.onPrologueSent
  let instanceSm ← instanceSm.onGenerationSent
  let instanceSm ← instanceSm.onEncoderConfigSent
  let instanceSm ← instanceSm.onFirstIdrSent
  return { c with instanceSm, channelSm := c.channelSm.onInstanceStreaming }

/-- The state of the channel after a decision about its current instance. -/
def applyDecision (c : VideoChannel) (nowUs : ℕ) :
    BackpressureDecision → Except ProtocolViolation VideoChannel
  | .continue => return c
  | .enterCongested => return { c with instanceSm := ← c.instanceSm.onCongested }
  | .exitCongested => return { c with instanceSm := ← c.instanceSm.onRecovered }
  | .resetStream =>
    return { c with
      instanceSm := ← c.instanceSm.onReset
      channelSm := c.channelSm.onReset
      lastReopenUs := some nowUs }

/-- A report of the client: what it means, and the channel after it. The trackers have
    taken the sample also when the decision is refused. -/
def onFeedback (c : VideoChannel) (nowUs clientQueueDelayUs appSendQueueBytes : ℕ) :
    Except ProtocolViolation BackpressureDecision × VideoChannel :=
  let baseline := c.baseline.record nowUs clientQueueDelayUs
  let delta := clientQueueDelayUs - baseline.baselineUs.getD clientQueueDelayUs
  let (decision, congestion) := c.congestion.evaluate nowUs delta appSendQueueBytes
  -- both trackers keep the sample, also if the instance refuses what follows from it
  let c := { c with baseline, congestion }
  match c.applyDecision nowUs decision with
  | .ok c => (.ok decision, c)
  | .error v => (.error v, c)

/-- Honoring a request for a keyframe, if there is an instance to give up. -/
def honorKeyframeRequest (c : VideoChannel) (nowUs : ℕ) : KeyframeRequestDecision × VideoChannel :=
  match c.instanceSm.onClientRequestedReset with
  | .error _ => (.ignored .notStreaming, c)
  | .ok instanceSm =>
    (.reopen, { c with
      instanceSm, channelSm := c.channelSm.onReset, lastReopenUs := some nowUs })

/-- A request for a keyframe, whatever its reason: what becomes of it, and the channel
    after it. -/
def onKeyframeRequest (c : VideoChannel) (nowUs : ℕ) (_request : KeyframeRequest) :
    KeyframeRequestDecision × VideoChannel :=
  match c.lastReopenUs with
  | some last =>
    -- the time counts from the last decision to reopen, whichever side it was made for
    let nextAllowedAtUs := saturatingAdd last KEYFRAME_REQUEST_MIN_INTERVAL_US
    if nowUs < nextAllowedAtUs then (.ignored (.rateLimited nextAllowedAtUs), c)
    else c.honorKeyframeRequest nowUs
  | none => c.honorKeyframeRequest nowUs

/-- The channel for the next instance, one generation on. -/
def prepareReopen (c : VideoChannel) : VideoChannel :=
  -- the baseline and the time of the last decision are the channel's, and outlive the instance
  { c with
    generation := c.generation + 1, congestion := .new, instanceSm := .new }

variable {c c' : VideoChannel}

@[simp] theorem generation_prepareReopen : c.prepareReopen.generation = c.generation + 1 := rfl

/-- Setting an instance up does not touch the trackers. -/
theorem markInstanceStreaming_ok (h : c.markInstanceStreaming = .ok c') :
    c' = { c with instanceSm := c'.instanceSm, channelSm := c'.channelSm } := by
  -- the four operations of the setup, one after the other
  obtain ⟨_, -, h⟩ := Except.bind_eq_ok.1 h
  obtain ⟨_, -, h⟩ := Except.bind_eq_ok.1 h
  obtain ⟨_, -, h⟩ := Except.bind_eq_ok.1 h
  obtain ⟨_, -, h⟩ := Except.bind_eq_ok.1 h
  cases h
  rfl

theorem generation_markInstanceStreaming (h : c.markInstanceStreaming = .ok c') :
    c'.generation = c.generation := by
  rw [markInstanceStreaming_ok h]

/-- The channel of a session whose first instance is streaming. -/
def streaming (generation : ℕ) : VideoChannel :=
  { new generation with
    channelSm := ChannelSm.new.onInstanceStreaming, instanceSm := ⟨.streaming, true, true⟩ }

theorem markInstanceStreaming_new (generation : ℕ) :
    (new generation).markInstanceStreaming = .ok (streaming generation) := rfl

/-- A new instance can be set up. -/
theorem markInstanceStreaming_of_new (h : c.instanceSm = .new) :
    ∃ c', c.markInstanceStreaming = .ok c' := by
  rw [markInstanceStreaming, h]
  exact ⟨_, rfl⟩

theorem generation_applyDecision {nowUs : ℕ} {decision : BackpressureDecision}
    (h : c.applyDecision nowUs decision = .ok c') : c'.generation = c.generation := by
  cases decision with
  | «continue» =>
    cases h
    rfl
  | enterCongested | exitCongested | resetStream =>
    obtain ⟨_, -, h⟩ := Except.bind_eq_ok.1 h
    cases h
    rfl

@[simp] theorem generation_onFeedback {nowUs clientQueueDelayUs appSendQueueBytes : ℕ} :
    (c.onFeedback nowUs clientQueueDelayUs appSendQueueBytes).2.generation = c.generation := by
  rw [onFeedback]
  dsimp only
  split
  · next c' h => exact (generation_applyDecision h).trans rfl
  · rfl

theorem generation_honorKeyframeRequest {nowUs : ℕ} :
    (c.honorKeyframeRequest nowUs).2.generation = c.generation := by
  rw [honorKeyframeRequest]
  split <;> rfl

@[simp] theorem generation_onKeyframeRequest {nowUs : ℕ} {request : KeyframeRequest} :
    (c.onKeyframeRequest nowUs request).2.generation = c.generation := by
  rw [onKeyframeRequest]
  split
  · next last _ =>
    by_cases h : nowUs < saturatingAdd last KEYFRAME_REQUEST_MIN_INTERVAL_US
    · simp only [h, if_true]
    · simp only [h, if_false]
      exact generation_honorKeyframeRequest
  · exact generation_honorKeyframeRequest

end VideoChannel

end Sardp
