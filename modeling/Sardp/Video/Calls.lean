import Sardp.Library.Conservation
import Sardp.Video.VideoChannel

/-!
# Calls of a video channel

The calls of a video channel in whatever order they come (`VideoChannel.call`), and in the
order in which the server makes them (`ServedChannel`): an instance is set up before anything
is reported about it, and one that is given up is replaced at once.

A decision the trackers come to is carried out if the instance is in the right state for it,
and refused otherwise (`VideoChannel.onFeedback_eq`). In the order of the server no call is
refused, as the parts of a channel agree all along (`ServedChannel.coherent_of_run`).
-/

namespace Sardp

/-- The state of the instance is right for the decision. -/
def BackpressureDecision.allowedIn : BackpressureDecision → InstanceState → Bool
  | .continue, _ => true
  | .enterCongested, state => state = .streaming
  | .exitCongested, state => state = .congested
  | .resetStream, state => state = .congested

/-- A call of a video channel. -/
inductive ChannelCall
  | markInstanceStreaming
  | feedback (nowUs clientQueueDelayUs appSendQueueBytes : ℕ)
  | keyframeRequest (nowUs : ℕ) (request : KeyframeRequest)
  | prepareReopen
  | activate
  | deactivate

/-- The time and the delay of a report. -/
def ChannelCall.sample : ChannelCall → Option (ℕ × ℕ)
  | .feedback nowUs clientQueueDelayUs _ => some (nowUs, clientQueueDelayUs)
  | _ => none

/-- What a call returns. -/
inductive ChannelReturn
  | done
  | refused (violation : ProtocolViolation)
  | feedback (decision : BackpressureDecision)
  | keyframeRequest (decision : KeyframeRequestDecision)
  | generation (generation : ℕ)
  deriving DecidableEq

/-- The server is to give the instance up for one of the next generation. -/
def ChannelReturn.reopens : ChannelReturn → Bool
  | .feedback .resetStream => true
  | .keyframeRequest .reopen => true
  | _ => false

/-- What follows an operation is done if that is possible. -/
theorem VideoInstanceSm.guarded_bind {A : Type} {allowed : VideoInstanceSm → Bool}
    {f : VideoInstanceSm → VideoInstanceSm} {sm : VideoInstanceSm}
    (g : VideoInstanceSm → Except ProtocolViolation A) :
    guarded allowed f sm >>= g = if allowed sm then g (f sm) else .error unexpected := by
  rw [guarded]
  split_ifs <;> rfl

@[simp] theorem ChannelReturn.reopens_feedback (decision : BackpressureDecision) :
    (ChannelReturn.feedback decision).reopens = decide (decision = .resetStream) := by
  cases decision <;> rfl

namespace VideoChannel

variable (c : VideoChannel) (nowUs clientQueueDelayUs appSendQueueBytes : ℕ)

/-- The reported delay above the baseline. -/
def deltaUs : ℕ :=
  clientQueueDelayUs -
    (c.baseline.record nowUs clientQueueDelayUs).baselineUs.getD clientQueueDelayUs

/-- What the trackers make of a report. -/
def judge : BackpressureDecision × CongestionTracker :=
  c.congestion.evaluate nowUs (c.deltaUs nowUs clientQueueDelayUs) appSendQueueBytes

/-- The channel with the report taken by its trackers. -/
def sampled : VideoChannel :=
  { c with
    baseline := c.baseline.record nowUs clientQueueDelayUs
    congestion := (c.judge nowUs clientQueueDelayUs appSendQueueBytes).2 }

/-- The channel with its instance in another state. -/
def withState (state : InstanceState) : VideoChannel :=
  { c with instanceSm := { c.instanceSm with state } }

/-- The channel with its instance given up. -/
def givenUp : VideoChannel :=
  { c.withState (.closed .reset) with
    channelSm := c.channelSm.onReset, lastReopenUs := some nowUs }

/-- The channel with a decision carried out. -/
def decided : BackpressureDecision → VideoChannel
  | .continue => c
  | .enterCongested => c.withState .congested
  | .exitCongested => c.withState .streaming
  | .resetStream => c.givenUp nowUs

variable {c nowUs clientQueueDelayUs appSendQueueBytes}

theorem applyDecision_eq (decision : BackpressureDecision) :
    c.applyDecision nowUs decision =
      if decision.allowedIn c.instanceSm.state then .ok (c.decided nowUs decision)
      else .error VideoInstanceSm.unexpected := by
  cases decision with
  | «continue» => rfl
  | enterCongested | exitCongested | resetStream => exact VideoInstanceSm.guarded_bind _

/-- A decision is carried out in the right state of the instance, and refused in the others. -/
theorem onFeedback_eq :
    c.onFeedback nowUs clientQueueDelayUs appSendQueueBytes =
      let decision := (c.judge nowUs clientQueueDelayUs appSendQueueBytes).1
      let c' := c.sampled nowUs clientQueueDelayUs appSendQueueBytes
      if decision.allowedIn c.instanceSm.state then (.ok decision, c'.decided nowUs decision)
      else (.error VideoInstanceSm.unexpected, c') := by
  have happly : (c.sampled nowUs clientQueueDelayUs appSendQueueBytes).applyDecision nowUs _ = _ :=
    applyDecision_eq (c.judge nowUs clientQueueDelayUs appSendQueueBytes).1
  -- the trackers take the sample first, but leave the instance that has to allow the decision
  have hstate : (c.sampled nowUs clientQueueDelayUs appSendQueueBytes).instanceSm.state =
      c.instanceSm.state := rfl
  rw [hstate] at happly
  dsimp only
  split_ifs at happly ⊢
  all_goals
    simp only [sampled, judge, deltaUs] at happly ⊢
    simp only [onFeedback, happly]

theorem markInstanceStreaming_eq (h : c.instanceSm = .new) :
    c.markInstanceStreaming = .ok { c with
      instanceSm := ⟨.streaming, true, true⟩, channelSm := c.channelSm.onInstanceStreaming } := by
  rw [markInstanceStreaming, h]
  rfl

/-- An instance that is not new is refused at the first step already. -/
theorem markInstanceStreaming_eq_error (h : c.instanceSm.state ≠ .created) :
    c.instanceSm.onPrologueSent = .error VideoInstanceSm.unexpected ∧
      c.markInstanceStreaming = .error VideoInstanceSm.unexpected := by
  have hstate : decide (c.instanceSm.state = .created) = false := decide_eq_false h
  refine ⟨by simp [VideoInstanceSm.onPrologueSent, VideoInstanceSm.guarded, h], ?_⟩
  rw [markInstanceStreaming, VideoInstanceSm.onPrologueSent, VideoInstanceSm.guarded_bind, hstate]
  rfl

/-! ## Requests for keyframes -/

/-- The last reopen was too recent for another one on request. -/
def TooSoon (c : VideoChannel) (nowUs : ℕ) : Prop :=
  ∃ last ∈ c.lastReopenUs, nowUs < saturatingAdd last KEYFRAME_REQUEST_MIN_INTERVAL_US

/-- There is an instance to give up. -/
def HasInstance (c : VideoChannel) : Prop :=
  c.instanceSm.state = .streaming ∨ c.instanceSm.state = .congested

instance (c : VideoChannel) : Decidable c.HasInstance := by
  unfold HasInstance
  infer_instance

theorem honorKeyframeRequest_eq :
    c.honorKeyframeRequest nowUs =
      if c.HasInstance then (.reopen, c.givenUp nowUs) else (.ignored .notStreaming, c) := by
  simp only [honorKeyframeRequest, VideoInstanceSm.onClientRequestedReset, VideoInstanceSm.guarded]
  by_cases h : c.HasInstance
  · rw [if_pos h, if_pos (by simpa [HasInstance] using h)]
    rfl
  · rw [if_neg h, if_neg (by simpa [HasInstance] using h)]

/-- A request that comes too soon is ignored, and so is one without an instance to give up;
    any other one is honored. -/
theorem onKeyframeRequest_cases (c : VideoChannel) (nowUs : ℕ) (request : KeyframeRequest) :
    (c.TooSoon nowUs ∧
      ∃ t, c.onKeyframeRequest nowUs request = (.ignored (.rateLimited t), c)) ∨
    (¬ c.TooSoon nowUs ∧ c.HasInstance ∧
      c.onKeyframeRequest nowUs request = (.reopen, c.givenUp nowUs)) ∨
    ¬ c.TooSoon nowUs ∧ ¬ c.HasInstance ∧
      c.onKeyframeRequest nowUs request = (.ignored .notStreaming, c) := by
  by_cases hsoon : c.TooSoon nowUs
  · obtain ⟨last, hlast, hlt⟩ := id hsoon
    refine .inl ⟨hsoon, saturatingAdd last KEYFRAME_REQUEST_MIN_INTERVAL_US, ?_⟩
    simp [onKeyframeRequest, Option.mem_def.1 hlast, hlt]
  · -- not too soon, or there has been no reopen to wait for
    have hhonor : c.onKeyframeRequest nowUs request = c.honorKeyframeRequest nowUs := by
      rw [onKeyframeRequest]
      split
      · next last hlast => exact if_neg fun hlt => hsoon ⟨last, hlast, hlt⟩
      · rfl
    rw [hhonor, honorKeyframeRequest_eq]
    by_cases hinstance : c.HasInstance
    · exact .inr (.inl ⟨hsoon, hinstance, if_pos hinstance⟩)
    · exact .inr (.inr ⟨hsoon, hinstance, if_neg hinstance⟩)

/-! ## Calls -/

/-- A call: what it returns, and the channel after it. A refused setup changes nothing, as it
    is refused at the first step (`markInstanceStreaming_eq_error`). -/
def call (c : VideoChannel) : ChannelCall → ChannelReturn × VideoChannel
  | .markInstanceStreaming =>
    match c.markInstanceStreaming with
    | .ok c' => (.done, c')
    | .error v => (.refused v, c)
  | .feedback nowUs clientQueueDelayUs appSendQueueBytes =>
    match c.onFeedback nowUs clientQueueDelayUs appSendQueueBytes with
    | (.ok decision, c') => (.feedback decision, c')
    | (.error v, c') => (.refused v, c')
  | .keyframeRequest nowUs request =>
    let (decision, c') := c.onKeyframeRequest nowUs request
    (.keyframeRequest decision, c')
  | .prepareReopen => (.generation c.prepareReopen.generation, c.prepareReopen)
  | .activate => (.done, c.activate)
  | .deactivate => (.done, c.deactivate)

/-- The calls as a machine. -/
def calls : Machine VideoChannel ChannelCall := ⟨fun c e => some (c.call e).2⟩

theorem call_feedback_of_allowed
    (h : (c.judge nowUs clientQueueDelayUs appSendQueueBytes).1.allowedIn c.instanceSm.state) :
    c.call (.feedback nowUs clientQueueDelayUs appSendQueueBytes) =
      (.feedback (c.judge nowUs clientQueueDelayUs appSendQueueBytes).1,
        (c.sampled nowUs clientQueueDelayUs appSendQueueBytes).decided nowUs
          (c.judge nowUs clientQueueDelayUs appSendQueueBytes).1) := by
  simp only [call, onFeedback_eq, if_pos h]

theorem call_feedback_of_not_allowed
    (h : ¬ (c.judge nowUs clientQueueDelayUs appSendQueueBytes).1.allowedIn c.instanceSm.state) :
    c.call (.feedback nowUs clientQueueDelayUs appSendQueueBytes) =
      (.refused VideoInstanceSm.unexpected,
        c.sampled nowUs clientQueueDelayUs appSendQueueBytes) := by
  simp only [call, onFeedback_eq, if_neg h]

/-- Only reopening changes the generation. -/
theorem generation_call {e : ChannelCall} (he : e ≠ .prepareReopen) :
    (c.call e).2.generation = c.generation := by
  cases e with
  | markInstanceStreaming =>
    cases hmark : c.markInstanceStreaming with
    | ok c' => simpa only [call, hmark] using generation_markInstanceStreaming hmark
    | error v => simp only [call, hmark]
  | feedback nowUs clientQueueDelayUs appSendQueueBytes =>
    have hgeneration : (c.onFeedback nowUs clientQueueDelayUs appSendQueueBytes).2.generation =
      c.generation := generation_onFeedback
    rw [call]
    split <;> next h => rwa [h] at hgeneration
  | keyframeRequest nowUs request =>
    show (c.onKeyframeRequest nowUs request).2.generation = c.generation
    exact generation_onKeyframeRequest
  | prepareReopen => exact absurd rfl he
  | activate | deactivate => rfl

/-- Only reports are recorded and judged; a reopen comes with a new judgement. -/
theorem trackers_call {e : ChannelCall} (he : e.sample = none) :
    (c.call e).2.baseline = c.baseline ∧
      ((c.call e).2.congestion = c.congestion ∨ (c.call e).2.congestion = .new) := by
  cases e with
  | markInstanceStreaming =>
    cases hmark : c.markInstanceStreaming with
    | ok c' =>
      simp only [call, hmark]
      rw [markInstanceStreaming_ok hmark]
      exact ⟨rfl, .inl rfl⟩
    | error v => simp [call, hmark]
  | feedback => cases he
  | keyframeRequest nowUs request =>
    rcases c.onKeyframeRequest_cases nowUs request with ⟨-, t, h⟩ | ⟨-, -, h⟩ | ⟨-, -, h⟩
    all_goals simp [call, h, givenUp, withState]
  | prepareReopen => exact ⟨rfl, .inr rfl⟩
  | activate | deactivate => exact ⟨rfl, .inl rfl⟩

theorem reopens_markInstanceStreaming : (c.call .markInstanceStreaming).1.reopens = false := by
  rw [call]
  split <;> rfl

end VideoChannel

/-! ## The order of the server -/

/-- How far the server is with an instance. -/
inductive Stage
  /-- The first instance is being opened. -/
  | opening
  | running
  /-- The server has decided to give the instance up. -/
  | givenUp
  /-- The next instance is being opened. -/
  | reopening
  deriving DecidableEq

/-- A video channel, and how far the server is with it. -/
structure ServedChannel where
  channel : VideoChannel
  stage : Stage

namespace ServedChannel

/-- The channel before its first instance is open. -/
def start (generation : ℕ) : ServedChannel := ⟨.new generation, .opening⟩

/-- The server makes the call now. -/
def permits (s : ServedChannel) : ChannelCall → Bool
  | .markInstanceStreaming => s.stage = .opening || s.stage = .reopening
  | .feedback _ _ _ => s.stage = .running
  | .keyframeRequest _ _ => s.stage = .running
  | .prepareReopen => s.stage = .givenUp
  | .activate => true
  | .deactivate => true

/-- How far the server is after the call. -/
def stageAfter (s : ServedChannel) (e : ChannelCall) : Stage :=
  match e with
  | .markInstanceStreaming => .running
  | .feedback _ _ _ => if (s.channel.call e).1.reopens then .givenUp else s.stage
  | .keyframeRequest _ _ => if (s.channel.call e).1.reopens then .givenUp else s.stage
  | .prepareReopen => .reopening
  | .activate => s.stage
  | .deactivate => s.stage

/-- The calls of the server as a machine. -/
def calls : Machine ServedChannel ChannelCall :=
  ⟨fun s e => if s.permits e then some ⟨(s.channel.call e).2, s.stageAfter e⟩ else none⟩

theorem calls_step {s s' : ServedChannel} {e : ChannelCall} (h : calls.step s e = some s') :
    s.permits e ∧ s' = ⟨(s.channel.call e).2, s.stageAfter e⟩ := by
  simp only [calls] at h
  split_ifs at h with hpermits
  exact ⟨hpermits, (Option.some.inj h).symm⟩

end ServedChannel

end Sardp
