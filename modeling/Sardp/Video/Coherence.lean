import Sardp.Video.Calls

/-!
# The parts of a video channel agree

A video channel keeps its state four times over: the tracker says whether the instance is
congested, and so does the instance; the instance says whether it is streaming, and so does
the channel. In the order in which the server makes its calls the four agree
(`ServedChannel.Coherent`), so that no call is ever refused
(`ServedChannel.coherent_of_run`).
-/

namespace Sardp

namespace VideoChannel

variable {c c' : VideoChannel} {nowUs clientQueueDelayUs appSendQueueBytes : ℕ}

/-- There is an instance, and the tracker judges it for what it is. -/
def InSync (c : VideoChannel) : Prop :=
  c.HasInstance ∧ (c.congestion.congested = true ↔ c.instanceSm.state = .congested)

theorem evaluated_judge (c : VideoChannel) (nowUs clientQueueDelayUs appSendQueueBytes : ℕ) :
    c.congestion.Evaluated nowUs (c.deltaUs nowUs clientQueueDelayUs) appSendQueueBytes
      (c.judge nowUs clientQueueDelayUs appSendQueueBytes).1
      (c.judge nowUs clientQueueDelayUs appSendQueueBytes).2 :=
  CongestionTracker.evaluated rfl

/-- What a report about an instance in sync means can be carried out. -/
theorem InSync.allowedIn (h : c.InSync) :
    (c.judge nowUs clientQueueDelayUs appSendQueueBytes).1.allowedIn c.instanceSm.state := by
  have hev := c.evaluated_judge nowUs clientQueueDelayUs appSendQueueBytes
  generalize (c.judge nowUs clientQueueDelayUs appSendQueueBytes).1 = decision at hev ⊢
  generalize (c.judge nowUs clientQueueDelayUs appSendQueueBytes).2 = congestion at hev
  cases hev with
  | calm | stay => rfl
  | enter hcalm =>
    rcases h.1 with hstate | hstate
    · simp [BackpressureDecision.allowedIn, hstate]
    · rw [h.2.2 hstate] at hcalm
      cases hcalm
  | reset hcongested | exit hcongested =>
    simp [BackpressureDecision.allowedIn, h.2.1 hcongested]

/-- If it does not give the instance up, the instance stays in sync. -/
theorem InSync.decided (h : c.InSync)
    (hreset : (c.judge nowUs clientQueueDelayUs appSendQueueBytes).1 ≠ .resetStream) :
    ((c.sampled nowUs clientQueueDelayUs appSendQueueBytes).decided nowUs
      (c.judge nowUs clientQueueDelayUs appSendQueueBytes).1).InSync := by
  have hev := c.evaluated_judge nowUs clientQueueDelayUs appSendQueueBytes
  rw [sampled]
  generalize (c.judge nowUs clientQueueDelayUs appSendQueueBytes).1 = decision at hev hreset ⊢
  generalize (c.judge nowUs clientQueueDelayUs appSendQueueBytes).2 = congestion at hev ⊢
  cases hev with
  | calm => exact h
  | enter => exact ⟨.inr rfl, iff_of_true rfl rfl⟩
  | reset => exact absurd rfl hreset
  | exit => exact ⟨.inl rfl, iff_of_false Bool.false_ne_true (by rintro ⟨⟩)⟩
  | stay hcongested => exact ⟨h.1, iff_of_true rfl (h.2.1 hcongested)⟩

theorem channelSm_decided {decision : BackpressureDecision} (hreset : decision ≠ .resetStream) :
    (c.decided nowUs decision).channelSm = c.channelSm := by
  cases decision with
  | resetStream => exact absurd rfl hreset
  | _ => rfl

/-- Requests for keyframes leave the samples of the baseline alone. -/
theorem baseline_keyframeRequest (c : VideoChannel) (nowUs : ℕ) (request : KeyframeRequest) :
    (c.onKeyframeRequest nowUs request).2.baseline = c.baseline := by
  rcases c.onKeyframeRequest_cases nowUs request with ⟨-, t, h⟩ | ⟨-, -, h⟩ | ⟨-, -, h⟩
  all_goals exact congrArg (fun r => r.2.baseline) h

end VideoChannel

namespace ServedChannel

variable {s s' : ServedChannel} {e : ChannelCall}

/-- The parts of the channel agree with each other, and with what the server is doing. -/
structure Coherent (s : ServedChannel) : Prop where
  inSync : s.stage = .running → s.channel.InSync
  hasInstance : s.channel.HasInstance → s.stage = .running
  recovering : s.channel.channelSm.state = .recovering ↔ s.stage = .givenUp ∨ s.stage = .reopening
  new : s.stage = .opening ∨ s.stage = .reopening →
    s.channel.instanceSm = .new ∧ s.channel.congestion = .new

theorem coherent_start (generation : ℕ) : (start generation).Coherent where
  inSync := nofun
  hasInstance := nofun
  recovering := iff_of_false nofun nofun
  new _ := ⟨rfl, rfl⟩

theorem coherent_running {c : VideoChannel} (hsync : c.InSync)
    (hrecovering : c.channelSm.state ≠ .recovering) : Coherent ⟨c, .running⟩ where
  inSync _ := hsync
  hasInstance _ := rfl
  recovering := iff_of_false hrecovering nofun
  new := nofun

theorem coherent_givenUp (c : VideoChannel) (nowUs : ℕ) : Coherent ⟨c.givenUp nowUs, .givenUp⟩ where
  inSync := nofun
  hasInstance := nofun
  recovering := iff_of_true rfl (.inl rfl)
  new := nofun

theorem coherent_reopening {c : VideoChannel} (hrecovering : c.channelSm.state = .recovering) :
    Coherent ⟨c.prepareReopen, .reopening⟩ where
  inSync := nofun
  hasInstance := nofun
  recovering := iff_of_true hrecovering (.inr rfl)
  new _ := ⟨rfl, rfl⟩

/-- The focus of the monitor does not matter. -/
theorem Coherent.withChannelSm (h : s.Coherent) {channelSm : ChannelSm}
    (hstate : channelSm.state = .recovering ↔ s.channel.channelSm.state = .recovering) :
    Coherent ⟨{ s.channel with channelSm }, s.stage⟩ where
  inSync := h.inSync
  hasInstance := h.hasInstance
  recovering := hstate.trans h.recovering
  new := h.new

theorem Coherent.feedback (h : s.Coherent) (hstage : s.stage = .running)
    (nowUs clientQueueDelayUs appSendQueueBytes : ℕ) :
    let r := s.channel.call (.feedback nowUs clientQueueDelayUs appSendQueueBytes)
    Coherent ⟨r.2, if r.1.reopens then .givenUp else .running⟩ ∧
      ∀ violation, r.1 ≠ .refused violation := by
  have hsync := h.inSync hstage
  have hrecovering : s.channel.channelSm.state ≠ .recovering := by
    rw [Ne, h.recovering, hstage]
    nofun
  -- an instance in sync with the tracker allows whatever the tracker decides
  rw [VideoChannel.call_feedback_of_allowed hsync.allowedIn]
  by_cases hreset :
      (s.channel.judge nowUs clientQueueDelayUs appSendQueueBytes).1 = .resetStream
  · rw [hreset]
    exact ⟨coherent_givenUp _ _, nofun⟩
  · simp only [ChannelReturn.reopens_feedback, hreset, decide_false]
    refine ⟨coherent_running (hsync.decided hreset) ?_, nofun⟩
    rw [VideoChannel.channelSm_decided hreset]
    exact hrecovering

theorem Coherent.keyframeRequest (h : s.Coherent) (hstage : s.stage = .running) (nowUs : ℕ)
    (request : KeyframeRequest) :
    let r := s.channel.call (.keyframeRequest nowUs request)
    Coherent ⟨r.2, if r.1.reopens then .givenUp else .running⟩ ∧
      ∀ violation, r.1 ≠ .refused violation := by
  refine ⟨?_, nofun⟩
  rcases s.channel.onKeyframeRequest_cases nowUs request with
    ⟨-, t, hr⟩ | ⟨-, -, hr⟩ | ⟨-, -, hr⟩
  · simp only [VideoChannel.call, hr]
    exact hstage ▸ h
  · simp only [VideoChannel.call, hr]
    exact coherent_givenUp _ _
  · simp only [VideoChannel.call, hr]
    exact hstage ▸ h

/-- A call the server makes of a coherent channel is not refused, and keeps it coherent. -/
theorem Coherent.step (h : s.Coherent) (hstep : calls.step s e = some s') :
    s'.Coherent ∧ ∀ violation, (s.channel.call e).1 ≠ .refused violation := by
  obtain ⟨hpermits, rfl⟩ := calls_step hstep
  cases e with
  | markInstanceStreaming =>
    have hstage : s.stage = .opening ∨ s.stage = .reopening := by simpa [permits] using hpermits
    -- the instance and its tracker are new, also when the channel is not
    obtain ⟨hinstance, hcongestion⟩ := h.new hstage
    have hmark := VideoChannel.markInstanceStreaming_eq hinstance
    simp only [VideoChannel.call, hmark, stageAfter]
    refine ⟨coherent_running ⟨.inl rfl, ?_⟩ (by rintro ⟨⟩), by rintro _ ⟨⟩⟩
    rw [hcongestion]
    exact iff_of_false Bool.false_ne_true (by simp)
  | feedback nowUs clientQueueDelayUs appSendQueueBytes =>
    have hstage : s.stage = .running := by simpa [permits] using hpermits
    have hfeedback := h.feedback hstage nowUs clientQueueDelayUs appSendQueueBytes
    rwa [← hstage] at hfeedback
  | keyframeRequest nowUs request =>
    have hstage : s.stage = .running := by simpa [permits] using hpermits
    have hrequest := h.keyframeRequest hstage nowUs request
    rwa [← hstage] at hrequest
  | prepareReopen =>
    have hstage : s.stage = .givenUp := by simpa [permits] using hpermits
    exact ⟨coherent_reopening (h.recovering.2 (.inl hstage)), by rintro _ ⟨⟩⟩
  | activate =>
    refine ⟨h.withChannelSm ?_, by rintro _ ⟨⟩⟩
    rw [ChannelSm.activate]
    split
    · next hpaused => simp [hpaused]
    · exact Iff.rfl
  | deactivate =>
    refine ⟨h.withChannelSm ?_, by rintro _ ⟨⟩⟩
    rw [ChannelSm.deactivate]
    split
    · next hlive => simp [hlive]
    · exact Iff.rfl

/-- The decisions to reopen. -/
def reopenings (s : ServedChannel) (e : ChannelCall) : List ChannelReturn :=
  if (s.channel.call e).1.reopens then [(s.channel.call e).1] else []

/-- The generation, and one more if it is to be given up. -/
def generations (s : ServedChannel) : ℕ :=
  s.channel.generation + if s.stage = .givenUp then 1 else 0

/-- Every decision to reopen is followed by one generation more. -/
theorem generations_step (hstep : calls.step s e = some s') :
    s'.generations = s.generations + (s.reopenings e).length := by
  obtain ⟨hpermits, rfl⟩ := calls_step hstep
  -- a decision to reopen makes one generation due, and reopening settles it
  cases e with
  | markInstanceStreaming =>
    have hstage : s.stage ≠ .givenUp := by
      rintro hstage
      simp [permits, hstage] at hpermits
    simp [generations, reopenings, stageAfter, hstage, VideoChannel.reopens_markInstanceStreaming,
      VideoChannel.generation_call]
  | feedback | keyframeRequest =>
    have hstage : s.stage = .running := by simpa [permits] using hpermits
    simp only [generations, reopenings, stageAfter, VideoChannel.generation_call, ne_eq,
      reduceCtorEq, not_false_eq_true, hstage]
    split <;> rfl
  | prepareReopen =>
    have hstage : s.stage = .givenUp := by simpa [permits] using hpermits
    simp [generations, reopenings, stageAfter, VideoChannel.call, ChannelReturn.reopens, hstage]
  | activate | deactivate => rfl

/-- In the order of the server, no call is refused, the tracker says of an instance that it is
    congested exactly if it is, the channel is recovering exactly from a decision to reopen
    until the next instance is streaming, requests and reopens leave the baseline alone, and
    the generation counts the decisions to reopen. -/
theorem coherent_of_run (generation : ℕ) {es : List ChannelCall} {s' : ServedChannel}
    (hrun : calls.run (start generation) es = some s') :
    calls.Always (fun s e s' =>
        (∀ violation, (s.channel.call e).1 ≠ .refused violation) ∧
        ((∃ nowUs request, e = .keyframeRequest nowUs request) ∨ e = .prepareReopen →
          s'.channel.baseline = s.channel.baseline)) (start generation) es ∧
      (s'.channel.HasInstance → (s'.channel.congestion.congested = true ↔
        s'.channel.instanceSm.state = .congested)) ∧
      (s'.channel.channelSm.state = .recovering ↔
        s'.stage = .givenUp ∨ s'.stage = .reopening) ∧
      s'.channel.generation + (if s'.stage = .givenUp then 1 else 0) =
        generation + (calls.outputs reopenings (start generation) es).length := by
  have hstart := coherent_start generation
  have hcoherent : s'.Coherent :=
    Machine.run_invariant (fun _ _ _ h hstep => (h.step hstep).1) hstart hrun
  refine ⟨?_, fun h => (hcoherent.inSync (hcoherent.hasInstance h)).2, hcoherent.recovering, ?_⟩
  · refine Machine.always_of_step (fun _ _ _ h hstep => (h.step hstep).1) ?_ hstart
    intro s e s' h hstep
    refine ⟨(h.step hstep).2, ?_⟩
    obtain ⟨-, rfl⟩ := calls_step hstep
    rintro (⟨nowUs, request, rfl⟩ | rfl)
    · exact s.channel.baseline_keyframeRequest nowUs request
    · rfl
  · exact Machine.add_length_outputs (μ := generations) (fun _ _ _ => generations_step) hrun

/-- A channel that is congested, loses the focus and is reopened on request. -/
theorem coherent_of_reopened :
    let es := [.markInstanceStreaming, .feedback 0 5000 0, .feedback 100000 150000 0, .deactivate,
      .keyframeRequest 200000 ⟨.decodeError⟩, .prepareReopen, .markInstanceStreaming]
    ∃ s', calls.run (start 0) es = some s' ∧ s'.channel.channelSm.state ≠ .recovering ∧
      s'.channel.generation = 0 + (calls.outputs reopenings (start 0) es).length := by
  intro es
  have hstage : (calls.run (start 0) es).map stage = some .running := by decide
  obtain ⟨s', hrun, hstage⟩ := Option.map_eq_some_iff.1 hstage
  obtain ⟨-, -, hrecovering, hgeneration⟩ := coherent_of_run 0 hrun
  refine ⟨s', hrun, ?_, ?_⟩
  · rw [Ne, hrecovering, hstage]
    nofun
  · rwa [hstage] at hgeneration

end ServedChannel

end Sardp
