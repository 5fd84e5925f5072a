import Sardp.Video.Coherence

/-!
# Refused reports

A report may come before an instance is set up, or after it has been given up. The trackers
take the sample before the instance refuses what they make of it, so the two may come apart,
and later reports may be refused for that. This does not happen exactly if every report is
tolerated (`VideoChannel.Tolerates`): the instance is in the right state for what the trackers
make of it, or they make nothing of it (`VideoChannel.atomic_on_error_iff`).
-/

namespace Sardp

namespace VideoChannel

variable {c c' : VideoChannel} {e : ChannelCall} {nowUs clientQueueDelayUs appSendQueueBytes : ℕ}

/-- The instance is in the right state for what the trackers make of the sample, or they make
    nothing of it. -/
structure Tolerates (c : VideoChannel) (nowUs clientQueueDelayUs appSendQueueBytes : ℕ) :
    Prop where
  calm : c.congestion.congested = false → c.instanceSm.state = .streaming ∨
    c.deltaUs nowUs clientQueueDelayUs ≤ VIDEO_RATE_REDUCE_THRESHOLD_DELTA_US
  congested : c.congestion.congested = true → c.instanceSm.state = .congested ∨
    if c.congestion.Resets (c.deltaUs nowUs clientQueueDelayUs) appSendQueueBytes then
      c.congestion.violations (c.deltaUs nowUs clientQueueDelayUs) =
        c.congestion.hardViolationCount
    else ¬ c.congestion.Recovers nowUs (c.deltaUs nowUs clientQueueDelayUs)

/-- Such a sample leaves the tracker alone if it is refused, and no other one does. -/
theorem tolerates_iff :
    c.Tolerates nowUs clientQueueDelayUs appSendQueueBytes ↔
      (¬ (c.judge nowUs clientQueueDelayUs appSendQueueBytes).1.allowedIn c.instanceSm.state →
        (c.judge nowUs clientQueueDelayUs appSendQueueBytes).2 = c.congestion) := by
  have hev := c.evaluated_judge nowUs clientQueueDelayUs appSendQueueBytes
  generalize (c.judge nowUs clientQueueDelayUs appSendQueueBytes).1 = decision at hev ⊢
  generalize (c.judge nowUs clientQueueDelayUs appSendQueueBytes).2 = congestion at hev ⊢
  cases hev with
  | calm hcalm hdelta =>
    exact iff_of_true ⟨fun _ => .inr hdelta, fun h => by simp [hcalm] at h⟩ fun _ => rfl
  | enter hcalm hdelta =>
    have hne : ⟨true, 0, none⟩ ≠ c.congestion := fun h =>
      Bool.false_ne_true (hcalm.symm.trans (congrArg CongestionTracker.congested h).symm)
    constructor
    · intro h hrefused
      rcases h.calm hcalm with hstate | hle
      · simp [BackpressureDecision.allowedIn, hstate] at hrefused
      · omega
    · refine fun h => ⟨fun _ => .inl ?_, fun hcongested => by simp [hcalm] at hcongested⟩
      by_contra hstate
      exact hne (h (by simp [BackpressureDecision.allowedIn, hstate]))
  | reset hcongested hresets =>
    constructor
    · intro h hrefused
      rcases h.congested hcongested with hstate | hignored
      · simp [BackpressureDecision.allowedIn, hstate] at hrefused
      · rw [if_pos hresets] at hignored
        rw [hignored]
    · refine fun h => ⟨fun hcalm => by simp [hcalm] at hcongested, fun _ => ?_⟩
      by_cases hstate : c.instanceSm.state = .congested
      · exact .inl hstate
      · have hsame := h (by simp [BackpressureDecision.allowedIn, hstate])
        exact .inr (by rw [if_pos hresets]; exact congrArg CongestionTracker.hardViolationCount hsame)
  | exit hcongested hresets hrecovers =>
    have hne : ⟨false, c.congestion.violations (c.deltaUs nowUs clientQueueDelayUs), none⟩ ≠
        c.congestion := fun h =>
      Bool.false_ne_true ((congrArg CongestionTracker.congested h).trans hcongested)
    constructor
    · intro h hrefused
      rcases h.congested hcongested with hstate | hignored
      · simp [BackpressureDecision.allowedIn, hstate] at hrefused
      · exact absurd hrecovers (by rwa [if_neg hresets] at hignored)
    · refine fun h => ⟨fun hcalm => by simp [hcalm] at hcongested, fun _ => .inl ?_⟩
      by_contra hstate
      exact hne (h (by simp [BackpressureDecision.allowedIn, hstate]))
  | stay hcongested hresets hrecovers =>
    refine iff_of_true ⟨fun hcalm => by simp [hcalm] at hcongested, fun _ => .inr ?_⟩ fun hrefused =>
      absurd rfl hrefused
    rwa [if_neg hresets]

/-- A refused report leaves the tracker, the instance and the channel as they were, and no
    report is refused once the next instance is set up. -/
def AtomicOnError (c : VideoChannel) (e : ChannelCall) (c' : VideoChannel) : Prop :=
  ∀ nowUs clientQueueDelayUs appSendQueueBytes violation,
    e = .feedback nowUs clientQueueDelayUs appSendQueueBytes →
    (c.call e).1 = .refused violation →
      c'.congestion = c.congestion ∧ c'.instanceSm = c.instanceSm ∧ c'.channelSm = c.channelSm ∧
      c'.lastReopenUs = c.lastReopenUs ∧
      ∀ es c₁ c₂ nowUs clientQueueDelayUs appSendQueueBytes,
        (∀ e ∈ es, e.sample = none) →
        calls.run c' es = some c₁ → c₁.markInstanceStreaming = .ok c₂ →
          ∃ decision, (c₂.onFeedback nowUs clientQueueDelayUs appSendQueueBytes).1 = .ok decision

/-- The trackers know nothing about an instance that is not set up, and what there is to know
    about one that is. -/
structure Tidy (c : VideoChannel) : Prop where
  created : c.instanceSm.state = .created → c.instanceSm = .new ∧ c.congestion = .new
  streaming : c.instanceSm.state = .streaming → c.congestion.congested = false
  congested : c.instanceSm.state = .congested → c.congestion.congested = true

theorem tidy_new (generation : ℕ) : (new generation).Tidy :=
  ⟨fun _ => ⟨rfl, rfl⟩, nofun, nofun⟩

theorem tidy_givenUp (c : VideoChannel) (nowUs : ℕ) : (c.givenUp nowUs).Tidy := ⟨nofun, nofun, nofun⟩

theorem tidy_prepareReopen (c : VideoChannel) : c.prepareReopen.Tidy :=
  ⟨fun _ => ⟨rfl, rfl⟩, nofun, nofun⟩

theorem Tidy.inSync (h : c.Tidy) (hinstance : c.HasInstance) : c.InSync := by
  refine ⟨hinstance, fun hcongested => ?_, h.congested⟩
  rcases hinstance with hstate | hstate
  · rw [h.streaming hstate] at hcongested
    cases hcongested
  · exact hstate

theorem InSync.tidy (h : c.InSync) : c.Tidy := by
  refine ⟨fun hstate => ?_, fun hstate => ?_, h.2.2⟩
  · have hinstance := h.1
    simp [HasInstance, hstate] at hinstance
  · rw [← Bool.not_eq_true, h.2, hstate]
    simp

/-- Setting up an instance of a tidy channel gives one in sync. -/
theorem Tidy.inSync_of_marked (h : c.Tidy) (hmark : c.markInstanceStreaming = .ok c') :
    c'.InSync := by
  by_cases hstate : c.instanceSm.state = .created
  · obtain ⟨hinstance, hcongestion⟩ := h.created hstate
    rw [markInstanceStreaming_eq hinstance] at hmark
    cases hmark
    exact ⟨.inl rfl, by rw [hcongestion]; exact iff_of_false nofun nofun⟩
  · rw [(markInstanceStreaming_eq_error hstate).2] at hmark
    cases hmark

/-- A call other than a report leaves a channel tidy. -/
theorem Tidy.call (h : c.Tidy) (he : e.sample = none) : (c.call e).2.Tidy := by
  cases e with
  | feedback => cases he
  | markInstanceStreaming =>
    cases hmark : c.markInstanceStreaming with
    | ok c' => simpa only [VideoChannel.call, hmark] using (h.inSync_of_marked hmark).tidy
    | error v => simpa only [VideoChannel.call, hmark] using h
  | keyframeRequest nowUs request =>
    rcases c.onKeyframeRequest_cases nowUs request with ⟨-, t, hr⟩ | ⟨-, -, hr⟩ | ⟨-, -, hr⟩
    · simpa only [VideoChannel.call, hr] using h
    · simp only [VideoChannel.call, hr]
      exact tidy_givenUp c nowUs
    · simpa only [VideoChannel.call, hr] using h
  | prepareReopen => exact tidy_prepareReopen c
  | activate | deactivate => exact ⟨h.created, h.streaming, h.congested⟩

/-- Without an instance, a report changes the trackers at most. -/
theorem call_feedback_of_not_hasInstance (h : ¬ c.HasInstance) :
    (c.call (.feedback nowUs clientQueueDelayUs appSendQueueBytes)).2 =
      c.sampled nowUs clientQueueDelayUs appSendQueueBytes := by
  by_cases hallowed :
      (c.judge nowUs clientQueueDelayUs appSendQueueBytes).1.allowedIn c.instanceSm.state
  · rw [call_feedback_of_allowed hallowed]
    generalize (c.judge nowUs clientQueueDelayUs appSendQueueBytes).1 = decision at hallowed ⊢
    cases decision with
    | «continue» => rfl
    | enterCongested => exact absurd (.inl (of_decide_eq_true hallowed)) h
    | exitCongested | resetStream => exact absurd (.inr (of_decide_eq_true hallowed)) h
  · rw [call_feedback_of_not_allowed hallowed]

/-- A tolerated report leaves a channel tidy. -/
theorem Tidy.feedback (h : c.Tidy)
    (ht : c.Tolerates nowUs clientQueueDelayUs appSendQueueBytes) :
    (c.call (.feedback nowUs clientQueueDelayUs appSendQueueBytes)).2.Tidy := by
  by_cases hinstance : c.HasInstance
  · have hsync := h.inSync hinstance
    rw [call_feedback_of_allowed hsync.allowedIn]
    by_cases hreset : (c.judge nowUs clientQueueDelayUs appSendQueueBytes).1 = .resetStream
    · rw [hreset]
      exact tidy_givenUp _ nowUs
    · exact (hsync.decided hreset).tidy
  · rw [call_feedback_of_not_hasInstance hinstance]
    refine ⟨fun hstate => ?_, fun hstate => absurd (.inl hstate) hinstance,
      fun hstate => absurd (.inr hstate) hinstance⟩
    obtain ⟨hnew, hcongestion⟩ := h.created hstate
    refine ⟨hnew, ?_⟩
    -- the tracker is new, and its first sample is not above the soft threshold
    have hev := c.evaluated_judge nowUs clientQueueDelayUs appSendQueueBytes
    rw [sampled, ← hcongestion]
    generalize (c.judge nowUs clientQueueDelayUs appSendQueueBytes).1 = decision at hev
    generalize (c.judge nowUs clientQueueDelayUs appSendQueueBytes).2 = congestion at hev ⊢
    cases hev with
    | calm => rfl
    | enter hcalm hdelta =>
      rcases ht.calm hcalm with hstreaming | hle
      · exact absurd (.inl hstreaming) hinstance
      · omega
    | reset hcongested | exit hcongested | stay hcongested =>
      rw [hcongestion] at hcongested
      cases hcongested

/-- A tolerated report of a tidy channel is atomic if it is refused. -/
theorem Tidy.atomicOnError (h : c.Tidy)
    (ht : c.Tolerates nowUs clientQueueDelayUs appSendQueueBytes) :
    c.AtomicOnError (.feedback nowUs clientQueueDelayUs appSendQueueBytes)
      (c.call (.feedback nowUs clientQueueDelayUs appSendQueueBytes)).2 := by
  have htidy := h.feedback ht
  rintro _ _ _ violation ⟨⟩ hrefused
  have hallowed :
      ¬ (c.judge nowUs clientQueueDelayUs appSendQueueBytes).1.allowedIn c.instanceSm.state := by
    intro hallowed
    rw [call_feedback_of_allowed hallowed] at hrefused
    cases hrefused
  rw [call_feedback_of_not_allowed hallowed] at htidy ⊢
  refine ⟨tolerates_iff.1 ht hallowed, rfl, rfl, rfl, fun es c₁ c₂ _ _ _ hes hrun hmark => ?_⟩
  have hc₁ : c₁.Tidy := by
    refine Machine.run_invariant_of_forall_mem (fun c e c' he hc hstep => ?_) hes htidy hrun
    cases hstep
    exact Tidy.call hc he
  rw [onFeedback_eq]
  exact ⟨_, congrArg Prod.fst (if_pos (hc₁.inSync_of_marked hmark).allowedIn)⟩

/-- Refused reports are atomic all along exactly if every report is tolerated: the instance is
    in the right state for what the trackers make of it, or they make nothing of it. -/
theorem atomic_on_error_iff (generation : ℕ) (es : List ChannelCall) :
    calls.Always AtomicOnError (new generation) es ↔
      calls.Always (fun c e _ => ∀ nowUs clientQueueDelayUs appSendQueueBytes,
        e = .feedback nowUs clientQueueDelayUs appSendQueueBytes →
        c.Tolerates nowUs clientQueueDelayUs appSendQueueBytes) (new generation) es := by
  constructor
  · refine Machine.Always.imp (I := fun _ => True) (fun c e c' _ hstep hatomic => ⟨trivial, ?_⟩)
      trivial
    -- a report that is refused although it is not tolerated changes the congestion
    rintro nowUs clientQueueDelayUs appSendQueueBytes rfl
    refine tolerates_iff.2 fun hrefused => ?_
    have hcall := call_feedback_of_not_allowed hrefused
    cases hstep
    have hcongestion := (hatomic _ _ _ _ rfl (congrArg Prod.fst hcall)).1
    rwa [hcall] at hcongestion
  · -- as long as the reports are tolerated the channel stays tidy, also outside of the order
    -- of the server
    refine Machine.Always.imp (I := Tidy) (fun c e c' h hstep ht => ?_) (tidy_new generation)
    cases hstep
    cases e with
    | feedback nowUs clientQueueDelayUs appSendQueueBytes =>
      have ht := ht nowUs clientQueueDelayUs appSendQueueBytes rfl
      exact ⟨h.feedback ht, h.atomicOnError ht⟩
    | _ => exact ⟨h.call rfl, nofun⟩

/-- A report before the setup that is refused leaves the tracker congested. So once the instance
    is streaming, the report with which the tracker finds it recovered is refused, too. -/
theorem refused_feedback_desynchronizes :
    ¬ calls.Always AtomicOnError (new 0) [.feedback 0 0 0, .feedback 1 200000 0] ∧
      (calls.run (new 0) [.feedback 0 0 0, .feedback 1 200000 0, .markInstanceStreaming,
          .feedback 2 0 0]).map
        (fun c => (c.instanceSm.state, (c.call (.feedback 500002 0 0)).1)) =
        some (.streaming, .refused VideoInstanceSm.unexpected) := by
  refine ⟨fun h => ?_, by decide⟩
  have hatomic := (h _ rfl).2 _ rfl
  have hcongestion := (hatomic.1 1 200000 0 VideoInstanceSm.unexpected rfl (by decide)).1
  exact absurd hcongestion (by decide)

end VideoChannel

end Sardp
