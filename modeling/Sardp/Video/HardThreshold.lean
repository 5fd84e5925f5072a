import Sardp.Video.Coherence

/-!
# Three violations in a row

An instance is to be given up when three reports in a row are more than the hard threshold
above the baseline. The sample that makes an instance congested is not counted, though
(`CongestionTracker.evaluate`), so that a streak that starts while the instance is streaming
takes four of them, unless the bytes queued give the instance up: the third report does so
exactly if the instance was congested before the first one, or more bytes are queued than may
be (`ServedChannel.third_violation_resets_iff`).
-/

namespace Sardp

/-- A report, as it is judged: the delay above the baseline, the bytes queued, and what the
    call returns. -/
structure JudgedReport where
  deltaUs : ℕ
  appSendQueueBytes : ℕ
  returned : ChannelReturn
  deriving DecidableEq

/-- The report violates the hard threshold. -/
def JudgedReport.Violates (r : JudgedReport) : Prop := r.deltaUs > MAX_VIDEO_QUEUE_DURATION_DELTA_US

instance (r : JudgedReport) : Decidable r.Violates := inferInstanceAs (Decidable (_ > _))

namespace ServedChannel

variable {s s' : ServedChannel} {e : ChannelCall} {es : List ChannelCall}

/-- The report a call is, if it is one. -/
def report (s : ServedChannel) : ChannelCall → List JudgedReport
  | .feedback nowUs clientQueueDelayUs appSendQueueBytes =>
    [⟨s.channel.deltaUs nowUs clientQueueDelayUs, appSendQueueBytes,
      (s.channel.call (.feedback nowUs clientQueueDelayUs appSendQueueBytes)).1⟩]
  | _ => []

/-! ## One report -/

/-- The first violation of an instance that is streaming makes it congested, without being
    counted. -/
theorem enters_of_violates {nowUs clientQueueDelayUs appSendQueueBytes : ℕ}
    (hs : s.Coherent) (hcalm : s.channel.congestion.congested = false)
    (hviolates : s.channel.deltaUs nowUs clientQueueDelayUs > MAX_VIDEO_QUEUE_DURATION_DELTA_US)
    (hstep : calls.step s (.feedback nowUs clientQueueDelayUs appSendQueueBytes) = some s') :
    (s.channel.call (.feedback nowUs clientQueueDelayUs appSendQueueBytes)).1 =
        .feedback .enterCongested ∧
      s'.channel.congestion = ⟨true, 0, none⟩ := by
  obtain ⟨hpermits, rfl⟩ := calls_step hstep
  have hstage : s.stage = .running := by simpa [permits] using hpermits
  have hjudge : s.channel.judge nowUs clientQueueDelayUs appSendQueueBytes =
      (.enterCongested, ⟨true, 0, none⟩) :=
    CongestionTracker.evaluate_of_enters hcalm (lt_trans (by decide) hviolates)
  rw [VideoChannel.call_feedback_of_allowed (hs.inSync hstage).allowedIn,
    VideoChannel.sampled, hjudge]
  exact ⟨rfl, rfl⟩

/-- A violation of a congested instance is counted, and gives it up if it is the third one or
    too many bytes are queued. -/
theorem counts_of_violates {nowUs clientQueueDelayUs appSendQueueBytes : ℕ}
    (hs : s.Coherent) (hcongested : s.channel.congestion.congested = true)
    (hviolates : s.channel.deltaUs nowUs clientQueueDelayUs > MAX_VIDEO_QUEUE_DURATION_DELTA_US)
    (hstep : calls.step s (.feedback nowUs clientQueueDelayUs appSendQueueBytes) = some s') :
    let n := s.channel.congestion.hardViolationCount + 1
    if n ≥ HARD_THRESHOLD_CONSECUTIVE_COUNT ∨ appSendQueueBytes > MAX_VIDEO_QUEUE_BYTES then
      (s.channel.call (.feedback nowUs clientQueueDelayUs appSendQueueBytes)).1 =
        .feedback .resetStream ∧ s'.stage = .givenUp
    else
      (s.channel.call (.feedback nowUs clientQueueDelayUs appSendQueueBytes)).1 =
        .feedback .continue ∧ s'.channel.congestion.congested = true ∧
        s'.channel.congestion.hardViolationCount = n := by
  intro n
  obtain ⟨hpermits, rfl⟩ := calls_step hstep
  have hstage : s.stage = .running := by simpa [permits] using hpermits
  have hcount : s.channel.congestion.violations (s.channel.deltaUs nowUs clientQueueDelayUs) = n :=
    if_pos hviolates
  have hev := s.channel.evaluated_judge nowUs clientQueueDelayUs appSendQueueBytes
  rw [stageAfter, VideoChannel.call_feedback_of_allowed (hs.inSync hstage).allowedIn,
    VideoChannel.sampled]
  generalize (s.channel.judge nowUs clientQueueDelayUs appSendQueueBytes).1 = decision at hev ⊢
  generalize (s.channel.judge nowUs clientQueueDelayUs appSendQueueBytes).2 = congestion at hev ⊢
  cases hev with
  | calm hcalm | enter hcalm =>
    rw [hcongested] at hcalm
    cases hcalm
  | reset _ hresets =>
    rw [CongestionTracker.Resets, hcount] at hresets
    rw [if_pos hresets]
    exact ⟨rfl, rfl⟩
  | exit _ _ hrecovers =>
    -- a delay above the hard threshold is not below the soft one
    exact absurd hrecovers.1 (Nat.not_lt.2 (le_of_lt (lt_trans (by decide) hviolates)))
  | stay _ hresets =>
    rw [CongestionTracker.Resets, hcount] at hresets
    rw [if_neg hresets]
    exact ⟨rfl, rfl, hcount⟩

/-! ## The reports of an instance -/

/-- While no instance is running, nothing is reported. -/
theorem report_of_not_running (hs : s.stage ≠ .running)
    (hes : ∀ e ∈ es, e ≠ .markInstanceStreaming) (hrun : calls.run s es = some s') :
    calls.outputs report s es = [] := by
  induction es generalizing s with
  | nil => rfl
  | cons e es ih =>
    obtain ⟨s₁, hs₁, hrun⟩ := Machine.run_cons_eq_some.1 hrun
    obtain ⟨he, hes'⟩ := List.forall_mem_cons.1 hes
    obtain ⟨hpermits, rfl⟩ := calls_step hs₁
    rw [Machine.outputs_cons hs₁]
    cases e with
    | markInstanceStreaming => exact absurd rfl he
    | feedback | keyframeRequest => exact absurd (by simpa [permits] using hpermits) hs
    | prepareReopen => exact ih (by rintro ⟨⟩) hes' hrun
    | activate | deactivate => exact ih hs hes' hrun

/-- A call that is not a report leaves the instance and its judgement alone, or there is nothing
    to report any more. -/
theorem keeps_or_not_running (he : e.sample = none) (hmark : e ≠ .markInstanceStreaming)
    (hstep : calls.step s e = some s') :
    (s'.channel.congestion = s.channel.congestion ∧
        s'.channel.instanceSm = s.channel.instanceSm) ∨ s'.stage ≠ .running := by
  obtain ⟨hpermits, rfl⟩ := calls_step hstep
  cases e with
  | feedback => cases he
  | markInstanceStreaming => exact absurd rfl hmark
  | keyframeRequest nowUs request =>
    rcases s.channel.onKeyframeRequest_cases nowUs request with ⟨-, t, h⟩ | ⟨-, -, h⟩ | ⟨-, -, h⟩
    · simp [VideoChannel.call, h]
    · simp [stageAfter, VideoChannel.call, h, ChannelReturn.reopens]
    · simp [VideoChannel.call, h]
  | prepareReopen => exact .inr (by rintro ⟨⟩)
  | activate | deactivate => exact .inl ⟨rfl, rfl⟩

/-- The next report of an instance finds the instance and its judgement as they are. -/
theorem exists_next_report {r : JudgedReport} {rs : List JudgedReport} (hs : s.Coherent)
    (hes : ∀ e ∈ es, e ≠ .markInstanceStreaming) (hrun : calls.run s es = some s')
    (hreports : calls.outputs report s es = r :: rs) :
    ∃ s₁ s₂ es₂ nowUs clientQueueDelayUs appSendQueueBytes,
      s₁.Coherent ∧ s₁.channel.congestion = s.channel.congestion ∧
      s₁.channel.instanceSm = s.channel.instanceSm ∧
      calls.step s₁ (.feedback nowUs clientQueueDelayUs appSendQueueBytes) = some s₂ ∧
      s₁.report (.feedback nowUs clientQueueDelayUs appSendQueueBytes) = [r] ∧
      (∀ e ∈ es₂, e ≠ .markInstanceStreaming) ∧ calls.run s₂ es₂ = some s' ∧
      calls.outputs report s₂ es₂ = rs := by
  induction es generalizing s with
  | nil => cases hreports
  | cons e es ih =>
    obtain ⟨s₁, hs₁, hrun'⟩ := Machine.run_cons_eq_some.1 hrun
    obtain ⟨he, hes'⟩ := List.forall_mem_cons.1 hes
    rw [Machine.outputs_cons hs₁] at hreports
    cases hsample : e.sample with
    | none =>
      have hnone : s.report e = [] := by
        cases e with
        | feedback => cases hsample
        | _ => rfl
      rw [hnone, List.nil_append] at hreports
      rcases keeps_or_not_running hsample he hs₁ with ⟨hcongestion, hinstance⟩ | hstage
      · obtain ⟨s₂, s₃, es₂, nowUs, clientQueueDelayUs, appSendQueueBytes, hs₂, hcongestion₂,
          hinstance₂, hnext⟩ := ih (hs.step hs₁).1 hes' hrun' hreports
        exact ⟨s₂, s₃, es₂, nowUs, clientQueueDelayUs, appSendQueueBytes, hs₂,
          hcongestion₂.trans hcongestion, hinstance₂.trans hinstance, hnext⟩
      · rw [report_of_not_running hstage hes' hrun'] at hreports
        cases hreports
    | some sample =>
      cases e with
      | feedback nowUs clientQueueDelayUs appSendQueueBytes =>
        obtain ⟨hr, hrs⟩ := List.cons.inj hreports
        exact ⟨s, s₁, es, nowUs, clientQueueDelayUs, appSendQueueBytes, hs, rfl, rfl, hs₁,
          congrArg (fun r => [r]) hr, hes', hrun', hrs⟩
      | _ => cases hsample

/-- A violation that is followed by another report of the instance is the first one of a
    streak, or one more of it. -/
theorem count_of_followed {r r' : JudgedReport} {rs : List JudgedReport} (hs : s.Coherent)
    (hes : ∀ e ∈ es, e ≠ .markInstanceStreaming) (hrun : calls.run s es = some s')
    (hreports : calls.outputs report s es = r :: r' :: rs) (hviolates : r.Violates) :
    ∃ s₂ es₂, s₂.Coherent ∧ s₂.channel.congestion.congested = true ∧
      s₂.channel.congestion.hardViolationCount =
        (if s.channel.congestion.congested then s.channel.congestion.hardViolationCount + 1 else 0) ∧
      (∀ e ∈ es₂, e ≠ .markInstanceStreaming) ∧ calls.run s₂ es₂ = some s' ∧
      calls.outputs report s₂ es₂ = r' :: rs := by
  obtain ⟨s₁, s₂, es₂, nowUs, clientQueueDelayUs, appSendQueueBytes, hs₁, hcongestion, -, hstep,
    hr, hes₂, hrun₂, hreports₂⟩ := exists_next_report hs hes hrun hreports
  cases hr
  rw [← hcongestion]
  cases hcongested : s₁.channel.congestion.congested with
  | false =>
    obtain ⟨-, hentered⟩ := enters_of_violates hs₁ hcongested hviolates hstep
    exact ⟨s₂, es₂, (hs₁.step hstep).1, by rw [hentered], by rw [hentered]; rfl, hes₂, hrun₂,
      hreports₂⟩
  | true =>
    have hcounts := counts_of_violates hs₁ hcongested hviolates hstep
    dsimp only at hcounts
    split_ifs at hcounts with hresets
    · have hnone := report_of_not_running (by rw [hcounts.2]; nofun) hes₂ hrun₂
      rw [hnone] at hreports₂
      cases hreports₂
    · exact ⟨s₂, es₂, (hs₁.step hstep).1, hcounts.2.1, hcounts.2.2, hes₂, hrun₂, hreports₂⟩

/-- A violation gives a congested instance up if it is the third one or too many bytes are
    queued. -/
theorem resets_iff_of_violates {r : JudgedReport} {rs : List JudgedReport} (hs : s.Coherent)
    (hes : ∀ e ∈ es, e ≠ .markInstanceStreaming) (hrun : calls.run s es = some s')
    (hreports : calls.outputs report s es = r :: rs) (hviolates : r.Violates)
    (hcongested : s.channel.congestion.congested = true) :
    r.returned = .feedback .resetStream ↔
      s.channel.congestion.hardViolationCount + 1 ≥ HARD_THRESHOLD_CONSECUTIVE_COUNT ∨
        r.appSendQueueBytes > MAX_VIDEO_QUEUE_BYTES := by
  obtain ⟨s₁, s₂, es₂, nowUs, clientQueueDelayUs, appSendQueueBytes, hs₁, hcongestion, -, hstep,
    hr, -⟩ := exists_next_report hs hes hrun hreports
  cases hr
  rw [← hcongestion] at hcongested ⊢
  have hcounts := counts_of_violates hs₁ hcongested hviolates hstep
  dsimp only at hcounts
  split_ifs at hcounts with hresets
  · exact iff_of_true hcounts.1 hresets
  · refine iff_of_false (fun hreset => ?_) hresets
    cases hcounts.1.symm.trans hreset

/-- Of three reports in a row that violate the hard threshold, with no other instance set up in
    between, the third one gives the instance up exactly if the instance was congested before
    the first one, or with the third one too many bytes are queued. (Had an earlier one given it
    up, there would be no third one.) -/
theorem third_violation_resets_iff (generation : ℕ) {es es' : List ChannelCall}
    {s s' : ServedChannel} {r₁ r₂ r₃ : JudgedReport}
    (hrun : calls.run (start generation) es = some s)
    (hrun' : calls.run s es' = some s') (hes' : ∀ e ∈ es', e ≠ .markInstanceStreaming)
    (hreports : calls.outputs report s es' = [r₁, r₂, r₃])
    (hviolates : ∀ r ∈ [r₁, r₂, r₃], r.Violates) :
    r₃.returned = .feedback .resetStream ↔ s.channel.instanceSm.state = .congested ∨
      r₃.appSendQueueBytes > MAX_VIDEO_QUEUE_BYTES := by
  have hs : s.Coherent := Machine.run_invariant (fun _ _ _ h hstep => (h.step hstep).1)
    (coherent_start generation) hrun
  have hstage : s.stage = .running := by
    by_contra hne
    rw [report_of_not_running hne hes' hrun'] at hreports
    cases hreports
  rw [← (hs.inSync hstage).2]
  -- neither of the first two gives the instance up, as another report of it follows
  obtain ⟨s₂, es₂, hs₂, hcongested₂, hcount₂, hes₂, hrun₂, hreports₂⟩ :=
    count_of_followed hs hes' hrun' hreports (hviolates r₁ (by simp))
  obtain ⟨s₃, es₃, hs₃, hcongested₃, hcount₃, hes₃, hrun₃, hreports₃⟩ :=
    count_of_followed hs₂ hes₂ hrun₂ hreports₂ (hviolates r₂ (by simp))
  rw [resets_iff_of_violates hs₃ hes₃ hrun₃ hreports₃ (hviolates r₃ (by simp)) hcongested₃]
  rw [hcongested₂, if_pos rfl, hcount₂] at hcount₃
  refine or_congr_left ?_
  -- the first violation is one of the three counted only if the instance was congested before it
  rw [hcount₃, HARD_THRESHOLD_CONSECUTIVE_COUNT]
  cases s.channel.congestion.congested with
  | false => simp
  | true => simp

/-- An instance that is congested is given up with the third violation. -/
theorem third_violation_resets_congested :
    let es := [.markInstanceStreaming, .feedback 0 5000 0, .feedback 100000 150000 0]
    let es' := [.feedback 200000 400000 0, .feedback 300000 400000 0, .feedback 400000 400000 0]
    ∃ s s' r₁ r₂ r₃, calls.run (start 0) es = some s ∧ calls.run s es' = some s' ∧
      calls.outputs report s es' = [r₁, r₂, r₃] ∧ (∀ r ∈ [r₁, r₂, r₃], r.Violates) ∧
      r₃.returned = .feedback .resetStream := by
  intro es es'
  have hall : (calls.run (start 0) es).bind (fun s => (calls.run s es').map fun _ =>
      (s.channel.instanceSm.state, calls.outputs report s es')) =
      some (.congested, [⟨395000, 0, .feedback .continue⟩, ⟨395000, 0, .feedback .continue⟩,
        ⟨395000, 0, .feedback .resetStream⟩]) := by decide
  obtain ⟨s, hrun, hall⟩ := Option.bind_eq_some_iff.1 hall
  obtain ⟨s', hrun', hall⟩ := Option.map_eq_some_iff.1 hall
  obtain ⟨hstate, hreports⟩ := Prod.mk.inj hall
  have hviolates : ∀ r ∈ calls.outputs report s es', r.Violates := by
    rw [hreports]
    decide
  rw [hreports] at hviolates
  exact ⟨s, s', _, _, _, hrun, hrun', hreports, hviolates,
    (third_violation_resets_iff 0 hrun hrun' (by simp [es']) hreports hviolates).2 (.inl hstate)⟩

/-- An instance that is streaming is not: the first violation makes it congested, and the third
    one is only the second that counts. -/
theorem third_violation_ignored :
    let es := [.markInstanceStreaming, .feedback 0 5000 0]
    let es' := [.feedback 100000 400000 0, .feedback 200000 400000 0, .feedback 300000 400000 0]
    ∃ s s' r₁ r₂ r₃, calls.run (start 0) es = some s ∧ calls.run s es' = some s' ∧
      (∀ e ∈ es', e ≠ .markInstanceStreaming) ∧
      calls.outputs report s es' = [r₁, r₂, r₃] ∧ (∀ r ∈ [r₁, r₂, r₃], r.Violates) ∧
      ∀ r ∈ [r₁, r₂, r₃], r.returned ≠ .feedback .resetStream := by
  intro es es'
  have hall : (calls.run (start 0) es).bind (fun s => (calls.run s es').map fun _ =>
      calls.outputs report s es') = some [⟨395000, 0, .feedback .enterCongested⟩,
        ⟨395000, 0, .feedback .continue⟩, ⟨395000, 0, .feedback .continue⟩] := by decide
  obtain ⟨s, hrun, hall⟩ := Option.bind_eq_some_iff.1 hall
  obtain ⟨s', hrun', hreports⟩ := Option.map_eq_some_iff.1 hall
  exact ⟨s, s', _, _, _, hrun, hrun', by simp [es'], hreports, by decide, by simp⟩

end ServedChannel

end Sardp
