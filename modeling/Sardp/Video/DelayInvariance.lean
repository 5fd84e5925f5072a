import Sardp.Video.Calls

/-!
# Only the delay above the baseline matters

The delay a client reports contains that of the path, which says nothing about congestion.
Adding a constant to every report of a run changes none of the decisions
(`VideoChannel.returns_addDelay`): the shift commutes with recording the samples
(`SlidingMinimum.push_map`), and the difference to the baseline is what it was. And reports
that vary little within the window of the baseline are never acted upon, however high they are
(`VideoChannel.continues_of_steady`).
-/

namespace Sardp

/-- The call with a constant added to the delay it reports. -/
def ChannelCall.addDelay (k : ℕ) : ChannelCall → ChannelCall
  | .feedback nowUs clientQueueDelayUs appSendQueueBytes =>
    .feedback nowUs (clientQueueDelayUs + k) appSendQueueBytes
  | e => e

namespace BaselineTracker

/-- The tracker with a constant added to all samples. -/
def addDelay (k : ℕ) (t : BaselineTracker) : BaselineTracker :=
  { t with samples := t.samples.map (Prod.map id (· + k)) }

theorem record_addDelay (t : BaselineTracker) (k nowUs valueUs : ℕ) :
    (t.addDelay k).record nowUs (valueUs + k) = (t.record nowUs valueUs).addDelay k := by
  have hsamples : ((t.addDelay k).record nowUs (valueUs + k)).samples =
      ((t.record nowUs valueUs).addDelay k).samples := by
    -- the samples are compared with each other only, and the constant keeps their order
    have hmono : StrictMono (· + k) := fun _ _ h => Nat.add_lt_add_right h k
    rw [samples_record, addDelay, SlidingMinimum.push_map hmono, SlidingMinimum.evict_map]
    rfl
  exact congrArg (BaselineTracker.mk t.windowUs) hsamples

theorem baselineUs_addDelay (t : BaselineTracker) (k : ℕ) :
    (t.addDelay k).baselineUs = t.baselineUs.map (· + k) := by
  rw [baselineUs, addDelay, List.head?_map, Option.map_map, baselineUs, Option.map_map]
  rfl

end BaselineTracker

namespace VideoChannel

variable {c : VideoChannel} {k : ℕ}

/-- The channel with a constant added to all samples of its baseline. -/
def addDelay (k : ℕ) (c : VideoChannel) : VideoChannel :=
  { c with baseline := c.baseline.addDelay k }

theorem deltaUs_addDelay (nowUs clientQueueDelayUs : ℕ) :
    (c.addDelay k).deltaUs nowUs (clientQueueDelayUs + k) = c.deltaUs nowUs clientQueueDelayUs := by
  simp only [deltaUs, addDelay, BaselineTracker.record_addDelay,
    BaselineTracker.baselineUs_addDelay]
  cases (c.baseline.record nowUs clientQueueDelayUs).baselineUs with
  | none => simp
  | some baseline => exact Nat.add_sub_add_right _ _ _

theorem judge_addDelay (nowUs clientQueueDelayUs appSendQueueBytes : ℕ) :
    (c.addDelay k).judge nowUs (clientQueueDelayUs + k) appSendQueueBytes =
      c.judge nowUs clientQueueDelayUs appSendQueueBytes := by
  rw [judge, deltaUs_addDelay]
  rfl

theorem sampled_addDelay (nowUs clientQueueDelayUs appSendQueueBytes : ℕ) :
    (c.addDelay k).sampled nowUs (clientQueueDelayUs + k) appSendQueueBytes =
      (c.sampled nowUs clientQueueDelayUs appSendQueueBytes).addDelay k := by
  rw [sampled, judge_addDelay]
  simp only [addDelay, BaselineTracker.record_addDelay]
  rfl

theorem decided_addDelay (nowUs : ℕ) (decision : BackpressureDecision) :
    (c.addDelay k).decided nowUs decision = (c.decided nowUs decision).addDelay k := by
  cases decision <;> rfl

theorem honorKeyframeRequest_addDelay (c : VideoChannel) (k nowUs : ℕ) :
    (c.addDelay k).honorKeyframeRequest nowUs =
      (c.honorKeyframeRequest nowUs).map id (addDelay k) := by
  rw [honorKeyframeRequest_eq, honorKeyframeRequest_eq]
  by_cases h : c.HasInstance
  · rw [if_pos h]
    exact if_pos h
  · rw [if_neg h]
    exact if_neg h

theorem onKeyframeRequest_addDelay (c : VideoChannel) (k nowUs : ℕ) (request : KeyframeRequest) :
    (c.addDelay k).onKeyframeRequest nowUs request =
      (c.onKeyframeRequest nowUs request).map id (addDelay k) := by
  have hlast : (c.addDelay k).lastReopenUs = c.lastReopenUs := rfl
  rw [onKeyframeRequest, onKeyframeRequest, hlast]
  split
  · dsimp only
    split
    · rfl
    · exact c.honorKeyframeRequest_addDelay k nowUs
  · exact c.honorKeyframeRequest_addDelay k nowUs

theorem markInstanceStreaming_addDelay (c : VideoChannel) (k : ℕ) :
    (c.addDelay k).markInstanceStreaming = c.markInstanceStreaming.map (addDelay k) := by
  show _ = addDelay k <$> c.markInstanceStreaming
  simp only [markInstanceStreaming, map_bind, map_pure]
  rfl

/-- The call returns the same, and the channel after it is the same but for the constant. -/
theorem call_addDelay (c : VideoChannel) (k : ℕ) (e : ChannelCall) :
    (c.addDelay k).call (e.addDelay k) = ((c.call e).1, (c.call e).2.addDelay k) := by
  cases e with
  | feedback nowUs clientQueueDelayUs appSendQueueBytes =>
    have hjudge := c.judge_addDelay (k := k) nowUs clientQueueDelayUs appSendQueueBytes
    have hsampled := c.sampled_addDelay (k := k) nowUs clientQueueDelayUs appSendQueueBytes
    -- the two reports are judged alike, so the instance allows both or refuses both
    by_cases hallowed :
        (c.judge nowUs clientQueueDelayUs appSendQueueBytes).1.allowedIn c.instanceSm.state
    · rw [call_feedback_of_allowed hallowed, ← decided_addDelay, ← hsampled]
      refine (call_feedback_of_allowed ?_).trans ?_
      · rw [hjudge]
        exact hallowed
      · rw [hjudge]
    · rw [call_feedback_of_not_allowed hallowed, ← hsampled]
      refine call_feedback_of_not_allowed ?_
      rw [hjudge]
      exact hallowed
  | markInstanceStreaming =>
    have hmark := c.markInstanceStreaming_addDelay k
    simp only [call, ChannelCall.addDelay, hmark]
    cases c.markInstanceStreaming <;> rfl
  | keyframeRequest nowUs request =>
    have hrequest := c.onKeyframeRequest_addDelay k nowUs request
    simp only [call, ChannelCall.addDelay, hrequest]
    rfl
  | prepareReopen | activate | deactivate => rfl

/-- What the calls of a run return, in order. -/
def returns (c : VideoChannel) (e : ChannelCall) : List ChannelReturn := [(c.call e).1]

/-- The channel whose first instance is streaming does the same if a constant is added to all
    reports of a run. -/
theorem returns_addDelay (generation k : ℕ) (es : List ChannelCall) :
    calls.outputs returns (streaming generation) (es.map (ChannelCall.addDelay k)) =
      calls.outputs returns (streaming generation) es := by
  refine Machine.outputs_map (φ := addDelay k) (fun c e => ?_) (fun c e => ?_)
    (streaming generation) es
  · simp only [calls, call_addDelay]
    rfl
  · rw [returns, call_addDelay]
    rfl

/-! ## Steady reports -/

/-- The delay of a report is at most that much above the baseline, if it is so above all
    reports seen within the window. -/
theorem deltaUs_le {bound lastUs nowUs clientQueueDelayUs : ℕ} {recorded : List (ℕ × ℕ)}
    (hseen : c.baseline.HasSeen lastUs recorded) (hle : lastUs ≤ nowUs)
    (hbound : ∀ s ∈ recorded, nowUs - s.1 ≤ c.baseline.windowUs → clientQueueDelayUs ≤ s.2 + bound) :
    c.deltaUs nowUs clientQueueDelayUs ≤ bound := by
  rw [deltaUs]
  cases hbaseline : (c.baseline.record nowUs clientQueueDelayUs).baselineUs with
  | none => simp
  | some baseline =>
    obtain ⟨⟨s, hs, hwindow, rfl⟩, -⟩ :=
      (hseen.record hle clientQueueDelayUs).baselineUs_least hbaseline
    rw [Option.getD_some]
    rcases List.mem_append.1 hs with hs | hs
    · have := hbound s hs (by rw [BaselineTracker.windowUs_record] at hwindow; omega)
      omega
    · rw [List.mem_singleton.1 hs]
      simp

/-- Nothing is done about the reports. -/
def Continues (c : VideoChannel) (e : ChannelCall) (_ : VideoChannel) : Prop :=
  e.sample.isSome → (c.call e).1 = .feedback .continue

/-- A channel that is not congested stays so as long as the reports within the window differ by
    no more than the soft threshold. -/
theorem always_continues {lastUs : ℕ} {recorded : List (ℕ × ℕ)} {es : List ChannelCall}
    (hseen : c.baseline.HasSeen lastUs recorded) (hcalm : c.congestion.congested = false)
    (hlast : ∀ s ∈ es.filterMap ChannelCall.sample, lastUs ≤ s.1)
    (htime : (es.filterMap ChannelCall.sample).Pairwise fun s s' => s.1 ≤ s'.1)
    (hsteady : (recorded ++ es.filterMap ChannelCall.sample).Pairwise fun s s' =>
      s'.1 - s.1 ≤ c.baseline.windowUs → s'.2 ≤ s.2 + VIDEO_RATE_REDUCE_THRESHOLD_DELTA_US) :
    calls.Always Continues c es := by
  induction es generalizing c lastUs recorded with
  | nil => trivial
  | cons e es ih =>
    have hstep : calls.step c e = some (c.call e).2 := rfl
    refine (Machine.always_cons hstep).2 ?_
    cases hsample : e.sample with
    | none =>
      -- the baseline is the same, and the tracker too or a new one
      rw [List.filterMap_cons_none hsample] at hlast htime hsteady
      obtain ⟨hbaseline, hcongestion⟩ := c.trackers_call hsample
      refine ⟨fun hsome => by simp [hsample] at hsome, ?_⟩
      refine ih (by rwa [hbaseline]) ?_ hlast htime (by rwa [hbaseline])
      rcases hcongestion with hcongestion | hcongestion
      · rw [hcongestion]
        exact hcalm
      · rw [hcongestion]
        rfl
    | some s =>
      rw [List.filterMap_cons_some hsample] at hlast htime hsteady
      cases e with
      | feedback nowUs clientQueueDelayUs appSendQueueBytes =>
        cases hsample
        -- the least sample of the window is near, so the tracker stays calm and takes the report
        have hle : lastUs ≤ nowUs := hlast _ List.mem_cons_self
        have hdelta : c.deltaUs nowUs clientQueueDelayUs ≤ VIDEO_RATE_REDUCE_THRESHOLD_DELTA_US := by
          refine deltaUs_le hseen hle fun s hs => ?_
          exact (List.pairwise_append.1 hsteady).2.2 s hs _ List.mem_cons_self
        have hjudge : c.judge nowUs clientQueueDelayUs appSendQueueBytes =
            (.continue, c.congestion) := CongestionTracker.evaluate_of_calm hcalm hdelta
        have hcall : c.call (.feedback nowUs clientQueueDelayUs appSendQueueBytes) =
            (.feedback .continue, c.sampled nowUs clientQueueDelayUs appSendQueueBytes) := by
          rw [call_feedback_of_allowed (by rw [hjudge]; rfl), hjudge]
          rfl
        refine ⟨fun _ => congrArg Prod.fst hcall, ?_⟩
        rw [hcall]
        refine ih (hseen.record hle clientQueueDelayUs) ?_ ?_ (List.pairwise_cons.1 htime).2 ?_
        · rw [sampled, hjudge]
          exact hcalm
        · exact (List.pairwise_cons.1 htime).1
        · rw [List.append_assoc]
          exact hsteady
      | _ => cases hsample

/-- The decisions depend on the delays relative to the baseline only: a constant added to all
    of them changes none. If time does not run backwards, and any two delays recorded within
    the window of the baseline differ by at most the soft threshold, every decision is to
    continue, however high the delays are. -/
theorem delay_invariance (generation k : ℕ) (es : List ChannelCall) :
    calls.outputs returns (streaming generation) (es.map (ChannelCall.addDelay k)) =
        calls.outputs returns (streaming generation) es ∧
      (((es.filterMap ChannelCall.sample).Pairwise fun s s' => s.1 ≤ s'.1) →
        ((es.filterMap ChannelCall.sample).Pairwise fun s s' =>
          s'.1 - s.1 ≤ VIDEO_QUEUE_BASELINE_WINDOW_US →
            s'.2 ≤ s.2 + VIDEO_RATE_REDUCE_THRESHOLD_DELTA_US ∧
              s.2 ≤ s'.2 + VIDEO_RATE_REDUCE_THRESHOLD_DELTA_US) →
        calls.Always Continues (streaming generation) es) := by
  refine ⟨returns_addDelay generation k es, fun htime hsteady => ?_⟩
  have hseen : (streaming generation).baseline.HasSeen 0 [] := BaselineTracker.hasSeen_new _
  refine always_continues hseen rfl (fun _ _ => Nat.zero_le _) htime ?_
  exact hsteady.imp fun h hwindow => (h hwindow).1

/-- High but steady reports, with a request in between. -/
theorem delay_invariance_high :
    let es := [.feedback 0 300000 0, .feedback 100000 380000 0, .keyframeRequest 150000 ⟨.manual⟩,
      .prepareReopen, .markInstanceStreaming, .feedback 200000 310000 0]
    calls.Always Continues (streaming 0) es := by
  intro es
  exact (delay_invariance 0 0 es).2 (by decide) (by decide)

end VideoChannel

end Sardp
