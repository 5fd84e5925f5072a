import Mathlib.Tactic.SplitIfs
import Sardp.Library.SlidingMinimum

/-!
# Backpressure

The server judges the delay a client reports against the smallest one of the last ten
seconds (`backpressure.rs`). The baseline belongs to the channel and outlives its
instances (`BaselineTracker`); the judgement, with its counter of violations in a row
and its hysteresis, starts anew with every instance (`CongestionTracker`).

If time does not run backwards, the baseline is the least of the values of the window
(`BaselineTracker.HasSeen.baselineUs_least`). What judging a sample may come to is said case
by case in `CongestionTracker.Evaluated`.
-/

namespace Sardp

def VIDEO_QUEUE_BASELINE_WINDOW_US : ℕ := 10000000
def VIDEO_RATE_REDUCE_THRESHOLD_DELTA_US : ℕ := 100000
def MAX_VIDEO_QUEUE_DURATION_DELTA_US : ℕ := 300000
def CONGESTED_TO_STREAMING_HYSTERESIS_US : ℕ := 500000
def MAX_VIDEO_QUEUE_BYTES : ℕ := 4 * 1024 * 1024
def HARD_THRESHOLD_CONSECUTIVE_COUNT : ℕ := 3

/-- The rolling minimum of the reported delays over a window of time. -/
structure BaselineTracker where
  windowUs : ℕ
  /-- The times and values that may still become the minimum, oldest first. -/
  samples : List (ℕ × ℕ)
  deriving DecidableEq

namespace BaselineTracker

/-- A tracker that has seen nothing. -/
def new (windowUs : ℕ) : BaselineTracker := ⟨windowUs, []⟩

def withDefaultWindow : BaselineTracker := new VIDEO_QUEUE_BASELINE_WINDOW_US

/-- Dropping the samples that have left the window. -/
def evictExpired (t : BaselineTracker) (nowUs : ℕ) : BaselineTracker :=
  let cutoff := nowUs - t.windowUs
  { t with samples := t.samples.dropWhile fun s => s.1 < cutoff }

/-- Recording a value: the later samples that are not smaller can no longer become the
    minimum. -/
def record (t : BaselineTracker) (nowUs valueUs : ℕ) : BaselineTracker :=
  let kept := t.samples.rdropWhile fun s => s.2 ≥ valueUs
  { t with samples := kept ++ [(nowUs, valueUs)] }.evictExpired nowUs

/-- The rolling minimum; `none` before the first value. -/
def baselineUs (t : BaselineTracker) : Option ℕ := t.samples.head?.map (·.2)

theorem samples_record (t : BaselineTracker) (nowUs valueUs : ℕ) :
    (t.record nowUs valueUs).samples = SlidingMinimum.evict (nowUs - t.windowUs)
      (SlidingMinimum.push t.samples nowUs valueUs) := rfl

@[simp] theorem windowUs_record (t : BaselineTracker) (nowUs valueUs : ℕ) :
    (t.record nowUs valueUs).windowUs = t.windowUs := rfl

/-- The tracker has seen the samples, none of them after the time. -/
structure HasSeen (t : BaselineTracker) (nowUs : ℕ) (recorded : List (ℕ × ℕ)) : Prop where
  tracks : SlidingMinimum.Tracks (nowUs - t.windowUs) recorded t.samples
  time_le : ∀ s ∈ recorded, s.1 ≤ nowUs

theorem hasSeen_new (windowUs : ℕ) : (new windowUs).HasSeen 0 [] :=
  ⟨SlidingMinimum.tracks_nil _, List.forall_mem_nil _⟩

theorem HasSeen.record {t : BaselineTracker} {lastUs nowUs : ℕ} {recorded : List (ℕ × ℕ)}
    (h : t.HasSeen lastUs recorded) (hle : lastUs ≤ nowUs) (valueUs : ℕ) :
    (t.record nowUs valueUs).HasSeen nowUs (recorded ++ [(nowUs, valueUs)]) := by
  have htime : ∀ s ∈ recorded, s.1 ≤ nowUs := fun s hs => (h.time_le s hs).trans hle
  refine ⟨?_, fun s hs => ?_⟩
  · rw [samples_record]
    exact (h.tracks.push htime (by omega)).evict (by rw [windowUs_record]; omega)
  · rcases List.mem_append.1 hs with hs | hs
    · exact htime s hs
    · rw [List.mem_singleton.1 hs]

/-- The baseline is the least of the values that were seen in the window. -/
theorem HasSeen.baselineUs_least {t : BaselineTracker} {nowUs baseline : ℕ}
    {recorded : List (ℕ × ℕ)} (h : t.HasSeen nowUs recorded) (hb : t.baselineUs = some baseline) :
    (∃ s ∈ recorded, nowUs - t.windowUs ≤ s.1 ∧ s.2 = baseline) ∧
      ∀ s ∈ recorded, nowUs - t.windowUs ≤ s.1 → baseline ≤ s.2 := by
  obtain ⟨s, hs, rfl⟩ := Option.map_eq_some_iff.1 hb
  obtain ⟨hrecorded, hwindow, hleast⟩ := h.tracks.head_least hs
  exact ⟨⟨s, hrecorded, hwindow, rfl⟩, hleast⟩

end BaselineTracker

/-- What a sample means for the instance. -/
inductive BackpressureDecision
  /-- Nothing changes. -/
  | continue
  | enterCongested
  | exitCongested
  /-- The instance is given up for one of the next generation. -/
  | resetStream
  deriving DecidableEq, Repr

/-- The judgement of an instance. -/
structure CongestionTracker where
  congested : Bool
  hardViolationCount : ℕ
  belowSoftSinceUs : Option ℕ
  deriving DecidableEq

namespace CongestionTracker

/-- The tracker of a new instance. -/
def new : CongestionTracker := ⟨false, 0, none⟩

/-- Judging a sample: the delay above the baseline, and the bytes queued to be sent. -/
def evaluate (t : CongestionTracker) (nowUs deltaUs appSendQueueBytes : ℕ) :
    BackpressureDecision × CongestionTracker :=
  if !t.congested then
    -- the sample that makes the instance congested does not count as a violation
    if deltaUs > VIDEO_RATE_REDUCE_THRESHOLD_DELTA_US then (.enterCongested, ⟨true, 0, none⟩)
    else (.continue, t)
  else
    let t :=
      { t with
        hardViolationCount :=
          if deltaUs > MAX_VIDEO_QUEUE_DURATION_DELTA_US then t.hardViolationCount + 1 else 0 }
    if t.hardViolationCount ≥ HARD_THRESHOLD_CONSECUTIVE_COUNT ∨
        appSendQueueBytes > MAX_VIDEO_QUEUE_BYTES then (.resetStream, t)
    else if deltaUs < VIDEO_RATE_REDUCE_THRESHOLD_DELTA_US then
      match t.belowSoftSinceUs with
      | none => (.continue, { t with belowSoftSinceUs := some nowUs })
      | some since =>
        if nowUs - since ≥ CONGESTED_TO_STREAMING_HYSTERESIS_US then
          (.exitCongested, { t with congested := false, belowSoftSinceUs := none })
        else (.continue, t)
    else (.continue, { t with belowSoftSinceUs := none })

/-- The violations in a row, the sample included. -/
def violations (t : CongestionTracker) (deltaUs : ℕ) : ℕ :=
  if deltaUs > MAX_VIDEO_QUEUE_DURATION_DELTA_US then t.hardViolationCount + 1 else 0

/-- The sample makes a congested instance be given up. -/
def Resets (t : CongestionTracker) (deltaUs appSendQueueBytes : ℕ) : Prop :=
  t.violations deltaUs ≥ HARD_THRESHOLD_CONSECUTIVE_COUNT ∨
    appSendQueueBytes > MAX_VIDEO_QUEUE_BYTES

instance (t : CongestionTracker) (deltaUs appSendQueueBytes : ℕ) :
    Decidable (t.Resets deltaUs appSendQueueBytes) :=
  inferInstanceAs (Decidable (_ ∨ _))

/-- With the sample, the delay has been low for long enough. -/
def Recovers (t : CongestionTracker) (nowUs deltaUs : ℕ) : Prop :=
  deltaUs < VIDEO_RATE_REDUCE_THRESHOLD_DELTA_US ∧
    ∃ since ∈ t.belowSoftSinceUs, nowUs - since ≥ CONGESTED_TO_STREAMING_HYSTERESIS_US

/-- What judging a sample may come to, case by case. -/
inductive Evaluated (t : CongestionTracker) (nowUs deltaUs appSendQueueBytes : ℕ) :
    BackpressureDecision → CongestionTracker → Prop
  | calm (hcalm : t.congested = false) (hdelta : deltaUs ≤ VIDEO_RATE_REDUCE_THRESHOLD_DELTA_US) :
    Evaluated t nowUs deltaUs appSendQueueBytes .continue t
  | enter (hcalm : t.congested = false) (hdelta : deltaUs > VIDEO_RATE_REDUCE_THRESHOLD_DELTA_US) :
    Evaluated t nowUs deltaUs appSendQueueBytes .enterCongested ⟨true, 0, none⟩
  | reset (hcongested : t.congested = true) (hresets : t.Resets deltaUs appSendQueueBytes) :
    Evaluated t nowUs deltaUs appSendQueueBytes .resetStream
      { t with hardViolationCount := t.violations deltaUs }
  | exit (hcongested : t.congested = true) (hresets : ¬ t.Resets deltaUs appSendQueueBytes)
      (hrecovers : t.Recovers nowUs deltaUs) :
    Evaluated t nowUs deltaUs appSendQueueBytes .exitCongested ⟨false, t.violations deltaUs, none⟩
  | stay (hcongested : t.congested = true) (hresets : ¬ t.Resets deltaUs appSendQueueBytes)
      (hrecovers : ¬ t.Recovers nowUs deltaUs) (belowSoftSinceUs : Option ℕ) :
    Evaluated t nowUs deltaUs appSendQueueBytes .continue
      ⟨true, t.violations deltaUs, belowSoftSinceUs⟩

theorem evaluate_of_calm {t : CongestionTracker} {nowUs deltaUs appSendQueueBytes : ℕ}
    (hcalm : t.congested = false) (hdelta : deltaUs ≤ VIDEO_RATE_REDUCE_THRESHOLD_DELTA_US) :
    t.evaluate nowUs deltaUs appSendQueueBytes = (.continue, t) := by
  rw [evaluate, hcalm]
  exact if_neg (Nat.not_lt.2 hdelta)

theorem evaluate_of_enters {t : CongestionTracker} {nowUs deltaUs appSendQueueBytes : ℕ}
    (hcalm : t.congested = false) (hdelta : deltaUs > VIDEO_RATE_REDUCE_THRESHOLD_DELTA_US) :
    t.evaluate nowUs deltaUs appSendQueueBytes = (.enterCongested, ⟨true, 0, none⟩) := by
  rw [evaluate, hcalm]
  exact if_pos hdelta

theorem evaluate_of_resets {t : CongestionTracker} {nowUs deltaUs appSendQueueBytes : ℕ}
    (hcongested : t.congested = true) (hresets : t.Resets deltaUs appSendQueueBytes) :
    t.evaluate nowUs deltaUs appSendQueueBytes =
      (.resetStream, { t with hardViolationCount := t.violations deltaUs }) := by
  rw [evaluate, hcongested]
  exact if_pos hresets

theorem evaluate_of_not_resets {t : CongestionTracker} {nowUs deltaUs appSendQueueBytes : ℕ}
    (hcongested : t.congested = true) (hresets : ¬ t.Resets deltaUs appSendQueueBytes) :
    t.evaluate nowUs deltaUs appSendQueueBytes =
      if deltaUs < VIDEO_RATE_REDUCE_THRESHOLD_DELTA_US then
        match t.belowSoftSinceUs with
        | none => (.continue, ⟨true, t.violations deltaUs, some nowUs⟩)
        | some since =>
          if nowUs - since ≥ CONGESTED_TO_STREAMING_HYSTERESIS_US then
            (.exitCongested, ⟨false, t.violations deltaUs, none⟩)
          else (.continue, ⟨true, t.violations deltaUs, t.belowSoftSinceUs⟩)
      else (.continue, ⟨true, t.violations deltaUs, none⟩) := by
  rw [evaluate, hcongested]
  exact if_neg hresets

/-- Every judgement is one of these. -/
theorem evaluated {t t' : CongestionTracker} {nowUs deltaUs appSendQueueBytes : ℕ}
    {decision : BackpressureDecision}
    (h : t.evaluate nowUs deltaUs appSendQueueBytes = (decision, t')) :
    Evaluated t nowUs deltaUs appSendQueueBytes decision t' := by
  cases hcongested : t.congested with
  | false =>
    rcases Nat.lt_or_ge VIDEO_RATE_REDUCE_THRESHOLD_DELTA_US deltaUs with hdelta | hdelta
    · cases (evaluate_of_enters hcongested hdelta).symm.trans h
      exact .enter hcongested hdelta
    · cases (evaluate_of_calm hcongested hdelta).symm.trans h
      exact .calm hcongested hdelta
  | true =>
    by_cases hresets : t.Resets deltaUs appSendQueueBytes
    · cases (evaluate_of_resets hcongested hresets).symm.trans h
      exact .reset hcongested hresets
    · -- it stays congested as the delay is low only now, or not for long enough, or not low
      rw [evaluate_of_not_resets hcongested hresets] at h
      split_ifs at h with hdelta
      · split at h
        · next hnone =>
          cases h
          refine .stay hcongested hresets (fun hrecovers => ?_) (some nowUs)
          obtain ⟨-, since, hsince, -⟩ := hrecovers
          cases hnone.symm.trans hsince
        · next since hsince =>
          split_ifs at h with hnow
          · cases h
            exact .exit hcongested hresets ⟨hdelta, since, hsince, hnow⟩
          · cases h
            refine .stay hcongested hresets (fun hrecovers => ?_) t.belowSoftSinceUs
            obtain ⟨-, since', hsince', hnow'⟩ := hrecovers
            cases hsince.symm.trans hsince'
            exact hnow hnow'
      · cases h
        exact .stay hcongested hresets (fun hrecovers => hdelta hrecovers.1) none

end CongestionTracker

end Sardp
