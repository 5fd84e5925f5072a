import Sardp.Library.Sequences
import Sardp.Video.Backpressure

/-!
# The hysteresis of congestion

A tracker of congestion judges the samples of an instance one by one, with a threshold, a timer and
a count of violations in its state (`CongestionTracker`). Up to its first decision to reset, what it
decides at a sample is a matter of the samples and decisions before it alone
(`CongestionTracker.hysteresis`): the instance becomes congested at the first sample above the
threshold, and no longer is when samples below it have come without a break for long enough.

* Between two decisions the tracker is calm (`CongestionTracker.Calm`) or congested since some
  sample (`CongestionTracker.CongestedSince`), and its timer is the time of the first sample of the
  streak below the threshold that is going on.
-/

namespace Sardp

/-- What the tracker is given to judge: when, the delay above the baseline, and the bytes queued. -/
structure BackpressureSample where
  nowUs : ℕ
  deltaUs : ℕ
  appSendQueueBytes : ℕ

namespace CongestionTracker

open Sequences

/-- A tracker as a filter of samples. -/
def judge : Transducer CongestionTracker BackpressureSample BackpressureDecision :=
  ⟨fun t s => t.evaluate s.nowUs s.deltaUs s.appSendQueueBytes⟩

/-- A sample below the threshold, with the timer set. -/
theorem evaluate_of_below {t : CongestionTracker} {nowUs deltaUs appSendQueueBytes since : ℕ}
    (hcongested : t.congested = true) (hresets : ¬t.Resets deltaUs appSendQueueBytes)
    (hbelow : deltaUs < VIDEO_RATE_REDUCE_THRESHOLD_DELTA_US)
    (hsince : t.belowSoftSinceUs = some since) :
    t.evaluate nowUs deltaUs appSendQueueBytes =
      if since + CONGESTED_TO_STREAMING_HYSTERESIS_US ≤ nowUs then
        (.exitCongested, ⟨false, t.violations deltaUs, none⟩)
      else (.continue, ⟨true, t.violations deltaUs, some since⟩) := by
  have hlong : nowUs - since ≥ CONGESTED_TO_STREAMING_HYSTERESIS_US ↔
      since + CONGESTED_TO_STREAMING_HYSTERESIS_US ≤ nowUs := by
    have hpos : 0 < CONGESTED_TO_STREAMING_HYSTERESIS_US := by decide
    omega
  rw [evaluate_of_not_resets hcongested hresets, if_pos hbelow, hsince]
  simp only [hlong]

variable (samples : ℕ → BackpressureSample)

/-- A new tracker before the `n`-th sample. -/
def trackerAt (n : ℕ) : CongestionTracker := judge.state .new samples n

/-- What a new tracker decides at the `n`-th sample. -/
def decisionAt (n : ℕ) : BackpressureDecision := judge.output .new samples n

/-- The `n`-th sample is above the threshold. -/
def Above (n : ℕ) : Prop := (samples n).deltaUs > VIDEO_RATE_REDUCE_THRESHOLD_DELTA_US

/-- The `n`-th sample is below the threshold. -/
def Below (n : ℕ) : Prop := (samples n).deltaUs < VIDEO_RATE_REDUCE_THRESHOLD_DELTA_US

/-- Nothing has been decided at the samples between the two. -/
def QuietBetween (m n : ℕ) : Prop := ∀ k, m < k → k < n → decisionAt samples k = .continue

/-- With the `n`-th sample, a streak of samples below the threshold, all after the `e`-th one, has
    gone on for as long as it takes, and not so before. -/
def Recovered (e n : ℕ) : Prop :=
  ∃ f, Streak (Below samples) e f (n + 1) ∧
    (samples f).nowUs + CONGESTED_TO_STREAMING_HYSTERESIS_US ≤ (samples n).nowUs ∧
    ∀ k, f ≤ k → k < n →
      (samples k).nowUs < (samples f).nowUs + CONGESTED_TO_STREAMING_HYSTERESIS_US

/-- What is decided at the `n`-th sample, in terms of the samples and decisions before. -/
structure HysteresisAt (n : ℕ) : Prop where
  /-- The instance becomes congested at the first sample above the threshold since the start or
      since it last recovered. -/
  enter_iff : decisionAt samples n = .enterCongested ↔ Above samples n ∧
    ∀ j < n, Above samples j → ∃ k, j < k ∧ k < n ∧ decisionAt samples k = .exitCongested
  /-- It recovers when a streak below the threshold, since it became congested, is long enough. -/
  exit_iff : decisionAt samples n ≠ .resetStream → (decisionAt samples n = .exitCongested ↔
    ∃ e < n, decisionAt samples e = .enterCongested ∧
      (∀ k, e < k → k < n → decisionAt samples k ≠ .exitCongested) ∧ Recovered samples e n)
  /-- It becomes congested first, or again after it has recovered. -/
  enter_follows : decisionAt samples n = .enterCongested →
    (∀ j < n, decisionAt samples j = .continue) ∨
      ∃ x < n, decisionAt samples x = .exitCongested ∧ QuietBetween samples x n
  /-- It recovers after it has become congested. -/
  exit_follows : decisionAt samples n = .exitCongested →
    ∃ e < n, decisionAt samples e = .enterCongested ∧ QuietBetween samples e n
  /-- A sample on the threshold does not make it congested, and breaks a streak. -/
  on_threshold : (samples n).deltaUs = VIDEO_RATE_REDUCE_THRESHOLD_DELTA_US →
    decisionAt samples n ≠ .enterCongested ∧
      (decisionAt samples n ≠ .resetStream → decisionAt samples n = .continue ∧
        (trackerAt samples (n + 1)).belowSoftSinceUs = none)

/-- The tracker is calm before the `n`-th sample: every sample above the threshold has been
    recovered from. -/
structure Calm (n : ℕ) : Prop where
  congested : (trackerAt samples n).congested = false
  belowSoftSinceUs : (trackerAt samples n).belowSoftSinceUs = none
  recovered : ∀ j < n, Above samples j →
    ∃ k, j < k ∧ k < n ∧ decisionAt samples k = .exitCongested
  follows : (∀ j < n, decisionAt samples j = .continue) ∨
    ∃ x < n, decisionAt samples x = .exitCongested ∧ QuietBetween samples x n

/-- The tracker is congested before the `n`-th sample, since the `e`-th one. Its timer tells since
    when the samples have been below the threshold. -/
structure CongestedSince (e n : ℕ) : Prop where
  congested : (trackerAt samples n).congested = true
  lt : e < n
  entered : decisionAt samples e = .enterCongested
  quiet : QuietBetween samples e n
  timer : (trackerAt samples n).belowSoftSinceUs = none ∧ (n = e + 1 ∨ ¬Below samples (n - 1)) ∨
    ∃ f, Streak (Below samples) e f n ∧
      (trackerAt samples n).belowSoftSinceUs = some (samples f).nowUs ∧
      ∀ k, f ≤ k → k < n →
        (samples k).nowUs < (samples f).nowUs + CONGESTED_TO_STREAMING_HYSTERESIS_US

variable {samples} {e m n : ℕ}

/-- What a sample decides, and what it leaves of the tracker. -/
theorem evaluated_at (samples : ℕ → BackpressureSample) (n : ℕ) :
    (trackerAt samples n).evaluate (samples n).nowUs (samples n).deltaUs
      (samples n).appSendQueueBytes = (decisionAt samples n, trackerAt samples (n + 1)) := rfl

theorem QuietBetween.succ (h : QuietBetween samples m n) (hn : decisionAt samples n = .continue) :
    QuietBetween samples m (n + 1) := by
  intro k hmk hk
  rcases Nat.lt_succ_iff_lt_or_eq.1 hk with hk | rfl
  · exact h k hmk hk
  · exact hn

theorem quietBetween_self (n : ℕ) : QuietBetween samples n (n + 1) := fun k hk hk' => by omega

/-- A sample above the threshold is not below it. -/
theorem not_below_of_above (h : Above samples n) : ¬Below samples n := Nat.lt_asymm h

/-- A calm tracker decides on the sample alone. -/
theorem Calm.step (h : Calm samples n) :
    (Above samples n ∧ decisionAt samples n = .enterCongested ∧
      CongestedSince samples n (n + 1)) ∨
    (¬Above samples n ∧ decisionAt samples n = .continue ∧ Calm samples (n + 1)) := by
  have hat := evaluated_at samples n
  by_cases habove : Above samples n
  · rw [evaluate_of_enters h.congested habove] at hat
    obtain ⟨hdecision, htracker⟩ := Prod.mk.inj hat
    refine .inl ⟨habove, hdecision.symm, ?_, Nat.lt_succ_self n, hdecision.symm,
      quietBetween_self n, .inl ⟨?_, .inl rfl⟩⟩
    all_goals rw [← htracker]
  · rw [evaluate_of_calm h.congested (Nat.not_lt.1 habove)] at hat
    obtain ⟨hdecision, htracker⟩ := Prod.mk.inj hat
    refine .inr ⟨habove, hdecision.symm, ?_, ?_, fun j hj hj' => ?_, ?_⟩
    · rw [← htracker]
      exact h.congested
    · rw [← htracker]
      exact h.belowSoftSinceUs
    · rcases Nat.lt_succ_iff_lt_or_eq.1 hj with hj | rfl
      · obtain ⟨k, hjk, hk, hexit⟩ := h.recovered j hj hj'
        exact ⟨k, hjk, Nat.lt_succ_of_lt hk, hexit⟩
      · exact absurd hj' habove
    · rcases h.follows with hnone | ⟨x, hx, hexit, hquiet⟩
      · refine .inl fun j hj => ?_
        rcases Nat.lt_succ_iff_lt_or_eq.1 hj with hj | rfl
        · exact hnone j hj
        · exact hdecision.symm
      · exact .inr ⟨x, Nat.lt_succ_of_lt hx, hexit, hquiet.succ hdecision.symm⟩

/-- A congested tracker that neither resets nor recovers goes on, with its timer set or reset. -/
theorem CongestedSince.goOn (h : CongestedSince samples e n)
    (hdecision : decisionAt samples n = .continue)
    (hcongested : (trackerAt samples (n + 1)).congested = true)
    (htimer : (trackerAt samples (n + 1)).belowSoftSinceUs = none ∧ ¬Below samples n ∨
      ∃ f, Streak (Below samples) e f (n + 1) ∧
        (trackerAt samples (n + 1)).belowSoftSinceUs = some (samples f).nowUs ∧
        ∀ k, f ≤ k → k < n + 1 →
          (samples k).nowUs < (samples f).nowUs + CONGESTED_TO_STREAMING_HYSTERESIS_US) :
    CongestedSince samples e (n + 1) where
  congested := hcongested
  lt := Nat.lt_succ_of_lt h.lt
  entered := h.entered
  quiet := h.quiet.succ hdecision
  timer := htimer.imp_left fun ht => ⟨ht.1, .inr ht.2⟩

/-- A streak that has now gone on for long enough ends the congestion. -/
theorem CongestedSince.exits {f : ℕ} (h : CongestedSince samples e n) (hbelow : Below samples n)
    (hexit : decisionAt samples n = .exitCongested)
    (hcongested : (trackerAt samples (n + 1)).congested = false)
    (htimer : (trackerAt samples (n + 1)).belowSoftSinceUs = none)
    (hstreak : Streak (Below samples) e f n)
    (hlong : (samples f).nowUs + CONGESTED_TO_STREAMING_HYSTERESIS_US ≤ (samples n).nowUs)
    (hshort : ∀ k, f ≤ k → k < n →
      (samples k).nowUs < (samples f).nowUs + CONGESTED_TO_STREAMING_HYSTERESIS_US) :
    Recovered samples e n ∧ Calm samples (n + 1) := by
  refine ⟨⟨f, hstreak.succ hbelow, hlong, hshort⟩, hcongested, htimer, fun j hj habove => ?_,
    .inr ⟨n, Nat.lt_succ_self n, hexit, quietBetween_self n⟩⟩
  rcases Nat.lt_succ_iff_lt_or_eq.1 hj with hj | rfl
  · exact ⟨n, hj, Nat.lt_succ_self n, hexit⟩
  · exact absurd hbelow (not_below_of_above habove)

/-- A congested tracker resets, recovers if the streak is long enough, or goes on. -/
theorem CongestedSince.step (h : CongestedSince samples e n) :
    decisionAt samples n = .resetStream ∨
    (Recovered samples e n ∧ decisionAt samples n = .exitCongested ∧ Calm samples (n + 1)) ∨
    (¬Recovered samples e n ∧ decisionAt samples n = .continue ∧
      CongestedSince samples e (n + 1)) := by
  have hat := evaluated_at samples n
  by_cases hresets :
    (trackerAt samples n).Resets (samples n).deltaUs (samples n).appSendQueueBytes
  · rw [evaluate_of_resets h.congested hresets] at hat
    exact .inl (Prod.mk.inj hat).1.symm
  refine .inr ?_
  by_cases hbelow : (samples n).deltaUs < VIDEO_RATE_REDUCE_THRESHOLD_DELTA_US
  · rcases h.timer with ⟨hnone, hbroken⟩ | ⟨f, hstreak, hsome, hshort⟩
    · -- the sample starts a streak
      rw [evaluate_of_not_resets h.congested hresets, if_pos hbelow, hnone] at hat
      obtain ⟨hdecision, htracker⟩ := Prod.mk.inj hat
      have hstart : Streak (Below samples) e n (n + 1) := streak_single h.lt hbelow hbroken
      refine .inr ⟨?_, hdecision.symm, h.goOn hdecision.symm ?_ (.inr ⟨n, hstart, ?_, ?_⟩)⟩
      · rintro ⟨f, hstreak, hlong, -⟩
        rw [hstreak.unique hstart] at hlong
        exact absurd hlong (Nat.not_le.2 (Nat.lt_add_of_pos_right (by decide)))
      · rw [← htracker]
      · rw [← htracker]
      · intro k hk hk'
        rw [Nat.le_antisymm (Nat.le_of_lt_succ hk') hk]
        exact Nat.lt_add_of_pos_right (by decide)
    · rw [evaluate_of_below h.congested hresets hbelow hsome] at hat
      by_cases hlong : (samples f).nowUs + CONGESTED_TO_STREAMING_HYSTERESIS_US ≤ (samples n).nowUs
      · -- the streak has become long enough
        rw [if_pos hlong] at hat
        obtain ⟨hdecision, htracker⟩ := Prod.mk.inj hat
        obtain ⟨hrecovered, hcalm⟩ := h.exits hbelow hdecision.symm (by rw [← htracker])
          (by rw [← htracker]) hstreak hlong hshort
        exact .inl ⟨hrecovered, hdecision.symm, hcalm⟩
      · rw [if_neg hlong] at hat
        obtain ⟨hdecision, htracker⟩ := Prod.mk.inj hat
        refine .inr ⟨?_, hdecision.symm,
          h.goOn hdecision.symm ?_ (.inr ⟨f, hstreak.succ hbelow, ?_, ?_⟩)⟩
        · rintro ⟨f', hstreak', hlong', -⟩
          rw [hstreak'.unique (hstreak.succ hbelow)] at hlong'
          exact hlong hlong'
        · rw [← htracker]
        · rw [← htracker]
        · intro k hk hk'
          rcases Nat.lt_succ_iff_lt_or_eq.1 hk' with hk' | rfl
          · exact hshort k hk hk'
          · exact Nat.not_le.1 hlong
  · -- the sample breaks the streak, if there is one
    rw [evaluate_of_not_resets h.congested hresets, if_neg hbelow] at hat
    obtain ⟨hdecision, htracker⟩ := Prod.mk.inj hat
    refine .inr ⟨?_, hdecision.symm, h.goOn hdecision.symm ?_ (.inl ⟨?_, hbelow⟩)⟩
    · rintro ⟨f, hstreak, -, -⟩
      exact hbelow hstreak.last
    · rw [← htracker]
    · rw [← htracker]

/-- Up to the first decision to reset, the tracker is calm or congested since some sample. -/
theorem calm_or_congestedSince (h : ∀ j < n, decisionAt samples j ≠ .resetStream) :
    Calm samples n ∨ ∃ e, CongestedSince samples e n := by
  induction n with
  | zero => exact .inl ⟨rfl, rfl, nofun, .inl nofun⟩
  | succ n ih =>
    rcases ih fun j hj => h j (Nat.lt_succ_of_lt hj) with hcalm | ⟨e, hcongested⟩
    · rcases hcalm.step with ⟨-, -, hnext⟩ | ⟨-, -, hnext⟩
      · exact .inr ⟨n, hnext⟩
      · exact .inl hnext
    · rcases hcongested.step with hreset | ⟨-, -, hnext⟩ | ⟨-, -, hnext⟩
      · exact absurd hreset (h n (Nat.lt_succ_self n))
      · exact .inl hnext
      · exact .inr ⟨e, hnext⟩

/-- The instance becomes congested at a sample above the threshold, when the tracker is calm. -/
theorem calm_of_enter (h : ∀ j < n, decisionAt samples j ≠ .resetStream)
    (henter : decisionAt samples n = .enterCongested) : Calm samples n ∧ Above samples n := by
  rcases calm_or_congestedSince h with hcalm | ⟨e, hcongested⟩
  · rcases hcalm.step with ⟨habove, -, -⟩ | ⟨-, hdecision, -⟩
    · exact ⟨hcalm, habove⟩
    · exact absurd (henter.symm.trans hdecision) nofun
  · rcases hcongested.step with hdecision | ⟨-, hdecision, -⟩ | ⟨-, hdecision, -⟩
    all_goals exact absurd (henter.symm.trans hdecision) nofun

/-- While the tracker is calm, every congestion has ended. -/
theorem Calm.exited (hcalm : Calm samples n) (h : ∀ j < n, decisionAt samples j ≠ .resetStream)
    (hen : e < n) (henter : decisionAt samples e = .enterCongested) :
    ∃ k, e < k ∧ k < n ∧ decisionAt samples k = .exitCongested :=
  hcalm.recovered e hen (calm_of_enter (fun j hj => h j (hj.trans hen)) henter).2

/-- There is one congestion that has not ended. -/
theorem CongestedSince.eq {e' : ℕ} (hcongested : CongestedSince samples e n)
    (h : ∀ j < n, decisionAt samples j ≠ .resetStream) (hen : e' < n)
    (henter : decisionAt samples e' = .enterCongested)
    (hnone : ∀ k, e' < k → k < n → decisionAt samples k ≠ .exitCongested) : e' = e := by
  have hquiet := hcongested.quiet
  rcases Nat.lt_trichotomy e' e with hlt | heq | hgt
  · -- the tracker was calm before the `e`-th sample
    have hbefore : ∀ j < e, decisionAt samples j ≠ .resetStream :=
      fun j hj => h j (hj.trans hcongested.lt)
    obtain ⟨k, hk, hke, hexit⟩ :=
      (calm_of_enter hbefore hcongested.entered).1.exited hbefore hlt henter
    exact absurd hexit (hnone k hk (hke.trans hcongested.lt))
  · exact heq
  · exact absurd (henter.symm.trans (hquiet e' hgt hen)) nofun

/-- What a calm tracker decides. -/
theorem Calm.hysteresisAt (hcalm : Calm samples n)
    (h : ∀ j < n, decisionAt samples j ≠ .resetStream) : HysteresisAt samples n := by
  have hnone : ¬∃ e < n, decisionAt samples e = .enterCongested ∧
      (∀ k, e < k → k < n → decisionAt samples k ≠ .exitCongested) ∧ Recovered samples e n := by
    rintro ⟨e, hen, henter, hnoExit, -⟩
    obtain ⟨k, hek, hkn, hexit⟩ := hcalm.exited h hen henter
    exact hnoExit k hek hkn hexit
  rcases hcalm.step with ⟨habove, hdecision, -⟩ | ⟨hnotAbove, hdecision, hnext⟩
  · refine ⟨iff_of_true hdecision ⟨habove, hcalm.recovered⟩, fun _ => ?_, fun _ => hcalm.follows,
      fun hexit => ?_, fun hthreshold => ?_⟩
    · exact iff_of_false (by rw [hdecision]; nofun) hnone
    · exact absurd (hexit.symm.trans hdecision) nofun
    · exact absurd hthreshold (Nat.ne_of_gt habove)
  · refine ⟨iff_of_false (by rw [hdecision]; nofun) fun hrhs => hnotAbove hrhs.1, fun _ => ?_,
      fun _ => hcalm.follows, fun hexit => ?_, fun _ => ⟨by rw [hdecision]; nofun, fun _ => ?_⟩⟩
    · exact iff_of_false (by rw [hdecision]; nofun) hnone
    · exact absurd (hexit.symm.trans hdecision) nofun
    · exact ⟨hdecision, hnext.belowSoftSinceUs⟩

/-- What a congested tracker decides. -/
theorem CongestedSince.hysteresisAt (hcongested : CongestedSince samples e n)
    (h : ∀ j < n, decisionAt samples j ≠ .resetStream) : HysteresisAt samples n := by
  have hquiet := hcongested.quiet
  have hnoExit : ∀ k, e < k → k < n → decisionAt samples k ≠ .exitCongested := by
    intro k hek hkn
    rw [hquiet k hek hkn]
    nofun
  have hnotEnter : decisionAt samples n ≠ .enterCongested := by
    intro henter
    obtain ⟨k, hek, hkn, hexit⟩ :=
      (calm_of_enter h henter).1.exited h hcongested.lt hcongested.entered
    exact hnoExit k hek hkn hexit
  have habove : Above samples e :=
    (calm_of_enter (fun j hj => h j (hj.trans hcongested.lt)) hcongested.entered).2
  refine ⟨iff_of_false hnotEnter ?_, fun hnoReset => ?_, fun henter => absurd henter hnotEnter,
    fun _ => ⟨e, hcongested.lt, hcongested.entered, hquiet⟩,
    fun hthreshold => ⟨hnotEnter, fun hnoReset => ?_⟩⟩
  · rintro ⟨-, hrecovered⟩
    obtain ⟨k, hek, hkn, hexit⟩ := hrecovered e hcongested.lt habove
    exact hnoExit k hek hkn hexit
  · rcases hcongested.step with hreset | ⟨hrecovered, hexit, -⟩ | ⟨hnot, hdecision, -⟩
    · exact absurd hreset hnoReset
    · exact iff_of_true hexit ⟨e, hcongested.lt, hcongested.entered, hnoExit, hrecovered⟩
    · refine iff_of_false (by rw [hdecision]; nofun) ?_
      rintro ⟨e', hen, henter, hnone, hrecovered⟩
      rw [hcongested.eq h hen henter hnone] at hrecovered
      exact hnot hrecovered
  · have hnotBelow : ¬Below samples n := Nat.not_lt.2 (Nat.le_of_eq hthreshold.symm)
    rcases hcongested.step with hreset | ⟨⟨f, hstreak, -⟩, -, -⟩ | ⟨-, hdecision, hnext⟩
    · exact absurd hreset hnoReset
    · exact absurd hstreak.last hnotBelow
    · rcases hnext.timer with ⟨hnone, -⟩ | ⟨f, hstreak, -⟩
      · exact ⟨hdecision, hnone⟩
      · exact absurd hstreak.last hnotBelow

/-- Up to the first decision to reset, congestion is entered and left with hysteresis. -/
theorem hysteresis (samples : ℕ → BackpressureSample) (n : ℕ)
    (h : ∀ j < n, decisionAt samples j ≠ .resetStream) : HysteresisAt samples n := by
  rcases calm_or_congestedSince h with hcalm | ⟨e, hcongested⟩
  · exact hcalm.hysteresisAt h
  · exact hcongested.hysteresisAt h

/-- Delays of 150, 50, 100, 50 and 50 milliseconds, the last two half a second apart. -/
def delayedOnce (n : ℕ) : BackpressureSample :=
  ⟨[0, 100000, 200000, 300000, 800000].getD n 900000,
    [150000, 50000, 100000, 50000, 50000].getD n 0, 0⟩

/-- The streak starts anew after the sample on the threshold, and ends the congestion. -/
theorem hysteresis_delayedOnce : HysteresisAt delayedOnce 4 ∧
    decisionAt delayedOnce 0 = .enterCongested ∧ decisionAt delayedOnce 4 = .exitCongested :=
  ⟨hysteresis delayedOnce 4 (by decide), rfl, rfl⟩

end CongestionTracker

end Sardp
