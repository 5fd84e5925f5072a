import Sardp.Library.Sequences
import Sardp.Video.CircuitBreaker

/-!
# The episodes of the circuit breaker

Once it has asked for a keyframe, the breaker of the client does not ask again before the age it
observes has been low (`queue_circuit_breaker.rs`). So it asks once for every episode of high ages
(`ClientQueueCircuitBreaker.asks_once_per_episode`): an episode starts with the first age above the
upper threshold, and is over at the first age below the lower one.
-/

namespace Sardp

namespace ClientQueueCircuitBreaker

/-- A breaker with explicit thresholds. -/
def withThresholds (tripThresholdUs rearmThresholdUs : ℕ) (h : rearmThresholdUs < tripThresholdUs) :
    ClientQueueCircuitBreaker :=
  ⟨tripThresholdUs, rearmThresholdUs, false, h⟩

/-- The breaker as a filter of the ages it observes. -/
def filter : Transducer ClientQueueCircuitBreaker ℕ (Option KeyframeRequest) := ⟨observe⟩

/-- The breaker asks for a keyframe at the `n`-th age. -/
def AsksAt (b : ClientQueueCircuitBreaker) (ages : ℕ → ℕ) (n : ℕ) : Prop :=
  filter.output b ages n = some ⟨.decodeError⟩

/-- The ages since the `r`-th one have not been below the lower threshold. -/
def HighSince (b : ClientQueueCircuitBreaker) (ages : ℕ → ℕ) (r n : ℕ) : Prop :=
  ∀ k, r < k → k < n → b.rearmThresholdUs ≤ ages k

variable {b : ClientQueueCircuitBreaker} {age : ℕ}

/-- The breaker asks at an age above the upper threshold, unless it has tripped. -/
theorem observe_fst_eq_some :
    (b.observe age).1 = some ⟨.decodeError⟩ ↔ b.tripped = false ∧ b.tripThresholdUs < age := by
  rw [observe]
  split_ifs with htripped hlow hhigh <;> simp [htripped]
  · exact hhigh
  · exact Nat.not_lt.1 hhigh

/-- It has tripped if it has just asked, or had tripped before and the age is not low. -/
theorem tripped_observe : (b.observe age).2.tripped = true ↔
    (b.tripped = false ∧ b.tripThresholdUs < age) ∨
      b.tripped = true ∧ b.rearmThresholdUs ≤ age := by
  rw [observe]
  split_ifs with htripped hlow hhigh <;> simp [htripped]
  · exact hlow
  · exact Nat.not_lt.1 hlow
  · exact hhigh
  · exact Nat.not_lt.1 hhigh

@[simp] theorem rearmThresholdUs_observe :
    (b.observe age).2.rearmThresholdUs = b.rearmThresholdUs := by
  rw [observe]
  split_ifs <;> rfl

/-! ## Sequences of ages -/

variable {ages : ℕ → ℕ} {r n : ℕ}

theorem thresholds_state (b : ClientQueueCircuitBreaker) (ages : ℕ → ℕ) (n : ℕ) :
    (filter.state b ages n).tripThresholdUs = b.tripThresholdUs ∧
      (filter.state b ages n).rearmThresholdUs = b.rearmThresholdUs := by
  induction n with
  | zero => exact ⟨rfl, rfl⟩
  | succ n ih =>
    rw [Transducer.state_succ]
    exact ⟨tripThresholdUs_observe.trans ih.1, rearmThresholdUs_observe.trans ih.2⟩

theorem asksAt_iff : b.AsksAt ages n ↔
    (filter.state b ages n).tripped = false ∧ b.tripThresholdUs < ages n := by
  rw [← (thresholds_state b ages n).1]
  exact observe_fst_eq_some

theorem tripped_succ : (filter.state b ages (n + 1)).tripped = true ↔
    b.AsksAt ages n ∨
      (filter.state b ages n).tripped = true ∧ b.rearmThresholdUs ≤ ages n := by
  rw [asksAt_iff, ← (thresholds_state b ages n).1, ← (thresholds_state b ages n).2]
  exact tripped_observe

theorem HighSince.succ (h : b.HighSince ages r n) (hn : b.rearmThresholdUs ≤ ages n) :
    b.HighSince ages r (n + 1) := by
  intro k hrk hk
  rcases Nat.lt_succ_iff_lt_or_eq.1 hk with hk | rfl
  · exact h k hrk hk
  · exact hn

/-- The breaker has tripped exactly if it has asked and the ages have not been low since. -/
theorem tripped_iff (hb : b.tripped = false) : (filter.state b ages n).tripped = true ↔
    ∃ r < n, b.AsksAt ages r ∧ b.HighSince ages r n := by
  induction n with
  | zero =>
    rw [Transducer.state_zero, hb]
    exact iff_of_false nofun fun ⟨r, hr, _⟩ => by cases hr
  | succ n ih =>
    rw [tripped_succ, ih]
    constructor
    · rintro (hasks | ⟨⟨r, hr, hasks, hhigh⟩, hn⟩)
      · exact ⟨n, Nat.lt_succ_self n, hasks, fun k hk hk' => by omega⟩
      · exact ⟨r, Nat.lt_succ_of_lt hr, hasks, hhigh.succ hn⟩
    · rintro ⟨r, hr, hasks, hhigh⟩
      rcases Nat.lt_succ_iff_lt_or_eq.1 hr with hr | rfl
      · exact .inr ⟨⟨r, hr, hasks, fun k hk hk' => hhigh k hk (Nat.lt_succ_of_lt hk')⟩,
          hhigh n hr (Nat.lt_succ_self n)⟩
      · exact .inl hasks

/-- The ages before the `n`-th one, but after a time the breaker did not trip any more, are not
    above the upper threshold if it has not asked since. -/
theorem le_of_not_asksAt {q k : ℕ} (hb : b.tripped = false) (hq : ages q < b.rearmThresholdUs)
    (hasks : ∀ k, q < k → k < n → ¬b.AsksAt ages k) (hrq : ∀ r < n, b.AsksAt ages r → r < q)
    (hqk : q < k) (hk : k < n) : ages k ≤ b.tripThresholdUs := by
  by_contra hhigh
  refine hasks k hqk hk (asksAt_iff.2 ⟨Bool.eq_false_iff.2 fun htripped => ?_, by omega⟩)
  -- had it tripped, it would have asked before the low age
  obtain ⟨r, hr, hasksr, hsince⟩ := (tripped_iff hb).1 htripped
  have hle := hsince q (hrq r (hr.trans hk) hasksr) hqk
  omega

/-- The breaker asks at the `n`-th age exactly if it is the first one above the upper threshold, or
    the first one since the age has first been low after a request. -/
theorem asksAt_iff_first (hb : b.tripped = false) : b.AsksAt ages n ↔
    b.tripThresholdUs < ages n ∧
      ((∀ j < n, ages j ≤ b.tripThresholdUs) ∨
        ∃ r q, r < q ∧ q < n ∧ b.AsksAt ages r ∧ ages q < b.rearmThresholdUs ∧
          b.HighSince ages r q ∧ ∀ k, q < k → k < n → ages k ≤ b.tripThresholdUs) := by
  have hgap := b.rearm_lt_trip
  constructor
  · intro hasks
    obtain ⟨huntripped, hhigh⟩ := asksAt_iff.1 hasks
    refine ⟨hhigh, ?_⟩
    rcases Sequences.none_or_last (b.AsksAt ages) n with hnone | ⟨r, hr, hasksr, hlast⟩
    · -- it has never asked: it had not tripped at any of the ages
      refine .inl fun j hj => Nat.not_lt.1 fun hj' => hnone j hj ?_
      refine asksAt_iff.2 ⟨Bool.eq_false_iff.2 fun htripped => ?_, hj'⟩
      obtain ⟨r, hr, hasksr, -⟩ := (tripped_iff hb).1 htripped
      exact hnone r (hr.trans hj) hasksr
    · -- as it has not tripped any more, the age has been low since it asked last
      have hlow : ∃ q, r < q ∧ q < n ∧ ages q < b.rearmThresholdUs := by
        by_contra hnone
        push Not at hnone
        rw [(tripped_iff hb).2 ⟨r, hr, hasksr, hnone⟩] at huntripped
        cases huntripped
      obtain ⟨q, hrq, hqn, hq, hfirst⟩ := Sequences.exists_first hlow
      refine .inr ⟨r, q, hrq, hqn, hasksr, hq, fun k hk hk' => Nat.not_lt.1 (hfirst k hk hk'), ?_⟩
      refine fun k hqk hk => le_of_not_asksAt hb hq (fun k hqk hk => hlast k (hrq.trans hqk) hk)
        (fun r' hr' hasksr' => ?_) hqk hk
      by_contra hle
      exact hlast r' (by omega) hr' hasksr'
  · rintro ⟨hhigh, hcases⟩
    refine asksAt_iff.2 ⟨Bool.eq_false_iff.2 fun htripped => ?_, hhigh⟩
    obtain ⟨r', hr', hasksr', hsince⟩ := (tripped_iff hb).1 htripped
    have hhighr' := (asksAt_iff.1 hasksr').2
    rcases hcases with hnone | ⟨r, q, hrq, hqn, -, hq, -, hafter⟩
    · have := hnone r' hr'
      omega
    · -- a request that still counts would be before, at or after the low age
      rcases Nat.lt_trichotomy r' q with hlt | rfl | hlt
      · have := hsince q hlt hqn
        omega
      · omega
      · have := hafter r' hlt hr'
        omega

/-- Every age above the upper threshold is one of an episode with a request. -/
theorem exists_request (hb : b.tripped = false) (hn : b.tripThresholdUs < ages n) :
    ∃ r ≤ n, b.AsksAt ages r ∧ b.HighSince ages r (n + 1) := by
  have hgap := b.rearm_lt_trip
  cases htripped : (filter.state b ages n).tripped with
  | false => exact ⟨n, le_rfl, asksAt_iff.2 ⟨htripped, hn⟩, fun k hk hk' => by omega⟩
  | true =>
    obtain ⟨r, hr, hasks, hhigh⟩ := (tripped_iff hb).1 htripped
    exact ⟨r, hr.le, hasks, hhigh.succ (by omega)⟩

/-- When the breaker asks, in terms of the ages and of when it has asked before. -/
structure AsksOncePerEpisode (b : ClientQueueCircuitBreaker) (ages : ℕ → ℕ) (n : ℕ) : Prop where
  /-- It asks at the first age above the upper threshold, and after every request at the first one
      that follows the first age below the lower one since. -/
  asks_iff : b.AsksAt ages n ↔ b.tripThresholdUs < ages n ∧
    ((∀ j < n, ages j ≤ b.tripThresholdUs) ∨
      ∃ r q, r < q ∧ q < n ∧ b.AsksAt ages r ∧ ages q < b.rearmThresholdUs ∧
        b.HighSince ages r q ∧ ∀ k, q < k → k < n → ages k ≤ b.tripThresholdUs)
  /-- Between two requests an age is low. -/
  low_between : ∀ r < n, b.AsksAt ages r → b.AsksAt ages n →
    ∃ q, r < q ∧ q < n ∧ ages q < b.rearmThresholdUs
  /-- Every age above the upper threshold belongs to a request. -/
  belongs : b.tripThresholdUs < ages n → ∃ r ≤ n, b.AsksAt ages r ∧ b.HighSince ages r (n + 1)

/-- A breaker that has not tripped asks once for every episode of high ages. -/
theorem asks_once_per_episode (tripThresholdUs rearmThresholdUs : ℕ)
    (h : rearmThresholdUs < tripThresholdUs) (ages : ℕ → ℕ) (n : ℕ) :
    AsksOncePerEpisode (withThresholds tripThresholdUs rearmThresholdUs h) ages n := by
  have hb : (withThresholds tripThresholdUs rearmThresholdUs h).tripped = false := rfl
  refine ⟨asksAt_iff_first hb, fun r hr hasks hasks' => ?_, exists_request hb⟩
  by_contra hnone
  push Not at hnone
  -- the breaker would not have been armed again
  have htripped := (tripped_iff hb).2 ⟨r, hr, hasks, hnone⟩
  rw [(asksAt_iff.1 hasks').1] at htripped
  cases htripped

/-- Ages that go across both thresholds at once. -/
theorem asks_once_per_episode_jump :
    AsksOncePerEpisode (withThresholds 10 5 (by decide)) (fun n => [11, 0, 12, 13].getD n 0) 2 :=
  asks_once_per_episode 10 5 (by decide) _ 2

end ClientQueueCircuitBreaker

end Sardp
