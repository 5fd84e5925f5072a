import Mathlib.Data.List.DropRight
import Mathlib.Data.List.Infix
import Sardp.Library.Machine
import Sardp.Video.VideoChannel

/-!
# Backing off in recovery

A channel that recovers opens an instance at once, and another one whenever that has failed, but not
before some time has passed, which is longer from one failure to the next (`channel_sm.rs`). An
episode of recovery goes on until an instance is streaming. In between, the focus may change and
the instance may be given up again, which the episode does not depend on
(`ChannelSm.backoff_of_allowed`).

Sums are of 64 bits and of 32, and a call panics where one overflows.
-/

namespace Sardp

/-- A call of the state machine of a channel. -/
inductive ChannelSmCall
  | onInstanceStreaming
  | onReset
  | onRetryTimeout (nowUs : ℕ)
  | deactivate
  | activate
  deriving DecidableEq

/-- When an attempt has timed out. -/
def ChannelSmCall.timeoutUs : ChannelSmCall → Option ℕ
  | .onRetryTimeout nowUs => some nowUs
  | _ => none

namespace ChannelSm

/-- The times are of 64 bits, and attempts are counted with 32. -/
def SumsFit (sm : ChannelSm) : Prop :=
  (∀ t ∈ sm.nextRetryAllowedAtUs, t < 2 ^ 64) ∧ sm.retryAttempt < 2 ^ 32

instance (sm : ChannelSm) : Decidable sm.SumsFit := inferInstanceAs (Decidable (_ ∧ _))

/-- A call; `none` if a sum overflows. -/
def call (sm : ChannelSm) : ChannelSmCall → Option ChannelSm
  | .onInstanceStreaming => some sm.onInstanceStreaming
  | .onReset => some sm.onReset
  | .onRetryTimeout nowUs =>
    if (sm.onRetryTimeout nowUs).SumsFit then some (sm.onRetryTimeout nowUs) else none
  | .deactivate => some sm.deactivate
  | .activate => some sm.activate

def machine : Machine ChannelSm ChannelSmCall := ⟨call⟩

/-- The attempts that have failed in an episode, which goes on until an instance is streaming. -/
def failures (calls : List ChannelSmCall) : ℕ :=
  (calls.rtakeWhile (· ≠ .onInstanceStreaming)).countP (·.timeoutUs.isSome)

/-- The time to wait after so many failures: 1, 2, 4, 8, 16 and then 30 seconds. -/
def backoffUs (k : ℕ) : ℕ := min (2 ^ (k - 1)) 30 * 1000000

/-- Attempts are timed out in recovery only, and neither too often in an episode nor too late. -/
structure Allowed (calls : List ChannelSmCall) : Prop where
  recovering : machine.Always (fun sm c _ => c.timeoutUs.isSome → sm.state = .recovering) new calls
  failures_lt : ∀ calls' ∈ calls.inits, failures calls' < 2 ^ 32
  time_lt : ∀ c ∈ calls, ∀ nowUs ∈ c.timeoutUs, nowUs < 2 ^ 63

/-- No attempt has failed, and the next one may be made at once. -/
def Fresh (sm : ChannelSm) : Prop := sm.retryAttempt = 0 ∧ sm.nextRetryAllowedAtUs = none

/-- What a call does to the backoff, after others. -/
structure KeepsBackoff (calls : List ChannelSmCall) (sm : ChannelSm) (c : ChannelSmCall)
    (sm' : ChannelSm) : Prop where
  entering : sm.state = .live ∨ sm.state = .paused → sm'.state = .recovering → sm'.Fresh
  /-- The wait after a failure goes by its number in the episode. -/
  timeout {nowUs : ℕ} : c = .onRetryTimeout nowUs →
    sm'.nextRetryAllowedAtUs = some (nowUs + backoffUs (failures calls + 1))
  focus : c = .activate ∨ c = .deactivate →
    sm'.retryAttempt = sm.retryAttempt ∧ sm'.nextRetryAllowedAtUs = sm.nextRetryAllowedAtUs ∧
      (sm'.state = .recovering ↔ sm.state = .recovering)

variable {sm sm' : ChannelSm} {calls : List ChannelSmCall} {c : ChannelSmCall} {nowUs nowUs' : ℕ}

/-! ## Failures -/

@[simp] theorem failures_nil : failures [] = 0 := rfl

theorem failures_concat (calls : List ChannelSmCall) (c : ChannelSmCall) :
    failures (calls ++ [c]) =
      if c = .onInstanceStreaming then 0
      else failures calls + if c.timeoutUs.isSome then 1 else 0 := by
  rw [failures]
  split_ifs with hstreaming htimeout
  · rw [List.rtakeWhile_concat_neg _ _ _ (by simp [hstreaming])]
    rfl
  · rw [List.rtakeWhile_concat_pos _ _ _ (by simp [hstreaming]), List.countP_append,
      List.countP_singleton, if_pos htimeout]
    rfl
  · rw [List.rtakeWhile_concat_pos _ _ _ (by simp [hstreaming]), List.countP_append,
      List.countP_singleton, if_neg htimeout]
    rfl

theorem getD_sequence (n : ℕ) :
    (RECOVERY_BACKOFF_SEQUENCE_US[n]?).getD RECOVERY_BACKOFF_PLATEAU_US = backoffUs (n + 1) := by
  by_cases hn : n < 6
  · revert n
    decide
  · have hpow : 2 ^ 5 ≤ 2 ^ n := Nat.pow_le_pow_right (by decide) (by omega)
    have hnone : RECOVERY_BACKOFF_SEQUENCE_US[n]? = none :=
      List.getElem?_eq_none (Nat.le_of_not_lt hn)
    rw [hnone, backoffUs, Nat.add_sub_cancel, Nat.min_eq_right (by omega)]
    rfl

/-! ## Runs -/

/-- The failures are counted, and outside of an episode there are none. -/
structure Inv (calls : List ChannelSmCall) (sm : ChannelSm) : Prop where
  counted : sm.retryAttempt = failures calls
  waiting : sm.retryAttempt = 0 → sm.nextRetryAllowedAtUs = none
  outside : sm.state ≠ .recovering → sm.retryAttempt = 0

theorem Inv.fresh (h : Inv calls sm) (hstate : sm.state ≠ .recovering) : sm.Fresh :=
  ⟨h.outside hstate, h.waiting (h.outside hstate)⟩

theorem inv_new : Inv [] new := ⟨rfl, fun _ => rfl, fun _ => rfl⟩

theorem call_onRetryTimeout (hcall : sm.call (.onRetryTimeout nowUs) = some sm') :
    sm' = sm.onRetryTimeout nowUs := by
  rw [call] at hcall
  split_ifs at hcall
  exact (Option.some.inj hcall).symm

/-- The focus does not matter for an episode. -/
theorem call_focus (hc : c = .activate ∨ c = .deactivate) (hcall : sm.call c = some sm') :
    sm'.retryAttempt = sm.retryAttempt ∧ sm'.nextRetryAllowedAtUs = sm.nextRetryAllowedAtUs ∧
      (sm'.state = .recovering ↔ sm.state = .recovering) := by
  rcases hc with rfl | rfl
  · cases hcall
    rw [activate]
    split_ifs with hstate
    · simp [hstate]
    · exact ⟨rfl, rfl, Iff.rfl⟩
  · cases hcall
    rw [deactivate]
    split_ifs with hstate
    · simp [hstate]
    · exact ⟨rfl, rfl, Iff.rfl⟩

theorem Inv.step (h : Inv calls sm) (hrecovering : c.timeoutUs.isSome → sm.state = .recovering)
    (hcall : sm.call c = some sm') : Inv (calls ++ [c]) sm' := by
  have hfocus (hc : c = .activate ∨ c = .deactivate) : Inv (calls ++ [c]) sm' := by
    obtain ⟨hattempt, hnext, hstate⟩ := call_focus hc hcall
    refine ⟨?_, fun hzero => ?_, fun hne => ?_⟩
    · rw [failures_concat, hattempt, h.counted]
      rcases hc with rfl | rfl <;> rfl
    · rw [hnext]
      exact h.waiting (hattempt ▸ hzero)
    · rw [hattempt]
      exact h.outside (mt hstate.2 hne)
  cases c with
  | onInstanceStreaming =>
    cases hcall
    exact ⟨by rw [failures_concat]; rfl, fun _ => rfl, fun _ => rfl⟩
  | onReset =>
    cases hcall
    refine ⟨?_, h.waiting, fun hne => absurd rfl hne⟩
    rw [failures_concat]
    exact h.counted
  | onRetryTimeout nowUs =>
    obtain rfl := call_onRetryTimeout hcall
    refine ⟨?_, nofun, fun hne => absurd (hrecovering rfl) hne⟩
    rw [failures_concat]
    exact congrArg (· + 1) h.counted
  | deactivate => exact hfocus (.inr rfl)
  | activate => exact hfocus (.inl rfl)

theorem onRetryTimeout_eq (h : Inv calls sm) (nowUs : ℕ) : sm.onRetryTimeout nowUs =
    ⟨sm.state, failures calls + 1, some (nowUs + backoffUs (failures calls + 1))⟩ := by
  rw [onRetryTimeout, getD_sequence, h.counted]

/-- No sum overflows. -/
theorem Inv.exists_call (h : Inv calls sm) (hallowed : Allowed (calls ++ [c])) :
    ∃ sm', sm.call c = some sm' := by
  cases c with
  | onRetryTimeout nowUs =>
    have htime := hallowed.time_lt _ (List.mem_append_right calls (List.mem_singleton_self _)) _ rfl
    have hfailures := hallowed.failures_lt _ ((List.mem_inits _ _).2 (List.prefix_refl _))
    rw [failures_concat] at hfailures
    refine ⟨_, if_pos ?_⟩
    rw [onRetryTimeout_eq h]
    refine ⟨fun t ht => ?_, hfailures⟩
    cases ht
    have hwait : backoffUs (failures calls + 1) ≤ 30 * 1000000 :=
      Nat.mul_le_mul_right _ (Nat.min_le_right _ _)
    omega
  | _ => exact ⟨_, rfl⟩

theorem Allowed.of_prefix {calls' : List ChannelSmCall} (h : Allowed calls)
    (hpart : calls' <+: calls) : Allowed calls' where
  recovering := by
    obtain ⟨later, rfl⟩ := hpart
    exact (Machine.always_append.1 h.recovering).1
  failures_lt calls'' hcalls :=
    h.failures_lt calls'' ((List.mem_inits _ _).2 (((List.mem_inits _ _).1 hcalls).trans hpart))
  time_lt c hc := h.time_lt c (hpart.subset hc)

theorem exists_run (h : Allowed calls) : ∃ sm, machine.run new calls = some sm ∧ Inv calls sm := by
  induction calls using List.reverseRecOn with
  | nil => exact ⟨new, rfl, inv_new⟩
  | append_singleton calls c ih =>
    obtain ⟨sm, hrun, hinv⟩ := ih (h.of_prefix (List.prefix_append ..))
    obtain ⟨sm', hcall⟩ := hinv.exists_call h
    refine ⟨sm', Machine.run_append_eq_some.2 ⟨sm, hrun, ?_⟩, hinv.step ?_ hcall⟩
    · exact Machine.run_cons_eq_some.2 ⟨sm', hcall, rfl⟩
    · exact h.recovering.of_append hrun hcall

theorem monotone_mayRetry (sm : ChannelSm) : Monotone sm.mayRetry := by
  intro nowUs nowUs' hle
  unfold mayRetry
  split
  · exact le_rfl
  · exact fun h => decide_eq_true (hle.trans' (of_decide_eq_true h))

theorem Inv.keepsBackoff (h : Inv calls sm) (hcall : sm.call c = some sm') :
    KeepsBackoff calls sm c sm' where
  entering hstate hrecovering := by
    have hne : sm.state ≠ .recovering := by rcases hstate with hstate | hstate <;> simp [hstate]
    cases c with
    | onInstanceStreaming =>
      cases hcall
      cases hrecovering
    | onReset =>
      cases hcall
      exact h.fresh hne
    | onRetryTimeout nowUs =>
      obtain rfl := call_onRetryTimeout hcall
      exact absurd hrecovering hne
    | deactivate => exact absurd ((call_focus (.inr rfl) hcall).2.2.1 hrecovering) hne
    | activate => exact absurd ((call_focus (.inl rfl) hcall).2.2.1 hrecovering) hne
  timeout hc := by
    subst hc
    rw [call_onRetryTimeout hcall, onRetryTimeout_eq h]
  focus hc := call_focus hc hcall

/-- As long as attempts are timed out in recovery only, and neither too often nor too late, no call
    panics. Outside of recovery, and right after it has begun, no attempt has failed and none has to
    wait; the waits of an episode are those of the sequence; and the focus changes nothing. -/
theorem backoff_of_allowed (calls : List ChannelSmCall) (h : Allowed calls) :
    ∃ sm, machine.run new calls = some sm ∧ (sm.state ≠ .recovering → sm.Fresh) ∧
      Monotone sm.mayRetry ∧ ∀ calls' c calls'', calls = calls' ++ c :: calls'' →
        ∃ s s', machine.run new calls' = some s ∧ s.call c = some s' ∧
          KeepsBackoff calls' s c s' := by
  obtain ⟨sm, hrun, hinv⟩ := exists_run h
  refine ⟨sm, hrun, hinv.fresh, monotone_mayRetry sm, ?_⟩
  rintro calls' c calls'' rfl
  obtain ⟨s, hs, hs'⟩ := Machine.run_append_eq_some.1 hrun
  obtain ⟨s', hcall, -⟩ := Machine.run_cons_eq_some.1 hs'
  obtain ⟨s₁, hs₁, hinv'⟩ := exists_run (h.of_prefix (List.prefix_append calls' (c :: calls'')))
  cases hs.symm.trans hs₁
  exact ⟨s, s', hs, hcall, hinv'.keepsBackoff hcall⟩

/-- An episode with a reset and a change of the focus in the middle of it. -/
theorem backoff_of_allowed_episode :
    let calls : List ChannelSmCall := [.onInstanceStreaming, .onReset, .onRetryTimeout 0, .onReset,
      .deactivate, .onRetryTimeout 5000000]
    ∃ sm, machine.run new calls = some sm ∧ (sm.state ≠ .recovering → sm.Fresh) ∧
      Monotone sm.mayRetry ∧ ∀ calls' c calls'', calls = calls' ++ c :: calls'' →
        ∃ s s', machine.run new calls' = some s ∧ s.call c = some s' ∧
          KeepsBackoff calls' s c s' := by
  exact backoff_of_allowed _ ⟨by decide, by decide, by decide⟩

end ChannelSm

end Sardp
