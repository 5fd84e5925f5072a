import Mathlib.Data.List.Basic
import Sardp.Video.Calls

/-!
# How often requests for keyframes are honored

A request for a keyframe is honored if there is an instance to give up, and if the last decision
to reopen, for whatever reason, is long enough ago. The channel remembers the time of the last
decision only (`VideoChannel.lastReopenUs_run`), which is enough as long as time does not run
backwards (`VideoChannel.keyframeRequests_limited`).
-/

namespace Sardp

/-- The time of a call that has one. -/
def ChannelCall.time : ChannelCall → Option ℕ
  | .feedback nowUs _ _ => some nowUs
  | .keyframeRequest nowUs _ => some nowUs
  | _ => none

namespace VideoChannel

variable {c c' : VideoChannel} {es : List ChannelCall}

/-- The time of a decision to reopen. -/
def reopenTime (c : VideoChannel) (e : ChannelCall) : List ℕ :=
  if (c.call e).1.reopens then e.time.toList else []

/-- A call that decides to reopen leaves its time; any other one leaves the time alone. -/
theorem lastReopenUs_call (c : VideoChannel) (e : ChannelCall) :
    (c.call e).2.lastReopenUs = (c.reopenTime e).getLast?.or c.lastReopenUs := by
  cases e with
  | markInstanceStreaming =>
    rw [reopenTime, reopens_markInstanceStreaming]
    cases hmark : c.markInstanceStreaming with
    | ok c' =>
      simp only [call, hmark]
      rw [markInstanceStreaming_ok hmark]
      rfl
    | error v =>
      simp only [call, hmark]
      rfl
  | feedback nowUs clientQueueDelayUs appSendQueueBytes =>
    rw [reopenTime]
    by_cases hallowed :
        (c.judge nowUs clientQueueDelayUs appSendQueueBytes).1.allowedIn c.instanceSm.state
    · rw [call_feedback_of_allowed hallowed]
      cases (c.judge nowUs clientQueueDelayUs appSendQueueBytes).1 <;> rfl
    · rw [call_feedback_of_not_allowed hallowed]
      rfl
  | keyframeRequest nowUs request =>
    rw [reopenTime]
    rcases c.onKeyframeRequest_cases nowUs request with ⟨-, t, h⟩ | ⟨-, -, h⟩ | ⟨-, -, h⟩
    all_goals
      simp only [call, h]
      rfl
  | prepareReopen | activate | deactivate => rfl

/-- The channel remembers the last decision of a run. -/
theorem lastReopenUs_run (hrun : calls.run c es = some c') :
    c'.lastReopenUs = (calls.outputs reopenTime c es).getLast?.or c.lastReopenUs := by
  induction es generalizing c with
  | nil =>
    cases hrun
    rfl
  | cons e es ih =>
    have hstep : calls.step c e = some (c.call e).2 := rfl
    obtain ⟨c₁, hc₁, hrun⟩ := Machine.run_cons_eq_some.1 hrun
    cases hc₁
    rw [ih hrun, lastReopenUs_call, Machine.outputs_cons hstep, List.getLast?_append,
      Option.or_assoc]

/-- The decisions are among the calls. -/
theorem reopenTimes_sublist (c : VideoChannel) (es : List ChannelCall) :
    (calls.outputs reopenTime c es).Sublist (es.filterMap ChannelCall.time) := by
  induction es generalizing c with
  | nil => exact List.Sublist.refl _
  | cons e es ih =>
    have hstep : calls.step c e = some (c.call e).2 := rfl
    have hfirst : (c.reopenTime e).Sublist e.time.toList := by
      rw [reopenTime]
      split
      · exact List.Sublist.refl _
      · exact List.nil_sublist _
    have hcons : (e :: es).filterMap ChannelCall.time =
        e.time.toList ++ es.filterMap ChannelCall.time := by
      cases htime : e.time with
      | none => rw [List.filterMap_cons_none htime]; rfl
      | some t => rw [List.filterMap_cons_some htime]; rfl
    rw [Machine.outputs_cons hstep, hcons]
    exact hfirst.append (ih _)

/-- It is too soon for a reopen exactly if there is one of the past, in the order of their
    times, that is too recent. -/
theorem tooSoon_iff {reopened : List ℕ} (hlast : c.lastReopenUs = reopened.getLast?)
    (hsorted : reopened.Pairwise (· ≤ ·)) (hbound : ∀ t ∈ reopened, t < 2 ^ 63) {nowUs : ℕ} :
    c.TooSoon nowUs ↔ ∃ t ∈ reopened, nowUs < t + KEYFRAME_REQUEST_MIN_INTERVAL_US := by
  have hadd : ∀ t ∈ reopened, saturatingAdd t KEYFRAME_REQUEST_MIN_INTERVAL_US =
      t + KEYFRAME_REQUEST_MIN_INTERVAL_US := by
    intro t ht
    -- below the bound the addition does not saturate
    have hlt := hbound t ht
    have hinterval : KEYFRAME_REQUEST_MIN_INTERVAL_US ≤ 2 ^ 62 := by decide
    exact min_eq_left (by omega)
  rw [TooSoon, hlast]
  constructor
  · rintro ⟨last, hmem, hlt⟩
    obtain ⟨ys, rfl⟩ := List.getLast?_eq_some_iff.1 hmem
    exact ⟨last, by simp, by rwa [hadd last (by simp)] at hlt⟩
  · rintro ⟨t, ht, hlt⟩
    obtain ⟨last, hmem⟩ : ∃ last, reopened.getLast? = some last :=
      Option.isSome_iff_exists.1 (List.getLast?_isSome.2 (List.ne_nil_of_mem ht))
    refine ⟨last, hmem, ?_⟩
    obtain ⟨ys, rfl⟩ := List.getLast?_eq_some_iff.1 hmem
    rw [hadd last (by simp)]
    -- an earlier decision than the last one is no later
    rcases List.mem_append.1 ht with ht | ht
    · have hle := (List.pairwise_append.1 hsorted).2.2 t ht last (List.mem_singleton_self _)
      omega
    · rwa [List.mem_singleton.1 ht] at hlt

/-- If time does not run backwards, and is below `2 ^ 63`, a request is honored only from the
    minimal interval on after every earlier decision to reopen, and only if there is an instance
    to give up; then it always is; and if it is ignored, nothing changes. -/
theorem keyframeRequests_limited (generation : ℕ) (es es' : List ChannelCall) {nowUs : ℕ}
    {request : KeyframeRequest}
    (htime : ((es ++ .keyframeRequest nowUs request :: es').filterMap ChannelCall.time).Pairwise
      (· ≤ ·))
    (hbound : ∀ t ∈ (es ++ .keyframeRequest nowUs request :: es').filterMap ChannelCall.time,
      t < 2 ^ 63)
    (hrun : calls.run (new generation) es = some c) :
    let reopened := calls.outputs reopenTime (new generation) es
    let r := c.onKeyframeRequest nowUs request
    (r.1 = .reopen ↔ c.HasInstance ∧
      ∀ t ∈ reopened, t + KEYFRAME_REQUEST_MIN_INTERVAL_US ≤ nowUs) ∧
    ∀ why, r.1 = .ignored why → r.2 = c := by
  intro reopened r
  have hsublist : reopened.Sublist (es.filterMap ChannelCall.time) := reopenTimes_sublist _ es
  rw [List.filterMap_append] at htime hbound
  have hsoon : c.TooSoon nowUs ↔
      ∃ t ∈ reopened, nowUs < t + KEYFRAME_REQUEST_MIN_INTERVAL_US := by
    refine tooSoon_iff ?_ ((List.pairwise_append.1 htime).1.sublist hsublist) fun t ht =>
      hbound t (List.mem_append_left _ (hsublist.subset ht))
    exact (lastReopenUs_run hrun).trans Option.or_none
  have hnotSoon : ¬ c.TooSoon nowUs ↔
      ∀ t ∈ reopened, t + KEYFRAME_REQUEST_MIN_INTERVAL_US ≤ nowUs := by
    simp only [hsoon, not_exists, not_and, not_lt]
  rw [← hnotSoon]
  rcases c.onKeyframeRequest_cases nowUs request with
    ⟨h, t, hr⟩ | ⟨h, hinstance, hr⟩ | ⟨h, hinstance, hr⟩
  · have hr : r = _ := hr
    rw [hr]
    exact ⟨iff_of_false nofun fun h' => h'.2 h, fun _ _ => rfl⟩
  · have hr : r = _ := hr
    rw [hr]
    exact ⟨iff_of_true rfl ⟨hinstance, h⟩, nofun⟩
  · have hr : r = _ := hr
    rw [hr]
    exact ⟨iff_of_false nofun fun h' => hinstance h'.1, fun _ _ => rfl⟩

/-- A second request is honored once the interval since the first one is over. -/
theorem keyframeRequests_limited_second :
    let es := [.markInstanceStreaming, .keyframeRequest 10000000 ⟨.decodeError⟩, .prepareReopen,
      .markInstanceStreaming]
    ∃ c, calls.run (new 0) es = some c ∧
      (c.onKeyframeRequest 11000000 ⟨.decodeError⟩).1 = .reopen := by
  intro es
  have hall : (calls.run (new 0) es).map (fun c => decide c.HasInstance) = some true := by decide
  obtain ⟨c, hrun, hinstance⟩ := Option.map_eq_some_iff.1 hall
  refine ⟨c, hrun, ?_⟩
  exact (keyframeRequests_limited 0 es [] (by decide) (by decide) hrun).1.2
    ⟨of_decide_eq_true hinstance, by decide⟩

end VideoChannel

end Sardp
