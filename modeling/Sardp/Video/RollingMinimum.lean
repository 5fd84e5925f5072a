import Mathlib.Data.List.Induction
import Sardp.Video.Backpressure

/-!
# The baseline as a rolling minimum

The tracker of the baseline keeps a queue of a few samples (`BaselineTracker`). A tracker that keeps
all of them and looks for the minimum among those in the window would do the same
(`NaiveTracker`): as long as time does not run backwards, the two agree after every value
(`BaselineTracker.eq_naive_of_recordAll`).
-/

namespace Sardp

/-- The rolling minimum as it is meant: of all values recorded, those of the window count. -/
structure NaiveTracker where
  windowUs : ℕ
  recorded : List (ℕ × ℕ)

/-- The least of the values recorded in the window that ends at the time. -/
def NaiveTracker.baselineUs (t : NaiveTracker) (nowUs : ℕ) : Option ℕ :=
  ((t.recorded.filter fun s => nowUs - t.windowUs ≤ s.1).map Prod.snd).min?

namespace BaselineTracker

/-- Recording values, one after the other, with their times. -/
def recordAll (t : BaselineTracker) (samples : List (ℕ × ℕ)) : BaselineTracker :=
  samples.foldl (fun t s => t.record s.1 s.2) t

variable {windowUs : ℕ} {recorded : List (ℕ × ℕ)}

theorem windowUs_recordAll (t : BaselineTracker) (samples : List (ℕ × ℕ)) :
    (t.recordAll samples).windowUs = t.windowUs := by
  induction samples generalizing t with
  | nil => rfl
  | cons s samples ih => exact (ih _).trans (windowUs_record ..)

/-- After values recorded in the order of their times, the tracker has seen them. -/
theorem hasSeen_recordAll (h : recorded.Pairwise fun s s' => s.1 ≤ s'.1) :
    ((new windowUs).recordAll recorded).HasSeen ((recorded.getLast?.map Prod.fst).getD 0)
      recorded := by
  induction recorded using List.reverseRecOn with
  | nil => exact hasSeen_new windowUs
  | append_singleton recorded s ih =>
    rw [List.pairwise_append] at h
    obtain ⟨hrecorded, -, hlast⟩ := h
    have hle : (recorded.getLast?.map Prod.fst).getD 0 ≤ s.1 := by
      cases hlast' : recorded.getLast? with
      | none => exact Nat.zero_le _
      | some s' => exact hlast s' (List.mem_of_getLast? hlast') s (List.mem_singleton_self s)
    rw [recordAll, List.foldl_append, List.getLast?_concat]
    exact (ih hrecorded).record hle s.2

/-- The baseline is the minimum of the values in the window, looked up in all that was recorded. -/
theorem HasSeen.baselineUs_eq_min {t : BaselineTracker} {nowUs : ℕ} (h : t.HasSeen nowUs recorded) :
    t.baselineUs = NaiveTracker.baselineUs ⟨t.windowUs, recorded⟩ nowUs := by
  rw [NaiveTracker.baselineUs]
  cases hb : t.baselineUs with
  | none =>
    -- nothing is kept: any sample in the window would be dominated by one that is
    have hnil : t.samples = [] := by
      rwa [baselineUs, Option.map_eq_none_iff, List.head?_eq_none_iff] at hb
    have hempty : recorded.filter (fun s => nowUs - t.windowUs ≤ s.1) = [] := by
      refine List.filter_eq_nil_iff.2 fun s hs hcutoff => ?_
      obtain ⟨s', hs', -⟩ := h.tracks.dominated s hs (of_decide_eq_true hcutoff)
      rw [hnil] at hs'
      cases hs'
    rw [hempty]
    rfl
  | some baseline =>
    obtain ⟨⟨s, hrecorded, hwindow, rfl⟩, hleast⟩ := h.baselineUs_least hb
    refine (List.min?_eq_some_iff.2 ⟨?_, fun v hv => ?_⟩).symm
    · exact List.mem_map_of_mem (List.mem_filter.2 ⟨hrecorded, decide_eq_true hwindow⟩)
    · obtain ⟨s', hs', rfl⟩ := List.mem_map.1 hv
      obtain ⟨hrecorded', hwindow'⟩ := List.mem_filter.1 hs'
      exact hleast s' hrecorded' (of_decide_eq_true hwindow')

/-- After every value, the baseline is the minimum of those in the window; and the values the
    tracker keeps increase strictly, in the order of their times. -/
theorem eq_naive_of_recordAll (windowUs nowUs valueUs : ℕ) (recorded : List (ℕ × ℕ))
    (h : (recorded ++ [(nowUs, valueUs)]).Pairwise fun s s' => s.1 ≤ s'.1) :
    ((new windowUs).recordAll (recorded ++ [(nowUs, valueUs)])).baselineUs.isSome ∧
      ((new windowUs).recordAll (recorded ++ [(nowUs, valueUs)])).baselineUs =
        NaiveTracker.baselineUs ⟨windowUs, recorded ++ [(nowUs, valueUs)]⟩ nowUs ∧
      ((new windowUs).recordAll (recorded ++ [(nowUs, valueUs)])).samples.Pairwise
        fun s s' => s.1 ≤ s'.1 ∧ s.2 < s'.2 := by
  have hseen : ((new windowUs).recordAll _).HasSeen _ _ := hasSeen_recordAll h
  rw [List.getLast?_concat, Option.map_some, Option.getD_some] at hseen
  have hmin := hseen.baselineUs_eq_min
  rw [windowUs_recordAll] at hmin
  refine ⟨?_, hmin, hseen.tracks.pairwise⟩
  -- the value just recorded is in the window
  obtain ⟨s, hs, -⟩ := hseen.tracks.dominated (nowUs, valueUs)
    (List.mem_append_right _ (List.mem_singleton_self _)) (Nat.sub_le ..)
  rw [baselineUs, Option.isSome_map, List.isSome_head?]
  exact List.ne_nil_of_mem hs

/-- Two equal values, a larger one, and a time at which the first one has just expired. -/
theorem eq_naive_of_recordAll_ties :
    ((new 10).recordAll ([(0, 5), (4, 5), (4, 7)] ++ [(11, 9)])).baselineUs.isSome ∧
      ((new 10).recordAll ([(0, 5), (4, 5), (4, 7)] ++ [(11, 9)])).baselineUs =
        NaiveTracker.baselineUs ⟨10, [(0, 5), (4, 5), (4, 7)] ++ [(11, 9)]⟩ 11 ∧
      ((new 10).recordAll ([(0, 5), (4, 5), (4, 7)] ++ [(11, 9)])).samples.Pairwise
        fun s s' => s.1 ≤ s'.1 ∧ s.2 < s'.2 :=
  eq_naive_of_recordAll 10 11 9 [(0, 5), (4, 5), (4, 7)] (by decide)

end BaselineTracker

end Sardp
