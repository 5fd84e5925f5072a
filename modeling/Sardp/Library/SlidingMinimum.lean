import Mathlib.Data.List.DropRight
import Mathlib.Order.Lattice
import Mathlib.Order.Monotone.Basic

/-!
# Sliding minima

The minimum of the values of a sliding window of time can be had from a list of those samples
that may still become it: a new sample removes the latest ones that are not smaller
(`SlidingMinimum.push`), and time the earliest ones (`SlidingMinimum.evict`).

* As long as time does not run backwards, the first sample of the list is one of the window,
  and its value the least one in it (`SlidingMinimum.Tracks.head_least`).
* Only the order of the values matters: relabelling them by a strictly increasing function
  commutes with recording (`SlidingMinimum.push_map`).
-/

namespace SlidingMinimum

variable {T V W : Type*}

/-- Adding a sample, which makes the later samples that are not smaller superfluous. -/
def push [LinearOrder V] (samples : List (T × V)) (t : T) (v : V) : List (T × V) :=
  samples.rdropWhile (fun s => s.2 ≥ v) ++ [(t, v)]

/-- Removing the samples before a time. -/
def evict [LinearOrder T] (cutoff : T) (samples : List (T × V)) : List (T × V) :=
  samples.dropWhile fun s => s.1 < cutoff

variable {cutoff cutoff' t : T} {v : V} {recorded samples : List (T × V)}

/-- Of samples in the order of their times, those from the time on are left. -/
theorem mem_evict [LinearOrder T] (h : samples.Pairwise fun s s' => s.1 ≤ s'.1) {s : T × V} :
    s ∈ evict cutoff samples ↔ s ∈ samples ∧ cutoff ≤ s.1 := by
  induction samples with
  | nil => simp [evict]
  | cons first samples ih =>
    rw [List.pairwise_cons] at h
    by_cases hfirst : first.1 < cutoff
    · have hevict : evict cutoff (first :: samples) = evict cutoff samples := by
        simp [evict, hfirst]
      rw [hevict, ih h.2, List.mem_cons]
      constructor
      · rintro ⟨hmem, hle⟩
        exact ⟨.inr hmem, hle⟩
      · rintro ⟨rfl | hmem, hle⟩
        · exact absurd hle (not_le_of_gt hfirst)
        · exact ⟨hmem, hle⟩
    · have hevict : evict cutoff (first :: samples) = first :: samples := by
        simp [evict, hfirst]
      rw [hevict]
      refine ⟨fun hmem => ⟨hmem, ?_⟩, And.left⟩
      rcases List.mem_cons.1 hmem with rfl | hmem
      · exact le_of_not_gt hfirst
      · exact (le_of_not_gt hfirst).trans (h.1 s hmem)

/-- Of samples in the order of their values, adding one keeps the smaller ones. -/
theorem mem_rdropWhile [LinearOrder V] (h : samples.Pairwise fun s s' => s.2 < s'.2) {s : T × V} :
    s ∈ samples.rdropWhile (fun s => s.2 ≥ v) ↔ s ∈ samples ∧ s.2 < v := by
  induction samples using List.reverseRecOn with
  | nil => simp
  | append_singleton samples last ih =>
    rw [List.pairwise_append] at h
    obtain ⟨hsamples, -, hlast⟩ := h
    by_cases hle : v ≤ last.2
    · rw [List.rdropWhile_concat_pos _ _ _ (by simpa using hle), ih hsamples, List.mem_append,
        List.mem_singleton]
      constructor
      · rintro ⟨hmem, hlt⟩
        exact ⟨.inl hmem, hlt⟩
      · rintro ⟨hmem | rfl, hlt⟩
        · exact ⟨hmem, hlt⟩
        · exact absurd hlt (not_lt_of_ge hle)
    · rw [List.rdropWhile_concat_neg _ _ _ (by simpa using hle)]
      refine ⟨fun hmem => ⟨hmem, ?_⟩, And.left⟩
      rcases List.mem_append.1 hmem with hmem | hmem
      · exact (hlast s hmem last (List.mem_singleton_self last)).trans (lt_of_not_ge hle)
      · rw [List.mem_singleton.1 hmem]
        exact lt_of_not_ge hle

/-! ## The samples kept -/

section

variable [LinearOrder T] [LinearOrder V]

/-- The list keeps of the samples recorded so far those from a time on that may become the
    minimum. -/
structure Tracks (cutoff : T) (recorded samples : List (T × V)) : Prop where
  mem_recorded : ∀ s ∈ samples, s ∈ recorded
  pairwise : samples.Pairwise fun s s' => s.1 ≤ s'.1 ∧ s.2 < s'.2
  inWindow : ∀ s ∈ samples, cutoff ≤ s.1
  dominated : ∀ s ∈ recorded, cutoff ≤ s.1 → ∃ s' ∈ samples, s.1 ≤ s'.1 ∧ s'.2 ≤ s.2

theorem tracks_nil (cutoff : T) : Tracks cutoff ([] : List (T × V)) [] :=
  ⟨nofun, .nil, nofun, nofun⟩

/-- Removing the samples that leave the window as it moves on. -/
theorem Tracks.evict (h : Tracks cutoff recorded samples) (hle : cutoff ≤ cutoff') :
    Tracks cutoff' recorded (evict cutoff' samples) := by
  have hmem : ∀ s, s ∈ SlidingMinimum.evict cutoff' samples ↔ s ∈ samples ∧ cutoff' ≤ s.1 :=
    fun s => mem_evict (h.pairwise.imp And.left)
  refine ⟨fun s hs => h.mem_recorded s ((hmem s).1 hs).1, ?_, fun s hs => ((hmem s).1 hs).2, ?_⟩
  · exact h.pairwise.sublist (List.dropWhile_sublist _)
  · intro s hs hcutoff
    obtain ⟨s', hs', hlater, hsmaller⟩ := h.dominated s hs (hle.trans hcutoff)
    exact ⟨s', (hmem s').2 ⟨hs', hcutoff.trans hlater⟩, hlater, hsmaller⟩

/-- Adding a sample that is not earlier than the others. -/
theorem Tracks.push (h : Tracks cutoff recorded samples) (ht : ∀ s ∈ recorded, s.1 ≤ t)
    (hcutoff : cutoff ≤ t) : Tracks cutoff (recorded ++ [(t, v)]) (push samples t v) := by
  have hmem : ∀ s, s ∈ samples.rdropWhile (fun s => s.2 ≥ v) ↔ s ∈ samples ∧ s.2 < v :=
    fun s => mem_rdropWhile (h.pairwise.imp And.right)
  refine ⟨fun s hs => ?_, ?_, fun s hs => ?_, fun s hs hs' => ?_⟩
  · rcases List.mem_append.1 hs with hs | hs
    · exact List.mem_append_left _ (h.mem_recorded s ((hmem s).1 hs).1)
    · exact List.mem_append_right _ hs
  · refine List.pairwise_append.2 ⟨h.pairwise.sublist (List.rdropWhile_prefix _ _).sublist,
      List.pairwise_singleton _ _, fun s hs s' hs' => ?_⟩
    rw [List.mem_singleton.1 hs']
    exact ⟨ht s (h.mem_recorded s ((hmem s).1 hs).1), ((hmem s).1 hs).2⟩
  · rcases List.mem_append.1 hs with hs | hs
    · exact h.inWindow s ((hmem s).1 hs).1
    · rw [List.mem_singleton.1 hs]
      exact hcutoff
  · have hnew : (t, v) ∈ SlidingMinimum.push samples t v :=
      List.mem_append_right _ (List.mem_singleton_self _)
    rcases List.mem_append.1 hs with hs | hs
    · obtain ⟨s₁, hs₁, hlater, hsmaller⟩ := h.dominated s hs hs'
      by_cases hlt : s₁.2 < v
      · exact ⟨s₁, List.mem_append_left _ ((hmem s₁).2 ⟨hs₁, hlt⟩), hlater, hsmaller⟩
      · exact ⟨(t, v), hnew, ht s hs, (le_of_not_gt hlt).trans hsmaller⟩
    · rw [List.mem_singleton.1 hs]
      exact ⟨(t, v), hnew, le_rfl, le_rfl⟩

/-- The first sample is one of the window, and has the least value in it. -/
theorem Tracks.head_least (h : Tracks cutoff recorded samples) {s : T × V}
    (hs : samples.head? = some s) :
    s ∈ recorded ∧ cutoff ≤ s.1 ∧ ∀ s' ∈ recorded, cutoff ≤ s'.1 → s.2 ≤ s'.2 := by
  obtain ⟨rest, rfl⟩ := List.head?_eq_some_iff.1 hs
  refine ⟨h.mem_recorded s List.mem_cons_self, h.inWindow s List.mem_cons_self, fun s' hs' hle => ?_⟩
  obtain ⟨s₁, hs₁, -, hsmaller⟩ := h.dominated s' hs' hle
  rcases List.mem_cons.1 hs₁ with rfl | hs₁
  · exact hsmaller
  · exact (((List.pairwise_cons.1 h.pairwise).1 s₁ hs₁).2.le).trans hsmaller

end

/-! ## Relabelling the values -/

/-- Adding the relabelled sample is relabelling after adding the sample. -/
theorem push_map [LinearOrder V] [LinearOrder W] {f : V → W} (hf : StrictMono f)
    (samples : List (T × V)) (t : T) (v : V) :
    push (samples.map (Prod.map id f)) t (f v) = (push samples t v).map (Prod.map id f) := by
  have hge : ((fun s : T × W => decide (s.2 ≥ f v)) ∘ Prod.map id f) =
      fun s : T × V => decide (s.2 ≥ v) := by
    funext s
    simp [hf.le_iff_le]
  simp only [push, List.rdropWhile, ← List.map_reverse, List.dropWhile_map, hge, List.map_append]
  rfl

theorem evict_map [LinearOrder T] (f : V → W) (cutoff : T) (samples : List (T × V)) :
    evict cutoff (samples.map (Prod.map id f)) = (evict cutoff samples).map (Prod.map id f) :=
  List.dropWhile_map

end SlidingMinimum
