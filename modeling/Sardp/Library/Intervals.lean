import Mathlib.Data.List.Basic
import Mathlib.Data.Set.BooleanAlgebra
import Mathlib.Order.CompletePartialOrder
import Mathlib.Tactic.Cases
import Mathlib.Tactic.SplitIfs

/-!
# Intervals, and lists pieced together

An interval of naturals is a start and a length. Going once through intervals in the order
of their starts decides how far they cover the naturals without a gap
(`Intervals.sweep_covers`, `Intervals.exists_sweep`).

Comparing the starts of two intervals with the ends tells whether they meet, except that an empty
interval, which meets none, passes for one that does where it lies within the other
(`Intervals.crosses_iff`).

A list is pieced together by overwriting intervals of it. Where slices of another list have
been written, the two agree (`Intervals.agree_overwrite`).
-/

namespace Intervals

/-- The intervals cover a position. -/
def Covers (rs : List (ℕ × ℕ)) (i : ℕ) : Prop := ∃ r ∈ rs, r.1 ≤ i ∧ i < r.1 + r.2

/-- How far intervals, in the order of their starts, extend what is covered already; `none`
    at a gap. -/
def sweep : ℕ → List (ℕ × ℕ) → Option ℕ
  | covered, [] => some covered
  | covered, r :: rs => if r.1 > covered then none else sweep (max covered (r.1 + r.2)) rs

/-- What the sweep extends over is covered. -/
theorem sweep_covers {c c' : ℕ} {rs : List (ℕ × ℕ)} (h : sweep c rs = some c') {i : ℕ}
    (hc : c ≤ i) (hi : i < c') : Covers rs i := by
  induction rs generalizing c with
  | nil => exact absurd (Option.some.inj h ▸ hi) (Nat.not_lt.2 hc)
  | cons r rs ih =>
    rw [sweep] at h
    split_ifs at h with hgap
    -- without a gap the first interval starts at or before `c`, so before `i`
    by_cases hir : i < r.1 + r.2
    · exact ⟨r, List.mem_cons_self, by omega, hir⟩
    · obtain ⟨r', hr', hmem⟩ := ih h (by omega)
      exact ⟨r', List.mem_cons_of_mem _ hr', hmem⟩

/-- Intervals in order that cover everything up to a bound extend over it. -/
theorem exists_sweep {c n : ℕ} {rs : List (ℕ × ℕ)} (hsorted : rs.Pairwise (·.1 ≤ ·.1))
    (hstart : ∀ r ∈ rs, r.1 ≤ n) (hcovers : ∀ i, c ≤ i → i < n → Covers rs i) :
    ∃ c' ≥ n, sweep c rs = some c' := by
  induction rs generalizing c with
  | nil =>
    refine ⟨c, Nat.not_lt.1 fun hc => ?_, rfl⟩
    obtain ⟨r, hr, -⟩ := hcovers c (Nat.le_refl c) hc
    exact absurd hr List.not_mem_nil
  | cons r rs ih =>
    obtain ⟨hr, hsorted⟩ := List.pairwise_cons.1 hsorted
    have hgap : ¬r.1 > c := by
      intro hgap
      -- nothing covers the gap before the first interval
      obtain ⟨r', hr', hle, -⟩ :=
        hcovers c (Nat.le_refl c) (Nat.lt_of_lt_of_le hgap (hstart r List.mem_cons_self))
      rcases List.mem_cons.1 hr' with rfl | hr'
      · omega
      · have := hr r' hr'
        omega
    rw [sweep, if_neg hgap]
    refine ih hsorted (fun r' hr' => hstart r' (List.mem_cons_of_mem _ hr')) fun i hi hin => ?_
    obtain ⟨r', hr', hle, hlt⟩ := hcovers i (by omega) hin
    rcases List.mem_cons.1 hr' with rfl | hr'
    · omega
    · exact ⟨r', hr', hle, hlt⟩

/-! ## Intervals that meet -/

/-- There is a position in both intervals. -/
def Meet (r r' : ℕ × ℕ) : Prop := ∃ i, (r.1 ≤ i ∧ i < r.1 + r.2) ∧ r'.1 ≤ i ∧ i < r'.1 + r'.2

/-- The first interval is empty, and lies within the second one, not at its edges. -/
def EmptyWithin (r r' : ℕ × ℕ) : Prop := r.2 = 0 ∧ r'.1 < r.1 ∧ r.1 < r'.1 + r'.2

instance (r r' : ℕ × ℕ) : Decidable (EmptyWithin r r') := by
  unfold EmptyWithin
  infer_instance

/-- Intervals meet exactly if neither is empty and each starts before the other one ends. -/
theorem meet_iff {r r' : ℕ × ℕ} :
    Meet r r' ↔ 0 < r.2 ∧ 0 < r'.2 ∧ r.1 < r'.1 + r'.2 ∧ r'.1 < r.1 + r.2 := by
  constructor
  · rintro ⟨i, hi, hi'⟩
    omega
  · intro h
    exact ⟨max r.1 r'.1, by omega⟩

instance (r r' : ℕ × ℕ) : Decidable (Meet r r') := decidable_of_iff _ meet_iff.symm

/-- Of two intervals each starts before the other one ends exactly if they meet, or one of them is
    empty and within the other. -/
theorem crosses_iff {r r' : ℕ × ℕ} :
    r.1 < r'.1 + r'.2 ∧ r.1 + r.2 > r'.1 ↔ Meet r r' ∨ EmptyWithin r r' ∨ EmptyWithin r' r := by
  rw [meet_iff, EmptyWithin, EmptyWithin]
  omega

/-- What is in one of several disjoint sets is in exactly one of them. -/
theorem existsUnique_mem {α β : Type*} {f : β → Set α} {xs : List β}
    (hdisjoint : xs.Pairwise fun x y => Disjoint (f x) (f y)) {a : α}
    (ha : ∃ x ∈ xs, a ∈ f x) : ∃! k : Fin xs.length, a ∈ f xs[k] := by
  obtain ⟨x, hx, ha⟩ := ha
  obtain ⟨k, hk, rfl⟩ := List.getElem_of_mem hx
  refine ⟨⟨k, hk⟩, ha, fun k' ha' => Fin.ext ?_⟩
  rw [List.pairwise_iff_getElem] at hdisjoint
  -- of two different positions one comes first
  rcases Nat.lt_trichotomy k'.1 k with hlt | heq | hlt
  · exact absurd ha (Set.disjoint_left.1 (hdisjoint k'.1 k k'.2 hk hlt) ha')
  · exact heq
  · exact absurd ha' (Set.disjoint_left.1 (hdisjoint k k'.1 hk k'.2 hlt) ha)

/-! ## Overwriting -/

variable {α : Type*}

/-- The list with what it has from a position on overwritten by another one. -/
def overwrite (xs : List α) (start : ℕ) (ys : List α) : List α :=
  xs.take start ++ ys ++ xs.drop (start + ys.length)

/-- An interval of a list. -/
def slice (xs : List α) (r : ℕ × ℕ) : List α := (xs.drop r.1).take r.2

variable {xs ys : List α} {start : ℕ}

theorem length_overwrite (h : start + ys.length ≤ xs.length) :
    (overwrite xs start ys).length = xs.length := by
  simp only [overwrite, List.length_append, List.length_take, List.length_drop]
  omega

theorem getElem?_overwrite (h : start + ys.length ≤ xs.length) (i : ℕ) :
    (overwrite xs start ys)[i]? =
      if start ≤ i ∧ i < start + ys.length then ys[i - start]? else xs[i]? := by
  have htake : (xs.take start).length = start := by
    rw [List.length_take]
    omega
  rw [overwrite]
  -- the position is before, within or after what is overwritten
  by_cases hlt : i < start
  · rw [if_neg (by omega), List.append_assoc, List.getElem?_append_left (by omega),
      List.getElem?_take_of_lt hlt]
  · by_cases hi : i < start + ys.length
    · rw [if_pos (by omega), List.getElem?_append_left (by rw [List.length_append]; omega),
        List.getElem?_append_right (by omega), htake]
    · rw [if_neg (by omega), List.getElem?_append_right (by rw [List.length_append]; omega),
        List.length_append, htake, List.getElem?_drop]
      congr 1
      omega

theorem length_slice {r : ℕ × ℕ} (h : r.1 + r.2 ≤ xs.length) : (slice xs r).length = r.2 := by
  rw [slice, List.length_take, List.length_drop]
  omega

/-- Overwriting with a slice of another list, the two agree there, and where they agreed. -/
theorem agree_overwrite {zs : List α} {rs : List (ℕ × ℕ)} {r : ℕ × ℕ}
    (hlen : xs.length = zs.length) (hr : r.1 + r.2 ≤ zs.length)
    (hagree : ∀ i, Covers rs i → xs[i]? = zs[i]?) (i : ℕ) (hi : Covers (rs ++ [r]) i) :
    (overwrite xs r.1 (slice zs r))[i]? = zs[i]? := by
  rw [getElem?_overwrite (by rw [length_slice hr, hlen]; exact hr), length_slice hr]
  split_ifs with hin
  · rw [slice, List.getElem?_take_of_lt (by omega), List.getElem?_drop]
    congr 1
    omega
  · -- only the other intervals cover a position outside of the new one
    obtain ⟨r', hr', hmem⟩ := hi
    rcases List.mem_append.1 hr' with hr' | hr'
    · exact hagree i ⟨r', hr', hmem⟩
    · exact absurd (List.mem_singleton.1 hr' ▸ hmem) hin

/-- Lists of the same length that agree on a cover are equal. -/
theorem eq_of_agree {zs : List α} {rs : List (ℕ × ℕ)} (hlen : xs.length = zs.length)
    (hcovers : ∀ i < zs.length, Covers rs i) (hagree : ∀ i, Covers rs i → xs[i]? = zs[i]?) :
    xs = zs := by
  refine List.ext_getElem? fun i => ?_
  by_cases hi : i < zs.length
  · exact hagree i (hcovers i hi)
  · rw [List.getElem?_eq_none (by omega), List.getElem?_eq_none (by omega)]

end Intervals
