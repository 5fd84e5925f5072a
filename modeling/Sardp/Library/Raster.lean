import Mathlib.Data.List.Induction
import Mathlib.Tactic.SplitIfs

/-!
# Rasters

A picture has a colour at every point. It is stored row by row, so that different points are at
different positions (`position_inj`), and filled by loops over rows and columns, one point at a
time (`fill_append_singleton_left`, `fill_append_singleton_right`).

What a loop that may fail does to every prefix of its list, it does to the whole list
(`exists_foldlM`).
-/

namespace Raster

/-- The position of a point in rows of some width. -/
def position (width x y : ℕ) : ℕ := y * width + x

section Position

variable {width height x y x' y' : ℕ}

theorem position_lt (hx : x < width) (hy : y < height) : position width x y < width * height :=
  calc
    y * width + x < y * width + width := Nat.add_lt_add_left hx _
    _ = (y + 1) * width := (Nat.succ_mul y width).symm
    _ ≤ height * width := Nat.mul_le_mul_right width hy
    _ = width * height := Nat.mul_comm height width

theorem position_div (hx : x < width) : position width x y / width = y := by
  rw [position, Nat.mul_comm, Nat.mul_add_div (Nat.zero_lt_of_lt hx), Nat.div_eq_of_lt hx,
    Nat.add_zero]

theorem position_inj (hx : x < width) (hx' : x' < width)
    (h : position width x y = position width x' y') : x = x' ∧ y = y' := by
  have hy : y = y' := by rw [← position_div (y := y) hx, h, position_div hx']
  subst hy
  exact ⟨Nat.add_left_cancel h, rfl⟩

end Position

section Fill

variable {α : Type*}

/-- A picture with all points in some columns and rows of one colour. -/
def fill (xs ys : List ℕ) (color : α) (picture : ℕ → ℕ → α) (x y : ℕ) : α :=
  if x ∈ xs ∧ y ∈ ys then color else picture x y

variable {xs ys : List ℕ} {x y : ℕ} {color : α} {picture : ℕ → ℕ → α}

theorem fill_nil_left : fill [] ys color picture = picture := by
  funext x' y'
  exact if_neg fun h => List.not_mem_nil h.1

theorem fill_nil_right : fill xs [] color picture = picture := by
  funext x' y'
  exact if_neg fun h => List.not_mem_nil h.2

/-- Filling one more column. -/
theorem fill_append_singleton_left :
    fill (xs ++ [x]) ys color picture = fill [x] ys color (fill xs ys color picture) := by
  funext x' y'
  simp only [fill, List.mem_append]
  split_ifs <;> tauto

/-- Filling one more row. -/
theorem fill_append_singleton_right :
    fill xs (ys ++ [y]) color picture = fill xs [y] color (fill xs ys color picture) := by
  funext x' y'
  simp only [fill, List.mem_append]
  split_ifs <;> tauto

end Fill

section Loop

variable {σ β : Type*} {f : σ → β → Option σ} {s : σ}

/-- A loop does not fail, and keeps what holds of the elements it has gone through, if every round
    does. -/
theorem exists_foldlM (Inv : List β → σ → Prop) (xs : List β) (hs : Inv [] s)
    (hround : ∀ done, ∀ x ∈ xs, ∀ s, Inv done s → ∃ s', f s x = some s' ∧ Inv (done ++ [x]) s') :
    ∃ s', xs.foldlM f s = some s' ∧ Inv xs s' := by
  induction xs using List.reverseRecOn with
  | nil => exact ⟨s, rfl, hs⟩
  | append_singleton xs x ih =>
    obtain ⟨s', hloop, hs'⟩ :=
      ih fun done x' hx' => hround done x' (List.mem_append_left [x] hx')
    obtain ⟨s'', hlast, hs''⟩ := hround xs x List.mem_concat_self s' hs'
    refine ⟨s'', ?_, hs''⟩
    rw [List.foldlM_append, hloop]
    simpa using hlast

end Loop

end Raster
