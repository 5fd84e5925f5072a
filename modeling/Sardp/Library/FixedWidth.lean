import Mathlib.Algebra.Order.Ring.Int
import Mathlib.Data.Int.Basic
import Mathlib.Tactic.Linarith
import Mathlib.Tactic.Ring
import Mathlib.Tactic.SplitIfs
import Mathlib.Tactic.Cases

/-!
# Integers of a fixed width

A signed integer has a value between two bounds (`Signed`), which its cast and its arithmetic may
miss. A cast wraps around (`FixedWidth.wrap`), which for few values but those that fit gives the
closest that does (`FixedWidth.wrap_eq_saturate_iff`). An addition or subtraction that overflows
panics or wraps around, depending on how the program was built (`Overflow`); where the exact result
fits, either gives it (`Overflow.settle_of_fits`), and only there does it not panic
(`Overflow.settle_panicking_eq_some`). For unsigned integers there is `Overflow.settleNat`.
-/

namespace FixedWidth

/-- The value fits a signed integer of `w` bits and a sign. -/
def Fits (w : ℕ) (x : ℤ) : Prop := -2 ^ w ≤ x ∧ x < 2 ^ w

instance (w : ℕ) (x : ℤ) : Decidable (Fits w x) := by
  unfold Fits
  infer_instance

/-- The value that fits and differs by a multiple of `2 ^ (w + 1)`. -/
def wrap (w : ℕ) (x : ℤ) : ℤ := (x + 2 ^ w) % 2 ^ (w + 1) - 2 ^ w

variable {w : ℕ} {x y : ℤ}

theorem fits_wrap (w : ℕ) (x : ℤ) : Fits w (wrap w x) := by
  have hpos : (0 : ℤ) < 2 ^ (w + 1) := pow_pos (by decide) _
  have hnonneg := Int.emod_nonneg (x + 2 ^ w) hpos.ne'
  have hlt := Int.emod_lt_of_pos (x + 2 ^ w) hpos
  have htwice : (2 : ℤ) ^ (w + 1) = 2 ^ w + 2 ^ w := by ring
  rw [Fits, wrap]
  omega

theorem wrap_of_fits (h : Fits w x) : wrap w x = x := by
  have htwice : (2 : ℤ) ^ (w + 1) = 2 ^ w + 2 ^ w := by ring
  rw [Fits] at h
  rw [wrap, Int.emod_eq_of_lt (by omega) (by omega)]
  omega

/-- Wrapping around forgets multiples of `2 ^ (w + 1)`. -/
theorem wrap_add_mul (w : ℕ) (x k : ℤ) : wrap w (x + k * 2 ^ (w + 1)) = wrap w x := by
  rw [wrap, wrap, add_right_comm, Int.add_mul_emod_self_right]

/-- Halving rounds towards zero, by at most a half. -/
theorem tdiv_two_bounds (x : ℤ) :
    (0 ≤ x → 2 * x.tdiv 2 ≤ x ∧ x ≤ 2 * x.tdiv 2 + 1) ∧
      (x ≤ 0 → x ≤ 2 * x.tdiv 2 ∧ 2 * x.tdiv 2 ≤ x + 1) := by
  have hmod := Int.mul_tdiv_add_tmod x 2
  have hlt := Int.tmod_lt_of_pos x (b := 2) (by decide)
  have hgt := Int.lt_tmod_of_pos x (b := 2) (by decide)
  constructor
  · intro hx
    have hnonneg := Int.tmod_nonneg 2 hx
    omega
  · intro hx
    have hnonneg := Int.tmod_nonneg 2 (Int.neg_nonneg_of_nonpos hx)
    rw [Int.neg_tmod] at hnonneg
    omega

/-- Wrapping around changes a value by a multiple of `2 ^ (w + 1)`. -/
theorem exists_wrap_eq (w : ℕ) (x : ℤ) : ∃ k, wrap w x = x + k * 2 ^ (w + 1) := by
  refine ⟨-((x + 2 ^ w) / 2 ^ (w + 1)), ?_⟩
  have hdiv := Int.emod_add_mul_ediv (x + 2 ^ w) (2 ^ (w + 1))
  rw [wrap]
  linarith

/-- A sum may be wrapped around at once, or one of its parts before. -/
theorem wrap_wrap_add (w : ℕ) (x y : ℤ) : wrap w (wrap w x + y) = wrap w (x + y) := by
  obtain ⟨k, hk⟩ := exists_wrap_eq w x
  rw [hk, add_right_comm, wrap_add_mul]

/-! ## Saturation -/

/-- The closest value that fits. -/
def saturate (w : ℕ) (x : ℤ) : ℤ := max (-2 ^ w) (min x (2 ^ w - 1))

theorem saturate_of_fits (h : Fits w x) : saturate w x = x := by
  rw [Fits] at h
  rw [saturate, min_eq_left (by omega), max_eq_right h.1]

theorem saturate_of_ge (h : 2 ^ w ≤ x) : saturate w x = 2 ^ w - 1 := by
  have hpos : (0 : ℤ) < 2 ^ w := pow_pos (by decide) w
  rw [saturate, min_eq_right (by omega), max_eq_right (by omega)]

theorem saturate_of_lt (h : x < -2 ^ w) : saturate w x = -2 ^ w := by
  have hpos : (0 : ℤ) < 2 ^ w := pow_pos (by decide) w
  rw [saturate, min_eq_left (by omega), max_eq_left h.le]

/-- A value that does not fit is cut down to the bound only if the bits above it are those of the
    bound. -/
theorem wrap_eq_saturate_iff : wrap w x = saturate w x ↔ Fits w x ∨
    ∃ k : ℕ, x = 2 ^ w - 1 + (k + 1) * 2 ^ (w + 1) ∨ x = -2 ^ w + -(k + 1) * 2 ^ (w + 1) := by
  have hpos : (0 : ℤ) < 2 ^ w := pow_pos (by decide) w
  have hpos' : (0 : ℤ) < 2 ^ (w + 1) := pow_pos (by decide) (w + 1)
  have hshift (k : ℕ) : (0 : ℤ) < (k + 1) * 2 ^ (w + 1) := mul_pos (by omega) hpos'
  constructor
  · intro h
    obtain ⟨j, hj⟩ := exists_wrap_eq w x
    rw [hj] at h
    rcases lt_or_ge x (-2 ^ w) with hlow | hlow
    · rw [saturate_of_lt hlow] at h
      have hj : 0 < j := pos_of_mul_pos_left (by omega : 0 < j * 2 ^ (w + 1)) hpos'.le
      refine .inr ⟨(j - 1).toNat, .inr ?_⟩
      rw [Int.toNat_of_nonneg (by omega), sub_add_cancel]
      linarith
    · rcases lt_or_ge x (2 ^ w) with hhigh | hhigh
      · exact .inl ⟨hlow, hhigh⟩
      · rw [saturate_of_ge hhigh] at h
        have hj : 0 < -j :=
          pos_of_mul_pos_left (by linarith : 0 < -j * 2 ^ (w + 1)) hpos'.le
        refine .inr ⟨(-j - 1).toNat, .inl ?_⟩
        rw [Int.toNat_of_nonneg (by omega), sub_add_cancel]
        linarith
  · rintro (h | ⟨k, rfl | rfl⟩)
    · rw [wrap_of_fits h, saturate_of_fits h]
    · have hk := hshift k
      rw [wrap_add_mul, wrap_of_fits ⟨by omega, by omega⟩, saturate_of_ge (by omega)]
    · have hk := hshift k
      rw [wrap_add_mul, wrap_of_fits ⟨by omega, by omega⟩, saturate_of_lt (by linarith)]

/-! ## Quotients -/

/-- A quotient rounded towards zero is below a positive number if the exact one is. -/
theorem tdiv_lt_iff {n : ℤ} (hy : 0 < y) (hn : 0 < n) : x.tdiv y < n ↔ x < n * y := by
  rcases le_or_gt 0 x with hx | hx
  · rw [Int.tdiv_eq_ediv_of_nonneg hx, Int.ediv_lt_iff_lt_mul hy]
  · refine iff_of_true ?_ (hx.trans (mul_pos hn hy))
    have hneg := Int.tdiv_nonneg (Int.neg_nonneg_of_nonpos hx.le) hy.le
    rw [Int.neg_tdiv] at hneg
    omega

theorem tdiv_eq_iff {n : ℤ} (hy : 0 < y) (hn : 0 < n) :
    x.tdiv y = n ↔ n * y ≤ x ∧ x < (n + 1) * y := by
  rw [← not_lt, ← tdiv_lt_iff hy hn, ← tdiv_lt_iff hy (by omega : 0 < n + 1)]
  omega

theorem neg_tdiv_eq_iff {n : ℤ} (hy : 0 < y) (hn : 0 < n) :
    x.tdiv y = -n ↔ n * y ≤ -x ∧ -x < (n + 1) * y := by
  rw [← tdiv_eq_iff hy hn, Int.neg_tdiv]
  omega

/-- A quotient fits, or the bits above those that fit are those of the bound it is beyond. -/
def QuotientNarrows (w : ℕ) (x y : ℤ) : Prop :=
  (-((2 ^ w + 1) * y) < x ∧ x < 2 ^ w * y) ∨
    ∃ k : ℕ,
      ((2 ^ w - 1 + (k + 1) * 2 ^ (w + 1)) * y ≤ x ∧ x < (2 ^ w + (k + 1) * 2 ^ (w + 1)) * y) ∨
      ((2 ^ w + (k + 1) * 2 ^ (w + 1)) * y ≤ -x ∧ -x < (2 ^ w + 1 + (k + 1) * 2 ^ (w + 1)) * y)

theorem wrap_tdiv_eq_saturate_iff (hy : 0 < y) :
    wrap w (x.tdiv y) = saturate w (x.tdiv y) ↔ QuotientNarrows w x y := by
  have hpos : (0 : ℤ) < 2 ^ w := pow_pos (by decide) w
  have hpos' : (0 : ℤ) < 2 ^ (w + 1) := pow_pos (by decide) (w + 1)
  rw [wrap_eq_saturate_iff, QuotientNarrows]
  refine or_congr ?_ (exists_congr fun k => ?_)
  · have hlow : -2 ^ w ≤ x.tdiv y ↔ -((2 ^ w + 1) * y) < x := by
      have hneg := tdiv_lt_iff (x := -x) hy (by omega : (0 : ℤ) < 2 ^ w + 1)
      rw [Int.neg_tdiv] at hneg
      omega
    rw [Fits, hlow, tdiv_lt_iff hy hpos]
  · have hk : (0 : ℤ) < (k + 1) * 2 ^ (w + 1) := mul_pos (by omega) hpos'
    have hlow : -2 ^ w + -((k : ℤ) + 1) * 2 ^ (w + 1) = -(2 ^ w + (k + 1) * 2 ^ (w + 1)) := by ring
    rw [tdiv_eq_iff hy (by omega), hlow, neg_tdiv_eq_iff hy (by omega)]
    refine or_congr ?_ ?_
    · rw [sub_add_eq_add_sub, sub_add_cancel]
    · rw [add_right_comm]

end FixedWidth

open FixedWidth

/-- The signed integers of `w` bits and a sign. -/
structure Signed (w : ℕ) where
  val : ℤ
  fits : Fits w val
  deriving DecidableEq

namespace Signed

variable {w : ℕ}

theorem ext {a b : Signed w} (h : a.val = b.val) : a = b := by
  cases a
  cases b
  cases h
  rfl

/-- Casting to a signed integer. -/
def cast (w : ℕ) (x : ℤ) : Signed w := ⟨wrap w x, fits_wrap w x⟩

/-- Half of an integer, rounded towards zero. -/
def half (a : Signed w) : Signed w where
  val := a.val.tdiv 2
  fits := by
    have hpos : (0 : ℤ) < 2 ^ w := pow_pos (by decide) _
    have hbounds := tdiv_two_bounds a.val
    have hfits := a.fits
    rw [Fits] at hfits ⊢
    omega

end Signed

@[simp] theorem Signed.cast_val (w : ℕ) (x : ℤ) : (Signed.cast w x).val = wrap w x := rfl

@[simp] theorem Signed.half_val {w : ℕ} (a : Signed w) : a.half.val = a.val.tdiv 2 := rfl

/-- What becomes of results that do not fit. -/
inductive Overflow
  | panicking
  | wrapping
  deriving DecidableEq

namespace Overflow

variable {w : ℕ} {x : ℤ} {mode : Overflow}

/-- The result of an operation, from the exact one; `none` if the program panics. -/
def settle (w : ℕ) (mode : Overflow) (x : ℤ) : Option (Signed w) :=
  if h : Fits w x then some ⟨x, h⟩
  else
    match mode with
    | panicking => none
    | wrapping => some (.cast w x)

theorem settle_of_fits (h : Fits w x) : settle w mode x = some ⟨x, h⟩ := dif_pos h

theorem settle_panicking_eq_some {a : Signed w} :
    settle w panicking x = some a ↔ a.val = x := by
  rw [settle]
  constructor
  · intro h
    split_ifs at h
    cases h
    rfl
  · rintro rfl
    exact dif_pos a.fits

/-- Any result is the exact one, wrapped around. -/
theorem settle_eq_some {a : Signed w} :
    settle w mode x = some a ↔ (mode = panicking → Fits w x) ∧ a = .cast w x := by
  unfold settle
  split_ifs with h
  · have hcast : (⟨x, h⟩ : Signed w) = .cast w x := Signed.ext (wrap_of_fits h).symm
    rw [hcast, Option.some.injEq, eq_comm]
    simp [h]
  · cases mode with
    | panicking => simp [h]
    | wrapping => simp [eq_comm]

/-- Addition. -/
def add (mode : Overflow) (a b : Signed w) : Option (Signed w) := settle w mode (a.val + b.val)

/-- Subtraction. -/
def sub (mode : Overflow) (a b : Signed w) : Option (Signed w) := settle w mode (a.val - b.val)

theorem exists_add (mode : Overflow) {a b : Signed w} (h : Fits w (a.val + b.val)) :
    ∃ c, add mode a b = some c ∧ c.val = a.val + b.val := ⟨_, settle_of_fits h, rfl⟩

theorem exists_sub (mode : Overflow) {a b : Signed w} (h : Fits w (a.val - b.val)) :
    ∃ c, sub mode a b = some c ∧ c.val = a.val - b.val := ⟨_, settle_of_fits h, rfl⟩

theorem add_panicking_eq_some {a b c : Signed w} :
    add panicking a b = some c ↔ c.val = a.val + b.val := settle_panicking_eq_some

theorem sub_panicking_eq_some {a b c : Signed w} :
    sub panicking a b = some c ↔ c.val = a.val - b.val := settle_panicking_eq_some

/-- The result of an operation on unsigned integers of `w` bits, from the exact one. -/
def settleNat (w : ℕ) (mode : Overflow) (n : ℕ) : Option ℕ :=
  if n < 2 ^ w then some n
  else
    match mode with
    | panicking => none
    | wrapping => some (n % 2 ^ w)

theorem settleNat_of_lt {n : ℕ} (h : n < 2 ^ w) : settleNat w mode n = some n := if_pos h

/-- Where the program goes on though it could have panicked, the result is exact. -/
theorem lt_of_settleNat {m n : ℕ} (h : settleNat w mode n = some m) (hmode : mode = panicking) :
    n < 2 ^ w ∧ m = n := by
  subst hmode
  unfold settleNat at h
  split_ifs at h with hlt
  exact ⟨hlt, (Option.some.inj h).symm⟩

theorem exists_settleNat {n : ℕ} (h : mode = panicking → n < 2 ^ w) :
    ∃ m, settleNat w mode n = some m ∧ (mode = panicking → m = n) := by
  unfold settleNat
  split_ifs with hlt
  · exact ⟨n, rfl, fun _ => rfl⟩
  · cases mode with
    | panicking => exact absurd (h rfl) hlt
    | wrapping => exact ⟨_, rfl, nofun⟩

end Overflow
