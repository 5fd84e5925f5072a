import Mathlib.Algebra.Order.Field.Basic
import Mathlib.Tactic.Linarith
import Mathlib.Tactic.Ring

/-!
# Comparing two clocks

One side sends a request and gets an answer, and each side notes when the two leave and arrive, by
its own clock. From the four times, the delay on the way there and back is exactly known
(`ClockSync.Exchange.roundTrip_eq`), but the offset between the clocks only as far as the two ways
take the same time: half the difference of the times, rounded or not, misses it by half the delay at
most (`ClockSync.Exchange.abs_sub_offset_le`).
-/

namespace ClockSync

/-- An exchange between two clocks, the second of which is ahead of the first by the offset. -/
structure Exchange (K : Type*) [Field K] [LinearOrder K] where
  /-- When the request leaves and when the answer arrives, by the first clock. -/
  t₁ : K
  t₄ : K
  /-- When the request arrives and when the answer leaves, by the second clock. -/
  t₂ : K
  t₃ : K
  offset : K
  /-- The delays of the request and of the answer. -/
  d₁ : K
  d₂ : K
  /-- The time between them. -/
  processing : K
  d₁_nonneg : 0 ≤ d₁
  d₂_nonneg : 0 ≤ d₂
  t₂_eq : t₂ = t₁ + offset + d₁
  t₃_eq : t₃ = t₂ + processing
  t₄_eq : t₄ = t₃ - offset + d₂

namespace Exchange

variable {K : Type*} [Field K] [LinearOrder K]

/-- The two delays together. -/
theorem roundTrip_eq (e : Exchange K) : (e.t₄ - e.t₁) - (e.t₃ - e.t₂) = e.d₁ + e.d₂ := by
  rw [e.t₄_eq, e.t₃_eq, e.t₂_eq]
  ring

/-- Twice the offset, up to the difference of the delays. -/
theorem sum_eq (e : Exchange K) :
    (e.t₂ - e.t₁) + (e.t₃ - e.t₄) = 2 * e.offset + (e.d₁ - e.d₂) := by
  rw [e.t₄_eq, e.t₃_eq, e.t₂_eq]
  ring

/-- Half the sum of the differences, rounded by at most a half, misses the offset by at most half of
    the round trip and one unit. -/
theorem abs_sub_offset_le [IsStrictOrderedRing K] (e : Exchange K) {q : K}
    (hlow : (e.t₂ - e.t₁) + (e.t₃ - e.t₄) - 1 ≤ 2 * q)
    (hhigh : 2 * q ≤ (e.t₂ - e.t₁) + (e.t₃ - e.t₄) + 1) :
    |q - e.offset| ≤ (e.d₁ + e.d₂ + 1) / 2 := by
  rw [e.sum_eq] at hlow hhigh
  have h₁ := e.d₁_nonneg
  have h₂ := e.d₂_nonneg
  rw [abs_le]
  constructor
  · linarith
  · linarith

end Exchange

end ClockSync
