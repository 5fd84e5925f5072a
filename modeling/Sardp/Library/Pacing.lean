import Mathlib.Algebra.Order.Ring.Nat
import Mathlib.Data.List.Basic
import Sardp.Library.Machine

/-!
# Keeping a pace

Something that may happen at some moments is allowed to happen at most once an interval, more or
less: there is a time the next one is due at, a moment is let pass if it is too early for that by
more than a slack, and otherwise the next one is due an interval later, or an interval from now if
that time has long passed (`Pace.next`).

The schedule does not drift: whatever the moments, the n-th one taken after another comes at least
n - 1 intervals later, up to the slack (`Pace.spaced_taken`), so that not many are taken in any
stretch of time (`Spaced.length_filter_le`). And it does not starve: a moment is let pass only
within an interval of the last one taken (`Pace.exists_last_of_early`).
-/

/-- How long an interval is, and how much earlier than due is not too early. -/
structure Pace where
  interval : ℕ
  slack : ℕ

/-- The last of any of the times comes about an interval after the first for each one between
    them. -/
def Spaced (pace : Pace) (times : List ℕ) : Prop :=
  ∀ before a between b after, times = before ++ a :: (between ++ b :: after) →
    a + between.length * pace.interval ≤ b + pace.slack

namespace Pace

variable (pace : Pace)

/-- It is too early at this moment. -/
def Early (due : Option ℕ) (now : ℕ) : Prop := ∃ t ∈ due, now + pace.slack < t

instance (due : Option ℕ) (now : ℕ) : Decidable (pace.Early due now) :=
  inferInstanceAs (Decidable (∃ t ∈ due, now + pace.slack < t))

/-- When the next one is due after one at this moment. -/
def next (due : Option ℕ) (now : ℕ) : ℕ :=
  match due with
  | some t => if now < t + pace.interval then t + pace.interval else now + pace.interval
  | none => now + pace.interval

/-- When the next one is due after some moments, each of which is taken unless it is too early. -/
def dueAfter : Option ℕ → List ℕ → Option ℕ
  | due, [] => due
  | due, now :: moments =>
    dueAfter (if pace.Early due now then due else some (pace.next due now)) moments

/-- The moments taken, in order. -/
def taken : Option ℕ → List ℕ → List ℕ
  | _, [] => []
  | due, now :: moments =>
    if pace.Early due now then taken due moments
    else now :: taken (some (pace.next due now)) moments

variable {pace} {due : Option ℕ} {now t : ℕ} {moments : List ℕ}

theorem le_next : now ≤ pace.next due now := by
  cases due with
  | none => exact Nat.le_add_right ..
  | some t =>
    rw [next]
    split_ifs <;> omega

/-- The times the next one is due at are an interval apart. -/
theorem add_le_next (ht : t ∈ due) : t + pace.interval ≤ pace.next due now := by
  cases ht
  rw [next]
  split_ifs <;> omega

theorem next_le (h : ¬pace.Early due now) : pace.next due now ≤ now + pace.slack + pace.interval := by
  cases due with
  | none =>
    rw [next]
    omega
  | some t =>
    have hle : t ≤ now + pace.slack := by
      by_contra hlt
      exact h ⟨t, rfl, by omega⟩
    rw [next]
    split_ifs <;> omega

/-- What is due after some moments is due at most an interval and the slack after the last one
    taken. -/
theorem exists_last_of_dueAfter (ht : t ∈ pace.dueAfter due moments) :
    (pace.taken due moments = [] ∧ t ∈ due) ∨
      ∃ last ∈ (pace.taken due moments).getLast?, t ≤ last + pace.slack + pace.interval := by
  induction moments generalizing due with
  | nil => exact .inl ⟨rfl, ht⟩
  | cons now moments ih =>
    rw [dueAfter] at ht
    rw [taken]
    split_ifs at ht ⊢ with hearly
    · exact ih ht
    · rcases ih ht with ⟨hnil, ht'⟩ | ⟨last, hlast, hle⟩
      · cases ht'
        exact .inr ⟨now, by rw [hnil]; rfl, next_le hearly⟩
      · refine .inr ⟨last, ?_, hle⟩
        rw [List.getLast?_cons, Option.mem_def.1 hlast]
        rfl

/-- A moment is too early only within an interval of the last one taken. -/
theorem exists_last_of_early (h : pace.Early (pace.dueAfter none moments) now) :
    ∃ last ∈ (pace.taken none moments).getLast?, now < last + pace.interval := by
  obtain ⟨t, ht, hlt⟩ := h
  rcases exists_last_of_dueAfter ht with ⟨-, hnone⟩ | ⟨last, hlast, hle⟩
  · cases hnone
  · exact ⟨last, hlast, by omega⟩

/-- The moment taken after some others is not before what has been due by then. -/
theorem add_le_of_taken {between after : List ℕ} {b : ℕ} (ht : t ∈ due)
    (h : pace.taken due moments = between ++ b :: after) :
    t + between.length * pace.interval ≤ b + pace.slack := by
  induction moments generalizing due t between with
  | nil => simp [taken] at h
  | cons now moments ih =>
    rw [taken] at h
    split_ifs at h with hearly
    · exact ih ht h
    · cases between with
      | nil =>
        obtain ⟨rfl, -⟩ := List.cons.inj h
        have hle : ¬now + pace.slack < t := fun hlt => hearly ⟨t, ht, hlt⟩
        rw [List.length_nil, Nat.zero_mul]
        omega
      | cons c between =>
        obtain ⟨rfl, htail⟩ := List.cons.inj h
        have hrest := ih rfl htail
        have hnext : t + pace.interval ≤ pace.next due now := add_le_next ht
        rw [List.length_cons, Nat.succ_mul]
        omega

/-- Whatever the moments, those taken are spaced. -/
theorem spaced_taken : Spaced pace (pace.taken due moments) := by
  intro before a between b after h
  induction moments generalizing due before with
  | nil => simp [taken] at h
  | cons now moments ih =>
    rw [taken] at h
    split_ifs at h with hearly
    · exact ih before h
    · cases before with
      | nil =>
        obtain ⟨rfl, htail⟩ := List.cons.inj h
        have hle := add_le_of_taken rfl htail
        have hnow : now ≤ pace.next due now := le_next
        omega
      | cons c before =>
        obtain ⟨rfl, htail⟩ := List.cons.inj h
        exact ih before htail

end Pace

namespace Spaced

variable {pace : Pace} {times : List ℕ}

/-- At the first time and at the last one that something holds of, it holds of the ones between
    them at most. -/
theorem exists_ends (p : ℕ → Bool) (h : 2 ≤ (times.filter p).length) :
    ∃ before a between b after, times = before ++ a :: (between ++ b :: after) ∧ p a ∧ p b ∧
      (times.filter p).length ≤ between.length + 2 := by
  obtain ⟨a, rest, hrest⟩ := List.exists_cons_of_length_pos (Nat.lt_of_lt_of_le Nat.two_pos h)
  rw [hrest, List.length_cons] at h ⊢
  have hne : rest ≠ [] := List.ne_nil_of_length_pos (Nat.le_of_succ_le_succ h)
  obtain ⟨init, b, rfl⟩ := (List.eq_nil_or_concat' rest).resolve_left hne
  obtain ⟨before, tail, rfl, -, ha, htail⟩ := List.filter_eq_cons_iff.1 hrest
  obtain ⟨between, last, rfl, hbetween, hlast⟩ := List.filter_eq_append_iff.1 htail
  obtain ⟨gap, after, rfl, -, hb, -⟩ := List.filter_eq_cons_iff.1 hlast
  refine ⟨before, a, between ++ gap, b, after, by simp, ha, hb, ?_⟩
  have hle := List.length_filter_le p between
  rw [hbetween] at hle
  simp only [List.length_append, List.length_singleton]
  omega

/-- In any stretch of time, there are not many of them. -/
theorem length_filter_le (h : Spaced pace times) (start length : ℕ) :
    ((times.filter fun t => start ≤ t ∧ t ≤ start + length).length - 2) * pace.interval ≤
      length + pace.slack := by
  by_cases hfew : (times.filter fun t => start ≤ t ∧ t ≤ start + length).length < 2
  · rw [Nat.sub_eq_zero_of_le (Nat.le_of_lt hfew), Nat.zero_mul]
    exact Nat.zero_le _
  · obtain ⟨before, a, between, b, after, htimes, ha, hb, hle⟩ :=
      exists_ends _ (Nat.le_of_not_lt hfew)
    have hspaced := h before a between b after htimes
    have hmul := Nat.mul_le_mul_right pace.interval (Nat.sub_le_of_le_add hle)
    simp only [decide_eq_true_eq] at ha hb
    omega

end Spaced
