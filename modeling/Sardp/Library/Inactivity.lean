import Sardp.Library.Machine

/-!
# Idle timeouts

A loop that is given up when nothing has happened for too long looks at the clock before most
events: one that comes when the time is up is not looked at any more, and the loop can only be given
up then (`Watched`). Some events count as activity, and put the end off.

If some events change nothing in the loop (`Watched.Idle`), they may still count as activity. So
a run without them does the same as the run with them exactly if none of the other events comes when
the time since the last activity among those is up (`Watched.run_filter_iff`).
-/

/-- A machine with an idle timeout. -/
structure Watched (S E : Type*) where
  machine : Machine S E
  timeout : ℕ
  /-- How long after it is looked at the event counts as activity, if it does. -/
  activity : E → Option ℕ
  /-- The event is that the loop is given up. -/
  expiry : E → Bool
  /-- The event is looked at whatever the time is. -/
  urgent : E → Bool

namespace Watched

/-- A state of the machine, with the times of the last activity and of the last event. -/
structure State (S : Type*) where
  state : S
  lastActivity : ℕ
  now : ℕ

variable {S E : Type*} (w : Watched S E)

/-- The state as the loop starts. -/
def State.start (state : S) (now : ℕ) : State S := ⟨state, now, now⟩

/-- An event at a time is looked at, as the last activity was at another. -/
def LooksAt (lastActivity t : ℕ) (e : E) : Prop :=
  if w.expiry e then lastActivity + w.timeout ≤ t
  else w.urgent e = true ∨ t < lastActivity + w.timeout

instance (lastActivity t : ℕ) (e : E) : Decidable (w.LooksAt lastActivity t e) := by
  unfold LooksAt
  infer_instance

/-- When the last activity was, after an event. -/
def active (lastActivity t : ℕ) (e : E) : ℕ := (w.activity e).elim lastActivity (t + ·)

/-- The machine with its clock; an event comes with its time. -/
def timed : Machine (State S) (ℕ × E) where
  step s e :=
    if s.now ≤ e.1 ∧ w.LooksAt s.lastActivity e.1 e.2 then
      (w.machine.step s.state e.2).map fun state =>
        ⟨state, w.active s.lastActivity e.1 e.2, w.active e.1 e.1 e.2⟩
    else none

/-- None of the events comes when the time since the last activity is up. -/
def Punctual : ℕ → List (ℕ × E) → Prop
  | _, [] => True
  | lastActivity, (t, e) :: es =>
    (w.expiry e = false → w.LooksAt lastActivity t e) ∧ Punctual (w.active lastActivity t e) es

variable {w} {s s' s₁ : State S} {t a b : ℕ} {e : E} {es : List (ℕ × E)} {idle : E → Bool}

theorem timed_step_eq_some :
    w.timed.step s (t, e) = some s' ↔ (s.now ≤ t ∧ w.LooksAt s.lastActivity t e) ∧
      ∃ state, w.machine.step s.state e = some state ∧
        ⟨state, w.active s.lastActivity t e, w.active t t e⟩ = s' := by
  rw [timed]
  simp only [Option.ite_none_right_eq_some, Option.map_eq_some_iff]

theorem active_le (hab : a ≤ b) (t : ℕ) (e : E) : w.active a t e ≤ w.active b t e := by
  rw [active, active]
  cases w.activity e with
  | none => exact hab
  | some d => exact Nat.le_refl _

theorem le_active (h : a ≤ t) (e : E) : a ≤ w.active a t e := by
  rw [active]
  cases w.activity e with
  | none => exact Nat.le_refl _
  | some d => exact Nat.le_trans h (Nat.le_add_right t d)

/-- What is looked at after a later activity is also looked at after an earlier one, if it is that
    the loop is given up or still in time. -/
theorem looksAt_iff_of_le (hab : a ≤ b) (h : w.LooksAt b t e) :
    w.LooksAt a t e ↔ (w.expiry e = false → w.LooksAt a t e) := by
  cases he : w.expiry e with
  | false => simp
  | true =>
    rw [LooksAt, if_pos he] at h
    refine iff_of_true ?_ nofun
    rw [LooksAt, if_pos he]
    exact Nat.le_trans (Nat.add_le_add_right hab _) h

variable (w) in
/-- The events change nothing in the machine, and are not that the loop is given up. -/
def Idle (idle : E → Bool) : Prop :=
  ∀ e, idle e = true → w.expiry e = false ∧ ∀ s s', w.machine.step s e = some s' → s' = s

/-- An event that changes nothing in the machine is activity at most. -/
theorem Idle.step (h : w.Idle idle) (he : idle e = true)
    (hstep : w.timed.step s (t, e) = some s') :
    s' = ⟨s.state, w.active s.lastActivity t e, w.active t t e⟩ := by
  obtain ⟨-, state, hstate, rfl⟩ := timed_step_eq_some.1 hstep
  rw [(h e he).2 s.state state hstate]

/-- A run does the same without the events that change nothing, after an earlier activity, exactly
    if the others are punctual. -/
theorem run_filter_iff_of_le (hidle : w.Idle idle) (hrun : w.timed.run s es = some s')
    (hs : s.lastActivity ≤ s.now) (hstate : s₁.state = s.state)
    (hactivity : s₁.lastActivity ≤ s.lastActivity) (hnow : s₁.now ≤ s.now) :
    (∃ s₂, w.timed.run s₁ (es.filter fun e => !idle e.2) = some s₂ ∧ s₂.state = s'.state) ↔
      w.Punctual s₁.lastActivity (es.filter fun e => !idle e.2) := by
  induction es generalizing s s₁ with
  | nil =>
    cases hrun
    exact iff_of_true ⟨s₁, rfl, hstate⟩ trivial
  | cons te es ih =>
    obtain ⟨t, e⟩ := te
    obtain ⟨s₃, hstep, hrun⟩ := Machine.run_cons_eq_some.1 hrun
    obtain ⟨⟨htime, hlooks⟩, state, hmachine, rfl⟩ := timed_step_eq_some.1 hstep
    have hlater : s.lastActivity ≤ t := Nat.le_trans hs htime
    have hnow₁ : s₁.now ≤ t := Nat.le_trans hnow htime
    have hle : w.active s.lastActivity t e ≤ w.active t t e := active_le hlater t e
    cases he : idle e with
    | true =>
      -- the state stays what it is, and the activity only gets later
      rw [List.filter_cons_of_neg (by simp [he])]
      obtain rfl := (hidle e he).2 s.state state hmachine
      exact ih hrun hle hstate (Nat.le_trans hactivity (le_active hlater e))
        (Nat.le_trans hnow₁ (le_active (Nat.le_refl t) e))
    | false =>
      rw [List.filter_cons_of_pos (by simp [he]), Punctual,
        ← looksAt_iff_of_le hactivity hlooks]
      by_cases hearlier : w.LooksAt s₁.lastActivity t e
      · have hstep₁ : w.timed.step s₁ (t, e) =
            some ⟨state, w.active s₁.lastActivity t e, w.active t t e⟩ :=
          timed_step_eq_some.2 ⟨⟨hnow₁, hearlier⟩, state, hstate ▸ hmachine, rfl⟩
        rw [Machine.run, hstep₁, Option.bind_some, and_iff_right hearlier]
        exact ih hrun hle rfl (active_le hactivity t e) (Nat.le_refl _)
      · refine iff_of_false ?_ fun h => hearlier h.1
        rintro ⟨s₂, hrun₁, -⟩
        obtain ⟨s₃, hstep₁, -⟩ := Machine.run_cons_eq_some.1 hrun₁
        exact hearlier (timed_step_eq_some.1 hstep₁).1.2

/-- A run does the same without the events that change nothing exactly if the others are
    punctual. -/
theorem run_filter_iff (hidle : w.Idle idle) {state : S} {now : ℕ}
    (hrun : w.timed.run (.start state now) es = some s') :
    (∃ s₂, w.timed.run (.start state now) (es.filter fun e => !idle e.2) = some s₂ ∧
        s₂.state = s'.state) ↔
      w.Punctual now (es.filter fun e => !idle e.2) :=
  run_filter_iff_of_le hidle hrun (Nat.le_refl now) rfl (Nat.le_refl now) (Nat.le_refl now)

end Watched
