import Sardp.Library.Machine

/-!
# Clocks and deadlines

A state of a machine waits for something, with a deadline or without one; time passes while it
waits, but never beyond the deadline, and the other steps take no time (`Clocked`).

The machine goes through phases, and a phase may have to be over by a limit. A wait may be covered:
its deadline is over by the limit, and so is that of every wait it leads to within the phase. From
a covered wait the limit is kept, whatever happens (`Clocked.inTime_of_covered`); if from every
other wait something can happen so that it is not, then it is kept from exactly the covered ones
(`Clocked.keeps_iff_covered`).
-/

/-- What happens to a machine with a clock. -/
inductive ClockEvent (E : Type*)
  | elapse (d : ℕ)
  | event (e : E)

/-- A machine with a clock. -/
structure Clocked (S E : Type*) where
  now : S → ℕ
  /-- When the wait of the state is given up. -/
  deadline : S → Option ℕ
  /-- The state when some time has passed. -/
  wait : S → ℕ → S
  step : S → E → Option S

namespace Clocked

variable {S E : Type*} (c : Clocked S E)

/-- The time may pass before the deadline is over. -/
def MayWait (s : S) (d : ℕ) : Prop := ∀ t, c.deadline s = some t → c.now s + d ≤ t

instance (s : S) (d : ℕ) : Decidable (c.MayWait s d) :=
  match h : c.deadline s with
  | none => .isTrue fun t ht => by rw [h] at ht; cases ht
  | some t => decidable_of_iff (c.now s + d ≤ t)
      ⟨fun hle t' ht' => by rw [h] at ht'; exact Option.some.inj ht' ▸ hle, fun hwait => hwait t h⟩

/-- The machine, with its clock. -/
def machine : Machine S (ClockEvent E) where
  step s
    | .elapse d => if c.MayWait s d then some (c.wait s d) else none
    | .event e => c.step s e

variable {c}

theorem step_elapse {s s' : S} {d : ℕ} :
    c.machine.step s (.elapse d) = some s' ↔ c.MayWait s d ∧ s' = c.wait s d := by
  refine Option.ite_none_right_eq_some.trans (and_congr_right fun _ => ?_)
  rw [Option.some_inj, eq_comm]

/-- The state is not beyond the limit, if there is one. -/
def InTime (c : Clocked S E) (limit : S → Option ℕ) (s : S) : Prop :=
  ∀ t, limit s = some t → c.now s ≤ t

variable {φ : Type*} {limit : S → Option ℕ} {phase : S → φ} {I Covered : S → Prop}

/-- As long as the phase lasts, the limit is kept, whatever happens from the state on. -/
def Keeps (c : Clocked S E) (limit : S → Option ℕ) (phase : S → φ) (s : S) : Prop :=
  ∀ es s', c.machine.run s es = some s' →
    c.machine.Always (fun _ _ s₂ => phase s₂ = phase s) s es → c.InTime limit s'

/-- If the limit is kept whatever happens, then also whatever happens after a step. -/
theorem Keeps.step {s s₁ : S} {e : E} (h : c.Keeps limit phase s) (hstep : c.step s e = some s₁)
    (hphase : phase s₁ = phase s) : c.Keeps limit phase s₁ := by
  intro es s' hrun hsame
  have hevent : c.machine.step s (.event e) = some s₁ := hstep
  refine h (.event e :: es) s' (Machine.run_cons_eq_some.2 ⟨s₁, hevent, hrun⟩) ?_
  refine (Machine.always_cons hevent).2 ⟨hphase, ?_⟩
  simpa only [hphase] using hsame

/-- Where the time may pass beyond the limit, it is not kept. -/
theorem not_keeps_of_mayWait (hnow : ∀ s d, c.now (c.wait s d) = c.now s + d)
    (hlimit : ∀ s d, limit (c.wait s d) = limit s) (hphase : ∀ s d, phase (c.wait s d) = phase s)
    {s : S} {d t : ℕ} (hwait : c.MayWait s d) (ht : limit s = some t) (hlate : t < c.now s + d) :
    ¬ c.Keeps limit phase s := by
  intro h
  have hstep : c.machine.step s (.elapse d) = some (c.wait s d) := step_elapse.2 ⟨hwait, rfl⟩
  have htime := h [.elapse d] (c.wait s d) (Machine.run_cons_eq_some.2 ⟨_, hstep, rfl⟩)
    ((Machine.always_cons hstep).2 ⟨hphase s d, trivial⟩) t ((hlimit s d).trans ht)
  rw [hnow] at htime
  omega

/-- A wait is covered if its deadline is over by the limit, and the phase only goes on to waits
    that are covered, too. -/
structure Covers (c : Clocked S E) (limit : S → Option ℕ) (phase : S → φ) (I Covered : S → Prop) :
    Prop where
  wait {s : S} {d : ℕ} : Covered s → c.MayWait s d → Covered (c.wait s d)
  /-- What is in time goes on in time, by time that passes up to the deadline. -/
  inTime {s : S} {d : ℕ} : I s → Covered s → c.InTime limit s → c.MayWait s d →
    c.InTime limit (c.wait s d)
  step {s s' : S} {e : E} : I s → Covered s → c.step s e = some s' → phase s' = phase s → Covered s'

/-- From a covered wait the limit is kept. -/
theorem inTime_of_covered (hI : ∀ s e s', I s → c.machine.step s e = some s' → I s')
    (hstep : ∀ s e s', I s → c.step s e = some s' → c.InTime limit s → c.InTime limit s')
    (hcovers : c.Covers limit phase I Covered) {s : S} (hs : I s) (htime : c.InTime limit s)
    (hcovered : Covered s) : c.Keeps limit phase s := by
  intro es s' hrun hphase
  -- the invariant of the run: the wait is one of the same phase, covered and in time
  have hinv : I s' ∧ phase s' = phase s ∧ c.InTime limit s' ∧ Covered s' := by
    refine hphase.run_invariant
      (I := fun s₁ => I s₁ ∧ phase s₁ = phase s ∧ c.InTime limit s₁ ∧ Covered s₁)
      (fun s₁ e s₂ h₁ h hsame => ?_) ⟨hs, rfl, htime, hcovered⟩ hrun
    obtain ⟨hI₁, hphase₁, htime₁, hcovered₁⟩ := h₁
    refine ⟨hI s₁ e s₂ hI₁ h, hsame, ?_⟩
    cases e with
    | elapse d =>
      obtain ⟨hwait, rfl⟩ := step_elapse.1 h
      exact ⟨hcovers.inTime hI₁ hcovered₁ htime₁ hwait, hcovers.wait hcovered₁ hwait⟩
    | event e =>
      exact ⟨hstep s₁ e s₂ hI₁ h htime₁, hcovers.step hI₁ hcovered₁ h (hsame.trans hphase₁.symm)⟩
  exact hinv.2.2.1

/-- Where something can be late from every wait in time that is not covered, the limit is kept from
    exactly those that are. -/
theorem keeps_iff_covered (hI : ∀ s e s', I s → c.machine.step s e = some s' → I s')
    (hstep : ∀ s e s', I s → c.step s e = some s' → c.InTime limit s → c.InTime limit s')
    (hcovers : c.Covers limit phase I Covered)
    (hlate : ∀ s, I s → c.InTime limit s → ¬ Covered s → ¬ c.Keeps limit phase s) {s : S}
    (hs : I s) : c.Keeps limit phase s ↔ c.InTime limit s ∧ Covered s := by
  constructor
  · intro h
    have htime : c.InTime limit s := h [] s rfl trivial
    exact ⟨htime, by_contra fun hcovered => hlate s hs htime hcovered h⟩
  · rintro ⟨htime, hcovered⟩
    exact inTime_of_covered hI hstep hcovers hs htime hcovered

end Clocked
