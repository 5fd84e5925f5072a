import Mathlib.Algebra.BigOperators.Group.List.Basic
import Mathlib.Algebra.GroupWithZero.Nat
import Sardp.Library.Machine

/-!
# Machines that come to an end

Some of the events of a machine are in the hands of one part of it. What that part may bring about
from a state, it may by a run over such events (`Machine.MayReach`). It may if it is never stuck
before, and comes closer with every event it chooses (`Machine.mayReach_of_measure`); and it may not
out of a state that its events do not leave (`Machine.not_mayReach`). A measure that every event
takes down, but for what it costs, bounds the runs (`Machine.length_le_of_measure`).

A property of states that a step keeps exactly if the step is of some kind holds along the runs
whose steps are of that kind, and along no other (`Machine.always_iff_of_keeps`); so does whatever
the property amounts to in the states that a run comes to.
-/

namespace Machine

variable {S E : Type*} {m : Machine S E} {P : E → Prop} {I Q : S → Prop} {s s' : S} {es : List E}

/-- Events with `P` may lead from the state to one with `Q`. -/
def MayReach (m : Machine S E) (P : E → Prop) (Q : S → Prop) (s : S) : Prop :=
  ∃ es s', (∀ e ∈ es, P e) ∧ m.run s es = some s' ∧ Q s'

theorem mayReach_of_now (h : Q s) : m.MayReach P Q s :=
  ⟨[], s, fun _ he => (List.not_mem_nil he).elim, rfl, h⟩

theorem MayReach.cons {e : E} (he : P e) (hstep : m.step s e = some s')
    (h : m.MayReach P Q s') : m.MayReach P Q s := by
  obtain ⟨es, s'', hes, hrun, hQ⟩ := h
  exact ⟨e :: es, s'', List.forall_mem_cons.2 ⟨he, hes⟩, run_cons_eq_some.2 ⟨s', hstep, hrun⟩, hQ⟩

/-- What an event of the part comes closer to in every state, the part may reach. -/
theorem mayReach_of_measure (μ : S → ℕ)
    (hstep : ∀ s, I s → ¬Q s → ∃ e s', P e ∧ m.step s e = some s' ∧ I s' ∧ μ s' < μ s)
    (h : I s) : m.MayReach P Q s := by
  induction hn : μ s using Nat.strongRecOn generalizing s with
  | ind n ih =>
    by_cases hQ : Q s
    · exact mayReach_of_now hQ
    · obtain ⟨e, s', he, hs', hI, hlt⟩ := hstep s h hQ
      exact (ih (μ s') (hn ▸ hlt) hI rfl).cons he hs'

/-- Out of what the events of the part do not leave, it may not reach anything else. -/
theorem not_mayReach (hstep : ∀ s e s', P e → I s → m.step s e = some s' → I s')
    (hQ : ∀ s, I s → ¬Q s) (h : I s) : ¬m.MayReach P Q s := by
  rintro ⟨es, s', hes, hrun, hQs⟩
  exact hQ s' (run_invariant_of_forall_mem hstep hes h hrun) hQs

/-- A run is as long as its measure and what its events cost allow. -/
theorem length_le_of_measure (μ : S → ℕ) (cost : E → ℕ)
    (hstep : ∀ s e s', P e → I s → m.step s e = some s' → I s' ∧ μ s' + 1 ≤ μ s + cost e)
    (hes : ∀ e ∈ es, P e) (h : I s) (hrun : m.run s es = some s') :
    es.length + μ s' ≤ μ s + (es.map cost).sum := by
  induction es generalizing s with
  | nil =>
    cases hrun
    simp
  | cons e es ih =>
    obtain ⟨s₁, hs₁, hrun⟩ := run_cons_eq_some.1 hrun
    obtain ⟨he, hes⟩ := List.forall_mem_cons.1 hes
    obtain ⟨hI, hle⟩ := hstep s e s₁ he h hs₁
    have hlen := ih hes hI hrun
    rw [List.length_cons, List.map_cons, List.sum_cons]
    omega

/-- If a step keeps a property of the start exactly if it is of some kind, then every state of a run
    has what the property amounts to exactly if every step is of that kind. -/
theorem always_iff_of_keeps {P : S → E → S → Prop} {R : S → Prop}
    (hI : ∀ s e s', I s → m.step s e = some s' → I s')
    (hQ : ∀ s e s', I s → Q s → m.step s e = some s' → (Q s' ↔ P s e s'))
    (hR : ∀ s, I s → (Q s ↔ R s)) (h : I s) (hs : Q s) :
    m.Always (fun _ _ s' => R s') s es ↔ m.Always P s es := by
  induction es generalizing s with
  | nil => exact Iff.rfl
  | cons e es ih =>
    refine forall₂_congr fun s' hs' => ?_
    have h' := hI s e s' h hs'
    rw [← hQ s e s' h hs hs', hR s' h']
    exact and_congr_right fun hR' => ih h' ((hR s' h').2 hR')

end Machine
