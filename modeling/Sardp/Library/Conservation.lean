import Mathlib.Data.List.Basic
import Sardp.Library.Machine

/-!
# What goes into a machine and what comes out

Along a run, a machine takes values in and gives values out (`Machine.outputs` for either),
and holds some of them in between. What every step conserves, a run conserves, in order
(`Machine.outputs_conserved`); and if the steps that do not conserve the values lose some of
them, then only the runs without such a step do (`Machine.outputs_conserved_iff`).
-/

namespace Machine

variable {S E A : Type*} (m : Machine S E)

/-- The values `f` gives at the steps of the run from a state over the events, in order. -/
def outputs (f : S → E → List A) : S → List E → List A
  | _, [] => []
  | s, e :: es => f s e ++ (m.step s e).elim [] fun s' => outputs f s' es

variable {m} {f g : S → E → List A} {held : S → List A} {s s' : S} {e : E} {es : List E}

@[simp] theorem outputs_nil (s : S) : m.outputs f s [] = [] := rfl

theorem outputs_cons (h : m.step s e = some s') :
    m.outputs f s (e :: es) = f s e ++ m.outputs f s' es := by
  rw [outputs, h]
  rfl

theorem outputs_append (hrun : m.run s es = some s') (es' : List E) :
    m.outputs f s (es ++ es') = m.outputs f s es ++ m.outputs f s' es' := by
  induction es generalizing s with
  | nil =>
    cases hrun
    rfl
  | cons e es ih =>
    obtain ⟨s₁, hs₁, hrun⟩ := run_cons_eq_some.1 hrun
    rw [List.cons_append, outputs_cons hs₁, outputs_cons hs₁, ih hrun, List.append_assoc]

/-- If relabelling the states and the events commutes with the steps and keeps what they give,
    then the runs give the same. -/
theorem outputs_map {φ : S → S} {ψ : E → E}
    (hstep : ∀ s e, m.step (φ s) (ψ e) = (m.step s e).map φ)
    (hf : ∀ s e, f (φ s) (ψ e) = f s e) (s : S) (es : List E) :
    m.outputs f (φ s) (es.map ψ) = m.outputs f s es := by
  induction es generalizing s with
  | nil => rfl
  | cons e es ih =>
    rw [List.map_cons, outputs, outputs, hstep, hf]
    cases m.step s e with
    | none => rfl
    | some s' => exact congrArg (f s e ++ ·) (ih s')

theorem map_outputs {B : Type*} (φ : A → B) (s : S) (es : List E) :
    (m.outputs f s es).map φ = m.outputs (fun s e => (f s e).map φ) s es := by
  induction es generalizing s with
  | nil => rfl
  | cons e es ih =>
    rw [outputs, outputs, List.map_append]
    cases m.step s e with
    | none => rfl
    | some s' => exact congrArg ((f s e).map φ ++ ·) (ih s')

/-- What every step increases by the number of values it gives, a run increases by the number
    of those it gives. -/
theorem add_length_outputs {μ : S → ℕ}
    (hstep : ∀ s e s', m.step s e = some s' → μ s' = μ s + (f s e).length)
    (hrun : m.run s es = some s') : μ s' = μ s + (m.outputs f s es).length := by
  induction es generalizing s with
  | nil =>
    cases hrun
    rfl
  | cons e es ih =>
    obtain ⟨s₁, hs₁, hrun⟩ := run_cons_eq_some.1 hrun
    rw [ih hrun, hstep s e s₁ hs₁, outputs_cons hs₁, List.length_append, Nat.add_assoc]

/-- What the items of a list hold, when one of them changes. -/
theorem count_filterMap_set {A B : Type*} [DecidableEq B] {f : A → Option B} {l : List A} {i : ℕ}
    {a : A} (h : l[i]? = some a) (a' : A) (b : B) :
    ((l.set i a').filterMap f).count b + (f a).toList.count b =
      (l.filterMap f).count b + (f a').toList.count b := by
  induction l generalizing i with
  | nil => cases h
  | cons x l ih =>
    have hcons (y : A) (l : List A) :
        ((y :: l).filterMap f).count b = (f y).toList.count b + (l.filterMap f).count b := by
      rw [List.filterMap_cons]
      cases f y <;> simp [List.count_cons, Nat.add_comm]
    cases i with
    | zero =>
      cases h
      rw [List.set_cons_zero, hcons, hcons]
      omega
    | succ i =>
      rw [List.set_cons_succ, hcons, hcons]
      have hih := ih (i := i) h
      omega

/-- The step conserves the values: those held before it and those taken in are those given
    out and those held after it. -/
def Conserves (f g : S → E → List A) (held : S → List A) (s : S) (e : E) (s' : S) : Prop :=
  held s ++ f s e = g s e ++ held s'

/-- A run of steps that lose values at most gives out and holds no more than was taken in. -/
theorem length_outputs_le
    (hstep : ∀ s e s', m.step s e = some s' → (g s e ++ held s').length ≤ (held s ++ f s e).length)
    (hrun : m.run s es = some s') :
    (m.outputs g s es ++ held s').length ≤ (held s ++ m.outputs f s es).length := by
  induction es generalizing s with
  | nil =>
    cases hrun
    simp
  | cons e es ih =>
    obtain ⟨s₁, hs₁, hrun⟩ := run_cons_eq_some.1 hrun
    have hfirst := hstep s e s₁ hs₁
    have hrest := ih hrun
    simp only [outputs_cons hs₁, List.length_append] at hfirst hrest ⊢
    omega

/-- What every step conserves, a run conserves. -/
theorem outputs_conserved (hstep : ∀ s e s', m.step s e = some s' → Conserves f g held s e s')
    (hrun : m.run s es = some s') : held s ++ m.outputs f s es = m.outputs g s es ++ held s' := by
  induction es generalizing s with
  | nil =>
    cases hrun
    simp
  | cons e es ih =>
    obtain ⟨s₁, hs₁, hrun⟩ := run_cons_eq_some.1 hrun
    rw [outputs_cons hs₁, outputs_cons hs₁, ← List.append_assoc, hstep s e s₁ hs₁,
      List.append_assoc, ih hrun, List.append_assoc]

/-- What is given besides other values can only be left out where there is nothing of it. -/
theorem outputs_append_eq_iff (hrun : m.run s es = some s') :
    m.outputs (fun s e => f s e ++ g s e) s es = m.outputs f s es ↔
      m.Always (fun s e _ => g s e = []) s es := by
  have hle (s : S) (es : List E) : (m.outputs f s es).length ≤
      (m.outputs (fun s e => f s e ++ g s e) s es).length := by
    induction es generalizing s with
    | nil => exact Nat.le_refl _
    | cons e es ih =>
      simp only [outputs, List.length_append]
      cases m.step s e with
      | none => exact Nat.add_le_add_right (Nat.le_add_right _ _) _
      | some s₁ => exact Nat.add_le_add (Nat.le_add_right _ _) (ih s₁)
  induction es generalizing s with
  | nil => simp
  | cons e es ih =>
    obtain ⟨s₁, hs₁, hrun⟩ := run_cons_eq_some.1 hrun
    have hrest := ih hrun
    rw [outputs_cons hs₁, outputs_cons hs₁, always_cons hs₁, List.append_assoc,
      List.append_cancel_left_eq]
    refine Iff.trans ?_ (and_congr Iff.rfl hrest)
    constructor
    · intro h
      have hlength := congrArg List.length h
      rw [List.length_append] at hlength
      have hnil : g s e = [] := List.length_eq_zero_iff.1 (by have := hle s₁ es; omega)
      rw [hnil] at h
      exact ⟨hnil, h⟩
    · rintro ⟨hnil, h⟩
      rw [hnil, h]
      rfl

/-- If every step conserves the values, or leads to where no other step is possible and gives
    nothing out, then a run conserves them, or has given out the first of them. -/
theorem outputs_conserved_or {D : S → Prop} (hend : ∀ s e s', m.step s e = some s' → ¬D s)
    (hstep : ∀ s e s', m.step s e = some s' → Conserves f g held s e s' ∨ D s' ∧ g s e = [])
    (hrun : m.run s es = some s') :
    held s ++ m.outputs f s es = m.outputs g s es ++ held s' ∨
      D s' ∧ m.outputs g s es <+: held s ++ m.outputs f s es := by
  induction es generalizing s with
  | nil =>
    cases hrun
    exact .inl (by simp)
  | cons e es ih =>
    obtain ⟨s₁, hs₁, hrun⟩ := run_cons_eq_some.1 hrun
    rw [outputs_cons hs₁, outputs_cons hs₁]
    rcases hstep s e s₁ hs₁ with hkept | ⟨hD, hnone⟩
    · rw [← List.append_assoc, hkept, List.append_assoc, List.append_assoc]
      rcases ih hrun with hkept' | ⟨hD, hfirst⟩
      · exact .inl (by rw [hkept'])
      · exact .inr ⟨hD, (List.prefix_append_right_inj _).2 hfirst⟩
    · -- there is no step after this one
      cases es with
      | nil =>
        cases hrun
        exact .inr ⟨hD, by simp [hnone]⟩
      | cons e' es =>
        obtain ⟨s₂, hs₂, -⟩ := run_cons_eq_some.1 hrun
        exact (hend s₁ e' s₂ hs₂ hD).elim

/-- A step that takes nothing in and drops a part of what is held conserves the values if there is
    nothing in that part, and loses some otherwise. -/
theorem conserves_or_loses {P : Prop} {dropped kept : List A} (htaken : f s e = [])
    (hheld : held s = dropped ++ kept) (hkept : g s e ++ held s' = kept) (hP : P ↔ dropped = []) :
    (Conserves f g held s e s' ∧ P) ∨
      (g s e ++ held s').length < (held s ++ f s e).length ∧ ¬ P := by
  rw [hP, Conserves, htaken, hheld, hkept, List.append_nil]
  by_cases hdropped : dropped = []
  · exact .inl ⟨by rw [hdropped, List.nil_append], hdropped⟩
  · have hpos : 0 < dropped.length := List.length_pos_iff.2 hdropped
    refine .inr ⟨?_, hdropped⟩
    rw [List.length_append]
    omega

/-- If the steps without `P` lose values, and those with `P` conserve them, then over a run the
    values are conserved exactly if every step has `P`, as those lost are never made up for. -/
theorem outputs_conserved_iff {P : S → E → S → Prop}
    (hstep : ∀ s e s', m.step s e = some s' → (Conserves f g held s e s' ∧ P s e s') ∨
      (g s e ++ held s').length < (held s ++ f s e).length ∧ ¬ P s e s')
    (hrun : m.run s es = some s') :
    held s ++ m.outputs f s es = m.outputs g s es ++ held s' ↔ m.Always P s es := by
  have hle : ∀ s e s', m.step s e = some s' →
      (g s e ++ held s').length ≤ (held s ++ f s e).length := by
    intro s e s' hs'
    rcases hstep s e s' hs' with ⟨hkept, -⟩ | ⟨hlost, -⟩
    · exact Nat.le_of_eq (congrArg List.length hkept).symm
    · exact Nat.le_of_lt hlost
  induction es generalizing s with
  | nil =>
    cases hrun
    simp
  | cons e es ih =>
    obtain ⟨s₁, hs₁, hrun⟩ := run_cons_eq_some.1 hrun
    rw [outputs_cons hs₁, outputs_cons hs₁, always_cons hs₁]
    refine Iff.trans ?_ (and_congr Iff.rfl (ih hrun))
    rcases hstep s e s₁ hs₁ with ⟨hkept, hP⟩ | ⟨hlost, hP⟩
    · rw [← List.append_assoc, hkept, List.append_assoc, List.append_assoc,
        List.append_cancel_left_eq]
      exact (and_iff_right hP).symm
    · -- the rest of the run gives out and holds no more than it takes in
      refine iff_of_false (fun h => ?_) fun h => hP h.1
      have hrest := length_outputs_le hle hrun
      have h := congrArg List.length h
      simp only [List.length_append] at h hrest hlost
      omega

end Machine
