import Mathlib.Data.List.Basic
import Mathlib.Tactic.Cases

/-!
# Machines and their runs

A machine takes an event in a state to at most one next state (`Machine`); it runs
over a list of events as long as every one of them is possible (`Machine.run`).

* What every step keeps, every run keeps (`Machine.run_invariant`): the induction
  over runs, done once.
* A property of steps may hold of every step of a run (`Machine.Always`). To compare
  two such properties along the runs, it is enough to compare them on one step out of
  a state of the invariant (`Machine.always_congr`).
-/

/-- A machine with states `S` and events `E`. -/
structure Machine (S E : Type*) where
  /-- The state the event leads to; `none` where it is not possible. -/
  step : S → E → Option S

namespace Machine

variable {S E : Type*} (m : Machine S E)

/-- The state a list of events leads to; `none` where one of them is not possible. -/
def run : S → List E → Option S
  | s, [] => some s
  | s, e :: es => (m.step s e).bind fun s' => run s' es

@[simp] theorem run_nil (s : S) : m.run s [] = some s := rfl

variable {m}

/-- A run starts with the step of its first event. -/
theorem run_cons_eq_some {s s'' : S} {e : E} {es : List E} :
    m.run s (e :: es) = some s'' ↔ ∃ s', m.step s e = some s' ∧ m.run s' es = some s'' :=
  Option.bind_eq_some_iff

/-- A run over two lists is a run over the first, then over the second. -/
theorem run_append_eq_some {s s'' : S} {es es' : List E} :
    m.run s (es ++ es') = some s'' ↔ ∃ s', m.run s es = some s' ∧ m.run s' es' = some s'' := by
  induction es generalizing s with
  | nil => simp
  | cons e es ih =>
    simp only [List.cons_append, run_cons_eq_some, ih]
    constructor
    · rintro ⟨s₁, hstep, s₂, hrun, hrun'⟩
      exact ⟨s₂, ⟨s₁, hstep, hrun⟩, hrun'⟩
    · rintro ⟨s₂, ⟨s₁, hstep, hrun⟩, hrun'⟩
      exact ⟨s₁, hstep, s₂, hrun, hrun'⟩

/-! ## Properties of every step -/

variable (m)

/-- `P` holds of every step of the run from `s` over the events. -/
def Always (P : S → E → S → Prop) : S → List E → Prop
  | _, [] => True
  | s, e :: es => ∀ s', m.step s e = some s' → P s e s' ∧ Always P s' es

variable {m} {P Q : S → E → S → Prop} {I : S → Prop}

@[simp] theorem always_nil (s : S) : m.Always P s [] := trivial

theorem always_cons {s s' : S} {e : E} {es : List E} (h : m.step s e = some s') :
    m.Always P s (e :: es) ↔ P s e s' ∧ m.Always P s' es := by
  constructor
  · intro h'
    exact h' s' h
  · intro h' s'' hs''
    rw [h] at hs''
    exact Option.some.inj hs'' ▸ h'

instance decidableAlways [∀ s e s', Decidable (P s e s')] (s : S) :
    (es : List E) → Decidable (m.Always P s es)
  | [] => .isTrue trivial
  | e :: es =>
    match hstep : m.step s e with
    | none => .isTrue fun s' hs' => by simp [hstep] at hs'
    | some s' =>
      have := decidableAlways s' es
      decidable_of_iff (P s e s' ∧ m.Always P s' es) (always_cons hstep).symm

/-- What holds of every step out of a state of an invariant holds of every step of a run. -/
theorem always_of_step (hI : ∀ s e s', I s → m.step s e = some s' → I s')
    (hP : ∀ s e s', I s → m.step s e = some s' → P s e s') {s : S} {es : List E} (h : I s) :
    m.Always P s es := by
  induction es generalizing s with
  | nil => trivial
  | cons e es ih =>
    intro s' hs'
    exact ⟨hP s e s' h hs', ih (hI s e s' h hs')⟩

/-- Two properties that agree on every step out of a state of an invariant hold along
    the same runs. -/
theorem always_congr (hI : ∀ s e s', I s → m.step s e = some s' → I s')
    (hPQ : ∀ s e s', I s → m.step s e = some s' → (P s e s' ↔ Q s e s')) {s : S}
    {es : List E} (h : I s) : m.Always P s es ↔ m.Always Q s es := by
  induction es generalizing s with
  | nil => exact Iff.rfl
  | cons e es ih =>
    exact forall₂_congr fun s' hs' => and_congr (hPQ s e s' h hs') (ih (hI s e s' h hs'))

/-- Two properties hold of every step of a run exactly if each of them does. -/
theorem always_and {s : S} {es : List E} :
    m.Always (fun s e s' => P s e s' ∧ Q s e s') s es ↔ m.Always P s es ∧ m.Always Q s es := by
  induction es generalizing s with
  | nil => exact (and_self_iff).symm
  | cons e es ih =>
    simp only [Always, ih]
    constructor
    · intro h
      exact ⟨fun s' hs' => ⟨(h s' hs').1.1, (h s' hs').2.1⟩,
        fun s' hs' => ⟨(h s' hs').1.2, (h s' hs').2.2⟩⟩
    · rintro ⟨hP, hQ⟩ s' hs'
      exact ⟨⟨(hP s' hs').1, (hQ s' hs').1⟩, (hP s' hs').2, (hQ s' hs').2⟩

/-- If `P` keeps an invariant and `Q` follows from the two, then `Q` holds along the runs
    that `P` holds along. -/
theorem Always.imp (hPQ : ∀ s e s', I s → m.step s e = some s' → P s e s' → I s' ∧ Q s e s')
    {s : S} {es : List E} (h : I s) (hP : m.Always P s es) : m.Always Q s es := by
  induction es generalizing s with
  | nil => trivial
  | cons e es ih =>
    intro s' hs'
    obtain ⟨hPs, hP⟩ := hP s' hs'
    obtain ⟨h', hQs⟩ := hPQ s e s' h hs' hPs
    exact ⟨hQs, ih h' hP⟩

/-- What the steps with `P` keep, every run with `P` keeps. -/
theorem Always.run_invariant
    (hstep : ∀ s e s', I s → m.step s e = some s' → P s e s' → I s') {s s' : S} {es : List E}
    (hP : m.Always P s es) (h : I s) (hrun : m.run s es = some s') : I s' := by
  induction es generalizing s with
  | nil => exact Option.some.inj hrun ▸ h
  | cons e es ih =>
    obtain ⟨s₁, hs₁, hrun⟩ := run_cons_eq_some.1 hrun
    obtain ⟨hPs, hP⟩ := hP s₁ hs₁
    exact ih hP (hstep s e s₁ h hs₁ hPs) hrun

/-- What holds of every step after every part of a run holds of every step of it. -/
theorem always_of_prefix {s : S} {es : List E}
    (h : ∀ es₁ e es₂ s₁ s₂, es = es₁ ++ e :: es₂ → m.run s es₁ = some s₁ →
      m.step s₁ e = some s₂ → P s₁ e s₂) : m.Always P s es := by
  induction es generalizing s with
  | nil => trivial
  | cons e es ih =>
    intro s' hs'
    refine ⟨h [] e es s s' rfl rfl hs', ih fun es₁ e' es₂ s₁ s₂ hes hrun hstep => ?_⟩
    exact h (e :: es₁) e' es₂ s₁ s₂ (by rw [hes]; rfl) (run_cons_eq_some.2 ⟨s', hs', hrun⟩) hstep

/-- What holds of the steps of the events whatever the states holds of every step of a run
    over them. -/
theorem always_of_forall_mem {s : S} {es : List E} (h : ∀ e ∈ es, ∀ s s', P s e s') :
    m.Always P s es := by
  refine always_of_prefix fun es₁ e es₂ s₁ s₂ hes _ _ => h e ?_ s₁ s₂
  rw [hes]
  exact List.mem_append_right es₁ List.mem_cons_self

/-- What the steps of some events keep, every run over such events keeps. -/
theorem run_invariant_of_forall_mem {P : E → Prop}
    (hstep : ∀ s e s', P e → I s → m.step s e = some s' → I s') {s s' : S} {es : List E}
    (hes : ∀ e ∈ es, P e) (h : I s) (hrun : m.run s es = some s') : I s' := by
  have hP : m.Always (fun _ e _ => P e) s es := always_of_forall_mem fun e he _ _ => hes e he
  exact hP.run_invariant (fun s e s' h hs' he => hstep s e s' he h hs') h hrun

/-- What every step keeps, every run keeps. -/
theorem run_invariant (hstep : ∀ s e s', I s → m.step s e = some s' → I s') {s s' : S}
    {es : List E} (h : I s) (hrun : m.run s es = some s') : I s' :=
  run_invariant_of_forall_mem (P := fun _ => True) (fun s e s' _ => hstep s e s')
    (fun _ _ => trivial) h hrun

/-- What every step keeps of a state and the events up to it, every run keeps. -/
theorem run_history {R : List E → S → Prop}
    (hstep : ∀ es s e s', R es s → m.step s e = some s' → R (es ++ [e]) s') {s s' : S}
    {es : List E} (h : R [] s) (hrun : m.run s es = some s') : R es s' := by
  have hrun' : ∀ (es₁ es₂ : List E) (s₁ : S), R es₁ s₁ → m.run s₁ es₂ = some s' →
      R (es₁ ++ es₂) s' := by
    intro es₁ es₂
    induction es₂ generalizing es₁ with
    | nil =>
      intro s₁ h₁ hrun₁
      cases hrun₁
      rwa [List.append_nil]
    | cons e es₂ ih =>
      intro s₁ h₁ hrun₁
      obtain ⟨s₂, hs₂, hrun₂⟩ := run_cons_eq_some.1 hrun₁
      rw [List.append_cons]
      exact ih (es₁ ++ [e]) s₂ (hstep es₁ s₁ e s₂ h₁ hs₂) hrun₂
  exact hrun' [] es s h hrun

/-- A property of every step of a run is one of every step of its parts. -/
theorem always_append {s : S} {es es' : List E} :
    m.Always P s (es ++ es') ↔
      m.Always P s es ∧ ∀ s₁, m.run s es = some s₁ → m.Always P s₁ es' := by
  induction es generalizing s with
  | nil => simp
  | cons e es ih =>
    simp only [List.cons_append, Always, ih, run_cons_eq_some]
    constructor
    · intro h
      exact ⟨fun s' hs' => ⟨(h s' hs').1, (h s' hs').2.1⟩,
        fun s₁ ⟨s', hs', hrun⟩ => (h s' hs').2.2 s₁ hrun⟩
    · rintro ⟨h, h'⟩ s' hs'
      exact ⟨(h s' hs').1, (h s' hs').2, fun s₁ hrun => h' s₁ ⟨s', hs', hrun⟩⟩

/-- If a step keeps a property of states exactly if it has a property of its own, then a run keeps
    it exactly if every step of it does. -/
theorem always_iff_of_step {Q : S → Prop} (hI : ∀ s e s', I s → m.step s e = some s' → I s')
    (hQ : ∀ s e s', I s → m.step s e = some s' → (Q s' ↔ Q s ∧ P s e s')) {s s' : S} {es : List E}
    (h : I s) (hrun : m.run s es = some s') : Q s' ↔ Q s ∧ m.Always P s es := by
  induction es generalizing s with
  | nil =>
    cases hrun
    exact (and_iff_left (always_nil _)).symm
  | cons e es ih =>
    obtain ⟨s₁, hs₁, hrun⟩ := run_cons_eq_some.1 hrun
    rw [ih (hI s e s₁ h hs₁) hrun, hQ s e s₁ h hs₁, always_cons hs₁, and_assoc]

/-- Every state of a run is one before its last step, or the one after it. -/
theorem forall_prefix_run_append_singleton {Q : S → Prop} {s s₁ s₂ : S} {e : E} {es : List E}
    (hrun : m.run s es = some s₁) (hstep : m.step s₁ e = some s₂) :
    (∀ es', es' <+: es ++ [e] → ∀ s', m.run s es' = some s' → Q s') ↔
      (∀ es', es' <+: es → ∀ s', m.run s es' = some s' → Q s') ∧ Q s₂ := by
  have hrun₂ : m.run s (es ++ [e]) = some s₂ :=
    run_append_eq_some.2 ⟨s₁, hrun, run_cons_eq_some.2 ⟨s₂, hstep, rfl⟩⟩
  constructor
  · intro h
    exact ⟨fun es' hes' => h es' (hes'.trans (List.prefix_append es [e])),
      h _ (List.prefix_refl _) s₂ hrun₂⟩
  · rintro ⟨h, hlast⟩ es' hes' s' hs'
    rcases List.prefix_concat_iff.1 hes' with rfl | hes'
    · rw [hrun₂] at hs'
      cases hs'
      exact hlast
    · exact h es' hes' s' hs'

/-- A property of every step of a run holds of each one of them. -/
theorem Always.of_append {s s₁ s₂ : S} {e : E} {es es' : List E}
    (h : m.Always P s (es ++ e :: es')) (hrun : m.run s es = some s₁)
    (hstep : m.step s₁ e = some s₂) : P s₁ e s₂ :=
  ((always_append.1 h).2 s₁ hrun s₂ hstep).1

end Machine
