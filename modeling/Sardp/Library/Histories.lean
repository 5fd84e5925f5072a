import Mathlib.Data.List.Induction
import Mathlib.Tactic.Cases

/-!
# Histories

What holds after every part of a history can be settled event by event
(`Histories.forall_prefix_iff`). A part of a state may depend on some of the events alone
(`Histories.part_foldl`), or tell whether something has begun that has not ended since
(`Histories.Since`).

Some events of a history signal that a key goes down or up, each to one key or to many. A key
is down after a history if the last signal to it says so (`Histories.Down`); releasing a list of
keys releases exactly these (`Histories.last_map`). Where one history is made from another,
and not every signal has an effect, the keys released in one are up in the other exactly as long as
releasing a key that is down always has one (`Histories.up_iff_effective`).
-/

namespace Histories

variable {E K : Type*}

/-- If a property that holds after a history goes on to hold exactly if the next event meets a
    condition, then it holds after every part of a history exactly if every event of it does. -/
theorem forall_prefix_iff {P : List E → Prop} {C : List E → E → Prop} (hnil : P [])
    (hstep : ∀ es e, P es → (P (es ++ [e]) ↔ C es e)) {es : List E} :
    (∀ es', es' <+: es → P es') ↔ ∀ es' e, es' ++ [e] <+: es → C es' e := by
  constructor
  · intro h es' e hprefix
    exact (hstep es' e (h es' ((List.prefix_append ..).trans hprefix))).1 (h _ hprefix)
  · intro h es'
    induction es' using List.reverseRecOn with
    | nil => exact fun _ => hnil
    | append_singleton es' e ih =>
      intro hprefix
      exact (hstep es' e (ih ((List.prefix_append ..).trans hprefix))).2 (h es' e hprefix)

/-! ## Parts of a state -/

section Parts

variable {S I O : Type*} {step : S → E → S} {event : E → Option O} {move : I → O → I}

/-- A part of a state that every event moves by an event of its own, or leaves, depends on those
    events alone. -/
theorem part_foldl (part : S → I)
    (h : ∀ s e, part (step s e) = (event e).elim (part s) (move (part s))) (s : S) (es : List E) :
    part (es.foldl step s) = (es.filterMap event).foldl move (part s) := by
  induction es generalizing s with
  | nil => rfl
  | cons e es ih =>
    rw [List.foldl_cons, ih, h, List.filterMap_cons]
    cases event e <;> rfl

end Parts

/-! ## What has begun and not ended -/

section Since

variable {starts : List E → E → Prop} {ends : E → Prop} {es : List E} {e : E}

/-- Some event of the history has begun something, and none since has ended it. -/
def Since (starts : List E → E → Prop) (ends : E → Prop) (es : List E) : Prop :=
  ∃ before e after, es = before ++ e :: after ∧ starts before e ∧ ∀ e' ∈ after, ¬ends e'

theorem not_since_nil : ¬Since starts ends [] := by
  rintro ⟨before, e, after, heq, -⟩
  simp at heq

/-- An event begins it anew, or it goes on. -/
theorem since_append_singleton :
    Since starts ends (es ++ [e]) ↔ starts es e ∨ Since starts ends es ∧ ¬ends e := by
  constructor
  · rintro ⟨before, e', after, heq, hstarts, hafter⟩
    rcases List.eq_nil_or_concat after with rfl | ⟨after, last, rfl⟩
    · obtain ⟨rfl, hlast⟩ := List.append_inj' heq rfl
      obtain rfl : e = e' := List.singleton_inj.1 hlast
      exact .inl hstarts
    · rw [List.concat_eq_append] at heq hafter
      have heq' : es ++ [e] = (before ++ e' :: after) ++ [last] := by simpa using heq
      obtain ⟨rfl, hlast⟩ := List.append_inj' heq' rfl
      obtain rfl : e = last := List.singleton_inj.1 hlast
      refine .inr ⟨⟨before, e', after, rfl, hstarts, fun e'' he'' => ?_⟩, ?_⟩
      · exact hafter e'' (List.mem_append_left _ he'')
      · exact hafter e (List.mem_append_right _ (List.mem_singleton_self e))
  · rintro (hstarts | ⟨⟨before, e', after, rfl, hstarts, hafter⟩, hends⟩)
    · exact ⟨es, e, [], rfl, hstarts, nofun⟩
    · refine ⟨before, e', after ++ [e], by simp, hstarts, fun e'' he'' => ?_⟩
      rcases List.mem_append.1 he'' with he'' | he''
      · exact hafter e'' he''
      · rwa [List.mem_singleton.1 he'']

end Since

/-! ## Keys -/

section Keys

variable (signal : E → K → Option Bool)

/-- The last signal to a key, if there is one: whether it goes down. -/
def last (es : List E) (k : K) : Option Bool := (es.filterMap (signal · k)).getLast?

/-- The last signal to the key is that it goes down. -/
def Down (es : List E) (k : K) : Prop := last signal es k = some true

instance (es : List E) (k : K) : Decidable (Down signal es k) :=
  inferInstanceAs (Decidable (last signal es k = some true))

variable {signal} {es es' : List E} {e : E} {k : K}

@[simp] theorem last_nil : last signal [] k = none := rfl

@[simp] theorem last_append :
    last signal (es ++ es') k = (last signal es' k).or (last signal es k) := by
  rw [last, List.filterMap_append, List.getLast?_append]
  rfl

@[simp] theorem last_cons :
    last signal (e :: es) k = (last signal es k).or (signal e k) := by
  have hsingle : last signal [e] k = signal e k := by
    rw [last, List.filterMap_cons]
    cases signal e k <;> rfl
  rw [← List.singleton_append, last_append, hsingle]

@[simp] theorem not_down_nil : ¬Down signal [] k := nofun

/-- A key that is not down, but has been signalled to, has last been released. -/
theorem last_eq_some_false (h : ¬Down signal es k) (hsignal : ∃ e ∈ es, signal e k ≠ none) :
    last signal es k = some false := by
  obtain ⟨e, he, hne⟩ := hsignal
  obtain ⟨down, hdown⟩ := Option.ne_none_iff_exists'.1 hne
  cases hlast : last signal es k with
  | none =>
    have hnil := List.getLast?_eq_none_iff.1 hlast
    have hmem : down ∈ es.filterMap (signal · k) := List.mem_filterMap.2 ⟨e, he, hdown⟩
    rw [hnil] at hmem
    cases hmem
  | some down' =>
    cases down' with
    | false => rfl
    | true => exact absurd hlast h

/-- Releasing a list of keys releases exactly these. -/
theorem last_map [DecidableEq K] {release : K → E} {ks : List K}
    (hself : ∀ k, signal (release k) k = some false)
    (hne : ∀ k k', k' ≠ k → signal (release k) k' = none) :
    last signal (ks.map release) k = if k ∈ ks then some false else none := by
  induction ks with
  | nil => rfl
  | cons k' ks ih =>
    rw [List.map_cons, last_cons, ih]
    by_cases hk : k = k'
    · subst hk
      simp only [hself, List.mem_cons_self, if_true]
      split_ifs <;> rfl
    · simp [hne k' k hk, hk]

end Keys

/-! ## Signals and their effects -/

variable {O : Type*} {signal : E → K → Option Bool} {signal' : O → K → Option Bool}
  (out : List E → List O) (effect : List E → E → K → Option Bool)

/-- If nothing goes down but what is signalled to, then the keys last released are up after every
    part of a history exactly if releasing a key that is down always has an effect. -/
theorem up_iff_effective
    (hout : ∀ es e k,
      last signal' (out (es ++ [e])) k = (effect es e k).or (last signal' (out es) k))
    (heffect : ∀ es e k, effect es e k = some true → signal e k = some true) {es : List E} :
    (∀ es', es' <+: es → ∀ k, last signal es' k = some false → ¬Down signal' (out es') k) ↔
      ∀ es' e, es' ++ [e] <+: es → ∀ k, Down signal' (out es') k → signal e k = some false →
        effect es' e k ≠ none := by
  refine forall_prefix_iff (P := fun es => ∀ k, last signal es k = some false →
    ¬Down signal' (out es) k) (fun k hlast => by cases hlast) (fun es e hup => ?_)
  refine ⟨fun hup' k hdown hsignal hnone => ?_, fun heff k hlast hdown' => ?_⟩
  · refine hup' k ?_ ?_
    · rw [last_append, last_cons, last_nil, Option.none_or, hsignal, Option.some_or]
    · rw [Down, hout, hnone, Option.none_or]
      exact hdown
  · rw [last_append, last_cons, last_nil, Option.none_or, Option.or_eq_some_iff] at hlast
    rw [Down, hout, Option.or_eq_some_iff] at hdown'
    rcases hdown' with htrue | ⟨hnone, hdown⟩
    · -- the key goes down, and is not released
      have hsignal := heffect es e k htrue
      rw [hsignal] at hlast
      simp at hlast
    · rcases hlast with hsignal | ⟨-, hlast⟩
      · exact heff k hdown hsignal hnone
      · exact hup k hlast hdown

end Histories
