import Mathlib.Data.List.Basic
import Mathlib.Logic.Function.Basic
import Mathlib.Tactic.Cases

/-!
# Counters in custody

Counters are held, each by one holder at a time. Who holds a counter may draw its next
value from it, may skip values, and may pass it on or give it up (`Custody`).

`Custody.Inv` is kept by all of that, so the values drawn from a counter are strictly
increasing, through however many hands it goes: what a holder knows is that every value
drawn so far is below its next one, and that nobody else draws from the counter.
-/

/-- The counter every holder holds, with its next value, and the values drawn from every
    counter, in order. -/
structure Custody (H N : Type*) where
  held : H → Option (N × ℕ)
  drawn : N → List ℕ

namespace Custody

variable {H N : Type*} [DecidableEq H]

/-- A holder from now on holds the counter at its next value, or nothing, instead of what
    it held. -/
def put (c : Custody H N) (h : H) (counter : Option (N × ℕ)) : Custody H N :=
  { c with held := Function.update c.held h counter }

/-- A value is drawn from a counter. -/
def draw [DecidableEq N] (c : Custody H N) (n : N) (k : ℕ) : Custody H N :=
  { c with drawn := Function.update c.drawn n (c.drawn n ++ [k]) }

/-- Every counter is held once, beyond all values drawn from it, and these are increasing. -/
structure Inv (c : Custody H N) : Prop where
  unique {h h' : H} {n : N} {k k' : ℕ} :
    c.held h = some (n, k) → c.held h' = some (n, k') → h = h'
  below {h : H} {n : N} {k : ℕ} : c.held h = some (n, k) → ∀ j ∈ c.drawn n, j < k
  sorted (n : N) : (c.drawn n).Pairwise (· < ·)

variable {c : Custody H N} {h h' : H} {n : N} {k k' : ℕ}

theorem held_put_self (counter : Option (N × ℕ)) : (c.put h counter).held h = counter :=
  Function.update_self ..

theorem held_put_of_ne (hne : h' ≠ h) (counter : Option (N × ℕ)) :
    (c.put h counter).held h' = c.held h' :=
  Function.update_of_ne hne ..

/-- A holder holds what was put there, or what it held before. -/
theorem held_put_eq_some {counter : Option (N × ℕ)} {x : N × ℕ}
    (e : (c.put h counter).held h' = some x) :
    h' = h ∧ counter = some x ∨ h' ≠ h ∧ c.held h' = some x := by
  by_cases hh : h' = h
  · rw [hh, held_put_self] at e
    exact .inl ⟨hh, e⟩
  · rw [held_put_of_ne hh] at e
    exact .inr ⟨hh, e⟩

theorem held_put_ne {x : N × ℕ} {counter : Option (N × ℕ)} (hc : ∀ h', c.held h' ≠ some x)
    (hcounter : counter ≠ some x) (h' : H) : (c.put h counter).held h' ≠ some x := by
  intro e
  obtain ⟨-, e⟩ | ⟨-, e⟩ := held_put_eq_some e
  · exact hcounter e
  · exact hc h' e

@[simp] theorem put_put (counter counter' : Option (N × ℕ)) :
    (c.put h counter).put h counter' = c.put h counter' := by
  simp [put]

/-- Putting what a holder holds changes nothing. -/
theorem put_eq_self {counter : Option (N × ℕ)} (hheld : c.held h = counter) :
    c.put h counter = c := by
  rw [put, ← hheld, Function.update_eq_self]

/-- A counter may be given up. -/
theorem Inv.release (hc : c.Inv) (h : H) : (c.put h none).Inv where
  unique e₁ e₂ := by
    obtain ⟨-, e⟩ | ⟨-, e₁⟩ := held_put_eq_some e₁
    · cases e
    · obtain ⟨-, e⟩ | ⟨-, e₂⟩ := held_put_eq_some e₂
      · cases e
      · exact hc.unique e₁ e₂
  below e₁ := by
    obtain ⟨-, e⟩ | ⟨-, e₁⟩ := held_put_eq_some e₁
    · cases e
    · exact hc.below e₁
  sorted := hc.sorted

/-- A counter that nobody holds may be taken, beyond the values drawn from it. -/
theorem Inv.take (hc : c.Inv) (h : H) (hfree : ∀ h' k', c.held h' ≠ some (n, k'))
    (hk : ∀ j ∈ c.drawn n, j < k) : (c.put h (some (n, k))).Inv where
  unique e₁ e₂ := by
    -- if one of the two is the new holder, the other one had the counter before, which was free
    obtain ⟨h₁h, e⟩ | ⟨-, e₁⟩ := held_put_eq_some e₁ <;>
      obtain ⟨h₂h, e'⟩ | ⟨-, e₂⟩ := held_put_eq_some e₂
    · exact h₁h.trans h₂h.symm
    · cases e
      exact absurd e₂ (hfree _ _)
    · cases e'
      exact absurd e₁ (hfree _ _)
    · exact hc.unique e₁ e₂
  below e₁ := by
    obtain ⟨-, e⟩ | ⟨-, e₁⟩ := held_put_eq_some e₁
    · cases e
      exact hk
    · exact hc.below e₁
  sorted := hc.sorted

/-- A counter given up is held by nobody. -/
theorem Inv.free_of_release (hc : c.Inv) (hheld : c.held h = some (n, k)) (h' : H) (k' : ℕ) :
    (c.put h none).held h' ≠ some (n, k') := by
  intro e
  obtain ⟨-, e⟩ | ⟨hh, e⟩ := held_put_eq_some e
  · cases e
  · exact hh (hc.unique e hheld)

/-- A counter may be passed on, at its next value or a later one. -/
theorem Inv.pass (hc : c.Inv) (hheld : c.held h = some (n, k)) (h' : H) (hk : k ≤ k') :
    ((c.put h none).put h' (some (n, k'))).Inv :=
  (hc.release h).take h' (hc.free_of_release hheld) fun j hj =>
    Nat.lt_of_lt_of_le (hc.below hheld j hj) hk

/-- Values of a counter may be skipped. -/
theorem Inv.skip (hc : c.Inv) (hheld : c.held h = some (n, k)) (hk : k ≤ k') :
    (c.put h (some (n, k'))).Inv := by
  simpa using hc.pass hheld h hk

/-- The next value of a counter may be drawn. -/
theorem Inv.draw [DecidableEq N] (hc : c.Inv) (hheld : c.held h = some (n, k)) :
    ((c.draw n k).put h (some (n, k + 1))).Inv := by
  have hdrawn (n' : N) (hn : n' ≠ n) : (c.draw n k).drawn n' = c.drawn n' :=
    Function.update_of_ne hn ..
  have hself : (c.draw n k).drawn n = c.drawn n ++ [k] := Function.update_self ..
  refine ⟨(hc.skip hheld (Nat.le_succ k)).unique, fun {h₁ n₁ k₁} e₁ => ?_, fun n' => ?_⟩
  · obtain ⟨-, e⟩ | ⟨h₁h, e₁⟩ := held_put_eq_some e₁
    · -- the value drawn is the one the counter has moved past
      cases e
      intro j hj
      rcases List.mem_append.1 (hself ▸ hj) with hj | hj
      · exact Nat.lt_succ_of_lt (hc.below hheld j hj)
      · exact List.mem_singleton.1 hj ▸ Nat.lt_succ_self j
    · -- another holder holds another counter
      have hn : n₁ ≠ n := fun hn => h₁h (hc.unique (hn ▸ e₁) hheld)
      exact (hdrawn n₁ hn).symm ▸ hc.below e₁
  · by_cases hn : n' = n
    · subst hn
      refine hself.symm ▸ List.pairwise_append.2 ⟨hc.sorted n', List.pairwise_singleton .., ?_⟩
      intro j hj l hl
      rw [List.mem_singleton.1 hl]
      exact hc.below hheld j hj
    · exact (hdrawn n' hn).symm ▸ hc.sorted n'

end Custody
