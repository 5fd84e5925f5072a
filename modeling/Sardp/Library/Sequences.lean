import Mathlib.Data.Nat.Find
import Mathlib.Tactic.Cases

/-!
# What a filter makes of a sequence

A filter takes the items of a sequence one by one and gives an output for each, with a state in
between (`Transducer`). What it gives at an item depends on those before it, often on the last one
of some kind (`Sequences.none_or_last`), on the first one since (`Sequences.exists_first`), or on
how long something has been the case without a break (`Sequences.Streak`).
-/

/-- A filter of items `I` with outputs `O` and states `S`. -/
structure Transducer (S I O : Type*) where
  step : S → I → O × S

namespace Transducer

variable {S I O : Type*} (t : Transducer S I O)

/-- The state before the `n`-th item. -/
def state (s : S) (xs : ℕ → I) : ℕ → S
  | 0 => s
  | n + 1 => (t.step (state s xs n) (xs n)).2

/-- The output at the `n`-th item. -/
def output (s : S) (xs : ℕ → I) (n : ℕ) : O := (t.step (t.state s xs n) (xs n)).1

@[simp] theorem state_zero (s : S) (xs : ℕ → I) : t.state s xs 0 = s := rfl

theorem state_succ (s : S) (xs : ℕ → I) (n : ℕ) :
    t.state s xs (n + 1) = (t.step (t.state s xs n) (xs n)).2 := rfl

end Transducer

namespace Sequences

variable {P : ℕ → Prop} {e f f' m n : ℕ}

/-- Of the items before the `n`-th one, none is of a kind, or there is a last one. -/
theorem none_or_last (P : ℕ → Prop) (n : ℕ) :
    (∀ j < n, ¬P j) ∨ ∃ j < n, P j ∧ ∀ k, j < k → k < n → ¬P k := by
  induction n with
  | zero => exact .inl nofun
  | succ n ih =>
    by_cases hn : P n
    · exact .inr ⟨n, Nat.lt_succ_self n, hn, fun k hk hk' => by omega⟩
    · rcases ih with hnone | ⟨j, hj, hPj, hlast⟩
      · refine .inl fun j hj => ?_
        rcases Nat.lt_succ_iff_lt_or_eq.1 hj with hj | rfl
        · exact hnone j hj
        · exact hn
      · refine .inr ⟨j, Nat.lt_succ_of_lt hj, hPj, fun k hk hk' => ?_⟩
        rcases Nat.lt_succ_iff_lt_or_eq.1 hk' with hk' | rfl
        · exact hlast k hk hk'
        · exact hn

/-- If there is an item of a kind after the `m`-th one, there is a first one. -/
theorem exists_first (h : ∃ j, m < j ∧ j < n ∧ P j) :
    ∃ j, m < j ∧ j < n ∧ P j ∧ ∀ k, m < k → k < j → ¬P k := by
  classical
  have hex : ∃ j, m < j ∧ P j := h.imp fun j hj => ⟨hj.1, hj.2.2⟩
  obtain ⟨j, hmj, hjn, hPj⟩ := h
  have hmin : Nat.find hex ≤ j := Nat.find_min' hex ⟨hmj, hPj⟩
  exact ⟨Nat.find hex, (Nat.find_spec hex).1, Nat.lt_of_le_of_lt hmin hjn, (Nat.find_spec hex).2,
    fun k hmk hk hPk => Nat.find_min hex hk ⟨hmk, hPk⟩⟩

/-! ## Streaks -/

/-- After the `e`-th item, the items from the `f`-th one to the one before the `n`-th are of a kind,
    and none right before them is. -/
structure Streak (P : ℕ → Prop) (e f n : ℕ) : Prop where
  after : e < f
  nonempty : f < n
  holds (k : ℕ) : f ≤ k → k < n → P k
  maximal : f = e + 1 ∨ ¬P (f - 1)

/-- A streak starts with an item that follows none of its kind. -/
theorem streak_single (hen : e < n) (hn : P n) (hbefore : n = e + 1 ∨ ¬P (n - 1)) :
    Streak P e n (n + 1) where
  after := hen
  nonempty := Nat.lt_succ_self n
  holds k hk hk' := by
    obtain rfl : n = k := Nat.le_antisymm hk (Nat.le_of_lt_succ hk')
    exact hn
  maximal := hbefore

/-- A streak goes on. -/
theorem Streak.succ (h : Streak P e f n) (hn : P n) : Streak P e f (n + 1) where
  after := h.after
  nonempty := Nat.lt_succ_of_lt h.nonempty
  holds k hk hk' := by
    rcases Nat.lt_succ_iff_lt_or_eq.1 hk' with hk' | rfl
    · exact h.holds k hk hk'
    · exact hn
  maximal := h.maximal

/-- The last item of a streak is of the kind. -/
theorem Streak.last (h : Streak P e f (n + 1)) : P n :=
  h.holds n (Nat.le_of_lt_succ h.nonempty) (Nat.lt_succ_self n)

theorem Streak.le (h : Streak P e f n) (h' : Streak P e f' n) : f ≤ f' := by
  by_contra hlt
  -- the one that starts later has the item before its first one in the other
  rcases h.maximal with heq | hbefore
  · have := h'.after
    omega
  · have := h.nonempty
    exact hbefore (h'.holds (f - 1) (by omega) (by omega))

/-- There is one streak that comes up to an item. -/
theorem Streak.unique (h : Streak P e f n) (h' : Streak P e f' n) : f = f' :=
  Nat.le_antisymm (h.le h') (h'.le h)

end Sequences
