import Mathlib.Data.List.Forall2
import Sardp.Library.Contents

/-!
# Items after their lengths

Items stand one after the other, each after a head of `n` symbols that tells its length
(`lengthPrefixed`). There is no item without symbols: a length of zero is an error.

So what the symbols contain is the items that have been written (`contents_lengthPrefixed`), up to
where they go wrong, and none of them is empty (`ne_nil_of_mem_contents`).
-/

namespace Framing

variable {α : Type*}

/-- The first item, after a head of `n` symbols that tells its length. -/
def decodeItem (n : ℕ) (lengthOf : List α → ℕ) (b : List α) : Except Unit (Option (List α × ℕ)) :=
  if b.length < n then .ok none
  else if lengthOf (b.take n) = 0 then .error ()
  else if b.length < n + lengthOf (b.take n) then .ok none
  else .ok (some ((b.drop n).take (lengthOf (b.take n)), n + lengthOf (b.take n)))

variable {n : ℕ} {lengthOf : List α → ℕ} {b head item : List α} {k : ℕ} {e : Unit}

/-- An item is decoded from where its head stands, and takes as many symbols as that tells. -/
theorem decodeItem_eq_some : decodeItem n lengthOf b = .ok (some (item, k)) ↔
    n ≤ b.length ∧ lengthOf (b.take n) ≠ 0 ∧ n + lengthOf (b.take n) ≤ b.length ∧
      item = (b.drop n).take (lengthOf (b.take n)) ∧ k = n + lengthOf (b.take n) := by
  rw [decodeItem]
  split_ifs with hn hzero hlength
  · simp [Nat.not_le.2 hn]
  · simp [hzero]
  · simp [Nat.not_le.2 hlength]
  · simp [Nat.not_lt.1 hn, hzero, Nat.not_lt.1 hlength, eq_comm]

theorem decodeItem_eq_error :
    decodeItem n lengthOf b = .error e ↔ n ≤ b.length ∧ lengthOf (b.take n) = 0 := by
  rw [decodeItem]
  split_ifs with hn hzero hlength
  · simp [Nat.not_le.2 hn]
  · simp [Nat.not_lt.1 hn, hzero]
  · simp [hzero]
  · simp [hzero]

theorem decodeItem_le (h : decodeItem n lengthOf b = .ok (some (item, k))) : k ≤ b.length := by
  obtain ⟨-, -, hlength, -, rfl⟩ := decodeItem_eq_some.1 h
  exact hlength

theorem decodeItem_append (s : List α) (h : decodeItem n lengthOf b = .ok (some (item, k))) :
    decodeItem n lengthOf (b ++ s) = .ok (some (item, k)) := by
  obtain ⟨hn, hzero, hlength, rfl, rfl⟩ := decodeItem_eq_some.1 h
  have hdrop : lengthOf (b.take n) ≤ (b.drop n).length := by
    rw [List.length_drop]
    omega
  refine decodeItem_eq_some.2 ?_
  rw [List.take_append_of_le_length hn, List.drop_append_of_le_length hn,
    List.take_append_of_le_length hdrop, List.length_append]
  exact ⟨Nat.le_add_right_of_le hn, hzero, Nat.le_add_right_of_le hlength, rfl, rfl⟩

theorem decodeItem_error_append (s : List α) (h : decodeItem n lengthOf b = .error e) :
    decodeItem n lengthOf (b ++ s) = .error e := by
  obtain ⟨hn, hzero⟩ := decodeItem_eq_error.1 h
  refine decodeItem_eq_error.2 ?_
  rw [List.take_append_of_le_length hn, List.length_append]
  exact ⟨Nat.le_add_right_of_le hn, hzero⟩

/-- Items after heads of `n` symbols, which tell their lengths. -/
def lengthPrefixed (n : ℕ) (lengthOf : List α → ℕ) : Decoder α (List α) Unit where
  decode := decodeItem n lengthOf
  le_length := decodeItem_le
  frame_append := decodeItem_append
  error_append := decodeItem_error_append

theorem progressive_lengthPrefixed (n : ℕ) (lengthOf : List α → ℕ) :
    (lengthPrefixed n lengthOf).Progressive := by
  intro b item k h
  obtain ⟨-, hzero, -, -, rfl⟩ := decodeItem_eq_some.1 h
  omega

/-- Where a head is missing, or tells nothing, or too much, there is no other item. -/
theorem contents_lengthPrefixed_eq_nil
    (h : b.length < n ∨ lengthOf (b.take n) = 0 ∨ b.length < n + lengthOf (b.take n)) :
    (contents (lengthPrefixed n lengthOf) (progressive_lengthPrefixed n lengthOf) b).1 = [] := by
  cases hdecode : (lengthPrefixed n lengthOf).decode b with
  | error e => rw [contents_of_error hdecode]
  | ok result =>
    cases result with
    | none => rw [contents_of_none hdecode]
    | some itemK =>
      obtain ⟨hn, hzero, hlength, -, -⟩ := decodeItem_eq_some.1 hdecode
      omega

/-- An item, and those after it. -/
theorem contents_lengthPrefixed_cons (hn : n ≤ b.length) (hzero : lengthOf (b.take n) ≠ 0)
    (hlength : n + lengthOf (b.take n) ≤ b.length) :
    (contents (lengthPrefixed n lengthOf) (progressive_lengthPrefixed n lengthOf) b).1 =
      (b.drop n).take (lengthOf (b.take n)) ::
        (contents (lengthPrefixed n lengthOf) (progressive_lengthPrefixed n lengthOf)
          (b.drop (n + lengthOf (b.take n)))).1 := by
  rw [contents_of_frame (decodeItem_eq_some.2 ⟨hn, hzero, hlength, rfl, rfl⟩)]

/-- An item after its head. -/
theorem encodes_lengthPrefixed (hhead : head.length = n) (hlength : lengthOf head = item.length)
    (hne : item ≠ []) : (lengthPrefixed n lengthOf).Encodes item (head ++ item) := by
  subst hhead
  have hpos := List.length_pos_of_ne_nil hne
  refine decodeItem_eq_some.2 ?_
  rw [List.take_left, hlength, List.drop_left, List.take_length, List.length_append]
  exact ⟨Nat.le_add_right _ _, Nat.ne_of_gt hpos, Nat.le_refl _, rfl, rfl⟩

/-- The items that have been written are those that are read. -/
theorem contents_lengthPrefixed {items : List (List α)} {headOf : ℕ → List α}
    (hhead : ∀ item ∈ items, (headOf item.length).length = n ∧
      lengthOf (headOf item.length) = item.length ∧ item ≠ []) :
    (contents (lengthPrefixed n lengthOf) (progressive_lengthPrefixed n lengthOf)
      (items.flatMap fun item => headOf item.length ++ item)).1 = items := by
  refine contents_of_encodes (progressive_lengthPrefixed n lengthOf) ?_
  rw [List.forall₂_map_right_iff]
  refine List.forall₂_same.2 fun item hitem => ?_
  obtain ⟨hn, hlength, hne⟩ := hhead item hitem
  exact encodes_lengthPrefixed hn hlength hne

theorem ne_nil_of_mem_contents
    (h : item ∈ (contents (lengthPrefixed n lengthOf) (progressive_lengthPrefixed n lengthOf) b).1) :
    item ≠ [] := by
  obtain ⟨rest, hrest⟩ :=
    exists_consumes_contents (progressive_lengthPrefixed n lengthOf) b
  generalize (contents (lengthPrefixed n lengthOf)
    (progressive_lengthPrefixed n lengthOf) b).1 = items at h hrest
  induction hrest with
  | nil b => cases h
  | @cons b rest item' k items hdecode _ ih =>
    obtain rfl | h := List.mem_cons.1 h
    · obtain ⟨hn, hzero, hlength, rfl, -⟩ := decodeItem_eq_some.1 hdecode
      refine List.ne_nil_of_length_pos ?_
      rw [List.length_take, List.length_drop]
      omega
    · exact ih h

end Framing
