import Mathlib.Data.List.Infix
import Mathlib.Tactic.Cases

/-!
# Lists divided by delimiters

A list in which delimiters stand falls into sections, each a delimiter and what follows it up to
the next one (`Delimiter.sections`). Delimiters may be of different lengths, and they are looked for
from the left, so that one found may hide another that overlaps it.

Where two lists meet, a delimiter may stand that is in neither of them. If there is none
(`Delimiter.Separate`), then the sections of the two together are those of the one and those of the
other, provided the second one starts with a delimiter (`Delimiter.sections_append`). Where it has
none, it goes on with the last section of the first one (`Delimiter.sections_append_of_none`).
-/

/-- A kind of delimiter, of symbols `α`. -/
structure Delimiter (α : Type*) where
  /-- How long the delimiter is that the symbols start with, if they start with one. -/
  atHead : List α → Option ℕ
  pos {xs : List α} {n : ℕ} : atHead xs = some n → 0 < n
  le_length {xs : List α} {n : ℕ} : atHead xs = some n → n ≤ xs.length
  atHead_append {xs : List α} {n : ℕ} (ys : List α) :
    atHead xs = some n → atHead (xs ++ ys) = some n

namespace Delimiter

variable {α : Type*} (d : Delimiter α)

/-- Where the first delimiter starts and ends. -/
def find : List α → Option (ℕ × ℕ)
  | [] => none
  | x :: xs =>
    match d.atHead (x :: xs) with
    | some n => some (0, n)
    | none => (find xs).map fun (i, j) => (i + 1, j + 1)

variable {d} {xs a b code : List α} {i j n : ℕ}

@[simp] theorem find_nil : d.find [] = none := rfl

theorem find_cons_of_some {x : α} (h : d.atHead (x :: xs) = some n) :
    d.find (x :: xs) = some (0, n) := by
  rw [find, h]

theorem find_cons_of_none {x : α} (h : d.atHead (x :: xs) = none) :
    d.find (x :: xs) = (d.find xs).map fun (i, j) => (i + 1, j + 1) := by
  rw [find, h]

theorem ne_nil_of_atHead (h : d.atHead xs = some n) : xs ≠ [] := by
  rintro rfl
  exact absurd (d.le_length h) (Nat.not_le.2 (d.pos h))

theorem find_of_atHead (h : d.atHead xs = some n) : d.find xs = some (0, n) := by
  obtain ⟨x, xs, rfl⟩ := List.exists_cons_of_ne_nil (ne_nil_of_atHead h)
  exact find_cons_of_some h

/-- The first delimiter stands at the head, or else it is the first one after it. -/
theorem find_cons_eq_some {x : α} (h : d.find (x :: xs) = some (i, j)) :
    (d.atHead (x :: xs) = some j ∧ i = 0) ∨
      ∃ i' j', d.atHead (x :: xs) = none ∧ d.find xs = some (i', j') ∧ i = i' + 1 ∧ j = j' + 1 := by
  cases hx : d.atHead (x :: xs) with
  | some n =>
    rw [find_cons_of_some hx] at h
    cases h
    exact .inl ⟨rfl, rfl⟩
  | none =>
    rw [find_cons_of_none hx] at h
    obtain ⟨⟨i', j'⟩, hfind, heq⟩ := Option.map_eq_some_iff.1 h
    cases heq
    exact .inr ⟨i', j', rfl, hfind, rfl, rfl⟩

theorem find_bounds (h : d.find xs = some (i, j)) : i < j ∧ j ≤ xs.length := by
  induction xs generalizing i j with
  | nil => cases h
  | cons x xs ih =>
    obtain ⟨hx, rfl⟩ | ⟨i', j', -, hfind, rfl, rfl⟩ := find_cons_eq_some h
    · exact ⟨d.pos hx, d.le_length hx⟩
    · have := ih hfind
      simp only [List.length_cons]
      omega

/-- The first delimiter stands where it was found. -/
theorem atHead_of_find (h : d.find xs = some (i, j)) : d.atHead (xs.drop i) = some (j - i) := by
  induction xs generalizing i j with
  | nil => cases h
  | cons x xs ih =>
    obtain ⟨hx, rfl⟩ | ⟨i', j', -, hfind, rfl, rfl⟩ := find_cons_eq_some h
    · exact hx
    · rw [List.drop_succ_cons, ih hfind, Nat.add_sub_add_right]

/-- There is no delimiter before the first one. -/
theorem find_take (h : d.find xs = some (i, j)) : d.find (xs.take i) = none := by
  induction xs generalizing i j with
  | nil => cases h
  | cons x xs ih =>
    obtain ⟨-, rfl⟩ | ⟨i', j', hx, hfind, rfl, rfl⟩ := find_cons_eq_some h
    · rfl
    · rw [List.take_succ_cons]
      have hx' : d.atHead (x :: xs.take i') = none := by
        -- a delimiter that the part starts with, the whole starts with
        by_contra hne
        obtain ⟨n, hn⟩ := Option.ne_none_iff_exists'.1 hne
        have happend := d.atHead_append (xs.drop i') hn
        rw [List.cons_append, List.take_append_drop, hx] at happend
        cases happend
      rw [find_cons_of_none hx', ih hfind]
      rfl

/-! ## Where two lists meet -/

variable (d) in
/-- No delimiter stands where the lists meet. -/
def Separate (a b : List α) : Prop :=
  ∀ s, s ≠ [] → s <:+ a → d.atHead (s ++ b) = d.atHead s

theorem Separate.of_suffix (h : d.Separate a b) (hxs : xs <:+ a) : d.Separate xs b :=
  fun s hs hsuffix => h s hs (hsuffix.trans hxs)

/-- The first delimiter is that of the first list, or else that of the second one. -/
theorem Separate.find_append (h : d.Separate a b) :
    d.find (a ++ b) =
      (d.find a).or ((d.find b).map fun (i, j) => (a.length + i, a.length + j)) := by
  induction a with
  | nil => simp
  | cons x a ih =>
    have hx := h (x :: a) (List.cons_ne_nil x a) (List.suffix_refl _)
    rw [List.cons_append] at hx ⊢
    cases hhead : d.atHead (x :: a) with
    | some n => rw [find_cons_of_some hhead, find_cons_of_some (hx.trans hhead), Option.some_or]
    | none =>
      rw [find_cons_of_none hhead, find_cons_of_none (hx.trans hhead),
        ih (h.of_suffix (List.suffix_cons x a))]
      rcases d.find a with _ | ⟨i, j⟩
      · rcases d.find b with _ | ⟨i, j⟩
        · rfl
        · simp only [Option.none_or, Option.map_some, Option.map_none, List.length_cons,
            Option.some.injEq, Prod.mk.injEq]
          omega
      · rfl

/-- A delimiter found in the first of two lists is found in the two together. -/
theorem Separate.find_append_of_some (h : d.Separate a b) (hfind : d.find a = some (i, j)) :
    d.find (a ++ b) = some (i, j) := by
  rw [h.find_append, hfind, Option.some_or]

/-- If the first of two lists has no delimiter, the first one is what the second starts with. -/
theorem Separate.find_append_of_atHead (h : d.Separate a b) (ha : d.find a = none)
    (hb : d.atHead b = some n) : d.find (a ++ b) = some (a.length, a.length + n) := by
  rw [h.find_append, ha, find_of_atHead hb]
  rfl

theorem Separate.find_append_of_none (h : d.Separate a b) (ha : d.find a = none)
    (hb : d.find b = none) : d.find (a ++ b) = none := by
  rw [h.find_append, ha, hb]
  rfl

/-! ## Sections -/

variable (d) in
/-- What comes before the first delimiter. -/
def lead (xs : List α) : List α :=
  match d.find xs with
  | none => xs
  | some (i, _) => xs.take i

variable (d) in
/-- The sections, each a delimiter with the symbols up to the next one. What comes before the first
    delimiter is in none. -/
def sections (xs : List α) : List (List α × List α) :=
  match _h : d.find xs with
  | none => []
  | some (i, j) => (xs.extract i j, d.lead (xs.drop j)) :: sections (xs.drop j)
termination_by xs.length
decreasing_by
  have := find_bounds _h
  rw [List.length_drop]
  omega

theorem lead_of_none (h : d.find xs = none) : d.lead xs = xs := by
  rw [lead, h]

theorem lead_of_some (h : d.find xs = some (i, j)) : d.lead xs = xs.take i := by
  rw [lead, h]

theorem sections_of_none (h : d.find xs = none) : d.sections xs = [] := by
  rw [sections]
  split
  · rfl
  · next heq => rw [h] at heq; cases heq

theorem sections_of_some (h : d.find xs = some (i, j)) :
    d.sections xs = (xs.extract i j, d.lead (xs.drop j)) :: d.sections (xs.drop j) := by
  rw [sections]
  split
  · next heq => rw [h] at heq; cases heq
  · next heq =>
    rw [h] at heq
    cases heq
    rfl

/-- The sections of what starts with a delimiter. -/
theorem sections_of_atHead (h : d.atHead xs = some n) :
    d.sections xs = (xs.take n, d.lead (xs.drop n)) :: d.sections (xs.drop n) := by
  rw [sections_of_some (find_of_atHead h), List.extract_eq_take_drop, List.drop_zero, Nat.sub_zero]

theorem find_lead : d.find (d.lead xs) = none := by
  cases h : d.find xs with
  | none => rwa [lead_of_none h]
  | some r =>
    rw [lead_of_some h]
    exact find_take h

/-- A section is the first one of some rest of the list. -/
theorem exists_of_mem_sections {c u : List α} (h : (c, u) ∈ d.sections xs) :
    ∃ ys i j, d.find ys = some (i, j) ∧ c = ys.extract i j ∧ u = d.lead (ys.drop j) := by
  induction hlen : xs.length using Nat.strong_induction_on generalizing xs with
  | _ len ih =>
    cases hfind : d.find xs with
    | none =>
      rw [sections_of_none hfind] at h
      exact absurd h List.not_mem_nil
    | some r =>
      obtain ⟨i, j⟩ := r
      have hbounds := find_bounds hfind
      rw [sections_of_some hfind] at h
      rcases List.mem_cons.1 h with heq | h
      · cases heq
        exact ⟨xs, i, j, hfind, rfl, rfl⟩
      · exact ih (xs.drop j).length (by rw [List.length_drop]; omega) h rfl

/-- There is no delimiter within a section. -/
theorem find_of_mem_sections {c u : List α} (h : (c, u) ∈ d.sections xs) : d.find u = none := by
  obtain ⟨ys, i, j, -, -, rfl⟩ := exists_of_mem_sections h
  exact find_lead

/-- A section starts with a delimiter, which it was told from by what followed. -/
theorem atHead_of_mem_sections {c u : List α} (h : (c, u) ∈ d.sections xs) :
    ∃ ys, d.atHead (c ++ ys) = some c.length := by
  obtain ⟨ys, i, j, hfind, rfl, -⟩ := exists_of_mem_sections h
  have hbounds := find_bounds hfind
  refine ⟨(ys.drop i).drop (j - i), ?_⟩
  rw [List.extract_eq_take_drop, List.take_append_drop, atHead_of_find hfind, List.length_take,
    List.length_drop, Nat.min_eq_left (by omega)]

theorem Separate.lead_append (h : d.Separate a b) (hb : d.atHead b = some n) :
    d.lead (a ++ b) = d.lead a := by
  cases ha : d.find a with
  | none => rw [lead_of_some (h.find_append_of_atHead ha hb), lead_of_none ha, List.take_left]
  | some r =>
    obtain ⟨i, j⟩ := r
    have hbounds := find_bounds ha
    rw [lead_of_some (h.find_append_of_some ha), lead_of_some ha,
      List.take_append_of_le_length (by omega)]

/-- What is cut out of the first of two lists is cut out of the two together. -/
theorem extract_append_left (hj : j ≤ a.length) : (a ++ b).extract i j = a.extract i j := by
  simp only [List.extract_eq_take_drop, ← List.drop_take, List.take_append_of_le_length hj]

/-- The sections of two lists, the second one starting with a delimiter. -/
theorem Separate.sections_append (h : d.Separate a b) (hb : d.atHead b = some n) :
    d.sections (a ++ b) = d.sections a ++ d.sections b := by
  induction hlen : a.length using Nat.strong_induction_on generalizing a with
  | _ len ih =>
    cases ha : d.find a with
    | none =>
      -- the next delimiter is the one the second list starts with
      have hdrop : (a ++ b).drop (a.length + n) = b.drop n := by
        rw [← List.drop_drop, List.drop_left]
      rw [sections_of_some (h.find_append_of_atHead ha hb), sections_of_none ha,
        sections_of_atHead hb, hdrop, List.extract_eq_take_drop, List.drop_left,
        Nat.add_sub_cancel_left, List.nil_append]
    | some r =>
      obtain ⟨i, j⟩ := r
      have hbounds := find_bounds ha
      have hrest := h.of_suffix (List.drop_suffix j a)
      rw [sections_of_some (h.find_append_of_some ha), sections_of_some ha,
        extract_append_left hbounds.2, List.drop_append_of_le_length hbounds.2,
        hrest.lead_append hb,
        ih (a.drop j).length (by rw [List.length_drop]; omega) hrest rfl, List.cons_append]

/-- A list without delimiters goes on with the last section of the list before it. -/
theorem Separate.sections_append_of_none (h : d.Separate a b) (ha : d.find a = some (i, j))
    (hb : d.find b = none) :
    ∃ front c u, d.sections a = front ++ [(c, u)] ∧
      d.sections (a ++ b) = front ++ [(c, u ++ b)] := by
  induction hlen : a.length using Nat.strong_induction_on generalizing a i j with
  | _ len ih =>
    have hbounds := find_bounds ha
    have hrest := h.of_suffix (List.drop_suffix j a)
    rw [sections_of_some (h.find_append_of_some ha), sections_of_some ha,
      extract_append_left hbounds.2, List.drop_append_of_le_length hbounds.2]
    cases hnext : d.find (a.drop j) with
    | none =>
      -- the section is the last one
      have hnext' := hrest.find_append_of_none hnext hb
      rw [sections_of_none hnext, sections_of_none hnext', lead_of_none hnext, lead_of_none hnext']
      exact ⟨[], _, _, rfl, rfl⟩
    | some r =>
      obtain ⟨i', j'⟩ := r
      have hbounds' := find_bounds hnext
      obtain ⟨front, c, u, hsections, hsections'⟩ :=
        ih (a.drop j).length (by rw [List.length_drop]; omega) hrest hnext rfl
      rw [hsections, hsections', lead_of_some hnext,
        lead_of_some (hrest.find_append_of_some hnext), List.take_append_of_le_length (by omega)]
      exact ⟨_ :: front, c, u, rfl, rfl⟩

end Delimiter
