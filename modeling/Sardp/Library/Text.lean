import Mathlib.Algebra.GroupWithZero.Nat
import Mathlib.Data.List.Basic

/-!
# Text

A text is a sequence of characters whose length is counted in bytes (of UTF-8). Positions are bytes
as well, and it can only be cut at those between two characters (`splitAtByte_eq_some_iff`).

Its lines end with a line feed, which a carriage return may precede. A line is read back as it was
written exactly if it has no line feed and no carriage return at its end (`head?_lines_iff`).
-/

namespace Text

/-- The length in bytes. -/
def byteLen (cs : List Char) : ℕ := (cs.map Char.utf8Size).sum

/-- What comes before a position in bytes and what comes after it; `none` if that is within a
    character, or behind the end. -/
def splitAtByte : List Char → ℕ → Option (List Char × List Char)
  | cs, 0 => some ([], cs)
  | [], _ + 1 => none
  | c :: cs, n + 1 =>
    if c.utf8Size ≤ n + 1 then
      (splitAtByte cs (n + 1 - c.utf8Size)).map fun (l, r) => (c :: l, r)
    else none

/-- The text between two positions. -/
def slice (cs : List Char) (start stop : ℕ) : Option (List Char) :=
  if start ≤ stop then
    (splitAtByte cs start).bind fun (_, rest) => (splitAtByte rest (stop - start)).map Prod.fst
  else none

/-- The characters of a text, each with the byte it starts at, counted from some byte. -/
def charIndices : List Char → ℕ → List (ℕ × Char)
  | [], _ => []
  | c :: cs, i => (i, c) :: charIndices cs (i + c.utf8Size)

variable {cs l r : List Char} {m n : ℕ}

@[simp] theorem byteLen_nil : byteLen [] = 0 := rfl

@[simp] theorem byteLen_cons (c : Char) (cs : List Char) :
    byteLen (c :: cs) = c.utf8Size + byteLen cs := List.sum_cons

theorem byteLen_singleton (c : Char) : byteLen [c] = c.utf8Size := rfl

@[simp] theorem byteLen_append (l r : List Char) : byteLen (l ++ r) = byteLen l + byteLen r := by
  rw [byteLen, List.map_append, List.sum_append]
  rfl

/-- A text is cut where its first part ends. -/
theorem splitAtByte_eq_some_iff : splitAtByte cs n = some (l, r) ↔ cs = l ++ r ∧ byteLen l = n := by
  fun_induction splitAtByte cs n generalizing l with
  | case1 cs =>
    constructor
    · intro h
      cases h
      exact ⟨rfl, rfl⟩
    · rintro ⟨rfl, hlen⟩
      cases l with
      | nil => rfl
      | cons c l => exact absurd hlen (by have := c.utf8Size_pos; rw [byteLen_cons]; omega)
  | case2 n =>
    refine iff_of_false nofun ?_
    rintro ⟨hnil, hlen⟩
    rw [(List.append_eq_nil_iff.1 hnil.symm).1] at hlen
    exact absurd hlen (Nat.succ_ne_zero n).symm
  | case3 c cs n hle ih =>
    rw [Option.map_eq_some_iff]
    constructor
    · rintro ⟨⟨l, r⟩, h, heq⟩
      cases heq
      obtain ⟨rfl, hlen⟩ := ih.1 h
      exact ⟨rfl, by rw [byteLen_cons]; omega⟩
    · rintro ⟨heq, hlen⟩
      cases l with
      | nil => exact absurd hlen (Nat.succ_ne_zero n).symm
      | cons c' l =>
        cases heq
        rw [byteLen_cons] at hlen
        exact ⟨(l, r), ih.2 ⟨rfl, by omega⟩, rfl⟩
  | case4 c cs n hle =>
    refine iff_of_false nofun ?_
    rintro ⟨heq, hlen⟩
    cases l with
    | nil => exact absurd hlen (Nat.succ_ne_zero n).symm
    | cons c' l =>
      cases heq
      rw [byteLen_cons] at hlen
      omega

@[simp] theorem splitAtByte_zero : splitAtByte cs 0 = some ([], cs) :=
  splitAtByte_eq_some_iff.2 ⟨rfl, rfl⟩

/-- A slice is cut from what comes after its start. -/
theorem slice_eq (h : splitAtByte cs m = some (l, r)) :
    slice cs m (m + n) = (splitAtByte r n).map Prod.fst := by
  rw [slice, if_pos (Nat.le_add_right m n), h, Nat.add_sub_cancel_left]
  rfl

/-- A slice between two parts of a text is what stands between them. -/
theorem slice_append (l cs r : List Char) :
    slice (l ++ (cs ++ r)) (byteLen l) (byteLen (l ++ cs)) = some cs := by
  rw [byteLen_append, slice_eq (splitAtByte_eq_some_iff.2 ⟨rfl, rfl⟩),
    splitAtByte_eq_some_iff.2 ⟨rfl, rfl⟩]
  rfl

/-- Cutting what comes after a position. -/
theorem splitAtByte_add {l' r' : List Char} (h : splitAtByte cs m = some (l, r))
    (h' : splitAtByte r n = some (l', r')) : splitAtByte cs (m + n) = some (l ++ l', r') := by
  obtain ⟨rfl, rfl⟩ := splitAtByte_eq_some_iff.1 h
  obtain ⟨rfl, rfl⟩ := splitAtByte_eq_some_iff.1 h'
  exact splitAtByte_eq_some_iff.2 ⟨(List.append_assoc l l' r').symm, byteLen_append l l'⟩

/-! ## Lines -/

/-- The pieces of a text, each up to a line feed. -/
def splitInclusive : List Char → List (List Char)
  | [] => []
  | c :: cs =>
    if c = '\n' then [c] :: splitInclusive cs
    else
      match splitInclusive cs with
      | [] => [[c]]
      | l :: ls => (c :: l) :: ls

/-- A line without the carriage return at its end. -/
def stripReturn (l : List Char) : List Char :=
  if l.getLast? = some '\r' then l.dropLast else l

/-- A piece without the line feed at its end and the carriage return before that. -/
def stripLineEnd (l : List Char) : List Char :=
  if l.getLast? = some '\n' then stripReturn l.dropLast else l

/-- The lines of a text. -/
def lines (cs : List Char) : List (List Char) := (splitInclusive cs).map stripLineEnd

theorem splitInclusive_append (hl : '\n' ∉ l) :
    splitInclusive (l ++ '\n' :: r) = (l ++ ['\n']) :: splitInclusive r := by
  induction l with
  | nil => rfl
  | cons c l ih =>
    have hc : c ≠ '\n' := fun h => hl (h ▸ List.mem_cons_self)
    rw [List.cons_append, splitInclusive, if_neg hc, ih fun h => hl (List.mem_cons_of_mem c h)]
    rfl

/-- The first line ends with the first line feed. -/
theorem lines_append (hl : '\n' ∉ l) : lines (l ++ '\n' :: r) = stripReturn l :: lines r := by
  rw [lines, splitInclusive_append hl, List.map_cons, stripLineEnd, List.getLast?_concat,
    if_pos rfl, List.dropLast_concat]
  rfl

theorem stripReturn_eq_self_iff : stripReturn l = l ↔ l.getLast? ≠ some '\r' := by
  rw [stripReturn]
  split_ifs with h
  · refine iff_of_false (fun heq => ?_) (not_not.2 h)
    obtain ⟨l, rfl⟩ := List.getLast?_eq_some_iff.1 h
    have hlen := congrArg List.length heq
    rw [List.dropLast_concat, List.length_append, List.length_singleton] at hlen
    omega
  · exact iff_of_true rfl h

theorem length_stripReturn_le (l : List Char) : (stripReturn l).length ≤ l.length := by
  rw [stripReturn]
  split_ifs
  · rw [List.length_dropLast]
    exact Nat.sub_le l.length 1
  · exact Nat.le_refl l.length

/-- What has been written as a line is the first line exactly if it has no line feed, and no
    carriage return at its end. -/
theorem head?_lines_iff :
    (lines (cs ++ '\n' :: r)).head? = some cs ↔ '\n' ∉ cs ∧ cs.getLast? ≠ some '\r' := by
  by_cases hmem : '\n' ∈ cs
  · -- the line ends too early
    refine iff_of_false (fun h => ?_) fun h => h.1 hmem
    obtain ⟨l, r', rfl, hl⟩ := List.eq_append_cons_of_mem hmem
    rw [List.append_assoc, List.cons_append, lines_append hl, List.head?_cons,
      Option.some.injEq] at h
    have hlen := congrArg List.length h
    have hle := length_stripReturn_le l
    rw [List.length_append, List.length_cons] at hlen
    omega
  · rw [lines_append hmem, List.head?_cons, Option.some.injEq, stripReturn_eq_self_iff,
      and_iff_right hmem]

end Text
