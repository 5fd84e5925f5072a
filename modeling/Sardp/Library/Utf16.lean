import Mathlib.Data.Nat.Notation
import Mathlib.Tactic.SplitIfs

/-!
# UTF-16

A text in units of 16 bits. A character takes a unit, or a pair of a high and a low surrogate.
Other sequences of units stand for a text as well, if the surrogates that make no pair are left out
(`decode`).

A text that was encoded is decoded again (`decode_encode`).
-/

namespace Utf16

/-- A unit is the first of a pair. -/
abbrev IsHigh (unit : ℕ) : Prop := 0xD800 ≤ unit ∧ unit ≤ 0xDBFF

/-- A unit is the second of a pair. -/
abbrev IsLow (unit : ℕ) : Prop := 0xDC00 ≤ unit ∧ unit ≤ 0xDFFF

/-- The character of a pair. -/
def ofPair (high low : ℕ) : Char := Char.ofNat (0x10000 + (high - 0xD800) * 0x400 + (low - 0xDC00))

/-- The character of a unit alone, which a surrogate has not. -/
def ofUnit (unit : ℕ) : Option Char := if unit.isValidChar then some (Char.ofNat unit) else none

/-- The characters of the units, without the surrogates that make no pair. -/
def decode : List ℕ → List Char
  | [] => []
  | [unit] => (ofUnit unit).toList
  | unit :: next :: units =>
    if IsHigh unit ∧ IsLow next then ofPair unit next :: decode units
    else (ofUnit unit).toList ++ decode (next :: units)

def encodeChar (c : Char) : List ℕ :=
  if c.toNat < 0x10000 then [c.toNat]
  else [0xD800 + (c.toNat - 0x10000) / 0x400, 0xDC00 + (c.toNat - 0x10000) % 0x400]

/-- The units of a text. -/
def encode (cs : List Char) : List ℕ := cs.flatMap encodeChar

variable {unit high low : ℕ} {units : List ℕ} {c : Char}

theorem not_isLow_of_isHigh (h : IsHigh unit) : ¬IsLow unit := fun hlow => by omega

theorem ofUnit_of_isHigh (h : IsHigh unit) : ofUnit unit = none :=
  if_neg fun hvalid => by unfold Nat.isValidChar at hvalid; omega

theorem ofUnit_toNat (c : Char) : ofUnit c.toNat = some c := by
  have hvalid : c.toNat.isValidChar := c.valid
  rw [ofUnit, if_pos hvalid, Char.ofNat_toNat]

theorem not_isHigh_toNat (c : Char) : ¬IsHigh c.toNat := by
  intro h
  have hnone := ofUnit_of_isHigh h
  rw [ofUnit_toNat] at hnone
  cases hnone

/-- A unit that is no high surrogate is decoded alone. -/
theorem decode_of_not_isHigh (h : ¬IsHigh unit) (units : List ℕ) :
    decode (unit :: units) = (ofUnit unit).toList ++ decode units := by
  cases units with
  | nil => exact (List.append_nil _).symm
  | cons next units => rw [decode, if_neg fun hpair => h hpair.1]

theorem decode_pair (hhigh : IsHigh high) (hlow : IsLow low) (units : List ℕ) :
    decode (high :: low :: units) = ofPair high low :: decode units := by
  rw [decode, if_pos ⟨hhigh, hlow⟩]

theorem decode_singleton (hhigh : IsHigh high) : decode [high] = [] := by
  rw [decode, ofUnit_of_isHigh hhigh, Option.toList_none]

/-- A high surrogate that ends the units, or comes before a unit that is no low one, is left out. -/
theorem decode_of_isHigh (hhigh : IsHigh high) (h : ∀ unit ∈ units.head?, ¬IsLow unit) :
    decode (high :: units) = decode units := by
  cases units with
  | nil => exact decode_singleton hhigh
  | cons unit units =>
    rw [decode, if_neg fun hpair => h unit rfl hpair.2, ofUnit_of_isHigh hhigh]
    rfl

theorem decode_encodeChar (c : Char) (units : List ℕ) :
    decode (encodeChar c ++ units) = c :: decode units := by
  unfold encodeChar
  split_ifs with h
  · rw [List.singleton_append, decode_of_not_isHigh (not_isHigh_toNat c), ofUnit_toNat]
    rfl
  · have hvalid : c.toNat.isValidChar := c.valid
    have hlt : c.toNat < 0x110000 := by
      unfold Nat.isValidChar at hvalid
      omega
    have hsplit : (c.toNat - 0x10000) / 0x400 * 0x400 + (c.toNat - 0x10000) % 0x400 =
        c.toNat - 0x10000 := Nat.div_add_mod' ..
    have hpair : ofPair (0xD800 + (c.toNat - 0x10000) / 0x400)
        (0xDC00 + (c.toNat - 0x10000) % 0x400) = c := by
      rw [ofPair, Nat.add_sub_cancel_left, Nat.add_sub_cancel_left, Nat.add_assoc, hsplit,
        Nat.add_sub_cancel' (Nat.le_of_not_lt h), Char.ofNat_toNat]
    rw [List.cons_append, List.singleton_append, decode_pair ⟨by omega, by omega⟩
      ⟨by omega, by omega⟩, hpair]

theorem decode_encode (cs : List Char) : decode (encode cs) = cs := by
  induction cs with
  | nil => rfl
  | cons c cs ih =>
    rw [encode, List.flatMap_cons, decode_encodeChar]
    exact congrArg (c :: ·) ih

end Utf16
