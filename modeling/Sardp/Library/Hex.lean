import Mathlib.Data.List.Basic
import Mathlib.Data.UInt

/-!
# Hexadecimal text

Bytes written as pairs of hexadecimal digits, in lower case, and read in either case. Reading undoes
writing (`decode_encode`). What is read need not be pairs of digits only: `decodePairs` is told what
the value of a pair is.
-/

namespace Hex

/-- The value of a digit. -/
def digitValue (c : Char) : Option ℕ :=
  if '0' ≤ c ∧ c ≤ '9' then some (c.toNat - '0'.toNat)
  else if 'a' ≤ c ∧ c ≤ 'f' then some (c.toNat - 'a'.toNat + 10)
  else if 'A' ≤ c ∧ c ≤ 'F' then some (c.toNat - 'A'.toNat + 10)
  else none

/-- The value of a pair of digits. -/
def pairValue (a b : Char) : Option UInt8 := do
  return .ofNat ((← digitValue a) * 16 + (← digitValue b))

/-- The bytes of a text that consists of pairs. -/
def decodePairs (value : Char → Char → Option UInt8) : List Char → Option (List UInt8)
  | [] => some []
  | [_] => none
  | a :: b :: cs => do return (← value a b) :: (← decodePairs value cs)

/-- The bytes that pairs of digits denote. -/
def decode (cs : List Char) : Option (List UInt8) := decodePairs pairValue cs

/-- The digits of a byte. -/
def encodeByte (byte : UInt8) : List Char :=
  [Nat.digitChar (byte.toNat / 16), Nat.digitChar (byte.toNat % 16)]

/-- The digits of bytes. -/
def encode (bytes : List UInt8) : List Char := bytes.flatMap encodeByte

variable {value : Char → Char → Option UInt8} {a b c : Char} {cs : List Char} {x : UInt8}
  {bytes : List UInt8}

/-- A digit is less than 16, and a character of a single byte. -/
theorem bounds_of_digitValue {d : ℕ} (h : digitValue c = some d) : d < 16 ∧ c.utf8Size = 1 := by
  have hle {x y : Char} : x ≤ y ↔ x.toNat ≤ y.toNat := Iff.rfl
  have hsize (hc : c.toNat ≤ 0x7F) : c.utf8Size = 1 :=
    Char.utf8Size_eq_one_iff.2 (UInt32.le_iff_toNat_le.2 hc)
  have hfacts : '0'.toNat = 48 ∧ '9'.toNat = 57 ∧ 'a'.toNat = 97 ∧ 'f'.toNat = 102 ∧
      'A'.toNat = 65 ∧ 'F'.toNat = 70 := by decide
  rw [digitValue] at h
  split_ifs at h with hdec hlower hupper
  · rw [hle, hle] at hdec
    exact ⟨by rw [← Option.some.inj h]; omega, hsize (by omega)⟩
  · rw [hle, hle] at hlower
    exact ⟨by rw [← Option.some.inj h]; omega, hsize (by omega)⟩
  · rw [hle, hle] at hupper
    exact ⟨by rw [← Option.some.inj h]; omega, hsize (by omega)⟩

theorem pairValue_eq_some_iff : pairValue a b = some x ↔
    ∃ d d', digitValue a = some d ∧ digitValue b = some d' ∧ UInt8.ofNat (d * 16 + d') = x := by
  simp [pairValue, Option.bind_eq_some_iff]

@[simp] theorem decodePairs_nil : decodePairs value [] = some [] := rfl

@[simp] theorem decodePairs_singleton : decodePairs value [a] = none := rfl

theorem decodePairs_eq_some_iff : decodePairs value (a :: b :: cs) = some bytes ↔
    ∃ x rest, value a b = some x ∧ decodePairs value cs = some rest ∧ x :: rest = bytes := by
  simp [decodePairs, Option.bind_eq_some_iff]

/-! ## Reading what has been written -/

theorem digitValue_digitChar {d : ℕ} (h : d < 16) : digitValue (Nat.digitChar d) = some d := by
  revert d
  decide

/-- What is written consists of digits. -/
theorem isSome_digitValue_of_mem_encode (h : c ∈ encode bytes) : (digitValue c).isSome := by
  obtain ⟨byte, -, hc⟩ := List.mem_flatMap.1 h
  have hlt := byte.toNat_lt
  rcases List.mem_pair.1 hc with rfl | rfl
  · rw [digitValue_digitChar (by omega), Option.isSome_some]
  · rw [digitValue_digitChar (by omega), Option.isSome_some]

theorem pairValue_encodeByte (byte : UInt8) :
    pairValue (Nat.digitChar (byte.toNat / 16)) (Nat.digitChar (byte.toNat % 16)) = some byte := by
  have hlt := byte.toNat_lt
  refine pairValue_eq_some_iff.2 ⟨byte.toNat / 16, byte.toNat % 16,
    digitValue_digitChar (by omega), digitValue_digitChar (by omega), ?_⟩
  rw [Nat.div_add_mod', UInt8.ofNat_toNat]

theorem decode_encode (bytes : List UInt8) : decode (encode bytes) = some bytes := by
  induction bytes with
  | nil => rfl
  | cons byte bytes ih =>
    exact decodePairs_eq_some_iff.2 ⟨byte, bytes, pairValue_encodeByte byte, ih, rfl⟩

end Hex
