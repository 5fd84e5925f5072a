import Mathlib.Algebra.Order.BigOperators.Group.List
import Mathlib.Algebra.Order.Ring.Nat
import Mathlib.Data.Nat.Notation
import Mathlib.Tactic.SplitIfs

/-!
# Writing CBOR

An item starts with a head: its major type and an argument, in as few bytes as it takes
(`Cbor.head`). Numbers, strings and maps are written by the head and what follows it, so that the
length of an item is a sum over its parts (`Cbor.length_record`); the only part of it that depends
on a value that is no string are the bytes of its argument (`Cbor.headLen`), at most nine.
-/

namespace Cbor

/-- The `n` low bytes of a number, most significant first. -/
def beBytes : ℕ → ℕ → List UInt8
  | 0, _ => []
  | n + 1, value => beBytes n (value / 256) ++ [UInt8.ofNat value]

/-- The head of an item: its major type, and its argument in as few bytes as possible. -/
def head (major : UInt8) (n : ℕ) : List UInt8 :=
  if n < 24 then [major <<< 5 ||| UInt8.ofNat n]
  else if n < 2 ^ 8 then (major <<< 5 ||| 24) :: beBytes 1 n
  else if n < 2 ^ 16 then (major <<< 5 ||| 25) :: beBytes 2 n
  else if n < 2 ^ 32 then (major <<< 5 ||| 26) :: beBytes 4 n
  else (major <<< 5 ||| 27) :: beBytes 8 n

/-- The length of a head. -/
def headLen (n : ℕ) : ℕ :=
  if n < 24 then 1 else if n < 2 ^ 8 then 2 else if n < 2 ^ 16 then 3 else if n < 2 ^ 32 then 5
  else 9

/-- A natural number. -/
def uint (n : ℕ) : List UInt8 := head 0 n

/-- A string of bytes. -/
def bytes (b : List UInt8) : List UInt8 := head 2 b.length ++ b

/-- A string of text. -/
def text (s : String) : List UInt8 := head 3 s.utf8ByteSize ++ s.toUTF8.data.toList

/-- An array of items that have been written. -/
def array (items : List (List UInt8)) : List UInt8 := head 4 items.length ++ items.flatten

/-- A map from names to items that have been written. -/
def record (fields : List (String × List UInt8)) : List UInt8 :=
  head 5 fields.length ++ fields.flatMap fun field => text field.1 ++ field.2

@[simp] theorem length_beBytes (n value : ℕ) : (beBytes n value).length = n := by
  induction n generalizing value with
  | zero => rfl
  | succ n ih => rw [beBytes, List.length_append, ih, List.length_singleton]

@[simp] theorem length_head (major : UInt8) (n : ℕ) : (head major n).length = headLen n := by
  rw [head, headLen]
  split_ifs <;> simp

theorem headLen_le (n : ℕ) : headLen n ≤ 9 := by
  rw [headLen]
  split_ifs <;> decide

@[simp] theorem length_uint (n : ℕ) : (uint n).length = headLen n := length_head 0 n

@[simp] theorem length_bytes (b : List UInt8) :
    (bytes b).length = headLen b.length + b.length := by
  rw [bytes, List.length_append, length_head]

@[simp] theorem length_text (s : String) :
    (text s).length = headLen s.utf8ByteSize + s.utf8ByteSize := by
  rw [text, List.length_append, length_head]
  rfl

/-- The names and the items of a map, one after the other, are as long as both together. -/
theorem length_flatMap_fields (fields : List (String × List UInt8)) :
    (fields.flatMap fun field => text field.1 ++ field.2).length =
      (fields.map fun field => headLen field.1.utf8ByteSize + field.1.utf8ByteSize).sum +
        (fields.map fun field => field.2.length).sum := by
  induction fields with
  | nil => rfl
  | cons field fields ih =>
    simp only [List.flatMap_cons, List.map_cons, List.sum_cons, List.length_append,
      length_text] at ih ⊢
    omega

/-- The length of a map is that of its head and its names, and that of its items. -/
theorem length_record {fields : List (String × List UInt8)} {k : ℕ}
    (hk : headLen fields.length +
      (fields.map fun field => headLen field.1.utf8ByteSize + field.1.utf8ByteSize).sum = k) :
    (record fields).length = k + (fields.map fun field => field.2.length).sum := by
  rw [record, List.length_append, length_head, length_flatMap_fields, ← hk, Nat.add_assoc]

/-- A map of short items is short if it has few names. -/
theorem length_record_le {fields : List (String × List UInt8)} {k m : ℕ}
    (hk : headLen fields.length +
      (fields.map fun field => headLen field.1.utf8ByteSize + field.1.utf8ByteSize).sum = k)
    (hm : ∀ field ∈ fields, field.2.length ≤ m) :
    (record fields).length ≤ k + fields.length * m := by
  have hle := List.sum_le_card_nsmul (fields.map fun field => field.2.length) m fun x hx => by
    obtain ⟨field, hfield, rfl⟩ := List.mem_map.1 hx
    exact hm field hfield
  rw [List.length_map, nsmul_eq_mul, Nat.cast_id] at hle
  rw [length_record hk]
  exact Nat.add_le_add_left hle k

end Cbor
