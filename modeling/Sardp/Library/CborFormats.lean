import Sardp.Library.Cbor
import Sardp.Library.Formats

/-!
# Reading CBOR back

What has been written as CBOR is read back item by item (`Format`): a head tells the major type and
the argument (`Cbor.readHead_head`), and strings end where their heads say. A map is read back if
its names come in the order in which they have been written. So this is no reader of all of CBOR,
but one of what is written here, which is all it takes to tell the values.
-/

namespace Cbor

/-- The number that bytes are, most significant first. -/
def ofBeBytes (bs : List UInt8) : ℕ := bs.foldl (fun n b => n * 256 + b.toNat) 0

/-- The first `n` bytes as a number, and what follows them. -/
def readBeBytes (n : ℕ) (bs : List UInt8) : Option (ℕ × List UInt8) :=
  if n ≤ bs.length then some (ofBeBytes (bs.take n), bs.drop n) else none

/-- The argument of a head that starts with these low bits. -/
def readArgument (info : UInt8) (bs : List UInt8) : Option (ℕ × List UInt8) :=
  if info < 24 then some (info.toNat, bs)
  else if info = 24 then readBeBytes 1 bs
  else if info = 25 then readBeBytes 2 bs
  else if info = 26 then readBeBytes 4 bs
  else if info = 27 then readBeBytes 8 bs
  else none

/-- The argument of a head of the major type. -/
def readHead (major : UInt8) : List UInt8 → Option (ℕ × List UInt8)
  | [] => none
  | b :: bs => if b >>> 5 = major then readArgument (b &&& 31) bs else none

theorem ofBeBytes_beBytes (n value : ℕ) : ofBeBytes (beBytes n value) = value % 256 ^ n := by
  induction n generalizing value with
  | zero =>
    rw [pow_zero, Nat.mod_one]
    rfl
  | succ n ih =>
    have hlast (bs : List UInt8) (b : UInt8) :
        ofBeBytes (bs ++ [b]) = ofBeBytes bs * 256 + b.toNat := by
      rw [ofBeBytes, List.foldl_append]
      rfl
    have hbyte : (UInt8.ofNat value).toNat = value % 256 := UInt8.toNat_ofNat'
    have hmod := Nat.mod_mul (x := value) (a := 256) (b := 256 ^ n)
    rw [beBytes, hlast, ih, hbyte, pow_succ', hmod]
    omega

theorem readBeBytes_append {n value : ℕ} (h : value < 256 ^ n) (rest : List UInt8) :
    readBeBytes n (beBytes n value ++ rest) = some (value, rest) := by
  have hlen := length_beBytes n value
  rw [readBeBytes, if_pos (by simp [hlen]), List.take_left' hlen, List.drop_left' hlen,
    ofBeBytes_beBytes, Nat.mod_eq_of_lt h]

/-- The first byte of a head tells the major type and its low bits. -/
theorem shiftRight_headByte {major info : UInt8} (hmajor : major < 8) (hinfo : info < 32) :
    (major <<< 5 ||| info) >>> 5 = major ∧ (major <<< 5 ||| info) &&& 31 = info := by
  have hbits : ∀ m i : Fin 32, m < 8 →
      (UInt8.ofNat m <<< 5 ||| UInt8.ofNat i) >>> 5 = UInt8.ofNat m ∧
        (UInt8.ofNat m <<< 5 ||| UInt8.ofNat i) &&& 31 = UInt8.ofNat i := by
    decide +kernel
  have hmajor' : major.toNat < 8 := hmajor
  have hinfo' : info.toNat < 32 := hinfo
  have h := hbits ⟨major.toNat, by omega⟩ ⟨info.toNat, hinfo'⟩ hmajor
  simpa only [UInt8.ofNat_toNat] using h

theorem readHead_cons {major info : UInt8} (hmajor : major < 8) (hinfo : info < 32)
    (bs : List UInt8) : readHead major ((major <<< 5 ||| info) :: bs) = readArgument info bs := by
  obtain ⟨htype, hlow⟩ := shiftRight_headByte hmajor hinfo
  rw [readHead, htype, hlow, if_pos rfl]

theorem readArgument_eq (bs : List UInt8) :
    readArgument 24 bs = readBeBytes 1 bs ∧ readArgument 25 bs = readBeBytes 2 bs ∧
      readArgument 26 bs = readBeBytes 4 bs ∧ readArgument 27 bs = readBeBytes 8 bs := by
  simp [readArgument]

/-- A head is read back. -/
theorem readHead_head {major : UInt8} {n : ℕ} (hmajor : major < 8) (hn : n < 2 ^ 64)
    (rest : List UInt8) : readHead major (head major n ++ rest) = some (n, rest) := by
  rw [head]
  split_ifs with h₁ h₂ h₃ h₄
  · have hinfo : (UInt8.ofNat n).toNat = n := by
      rw [UInt8.toNat_ofNat', Nat.mod_eq_of_lt (by omega)]
    have hlt : UInt8.ofNat n < 24 := by
      rw [UInt8.lt_iff_toNat_lt, hinfo]
      exact h₁
    rw [List.singleton_append, readHead_cons hmajor (UInt8.lt_trans hlt (by decide)), readArgument,
      if_pos hlt, hinfo]
  · rw [List.cons_append, readHead_cons hmajor (by decide), (readArgument_eq _).1,
      readBeBytes_append (by omega)]
  · rw [List.cons_append, readHead_cons hmajor (by decide), (readArgument_eq _).2.1,
      readBeBytes_append (by omega)]
  · rw [List.cons_append, readHead_cons hmajor (by decide), (readArgument_eq _).2.2.1,
      readBeBytes_append (by omega)]
  · rw [List.cons_append, readHead_cons hmajor (by decide), (readArgument_eq _).2.2.2,
      readBeBytes_append (by omega)]

/-- A head is not taken for one of another major type. -/
theorem readHead_head_of_ne {major major' : UInt8} (hmajor : major < 8) (hne : major ≠ major')
    (n : ℕ) (rest : List UInt8) : readHead major' (head major n ++ rest) = none := by
  obtain ⟨info, tail, hinfo, hhead⟩ :
      ∃ info tail, info < 32 ∧ head major n = (major <<< 5 ||| info) :: tail := by
    rw [head]
    split_ifs with hsmall
    · refine ⟨_, _, ?_, rfl⟩
      rw [UInt8.lt_iff_toNat_lt, UInt8.toNat_ofNat', Nat.mod_eq_of_lt (by omega)]
      exact hsmall.trans (by decide)
    all_goals exact ⟨_, _, by decide, rfl⟩
  rw [hhead, List.cons_append, readHead, (shiftRight_headByte hmajor hinfo).1, if_neg hne]

/-! ## Items -/

/-- A truth value. -/
def bool (b : Bool) : List UInt8 := if b then head 7 21 else head 7 20

/-- A whole number: a negative one as how far it is below -1. -/
def int : ℤ → List UInt8
  | .ofNat n => head 0 n
  | .negSucc n => head 1 n

/-- Reading a string: as many bytes as its head says. -/
def readString (major : UInt8) (bs : List UInt8) : Option (List UInt8 × List UInt8) :=
  (readHead major bs).bind fun (n, bs) =>
    if n ≤ bs.length then some (bs.take n, bs.drop n) else none

theorem readString_append {major : UInt8} (hmajor : major < 8) {b : List UInt8}
    (hb : b.length < 2 ^ 64) (rest : List UInt8) :
    readString major (head major b.length ++ b ++ rest) = some (b, rest) := by
  rw [readString, List.append_assoc, readHead_head hmajor hb, Option.bind_some]
  simp only [List.length_append, Nat.le_add_right, if_true, List.take_left, List.drop_left]

/-- Natural numbers of 64 bits. -/
def uintFormat : Format UInt8 ℕ where
  Fits n := n < 2 ^ 64
  write := uint
  read := readHead 0
  read_write hn rest := readHead_head (by decide) hn rest

/-- Reading a whole number, whose head tells its sign. -/
def readInt (bs : List UInt8) : Option (ℤ × List UInt8) :=
  ((readHead 0 bs).map fun (n, bs) => (Int.ofNat n, bs)).or
    ((readHead 1 bs).map fun (n, bs) => (Int.negSucc n, bs))

theorem readInt_int {n : ℤ} (hn : -2 ^ 64 ≤ n ∧ n < 2 ^ 64) (rest : List UInt8) :
    readInt (int n ++ rest) = some (n, rest) := by
  rw [readInt]
  cases n with
  | ofNat n =>
    have hn' : n < 2 ^ 64 := Int.ofNat_lt.1 hn.2
    rw [int, readHead_head (by decide) hn', Option.map_some, Option.some_or]
  | negSucc n =>
    have hn' : n < 2 ^ 64 := by omega
    rw [int, readHead_head_of_ne (by decide) (by decide), Option.map_none, Option.none_or,
      readHead_head (by decide) hn', Option.map_some]

/-- Whole numbers of 64 bits and a sign. -/
def intFormat : Format UInt8 ℤ where
  Fits n := -2 ^ 64 ≤ n ∧ n < 2 ^ 64
  write := int
  read := readInt
  read_write := readInt_int

/-- Strings of bytes. -/
def bytesFormat : Format UInt8 (List UInt8) where
  Fits b := b.length < 2 ^ 64
  write := bytes
  read := readString 2
  read_write hb rest := readString_append (by decide) hb rest

/-- Strings of text. -/
def textFormat : Format UInt8 String where
  Fits s := s.utf8ByteSize < 2 ^ 64
  write := text
  read bs := (readString 3 bs).bind fun (b, bs) => (String.fromUTF8? ⟨b.toArray⟩).map (·, bs)
  read_write {s} hs rest := by
    have hread : readString 3 (head 3 s.toUTF8.data.toList.length ++ s.toUTF8.data.toList ++ rest) =
      some (s.toUTF8.data.toList, rest) := readString_append (by decide) hs rest
    have hutf8 : String.fromUTF8? ⟨s.toUTF8.data.toList.toArray⟩ = some s := by
      rw [Array.toArray_toList, String.fromUTF8?]
      exact dif_pos s.isValidUTF8
    have htext : text s ++ rest =
      head 3 s.toUTF8.data.toList.length ++ s.toUTF8.data.toList ++ rest := rfl
    rw [htext, hread, Option.bind_some]
    simp only [hutf8, Option.map_some]

/-- Truth values. -/
def boolFormat : Format UInt8 Bool where
  Fits _ := True
  write := bool
  read bs := (readHead 7 bs).bind fun (n, bs) =>
    if n = 21 then some (true, bs) else if n = 20 then some (false, bs) else none
  read_write {b} _ rest := by
    cases b <;> rfl

/-- Arrays of items of the same format. -/
def arrayFormat {A : Type} (f : Format UInt8 A) : Format UInt8 (List A) where
  Fits values := values.length < 2 ^ 64 ∧ ∀ a ∈ values, f.Fits a
  write values := array (values.map f.write)
  read bs := (readHead 4 bs).bind fun (n, bs) => f.readMany n bs
  read_write {values} h rest := by
    rw [array, List.length_map, ← List.flatMap_def, List.append_assoc,
      readHead_head (by decide) h.1, Option.bind_some]
    exact Format.readMany_flatMap h.2 rest

/-- The cases of an enumeration by name. -/
def caseFormat {A : Type} (name : A → String) (ofName : String → Option A)
    (h : ∀ a, ofName (name a) = some a) : Format UInt8 A :=
  textFormat.iso ofName name h

/-- A field of a map: its name, and its item. -/
def field {A : Type} (name : String) (f : Format UInt8 A) : Format UInt8 A := f.after (text name)

/-- A map of so many fields. -/
def recordFormat {A : Type} (count : ℕ) (f : Format UInt8 A) : Format UInt8 A :=
  f.after (head 5 count)

@[simp] theorem write_uintFormat : uintFormat.write = uint := rfl

@[simp] theorem write_intFormat : intFormat.write = int := rfl

@[simp] theorem write_bytesFormat : bytesFormat.write = bytes := rfl

@[simp] theorem write_textFormat : textFormat.write = text := rfl

@[simp] theorem write_boolFormat : boolFormat.write = bool := rfl

@[simp] theorem write_arrayFormat {A : Type} (f : Format UInt8 A) (values : List A) :
    (arrayFormat f).write values = array (values.map f.write) := rfl

@[simp] theorem write_caseFormat {A : Type} {name : A → String} {ofName : String → Option A}
    (h : ∀ a, ofName (name a) = some a) (a : A) :
    (caseFormat name ofName h).write a = text (name a) := rfl

@[simp] theorem write_field {A : Type} (name : String) (f : Format UInt8 A) (a : A) :
    (field name f).write a = text name ++ f.write a := rfl

@[simp] theorem write_recordFormat {A : Type} (count : ℕ) (f : Format UInt8 A) (a : A) :
    (recordFormat count f).write a = head 5 count ++ f.write a := rfl

end Cbor
