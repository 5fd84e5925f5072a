import Mathlib.Data.Nat.Bitwise
import Mathlib.Tactic.Ring

/-!
# Variable-length integers

The lengths and the identifiers of the wire format are QUIC variable-length
integers (`varint.rs`): the two high bits of the first byte tell the number of
bytes, `1`, `2`, `4` or `8`, and the other bits, most significant first, the value.

`decode_append` says that a varint is decoded as soon as its last byte is there, and
the same whatever follows; `decode_encode` is the round trip. A value is encoded in the
least length that can hold it, and whatever bytes it is decoded from are as many or more
(`varint_laws`).
-/

namespace Sardp

namespace Varint

/-- Decoding a varint failed. -/
inductive VarintError
  /-- Not enough bytes yet to complete the varint. -/
  | incomplete
  deriving DecidableEq

/-- The value after one more byte, most significant first. -/
def pushByte (value : ℕ) (byte : UInt8) : ℕ := value <<< 8 ||| byte.toNat

/-- The varint at the start of the buffer, and the number of bytes it takes. -/
def decode : List UInt8 → Except VarintError (ℕ × ℕ)
  | [] => .error .incomplete
  | first :: rest =>
    let len := 1 <<< (first >>> 6).toNat
    if rest.length + 1 < len then .error .incomplete
    else .ok ((rest.take (len - 1)).foldl pushByte (first &&& 0x3F).toNat, len)

/-- The largest value of a varint. -/
def MAX : ℕ := (1 <<< 62) - 1

/-- The `n` low bytes of `value`, most significant first. -/
def toBeBytes : ℕ → ℕ → List UInt8
  | 0, _ => []
  | n + 1, value => toBeBytes n (value >>> 8) ++ [UInt8.ofNat value]

/-- Appending `value` to `out`, in the shortest of the four lengths; `none` is the
    panic on a value over `MAX`. -/
def encode (value : ℕ) (out : List UInt8) : Option (List UInt8) :=
  if value ≤ MAX then
    some <|
      if value < 1 <<< 6 then out ++ [UInt8.ofNat value]
      else if value < 1 <<< 14 then
        out ++ [(0x40 : UInt8) ||| UInt8.ofNat (value >>> 8), UInt8.ofNat value]
      else if value < 1 <<< 30 then out ++ toBeBytes 4 (0x80000000 ||| value)
      else out ++ toBeBytes 8 (0xC000000000000000 ||| value)
  else none

/-! ## Decoding -/

/-- What a successful `decode` saw: a first byte, and as many more as it announces. -/
theorem decode_eq_ok {buf : List UInt8} {value len : ℕ} :
    decode buf = .ok (value, len) ↔
      ∃ first rest, buf = first :: rest ∧ len = 1 <<< (first >>> 6).toNat ∧
        len ≤ rest.length + 1 ∧
        value = (rest.take (len - 1)).foldl pushByte (first &&& 0x3F).toNat := by
  cases buf with
  | nil => simp [decode]
  | cons first rest =>
    rw [decode]
    split
    · next h =>
      constructor
      · intro h'
        nomatch h'
      · rintro ⟨_, _, ⟨⟩, rfl, hlen, _⟩
        exact absurd h (Nat.not_lt.2 hlen)
    · next h =>
      constructor
      · intro h'
        obtain ⟨rfl, rfl⟩ : _ = value ∧ _ = len := by simpa using h'
        exact ⟨first, rest, rfl, rfl, Nat.not_lt.1 h, rfl⟩
      · rintro ⟨_, _, ⟨⟩, rfl, _, rfl⟩
        rfl

theorem decode_length {buf : List UInt8} {value len : ℕ} (h : decode buf = .ok (value, len)) :
    len ≤ buf.length := by
  obtain ⟨first, rest, rfl, -, hlen, -⟩ := decode_eq_ok.1 h
  exact hlen

/-- The tag takes the two high bits. -/
theorem tag_lt (first : UInt8) : (first >>> 6).toNat < 4 := by
  have hlt := first.toNat_lt
  rw [UInt8.toNat_shiftRight, Nat.shiftRight_eq_div_pow]
  simp only [UInt8.reduceToNat, Nat.reduceMod, Nat.reducePow]
  omega

/-- A first byte announces one byte to eight of them. -/
theorem announced_le (first : UInt8) :
    1 ≤ 1 <<< (first >>> 6).toNat ∧ 1 <<< (first >>> 6).toNat ≤ 8 := by
  rw [Nat.shiftLeft_eq, Nat.one_mul]
  exact ⟨Nat.two_pow_pos _, Nat.pow_le_pow_right (by decide) (Nat.le_of_lt_succ (tag_lt first))⟩

theorem decode_len_le {buf : List UInt8} {value len : ℕ} (h : decode buf = .ok (value, len)) :
    1 ≤ len ∧ len ≤ 8 := by
  obtain ⟨first, rest, -, rfl, -, -⟩ := decode_eq_ok.1 h
  exact announced_le first

/-- Eight bytes are never too few for a varint. -/
theorem length_lt_of_incomplete {buf : List UInt8} (h : decode buf = .error .incomplete) :
    buf.length < 8 := by
  cases buf with
  | nil => decide
  | cons first rest =>
    rw [decode] at h
    split at h
    · next hlen => exact Nat.lt_of_lt_of_le hlen (announced_le first).2
    · nomatch h

/-- A complete varint is decoded the same whatever follows it. -/
theorem decode_append {buf : List UInt8} {value len : ℕ} (s : List UInt8)
    (h : decode buf = .ok (value, len)) : decode (buf ++ s) = .ok (value, len) := by
  obtain ⟨first, rest, rfl, hfirst, hlen, hvalue⟩ := decode_eq_ok.1 h
  refine decode_eq_ok.2 ⟨first, rest ++ s, rfl, hfirst, by rw [List.length_append]; omega, ?_⟩
  rw [List.take_append_of_le_length (by omega), hvalue]

/-- And the same without what follows it. -/
theorem decode_take {buf : List UInt8} {value len n : ℕ} (h : decode buf = .ok (value, len))
    (hn : len ≤ n) : decode (buf.take n) = .ok (value, len) := by
  obtain ⟨first, rest, rfl, hfirst, hlen, hvalue⟩ := decode_eq_ok.1 h
  have hpos : 0 < len := by
    rw [hfirst, Nat.shiftLeft_eq, Nat.one_mul]
    exact Nat.two_pow_pos _
  obtain ⟨m, rfl⟩ := Nat.exists_eq_add_of_lt (Nat.lt_of_lt_of_le hpos hn)
  rw [Nat.zero_add, List.take_succ_cons]
  refine decode_eq_ok.2 ⟨first, rest.take m, rfl, hfirst, ?_, ?_⟩
  · rw [List.length_take]
    omega
  · rw [List.take_take, Nat.min_eq_left (by omega), hvalue]

/-! ## The round trip -/

/-- Pushing a byte is reading one more digit in base `256`. -/
theorem pushByte_eq (value : ℕ) (byte : UInt8) : pushByte value byte = value * 256 + byte.toNat := by
  rw [pushByte, Nat.shiftLeft_eq, Nat.mul_comm, ← Nat.two_pow_add_eq_or_of_lt byte.toNat_lt]

@[simp] theorem length_toBeBytes (n value : ℕ) : (toBeBytes n value).length = n := by
  induction n generalizing value with
  | zero => rfl
  | succ n ih => rw [toBeBytes, List.length_append, ih]; rfl

/-- Reading bytes back gives the value they were taken from. -/
theorem foldl_toBeBytes (n value acc : ℕ) :
    (toBeBytes n value).foldl pushByte acc = acc * 256 ^ n + value % 256 ^ n := by
  induction n generalizing value with
  | zero => simp [toBeBytes, Nat.mod_one]
  | succ n ih =>
    have hmod : value / 256 % 256 ^ n * 256 + value % 256 = value % 256 ^ (n + 1) := by
      rw [pow_succ', Nat.mod_mul, Nat.add_comm, Nat.mul_comm 256]
    rw [toBeBytes, List.foldl_append, ih, List.foldl_cons, List.foldl_nil, pushByte_eq,
      UInt8.toNat_ofNat', Nat.shiftRight_eq_div_pow, ← hmod]
    ring

/-- The first byte of `n + 1` is the one above the `n` others. -/
theorem toBeBytes_succ (n value : ℕ) :
    toBeBytes (n + 1) value = UInt8.ofNat (value >>> (8 * n)) :: toBeBytes n value := by
  induction n generalizing value with
  | zero => rfl
  | succ n ih =>
    rw [toBeBytes, ih, ← Nat.shiftRight_add, toBeBytes, List.cons_append]
    congr 3
    ring

/-- A first byte tells apart the tag in its two high bits and the bits below it. -/
theorem toNat_tagged {k high : ℕ} (hk : k < 4) (hhigh : high < 64) :
    (UInt8.ofNat (k * 64 + high) >>> 6).toNat = k ∧
      (UInt8.ofNat (k * 64 + high) &&& 0x3F).toNat = high := by
  have hbyte : (UInt8.ofNat (k * 64 + high)).toNat = k * 64 + high := by
    rw [UInt8.toNat_ofNat']
    omega
  constructor
  · rw [UInt8.toNat_shiftRight, hbyte, Nat.shiftRight_eq_div_pow]
    simp only [UInt8.reduceToNat, Nat.reduceMod, Nat.reducePow]
    omega
  · rw [UInt8.toNat_and, hbyte, show (0x3F : UInt8).toNat = 2 ^ 6 - 1 from rfl,
      Nat.and_two_pow_sub_one_eq_mod]
    omega

/-- Bytes under the tag `k` of their number are decoded to the value below the tag. -/
theorem decode_toBeBytes {k n value : ℕ} (hk : k < 4) (hn : n + 1 = 1 <<< k)
    (hvalue : value < 2 ^ (8 * n + 6)) (s : List UInt8) :
    decode (toBeBytes (n + 1) (k <<< (8 * n + 6) ||| value) ++ s) = .ok (value, n + 1) := by
  have hpos := Nat.two_pow_pos (8 * n)
  have hhigh : value / 2 ^ (8 * n) < 64 := by
    rw [Nat.div_lt_iff_lt_mul hpos]
    calc value < 2 ^ (8 * n + 6) := hvalue
      _ = 64 * 2 ^ (8 * n) := by ring
  have htag : k <<< (8 * n + 6) ||| value = value + k * 64 * 2 ^ (8 * n) := by
    rw [Nat.shiftLeft_eq, Nat.mul_comm, ← Nat.two_pow_add_eq_or_of_lt hvalue]
    ring
  -- the tag and the six highest bits are in the first byte, the others after it
  have hfirst : (k <<< (8 * n + 6) ||| value) >>> (8 * n) = k * 64 + value / 2 ^ (8 * n) := by
    rw [htag, Nat.shiftRight_eq_div_pow, Nat.add_mul_div_right _ _ hpos, Nat.add_comm]
  have hrest : (k <<< (8 * n + 6) ||| value) % 256 ^ n = value % 2 ^ (8 * n) := by
    rw [htag, show (256 : ℕ) ^ n = 2 ^ (8 * n) by rw [Nat.pow_mul], Nat.add_mul_mod_self_right]
  obtain ⟨hlen, hacc⟩ := toNat_tagged hk hhigh
  rw [toBeBytes_succ, hfirst, List.cons_append]
  refine decode_eq_ok.2 ⟨_, _, rfl, by rw [hlen, hn], by simp, ?_⟩
  rw [hacc, Nat.add_sub_cancel, List.take_left' (length_toBeBytes n _), foldl_toBeBytes, hrest,
    show (256 : ℕ) ^ n = 2 ^ (8 * n) by rw [Nat.pow_mul], Nat.div_add_mod']

/-- The bytes `encode` appends, as tagged bytes of the value. -/
theorem encode_eq_some {value : ℕ} {out bytes : List UInt8} (h : encode value out = some bytes) :
    ∃ k n, k < 4 ∧ n + 1 = 1 <<< k ∧ value < 2 ^ (8 * n + 6) ∧
      bytes = out ++ toBeBytes (n + 1) (k <<< (8 * n + 6) ||| value) := by
  rw [encode, Option.ite_none_right_eq_some, Option.some.injEq] at h
  obtain ⟨hmax, rfl⟩ := h
  have hmax : value < 2 ^ 62 := by simpa [MAX] using Nat.lt_succ_of_le hmax
  split_ifs with h1 h2 h3
  · exact ⟨0, 0, by decide, rfl, h1, by simp [toBeBytes]⟩
  · exact ⟨1, 1, by decide, rfl, h2, by
      simp [toBeBytes, Nat.shiftRight_or_distrib, UInt8.ofNat_or]⟩
  · exact ⟨2, 3, by decide, rfl, h3, rfl⟩
  · exact ⟨3, 7, by decide, rfl, hmax, rfl⟩

/-- What `encode` appends decodes to the value, to the last byte. -/
theorem decode_encode {value : ℕ} {out bytes : List UInt8} (h : encode value out = some bytes) :
    ∃ c, bytes = out ++ c ∧ decode c = .ok (value, c.length) := by
  obtain ⟨k, n, hk, hn, hvalue, rfl⟩ := encode_eq_some h
  have hdecode := decode_toBeBytes hk hn hvalue []
  exact ⟨_, rfl, by simpa using hdecode⟩

/-- No value up to `MAX` makes `encode` panic. -/
theorem encode_isSome {value : ℕ} {out : List UInt8} : (encode value out).isSome ↔ value ≤ MAX := by
  rw [encode, Option.isSome_ite]

/-! ## The lengths -/

/-- So many bytes can hold the value, beside the tag. -/
def Holds (n value : ℕ) : Prop := value < 2 ^ (8 * n - 2)

/-- The lengths of a varint that can hold the value. -/
def lengthsFor (value : ℕ) : Set ℕ := {n | n ∈ [1, 2, 4, 8] ∧ Holds n value}

theorem le_max_iff {value : ℕ} : value ≤ MAX ↔ Holds 8 value := Nat.le_iff_lt_add_one

theorem Holds.mono {m n value : ℕ} (h : Holds m value) (hmn : m ≤ n) : Holds n value :=
  h.trans_le (Nat.pow_le_pow_right (by decide) (by omega))

/-- A length is the least one if those below it are too short. -/
theorem isLeast_lengthsFor {n value : ℕ} (hn : n ∈ [1, 2, 4, 8]) (hholds : Holds n value)
    (hbelow : ∀ m ∈ [1, 2, 4, 8], m < n → ¬Holds m value) : IsLeast (lengthsFor value) n :=
  ⟨⟨hn, hholds⟩, fun m hm => Nat.le_of_not_lt fun hlt => hbelow m hm.1 hlt hm.2⟩

/-- A value is appended in the least of the lengths that can hold it, to anything. -/
theorem encode_of_le_max {value : ℕ} (hmax : value ≤ MAX) :
    ∃ c, (∀ out, encode value out = some (out ++ c)) ∧ IsLeast (lengthsFor value) c.length := by
  by_cases h1 : value < 1 <<< 6
  · refine ⟨[UInt8.ofNat value], fun out => by rw [encode, if_pos hmax, if_pos h1], ?_⟩
    refine isLeast_lengthsFor List.mem_cons_self h1 fun m hm hlt => ?_
    obtain rfl : m = 0 := Nat.lt_one_iff.1 hlt
    exact absurd hm (by decide)
  have hshort1 : ¬Holds 1 value := h1
  by_cases h2 : value < 1 <<< 14
  · refine ⟨[(0x40 : UInt8) ||| UInt8.ofNat (value >>> 8), UInt8.ofNat value], fun out => by
      rw [encode, if_pos hmax, if_neg h1, if_pos h2], ?_⟩
    have hholds2 : Holds 2 value := h2
    refine isLeast_lengthsFor (n := 2) (by simp) hholds2 fun m hm hlt hholds =>
      hshort1 (hholds.mono ?_)
    exact Nat.le_of_lt_succ hlt
  have hshort2 : ¬Holds 2 value := h2
  by_cases h3 : value < 1 <<< 30
  · refine ⟨toBeBytes 4 (0x80000000 ||| value), fun out => by
      rw [encode, if_pos hmax, if_neg h1, if_neg h2, if_pos h3], ?_⟩
    rw [length_toBeBytes]
    refine isLeast_lengthsFor (by simp) h3 fun m hm hlt hholds => hshort2 (hholds.mono ?_)
    simp only [List.mem_cons, List.not_mem_nil, or_false] at hm
    omega
  have hshort4 : ¬Holds 4 value := h3
  refine ⟨toBeBytes 8 (0xC000000000000000 ||| value), fun out => by
    rw [encode, if_pos hmax, if_neg h1, if_neg h2, if_neg h3], ?_⟩
  rw [length_toBeBytes]
  refine isLeast_lengthsFor (by simp) (le_max_iff.1 hmax) fun m hm hlt hholds =>
    hshort4 (hholds.mono ?_)
  simp only [List.mem_cons, List.not_mem_nil, or_false] at hm
  omega

/-- Bytes below others make up a value that both can hold. -/
theorem foldl_pushByte_lt {acc a : ℕ} (bytes : List UInt8) (hacc : acc < 2 ^ a) :
    bytes.foldl pushByte acc < 2 ^ (a + 8 * bytes.length) := by
  induction bytes generalizing acc a with
  | nil => exact hacc
  | cons byte bytes ih =>
    have hpush : pushByte acc byte < 2 ^ (a + 8) := by
      have hbyte := byte.toNat_lt
      rw [pushByte_eq, pow_add]
      omega
    have hrest := ih hpush
    rwa [show a + 8 + 8 * bytes.length = a + 8 * (bytes.length + 1) by ring] at hrest

/-- What is decoded can be held by the bytes it is decoded from. -/
theorem mem_lengthsFor_of_decode {buf : List UInt8} {value n : ℕ}
    (h : decode buf = .ok (value, n)) : n ∈ lengthsFor value := by
  obtain ⟨first, rest, -, rfl, hlen, rfl⟩ := decode_eq_ok.1 h
  have hhigh : (first &&& 0x3F).toNat < 2 ^ 6 := by
    rw [UInt8.toNat_and]
    exact Nat.lt_succ_of_le Nat.and_le_right
  constructor
  · have hlengths : ∀ tag < 4, 1 <<< tag ∈ [1, 2, 4, 8] := by decide
    exact hlengths _ (tag_lt first)
  · have hlt := foldl_pushByte_lt (rest.take (1 <<< (first >>> 6).toNat - 1)) hhigh
    have hpos := (announced_le first).1
    rw [List.length_take, Nat.min_eq_left (by omega)] at hlt
    rwa [Holds, show 8 * 1 <<< (first >>> 6).toNat - 2 =
      6 + 8 * (1 <<< (first >>> 6).toNat - 1) by omega]

/-- A value is encoded in the least length that can hold it, and is decoded from it, whatever
    follows. What is decoded from any bytes at all is a value that can be encoded, in no more bytes
    than it took. -/
theorem varint_laws :
    (∀ value ≤ MAX, ∃ c, (∀ out, encode value out = some (out ++ c)) ∧
        (∀ suffix, decode (c ++ suffix) = .ok (value, c.length)) ∧
          IsLeast (lengthsFor value) c.length) ∧
      ∀ buf value n, decode buf = .ok (value, n) → value ≤ MAX ∧ n ≤ buf.length ∧
        ∃ c, (∀ out, encode value out = some (out ++ c)) ∧ c.length ≤ n := by
  constructor
  · intro value hmax
    obtain ⟨c, hencode, hleast⟩ := encode_of_le_max hmax
    obtain ⟨c', hc', hdecode⟩ := decode_encode (hencode [])
    obtain rfl : c = c' := hc'
    exact ⟨c, hencode, fun suffix => decode_append suffix hdecode, hleast⟩
  · intro buf value n h
    have hn := mem_lengthsFor_of_decode h
    have hmax : value ≤ MAX := le_max_iff.2 (hn.2.mono (decode_len_le h).2)
    obtain ⟨c, hencode, hleast⟩ := encode_of_le_max hmax
    exact ⟨hmax, decode_length h, c, hencode, hleast.2 hn⟩

/-- A value of two bytes, and one that fits a byte but comes in two. -/
theorem varint_laws_two :
    (∃ c, (∀ out, encode 15293 out = some (out ++ c)) ∧
        (∀ suffix, decode (c ++ suffix) = .ok (15293, c.length)) ∧
          IsLeast (lengthsFor 15293) c.length) ∧
      37 ≤ MAX ∧ 2 ≤ ([0x40, 0x25] : List UInt8).length ∧
        ∃ c, (∀ out, encode 37 out = some (out ++ c)) ∧ c.length ≤ 2 :=
  ⟨varint_laws.1 15293 (by decide), varint_laws.2 [0x40, 0x25] 37 2 (by decide)⟩

end Varint

end Sardp
