import Sardp.Library.Hex
import Sardp.Library.Text
import Sardp.Session.ControlHandshake

/-!
# Saved sessions

A client can keep its session in a file, and a later one goes on with it (`session_file.rs`): a line
each for the session and for the token, as hexadecimal numbers, and one for the user.

The numbers are read in pairs, by the parser for numbers of one byte of the standard library, which
takes a plus sign before a digit as well (`numeralValue`). A pair is cut out by its position in
bytes, which panics within a character. So reading a number panics exactly if a pair is cut through
a character and those before it have been taken (`CutsCharacter`).

What is written is read back exactly if the name of the user stays on its line
(`parseSavedSession_format_iff`).
-/

namespace Sardp

/-! ## Numbers -/

/-- Why a text is not a number. -/
inductive IntErrorKind
  | empty
  | invalidDigit
  | posOverflow
  deriving DecidableEq

/-- The message of the standard library. -/
def IntErrorKind.message : IntErrorKind → String
  | empty => "cannot parse integer from empty string"
  | invalidDigit => "invalid digit found in string"
  | posOverflow => "number too large to fit in target type"

/-- Going on with the digits of a number of one byte. -/
def accumulate (n : ℕ) : List Char → Except IntErrorKind UInt8
  | [] => .ok (.ofNat n)
  | c :: cs =>
    match Hex.digitValue c with
    | none => .error .invalidDigit
    | some d => if n * 16 + d < 256 then accumulate (n * 16 + d) cs else .error .posOverflow

/-- The parser for unsigned numbers of one byte, to the base 16. There may be a plus sign, but not
    that alone. -/
def fromStrRadix16 (src : List Char) : Except IntErrorKind UInt8 :=
  if src = [] then .error .empty
  else if src = ['+'] ∨ src = ['-'] then .error .invalidDigit
  else accumulate 0 (if src.head? = some '+' then src.tail else src)

/-- The pair at a position; `none` if cutting it out panics. -/
def hexPairAt (s : List Char) (i : ℕ) : Option (Except IntErrorKind UInt8) :=
  (Text.slice s i (i + 2)).map fromStrRadix16

/-- Reading some pairs in order, from one on. The first one that is not a number ends it; `none` if
    one before panics. -/
def readPairs (s : List Char) (i : ℕ) :
    (n : ℕ) → Option (Except (ℕ × IntErrorKind) (Vector UInt8 n))
  | 0 => some (.ok #v[])
  | n + 1 =>
    match hexPairAt s (i * 2) with
    | none => none
    | some (.error e) => some (.error (i, e))
    | some (.ok byte) =>
      (readPairs s (i + 1) n).map
        (Except.map fun bytes => (#v[byte] ++ bytes).cast (Nat.add_comm 1 n))

/-! ## The file -/

structure SavedSession where
  sessionId : Vector UInt8 16
  reconnectToken : Vector UInt8 32
  userId : String
  deriving DecidableEq

def hexEncode (bytes : List UInt8) : List Char := Hex.encode bytes

/-- The bytes of a text of pairs; `none` if that panics. -/
def parseHexBytes (s : List Char) : Option (Option (List UInt8)) :=
  if Text.byteLen s % 2 ≠ 0 then some none
  else (readPairs s 0 (Text.byteLen s / 2)).map fun bytes => bytes.toOption.map Vector.toList

/-- The bytes of the next line. -/
def parseHexLine (n : ℕ) : Option (List Char) → Option (Option (Vector UInt8 n))
  | none => some none
  | some line => (parseHexBytes line).map fun bytes => bytes.bind (tryInto n)

/-- Reading a session; `none` if that panics. -/
def parseSavedSession (contents : String) : Option (Option SavedSession) :=
  let lines := Text.lines contents.toList
  match parseHexLine 16 lines[0]? with
  | none => none
  | some none => some none
  | some (some sessionId) =>
    match parseHexLine 32 lines[1]? with
    | none => none
    | some none => some none
    | some (some reconnectToken) =>
      some (lines[2]?.map fun userId => ⟨sessionId, reconnectToken, .ofList userId⟩)

def formatSavedSession (session : SavedSession) : String :=
  .ofList (hexEncode session.sessionId.toList ++ '\n' ::
    (hexEncode session.reconnectToken.toList ++ '\n' :: (session.userId.toList ++ ['\n'])))

/-! ## What is read -/

/-- The value of a pair that is taken as a number: two digits, or a plus sign and a digit. -/
def numeralValue (a b : Char) : Option UInt8 :=
  if a = '+' then (Hex.digitValue b).map UInt8.ofNat else Hex.pairValue a b

/-- A pair of bytes is cut through a character, and the pairs before it are taken. -/
inductive CutsCharacter : List Char → Prop
  | here {s : List Char} (hlen : 2 ≤ Text.byteLen s) (hcut : Text.splitAtByte s 2 = none) :
    CutsCharacter s
  | there {a b : Char} {s : List Char} (htaken : (numeralValue a b).isSome)
    (hcuts : CutsCharacter s) : CutsCharacter (a :: b :: s)

variable {s l r : List Char} {a b : Char} {x : UInt8} {n : ℕ} {bytes : List UInt8}

theorem utf8Size_of_numeralValue (h : numeralValue a b = some x) :
    a.utf8Size = 1 ∧ b.utf8Size = 1 := by
  rw [numeralValue] at h
  split_ifs at h with hplus
  · obtain ⟨d, hd, -⟩ := Option.map_eq_some_iff.1 h
    exact ⟨hplus ▸ rfl, (Hex.bounds_of_digitValue hd).2⟩
  · obtain ⟨d, d', hd, hd', -⟩ := Hex.pairValue_eq_some_iff.1 h
    exact ⟨(Hex.bounds_of_digitValue hd).2, (Hex.bounds_of_digitValue hd').2⟩

/-- A pair that is taken is not cut through a character. -/
theorem splitAtByte_of_numeralValue (h : numeralValue a b = some x) :
    Text.splitAtByte (a :: b :: s) 2 = some ([a, b], s) := by
  obtain ⟨ha, hb⟩ := utf8Size_of_numeralValue h
  refine Text.splitAtByte_eq_some_iff.2 ⟨rfl, ?_⟩
  rw [Text.byteLen_cons, Text.byteLen_cons, Text.byteLen_nil, ha, hb]

theorem accumulate_singleton : accumulate 0 [b] = .ok x ↔
    (Hex.digitValue b).map UInt8.ofNat = some x := by
  rw [accumulate]
  cases hb : Hex.digitValue b with
  | none => exact iff_of_false nofun nofun
  | some d =>
    have hlt := (Hex.bounds_of_digitValue hb).1
    simp only [zero_mul, zero_add, if_pos (show d < 256 by omega), accumulate, Option.map_some]
    rw [Except.ok.injEq, Option.some.injEq]

theorem accumulate_pair : accumulate 0 [a, b] = .ok x ↔ Hex.pairValue a b = some x := by
  rw [accumulate, Hex.pairValue_eq_some_iff]
  cases ha : Hex.digitValue a with
  | none => exact iff_of_false nofun nofun
  | some d =>
    have hlt := (Hex.bounds_of_digitValue ha).1
    simp only [zero_mul, zero_add, if_pos (show d < 256 by omega), accumulate]
    cases hb : Hex.digitValue b with
    | none => exact iff_of_false nofun nofun
    | some d' =>
      have hlt' := (Hex.bounds_of_digitValue hb).1
      simp only [if_pos (show d * 16 + d' < 256 by omega), Except.ok.injEq]
      simp

theorem fromStrRadix16_pair : fromStrRadix16 [a, b] = .ok x ↔ numeralValue a b = some x := by
  have hhead : [a, b].head? = some '+' ↔ a = '+' := by simp
  rw [fromStrRadix16, if_neg (List.cons_ne_nil a [b]), if_neg (by simp), numeralValue]
  by_cases hplus : a = '+'
  · rw [if_pos (hhead.2 hplus), if_pos hplus]
    exact accumulate_singleton
  · rw [if_neg fun h => hplus (hhead.1 h), if_neg hplus]
    exact accumulate_pair

/-- A single character of more than one byte is not a number. -/
theorem fromStrRadix16_singleton (hsize : a.utf8Size ≠ 1) :
    fromStrRadix16 [a] = .error .invalidDigit := by
  have hdigit : Hex.digitValue a = none :=
    Option.eq_none_iff_forall_ne_some.2 fun d hd => hsize (Hex.bounds_of_digitValue hd).2
  have hplus : a ≠ '+' := by
    rintro rfl
    exact hsize rfl
  rw [fromStrRadix16, if_neg (List.cons_ne_nil a [])]
  split_ifs with hsign hhead
  · rfl
  · exact absurd (Option.some.inj hhead) hplus
  · rw [accumulate, hdigit]

/-- Of two bytes, a number is a pair of characters that is taken. -/
theorem fromStrRadix16_eq_ok_iff (hlen : Text.byteLen l = 2) :
    fromStrRadix16 l = .ok x ↔ ∃ a b, l = [a, b] ∧ numeralValue a b = some x := by
  rcases l with _ | ⟨a, _ | ⟨b, _ | ⟨c, l⟩⟩⟩
  · exact absurd hlen (by decide)
  · have hsize : a.utf8Size = 2 := by simpa using hlen
    rw [fromStrRadix16_singleton (by omega)]
    simp
  · rw [fromStrRadix16_pair]
    simp
  · have ha := a.utf8Size_pos
    have hb := b.utf8Size_pos
    have hc := c.utf8Size_pos
    rw [Text.byteLen_cons, Text.byteLen_cons, Text.byteLen_cons] at hlen
    omega

theorem CutsCharacter.two_le (h : CutsCharacter s) : 2 ≤ Text.byteLen s := by
  cases h with
  | here hlen _ => exact hlen
  | @there a b s _ _ =>
    have ha := a.utf8Size_pos
    have hb := b.utf8Size_pos
    rw [Text.byteLen_cons, Text.byteLen_cons]
    omega

/-- After a pair that is taken, it is the others that matter. -/
theorem cutsCharacter_iff_of_numeralValue (h : numeralValue a b = some x) :
    CutsCharacter (a :: b :: s) ↔ CutsCharacter s := by
  constructor
  · intro hcuts
    cases hcuts with
    | here _ hcut => rw [splitAtByte_of_numeralValue h] at hcut; cases hcut
    | there _ hcuts => exact hcuts
  · exact .there (Option.isSome_iff_exists.2 ⟨x, h⟩)

/-- If all pairs are taken, so is the first one. -/
theorem exists_of_decodePairs (hlen : 2 ≤ Text.byteLen s)
    (h : Hex.decodePairs numeralValue s = some bytes) :
    ∃ a b r x, s = a :: b :: r ∧ numeralValue a b = some x := by
  rcases s with _ | ⟨a, _ | ⟨b, r⟩⟩
  · exact absurd hlen (by decide)
  · cases h
  · obtain ⟨x, -, hx, -⟩ := Hex.decodePairs_eq_some_iff.1 h
    exact ⟨a, b, r, x, rfl, hx⟩

variable {pre rest : List Char} {i : ℕ}

theorem readPairs_of_none (h : hexPairAt s (i * 2) = none) :
    readPairs s i (n + 1) = none := by
  rw [readPairs, h]

theorem readPairs_of_error {e : IntErrorKind} (h : hexPairAt s (i * 2) = some (.error e)) :
    readPairs s i (n + 1) = some (.error (i, e)) := by
  rw [readPairs, h]

theorem readPairs_of_ok (h : hexPairAt s (i * 2) = some (.ok x)) :
    readPairs s i (n + 1) = (readPairs s (i + 1) n).map
      (Except.map fun bytes => (#v[x] ++ bytes).cast (Nat.add_comm 1 n)) := by
  rw [readPairs, h]

theorem hexPairAt_eq (hsplit : Text.splitAtByte s (i * 2) = some (pre, rest)) :
    hexPairAt s (i * 2) = ((Text.splitAtByte rest 2).map Prod.fst).map fromStrRadix16 := by
  rw [hexPairAt, Text.slice_eq hsplit]

/-- A pair that panics is cut through a character. -/
theorem splitAtByte_of_hexPairAt_none (hsplit : Text.splitAtByte s (i * 2) = some (pre, rest))
    (h : hexPairAt s (i * 2) = none) : Text.splitAtByte rest 2 = none := by
  rw [hexPairAt_eq hsplit] at h
  exact Option.map_eq_none_iff.1 (Option.map_eq_none_iff.1 h)

/-- A pair that is not taken is not cut through a character, and neither are those after it. -/
theorem not_taken_of_hexPairAt_error {e : IntErrorKind}
    (hsplit : Text.splitAtByte s (i * 2) = some (pre, rest)) (htwo : 2 ≤ Text.byteLen rest)
    (h : hexPairAt s (i * 2) = some (.error e)) :
    ¬CutsCharacter rest ∧ Hex.decodePairs numeralValue rest = none := by
  rw [hexPairAt_eq hsplit, Option.map_map, Option.map_eq_some_iff] at h
  obtain ⟨⟨l, r⟩, hcut, hnumber⟩ := h
  have hne {a b : Char} {r' : List Char} (heq : rest = a :: b :: r') : numeralValue a b = none := by
    refine Option.eq_none_iff_forall_ne_some.2 fun x hx => ?_
    rw [heq, splitAtByte_of_numeralValue hx] at hcut
    cases hcut
    cases hnumber.symm.trans (fromStrRadix16_pair.2 hx)
  constructor
  · intro hcuts
    cases hcuts with
    | here _ hnone => cases hcut.symm.trans hnone
    | there htaken _ =>
      rw [hne rfl] at htaken
      cases htaken
  · refine Option.eq_none_iff_forall_ne_some.2 fun bytes hbytes => ?_
    obtain ⟨a, b, r', x, heq, hx⟩ := exists_of_decodePairs htwo hbytes
    rw [hne heq] at hx
    cases hx

/-- A pair that is taken is followed by the next one. -/
theorem taken_of_hexPairAt_ok (hsplit : Text.splitAtByte s (i * 2) = some (pre, rest))
    (h : hexPairAt s (i * 2) = some (.ok x)) :
    ∃ a b r, rest = a :: b :: r ∧ numeralValue a b = some x ∧
      Text.splitAtByte s ((i + 1) * 2) = some (pre ++ [a, b], r) := by
  rw [hexPairAt_eq hsplit, Option.map_map, Option.map_eq_some_iff] at h
  obtain ⟨⟨l, r⟩, hcut, hnumber⟩ := h
  obtain ⟨rfl, hl⟩ := Text.splitAtByte_eq_some_iff.1 hcut
  obtain ⟨a, b, rfl, hx⟩ := (fromStrRadix16_eq_ok_iff hl).1 hnumber
  have hsplit' := Text.splitAtByte_add hsplit hcut
  rw [← Nat.succ_mul] at hsplit'
  exact ⟨a, b, r, rfl, hx, hsplit'⟩

theorem toList_cons_cast (w : Vector UInt8 n) (h : 1 + n = n + 1) :
    ((#v[x] ++ w).cast h).toList = x :: w.toList := by
  rw [Vector.toList_cast, Vector.toList_append]
  rfl

/-- Reading pairs to the end of a text panics exactly if one is cut through a character, and gives
    the bytes exactly if all pairs are taken. -/
theorem readPairs_spec (hsplit : Text.splitAtByte s (i * 2) = some (pre, rest))
    (hlen : Text.byteLen rest = n * 2) :
    (readPairs s i n = none ↔ CutsCharacter rest) ∧
      ∀ v, readPairs s i n = some (.ok v) ↔
        Hex.decodePairs numeralValue rest = some v.toList := by
  induction n generalizing i pre rest with
  | zero =>
    rcases rest with _ | ⟨c, rest⟩
    · refine ⟨iff_of_false nofun fun h => absurd h.two_le (by decide), fun v => ?_⟩
      simp [readPairs, Vector.eq_empty]
    · have hc := c.utf8Size_pos
      rw [Text.byteLen_cons] at hlen
      omega
  | succ n ih =>
    have htwo : 2 ≤ Text.byteLen rest := by omega
    rcases hpair : hexPairAt s (i * 2) with _ | e | x
    · have hcut := splitAtByte_of_hexPairAt_none hsplit hpair
      rw [readPairs_of_none hpair]
      refine ⟨iff_of_true rfl (.here htwo hcut), fun v => iff_of_false nofun fun h => ?_⟩
      obtain ⟨a, b, r, x, rfl, hx⟩ := exists_of_decodePairs htwo h
      cases hcut.symm.trans (splitAtByte_of_numeralValue hx)
    · obtain ⟨hcuts, hdecode⟩ := not_taken_of_hexPairAt_error hsplit htwo hpair
      rw [readPairs_of_error hpair]
      exact ⟨iff_of_false nofun hcuts, fun v => iff_of_false nofun fun h =>
        nomatch hdecode.symm.trans h⟩
    · obtain ⟨a, b, r, rfl, hx, hsplit'⟩ := taken_of_hexPairAt_ok hsplit hpair
      obtain ⟨ha, hb⟩ := utf8Size_of_numeralValue hx
      rw [Text.byteLen_cons, Text.byteLen_cons, ha, hb] at hlen
      obtain ⟨hnone, hok⟩ := ih hsplit' (by omega)
      rw [readPairs_of_ok hpair, Option.map_eq_none_iff]
      refine ⟨hnone.trans (cutsCharacter_iff_of_numeralValue hx).symm, fun v => ?_⟩
      rw [Option.map_eq_some_iff, Hex.decodePairs_eq_some_iff]
      constructor
      · rintro ⟨bytes, hread, hbytes⟩
        obtain ⟨w, rfl, rfl⟩ := Except.map_eq_ok.1 hbytes
        exact ⟨x, w.toList, hx, (hok w).1 hread, (toList_cons_cast w _).symm⟩
      · rintro ⟨x', bytes, hx', hbytes, hv⟩
        cases hx.symm.trans hx'
        have hlength : bytes.length = n := by
          have := congrArg List.length hv
          rw [List.length_cons, Vector.length_toList] at this
          omega
        refine ⟨.ok ⟨bytes.toArray, hlength⟩, (hok _).2 hbytes, congrArg Except.ok ?_⟩
        rw [← Vector.toList_inj, ← hv, toList_cons_cast]
        rfl

/-- Two bytes for each pair that is taken. -/
theorem byteLen_of_decodePairs (h : Hex.decodePairs numeralValue s = some bytes) :
    Text.byteLen s = bytes.length * 2 := by
  fun_induction Hex.decodePairs numeralValue s generalizing bytes with
  | case1 => cases h; rfl
  | case2 => cases h
  | case3 a b s ih =>
    obtain ⟨x, rest, hx, hrest, rfl⟩ := Hex.decodePairs_eq_some_iff.1 h
    obtain ⟨ha, hb⟩ := utf8Size_of_numeralValue hx
    rw [Text.byteLen_cons, Text.byteLen_cons, ih hrest, ha, hb, List.length_cons]
    omega

/-- Reading bytes panics exactly if they are pairs, and one is cut through a character. -/
theorem parseHexBytes_eq_none_iff :
    parseHexBytes s = none ↔ Text.byteLen s % 2 = 0 ∧ CutsCharacter s := by
  rw [parseHexBytes]
  split_ifs with hodd
  · exact iff_of_false nofun fun h => hodd h.1
  · have hlen : Text.byteLen s = Text.byteLen s / 2 * 2 := by omega
    have hstart : Text.splitAtByte s (0 * 2) = some ([], s) := Text.splitAtByte_zero
    rw [Option.map_eq_none_iff, (readPairs_spec hstart hlen).1, and_iff_right (not_not.1 hodd)]

theorem parseHexBytes_eq_some_iff :
    parseHexBytes s = some (some bytes) ↔ Hex.decodePairs numeralValue s = some bytes := by
  rw [parseHexBytes]
  split_ifs with hodd
  · refine iff_of_false nofun fun h => ?_
    rw [byteLen_of_decodePairs h] at hodd
    omega
  · have hlen : Text.byteLen s = Text.byteLen s / 2 * 2 := by omega
    have hstart : Text.splitAtByte s (0 * 2) = some ([], s) := Text.splitAtByte_zero
    have hok := (readPairs_spec hstart hlen).2
    rw [Option.map_eq_some_iff]
    constructor
    · rintro ⟨r, hread, hbytes⟩
      obtain ⟨v, hv, rfl⟩ := Option.map_eq_some_iff.1 hbytes
      obtain rfl : r = .ok v := by
        cases r with
        | error e => cases hv
        | ok w => exact congrArg Except.ok (Option.some.inj hv)
      exact (hok v).1 hread
    · intro h
      have hlength : bytes.length = Text.byteLen s / 2 := by
        have := byteLen_of_decodePairs h
        omega
      exact ⟨.ok ⟨bytes.toArray, hlength⟩, (hok _).2 h, rfl⟩

/-- Reading a line panics exactly if there is one, and one of its pairs is cut. -/
theorem parseHexLine_eq_none_iff {line : Option (List Char)} :
    parseHexLine n line = none ↔ ∃ l ∈ line, Text.byteLen l % 2 = 0 ∧ CutsCharacter l := by
  cases line with
  | none => exact iff_of_false nofun nofun
  | some l =>
    rw [parseHexLine, Option.map_eq_none_iff, parseHexBytes_eq_none_iff]
    simp

/-- A line is read if all of its pairs are taken, and they are as many as they should be. -/
theorem parseHexLine_eq_some_iff {line : Option (List Char)} {v : Vector UInt8 n} :
    parseHexLine n line = some (some v) ↔
      ∃ l ∈ line, Hex.decodePairs numeralValue l = some v.toList := by
  cases line with
  | none => exact iff_of_false nofun nofun
  | some l =>
    simp only [parseHexLine, Option.map_eq_some_iff, Option.mem_some_iff, exists_eq_left',
      ← parseHexBytes_eq_some_iff]
    constructor
    · rintro ⟨r, hread, hbind⟩
      obtain ⟨bytes, rfl, hinto⟩ := Option.bind_eq_some_iff.1 hbind
      rw [hread, tryInto_eq_some.1 hinto]
    · exact fun h => ⟨_, h, tryInto_eq_some.2 rfl⟩

/-! ## Digits only -/

theorem pairValue_iff_numeralValue :
    Hex.pairValue a b = some x ↔ numeralValue a b = some x ∧ a ≠ '+' := by
  rw [numeralValue]
  split_ifs with hplus
  · refine iff_of_false (fun h => ?_) fun h => h.2 hplus
    obtain ⟨d, -, hd, -⟩ := Hex.pairValue_eq_some_iff.1 h
    have hnone : Hex.digitValue '+' = none := by decide
    rw [hplus, hnone] at hd
    cases hd
  · rw [and_iff_left hplus]

/-- The second character of a pair is a digit, not a sign. -/
theorem ne_plus_of_numeralValue (h : numeralValue a b = some x) : b ≠ '+' := by
  rintro rfl
  have hplus : Hex.digitValue '+' = none := by decide
  rw [numeralValue, Hex.pairValue, hplus] at h
  split_ifs at h
  · cases h
  · cases hd : Hex.digitValue a <;> rw [hd] at h <;> cases h

/-- The pairs that are taken are of digits if there is no plus sign. -/
theorem decode_iff_decodePairs : Hex.decode s = some bytes ↔
    Hex.decodePairs numeralValue s = some bytes ∧ '+' ∉ s := by
  rw [Hex.decode]
  induction s using Hex.decodePairs.induct generalizing bytes with
  | case1 => simp
  | case2 => simp
  | case3 a b s ih =>
    rw [Hex.decodePairs_eq_some_iff, Hex.decodePairs_eq_some_iff]
    constructor
    · rintro ⟨x, rest, hx, hrest, rfl⟩
      obtain ⟨hx, ha⟩ := pairValue_iff_numeralValue.1 hx
      obtain ⟨hrest, hs⟩ := ih.1 hrest
      exact ⟨⟨x, rest, hx, hrest, rfl⟩, by
        simp [Ne.symm ha, Ne.symm (ne_plus_of_numeralValue hx), hs]⟩
    · rintro ⟨⟨x, rest, hx, hrest, rfl⟩, hs⟩
      rw [List.mem_cons, List.mem_cons, not_or, not_or] at hs
      exact ⟨x, rest, pairValue_iff_numeralValue.2 ⟨hx, Ne.symm hs.1⟩, ih.2 ⟨hrest, hs.2.2⟩, rfl⟩

/-! ## The round trip -/

/-- A line of digits is read as the bytes written. -/
theorem parseHexLine_hexEncode (v : Vector UInt8 n) :
    parseHexLine n (some (hexEncode v.toList)) = some (some v) :=
  parseHexLine_eq_some_iff.2 ⟨_, rfl, (decode_iff_decodePairs.1 (Hex.decode_encode v.toList)).1⟩

/-- A character that is not a digit does not occur in what is written. -/
theorem not_mem_hexEncode {c : Char} (hc : Hex.digitValue c = none) (bytes : List UInt8) :
    c ∉ hexEncode bytes := by
  intro h
  have hsome := Hex.isSome_digitValue_of_mem_encode h
  rw [hc] at hsome
  cases hsome

/-- A line of digits is the first line of what is written so. -/
theorem lines_hexEncode (bytes : List UInt8) (rest : List Char) :
    Text.lines (hexEncode bytes ++ '\n' :: rest) = hexEncode bytes :: Text.lines rest := by
  have hreturn : '\r' ∉ hexEncode bytes := not_mem_hexEncode (by decide) bytes
  rw [Text.lines_append (not_mem_hexEncode (by decide) bytes), Text.stripReturn_eq_self_iff.2]
  exact fun h => hreturn (List.mem_of_getLast? h)

/-- Of a session that has been written, the name of the user is read as far as its line goes. -/
theorem parseSavedSession_format (session : SavedSession) :
    parseSavedSession (formatSavedSession session) =
      some ((Text.lines (session.userId.toList ++ ['\n'])).head?.map fun userId =>
        { session with userId := .ofList userId }) := by
  rw [parseSavedSession, formatSavedSession, String.toList_ofList, lines_hexEncode,
    lines_hexEncode]
  simp only [List.getElem?_cons_zero, List.getElem?_cons_succ, parseHexLine_hexEncode,
    List.head?_eq_getElem?]

/-- A session is read back as it was written exactly if the name of its user has no line feed, and
    no carriage return at its end. -/
theorem parseSavedSession_format_iff (session : SavedSession) :
    parseSavedSession (formatSavedSession session) = some (some session) ↔
      '\n' ∉ session.userId.toList ∧ session.userId.toList.getLast? ≠ some '\r' := by
  rw [parseSavedSession_format, Option.some.injEq, ← Text.head?_lines_iff, Option.map_eq_some_iff]
  constructor
  · rintro ⟨userId, hhead, heq⟩
    have huser : String.ofList userId = session.userId := congrArg SavedSession.userId heq
    rw [hhead, ← huser, String.toList_ofList]
  · exact fun hhead => ⟨_, hhead, by rw [String.ofList_toList]⟩

/-- The name of a user with a line feed in it. -/
theorem not_parseSavedSession_format :
    ∃ session : SavedSession, session = ⟨.replicate 16 0x11, .replicate 32 0x22, "a\nb"⟩ ∧
      parseSavedSession (formatSavedSession session) ≠ some (some session) := by
  refine ⟨_, rfl, ?_⟩
  -- the name is read as far as its first line goes
  rw [parseSavedSession_format]
  decide +kernel

end Sardp
