import Sardp.Client.SavedSession

/-!
# Hexadecimal input

Keys are given to the programs as hexadecimal numbers of 64 digits (`dev_identity.rs`), and saved
sessions have a line of 32 digits and one of 64. Both are to be read strictly: whatever the text is,
they are read exactly if they consist of pairs of digits, as the bytes these denote.

That is so unless a pair is cut through a character, which panics, or has a plus sign for its first
digit (`hexFields_strict_iff`).
-/

namespace Sardp

/-- Reading a key; `none` if that panics. -/
def parseHex32 (s : String) : Option (Except String (Vector UInt8 32)) :=
  if Text.byteLen s.toList ≠ 64 then
    some (.error ("expected 64 hex characters (32 bytes), got " ++
      toString (Text.byteLen s.toList) ++ " characters"))
  else
    (readPairs s.toList 0 32).map (Except.mapError fun (i, e) =>
      "invalid hex at byte " ++ toString i ++ ": " ++ e.message)

/-- A key is read without a panic, exactly if it consists of digits, and as what they denote. -/
def Hex32Strict (s : String) : Prop :=
  ∃ r, parseHex32 s = some r ∧ ∀ key, r = .ok key ↔ Hex.decode s.toList = some key.toList

/-- The lines of a session: two of pairs of such values, and the name of the user. -/
def LinesOf (value : Char → Char → Option UInt8) (lines : List (List Char))
    (session : SavedSession) : Prop :=
  ∃ l₁ ∈ lines[0]?, ∃ l₂ ∈ lines[1]?, ∃ l₃ ∈ lines[2]?,
    Hex.decodePairs value l₁ = some session.sessionId.toList ∧
      Hex.decodePairs value l₂ = some session.reconnectToken.toList ∧
        String.ofList l₃ = session.userId

/-- A session is read without a panic, exactly if its lines are of digits, and as what they
    denote. -/
def SavedStrict (contents : String) : Prop :=
  ∃ r, parseSavedSession contents = some r ∧
    ∀ session, r = some session ↔ LinesOf Hex.pairValue (Text.lines contents.toList) session

/-- No pair is cut through a character, before any that is not taken. -/
def Uncut (s : List Char) : Prop := ¬(Text.byteLen s % 2 = 0 ∧ CutsCharacter s)

/-- All pairs are taken, and they are as many. -/
def TakenAs (n : ℕ) (s : List Char) : Prop :=
  ∃ v : Vector UInt8 n, Hex.decodePairs numeralValue s = some v.toList

/-- Of the lines that are read, none is cut through a character, and if they are all taken then they
    have no plus sign. -/
def StrictLines (lines : List (List Char)) : Prop :=
  ∀ l₁ ∈ lines[0]?, Uncut l₁ ∧ (TakenAs 16 l₁ →
    ∀ l₂ ∈ lines[1]?, Uncut l₂ ∧ (TakenAs 32 l₂ → lines[2]?.isSome → '+' ∉ l₁ ∧ '+' ∉ l₂))

variable {l l₁ l₂ : List Char} {lines : List (List Char)} {n : ℕ}

/-- What is taken is of digits, if there is no plus sign. -/
theorem decode_iff_of_decodePairs {v w : Vector UInt8 n}
    (h : Hex.decodePairs numeralValue l = some v.toList) :
    Hex.decode l = some w.toList ↔ v = w ∧ '+' ∉ l := by
  rw [decode_iff_decodePairs, h, Option.some.injEq, Vector.toList_inj]

/-! ## Keys -/

theorem hex32Strict_iff (s : String) :
    Hex32Strict s ↔ (Text.byteLen s.toList = 64 →
      ¬CutsCharacter s.toList ∧ (TakenAs 32 s.toList → '+' ∉ s.toList)) := by
  by_cases hlen : Text.byteLen s.toList = 64
  · have hstart : Text.splitAtByte s.toList (0 * 2) = some ([], s.toList) := Text.splitAtByte_zero
    have hpairs : Text.byteLen s.toList = 32 * 2 := hlen
    obtain ⟨hnone, hok⟩ := readPairs_spec hstart hpairs
    have hparse : parseHex32 s = (readPairs s.toList 0 32).map (Except.mapError fun (i, e) =>
        "invalid hex at byte " ++ toString i ++ ": " ++ e.message) := if_neg (not_not.2 hlen)
    rw [Hex32Strict, hparse, forall_prop_of_true hlen]
    constructor
    · rintro ⟨r, hr, hstrict⟩
      obtain ⟨bytes, hread, rfl⟩ := Option.map_eq_some_iff.1 hr
      refine ⟨fun hcuts => ?_, fun ⟨v, hv⟩ => ?_⟩
      · rw [hnone.2 hcuts] at hread
        cases hread
      · rw [(hok v).2 hv] at hread
        cases hread
        exact ((decode_iff_of_decodePairs hv).1 ((hstrict v).1 rfl)).2
    · rintro ⟨hcuts, hplus⟩
      obtain ⟨bytes, hread⟩ := Option.ne_none_iff_exists'.1 (mt hnone.1 hcuts)
      refine ⟨_, by rw [hread, Option.map_some], fun key => ?_⟩
      rw [Except.mapError_eq_ok, ← Option.some_inj, ← hread, hok, decode_iff_decodePairs]
      exact ⟨fun h => ⟨h, hplus ⟨key, h⟩⟩, fun h => h.1⟩
  · have hparse : ∃ e, parseHex32 s = some (.error e) := ⟨_, if_pos hlen⟩
    obtain ⟨e, he⟩ := hparse
    refine iff_of_true ⟨_, he, fun key => iff_of_false nofun fun hdecode => hlen ?_⟩
      fun h => absurd h hlen
    rw [byteLen_of_decodePairs (decode_iff_decodePairs.1 hdecode).1, Vector.length_toList]

/-! ## Saved sessions -/

variable {contents : String} {session : SavedSession} {line : Option (List Char)}

theorem parseHexLine_eq_none_iff' :
    parseHexLine n line = none ↔ ∃ l ∈ line, ¬Uncut l := by
  simp only [parseHexLine_eq_none_iff, Uncut, not_not]

/-- Reading a session panics where the first line does, or the second one if the first is taken. -/
theorem parseSavedSession_eq_none_iff : parseSavedSession contents = none ↔
    ∃ l₁ ∈ (Text.lines contents.toList)[0]?, ¬Uncut l₁ ∨ TakenAs 16 l₁ ∧
      ∃ l₂ ∈ (Text.lines contents.toList)[1]?, ¬Uncut l₂ := by
  rw [parseSavedSession]
  generalize Text.lines contents.toList = lines
  have hnone : parseHexLine 16 lines[0]? = none ↔ _ := parseHexLine_eq_none_iff'
  have hnone' : parseHexLine 32 lines[1]? = none ↔ _ := parseHexLine_eq_none_iff'
  have hsome (v : Vector UInt8 16) : parseHexLine 16 lines[0]? = some (some v) ↔ _ :=
    parseHexLine_eq_some_iff
  rcases h : parseHexLine 16 lines[0]? with _ | _ | sessionId
  · obtain ⟨l₁, hl₁, hcut⟩ := hnone.1 h
    exact iff_of_true rfl ⟨l₁, hl₁, .inl hcut⟩
  · -- the first line is not taken
    refine iff_of_false (Option.some_ne_none _) ?_
    rintro ⟨l₁, hl₁, hcut | ⟨⟨v, hv⟩, -⟩⟩
    · cases h.symm.trans (hnone.2 ⟨l₁, hl₁, hcut⟩)
    · cases h.symm.trans ((hsome v).2 ⟨l₁, hl₁, hv⟩)
  · obtain ⟨l₁, hl₁, hid⟩ := (hsome sessionId).1 h
    have hsecond : (∃ l₁ ∈ lines[0]?, ¬Uncut l₁ ∨ TakenAs 16 l₁ ∧ ∃ l₂ ∈ lines[1]?, ¬Uncut l₂) ↔
        parseHexLine 32 lines[1]? = none := by
      rw [hnone']
      constructor
      · rintro ⟨l₁', hl₁', hcut | ⟨-, hl₂⟩⟩
        · cases h.symm.trans (hnone.2 ⟨l₁', hl₁', hcut⟩)
        · exact hl₂
      · exact fun h => ⟨l₁, hl₁, .inr ⟨⟨sessionId, hid⟩, h⟩⟩
    rw [hsecond]
    rcases parseHexLine 32 lines[1]? with _ | _ | reconnectToken
    · exact iff_of_true rfl rfl
    · exact iff_of_false (Option.some_ne_none _) (Option.some_ne_none _)
    · exact iff_of_false (Option.some_ne_none _) (Option.some_ne_none _)

/-- A session is read if the first two lines are taken, and there is a third one. -/
theorem parseSavedSession_eq_some_iff : parseSavedSession contents = some (some session) ↔
    LinesOf numeralValue (Text.lines contents.toList) session := by
  rw [parseSavedSession]
  generalize Text.lines contents.toList = lines
  have hsome (v : Vector UInt8 16) : parseHexLine 16 lines[0]? = some (some v) ↔ _ :=
    parseHexLine_eq_some_iff
  have hsome' (v : Vector UInt8 32) : parseHexLine 32 lines[1]? = some (some v) ↔ _ :=
    parseHexLine_eq_some_iff
  have hlines : LinesOf numeralValue lines session ↔
      parseHexLine 16 lines[0]? = some (some session.sessionId) ∧
        parseHexLine 32 lines[1]? = some (some session.reconnectToken) ∧
          ∃ l₃ ∈ lines[2]?, String.ofList l₃ = session.userId := by
    rw [hsome, hsome']
    constructor
    · rintro ⟨l₁, hl₁, l₂, hl₂, l₃, hl₃, hid, htoken, huser⟩
      exact ⟨⟨l₁, hl₁, hid⟩, ⟨l₂, hl₂, htoken⟩, l₃, hl₃, huser⟩
    · rintro ⟨⟨l₁, hl₁, hid⟩, ⟨l₂, hl₂, htoken⟩, l₃, hl₃, huser⟩
      exact ⟨l₁, hl₁, l₂, hl₂, l₃, hl₃, hid, htoken, huser⟩
  rw [hlines]
  rcases parseHexLine 16 lines[0]? with _ | _ | sessionId
  · simp
  · simp
  rcases parseHexLine 32 lines[1]? with _ | _ | reconnectToken
  · simp
  · simp
  obtain ⟨sessionId', reconnectToken', userId⟩ := session
  simp only [Option.some.injEq, Option.map_eq_some_iff, SavedSession.mk.injEq]
  constructor
  · rintro ⟨l₃, hl₃, hid, htoken, huser⟩
    exact ⟨hid, htoken, l₃, hl₃, huser⟩
  · rintro ⟨hid, htoken, l₃, hl₃, huser⟩
    exact ⟨l₃, hl₃, hid, htoken, huser⟩

theorem decode_of_not_mem {bytes : List UInt8} (h : '+' ∉ l)
    (hread : Hex.decodePairs numeralValue l = some bytes) :
    Hex.decodePairs Hex.pairValue l = some bytes := decode_iff_decodePairs.2 ⟨hread, h⟩

/-- A session is read strictly if there is no panic, and what is taken is of digits. -/
theorem savedStrict_iff_linesOf : SavedStrict contents ↔ parseSavedSession contents ≠ none ∧
    ∀ session, LinesOf numeralValue (Text.lines contents.toList) session →
      LinesOf Hex.pairValue (Text.lines contents.toList) session := by
  constructor
  · rintro ⟨r, hr, hstrict⟩
    refine ⟨by rw [hr]; nofun, fun session => ?_⟩
    rw [← hstrict, ← parseSavedSession_eq_some_iff, hr, Option.some.injEq]
    exact id
  · rintro ⟨hne, hlines⟩
    obtain ⟨r, hr⟩ := Option.ne_none_iff_exists'.1 hne
    refine ⟨r, hr, fun session => ?_⟩
    rw [← Option.some.injEq, ← hr, parseSavedSession_eq_some_iff]
    refine ⟨hlines session, ?_⟩
    rintro ⟨l₁, hl₁, l₂, hl₂, l₃, hl₃, hid, htoken, huser⟩
    exact ⟨l₁, hl₁, l₂, hl₂, l₃, hl₃, (decode_iff_decodePairs.1 hid).1,
      (decode_iff_decodePairs.1 htoken).1, huser⟩

theorem savedStrict_iff (contents : String) :
    SavedStrict contents ↔ StrictLines (Text.lines contents.toList) := by
  rw [savedStrict_iff_linesOf, Ne, parseSavedSession_eq_none_iff]
  generalize Text.lines contents.toList = lines
  constructor
  · rintro ⟨huncut, hlines⟩ l₁ hl₁
    refine ⟨by_contra fun hcut => huncut ⟨l₁, hl₁, .inl hcut⟩, fun htaken l₂ hl₂ => ?_⟩
    refine ⟨by_contra fun hcut => huncut ⟨l₁, hl₁, .inr ⟨htaken, l₂, hl₂, hcut⟩⟩, ?_⟩
    intro htaken' hthird
    obtain ⟨sessionId, hid⟩ := htaken
    obtain ⟨reconnectToken, htoken⟩ := htaken'
    obtain ⟨l₃, hl₃⟩ := Option.isSome_iff_exists.1 hthird
    -- the session that is read is one of digits
    obtain ⟨l₁', hl₁', l₂', hl₂', -, -, hid', htoken', -⟩ :=
      hlines ⟨sessionId, reconnectToken, .ofList l₃⟩
        ⟨l₁, hl₁, l₂, hl₂, l₃, hl₃, hid, htoken, rfl⟩
    cases Option.mem_unique hl₁ hl₁'
    cases Option.mem_unique hl₂ hl₂'
    exact ⟨(decode_iff_decodePairs.1 hid').2, (decode_iff_decodePairs.1 htoken').2⟩
  · intro h
    constructor
    · rintro ⟨l₁, hl₁, hcut | ⟨htaken, l₂, hl₂, hcut⟩⟩
      · exact hcut (h l₁ hl₁).1
      · exact hcut ((h l₁ hl₁).2 htaken l₂ hl₂).1
    · rintro session ⟨l₁, hl₁, l₂, hl₂, l₃, hl₃, hid, htoken, huser⟩
      obtain ⟨hplus, hplus'⟩ := ((h l₁ hl₁).2 ⟨_, hid⟩ l₂ hl₂).2 ⟨_, htoken⟩
        (Option.isSome_iff_exists.2 ⟨l₃, hl₃⟩)
      exact ⟨l₁, hl₁, l₂, hl₂, l₃, hl₃, decode_of_not_mem hplus hid,
        decode_of_not_mem hplus' htoken, huser⟩

/-- A text is read strictly as a key, or as a session, unless a pair is cut through a character or
    has a plus sign where it must not. -/
theorem hexFields_strict_iff (s : String) :
    (Hex32Strict s ↔ (Text.byteLen s.toList = 64 →
      ¬CutsCharacter s.toList ∧ (TakenAs 32 s.toList → '+' ∉ s.toList))) ∧
    (SavedStrict s ↔ StrictLines (Text.lines s.toList)) :=
  ⟨hex32Strict_iff s, savedStrict_iff s⟩

theorem not_hex32Strict_of_panic {s : String} (h : parseHex32 s = none) : ¬Hex32Strict s := by
  rintro ⟨r, hr, -⟩
  cases h.symm.trans hr

theorem not_hex32Strict_of_ok {s : String} (key : Vector UInt8 32)
    (h : parseHex32 s = some (.ok key)) (hdecode : Hex.decode s.toList = none) :
    ¬Hex32Strict s := by
  rintro ⟨r, hr, hstrict⟩
  cases h.symm.trans hr
  cases hdecode.symm.trans ((hstrict key).1 rfl)

/-- Keys of 64 bytes: one with a character of two bytes at an odd position, which panics, and one
    with a plus sign in each pair, which is read. -/
theorem not_hexFields_strict :
    ¬Hex32Strict (.ofList ('a' :: 'é' :: List.replicate 61 '0')) ∧
      ¬Hex32Strict (.ofList (List.replicate 32 ['+', 'f']).flatten) := by
  constructor
  · exact not_hex32Strict_of_panic (by decide +kernel)
  · exact not_hex32Strict_of_ok (.replicate 32 15) (by decide +kernel) (by decide +kernel)

end Sardp
