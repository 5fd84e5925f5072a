import Mathlib.Data.UInt
import Sardp.Library.Delimiters

/-!
# NAL units

An encoder gives the units of a picture in one list of bytes, each after a start code of three or
four bytes (`h264.rs`). A unit is told by its first byte alone.

* `nalSpans` finds the units by their positions; `map_extract_nalSpans` says that they are the
  sections between the start codes, without those that are empty.
* A start code may come about where two lists meet, but not if the second one starts with a start
  code that cannot be mistaken for a longer one (`separate_startCode`). So splitting undoes joining
  (`splitAnnexB_join`).
-/

namespace Sardp

/-- One unit: its type and its bytes. -/
structure NalUnit where
  nalType : UInt8
  bytes : List UInt8
  deriving DecidableEq

/-- The type of a unit of these bytes, the lower five bits of the first one. -/
def nalTypeOf (bytes : List UInt8) : UInt8 := bytes.headD 0 &&& 0x1F

/-- The unit of these bytes. -/
def NalUnit.ofBytes (bytes : List UInt8) : NalUnit := ⟨nalTypeOf bytes, bytes⟩

def NAL_TYPE_SLICE_IDR : UInt8 := 5
def NAL_TYPE_SPS : UInt8 := 7
def NAL_TYPE_PPS : UInt8 := 8

/-- The start codes, of three bytes and of four. -/
def startCode : Delimiter UInt8 where
  atHead xs :=
    if [0, 0, 1] <+: xs then some 3
    else if [0, 0, 0, 1] <+: xs then some 4
    else none
  pos h := by
    split_ifs at h
    all_goals cases h
    all_goals omega
  le_length h := by
    split_ifs at h with hthree hfour
    · cases h
      exact hthree.length_le
    · cases h
      exact hfour.length_le
  atHead_append ys h := by
    split_ifs at h with hthree hfour
    · rw [if_pos (hthree.trans (List.prefix_append _ ys)), h]
    · -- what starts with the longer code does not start with the shorter one
      obtain ⟨xs, rfl⟩ := hfour
      rw [if_neg (by simp [List.cons_prefix_cons]),
        if_pos ((List.prefix_append _ xs).trans (List.prefix_append _ ys)), h]

/-- The next start code from a position on: where it starts, and where the unit after it does. -/
def findStartCode (buf : List UInt8) (start : ℕ) : Option (ℕ × ℕ) :=
  (startCode.find (buf.drop start)).map fun (i, j) => (start + i, start + j)

theorem findStartCode_bounds {buf : List UInt8} {start sc nal : ℕ}
    (h : findStartCode buf start = some (sc, nal)) :
    start ≤ sc ∧ sc < nal ∧ nal ≤ buf.length := by
  obtain ⟨⟨i, j⟩, hfind, heq⟩ := Option.map_eq_some_iff.1 h
  cases heq
  have hbounds := Delimiter.find_bounds hfind
  rw [List.length_drop] at hbounds
  omega

/-- The positions of a unit: of its start code, of the unit and of its end. An empty unit is left
    out. -/
def nalSpan (scStart nalStart stop : ℕ) : List (ℕ × ℕ × ℕ) :=
  if stop > nalStart then [(scStart, nalStart, stop)] else []

/-- The positions of the units from a start code on. -/
def nalSpansFrom (buf : List UInt8) (scStart nalStart : ℕ) : List (ℕ × ℕ × ℕ) :=
  match _h : findStartCode buf nalStart with
  | none => nalSpan scStart nalStart buf.length
  | some (nextSc, nextNal) =>
    nalSpan scStart nalStart nextSc ++ nalSpansFrom buf nextSc nextNal
termination_by buf.length - nalStart
decreasing_by
  have := findStartCode_bounds _h
  omega

/-- The positions of all units. What comes before the first start code is ignored. -/
def nalSpans (buf : List UInt8) : List (ℕ × ℕ × ℕ) :=
  match findStartCode buf 0 with
  | none => []
  | some (scStart, nalStart) => nalSpansFrom buf scStart nalStart

/-- The units of a list of bytes. -/
def splitAnnexB (buf : List UInt8) : List NalUnit :=
  (nalSpans buf).map fun (_, nalStart, stop) => .ofBytes (buf.extract nalStart stop)

/-- The types of the units. -/
def nalUnitTypes (buf : List UInt8) : List UInt8 := (splitAnnexB buf).map NalUnit.nalType

def containsIdrSlice (buf : List UInt8) : Bool :=
  (splitAnnexB buf).any fun u => u.nalType = NAL_TYPE_SLICE_IDR

def containsSps (buf : List UInt8) : Bool :=
  (splitAnnexB buf).any fun u => u.nalType = NAL_TYPE_SPS

/-- The access unit is one of an IDR picture: the encoder says so, or the bytes do. -/
def isIdrAccessUnit (buf : List UInt8) (encoderKeyframeFlag : Bool) : Bool :=
  encoderKeyframeFlag || containsIdrSlice buf

/-- Taking the parameter sets out of an access unit, with their start codes, and noting which have
    been seen. -/
def collectParameterSets (buf : List UInt8) :
    List (ℕ × ℕ × ℕ) → Bool → Bool → List UInt8 → Bool × Bool × List UInt8
  | [], sps, pps, out => (sps, pps, out)
  | (scStart, nalStart, stop) :: spans, sps, pps, out =>
    let nalType := nalTypeOf (buf.drop nalStart)
    if nalType = NAL_TYPE_SPS then
      collectParameterSets buf spans true pps (out ++ buf.extract scStart stop)
    else if nalType = NAL_TYPE_PPS then
      collectParameterSets buf spans sps true (out ++ buf.extract scStart stop)
    else collectParameterSets buf spans sps pps out

/-- The parameter sets of an access unit, if it has both. -/
def extractParameterSets (buf : List UInt8) : Option (List UInt8) :=
  let (sps, pps, out) := collectParameterSets buf (nalSpans buf) false false []
  if sps && pps then some out else none

/-- Going through the types of the units, with what has been seen of the parameter sets, up to the
    first slice of an IDR picture. -/
def seesSetsFirst : List UInt8 → Bool → Bool → Bool
  | [], _, _ => false
  | nalType :: types, seenSps, seenPps =>
    if nalType = NAL_TYPE_SPS then seesSetsFirst types true seenPps
    else if nalType = NAL_TYPE_PPS then seesSetsFirst types seenSps true
    else if nalType = NAL_TYPE_SLICE_IDR then seenSps && seenPps
    else seesSetsFirst types seenSps seenPps

/-- Both parameter sets come before the first slice of an IDR picture. -/
def isSelfContainedIdr (buf : List UInt8) : Bool := seesSetsFirst (nalUnitTypes buf) false false

/-! ## The units as sections -/

/-- The sections between the start codes that are not empty. -/
def nalSections (buf : List UInt8) : List (List UInt8 × List UInt8) :=
  (startCode.sections buf).filter (·.2 ≠ [])

variable {buf a b : List UInt8} {start sc nal scStart nalStart stop : ℕ}

theorem findStartCode_eq_none (h : findStartCode buf start = none) :
    startCode.find (buf.drop start) = none := Option.map_eq_none_iff.1 h

theorem findStartCode_eq_some (h : findStartCode buf start = some (sc, nal)) :
    ∃ i j, startCode.find (buf.drop start) = some (i, j) ∧ sc = start + i ∧ nal = start + j := by
  obtain ⟨⟨i, j⟩, hfind, heq⟩ := Option.map_eq_some_iff.1 h
  cases heq
  exact ⟨i, j, hfind, rfl, rfl⟩

/-- The bytes of a start code and of its unit. -/
def sectionAt (buf : List UInt8) : ℕ × ℕ × ℕ → List UInt8 × List UInt8
  | (scStart, nalStart, stop) => (buf.extract scStart nalStart, buf.extract nalStart stop)

theorem map_sectionAt_nalSpan (hstop : stop ≤ buf.length) :
    (nalSpan scStart nalStart stop).map (sectionAt buf) =
      [(buf.extract scStart nalStart, buf.extract nalStart stop)].filter (·.2 ≠ []) := by
  have hempty : buf.extract nalStart stop = [] ↔ ¬stop > nalStart := by
    rw [← List.length_eq_zero_iff, List.extract_eq_take_drop, List.length_take, List.length_drop]
    omega
  rw [nalSpan]
  split_ifs with h
  · have hne : decide (buf.extract nalStart stop ≠ []) = true :=
      decide_eq_true fun heq => hempty.1 heq h
    simp only [List.map_cons, List.map_nil, List.filter_cons, List.filter_nil, hne, if_true,
      sectionAt]
  · have hnil : decide (buf.extract nalStart stop ≠ []) = false :=
      decide_eq_false (not_not.2 (hempty.2 h))
    simp only [List.map_nil, List.filter_cons, List.filter_nil, hnil, Bool.false_eq_true, if_false]

/-- The positions from a start code on give its section and those after it. -/
theorem map_sectionAt_nalSpansFrom (buf : List UInt8) (scStart nalStart : ℕ) :
    (nalSpansFrom buf scStart nalStart).map (sectionAt buf) =
      ((buf.extract scStart nalStart, startCode.lead (buf.drop nalStart)) ::
        startCode.sections (buf.drop nalStart)).filter (·.2 ≠ []) := by
  fun_induction nalSpansFrom buf scStart nalStart with
  | case1 scStart nalStart h =>
    have hnone := findStartCode_eq_none h
    rw [map_sectionAt_nalSpan le_rfl, Delimiter.lead_of_none hnone,
      Delimiter.sections_of_none hnone, List.extract_eq_take_drop, List.extract_eq_take_drop,
      List.take_of_length_le (List.length_drop ..).le]
  | case2 scStart nalStart nextSc nextNal h ih =>
    have hbounds := findStartCode_bounds h
    obtain ⟨i, j, hfind, rfl, rfl⟩ := findStartCode_eq_some h
    have hnext : (buf.drop nalStart).extract i j = buf.extract (nalStart + i) (nalStart + j) := by
      simp only [List.extract_eq_take_drop, List.drop_drop, Nat.add_sub_add_left]
    have hunit : (buf.drop nalStart).take i = buf.extract nalStart (nalStart + i) := by
      rw [List.extract_eq_take_drop, Nat.add_sub_cancel_left]
    rw [List.map_append, map_sectionAt_nalSpan (by omega), ih, Delimiter.lead_of_some hfind,
      Delimiter.sections_of_some hfind, hnext, hunit, List.drop_drop, ← List.filter_append,
      List.singleton_append]

/-- The positions of the units give the sections. -/
theorem map_sectionAt_nalSpans (buf : List UInt8) :
    (nalSpans buf).map (sectionAt buf) = nalSections buf := by
  rw [nalSpans, nalSections]
  cases h : findStartCode buf 0 with
  | none =>
    have hnone := findStartCode_eq_none h
    rw [List.drop_zero] at hnone
    rw [Delimiter.sections_of_none hnone]
    rfl
  | some r =>
    obtain ⟨sc, nal⟩ := r
    obtain ⟨i, j, hfind, rfl, rfl⟩ := findStartCode_eq_some h
    rw [List.drop_zero] at hfind
    rw [Delimiter.sections_of_some hfind]
    simpa only [Nat.zero_add] using map_sectionAt_nalSpansFrom buf (0 + i) (0 + j)

/-- The units are those of the sections. -/
theorem splitAnnexB_eq (buf : List UInt8) :
    splitAnnexB buf = (nalSections buf).map fun s => .ofBytes s.2 := by
  rw [← map_sectionAt_nalSpans, List.map_map]
  rfl

/-! ## Parameter sets -/

/-- The type is that of a parameter set. -/
def IsParameterSet (nalType : UInt8) : Prop := nalType = NAL_TYPE_SPS ∨ nalType = NAL_TYPE_PPS

instance (nalType : UInt8) : Decidable (IsParameterSet nalType) := by
  unfold IsParameterSet
  infer_instance

theorem bounds_of_mem_nalSpan {sc nal stop' : ℕ}
    (h : (sc, nal, stop) ∈ nalSpan scStart nalStart stop') (hsc : scStart ≤ nalStart) :
    sc ≤ nal ∧ nal < stop ∧ stop = stop' := by
  rw [nalSpan] at h
  split_ifs at h with hgt
  · cases List.mem_singleton.1 h
    exact ⟨hsc, hgt, rfl⟩
  · exact absurd h List.not_mem_nil

theorem bounds_of_mem_nalSpansFrom {sc nal : ℕ}
    (h : (sc, nal, stop) ∈ nalSpansFrom buf scStart nalStart) (hsc : scStart ≤ nalStart) :
    sc ≤ nal ∧ nal < stop := by
  fun_induction nalSpansFrom buf scStart nalStart with
  | case1 scStart nalStart _ =>
    have hbounds := bounds_of_mem_nalSpan h hsc
    exact ⟨hbounds.1, hbounds.2.1⟩
  | case2 scStart nalStart nextSc nextNal hfind ih =>
    rcases List.mem_append.1 h with h | h
    · have hbounds := bounds_of_mem_nalSpan h hsc
      exact ⟨hbounds.1, hbounds.2.1⟩
    · exact ih h (findStartCode_bounds hfind).2.1.le

/-- A start code comes before its unit, and the unit is not empty. -/
theorem bounds_of_mem_nalSpans {sc nal : ℕ} (h : (sc, nal, stop) ∈ nalSpans buf) :
    sc ≤ nal ∧ nal < stop := by
  rw [nalSpans] at h
  split at h
  · exact absurd h List.not_mem_nil
  · next hfind => exact bounds_of_mem_nalSpansFrom h (findStartCode_bounds hfind).2.1.le

theorem nalTypeOf_extract (h : nalStart < stop) :
    nalTypeOf (buf.extract nalStart stop) = nalTypeOf (buf.drop nalStart) := by
  obtain ⟨n, hn⟩ := Nat.exists_eq_succ_of_ne_zero (Nat.sub_ne_zero_of_lt h)
  rw [List.extract_eq_take_drop, hn, nalTypeOf, nalTypeOf]
  cases buf.drop nalStart <;> rfl

/-- A unit with its start code. -/
theorem extract_eq_append (hsc : scStart ≤ nalStart) (hstop : nalStart ≤ stop) :
    buf.extract scStart stop = buf.extract scStart nalStart ++ buf.extract nalStart stop := by
  have hlen : stop - scStart = (nalStart - scStart) + (stop - nalStart) := by omega
  simp only [List.extract_eq_take_drop]
  rw [hlen, List.take_add, List.drop_drop, Nat.add_sub_cancel' hsc]

/-- What is taken out of an access unit are its parameter sets, with their start codes. -/
theorem collectParameterSets_eq {spans : List (ℕ × ℕ × ℕ)}
    (hspans : ∀ sc nal stop, (sc, nal, stop) ∈ spans → sc ≤ nal ∧ nal < stop) (sps pps : Bool)
    (out : List UInt8) :
    collectParameterSets buf spans sps pps out =
      (sps || (spans.map (sectionAt buf)).any fun s => nalTypeOf s.2 = NAL_TYPE_SPS,
        pps || (spans.map (sectionAt buf)).any fun s => nalTypeOf s.2 = NAL_TYPE_PPS,
        out ++ ((spans.map (sectionAt buf)).filter fun s => IsParameterSet (nalTypeOf s.2)).flatMap
          fun s => s.1 ++ s.2) := by
  induction spans generalizing sps pps out with
  | nil => simp [collectParameterSets]
  | cons span spans ih =>
    obtain ⟨sc, nal, stop⟩ := span
    obtain ⟨hsc, hstop⟩ := hspans sc nal stop List.mem_cons_self
    have hspans' := fun sc nal stop h => hspans sc nal stop (List.mem_cons_of_mem _ h)
    have htype : nalTypeOf (buf.extract nal stop) = nalTypeOf (buf.drop nal) :=
      nalTypeOf_extract hstop
    have hne : NAL_TYPE_SPS ≠ NAL_TYPE_PPS := by decide
    simp only [collectParameterSets, List.map_cons, sectionAt, List.any_cons, List.filter_cons,
      htype]
    by_cases hsps : nalTypeOf (buf.drop nal) = NAL_TYPE_SPS
    · have hset : IsParameterSet (nalTypeOf (buf.drop nal)) := .inl hsps
      simp only [if_pos hsps, ih hspans', hset, decide_true, if_true, List.flatMap_cons,
        extract_eq_append hsc hstop.le, List.append_assoc]
      simp [hsps, hne]
    · by_cases hpps : nalTypeOf (buf.drop nal) = NAL_TYPE_PPS
      · have hset : IsParameterSet (nalTypeOf (buf.drop nal)) := .inr hpps
        simp only [if_neg hsps, if_pos hpps, ih hspans', hset, decide_true, if_true,
          List.flatMap_cons, extract_eq_append hsc hstop.le, List.append_assoc]
        simp [hpps, hne.symm]
      · have hset : ¬IsParameterSet (nalTypeOf (buf.drop nal)) := fun h => h.elim hsps hpps
        simp [ih hspans', hset, hsps, hpps]

/-- The parameter sets of an access unit, if it has both, are the sections of their types. -/
theorem extractParameterSets_eq (buf : List UInt8) :
    extractParameterSets buf =
      if NAL_TYPE_SPS ∈ nalUnitTypes buf ∧ NAL_TYPE_PPS ∈ nalUnitTypes buf then
        some (((nalSections buf).filter fun s => IsParameterSet (nalTypeOf s.2)).flatMap
          fun s => s.1 ++ s.2)
      else none := by
  have hmem (nalType : UInt8) : nalType ∈ nalUnitTypes buf ↔
      ((nalSections buf).any fun s => nalTypeOf s.2 = nalType) = true := by
    simp [nalUnitTypes, splitAnnexB_eq, NalUnit.ofBytes]
  rw [extractParameterSets, collectParameterSets_eq fun _ _ _ h => bounds_of_mem_nalSpans h,
    map_sectionAt_nalSpans]
  simp only [Bool.false_or, List.nil_append, Bool.and_eq_true, hmem]

/-! ## Joining -/

/-- The bytes start with a start code. -/
def StartsWithStartCode (b : List UInt8) : Prop := [0, 0, 1] <+: b ∨ [0, 0, 0, 1] <+: b

instance (b : List UInt8) : Decidable (StartsWithStartCode b) := by
  unfold StartsWithStartCode
  infer_instance

theorem exists_atHead (h : StartsWithStartCode b) : ∃ n, startCode.atHead b = some n := by
  simp only [startCode]
  rcases h with h | h
  · exact ⟨3, if_pos h⟩
  · split_ifs
    · exact ⟨3, rfl⟩
    · exact ⟨4, rfl⟩

theorem atHead_eq_none :
    startCode.atHead buf = none ↔ ¬[0, 0, 1] <+: buf ∧ ¬[0, 0, 0, 1] <+: buf := by
  simp only [startCode]
  split_ifs with hthree hfour
  · simp [hthree]
  · simp [hfour]
  · simp [hthree, hfour]

/-- There is no start code in a list of bytes exactly if the shorter one is nowhere in it. -/
theorem find_startCode_eq_none : startCode.find buf = none ↔ ¬[0, 0, 1] <:+: buf := by
  induction buf with
  | nil => simp
  | cons x buf ih =>
    rw [List.infix_cons_iff, not_or, ← ih]
    by_cases hx : startCode.atHead (x :: buf) = none
    · rw [Delimiter.find_cons_of_none hx, Option.map_eq_none_iff,
        and_iff_right (atHead_eq_none.1 hx).1]
    · obtain ⟨n, hn⟩ := Option.ne_none_iff_exists'.1 hx
      rw [Delimiter.find_cons_of_some hn]
      refine iff_of_false nofun fun ⟨hthree, hnone⟩ => ?_
      -- the longer code has the shorter one within it
      have hfour : [0, 0, 0, 1] <+: x :: buf := by
        by_contra hfour
        exact hx (atHead_eq_none.2 ⟨hthree, hfour⟩)
      have hbuf := (List.cons_prefix_cons.1 hfour).2
      exact ih.1 hnone hbuf.isInfix

/-- No start code comes about before another one, unless a zero makes it a longer one. -/
theorem separate_startCode (hb : StartsWithStartCode b)
    (ha : a.getLast? ≠ some 0 ∨ [0, 0, 0, 1] <+: b) : startCode.Separate a b := by
  obtain ⟨y, c, rfl, hy⟩ : ∃ y c, b = 0 :: 0 :: y :: c ∧ (y = 1 → a.getLast? ≠ some 0) := by
    rcases hb with ⟨c, rfl⟩ | ⟨c, rfl⟩
    · refine ⟨1, c, rfl, fun _ => ha.resolve_right ?_⟩
      simp [List.cons_prefix_cons]
    · exact ⟨0, 1 :: c, rfl, nofun⟩
  intro s hs hsuffix
  -- only the last three bytes of the first list could begin a start code that ends in the second
  rcases s with _ | ⟨x₀, _ | ⟨x₁, _ | ⟨x₂, _ | ⟨x₃, s⟩⟩⟩⟩
  · exact absurd rfl hs
  · obtain ⟨t, rfl⟩ := hsuffix
    have hx₀ : y = 1 → x₀ ≠ 0 := by simpa using hy
    have hnone : 0 = x₀ → ¬1 = y := fun h₀ h₁ => hx₀ h₁.symm h₀.symm
    simpa [startCode, List.cons_prefix_cons] using hnone
  · simp [startCode, List.cons_prefix_cons]
  · simp [startCode, List.cons_prefix_cons]
  · simp [startCode, List.cons_prefix_cons]

theorem nalSections_append (hb : StartsWithStartCode b)
    (ha : a.getLast? ≠ some 0 ∨ [0, 0, 0, 1] <+: b) :
    nalSections (a ++ b) = nalSections a ++ nalSections b := by
  obtain ⟨n, hn⟩ := exists_atHead hb
  rw [nalSections, (separate_startCode hb ha).sections_append hn, List.filter_append]
  rfl

/-- The units of what has been put together, where a start code is put after what does not end in
    a zero. -/
theorem splitAnnexB_append (hb : StartsWithStartCode b) (ha : a.getLast? ≠ some 0) :
    splitAnnexB (a ++ b) = splitAnnexB a ++ splitAnnexB b := by
  simp only [splitAnnexB_eq, nalSections_append hb (.inl ha), List.map_append]

/-- Bytes without a start code that do not end in a zero. -/
structure CleanBytes where
  bytes : List UInt8
  no_start_code : ¬[0, 0, 1] <:+: bytes
  getLast_ne : bytes.getLast? ≠ some 0

/-- The bytes of a unit that may be joined with others: they are clean, and there are some. -/
structure NalBody extends CleanBytes where
  ne_nil : bytes ≠ []

/-- The start codes. -/
inductive StartCode
  | three
  | four
  deriving DecidableEq

def StartCode.bytes : StartCode → List UInt8
  | .three => [0, 0, 1]
  | .four => [0, 0, 0, 1]

/-- Joining units, each after a start code, and after other bytes. -/
def joinAnnexB (pre : CleanBytes) (units : List (StartCode × NalBody)) : List UInt8 :=
  pre.bytes ++ units.flatMap fun u => u.1.bytes ++ u.2.bytes

theorem StartCode.atHead_append (code : StartCode) (xs : List UInt8) :
    startCode.atHead (code.bytes ++ xs) = some code.bytes.length := by
  cases code
  · simp [startCode, StartCode.bytes, List.cons_prefix_cons]
  · simp [startCode, StartCode.bytes, List.cons_prefix_cons]

theorem StartCode.startsWithStartCode (code : StartCode) (xs : List UInt8) :
    StartsWithStartCode (code.bytes ++ xs) := by
  cases code
  · exact .inl (List.prefix_append _ xs)
  · exact .inr (List.prefix_append _ xs)

/-- A start code and bytes without one are one section. -/
theorem nalSections_unit (code : StartCode) {u : List UInt8} (hnone : startCode.find u = none)
    (hne : u ≠ []) : nalSections (code.bytes ++ u) = [(code.bytes, u)] := by
  rw [nalSections, Delimiter.sections_of_atHead (code.atHead_append u), List.take_left,
    List.drop_left, Delimiter.sections_of_none hnone, Delimiter.lead_of_none hnone]
  simp [hne]

theorem NalBody.getLast_append_ne (body : NalBody) (xs : List UInt8) :
    (xs ++ body.bytes).getLast? ≠ some 0 := by
  obtain ⟨x, hx⟩ := List.getLast?_isSome.2 body.ne_nil |> Option.isSome_iff_exists.1
  have hne := body.getLast_ne
  rw [hx] at hne
  rwa [List.getLast?_append, hx]

/-- Units joined after other bytes add their sections. -/
theorem nalSections_append_units (units : List (StartCode × NalBody))
    (ha : a.getLast? ≠ some 0) :
    nalSections (a ++ units.flatMap fun u => u.1.bytes ++ u.2.bytes) =
      nalSections a ++ units.map fun u => (u.1.bytes, u.2.bytes) := by
  induction units generalizing a with
  | nil => simp
  | cons u units ih =>
    obtain ⟨code, body⟩ := u
    have hstarts : StartsWithStartCode (((code, body) :: units).flatMap fun u =>
        u.1.bytes ++ u.2.bytes) := by
      rw [List.flatMap_cons, List.append_assoc]
      exact code.startsWithStartCode _
    rw [nalSections_append hstarts (.inl ha), List.flatMap_cons,
      ih (body.getLast_append_ne code.bytes),
      nalSections_unit code (find_startCode_eq_none.2 body.no_start_code) body.ne_nil]
    rfl

/-- What has been joined falls into the sections it was joined from. -/
theorem nalSections_join (pre : CleanBytes) (units : List (StartCode × NalBody)) :
    nalSections (joinAnnexB pre units) = units.map fun u => (u.1.bytes, u.2.bytes) := by
  have hpre : nalSections pre.bytes = [] := by
    rw [nalSections, Delimiter.sections_of_none (find_startCode_eq_none.2 pre.no_start_code)]
    rfl
  rw [joinAnnexB, nalSections_append_units units pre.getLast_ne, hpre, List.nil_append]

/-- Splitting undoes joining. -/
theorem splitAnnexB_join (pre : CleanBytes) (units : List (StartCode × NalBody)) :
    splitAnnexB (joinAnnexB pre units) = units.map fun u => .ofBytes u.2.bytes := by
  rw [splitAnnexB_eq, nalSections_join, List.map_map]
  rfl

/-- Nothing. -/
def CleanBytes.empty : CleanBytes := ⟨[], by simp, by simp⟩

/-- The parameter sets taken out of units that have been joined are themselves joined units. -/
theorem extractParameterSets_join {pre : CleanBytes} {units : List (StartCode × NalBody)}
    (hsps : ∃ u ∈ units, nalTypeOf u.2.bytes = NAL_TYPE_SPS)
    (hpps : ∃ u ∈ units, nalTypeOf u.2.bytes = NAL_TYPE_PPS) :
    extractParameterSets (joinAnnexB pre units) =
      some (joinAnnexB .empty (units.filter fun u => IsParameterSet (nalTypeOf u.2.bytes))) := by
  have hmem {nalType : UInt8} (h : ∃ u ∈ units, nalTypeOf u.2.bytes = nalType) :
      nalType ∈ nalUnitTypes (joinAnnexB pre units) := by
    obtain ⟨u, hu, rfl⟩ := h
    rw [nalUnitTypes, splitAnnexB_join, List.map_map]
    exact List.mem_map_of_mem hu
  rw [extractParameterSets_eq, if_pos ⟨hmem hsps, hmem hpps⟩, nalSections_join, List.filter_map,
    List.flatMap_map]
  rfl

/-- Splitting undoes joining, units joined in two parts or at once, and so it does for the parameter
    sets taken out of them. -/
theorem splitAnnexB_undoes_join (pre : CleanBytes) (units : List (StartCode × NalBody)) :
    splitAnnexB (joinAnnexB pre units) = units.map (fun u => .ofBytes u.2.bytes) ∧
      (∀ a b : List UInt8, StartsWithStartCode b → a.getLast? ≠ some 0 →
        splitAnnexB (a ++ b) = splitAnnexB a ++ splitAnnexB b) ∧
      ((∃ u ∈ units, nalTypeOf u.2.bytes = NAL_TYPE_SPS) →
        (∃ u ∈ units, nalTypeOf u.2.bytes = NAL_TYPE_PPS) →
          ∃ sets, extractParameterSets (joinAnnexB pre units) = some sets ∧
            splitAnnexB sets = (splitAnnexB (joinAnnexB pre units)).filter fun u =>
              IsParameterSet u.nalType) := by
  refine ⟨splitAnnexB_join pre units, fun a b hb ha => splitAnnexB_append hb ha,
    fun hsps hpps => ⟨_, extractParameterSets_join hsps hpps, ?_⟩⟩
  rw [splitAnnexB_join, splitAnnexB_join, List.filter_map]
  rfl

/-- A picture with its parameter sets, after bytes that are not of a unit. -/
theorem splitAnnexB_undoes_join_idr :
    let sps : NalBody := ⟨⟨[0x67, 0xAA], by decide, by decide⟩, by decide⟩
    let pps : NalBody := ⟨⟨[0x68], by decide, by decide⟩, by decide⟩
    let idr : NalBody := ⟨⟨[0x65, 0, 0xCC], by decide, by decide⟩, by decide⟩
    ∃ sets, extractParameterSets (joinAnnexB ⟨[0xFF], by decide, by decide⟩
        [(.four, sps), (.three, pps), (.four, idr)]) = some sets ∧
      splitAnnexB sets = [.ofBytes sps.bytes, .ofBytes pps.bytes] := by
  intro sps pps idr
  have h := splitAnnexB_undoes_join ⟨[0xFF], by decide, by decide⟩
    [(.four, sps), (.three, pps), (.four, idr)]
  obtain ⟨sets, hsets, hsplit⟩ := h.2.2 ⟨(.four, sps), by simp, by decide⟩
    ⟨(.three, pps), by simp, by decide⟩
  refine ⟨sets, hsets, ?_⟩
  rw [hsplit, h.1]
  decide

end Sardp
