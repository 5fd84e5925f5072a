import Mathlib.Data.List.TakeWhile
import Sardp.Video.NalUnits

/-!
# Parameter sets for IDR pictures

An IDR picture can be decoded on its own only if its parameter sets, an SPS and a PPS, come with it.
Encoders may give them once and then no more, so they are cached and put before the pictures that
come without (`h264.rs`).

Putting bytes before an access unit leaves its units as they are, even if a zero at their end makes
its first start code a longer one (`exists_splitAnnexB_append`). What is missing is decided by the
SPS alone: a picture that has an SPS but no PPS before its first slice is left without one. So a
picture can be decoded on its own exactly if it comes without an SPS, or with both parameter sets in
their place (`ParameterSetCache.completes_iff`).
-/

namespace Sardp

/-! ## The cache -/

/-- The parameter sets of a stream, as far as they are known. -/
structure ParameterSetCache where
  sets : Option (List UInt8)
  deriving DecidableEq

namespace ParameterSetCache

/-- Nothing known. -/
def new : ParameterSetCache := ⟨none⟩

/-- Taking the parameter sets of an access unit if none are known. -/
def observe (cache : ParameterSetCache) (accessUnit : List UInt8) : ParameterSetCache :=
  match cache.sets with
  | none => ⟨extractParameterSets accessUnit⟩
  | some _ => cache

/-- Taking parameter sets from elsewhere if none are known. -/
def setFallback (cache : ParameterSetCache) (sets : List UInt8) : ParameterSetCache :=
  if cache.sets = none ∧ sets ≠ [] then ⟨some sets⟩ else cache

/-- Putting the parameter sets, if they are known, before an access unit that has no SPS. -/
def completeIdr (cache : ParameterSetCache) (accessUnit : List UInt8) : List UInt8 :=
  match cache.sets with
  | none => accessUnit
  | some sets => if containsSps accessUnit then accessUnit else sets ++ accessUnit

end ParameterSetCache

/-- What changes a cache. -/
inductive CacheCall
  | observe (accessUnit : List UInt8)
  | setFallback (sets : List UInt8)

/-- A cache after a call. -/
def ParameterSetCache.apply (cache : ParameterSetCache) : CacheCall → ParameterSetCache
  | .observe accessUnit => cache.observe accessUnit
  | .setFallback sets => cache.setFallback sets

/-- The cache after a history of calls. -/
def ParameterSetCache.after (calls : List CacheCall) : ParameterSetCache :=
  calls.foldl apply new

/-! ## The order of the types -/

/-- Both parameter sets come before the first slice of an IDR picture, or are there if there is no
    such slice. -/
def SetsFirst (types : List UInt8) : Prop :=
  NAL_TYPE_SPS ∈ types.takeWhile (· ≠ NAL_TYPE_SLICE_IDR) ∧
    NAL_TYPE_PPS ∈ types.takeWhile (· ≠ NAL_TYPE_SLICE_IDR)

instance (types : List UInt8) : Decidable (SetsFirst types) := by
  unfold SetsFirst
  infer_instance

variable {types types' : List UInt8} {a b buf au : List UInt8}

theorem seesSetsFirst_iff (types : List UInt8) (sps pps : Bool) :
    seesSetsFirst types sps pps ↔ NAL_TYPE_SLICE_IDR ∈ types ∧
      (sps ∨ NAL_TYPE_SPS ∈ types.takeWhile (· ≠ NAL_TYPE_SLICE_IDR)) ∧
        (pps ∨ NAL_TYPE_PPS ∈ types.takeWhile (· ≠ NAL_TYPE_SLICE_IDR)) := by
  induction types generalizing sps pps with
  | nil => simp [seesSetsFirst]
  | cons nalType types ih =>
    rw [seesSetsFirst]
    split_ifs with hsps hpps hidr
    · subst hsps
      simp [ih, NAL_TYPE_SPS, NAL_TYPE_SLICE_IDR, NAL_TYPE_PPS]
    · subst hpps
      simp [ih, NAL_TYPE_SPS, NAL_TYPE_SLICE_IDR, NAL_TYPE_PPS]
    · subst hidr
      simp
    · simp [ih, hidr, Ne.symm hidr, Ne.symm hsps, Ne.symm hpps]

/-- An access unit is self-contained if it has a slice of an IDR picture, after both parameter
    sets. -/
theorem isSelfContainedIdr_iff :
    isSelfContainedIdr buf ↔
      NAL_TYPE_SLICE_IDR ∈ nalUnitTypes buf ∧ SetsFirst (nalUnitTypes buf) := by
  rw [isSelfContainedIdr, seesSetsFirst_iff, SetsFirst]
  simp

/-- Units of the type 0 do not matter. -/
theorem setsFirst_filter : SetsFirst (types.filter (· ≠ 0)) ↔ SetsFirst types := by
  have hfilter : (types.filter (· ≠ 0)).takeWhile (· ≠ NAL_TYPE_SLICE_IDR) =
      (types.takeWhile (· ≠ NAL_TYPE_SLICE_IDR)).filter (· ≠ 0) := by
    rw [List.takeWhile_filter]
    congr 2
    funext nalType
    by_cases h : nalType = 0
    · subst h
      rfl
    · simp [h]
  rw [SetsFirst, SetsFirst, hfilter, List.mem_filter, List.mem_filter]
  simp [NAL_TYPE_SPS, NAL_TYPE_PPS]

/-- Where there is no slice, the parameter sets need only be there. -/
theorem setsFirst_of_not_mem (hsps : NAL_TYPE_SPS ∈ types) (hpps : NAL_TYPE_PPS ∈ types)
    (hidr : NAL_TYPE_SLICE_IDR ∉ types) : SetsFirst types := by
  have hall : types.takeWhile (· ≠ NAL_TYPE_SLICE_IDR) = types :=
    List.takeWhile_eq_self_iff.2 fun nalType hmem =>
      decide_eq_true fun (heq : nalType = NAL_TYPE_SLICE_IDR) => hidr (heq ▸ hmem)
  rw [SetsFirst, hall]
  exact ⟨hsps, hpps⟩

/-- After both parameter sets, whatever follows does not matter. -/
theorem setsFirst_append (hsps : NAL_TYPE_SPS ∈ types) (hpps : NAL_TYPE_PPS ∈ types) :
    SetsFirst (types ++ types') ↔ SetsFirst types := by
  rw [SetsFirst, SetsFirst, List.takeWhile_append]
  split_ifs with hlen
  · -- there is no slice among the types, so both sets come first
    have hall := (List.takeWhile_prefix (· ≠ NAL_TYPE_SLICE_IDR)).eq_of_length hlen
    rw [hall]
    exact iff_of_true ⟨List.mem_append_left _ hsps, List.mem_append_left _ hpps⟩ ⟨hsps, hpps⟩
  · exact Iff.rfl

/-! ## Putting bytes before an access unit -/

theorem nalUnitTypes_eq (buf : List UInt8) :
    nalUnitTypes buf = (nalSections buf).map fun s => nalTypeOf s.2 := by
  rw [nalUnitTypes, splitAnnexB_eq, List.map_map]
  rfl

@[simp] theorem nalUnitTypes_nil : nalUnitTypes [] = [] := by
  rw [nalUnitTypes_eq, nalSections, Delimiter.sections_of_none Delimiter.find_nil]
  rfl

/-- A zero at the end makes no unit of another type than 0. -/
theorem nalUnitTypes_append_zero (a : List UInt8) :
    (nalUnitTypes (a ++ [0])).filter (· ≠ 0) = (nalUnitTypes a).filter (· ≠ 0) := by
  have hsep : startCode.Separate a [0] := by
    intro s hs _
    rcases s with _ | ⟨x₀, _ | ⟨x₁, _ | ⟨x₂, _ | ⟨x₃, s⟩⟩⟩⟩
    · exact absurd rfl hs
    all_goals simp [startCode, List.cons_prefix_cons]
  have hzero : startCode.find [0] = none := by decide
  rw [nalUnitTypes_eq, nalUnitTypes_eq, nalSections, nalSections]
  cases ha : startCode.find a with
  | none =>
    rw [Delimiter.sections_of_none ha,
      Delimiter.sections_of_none (hsep.find_append_of_none ha hzero)]
  | some r =>
    -- the zero is added to the last unit, or is a unit of its own if that was empty
    obtain ⟨front, c, u, hsections, hsections'⟩ := hsep.sections_append_of_none ha hzero
    rw [hsections, hsections']
    rcases u with _ | ⟨x, u⟩
    · simp [nalTypeOf]
    · simp [nalTypeOf]

/-- A zero before the shorter start code makes it the longer one, of the same unit. -/
theorem splitAnnexB_cons_zero (h : [0, 0, 1] <+: b) : splitAnnexB (0 :: b) = splitAnnexB b := by
  obtain ⟨c, rfl⟩ := h
  have hthree : startCode.atHead ([0, 0, 1] ++ c) = some 3 := StartCode.atHead_append .three c
  have hfour : startCode.atHead (0 :: ([0, 0, 1] ++ c)) = some 4 := StartCode.atHead_append .four c
  simp only [splitAnnexB_eq, nalSections, Delimiter.sections_of_atHead hthree,
    Delimiter.sections_of_atHead hfour]
  by_cases hlead : startCode.lead c = []
  · simp [hlead]
  · simp [hlead]

/-- Before an access unit that starts with a start code, there may be anything: its units stay, and
    so do those before it, those of the type 0 aside. -/
theorem exists_splitAnnexB_append (a : List UInt8) (hb : StartsWithStartCode b) :
    ∃ front, splitAnnexB (a ++ b) = front ++ splitAnnexB b ∧
      (front.map NalUnit.nalType).filter (· ≠ 0) = (nalUnitTypes a).filter (· ≠ 0) := by
  by_cases ha : a.getLast? = some 0
  · obtain ⟨a, rfl⟩ := List.getLast?_eq_some_iff.1 ha
    by_cases hfour : [0, 0, 0, 1] <+: b
    · exact ⟨splitAnnexB (a ++ [0]),
        by simp only [splitAnnexB_eq, nalSections_append hb (.inr hfour), List.map_append], rfl⟩
    · -- the zero becomes part of the start code
      have hthree := hb.resolve_right hfour
      have hlonger : [0, 0, 0, 1] <+: 0 :: b := List.cons_prefix_cons.2 ⟨rfl, hthree⟩
      refine ⟨splitAnnexB a, ?_, (nalUnitTypes_append_zero a).symm⟩
      rw [List.append_assoc, List.singleton_append, ← splitAnnexB_cons_zero hthree]
      simp only [splitAnnexB_eq, nalSections_append (.inr hlonger) (.inr hlonger), List.map_append]
  · exact ⟨splitAnnexB a, splitAnnexB_append hb ha, rfl⟩

/-- The types of the units, those of the type 0 aside. -/
theorem nalUnitTypes_append (a : List UInt8) (hb : StartsWithStartCode b) :
    (nalUnitTypes (a ++ b)).filter (· ≠ 0) =
      (nalUnitTypes a).filter (· ≠ 0) ++ (nalUnitTypes b).filter (· ≠ 0) := by
  obtain ⟨front, hsplit, hfront⟩ := exists_splitAnnexB_append a hb
  rw [nalUnitTypes, hsplit, List.map_append, List.filter_append, hfront]
  rfl

/-! ## Parameter sets taken from an access unit -/

/-- The start code of a section is one of the two. -/
theorem exists_startCode {c u : List UInt8} (h : (c, u) ∈ nalSections buf) :
    ∃ code : StartCode, c = code.bytes := by
  obtain ⟨ys, hys⟩ := Delimiter.atHead_of_mem_sections (List.mem_of_mem_filter h)
  simp only [startCode] at hys
  split_ifs at hys with hthree hfour
  · refine ⟨.three, ?_⟩
    have hlen := Option.some.inj hys
    exact (List.prefix_of_prefix_length_le hthree (List.prefix_append c ys) hlen.le).eq_of_length
      hlen |>.symm
  · refine ⟨.four, ?_⟩
    have hlen := Option.some.inj hys
    exact (List.prefix_of_prefix_length_le hfour (List.prefix_append c ys) hlen.le).eq_of_length
      hlen |>.symm

/-- Sections put together again have the types they had, those of the type 0 aside. -/
theorem nalUnitTypes_flatMap {sections : List (List UInt8 × List UInt8)}
    (h : ∀ s ∈ sections, s ∈ nalSections buf) :
    (nalUnitTypes (sections.flatMap fun s => s.1 ++ s.2)).filter (· ≠ 0) =
      (sections.map fun s => nalTypeOf s.2).filter (· ≠ 0) := by
  induction sections with
  | nil => simp
  | cons s sections ih =>
    obtain ⟨c, u⟩ := s
    obtain ⟨hmem, hsections⟩ := List.forall_mem_cons.1 h
    obtain ⟨code, rfl⟩ := exists_startCode hmem
    have hunit : nalUnitTypes (code.bytes ++ u) = [nalTypeOf u] := by
      have hne : u ≠ [] := of_decide_eq_true (List.mem_filter.1 hmem).2
      have hnone := Delimiter.find_of_mem_sections (List.mem_of_mem_filter hmem)
      rw [nalUnitTypes_eq, nalSections_unit code hnone hne]
      rfl
    rw [List.flatMap_cons, List.map_cons, ← List.singleton_append, List.filter_append, ← hunit,
      ← ih hsections]
    rcases sections with _ | ⟨⟨c', u'⟩, sections⟩
    · simp
    · -- the rest starts with a start code as well
      obtain ⟨code', rfl⟩ := exists_startCode (hsections (c', u') List.mem_cons_self)
      refine nalUnitTypes_append _ ?_
      rw [List.flatMap_cons, List.append_assoc]
      exact code'.startsWithStartCode _

/-- The parameter sets taken from an access unit have no slice before them, nor anything else. -/
theorem setsFirst_of_extractParameterSets {sets : List UInt8}
    (h : extractParameterSets buf = some sets) : SetsFirst (nalUnitTypes sets) := by
  rw [extractParameterSets_eq] at h
  split_ifs at h with hboth
  cases h
  have hsub : ∀ s ∈ (nalSections buf).filter (fun s => IsParameterSet (nalTypeOf s.2)),
      s ∈ nalSections buf := fun s hs => List.mem_of_mem_filter hs
  have htypes := nalUnitTypes_flatMap hsub
  have hmem (nalType : UInt8) (hset : IsParameterSet nalType) (h : nalType ∈ nalUnitTypes buf) :
      nalType ∈ ((nalSections buf).filter fun s => IsParameterSet (nalTypeOf s.2)).map
        fun s => nalTypeOf s.2 := by
    rw [nalUnitTypes_eq] at h
    obtain ⟨s, hs, rfl⟩ := List.mem_map.1 h
    exact List.mem_map_of_mem (List.mem_filter.2 ⟨hs, decide_eq_true hset⟩)
  rw [← setsFirst_filter, htypes, setsFirst_filter]
  refine setsFirst_of_not_mem (hmem _ (.inl rfl) hboth.1) (hmem _ (.inr rfl) hboth.2) fun hidr => ?_
  obtain ⟨s, hs, heq⟩ := List.mem_map.1 hidr
  have hset : IsParameterSet (nalTypeOf s.2) := of_decide_eq_true (List.mem_filter.1 hs).2
  rw [heq] at hset
  exact absurd hset (by decide)

/-! ## Completing a picture -/

namespace ParameterSetCache

variable {cache : ParameterSetCache} {sets : List UInt8}

/-- A picture without an SPS can be decoded on its own after the parameter sets exactly if these
    come before any slice among them. -/
theorem isSelfContainedIdr_append_iff (hsps : NAL_TYPE_SPS ∈ nalUnitTypes sets)
    (hpps : NAL_TYPE_PPS ∈ nalUnitTypes sets) (hidr : NAL_TYPE_SLICE_IDR ∈ nalUnitTypes au)
    (hstart : StartsWithStartCode au) :
    isSelfContainedIdr (sets ++ au) ↔ SetsFirst (nalUnitTypes sets) := by
  have hmem {nalType : UInt8} {buf : List UInt8} (h : nalType ∈ nalUnitTypes buf)
      (hne : nalType ≠ 0) : nalType ∈ (nalUnitTypes buf).filter (· ≠ 0) :=
    List.mem_filter.2 ⟨h, decide_eq_true hne⟩
  have hmem' : NAL_TYPE_SLICE_IDR ∈ nalUnitTypes (sets ++ au) := by
    refine List.mem_of_mem_filter (p := (· ≠ 0)) ?_
    rw [nalUnitTypes_append sets hstart]
    exact List.mem_append_right _ (hmem hidr (by decide))
  rw [isSelfContainedIdr_iff, and_iff_right hmem', ← setsFirst_filter,
    nalUnitTypes_append sets hstart,
    setsFirst_append (hmem hsps (by decide)) (hmem hpps (by decide)), setsFirst_filter]

theorem completeIdr_of_containsSps (h : containsSps au) : cache.completeIdr au = au := by
  rw [completeIdr]
  split
  · rfl
  · exact if_pos h

theorem completeIdr_of_not_containsSps (hsets : cache.sets = some sets) (h : ¬containsSps au) :
    cache.completeIdr au = sets ++ au := by
  rw [completeIdr, hsets]
  exact if_neg h

/-- The picture can be decoded on its own once it has been completed, and its units are still
    there, after those put before it. -/
def Completes (cache : ParameterSetCache) (accessUnit : List UInt8) : Prop :=
  isSelfContainedIdr (cache.completeIdr accessUnit) ∧
    splitAnnexB accessUnit <:+ splitAnnexB (cache.completeIdr accessUnit)

theorem mem_nalUnitTypes_of_containsIdrSlice (h : containsIdrSlice au) :
    NAL_TYPE_SLICE_IDR ∈ nalUnitTypes au := by
  obtain ⟨u, hu, htype⟩ := List.any_eq_true.1 h
  exact List.mem_map.2 ⟨u, hu, of_decide_eq_true htype⟩

/-- A cache with both parameter sets completes a picture exactly if that comes without an SPS, and
    the parameter sets known come before any slice among them, or if it comes with both parameter
    sets before its first slice. -/
theorem completes_iff_of_sets (hsets : cache.sets = some sets)
    (hsps : NAL_TYPE_SPS ∈ nalUnitTypes sets) (hpps : NAL_TYPE_PPS ∈ nalUnitTypes sets)
    (hidr : containsIdrSlice au) (hstart : StartsWithStartCode au) :
    cache.Completes au ↔
      ¬containsSps au ∧ SetsFirst (nalUnitTypes sets) ∨ SetsFirst (nalUnitTypes au) := by
  have hslice := mem_nalUnitTypes_of_containsIdrSlice hidr
  by_cases h : containsSps au
  · rw [Completes, completeIdr_of_containsSps h, isSelfContainedIdr_iff]
    simp [h, hslice]
  · rw [Completes, completeIdr_of_not_containsSps hsets h,
      isSelfContainedIdr_append_iff hsps hpps hslice hstart]
    obtain ⟨front, hsplit, -⟩ := exists_splitAnnexB_append sets hstart
    have hsuffix : splitAnnexB au <:+ splitAnnexB (sets ++ au) :=
      hsplit ▸ List.suffix_append front _
    -- without an SPS the picture cannot have both parameter sets
    have hnot : ¬SetsFirst (nalUnitTypes au) := by
      intro hfirst
      obtain ⟨u, hu, htype⟩ := List.mem_map.1 (List.takeWhile_subset _ hfirst.1)
      exact h (List.any_eq_true.2 ⟨u, hu, decide_eq_true htype⟩)
    simp [h, hsuffix, hnot]

/-- Which pictures a cache completes, whatever it has gone through. -/
theorem completes_iff (calls : List CacheCall) (sets au : List UInt8)
    (hsets : (after calls).sets = some sets) (hsps : NAL_TYPE_SPS ∈ nalUnitTypes sets)
    (hpps : NAL_TYPE_PPS ∈ nalUnitTypes sets) (hidr : containsIdrSlice au)
    (hstart : StartsWithStartCode au) :
    (after calls).Completes au ↔
      ¬containsSps au ∧ SetsFirst (nalUnitTypes sets) ∨ SetsFirst (nalUnitTypes au) :=
  completes_iff_of_sets hsets hsps hpps hidr hstart

/-- Known parameter sets and a picture that comes without them. -/
theorem completes_bare_idr :
    (after [.observe [0, 0, 0, 1, 0x67, 0xAA, 0, 0, 1, 0x68, 0xBB]]).Completes
      [0, 0, 0, 1, 0x65, 0xEE] :=
  (completes_iff [.observe [0, 0, 0, 1, 0x67, 0xAA, 0, 0, 1, 0x68, 0xBB]]
    [0, 0, 0, 1, 0x67, 0xAA, 0, 0, 1, 0x68, 0xBB] [0, 0, 0, 1, 0x65, 0xEE] (by decide +kernel)
    (by decide +kernel) (by decide +kernel) (by decide +kernel) (by decide)).2
    (.inl ⟨by decide +kernel, by decide +kernel⟩)

/-- The same parameter sets, and a picture that comes with an SPS but without a PPS. -/
theorem not_completes_idr_with_sps :
    ∃ calls sets au, (after calls).sets = some sets ∧ NAL_TYPE_SPS ∈ nalUnitTypes sets ∧
      NAL_TYPE_PPS ∈ nalUnitTypes sets ∧ containsIdrSlice au ∧ StartsWithStartCode au ∧
        calls = [.observe [0, 0, 0, 1, 0x67, 0xAA, 0, 0, 1, 0x68, 0xBB]] ∧
        au = [0, 0, 0, 1, 0x67, 0xAA, 0, 0, 1, 0x65, 0xCC] ∧ ¬(after calls).Completes au := by
  refine ⟨_, [0, 0, 0, 1, 0x67, 0xAA, 0, 0, 1, 0x68, 0xBB], _, ?_, ?_, ?_, ?_, ?_, rfl, rfl, ?_⟩
  · decide +kernel
  · decide +kernel
  · decide +kernel
  · decide +kernel
  · decide
  · intro h
    exact absurd h.1 (by decide +kernel)

/-- What a cache has taken from access units it can complete pictures with. -/
theorem setsFirst_of_observed {aus : List (List UInt8)}
    (h : (after (aus.map .observe)).sets = some sets) : SetsFirst (nalUnitTypes sets) := by
  have hinv (aus : List (List UInt8)) (cache : ParameterSetCache)
      (hcache : ∀ sets ∈ cache.sets, SetsFirst (nalUnitTypes sets)) :
      ∀ sets ∈ ((aus.map CacheCall.observe).foldl apply cache).sets,
        SetsFirst (nalUnitTypes sets) := by
    induction aus generalizing cache with
    | nil => exact hcache
    | cons au aus ih =>
      refine ih (cache.observe au) fun sets hsets => ?_
      rw [observe] at hsets
      split at hsets
      · exact setsFirst_of_extractParameterSets hsets
      · exact hcache sets hsets
  exact hinv aus new nofun sets h

/-- Without parameter sets from elsewhere, a picture is completed exactly if it comes without an
    SPS, or with both parameter sets before its first slice. -/
theorem completes_observed_iff {aus : List (List UInt8)}
    (hsets : (after (aus.map .observe)).sets = some sets) (hidr : containsIdrSlice au)
    (hstart : StartsWithStartCode au) :
    (after (aus.map .observe)).Completes au ↔
      ¬containsSps au ∨ SetsFirst (nalUnitTypes au) := by
  have hfirst := setsFirst_of_observed hsets
  have hsps := List.takeWhile_subset _ hfirst.1
  have hpps := List.takeWhile_subset _ hfirst.2
  rw [completes_iff_of_sets hsets hsps hpps hidr hstart, and_iff_left hfirst]

end ParameterSetCache

end Sardp
