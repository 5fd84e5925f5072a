import Sardp.Library.CborFormats
import Sardp.Library.Conservation
import Sardp.Library.LengthPrefixed
import Sardp.Video.MftEncoder

/-!
# The encoder on macOS

VideoToolbox gives the units of a picture after their lengths, and keeps the parameter sets in the
description of the format (`VtEncoder.swift`). They are put after start codes, the sets apart and
only where they have changed, and the source puts the sets it knows before the pictures that are to
be decoded on their own (`Forwarder` in `desktop_h264.rs` of `sardp-mac`).

So the frames that are offered to the hand-off have the units of the pictures, in order, those of
IDR pictures after the parameter sets of the first one (`MacEncoder.units_preserved`). An IDR
picture can be decoded on its own, with the parameter sets of its own format exactly as long as
these do not change (`MacEncoder.idr_has_own_sets_iff`): the source keeps the sets it has got first.
The units are those of H.264, which have no start codes in them (`Picture.Clean`).

What VideoToolbox calls back with is up to it. The hand-off of the frames to the worker, which drops
a frame when it is full, is a part of the desktop as a source (`DesktopSource`).
-/

namespace Sardp

open Framing

/-! ## The shim -/

/-- The format of a sample, if it can be read: the parameter sets, one after the other, those that
    can be read, and how many bytes the length of a unit takes. -/
structure FormatDescription where
  parameterSets : List (Option (List UInt8))
  nalHeaderLength : ℕ

/-- A sample of VideoToolbox. -/
structure SampleBuffer where
  format : Option FormatDescription
  /-- The bytes, if they can be read. -/
  data : Option (List UInt8)
  /-- What is attached to it: that it is no picture to start from. -/
  notSync : Option Bool
  captureTs : ℕ

/-- What VideoToolbox calls back with. -/
inductive VtOutput
  | failed
  | frameDropped
  /-- A sample, if there is one and it is ready. -/
  | sample (sample : Option SampleBuffer)

/-- A picture as it is handed to the source. -/
structure EncodedRef where
  annexB : List UInt8
  isSync : Bool
  captureTsUs : ℕ
  parameterSets : Option (List UInt8)

/-- The state of the encoder: the parameter sets of the last sample, and those last handed out. -/
structure VtEncoder where
  paramSets : List UInt8
  lastParamSets : List UInt8
  outputCount : ℕ
  droppedByEncoder : ℕ
  callbackErrors : ℕ

/-- The length of a unit, of the bytes before it. There are at most four of them. -/
def nalLength (head : List UInt8) : ℕ := head.foldl (fun n byte => n <<< 8 ||| byte.toNat) 0

namespace VtEncoder

def new : VtEncoder := ⟨[], [], 0, 0, 0⟩

/-- The parameter sets, each after a start code. -/
def collectParameterSets (format : FormatDescription) : List UInt8 :=
  format.parameterSets.flatMap fun
    | none | some [] => []
    | some (byte :: bytes) => [0, 0, 0, 1] ++ byte :: bytes

/-- The length of the unit after a position. -/
def nalLengthAt (bytes : List UInt8) (nalHeaderLength offset : ℕ) : ℕ :=
  nalLength (bytes.extract offset (offset + nalHeaderLength))

/-- The units from a position on, each after a start code in place of its length, up to a length
    that does not make sense. -/
def convertFrom (bytes : List UInt8) (nalHeaderLength offset : ℕ) : List UInt8 :=
  if offset + nalHeaderLength ≤ bytes.length then
    if _h : nalLengthAt bytes nalHeaderLength offset = 0 ∨
        bytes.length < offset + nalHeaderLength + nalLengthAt bytes nalHeaderLength offset then []
    else
      [0, 0, 0, 1] ++ bytes.extract (offset + nalHeaderLength)
          (offset + nalHeaderLength + nalLengthAt bytes nalHeaderLength offset) ++
        convertFrom bytes nalHeaderLength
          (offset + nalHeaderLength + nalLengthAt bytes nalHeaderLength offset)
  else []
termination_by bytes.length - offset
decreasing_by omega

/-- The units of a sample, if there are any. -/
def convertToAnnexB (sample : SampleBuffer) (nalHeaderLength : ℕ) : Option (List UInt8) :=
  (sample.data.map fun bytes => convertFrom bytes nalHeaderLength 0).filter (· ≠ [])

/-- What is handed to the source for a sample, if it can be read. -/
def handleSample (s : VtEncoder) (sample : SampleBuffer) : VtEncoder × Option EncodedRef :=
  match sample.format with
  | none => (s, none)
  | some format =>
    let s := { s with paramSets := collectParameterSets format }
    if format.nalHeaderLength = 0 then (s, none)
    else
      match convertToAnnexB sample format.nalHeaderLength with
      | none => (s, none)
      | some annexB =>
        ({ s with outputCount := s.outputCount + 1, lastParamSets := s.paramSets },
          some {
            annexB
            isSync := !sample.notSync.getD false
            captureTsUs := sample.captureTs
            -- none of them is none
            parameterSets := if s.paramSets ≠ s.lastParamSets ∧ s.paramSets ≠ [] then
              some s.paramSets else none })

def handleOutput (s : VtEncoder) : VtOutput → VtEncoder × Option EncodedRef
  | .failed => ({ s with callbackErrors := s.callbackErrors + 1 }, none)
  | .frameDropped => ({ s with droppedByEncoder := s.droppedByEncoder + 1 }, none)
  | .sample none => (s, none)
  | .sample (some sample) => s.handleSample sample

end VtEncoder

/-! ## The source -/

/-- The encoder, and the parameter sets that the source knows. -/
structure MacEncoder where
  encoder : VtEncoder
  parameterSets : ParameterSetCache

namespace MacEncoder

def new : MacEncoder := ⟨.new, .new⟩

/-- The parameter sets that are known after a picture: those handed to the source come first. -/
def setsAfter (cache : ParameterSetCache) (frame : EncodedRef) : ParameterSetCache :=
  match frame.parameterSets with
  | some sets => (cache.setFallback sets).observe frame.annexB
  | none => cache.observe frame.annexB

/-- A picture is handed to the source, and becomes a frame. -/
def onEncoded (cache : ParameterSetCache) (frame : EncodedRef) (encodeDoneTs : ℕ) :
    ParameterSetCache × Encoder.Frame :=
  (setsAfter cache frame, Encoder.frameOf (setsAfter cache frame) frame.annexB frame.isSync
    frame.captureTsUs encodeDoneTs)

/-- VideoToolbox calls back, at a time. -/
def output (s : MacEncoder) (e : VtOutput × ℕ) : MacEncoder × Option Encoder.Frame :=
  match s.encoder.handleOutput e.1 with
  | (encoder, none) => ({ s with encoder }, none)
  | (encoder, some frame) =>
    let (parameterSets, frame) := onEncoded s.parameterSets frame e.2
    (⟨encoder, parameterSets⟩, some frame)

/-- The calls as a machine. -/
def machine : Machine MacEncoder (VtOutput × ℕ) := ⟨fun s e => some (s.output e).1⟩

/-- The frame that comes out of a call, and is offered to the hand-off. -/
def frames (s : MacEncoder) (e : VtOutput × ℕ) : List Encoder.Frame := (s.output e).2.toList

end MacEncoder

/-! ## Pictures -/

/-- Units, each after a start code. -/
def annexB (units : List (List UInt8)) : List UInt8 := units.flatMap fun u => [0, 0, 0, 1] ++ u

/-- A picture, as VideoToolbox means it. -/
structure Picture where
  /-- The parameter sets of its format. -/
  sets : List (List UInt8)
  units : List (List UInt8)
  isSync : Bool
  captureTs : ℕ
  ne_nil : ∀ u ∈ sets ++ units, u ≠ []

/-- The parameter sets of a format. -/
def FormatDescription.sets (format : FormatDescription) : List (List UInt8) :=
  (format.parameterSets.filterMap id).filter (· ≠ [])

/-- The units that stand after their lengths. -/
def nalUnits (nalHeaderLength : ℕ) (bytes : List UInt8) : List (List UInt8) :=
  (contents (lengthPrefixed nalHeaderLength nalLength)
    (progressive_lengthPrefixed nalHeaderLength nalLength) bytes).1

theorem ne_nil_of_mem_sets_append (format : FormatDescription) (bytes : List UInt8) :
    ∀ u ∈ format.sets ++ nalUnits format.nalHeaderLength bytes, u ≠ [] := by
  intro u hu
  rcases List.mem_append.1 hu with hu | hu
  · exact of_decide_eq_true (List.mem_filter.1 hu).2
  · exact ne_nil_of_mem_contents hu

/-- The picture of a sample, if it can be read and has units. -/
def SampleBuffer.picture? (sample : SampleBuffer) : Option Picture :=
  sample.format.bind fun format => sample.data.bind fun bytes =>
    if nalUnits format.nalHeaderLength bytes = [] then none
    else some {
      sets := format.sets
      units := nalUnits format.nalHeaderLength bytes
      isSync := !sample.notSync.getD false
      captureTs := sample.captureTs
      ne_nil := ne_nil_of_mem_sets_append format bytes }

/-- A sample of a picture, its units after their lengths. -/
def Picture.sample (p : Picture) (nalHeaderLength : ℕ) : SampleBuffer where
  format := some ⟨p.sets.map some, nalHeaderLength⟩
  data := some (p.units.flatMap fun u => Cbor.beBytes nalHeaderLength u.length ++ u)
  notSync := some !p.isSync
  captureTs := p.captureTs

/-- The picture VideoToolbox calls back with. -/
def VtOutput.picture? : VtOutput → Option Picture
  | .sample (some buffer) => buffer.picture?
  | _ => none

namespace Picture

/-- There is a unit of the type. -/
def Has (p : Picture) (nalType : UInt8) : Prop := ∃ u ∈ p.units, nalTypeOf u = nalType

/-- It is an IDR picture: VideoToolbox says so, or its units do. -/
def IsIdr (p : Picture) : Prop := p.isSync ∨ p.Has NAL_TYPE_SLICE_IDR

/-- There is no start code within a unit. -/
def Clean (p : Picture) : Prop := ∀ u ∈ p.sets ++ p.units, ¬[0, 0, 1] <:+: u

instance (p : Picture) (nalType : UInt8) : Decidable (p.Has nalType) :=
  inferInstanceAs (Decidable (∃ u ∈ p.units, _))

instance (p : Picture) : Decidable p.IsIdr := inferInstanceAs (Decidable (_ ∨ _))

instance (p : Picture) : Decidable p.Clean :=
  inferInstanceAs (Decidable (∀ u ∈ p.sets ++ p.units, _))

theorem Clean.unit {p : Picture} (h : p.Clean) {u : List UInt8} (hu : u ∈ p.sets ++ p.units) :
    u ≠ [] ∧ ¬[0, 0, 1] <:+: u := ⟨p.ne_nil u hu, h u hu⟩

/-- The parameter sets that come with a picture: those of its format, or those among its units if
    both are there. -/
def ownSets (p : Picture) : Option (List (List UInt8)) :=
  if p.sets ≠ [] then some p.sets
  else if p.Has NAL_TYPE_SPS ∧ p.Has NAL_TYPE_PPS then
    some (p.units.filter fun u => IsParameterSet (nalTypeOf u))
  else none

/-- The parameter sets that are known after pictures: the first that have come. -/
def known (ps : List Picture) : Option (List (List UInt8)) := ps.findSome? ownSets

end Picture

/-! ## Start codes -/

variable {units us : List (List UInt8)} {format : FormatDescription} {bytes : List UInt8}

theorem annexB_append (units us : List (List UInt8)) :
    annexB (units ++ us) = annexB units ++ annexB us := List.flatMap_append ..

theorem annexB_eq_nil : annexB units = [] ↔ units = [] := by
  cases units <;> simp [annexB]

/-- Units without a start code are found again, each after the start code put before it. -/
theorem nalSections_annexB (h : ∀ u ∈ units, u ≠ [] ∧ ¬[0, 0, 1] <:+: u) :
    nalSections (annexB units) = units.map fun u => ([0, 0, 0, 1], u) := by
  induction units with
  | nil =>
    rw [nalSections, annexB, List.flatMap_nil, Delimiter.sections_of_none Delimiter.find_nil]
    rfl
  | cons u units ih =>
    obtain ⟨⟨hne, hclean⟩, hunits⟩ := List.forall_mem_cons.1 h
    have hunit : nalSections ([0, 0, 0, 1] ++ u) = [([0, 0, 0, 1], u)] :=
      nalSections_unit .four (find_startCode_eq_none.2 hclean) hne
    cases units with
    | nil =>
      rw [annexB, List.flatMap_singleton, hunit]
      rfl
    | cons u' units =>
      have hfour : [0, 0, 0, 1] <+: annexB (u' :: units) := ⟨u' ++ annexB units, rfl⟩
      rw [List.map_cons, ← ih hunits, annexB, List.flatMap_cons]
      exact (nalSections_append (.inr hfour) (.inr hfour)).trans (by rw [hunit]; rfl)

theorem splitAnnexB_annexB (h : ∀ u ∈ units, u ≠ [] ∧ ¬[0, 0, 1] <:+: u) :
    splitAnnexB (annexB units) = units.map .ofBytes := by
  rw [splitAnnexB_eq, nalSections_annexB h, List.map_map]
  rfl

theorem nalUnitTypes_annexB (h : ∀ u ∈ units, u ≠ [] ∧ ¬[0, 0, 1] <:+: u) :
    nalUnitTypes (annexB units) = units.map nalTypeOf := by
  rw [nalUnitTypes, splitAnnexB_annexB h, List.map_map]
  rfl

theorem extractParameterSets_annexB (h : ∀ u ∈ units, u ≠ [] ∧ ¬[0, 0, 1] <:+: u) :
    extractParameterSets (annexB units) =
      if NAL_TYPE_SPS ∈ units.map nalTypeOf ∧ NAL_TYPE_PPS ∈ units.map nalTypeOf then
        some (annexB (units.filter fun u => IsParameterSet (nalTypeOf u)))
      else none := by
  rw [extractParameterSets_eq, nalUnitTypes_annexB h, nalSections_annexB h, List.filter_map,
    List.flatMap_map]
  rfl

theorem nalLength_eq (head : List UInt8) : nalLength head = Cbor.ofBeBytes head := by
  have hstep (n : ℕ) (byte : UInt8) : n <<< 8 ||| byte.toNat = n * 256 + byte.toNat := by
    rw [← Nat.shiftLeft_add_eq_or_of_lt (UInt8.toNat_lt byte), Nat.shiftLeft_eq]
  simp only [nalLength, Cbor.ofBeBytes, hstep]

/-- Units that have been put after their lengths are the units that stand there. -/
theorem nalUnits_beBytes {nalHeaderLength : ℕ}
    (h : ∀ u ∈ units, u ≠ [] ∧ u.length < 256 ^ nalHeaderLength) :
    nalUnits nalHeaderLength
      (units.flatMap fun u => Cbor.beBytes nalHeaderLength u.length ++ u) = units := by
  refine contents_lengthPrefixed fun u hu => ⟨Cbor.length_beBytes _ _, ?_, (h u hu).1⟩
  rw [nalLength_eq, Cbor.ofBeBytes_beBytes, Nat.mod_eq_of_lt (h u hu).2]

/-- The picture of a sample is the one it has been made of. -/
theorem picture?_sample {p : Picture} {nalHeaderLength : ℕ} (hne : p.units ≠ [])
    (hlength : ∀ u ∈ p.units, u.length < 256 ^ nalHeaderLength) :
    (p.sample nalHeaderLength).picture? = some p := by
  have hsets : FormatDescription.sets ⟨p.sets.map some, nalHeaderLength⟩ = p.sets := by
    rw [FormatDescription.sets, List.filterMap_map, Function.id_comp, List.filterMap_some,
      List.filter_eq_self]
    exact fun u hu => decide_eq_true (p.ne_nil u (List.mem_append_left _ hu))
  have hunits := nalUnits_beBytes fun u hu =>
    ⟨p.ne_nil u (List.mem_append_right _ hu), hlength u hu⟩
  simp only [SampleBuffer.picture?, Picture.sample, Option.bind_some, hsets, hunits, if_neg hne,
    Option.getD_some, Bool.not_not]

namespace VtEncoder

theorem collectParameterSets_eq (format : FormatDescription) :
    collectParameterSets format = annexB format.sets := by
  rw [collectParameterSets, FormatDescription.sets, annexB]
  induction format.parameterSets with
  | nil => rfl
  | cons set sets ih =>
    rw [List.flatMap_cons, ih]
    rcases set with _ | _ | ⟨byte, bytes⟩ <;> rfl

theorem nalLengthAt_eq (bytes : List UInt8) (nalHeaderLength offset : ℕ) :
    nalLengthAt bytes nalHeaderLength offset =
      nalLength ((bytes.drop offset).take nalHeaderLength) := by
  rw [nalLengthAt, List.extract_eq_take_drop, Nat.add_sub_cancel_left]

/-- The conversion puts start codes before the units that stand after their lengths. -/
theorem convertFrom_eq (bytes : List UInt8) (nalHeaderLength offset : ℕ) :
    convertFrom bytes nalHeaderLength offset =
      annexB (nalUnits nalHeaderLength (bytes.drop offset)) := by
  fun_induction convertFrom bytes nalHeaderLength offset with
  | case1 offset h hbreak =>
    rw [nalUnits, contents_lengthPrefixed_eq_nil]
    · rfl
    · rw [← nalLengthAt_eq, List.length_drop]
      omega
  | case2 offset h hgo ih =>
    obtain ⟨hzero, hlength⟩ := not_or.1 hgo
    rw [nalLengthAt_eq] at hzero hlength
    rw [ih, nalUnits, nalUnits, nalLengthAt_eq, contents_lengthPrefixed_cons _ hzero,
      List.drop_drop, List.drop_drop, List.extract_eq_take_drop, Nat.add_sub_cancel_left,
      ← Nat.add_assoc]
    · rfl
    all_goals
      rw [List.length_drop]
      omega
  | case3 offset h =>
    rw [nalUnits, contents_lengthPrefixed_eq_nil]
    · rfl
    · rw [List.length_drop]
      omega

theorem nalUnits_zero (bytes : List UInt8) : nalUnits 0 bytes = [] :=
  contents_lengthPrefixed_eq_nil (.inr (.inl rfl))

theorem convertToAnnexB_eq (sample : SampleBuffer) (nalHeaderLength : ℕ) :
    convertToAnnexB sample nalHeaderLength =
      ((sample.data.map (nalUnits nalHeaderLength)).filter (· ≠ [])).map annexB := by
  rw [convertToAnnexB]
  cases sample.data with
  | none => rfl
  | some bytes =>
    rw [Option.map_some, Option.map_some, convertFrom_eq, List.drop_zero]
    by_cases hunits : nalUnits nalHeaderLength bytes = []
    · simp [Option.filter, hunits, annexB]
    · simp [Option.filter, hunits, annexB_eq_nil]

variable {s : VtEncoder} {o : VtOutput} {p : Picture}

/-- What is handed to the source for a picture. -/
def refOf (s : VtEncoder) (p : Picture) : EncodedRef where
  annexB := Sardp.annexB p.units
  isSync := p.isSync
  captureTsUs := p.captureTs
  parameterSets := if Sardp.annexB p.sets ≠ s.lastParamSets ∧ p.sets ≠ [] then
    some (Sardp.annexB p.sets) else none

/-- A picture is handed out, with its parameter sets if they have changed. -/
theorem handleOutput_of_picture (s : VtEncoder) (h : o.picture? = some p) :
    s.handleOutput o = ({ s with
      paramSets := annexB p.sets
      lastParamSets := annexB p.sets
      outputCount := s.outputCount + 1 }, some (s.refOf p)) := by
  rcases o with _ | _ | _ | sample
  · cases h
  · cases h
  · cases h
  · obtain ⟨format, hformat, h⟩ := Option.bind_eq_some_iff.1 h
    obtain ⟨bytes, hdata, h⟩ := Option.bind_eq_some_iff.1 h
    split_ifs at h with hunits
    cases h
    have hzero : format.nalHeaderLength ≠ 0 := by
      intro hzero
      rw [hzero, nalUnits_zero] at hunits
      exact hunits rfl
    simp [handleOutput, handleSample, hformat, hzero, convertToAnnexB_eq, hdata, Option.filter,
      hunits, collectParameterSets_eq, refOf, annexB_eq_nil]

/-- Without a picture, nothing is. -/
theorem handleOutput_of_none (s : VtEncoder) (h : o.picture? = none) :
    (s.handleOutput o).2 = none ∧ (s.handleOutput o).1.lastParamSets = s.lastParamSets ∧
      (s.handleOutput o).1.outputCount = s.outputCount := by
  rcases o with _ | _ | _ | sample
  · exact ⟨rfl, rfl, rfl⟩
  · exact ⟨rfl, rfl, rfl⟩
  · exact ⟨rfl, rfl, rfl⟩
  · rw [handleOutput, handleSample]
    cases hformat : sample.format with
    | none => exact ⟨rfl, rfl, rfl⟩
    | some format =>
      have hnone : convertToAnnexB sample format.nalHeaderLength = none := by
        rw [convertToAnnexB_eq]
        cases hdata : sample.data with
        | none => rfl
        | some bytes =>
          have hunits : nalUnits format.nalHeaderLength bytes = [] := by
            simpa [VtOutput.picture?, SampleBuffer.picture?, hformat, hdata] using h
          simp [Option.filter, hunits]
      dsimp only
      rw [hnone]
      split_ifs <;> exact ⟨rfl, rfl, rfl⟩

end VtEncoder

/-! ## Frames -/

namespace MacEncoder

/-- The pictures VideoToolbox has called back with. -/
def pictures (es : List (VtOutput × ℕ)) : List Picture := es.filterMap fun e => e.1.picture?

/-- The frame of a picture has its units, in order, those of an IDR picture without an SPS after the
    parameter sets that are known. -/
structure Delivered (known : Option (List (List UInt8))) (p : Picture) (encodeDoneTs : ℕ)
    (frame : Encoder.Frame) : Prop where
  isIdr : frame.isIdr = true ↔ p.IsIdr
  captureTs : frame.captureTs = p.captureTs
  encodeDoneTs : frame.encodeDoneTs = encodeDoneTs
  units : splitAnnexB frame.annexB =
    ((if p.IsIdr ∧ ¬p.Has NAL_TYPE_SPS then known.getD [] else []) ++ p.units).map .ofBytes

/-- What the source and the encoder know of the pictures. -/
structure Inv (ps : List Picture) (s : MacEncoder) : Prop where
  known : s.parameterSets.sets = (Picture.known ps).map annexB
  /-- Where no sets are known, there have been none. -/
  lastParamSets : Picture.known ps = none → s.encoder.lastParamSets = []
  outputCount : s.encoder.outputCount = ps.length

variable {ps : List Picture} {s : MacEncoder} {p : Picture} {e : VtOutput × ℕ}

theorem known_append_singleton (ps : List Picture) (p : Picture) :
    Picture.known (ps ++ [p]) = (Picture.known ps).or p.ownSets := by
  simp [Picture.known, List.findSome?_append]

/-- The parameter sets that are known have come with a picture. -/
theorem clean_of_known (hclean : ∀ p ∈ ps, p.Clean) {sets : List (List UInt8)}
    (h : Picture.known ps = some sets) : ∀ u ∈ sets, u ≠ [] ∧ ¬[0, 0, 1] <:+: u := by
  obtain ⟨p, hp, hown⟩ := List.exists_of_findSome?_eq_some h
  intro u hu
  refine (hclean p hp).unit ?_
  rw [Picture.ownSets] at hown
  split_ifs at hown
  · cases hown
    exact List.mem_append_left _ hu
  · cases hown
    exact List.mem_append_right _ (List.mem_of_mem_filter hu)

theorem any_splitAnnexB (hclean : p.Clean) (nalType : UInt8) :
    ((splitAnnexB (annexB p.units)).any fun u => u.nalType = nalType) = decide (p.Has nalType) := by
  rw [splitAnnexB_annexB fun u hu => hclean.unit (List.mem_append_right _ hu), List.any_map,
    Bool.eq_iff_iff, List.any_eq_true, decide_eq_true_eq]
  exact exists_congr fun u => and_congr_right fun _ => decide_eq_true_iff

/-- After another picture, its parameter sets are known unless others are. -/
theorem setsAfter_refOf (h : Inv ps s) (hclean : p.Clean) :
    (setsAfter s.parameterSets (s.encoder.refOf p)).sets =
      (Picture.known (ps ++ [p])).map annexB := by
  rw [known_append_singleton, setsAfter]
  cases hknown : Picture.known ps with
  | some sets =>
    have hsets : s.parameterSets.sets = some (annexB sets) := by rw [h.known, hknown, Option.map_some]
    have hobserve (cache : ParameterSetCache) (hcache : cache = s.parameterSets) :
        (cache.observe (s.encoder.refOf p).annexB).sets = some (annexB sets) := by
      rw [hcache, ParameterSetCache.observe, hsets]
      exact hsets
    rw [Option.some_or, Option.map_some]
    split
    · refine hobserve _ ?_
      rw [ParameterSetCache.setFallback, hsets, if_neg (by simp)]
    · exact hobserve _ rfl
  | none =>
    have hsets : s.parameterSets.sets = none := by rw [h.known, hknown, Option.map_none]
    rw [Option.none_or, Picture.ownSets]
    by_cases hp : p.sets = []
    · have hunits : ∀ u ∈ p.units, u ≠ [] ∧ ¬[0, 0, 1] <:+: u :=
        fun u hu => hclean.unit (List.mem_append_right _ hu)
      have hboth : NAL_TYPE_SPS ∈ p.units.map nalTypeOf ∧ NAL_TYPE_PPS ∈ p.units.map nalTypeOf ↔
          p.Has NAL_TYPE_SPS ∧ p.Has NAL_TYPE_PPS := by
        rw [List.mem_map, List.mem_map]
        exact Iff.rfl
      simp only [VtEncoder.refOf, hp, ne_eq, not_true_eq_false, and_false, if_false,
        ParameterSetCache.observe, hsets, extractParameterSets_annexB hunits, hboth]
      split_ifs <;> rfl
    · have hne : annexB p.sets ≠ [] := fun heq => hp (annexB_eq_nil.1 heq)
      simp [VtEncoder.refOf, h.lastParamSets hknown, hp, hne, ParameterSetCache.setFallback, hsets,
        ParameterSetCache.observe]

theorem delivered_frameOf {cache : ParameterSetCache} {known : Option (List (List UInt8))}
    (hcache : cache.sets = known.map annexB) (hclean : p.Clean)
    (hsets : ∀ sets ∈ known, ∀ u ∈ sets, u ≠ [] ∧ ¬[0, 0, 1] <:+: u) (encodeDoneTs : ℕ) :
    Delivered known p encodeDoneTs
      (Encoder.frameOf cache (annexB p.units) p.isSync p.captureTs encodeDoneTs) := by
  have hidr : isIdrAccessUnit (annexB p.units) p.isSync = decide p.IsIdr := by
    rw [isIdrAccessUnit, containsIdrSlice, any_splitAnnexB hclean, Bool.eq_iff_iff, Bool.or_eq_true,
      decide_eq_true_eq, decide_eq_true_eq]
    exact Iff.rfl
  have hsps : containsSps (annexB p.units) = decide (p.Has NAL_TYPE_SPS) :=
    any_splitAnnexB hclean NAL_TYPE_SPS
  have hunits : splitAnnexB (annexB p.units) = p.units.map .ofBytes :=
    splitAnnexB_annexB fun u hu => hclean.unit (List.mem_append_right _ hu)
  refine ⟨by rw [Encoder.frameOf, hidr, decide_eq_true_eq], rfl, rfl, ?_⟩
  rw [Encoder.frameOf, hidr]
  by_cases hp : p.IsIdr ∧ ¬p.Has NAL_TYPE_SPS
  · rw [if_pos hp]
    simp only [hp.1, decide_true, if_true, ParameterSetCache.completeIdr, hcache, hsps, hp.2,
      decide_false, Bool.false_eq_true, if_false]
    cases known with
    | none => exact hunits
    | some sets =>
      dsimp only [Option.map_some, Option.getD_some]
      rw [← annexB_append]
      refine splitAnnexB_annexB fun u hu => ?_
      rcases List.mem_append.1 hu with hu | hu
      · exact hsets sets rfl u hu
      · exact hclean.unit (List.mem_append_right _ hu)
  · rw [if_neg hp, List.nil_append, ← hunits]
    by_cases hi : p.IsIdr
    · have hspsp : p.Has NAL_TYPE_SPS := not_not.1 fun h => hp ⟨hi, h⟩
      have hcontains : containsSps (annexB p.units) := by rw [hsps, decide_eq_true_eq]; exact hspsp
      rw [decide_eq_true hi, if_pos rfl, ParameterSetCache.completeIdr_of_containsSps hcontains]
    · rw [decide_eq_false hi, if_neg Bool.false_ne_true]

theorem Inv.output_of_picture (h : Inv ps s) (hp : e.1.picture? = some p)
    (hclean : ∀ q ∈ ps ++ [p], q.Clean) :
    Inv (ps ++ [p]) (s.output e).1 ∧
      ∃ frame, (s.output e).2 = some frame ∧
        Delivered (Picture.known (ps ++ [p])) p e.2 frame := by
  have hpclean : p.Clean := hclean p (List.mem_append_right _ (List.mem_singleton_self p))
  have hknown := setsAfter_refOf h hpclean
  have houtput : s.output e = (⟨{ s.encoder with
        paramSets := annexB p.sets
        lastParamSets := annexB p.sets
        outputCount := s.encoder.outputCount + 1 }, setsAfter s.parameterSets (s.encoder.refOf p)⟩,
      some (Encoder.frameOf (setsAfter s.parameterSets (s.encoder.refOf p)) (annexB p.units)
        p.isSync p.captureTs e.2)) := by
    rw [output, s.encoder.handleOutput_of_picture hp]
    rfl
  rw [houtput]
  refine ⟨⟨hknown, fun hnone => ?_, ?_⟩, _, rfl, delivered_frameOf hknown hpclean
    (fun sets hsets => clean_of_known hclean hsets) e.2⟩
  · rw [known_append_singleton, Option.or_eq_none_iff] at hnone
    have hsets : p.sets = [] := by
      by_contra hne
      rw [Picture.ownSets, if_pos hne] at hnone
      cases hnone.2
    exact annexB_eq_nil.2 hsets
  · rw [List.length_append, List.length_singleton]
    exact congrArg (· + 1) h.outputCount

theorem Inv.output_of_none (h : Inv ps s) (hp : e.1.picture? = none) :
    Inv ps (s.output e).1 ∧ (s.output e).2 = none := by
  obtain ⟨hnone, hlast, hcount⟩ := s.encoder.handleOutput_of_none hp
  cases houtput : s.encoder.handleOutput e.1 with
  | mk encoder frame =>
    rw [houtput] at hnone hlast hcount
    cases hnone
    have hsame : s.output e = ({ s with encoder }, none) := by rw [output, houtput]
    rw [hsame]
    exact ⟨⟨h.known, fun hknown => hlast.trans (h.lastParamSets hknown),
      hcount.trans h.outputCount⟩, rfl⟩

theorem pictures_append_singleton (es : List (VtOutput × ℕ)) (e : VtOutput × ℕ) :
    pictures (es ++ [e]) = pictures es ++ e.1.picture?.toList := by
  rw [pictures, List.filterMap_append]
  cases h : e.1.picture? <;> simp [pictures, h]

/-- Along a run whose pictures have no start codes within their units, the source knows the first
    parameter sets. -/
theorem inv_of_run {es : List (VtOutput × ℕ)} (hrun : machine.run new es = some s)
    (hclean : ∀ p ∈ pictures es, p.Clean) : Inv (pictures es) s := by
  refine Machine.run_history (R := fun es s => (∀ p ∈ pictures es, p.Clean) → Inv (pictures es) s)
    (fun es s e s' ih hstep hclean => ?_) (fun _ => ⟨rfl, fun _ => rfl, rfl⟩) hrun hclean
  cases hstep
  rw [pictures_append_singleton] at hclean ⊢
  have hinv := ih fun p hp => hclean p (List.mem_append_left _ hp)
  cases hp : e.1.picture? with
  | none =>
    rw [Option.toList_none, List.append_nil]
    exact (hinv.output_of_none hp).1
  | some p =>
    rw [hp, Option.toList_some] at hclean
    exact (hinv.output_of_picture hp hclean).1

/-- Whatever VideoToolbox has called back with, each further call offers the hand-off one frame if it
    brings a picture, and none otherwise; and the frame has the units of the picture, in order, after
    the first parameter sets that have come if it is of an IDR picture without an SPS. Whether there
    is room for it is up to the hand-off, which drops it otherwise. -/
theorem units_preserved {es : List (VtOutput × ℕ)} (hrun : machine.run new es = some s)
    (e : VtOutput × ℕ) (hclean : ∀ p ∈ pictures (es ++ [e]), p.Clean) :
    s.encoder.outputCount = (pictures es).length ∧
    (e.1.picture? = none → s.frames e = []) ∧
    ∀ p, e.1.picture? = some p → ∃ frame, s.frames e = [frame] ∧
      Delivered (Picture.known (pictures (es ++ [e]))) p e.2 frame := by
  rw [pictures_append_singleton] at hclean ⊢
  have hinv : Inv (pictures es) s :=
    inv_of_run hrun fun p hp => hclean p (List.mem_append_left _ hp)
  refine ⟨hinv.outputCount, fun hp => ?_, fun p hp => ?_⟩
  · rw [frames, (hinv.output_of_none hp).2, Option.toList_none]
  · rw [hp, Option.toList_some] at hclean ⊢
    obtain ⟨-, frame, hframe, hdelivered⟩ := hinv.output_of_picture hp hclean
    exact ⟨frame, by rw [frames, hframe, Option.toList_some], hdelivered⟩

/-- An IDR picture of another format comes after the parameter sets of the first one. -/
theorem units_preserved_changed : ∃ s frame,
    machine.run new [(.sample (some (Picture.sample
      ⟨[[0x67, 1], [0x68, 2]], [[0x65, 7]], true, 100, by decide⟩ 4)), 110)] = some s ∧
    s.frames (.sample (some (Picture.sample
      ⟨[[0x67, 3], [0x68, 4]], [[0x65, 8]], true, 200, by decide⟩ 4)), 210) = [frame] ∧
    splitAnnexB frame.annexB = [[0x67, 1], [0x68, 2], [0x65, 8]].map .ofBytes := by
  obtain ⟨-, -, hframe⟩ := units_preserved
    (rfl : machine.run new [(.sample (some (Picture.sample
      ⟨[[0x67, 1], [0x68, 2]], [[0x65, 7]], true, 100, by decide⟩ 4)), 110)] = some _)
    (.sample (some (Picture.sample
      ⟨[[0x67, 3], [0x68, 4]], [[0x65, 8]], true, 200, by decide⟩ 4)), 210) (by decide +kernel)
  obtain ⟨frame, hframes, hdelivered⟩ := hframe _ (picture?_sample (by decide) (by decide))
  exact ⟨_, frame, rfl, hframes, hdelivered.units.trans (by decide +kernel)⟩

/-- Parameter sets before units without any make a picture one to start from exactly if they are
    complete, and come before any slice among them. -/
theorem setsFirst_append_units {types types' : List UInt8}
    (hno : ∀ nalType ∈ types', ¬IsParameterSet nalType) :
    SetsFirst (types ++ types') ↔ SetsFirst types := by
  have hmem {nalType : UInt8} (hset : IsParameterSet nalType)
      (h : nalType ∈ (types ++ types').takeWhile (· ≠ NAL_TYPE_SLICE_IDR)) : nalType ∈ types := by
    rcases List.mem_append.1 (List.takeWhile_subset _ h) with h | h
    · exact h
    · exact absurd hset (hno nalType h)
  constructor
  · intro h
    exact (setsFirst_append (hmem (.inl rfl) h.1) (hmem (.inr rfl) h.2)).1 h
  · intro h
    exact (setsFirst_append (List.takeWhile_subset _ h.1) (List.takeWhile_subset _ h.2)).2 h

/-- If every format has parameter sets, the first of them are those that are known. -/
theorem known_of_sets {q : Picture} (hq : ps.head? = some q) (hsets : q.sets ≠ []) :
    Picture.known ps = some q.sets := by
  obtain ⟨rest, rfl⟩ := List.head?_eq_some_iff.1 hq
  rw [Picture.known, List.findSome?_cons, Picture.ownSets, if_pos hsets]

/-- Along a run whose units contain no start codes, the frame of an IDR picture that comes without
    parameter sets can be decoded on its own exactly if the first that have come are complete, before
    any slice. And where every format has some, they are those of its own format exactly if these are
    those of the first picture. -/
theorem idr_has_own_sets_iff {es : List (VtOutput × ℕ)} (hrun : machine.run new es = some s)
    (hclean : ∀ q ∈ pictures (es ++ [e]), q.Clean) (hp : e.1.picture? = some p)
    (hidr : p.Has NAL_TYPE_SLICE_IDR) (hno : ∀ u ∈ p.units, ¬IsParameterSet (nalTypeOf u)) :
    ∃ frame, s.frames e = [frame] ∧
      (isSelfContainedIdr frame.annexB ↔
        ∃ sets, Picture.known (pictures (es ++ [e])) = some sets ∧
          SetsFirst (sets.map nalTypeOf)) ∧
      ((∀ q ∈ pictures (es ++ [e]), q.sets ≠ []) →
        (splitAnnexB frame.annexB = (p.sets ++ p.units).map .ofBytes ↔
          ∀ q ∈ (pictures (es ++ [e])).head?, q.sets = p.sets)) := by
  have hinv : Inv (pictures es) s := inv_of_run hrun fun q hq => hclean q <| by
    rw [pictures_append_singleton]
    exact List.mem_append_left _ hq
  have hps : pictures (es ++ [e]) = pictures es ++ [p] := by
    rw [pictures_append_singleton, hp, Option.toList_some]
  rw [hps] at hclean ⊢
  obtain ⟨-, frame, hframe, hdelivered⟩ := hinv.output_of_picture hp hclean
  have hsps : ¬p.Has NAL_TYPE_SPS := fun ⟨u, hu, htype⟩ => hno u hu (.inl htype)
  have hunits := hdelivered.units
  rw [if_pos ⟨.inr hidr, hsps⟩] at hunits
  refine ⟨frame, by rw [frames, hframe, Option.toList_some], ?_, fun hall => ?_⟩
  · have htypes : nalUnitTypes frame.annexB =
        ((Picture.known (pictures es ++ [p])).getD []).map nalTypeOf ++ p.units.map nalTypeOf := by
      rw [nalUnitTypes, hunits, List.map_map, List.map_append]
      rfl
    have hslice : NAL_TYPE_SLICE_IDR ∈ nalUnitTypes frame.annexB := by
      rw [htypes]
      exact List.mem_append_right _ (List.mem_map.2 hidr)
    have hno' : ∀ nalType ∈ p.units.map nalTypeOf, ¬IsParameterSet nalType :=
      List.forall_mem_map.2 hno
    rw [isSelfContainedIdr_iff, and_iff_right hslice, htypes, setsFirst_append_units hno']
    cases Picture.known (pictures es ++ [p]) with
    | none => simp [SetsFirst]
    | some sets => simp
  · obtain ⟨q, hq⟩ : ∃ q, (pictures es ++ [p]).head? = some q := by
      rw [← Option.isSome_iff_exists, List.isSome_head?]
      simp
    have hknown := known_of_sets hq (hall q (List.mem_of_head? hq))
    have hinj : Function.Injective NalUnit.ofBytes := fun u v h => congrArg NalUnit.bytes h
    rw [hunits, hknown, hq, Option.getD_some, (List.map_injective_iff.2 hinj).eq_iff,
      List.append_left_inj]
    simp

/-- An IDR picture of another format can be decoded on its own, but not after the parameter sets of
    its format. -/
theorem idr_has_own_sets_changed : ∃ s frame,
    machine.run new [(.sample (some (Picture.sample
      ⟨[[0x67, 1], [0x68, 2]], [[0x65, 7]], true, 100, by decide⟩ 4)), 110)] = some s ∧
    s.frames (.sample (some (Picture.sample
      ⟨[[0x67, 3], [0x68, 4]], [[0x65, 8]], true, 200, by decide⟩ 4)), 210) = [frame] ∧
    isSelfContainedIdr frame.annexB ∧
    splitAnnexB frame.annexB ≠ [[0x67, 3], [0x68, 4], [0x65, 8]].map .ofBytes := by
  obtain ⟨frame, hframes, hself, hown⟩ := idr_has_own_sets_iff
    (rfl : machine.run new [(.sample (some (Picture.sample
      ⟨[[0x67, 1], [0x68, 2]], [[0x65, 7]], true, 100, by decide⟩ 4)), 110)] = some _)
    (e := (.sample (some (Picture.sample
      ⟨[[0x67, 3], [0x68, 4]], [[0x65, 8]], true, 200, by decide⟩ 4)), 210))
    (by decide +kernel) (picture?_sample (by decide) (by decide)) (by decide) (by decide)
  exact ⟨_, frame, rfl, hframes, hself.2 ⟨[[0x67, 1], [0x68, 2]], by decide +kernel, by decide⟩,
    fun hsame => absurd ((hown (by decide +kernel)).1 hsame) (by decide +kernel)⟩

end MacEncoder

end Sardp
