import Sardp.File.Reassembly

/-!
# Chunks that overlap

The receiver of a file refuses a chunk that overlaps one it has (`file_transfer_session.rs`). It
compares where they start and end. That is right for chunks with data: they are refused exactly if
some position of the file is in both. But an empty chunk, which is at no position, is refused where
it lies within one received before, and once received makes a chunk be refused that it lies within.
At the edges, and outside, it is accepted (`FileReassembly.overlapExact_iff`).
-/

namespace Sardp

/-- There is a position of the file in both chunks. -/
def FileChunk.SharesByte (chunk chunk' : FileChunk) : Prop :=
  Intervals.Meet chunk.range chunk'.range

/-- The first chunk is empty, and lies within the second one, not at its edges. -/
def FileChunk.EmptyWithin (chunk chunk' : FileChunk) : Prop :=
  Intervals.EmptyWithin chunk.range chunk'.range

instance (chunk chunk' : FileChunk) : Decidable (chunk.SharesByte chunk') :=
  inferInstanceAs (Decidable (Intervals.Meet _ _))

instance (chunk chunk' : FileChunk) : Decidable (chunk.EmptyWithin chunk') :=
  inferInstanceAs (Decidable (Intervals.EmptyWithin _ _))

theorem overlaps_range_iff {chunk chunk' : FileChunk} :
    Overlaps chunk.range chunk'.range ↔
      chunk.SharesByte chunk' ∨ chunk.EmptyWithin chunk' ∨ chunk'.EmptyWithin chunk :=
  Intervals.crosses_iff

namespace FileReassembly

variable {r r' : FileReassembly} {accepted : List FileChunk} {chunk : FileChunk}

/-- A chunk is refused as overlapping exactly if it shares a byte with an accepted one, and accepted
    otherwise. -/
def OverlapExact (r : FileReassembly) (accepted : List FileChunk) (chunk : FileChunk) : Prop :=
  (r.applyChunk chunk = .error ReasonCode.PROTOCOL_FILE_CHUNK_OVERLAP ↔
      ∃ c ∈ accepted, chunk.SharesByte c) ∧
    ((∃ r', r.applyChunk chunk = .ok r') ↔ ¬∃ c ∈ accepted, chunk.SharesByte c)

/-- The ranges received are those of the chunks accepted. -/
theorem receivedRanges_applyChunks (h : r.applyChunks accepted = .ok r') :
    r'.receivedRanges = r.receivedRanges ++ accepted.map FileChunk.range := by
  induction accepted generalizing r with
  | nil =>
    cases h
    simp
  | cons c accepted ih =>
    rw [applyChunks, List.foldlM_cons] at h
    obtain ⟨r₁, hr₁, h⟩ := Except.bind_eq_ok.1 h
    rw [ih h, receivedRanges_applyChunk hr₁, List.map_cons, List.append_assoc,
      List.singleton_append]

theorem resolvedSize_applyChunks (h : r.applyChunks accepted = .ok r') :
    r'.resolvedSize = r.resolvedSize := by
  induction accepted generalizing r with
  | nil =>
    cases h
    rfl
  | cons c accepted ih =>
    rw [applyChunks, List.foldlM_cons] at h
    obtain ⟨r₁, hr₁, h⟩ := Except.bind_eq_ok.1 h
    rw [ih h, resolvedSize_applyChunk hr₁]

/-- What decides over a chunk of the length it says, within the file. -/
theorem applyChunk_wellFormed (hlength : chunk.data.length = chunk.length)
    (hend : chunk.offset + chunk.length ≤ r.resolvedSize) :
    (r.applyChunk chunk = .error ReasonCode.PROTOCOL_FILE_CHUNK_OVERLAP ↔
      ∃ existing ∈ r.receivedRanges, Overlaps chunk.range existing) ∧
    ((∃ r', r.applyChunk chunk = .ok r') ↔
      ¬∃ existing ∈ r.receivedRanges, Overlaps chunk.range existing) := by
  rw [applyChunk, dif_pos hlength, dif_pos hend]
  split_ifs with h
  · refine ⟨iff_of_true rfl h, iff_of_false ?_ (not_not.2 h)⟩
    rintro ⟨r', heq⟩
    cases heq
  · refine ⟨iff_of_false ?_ h, iff_of_true ⟨_, rfl⟩ h⟩
    intro heq
    cases heq

/-- After whatever chunks have been accepted, overlaps are told exactly for a chunk that shares a
    byte with one of them, or is not empty within one of them and has no empty one of them within
    it. -/
theorem overlapExact_iff (resolvedSize : ℕ) (accepted : List FileChunk) (r : FileReassembly)
    (haccepted : (new resolvedSize).applyChunks accepted = .ok r) (chunk : FileChunk)
    (hlength : chunk.data.length = chunk.length)
    (hend : chunk.offset + chunk.length ≤ resolvedSize) :
    r.OverlapExact accepted chunk ↔
      (∃ c ∈ accepted, chunk.SharesByte c) ∨
        ∀ c ∈ accepted, ¬chunk.EmptyWithin c ∧ ¬c.EmptyWithin chunk := by
  have hranges : (∃ existing ∈ r.receivedRanges, Overlaps chunk.range existing) ↔
      ∃ c ∈ accepted, Overlaps chunk.range c.range := by
    rw [receivedRanges_applyChunks haccepted]
    simp [new]
  obtain ⟨herror, hok⟩ := applyChunk_wellFormed hlength
    (hend.trans (resolvedSize_applyChunks haccepted).ge)
  rw [OverlapExact, herror, hok, hranges]
  constructor
  · rintro ⟨hiff, -⟩
    by_cases hshares : ∃ c ∈ accepted, chunk.SharesByte c
    · exact .inl hshares
    · -- whatever is told to overlap would share a byte
      refine .inr fun c hc => ⟨fun hwithin => ?_, fun hwithin => ?_⟩
      · exact hshares (hiff.1 ⟨c, hc, overlaps_range_iff.2 (.inr (.inl hwithin))⟩)
      · exact hshares (hiff.1 ⟨c, hc, overlaps_range_iff.2 (.inr (.inr hwithin))⟩)
  · intro hcond
    have hiff : (∃ c ∈ accepted, Overlaps chunk.range c.range) ↔
        ∃ c ∈ accepted, chunk.SharesByte c := by
      constructor
      · rintro ⟨c, hc, hoverlaps⟩
        rcases hcond with hshares | hnone
        · exact hshares
        · have hshares := (overlaps_range_iff.1 hoverlaps).resolve_right fun hwithin =>
            hwithin.elim (hnone c hc).1 (hnone c hc).2
          exact ⟨c, hc, hshares⟩
      · rintro ⟨c, hc, hshares⟩
        exact ⟨c, hc, overlaps_range_iff.2 (.inl hshares)⟩
    exact ⟨hiff, not_congr hiff⟩

/-- A chunk within the file that overlaps nothing, next to an empty one. -/
theorem overlapExact_after_empty :
    ∃ r, (new 6).applyChunks [⟨0, 3, [1, 2, 3]⟩, ⟨3, 0, []⟩] = .ok r ∧
      r.OverlapExact [⟨0, 3, [1, 2, 3]⟩, ⟨3, 0, []⟩] ⟨3, 3, [4, 5, 6]⟩ := by
  refine ⟨_, rfl, ?_⟩
  exact (overlapExact_iff 6 _ _ rfl ⟨3, 3, [4, 5, 6]⟩ rfl (by decide)).2 (.inr (by decide))

/-- An empty chunk within one that has been accepted is refused, and so is a chunk that an empty one
    has been accepted within, though neither shares a byte with the other. -/
theorem empty_chunk_overlaps :
    (∃ r, (new 6).applyChunks [⟨0, 3, [1, 2, 3]⟩] = .ok r ∧
      r.applyChunk ⟨1, 0, []⟩ = .error ReasonCode.PROTOCOL_FILE_CHUNK_OVERLAP ∧
      ¬r.OverlapExact [⟨0, 3, [1, 2, 3]⟩] ⟨1, 0, []⟩) ∧
    ∃ r, (new 6).applyChunks [⟨1, 0, []⟩] = .ok r ∧
      r.applyChunk ⟨0, 3, [1, 2, 3]⟩ = .error ReasonCode.PROTOCOL_FILE_CHUNK_OVERLAP ∧
      ¬r.OverlapExact [⟨1, 0, []⟩] ⟨0, 3, [1, 2, 3]⟩ := by
  refine ⟨⟨_, rfl, rfl, fun h => ?_⟩, _, rfl, rfl, fun h => ?_⟩
  all_goals
    have hshares := h.1.1 rfl
    revert hshares
    decide

end FileReassembly

end Sardp
