import Sardp.File.Reassembly

/-!
# The order of the chunks

A file that is cut into pieces is put together again from its chunks in whatever order they
arrive: every chunk is accepted, and the file is complete with the last of them and not before
(`FileReassembly.order_independent`). For the chunks are pieces of the file in any order
(`Pieces.perm`, `pieces_chunksFrom`), and a chunk that is missing leaves its first position
uncovered (`Pieces.isComplete_iff`).
-/

namespace Sardp

/-- The chunks of consecutive pieces of a file, from an offset on. -/
def chunksFrom : ℕ → List (List UInt8) → List FileChunk
  | _, [] => []
  | offset, piece :: pieces => ⟨offset, piece.length, piece⟩ :: chunksFrom (offset + piece.length) pieces

/-- The data of a complete file. -/
def FileReassembly.intoData (r : FileReassembly) : List UInt8 := r.data

variable {file : List UInt8} {chunks : List FileChunk}

/-- The ranges of the chunks begin where those before them end. -/
theorem le_offset_chunksFrom {offset : ℕ} {pieces : List (List UInt8)} {c : FileChunk}
    (hc : c ∈ chunksFrom offset pieces) : offset ≤ c.offset := by
  induction pieces generalizing offset with
  | nil => cases hc
  | cons piece pieces ih =>
    rcases List.mem_cons.1 hc with rfl | hc
    · exact le_rfl
    · exact (Nat.le_add_right ..).trans (ih hc)

/-- Every chunk is the one of a piece. -/
theorem exists_piece_of_mem {offset : ℕ} {pieces : List (List UInt8)} {c : FileChunk}
    (hc : c ∈ chunksFrom offset pieces) : ∃ piece ∈ pieces, c.length = piece.length := by
  induction pieces generalizing offset with
  | nil => cases hc
  | cons piece pieces ih =>
    rcases List.mem_cons.1 hc with rfl | hc
    · exact ⟨piece, List.mem_cons_self, rfl⟩
    · obtain ⟨piece', hpiece', heq⟩ := ih hc
      exact ⟨piece', List.mem_cons_of_mem _ hpiece', heq⟩

theorem pairwise_chunksFrom (offset : ℕ) (pieces : List (List UInt8)) :
    (chunksFrom offset pieces).Pairwise fun c c' => ¬Overlaps c'.range c.range := by
  induction pieces generalizing offset with
  | nil => exact .nil
  | cons piece pieces ih =>
    refine .cons (fun c hc hoverlaps => ?_) (ih _)
    exact Nat.not_lt.2 (le_offset_chunksFrom hc) hoverlaps.1

/-- What comes after the start of a file is cut into chunks that are slices of it. -/
theorem slice_chunksFrom (start : List UInt8) {pieces : List (List UInt8)} {c : FileChunk}
    (hc : c ∈ chunksFrom start.length pieces) :
    c.offset + c.length ≤ (start ++ pieces.flatten).length ∧
      c.data = Intervals.slice (start ++ pieces.flatten) c.range := by
  induction pieces generalizing start with
  | nil => cases hc
  | cons piece pieces ih =>
    rw [List.flatten_cons, ← List.append_assoc]
    rcases List.mem_cons.1 hc with rfl | hc
    · refine ⟨by simp, ?_⟩
      simp [Intervals.slice, FileChunk.range]
    · exact ih (start ++ piece) (by rwa [List.length_append])

theorem covers_chunksFrom (offset : ℕ) {i : ℕ} {pieces : List (List UInt8)} (ho : offset ≤ i)
    (hi : i < offset + pieces.flatten.length) :
    Intervals.Covers ((chunksFrom offset pieces).map FileChunk.range) i := by
  induction pieces generalizing offset with
  | nil => exact absurd hi (Nat.not_lt.2 ho)
  | cons piece pieces ih =>
    rw [List.flatten_cons, List.length_append] at hi
    by_cases hpiece : i < offset + piece.length
    · exact ⟨_, List.mem_cons_self, ho, hpiece⟩
    · obtain ⟨r, hr, hmem⟩ := ih (offset + piece.length) (by omega) (by omega)
      exact ⟨r, List.mem_cons_of_mem _ hr, hmem⟩

/-- The chunks of a file that is cut into pieces are pieces of it. -/
theorem pieces_chunksFrom (pieces : List (List UInt8)) :
    Pieces pieces.flatten (chunksFrom 0 pieces) where
  slice hc := slice_chunksFrom [] hc
  disjoint := pairwise_chunksFrom 0 pieces
  covers hi := covers_chunksFrom 0 (Nat.zero_le _) (by rwa [Nat.zero_add])

theorem not_overlaps_comm {r r' : ℕ × ℕ} (h : ¬Overlaps r r') : ¬Overlaps r' r :=
  fun h' => h ⟨h'.2, h'.1⟩

/-- Pieces of a file are pieces of it in any order. -/
theorem Pieces.perm {chunks' : List FileChunk} (h : Pieces file chunks)
    (hperm : chunks.Perm chunks') : Pieces file chunks' where
  slice hc := h.slice (hperm.mem_iff.2 hc)
  disjoint := hperm.pairwise h.disjoint fun hno => not_overlaps_comm hno
  covers hi := by
    obtain ⟨r, hr, hmem⟩ := h.covers hi
    exact ⟨r, (hperm.map _).mem_iff.1 hr, hmem⟩

/-- Of pieces that are not empty, the first ones cover the file only when they are all. -/
theorem Pieces.isComplete_iff (h : Pieces file chunks) (hne : ∀ c ∈ chunks, c.length ≠ 0)
    {done : List FileChunk} (hdone : done <+: chunks) {r : FileReassembly}
    (hsize : r.resolvedSize = file.length)
    (hranges : r.receivedRanges = done.map FileChunk.range) : r.isComplete ↔ done = chunks := by
  rw [FileReassembly.isComplete_iff, hsize, hranges]
  constructor
  · intro hcovers
    obtain ⟨rest, rfl⟩ := hdone
    cases rest with
    | nil => exact (List.append_nil done).symm
    | cons c rest =>
      have hc : c ∈ done ++ c :: rest := List.mem_append_right _ List.mem_cons_self
      have hlen := hne c hc
      -- the first position of a chunk that is missing is covered by none of the others
      obtain ⟨r, hr, hle, hlt⟩ := hcovers c.offset (by have := (h.slice hc).1; omega)
      obtain ⟨c', hc', rfl⟩ := List.mem_map.1 hr
      have hno := (List.pairwise_append.1 h.disjoint).2.2 c' hc' c List.mem_cons_self
      refine absurd ⟨hlt, ?_⟩ hno
      simp only [FileChunk.range] at hle ⊢
      omega
  · rintro rfl i hi
    exact h.covers hi

/-- Pieces of a file make it up. -/
theorem Pieces.map_intoData (h : Pieces file chunks) :
    ((FileReassembly.new file.length).applyChunks chunks).map FileReassembly.intoData =
      .ok file := by
  obtain ⟨r, happly, -, hdata⟩ := h.exists_applyChunks_self
  rw [happly]
  exact congrArg Except.ok hdata

/-- However a file is cut into pieces that are not empty, and in whatever order their chunks
    arrive, every chunk is accepted, the file is complete with the last one and not before, and
    it is the file that was cut; so any two orders give the same file. -/
theorem FileReassembly.order_independent {pieces : List (List UInt8)}
    (hne : ∀ piece ∈ pieces, piece ≠ []) (hperm : chunks.Perm (chunksFrom 0 pieces)) :
    (∀ done, done <+: chunks → ∃ r, (new pieces.flatten.length).applyChunks done = .ok r ∧
      (r.isComplete ↔ done = chunks)) ∧
    (((new pieces.flatten.length).applyChunks chunks).map intoData = .ok pieces.flatten) ∧
    ∀ chunks', chunks'.Perm chunks →
      ((new pieces.flatten.length).applyChunks chunks').map intoData =
        ((new pieces.flatten.length).applyChunks chunks).map intoData := by
  have hpieces : Pieces pieces.flatten chunks := (pieces_chunksFrom pieces).perm hperm.symm
  have hlength : ∀ c ∈ chunks, c.length ≠ 0 := by
    intro c hc
    obtain ⟨piece, hpiece, heq⟩ := exists_piece_of_mem (hperm.mem_iff.1 hc)
    rw [heq]
    exact fun h => hne piece hpiece (List.length_eq_zero_iff.1 h)
  refine ⟨fun done hdone => ?_, hpieces.map_intoData, fun chunks' hperm' => ?_⟩
  · obtain ⟨r, hr, hsize, hranges, -⟩ := hpieces.exists_applyChunks hdone
    exact ⟨r, hr, hpieces.isComplete_iff hlength hdone hsize hranges⟩
  · rw [hpieces.map_intoData, (hpieces.perm hperm'.symm).map_intoData]

/-- Three chunks, the last one first. -/
theorem FileReassembly.order_independent_lastFirst :
    ((new 6).applyChunks [⟨3, 3, [4, 5, 6]⟩, ⟨0, 1, [1]⟩, ⟨1, 2, [2, 3]⟩]).map intoData =
      .ok [1, 2, 3, 4, 5, 6] :=
  (@order_independent _ [[1], [2, 3], [4, 5, 6]] (by decide)
    ((List.Perm.swap ..).trans (.cons _ (.swap ..)))).2.1

end Sardp
