import Mathlib.Order.Interval.Set.Disjoint
import Sardp.File.Reassembly

/-!
# What a received file is made of

A file is only complete when its checksum is the one received, and then every byte of it was
written by exactly one chunk (`receiveFile_integrity`). For the chunks that are accepted are for
disjoint positions of the file, and each leaves what the others wrote alone
(`FileReassembly.WrittenBy`); a chunk that is refused changes nothing
(`FileReassembly.apply_eq`).
-/

namespace Sardp

/-- The positions of the file that a chunk is for. -/
def FileChunk.positions (chunk : FileChunk) : Set ℕ :=
  Set.Ico chunk.offset (chunk.offset + chunk.length)

namespace FileReassembly

theorem length_copied {r : FileReassembly} {chunk : FileChunk}
    (hlength : chunk.data.length = chunk.length)
    (hend : chunk.offset + chunk.length ≤ r.resolvedSize) :
    (Intervals.overwrite r.data chunk.offset chunk.data).length = r.resolvedSize := by
  rw [Intervals.length_overwrite, r.length_data]
  rwa [hlength, r.length_data]

theorem end_le_pushed {r : FileReassembly} {chunk : FileChunk}
    (hend : chunk.offset + chunk.length ≤ r.resolvedSize) {range : ℕ × ℕ}
    (h : range ∈ r.receivedRanges ++ [chunk.range]) : range.1 + range.2 ≤ r.resolvedSize := by
  rcases List.mem_append.1 h with h | h
  · exact r.end_le h
  · rw [List.mem_singleton.1 h]
    exact hend

/-- The data of a chunk, copied to its place. -/
def copyFromSlice (r : FileReassembly) (chunk : FileChunk)
    (hlength : chunk.data.length = chunk.length)
    (hend : chunk.offset + chunk.length ≤ r.resolvedSize) : FileReassembly where
  resolvedSize := r.resolvedSize
  receivedRanges := r.receivedRanges
  data := Intervals.overwrite r.data chunk.offset chunk.data
  length_data := length_copied hlength hend
  end_le := r.end_le

/-- The range of a chunk, recorded. -/
def push (r : FileReassembly) (chunk : FileChunk)
    (hend : chunk.offset + chunk.length ≤ r.resolvedSize) : FileReassembly where
  resolvedSize := r.resolvedSize
  receivedRanges := r.receivedRanges ++ [chunk.range]
  data := r.data
  length_data := r.length_data
  end_le h := end_le_pushed hend h

/-- Adding a chunk in place. -/
def applyInPlace (chunk : FileChunk) : ExceptT ReasonCode (StateM FileReassembly) Unit := do
  let r ← get
  if hlength : chunk.data.length = chunk.length then
    if hend : chunk.offset + chunk.length ≤ r.resolvedSize then
      if ∃ existing ∈ r.receivedRanges, Overlaps chunk.range existing then
        throw ReasonCode.PROTOCOL_FILE_CHUNK_OVERLAP
      let copied := r.copyFromSlice chunk hlength hend
      set copied
      set (copied.push chunk hend)
    else throw ReasonCode.PROTOCOL_FILE_CHUNK_OUT_OF_RANGE
  else throw ReasonCode.PROTOCOL_FILE_CHUNK_OUT_OF_RANGE

/-- Adding a chunk: the result, and the reassembly after it. -/
def apply (r : FileReassembly) (chunk : FileChunk) : Except ReasonCode Unit × FileReassembly :=
  (applyInPlace chunk).run r

/-- A chunk that is refused leaves the reassembly as it was. -/
theorem apply_eq (r : FileReassembly) (chunk : FileChunk) :
    r.apply chunk = match r.applyChunk chunk with
      | .ok r' => (.ok (), r')
      | .error reason => (.error reason, r) := by
  rw [apply, applyChunk]
  change (dite (chunk.data.length = chunk.length) _ _ :
    ExceptT ReasonCode (StateM FileReassembly) Unit).run r = _
  by_cases hlength : chunk.data.length = chunk.length
  · rw [dif_pos hlength, dif_pos hlength]
    by_cases hend : chunk.offset + chunk.length ≤ r.resolvedSize
    · rw [dif_pos hend, dif_pos hend]
      split <;> rfl
    · rw [dif_neg hend, dif_neg hend]
      rfl
  · rw [dif_neg hlength, dif_neg hlength]
    rfl

/-- The reassembly after chunks have been offered, whether they were accepted or not. -/
def applyAll (r : FileReassembly) (chunks : List FileChunk) : FileReassembly :=
  chunks.foldl (fun r chunk => (r.apply chunk).2) r

/-- The chunks that are accepted of those offered. -/
def accepted (r : FileReassembly) : List FileChunk → List FileChunk
  | [] => []
  | chunk :: chunks =>
    match r.apply chunk with
    | (.ok (), r') => chunk :: accepted r' chunks
    | (.error _, r') => accepted r' chunks

variable {r r' : FileReassembly} {chunk : FileChunk} {chunks : List FileChunk}

/-- What a chunk that is accepted does. -/
theorem applyChunk_eq_ok (h : r.applyChunk chunk = .ok r') :
    chunk.data.length = chunk.length ∧ chunk.offset + chunk.length ≤ r.resolvedSize ∧
      (∀ existing ∈ r.receivedRanges, ¬Overlaps chunk.range existing) ∧
      r'.receivedRanges = r.receivedRanges ++ [chunk.range] ∧
      r'.data = Intervals.overwrite r.data chunk.offset chunk.data := by
  rw [applyChunk] at h
  split_ifs at h with hlength hend hoverlaps
  cases h
  exact ⟨hlength, hend, fun existing hmem h => hoverlaps ⟨existing, hmem, h⟩, rfl, rfl⟩

theorem resolvedSize_applyAll (r : FileReassembly) (chunks : List FileChunk) :
    (r.applyAll chunks).resolvedSize = r.resolvedSize := by
  induction chunks generalizing r with
  | nil => rfl
  | cons c chunks ih =>
    rw [applyAll, List.foldl_cons]
    refine (ih (r.apply c).2).trans ?_
    rw [apply_eq]
    cases happly : r.applyChunk c with
    | error reason => rfl
    | ok r' => exact resolvedSize_applyChunk happly

/-! ## What the chunks wrote -/

/-- The reassembly is what the chunks wrote: they are for disjoint positions, and each of them
    is found at its own. -/
structure WrittenBy (r : FileReassembly) (chunks : List FileChunk) : Prop where
  ranges : r.receivedRanges = chunks.map FileChunk.range
  disjoint : chunks.Pairwise fun c c' => Disjoint c.positions c'.positions
  data {c : FileChunk} {i : ℕ} : c ∈ chunks → i ∈ c.positions → r.data[i]? = c.data[i - c.offset]?

theorem writtenBy_new (resolvedSize : ℕ) : (new resolvedSize).WrittenBy [] :=
  ⟨rfl, .nil, fun h => absurd h List.not_mem_nil⟩

/-- Ranges that do not overlap are for disjoint positions. -/
theorem disjoint_positions {c : FileChunk} (h : ¬Overlaps chunk.range c.range) :
    Disjoint c.positions chunk.positions := by
  refine Set.disjoint_left.2 fun i hi hi' => h ⟨?_, ?_⟩
  · exact hi'.1.trans_lt hi.2
  · exact hi.1.trans_lt hi'.2

/-- An accepted chunk is written next to the others. -/
theorem WrittenBy.step (hr : r.WrittenBy chunks) (h : r.applyChunk chunk = .ok r') :
    r'.WrittenBy (chunks ++ [chunk]) := by
  obtain ⟨hlength, hend, hno, hranges, hdata⟩ := applyChunk_eq_ok h
  have hdisjoint (c : FileChunk) (hc : c ∈ chunks) : Disjoint c.positions chunk.positions := by
    refine disjoint_positions (hno _ ?_)
    rw [hr.ranges]
    exact List.mem_map_of_mem hc
  have hwritten (i : ℕ) : r'.data[i]? =
      if chunk.offset ≤ i ∧ i < chunk.offset + chunk.length then chunk.data[i - chunk.offset]?
      else r.data[i]? := by
    rw [hdata, Intervals.getElem?_overwrite (by rw [hlength, r.length_data]; exact hend), hlength]
  refine ⟨?_, ?_, fun {c i} hc hi => ?_⟩
  · rw [hranges, hr.ranges, List.map_append]
    rfl
  · refine List.pairwise_append.2 ⟨hr.disjoint, List.pairwise_singleton .., fun c hc c' hc' => ?_⟩
    rw [List.mem_singleton.1 hc']
    exact hdisjoint c hc
  · rw [hwritten]
    rcases List.mem_append.1 hc with hc | hc
    · have hnot : ¬(chunk.offset ≤ i ∧ i < chunk.offset + chunk.length) :=
        Set.disjoint_left.1 (hdisjoint c hc) hi
      rw [if_neg hnot]
      exact hr.data hc hi
    · rw [List.mem_singleton.1 hc] at hi ⊢
      exact if_pos hi

/-- Chunks that are offered leave what the accepted ones wrote. -/
theorem WrittenBy.applyAll (hr : r.WrittenBy chunks) (offered : List FileChunk) :
    (r.applyAll offered).WrittenBy (chunks ++ r.accepted offered) := by
  induction offered generalizing r chunks with
  | nil =>
    rw [accepted, List.append_nil]
    exact hr
  | cons c offered ih =>
    rw [FileReassembly.applyAll, List.foldl_cons, accepted, apply_eq]
    cases happly : r.applyChunk c with
    | error reason => exact ih hr
    | ok r' =>
      have := ih (hr.step happly)
      rwa [List.append_assoc] at this

theorem WrittenBy.end_le (hr : r.WrittenBy chunks) {c : FileChunk} (hc : c ∈ chunks) :
    c.offset + c.length ≤ r.resolvedSize := by
  have hrange : c.range ∈ r.receivedRanges := by
    rw [hr.ranges]
    exact List.mem_map_of_mem hc
  exact r.end_le hrange

theorem WrittenBy.isComplete_iff (hr : r.WrittenBy chunks) :
    r.isComplete ↔ ∀ i < r.resolvedSize, ∃ c ∈ chunks, i ∈ c.positions := by
  rw [FileReassembly.isComplete_iff, hr.ranges]
  refine forall₂_congr fun i _ => ?_
  simp only [Intervals.Covers, List.mem_map, exists_exists_and_eq_and]
  rfl

end FileReassembly

/-! ## What is received -/

variable {sha256 : List UInt8 → List UInt8} {fileHandle : ℕ} {r : FileReassembly}

/-- A file that has been received consists of chunks that were accepted one after the other,
    and cover it. -/
theorem exists_chunks_of_complete {events : List FileEvent} {data : List UInt8}
    (h : receiveMessages sha256 fileHandle r events = some (.ok (.complete data))) :
    ∃ chunks checksum rest,
      events = chunks.map (fun c => .chunk (some c)) ++ .complete (some ⟨checksum⟩) :: rest ∧
        r.accepted chunks = chunks ∧ (r.applyAll chunks).isComplete ∧
        (r.applyAll chunks).data = data ∧ sha256 data = checksum := by
  induction events generalizing r with
  | nil => cases h
  | cons event events ih =>
    match event with
    | .stalled | .readFailed _ | .chunk none | .complete none | .unexpected _ =>
      simp [receiveMessages] at h
    | .chunk (some chunk) =>
      rw [receiveMessages] at h
      split at h
      · cases h
      · next r' happly =>
        obtain ⟨chunks, checksum, rest, rfl, haccepted, hrest⟩ := ih h
        refine ⟨chunk :: chunks, checksum, rest, rfl, ?_, ?_⟩
        · rw [FileReassembly.accepted, FileReassembly.apply_eq, happly]
          exact congrArg _ haccepted
        · rw [FileReassembly.applyAll, List.foldl_cons, FileReassembly.apply_eq, happly]
          exact hrest
    | .complete (some ⟨checksum⟩) =>
      rw [receiveMessages] at h
      split_ifs at h with hcomplete hchecksum
      · cases h
      · cases h
      · obtain rfl : r.data = data := by simpa using h
        refine ⟨[], checksum, events, rfl, rfl, ?_, rfl, not_not.1 hchecksum⟩
        simpa [FileReassembly.applyAll] using hcomplete

/-- Whatever messages arrive, a file that is received as complete has the size and the checksum
    it was promised, and every byte of it was written by exactly one chunk. And whatever chunks
    are offered, the accepted ones are for disjoint positions within the size, a refused one
    changes nothing, and the file is complete exactly if they cover it. -/
theorem receiveFile_integrity (sha256 : List UInt8 → List UInt8) (fileHandle resolvedSize : ℕ) :
    (∀ events data,
      receiveFile sha256 fileHandle resolvedSize events = some (.ok (.complete data)) →
        ∃ chunks checksum rest,
          events = chunks.map (fun c => .chunk (some c)) ++ .complete (some ⟨checksum⟩) :: rest ∧
            (FileReassembly.new resolvedSize).accepted chunks = chunks ∧
            data.length = resolvedSize ∧
            (∀ i < resolvedSize, ∃! k : Fin chunks.length,
              i ∈ chunks[k].positions ∧ data[i]? = chunks[k].data[i - chunks[k].offset]?) ∧
            sha256 data = checksum) ∧
      ∀ chunks : List FileChunk,
        let r := (FileReassembly.new resolvedSize).applyAll chunks
        let accepted := (FileReassembly.new resolvedSize).accepted chunks
        accepted.Pairwise (fun c c' => Disjoint c.positions c'.positions) ∧
          (∀ c ∈ accepted, c.positions ⊆ Set.Iio resolvedSize) ∧
          (∀ c reason, (r.apply c).1 = .error reason → (r.apply c).2 = r) ∧
          (r.isComplete ↔ ∀ i < resolvedSize, ∃ c ∈ accepted, i ∈ c.positions) := by
  have hwritten (chunks : List FileChunk) :=
    (FileReassembly.writtenBy_new resolvedSize).applyAll chunks
  simp only [List.nil_append] at hwritten
  constructor
  · intro events data h
    obtain ⟨chunks, checksum, rest, hevents, haccepted, hcomplete, rfl, hchecksum⟩ :=
      exists_chunks_of_complete h
    have hw := hwritten chunks
    rw [haccepted] at hw
    have hcovers := hw.isComplete_iff.1 hcomplete
    have hsize := FileReassembly.resolvedSize_applyAll (.new resolvedSize) chunks
    rw [hsize] at hcovers
    refine ⟨chunks, checksum, rest, hevents, haccepted, ?_, fun i hi => ?_, hchecksum⟩
    · rw [FileReassembly.length_data, hsize]
      rfl
    · obtain ⟨k, hk, hunique⟩ := Intervals.existsUnique_mem hw.disjoint (hcovers i hi)
      refine ⟨k, ⟨hk, hw.data (List.getElem_mem _) hk⟩, fun k' hk' => hunique k' hk'.1⟩
  · intro chunks r accepted
    have hsize : r.resolvedSize = resolvedSize := FileReassembly.resolvedSize_applyAll _ chunks
    refine ⟨(hwritten chunks).disjoint, fun c hc i hi => ?_, fun c reason h => ?_, ?_⟩
    · exact hi.2.trans_le (hsize ▸ (hwritten chunks).end_le hc)
    · rw [FileReassembly.apply_eq] at h ⊢
      cases happly : r.applyChunk c with
      | error reason => rfl
      | ok r' =>
        rw [happly] at h
        cases h
    · have := (hwritten chunks).isComplete_iff
      rwa [FileReassembly.resolvedSize_applyAll] at this

end Sardp
