import Mathlib.Data.List.Sort
import Sardp.File.HandleStore
import Sardp.Library.Fallible
import Sardp.Library.Intervals
import Sardp.Wire.StreamReader

/-!
# Receiving a file

The receiver of a file puts its chunks together in whatever order they arrive, as long as
they stay within the size and do not overlap, and ends with a checksum of the whole
(`file_transfer_session.rs`).

The size the receiver goes by decides the fate of a transfer: the chunks of a file of that
size are accepted in any order (`receiveFile_of_pieces`), and a chunk that exceeds it is
never part of an accepted file (`receiveFile_of_exceeds`).
-/

namespace Sardp

/-- Why a transfer failed without a report to the peer. -/
inductive FileTransferSessionError
  | quic (e : Quinn.ConnectionError)
  | write (e : Quinn.WriteError)
  | read (e : StreamReadError)
  | decode
  | wrongStreamKind
  | unexpectedType (typeRaw : UInt16)
  | ownershipRejected (e : FileHandleError)
  | acceptTimeout

/-! ## Reassembly -/

/-- The chunks received of a file of a known size. -/
structure FileReassembly where
  resolvedSize : ℕ
  /-- The offsets and lengths received, in order of arrival. -/
  receivedRanges : List (ℕ × ℕ)
  data : List UInt8
  length_data : data.length = resolvedSize
  end_le {r : ℕ × ℕ} : r ∈ receivedRanges → r.1 + r.2 ≤ resolvedSize

/-- Two ranges overlap. -/
def Overlaps (r r' : ℕ × ℕ) : Prop := r.1 < r'.1 + r'.2 ∧ r.1 + r.2 > r'.1

instance (r r' : ℕ × ℕ) : Decidable (Overlaps r r') := by
  unfold Overlaps
  infer_instance

/-- The range of a chunk. -/
def FileChunk.range (chunk : FileChunk) : ℕ × ℕ := (chunk.offset, chunk.length)

namespace FileReassembly

/-- Nothing received yet. -/
def new (resolvedSize : ℕ) : FileReassembly where
  resolvedSize
  receivedRanges := []
  data := List.replicate resolvedSize 0
  length_data := List.length_replicate
  end_le h := absurd h List.not_mem_nil

/-- Adding a chunk. An end beyond 64 bits is refused as one beyond the size is. -/
def applyChunk (r : FileReassembly) (chunk : FileChunk) : Except ReasonCode FileReassembly :=
  if hlength : chunk.data.length = chunk.length then
    if hend : chunk.offset + chunk.length ≤ r.resolvedSize then
      if ∃ existing ∈ r.receivedRanges, Overlaps chunk.range existing then
        .error ReasonCode.PROTOCOL_FILE_CHUNK_OVERLAP
      else .ok
        { resolvedSize := r.resolvedSize
          receivedRanges := r.receivedRanges ++ [chunk.range]
          data := Intervals.overwrite r.data chunk.offset chunk.data
          length_data := by
            rw [Intervals.length_overwrite, r.length_data]
            rwa [hlength, r.length_data]
          end_le := fun h => by
            rcases List.mem_append.1 h with h | h
            · exact r.end_le h
            · rw [List.mem_singleton.1 h]
              exact hend }
    else .error ReasonCode.PROTOCOL_FILE_CHUNK_OUT_OF_RANGE
  else .error ReasonCode.PROTOCOL_FILE_CHUNK_OUT_OF_RANGE

/-- Adding chunks one after the other, up to the first that is refused. -/
def applyChunks (r : FileReassembly) (chunks : List FileChunk) :
    Except ReasonCode FileReassembly :=
  chunks.foldlM applyChunk r

/-- The ranges received cover the whole file. -/
def isComplete (r : FileReassembly) : Bool :=
  match Intervals.sweep 0 (r.receivedRanges.mergeSort fun a b => a.1 ≤ b.1) with
  | some covered => covered ≥ r.resolvedSize
  | none => false

variable {r r' : FileReassembly} {chunk : FileChunk}

/-- A chunk that has the length it says, ends within the file and overlaps nothing is
    added. -/
theorem exists_applyChunk (hlength : chunk.data.length = chunk.length)
    (hend : chunk.offset + chunk.length ≤ r.resolvedSize)
    (hno : ∀ existing ∈ r.receivedRanges, ¬Overlaps chunk.range existing) :
    ∃ r', r.applyChunk chunk = .ok r' ∧ r'.resolvedSize = r.resolvedSize ∧
      r'.receivedRanges = r.receivedRanges ++ [chunk.range] ∧
      r'.data = Intervals.overwrite r.data chunk.offset chunk.data := by
  rw [applyChunk, dif_pos hlength, dif_pos hend, if_neg]
  · exact ⟨_, rfl, rfl, rfl, rfl⟩
  · rintro ⟨existing, hmem, hoverlaps⟩
    exact hno existing hmem hoverlaps

theorem resolvedSize_applyChunk (h : r.applyChunk chunk = .ok r') :
    r'.resolvedSize = r.resolvedSize := by
  rw [applyChunk] at h
  split_ifs at h
  cases h
  rfl

theorem receivedRanges_applyChunk (h : r.applyChunk chunk = .ok r') :
    r'.receivedRanges = r.receivedRanges ++ [chunk.range] := by
  rw [applyChunk] at h
  split_ifs at h
  cases h
  rfl

/-- A chunk that overlaps what has been received is refused. -/
theorem applyChunk_of_overlaps {existing : ℕ × ℕ} (hmem : existing ∈ r.receivedRanges)
    (h : Overlaps chunk.range existing) : ∃ reason, r.applyChunk chunk = .error reason := by
  rw [applyChunk]
  split_ifs with hlength hend hno
  · exact ⟨_, rfl⟩
  · exact absurd ⟨existing, hmem, h⟩ hno
  · exact ⟨_, rfl⟩
  · exact ⟨_, rfl⟩

/-- A chunk that ends beyond the file is refused. -/
theorem applyChunk_of_exceeds (h : r.resolvedSize < chunk.offset + chunk.length) :
    r.applyChunk chunk = .error ReasonCode.PROTOCOL_FILE_CHUNK_OUT_OF_RANGE := by
  rw [applyChunk]
  split_ifs with hlength hend
  · omega
  · omega
  · rfl
  · rfl

/-- The whole file is covered exactly if every position is. -/
theorem isComplete_iff :
    r.isComplete ↔ ∀ i < r.resolvedSize, Intervals.Covers r.receivedRanges i := by
  have hperm := List.mergeSort_perm r.receivedRanges fun a b => a.1 ≤ b.1
  have hsorted : (r.receivedRanges.mergeSort fun a b => a.1 ≤ b.1).Pairwise (·.1 ≤ ·.1) :=
    (List.pairwise_mergeSort (fun a b c hab hbc => by simp only [decide_eq_true_eq] at *; omega)
      (fun a b => by simp only [Bool.or_eq_true, decide_eq_true_eq]; omega) _).imp
      of_decide_eq_true
  -- sorting does not change what is covered, so the sweep may go through the sorted ranges
  have hcovers {i : ℕ} : Intervals.Covers (r.receivedRanges.mergeSort fun a b => a.1 ≤ b.1) i ↔
      Intervals.Covers r.receivedRanges i :=
    exists_congr fun a => and_congr_left fun _ => hperm.mem_iff
  rw [isComplete]
  constructor
  · intro h i hi
    split at h
    · next covered hsweep =>
      exact hcovers.1 (Intervals.sweep_covers hsweep (Nat.zero_le i)
        (hi.trans_le (of_decide_eq_true h)))
    · cases h
  · intro h
    obtain ⟨covered, hle, hsweep⟩ := Intervals.exists_sweep hsorted
      (fun a ha => (Nat.le_add_right ..).trans (r.end_le (hperm.mem_iff.1 ha)))
      fun i _ hi => hcovers.2 (h i hi)
    rw [hsweep]
    exact decide_eq_true hle

end FileReassembly

/-! ## Receiving -/

/-- What a wait for the next message of a file leads to; the messages as far as they
    decode. -/
inductive FileEvent
  | stalled
  | readFailed (e : StreamReadError)
  | chunk (decoded : Option FileChunk)
  | complete (decoded : Option FileTransferComplete)
  | unexpected (typeRaw : UInt16)

/-- What receiving a file comes to: the file, or an error to report to the peer. -/
inductive ReceiveOutcome
  | complete (data : List UInt8)
  | error (e : FileTransferError)

section

variable (sha256 : List UInt8 → List UInt8) (fileHandle : ℕ)

/-- Going through the messages of a file until one decides the outcome; `none` when they do
    not last. -/
def receiveMessages : FileReassembly → List FileEvent →
    Option (Except FileTransferSessionError ReceiveOutcome)
  | _, [] => none
  | _, .stalled :: _ =>
    some (.ok (.error ⟨fileHandle, ReasonCode.TRANSPORT_STREAM_STALL_TIMEOUT⟩))
  | _, .readFailed e :: _ => some (.error (.read e))
  | _, .chunk none :: _ => some (.error .decode)
  | reassembly, .chunk (some chunk) :: events =>
    match reassembly.applyChunk chunk with
    | .error reason => some (.ok (.error ⟨fileHandle, reason⟩))
    | .ok reassembly => receiveMessages reassembly events
  | _, .complete none :: _ => some (.error .decode)
  | reassembly, .complete (some complete) :: _ =>
    if !reassembly.isComplete then
      some (.ok (.error ⟨fileHandle, ReasonCode.PROTOCOL_FILE_INCOMPLETE_TRANSFER⟩))
    else if sha256 reassembly.data ≠ complete.checksum then
      some (.ok (.error ⟨fileHandle, ReasonCode.PROTOCOL_FILE_CHECKSUM_MISMATCH⟩))
    else some (.ok (.complete reassembly.data))
  | _, .unexpected typeRaw :: _ => some (.error (.unexpectedType typeRaw))

/-- Receiving a file of a size. -/
def receiveFile (resolvedSize : ℕ) (events : List FileEvent) :
    Option (Except FileTransferSessionError ReceiveOutcome) :=
  receiveMessages sha256 fileHandle (.new resolvedSize) events

end

/-- The chunks are pieces of the file: slices of it that do not overlap and cover it. -/
structure Pieces (file : List UInt8) (chunks : List FileChunk) : Prop where
  slice {c : FileChunk} : c ∈ chunks →
    c.offset + c.length ≤ file.length ∧ c.data = Intervals.slice file c.range
  disjoint : chunks.Pairwise fun c c' => ¬Overlaps c'.range c.range
  covers {i : ℕ} : i < file.length → Intervals.Covers (chunks.map FileChunk.range) i

/-- The whole file is a piece of it. -/
theorem pieces_whole (file : List UInt8) : Pieces file [⟨0, file.length, file⟩] where
  slice {c} hc := by
    obtain rfl := List.mem_singleton.1 hc
    simp [Intervals.slice, FileChunk.range]
  disjoint := List.pairwise_singleton ..
  covers {i} hi := by
    simp [Intervals.Covers, FileChunk.range, hi]

variable {sha256 : List UInt8 → List UInt8} {fileHandle : ℕ} {r : FileReassembly}
  {file : List UInt8} {chunks : List FileChunk}

/-- Chunks of a file of the size are accepted after others of it, and what is received agrees
    with the file. -/
theorem FileReassembly.exists_applyChunks_of_slices (hsize : r.resolvedSize = file.length)
    (hslice : ∀ c ∈ chunks, c.offset + c.length ≤ file.length ∧
      c.data = Intervals.slice file c.range)
    (hdisjoint : chunks.Pairwise fun c c' => ¬Overlaps c'.range c.range)
    (hreceived : ∀ c ∈ chunks, ∀ existing ∈ r.receivedRanges, ¬Overlaps c.range existing)
    (hagree : ∀ i, Intervals.Covers r.receivedRanges i → r.data[i]? = file[i]?) :
    ∃ r', r.applyChunks chunks = .ok r' ∧ r'.resolvedSize = file.length ∧
      r'.receivedRanges = r.receivedRanges ++ chunks.map FileChunk.range ∧
      ∀ i, Intervals.Covers r'.receivedRanges i → r'.data[i]? = file[i]? := by
  induction chunks generalizing r with
  | nil => exact ⟨r, rfl, hsize, by simp, hagree⟩
  | cons c chunks ih =>
    obtain ⟨hc, hdisjoint⟩ := List.pairwise_cons.1 hdisjoint
    obtain ⟨hend, hdata⟩ := hslice c List.mem_cons_self
    have hlen : c.data.length = c.length := hdata ▸ Intervals.length_slice hend
    obtain ⟨r', hr', hsize', hranges, hdata'⟩ := FileReassembly.exists_applyChunk hlen
      (hsize.symm ▸ hend) (hreceived c List.mem_cons_self)
    -- the other chunks overlap neither what was received before nor this one
    obtain ⟨r'', happly, hsize'', hranges', hagree'⟩ := ih (hsize'.trans hsize)
      (fun c' hc' => hslice c' (List.mem_cons_of_mem _ hc')) hdisjoint
      (fun c' hc' existing hmem => by
        rw [hranges] at hmem
        rcases List.mem_append.1 hmem with hmem | hmem
        · exact hreceived c' (List.mem_cons_of_mem _ hc') existing hmem
        · rw [List.mem_singleton.1 hmem]
          exact hc c' hc')
      (fun i hi => by
        rw [hranges] at hi
        rw [hdata', hdata]
        exact Intervals.agree_overwrite (r.length_data.trans hsize) hend hagree i hi)
    refine ⟨r'', ?_, hsize'', ?_, hagree'⟩
    · rw [applyChunks, List.foldlM_cons, hr']
      exact happly
    · rw [hranges', hranges, List.append_assoc]
      rfl

/-- Going through chunks that are accepted. -/
theorem receiveMessages_applyChunks {r' : FileReassembly} (events : List FileEvent)
    (h : r.applyChunks chunks = .ok r') :
    receiveMessages sha256 fileHandle r (chunks.map (fun c => .chunk (some c)) ++ events) =
      receiveMessages sha256 fileHandle r' events := by
  induction chunks generalizing r with
  | nil =>
    cases h
    rfl
  | cons c chunks ih =>
    rw [FileReassembly.applyChunks, List.foldlM_cons] at h
    obtain ⟨r₁, hr₁, h⟩ := Except.bind_eq_ok.1 h
    rw [List.map_cons, List.cons_append, receiveMessages, hr₁]
    exact ih h

/-- Pieces of a file are accepted in their order, and what is received of them agrees with the
    file. -/
theorem Pieces.exists_applyChunks (h : Pieces file chunks) {done : List FileChunk}
    (hdone : done <+: chunks) :
    ∃ r, (FileReassembly.new file.length).applyChunks done = .ok r ∧
      r.resolvedSize = file.length ∧ r.receivedRanges = done.map FileChunk.range ∧
      ∀ i, Intervals.Covers r.receivedRanges i → r.data[i]? = file[i]? :=
  FileReassembly.exists_applyChunks_of_slices rfl (fun _ hc => h.slice (hdone.subset hc))
    (h.disjoint.sublist hdone.sublist) (fun _ _ _ hmem => absurd hmem List.not_mem_nil)
    fun _ ⟨_, hmem, _⟩ => absurd hmem List.not_mem_nil

/-- Pieces of a file are accepted, and make it up. -/
theorem Pieces.exists_applyChunks_self (h : Pieces file chunks) :
    ∃ r, (FileReassembly.new file.length).applyChunks chunks = .ok r ∧ r.isComplete ∧
      r.data = file := by
  obtain ⟨r, happly, hsize, hranges, hagree⟩ := h.exists_applyChunks (List.prefix_refl chunks)
  -- what has been received covers the file and agrees with it, so it is the file
  have hcovers : ∀ i < file.length, Intervals.Covers r.receivedRanges i := by
    rw [hranges]
    exact fun i hi => h.covers hi
  exact ⟨r, happly, FileReassembly.isComplete_iff.2 (hsize ▸ hcovers),
    Intervals.eq_of_agree (r.length_data.trans hsize) hcovers hagree⟩

/-- The chunks of a file of the size are received in whatever order they arrive, and make up
    the file. -/
theorem receiveFile_of_pieces (h : Pieces file chunks) :
    receiveFile sha256 fileHandle file.length
      (chunks.map (fun c => .chunk (some c)) ++ [.complete (some ⟨sha256 file⟩)]) =
        some (.ok (.complete file)) := by
  obtain ⟨r, happly, hcomplete, hdata⟩ := h.exists_applyChunks_self
  rw [receiveFile, receiveMessages_applyChunks _ happly]
  simp [receiveMessages, hcomplete, hdata]

/-- Chunks one of which ends beyond the size are refused, at that one or before. -/
theorem receiveMessages_of_exceeds (events : List FileEvent)
    (h : ∃ c ∈ chunks, r.resolvedSize < c.offset + c.length) :
    ∃ e, receiveMessages sha256 fileHandle r
      (chunks.map (fun c => .chunk (some c)) ++ events) = some (.ok (.error e)) := by
  induction chunks generalizing r with
  | nil =>
    obtain ⟨c, hc, -⟩ := h
    exact absurd hc List.not_mem_nil
  | cons c chunks ih =>
    rw [List.map_cons, List.cons_append, receiveMessages]
    cases hr' : r.applyChunk c with
    | error reason => exact ⟨_, rfl⟩
    | ok r' =>
      refine ih ?_
      obtain ⟨c', hc', hexceeds⟩ := h
      rcases List.mem_cons.1 hc' with rfl | hc'
      · rw [FileReassembly.applyChunk_of_exceeds hexceeds] at hr'
        cases hr'
      · exact ⟨c', hc', FileReassembly.resolvedSize_applyChunk hr' ▸ hexceeds⟩

/-- Chunks one of which ends beyond the size are never part of an accepted file. -/
theorem receiveFile_of_exceeds {resolvedSize : ℕ} (events : List FileEvent)
    (h : ∃ c ∈ chunks, resolvedSize < c.offset + c.length) :
    ∃ e, receiveFile sha256 fileHandle resolvedSize
      (chunks.map (fun c => .chunk (some c)) ++ events) = some (.ok (.error e)) :=
  receiveMessages_of_exceeds events h

end Sardp
