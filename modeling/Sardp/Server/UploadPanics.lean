import Sardp.Library.FixedWidth
import Sardp.Server.Tasks

/-!
# Panics of an upload

What the server does for an upload could panic in several places: a buffer may be too large, a sum
may overflow, a range may be out of bounds. `Checked` has the same functions with these panics, as
`none`.

Once there is a buffer, no chunk makes the receiver panic (`Checked.applyChunk_raw`,
`Checked.isComplete_raw`): its ranges end within the buffer. But the buffer is as large as the
client says. So a file is received as if nothing could panic, or there is a panic before the first
chunk (`Checked.receiveFile_eq`), and an upload does not panic exactly if the size can be allocated,
or no file is received (`Checked.upload_ne_none_iff`).
-/

namespace Sardp

/-- The largest size of a buffer. -/
def ISIZE_MAX : ℕ := 2 ^ 63 - 1

namespace Checked

/-- Adding numbers of 64 bits. -/
def add (a b : ℕ) : Option ℕ := Overflow.settleNat 64 .panicking (a + b)

/-- A buffer of zeros. -/
def zeros (n : ℕ) : Option (List UInt8) :=
  if n ≤ ISIZE_MAX then some (List.replicate n 0) else none

/-- Copying to the part of a buffer between two positions. -/
def copyFromSlice (data : List UInt8) (start stop : ℕ) (src : List UInt8) : Option (List UInt8) :=
  if start ≤ stop ∧ stop ≤ data.length ∧ stop - start = src.length then
    some (Intervals.overwrite data start src)
  else none

/-! ## Receiving -/

/-- The chunks received, without what is known of them. -/
structure FileReassembly where
  resolvedSize : ℕ
  receivedRanges : List (ℕ × ℕ)
  data : List UInt8

/-- Whether a range overlaps one of others. -/
def overlapsAny (offset stop : ℕ) : List (ℕ × ℕ) → Option Bool
  | [] => some false
  | (existingOffset, existingLen) :: ranges =>
    match add existingOffset existingLen with
    | none => none
    | some existingEnd =>
      if offset < existingEnd ∧ stop > existingOffset then some true
      else overlapsAny offset stop ranges

/-- How far ranges in order extend what is covered already; `some none` at a gap. -/
def sweep : ℕ → List (ℕ × ℕ) → Option (Option ℕ)
  | covered, [] => some (some covered)
  | covered, (offset, len) :: ranges =>
    if offset > covered then some none
    else
      match add offset len with
      | none => none
      | some stop => sweep (max covered stop) ranges

namespace FileReassembly

def new (resolvedSize : ℕ) : Option FileReassembly :=
  (zeros resolvedSize).map fun data => { resolvedSize, receivedRanges := [], data }

def applyChunk (r : FileReassembly) (chunk : FileChunk) :
    Option (Except ReasonCode FileReassembly) :=
  if chunk.data.length ≠ chunk.length then
    some (.error ReasonCode.PROTOCOL_FILE_CHUNK_OUT_OF_RANGE)
  -- this sum is checked, so it does not panic
  else if chunk.offset + chunk.length ≥ 2 ^ 64 then
    some (.error ReasonCode.PROTOCOL_FILE_CHUNK_OUT_OF_RANGE)
  else if chunk.offset + chunk.length > r.resolvedSize then
    some (.error ReasonCode.PROTOCOL_FILE_CHUNK_OUT_OF_RANGE)
  else
    match overlapsAny chunk.offset (chunk.offset + chunk.length) r.receivedRanges with
    | none => none
    | some true => some (.error ReasonCode.PROTOCOL_FILE_CHUNK_OVERLAP)
    | some false =>
      (copyFromSlice r.data chunk.offset (chunk.offset + chunk.length) chunk.data).map
        fun data => .ok { r with receivedRanges := r.receivedRanges ++ [chunk.range], data }

def isComplete (r : FileReassembly) : Option Bool :=
  (sweep 0 (r.receivedRanges.mergeSort fun a b => a.1 ≤ b.1)).map fun
    | some covered => covered ≥ r.resolvedSize
    | none => false

end FileReassembly

section

variable (sha256 : List UInt8 → List UInt8) (fileHandle : ℕ)

/-- Going through the messages of a file; `some none` when they do not last. -/
def receiveMessages : FileReassembly → List FileEvent →
    Option (Option (Except FileTransferSessionError ReceiveOutcome))
  | _, [] => some none
  | _, .stalled :: _ =>
    some (some (.ok (.error ⟨fileHandle, ReasonCode.TRANSPORT_STREAM_STALL_TIMEOUT⟩)))
  | _, .readFailed e :: _ => some (some (.error (.read e)))
  | _, .chunk none :: _ => some (some (.error .decode))
  | reassembly, .chunk (some chunk) :: events =>
    match reassembly.applyChunk chunk with
    | none => none
    | some (.error reason) => some (some (.ok (.error ⟨fileHandle, reason⟩)))
    | some (.ok reassembly) => receiveMessages reassembly events
  | _, .complete none :: _ => some (some (.error .decode))
  | reassembly, .complete (some complete) :: _ =>
    reassembly.isComplete.map fun isComplete =>
      if !isComplete then
        some (.ok (.error ⟨fileHandle, ReasonCode.PROTOCOL_FILE_INCOMPLETE_TRANSFER⟩))
      else if sha256 reassembly.data ≠ complete.checksum then
        some (.ok (.error ⟨fileHandle, ReasonCode.PROTOCOL_FILE_CHECKSUM_MISMATCH⟩))
      else some (.ok (.complete reassembly.data))
  | _, .unexpected typeRaw :: _ => some (some (.error (.unexpectedType typeRaw)))

/-- Receiving a file of a size. -/
def receiveFile (resolvedSize : ℕ) (events : List FileEvent) :
    Option (Option (Except FileTransferSessionError ReceiveOutcome)) :=
  (FileReassembly.new resolvedSize).bind fun reassembly =>
    receiveMessages sha256 fileHandle reassembly events

end

/-! ## Uploads -/

/-- Issuing a handle. Its deadline is computed in any case. -/
def tryIssue (store : FileHandleStore) (sessionId : SessionId) (userId : String)
    (direction : FileTransferDirection) (resolvedSize nowUs candidate : ℕ) :
    Option (Option (ℕ × ℕ) × FileHandleStore) :=
  (add nowUs FILE_HANDLE_TTL_US).map fun _ =>
    store.tryIssue sessionId userId direction resolvedSize nowUs candidate

/-- The task of an upload, from what waiting for a stream of the client comes to (`none` if the time
    is up) and the messages of the stream; `some none` when they do not last. -/
def runFileTransfer (sha256 : List UInt8 → List UInt8) (ctx : TaskContext)
    (request : FileTransferRequest) (accepted : Except (Option Quinn.ConnectionError) ClientStream)
    (events : List FileEvent) :
    Option (Option (Except FileTransferSessionError FileTransferOutcome)) :=
  match accepted with
  | .error none => some (some (.error .acceptTimeout))
  | .error (some e) => some (some (.error (.quic e)))
  | .ok stream =>
    match ctx.acceptFileStreamVerified .upload stream with
    | .error e => some (some (.error e))
    | .ok verifiedHandle =>
      (receiveFile sha256 verifiedHandle request.declaredSize events).map fun outcome =>
        outcome.map (Except.map ReceiveOutcome.toFileTransferOutcome)

/-- What the server does for an upload: issuing a handle, in one context, and the task, in the one
    that the others have made of it. -/
def upload (sha256 : List UInt8 → List UInt8) (requested : TaskContext)
    (request : FileTransferRequest) (candidate : ℕ) (ctx : TaskContext)
    (accepted : Except (Option Quinn.ConnectionError) ClientStream) (events : List FileEvent) :
    Option (Option (Except FileTransferSessionError FileTransferOutcome)) :=
  (tryIssue requested.handles requested.sessionId requested.userId .upload
    request.declaredSize requested.nowUs candidate).bind fun (issued, _) =>
      match issued with
      -- there are too many handles, and the request is rejected
      | none => some none
      | some _ => runFileTransfer sha256 ctx request accepted events

/-! ## No chunk panics -/

variable {a b offset stop covered : ℕ} {ranges : List (ℕ × ℕ)} {chunk : FileChunk}
  {r : Sardp.FileReassembly}

theorem add_eq (h : a + b < 2 ^ 64) : add a b = some (a + b) := if_pos h

theorem add_eq_none_iff : add a b = none ↔ 2 ^ 64 ≤ a + b := by
  rw [add, Overflow.settleNat]
  split_ifs with h
  · exact iff_of_false nofun h.not_ge
  · exact iff_of_true rfl (not_lt.1 h)

theorem overlapsAny_eq (hranges : ∀ range ∈ ranges, range.1 + range.2 < 2 ^ 64) :
    overlapsAny offset (offset + a) ranges =
      some (decide (∃ existing ∈ ranges, Overlaps (offset, a) existing)) := by
  induction ranges with
  | nil => simp [overlapsAny]
  | cons range ranges ih =>
    obtain ⟨hrange, hranges⟩ := List.forall_mem_cons.1 hranges
    rw [overlapsAny, add_eq hrange, ih hranges]
    simp only [List.exists_mem_cons_iff]
    by_cases h : Overlaps (offset, a) range
    · rw [decide_eq_true (Or.inl h)]
      exact if_pos h
    · simp only [h, false_or]
      exact if_neg h

theorem sweep_eq (hranges : ∀ range ∈ ranges, range.1 + range.2 < 2 ^ 64) :
    sweep covered ranges = some (Intervals.sweep covered ranges) := by
  induction ranges generalizing covered with
  | nil => rfl
  | cons range ranges ih =>
    obtain ⟨hrange, hranges⟩ := List.forall_mem_cons.1 hranges
    rw [sweep, Intervals.sweep]
    split_ifs
    · rfl
    · rw [add_eq hrange]
      exact ih hranges

/-- The chunks received, without what is known of them. -/
def raw (r : Sardp.FileReassembly) : FileReassembly := ⟨r.resolvedSize, r.receivedRanges, r.data⟩

/-- Within a buffer, no sum overflows. -/
theorem lt_of_mem_receivedRanges (h : r.resolvedSize ≤ ISIZE_MAX) {range : ℕ × ℕ}
    (hrange : range ∈ r.receivedRanges) : range.1 + range.2 < 2 ^ 64 :=
  (r.end_le hrange).trans_lt (h.trans_lt (by decide))

theorem copyFromSlice_eq {data src : List UInt8} (hstop : offset + a ≤ data.length)
    (hlength : src.length = a) :
    copyFromSlice data offset (offset + a) src = some (Intervals.overwrite data offset src) :=
  if_pos ⟨Nat.le_add_right offset a, hstop, by omega⟩

/-- Adding a chunk to what has been received does not panic. -/
theorem applyChunk_raw (h : r.resolvedSize ≤ ISIZE_MAX) (chunk : FileChunk) :
    (raw r).applyChunk chunk = some ((r.applyChunk chunk).map raw) := by
  have hlt : ∀ range ∈ r.receivedRanges, range.1 + range.2 < 2 ^ 64 := fun _ hrange =>
    lt_of_mem_receivedRanges h hrange
  rw [FileReassembly.applyChunk, Sardp.FileReassembly.applyChunk]
  by_cases hlength : chunk.data.length = chunk.length
  · rw [if_neg (not_not.2 hlength), dif_pos hlength]
    by_cases hend : chunk.offset + chunk.length ≤ r.resolvedSize
    · have hfits : chunk.offset + chunk.length < 2 ^ 64 := hend.trans_lt (h.trans_lt (by decide))
      have hcopy := copyFromSlice_eq (hend.trans r.length_data.ge) hlength
      have hsize : ¬chunk.offset + chunk.length > (raw r).resolvedSize := Nat.not_lt.2 hend
      rw [if_neg hfits.not_ge, if_neg hsize, dif_pos hend]
      have hany : overlapsAny chunk.offset (chunk.offset + chunk.length) r.receivedRanges =
          some (decide (∃ existing ∈ r.receivedRanges, Overlaps chunk.range existing)) :=
        overlapsAny_eq hlt
      simp only [raw, hany]
      by_cases hoverlaps : ∃ existing ∈ r.receivedRanges, Overlaps chunk.range existing
      · rw [if_pos hoverlaps, decide_eq_true hoverlaps]
        rfl
      · rw [if_neg hoverlaps, decide_eq_false hoverlaps]
        simp only [hcopy]
        rfl
    · rw [dif_neg hend]
      split_ifs with hfits hsize
      · rfl
      · rfl
      · exact absurd (Nat.not_lt.1 hsize) hend
  · rw [if_pos hlength, dif_neg hlength]
    rfl

/-- Nor does checking that it is complete. -/
theorem isComplete_raw (h : r.resolvedSize ≤ ISIZE_MAX) :
    (raw r).isComplete = some r.isComplete := by
  have hperm := List.mergeSort_perm r.receivedRanges fun a b => a.1 ≤ b.1
  have hlt : ∀ range ∈ r.receivedRanges.mergeSort fun a b => a.1 ≤ b.1,
      range.1 + range.2 < 2 ^ 64 := fun range hrange =>
    lt_of_mem_receivedRanges h (hperm.mem_iff.1 hrange)
  rw [FileReassembly.isComplete, Sardp.FileReassembly.isComplete]
  simp only [raw, sweep_eq hlt, Option.map_some]
  generalize Intervals.sweep 0 (r.receivedRanges.mergeSort fun a b => a.1 ≤ b.1) = covered
  cases covered <;> rfl

variable {sha256 : List UInt8 → List UInt8} {fileHandle : ℕ}

/-- Whatever the messages are, receiving them does not panic. -/
theorem receiveMessages_raw (h : r.resolvedSize ≤ ISIZE_MAX) (events : List FileEvent) :
    receiveMessages sha256 fileHandle (raw r) events =
      some (Sardp.receiveMessages sha256 fileHandle r events) := by
  fun_induction Sardp.receiveMessages sha256 fileHandle r events with
  | case5 r chunk events reason happly =>
    rw [receiveMessages, applyChunk_raw h, happly]
    rfl
  | case6 r chunk events r' happly ih =>
    rw [receiveMessages, applyChunk_raw h, happly]
    exact ih ((Sardp.FileReassembly.resolvedSize_applyChunk happly).trans_le h)
  | case8 r complete events hcomplete =>
    rw [receiveMessages, isComplete_raw h, Option.map_some, if_pos hcomplete]
  | case9 r complete events hcomplete hchecksum =>
    rw [receiveMessages, isComplete_raw h, Option.map_some, if_neg hcomplete]
    exact congrArg some (if_pos hchecksum)
  | case10 r complete events hcomplete hchecksum =>
    rw [receiveMessages, isComplete_raw h, Option.map_some, if_neg hcomplete]
    exact congrArg some (if_neg hchecksum)
  | _ => rfl

/-- A file is received as if there were no panics, or its buffer is too large. -/
theorem receiveFile_eq (resolvedSize : ℕ) (events : List FileEvent) :
    receiveFile sha256 fileHandle resolvedSize events =
      if resolvedSize ≤ ISIZE_MAX then
        some (Sardp.receiveFile sha256 fileHandle resolvedSize events)
      else none := by
  rw [receiveFile, FileReassembly.new, zeros]
  split_ifs with h
  · exact receiveMessages_raw (r := .new resolvedSize) h events
  · rfl

/-! ## Uploads and panics -/

variable {ctx requested : TaskContext} {request : FileTransferRequest} {candidate : ℕ}
  {accepted : Except (Option Quinn.ConnectionError) ClientStream} {events : List FileEvent}

/-- A file is received: the stream is one of the client for a handle of an upload. -/
def Receives (ctx : TaskContext)
    (accepted : Except (Option Quinn.ConnectionError) ClientStream) : Prop :=
  ∃ stream fileHandle, accepted = .ok stream ∧
    ctx.acceptFileStreamVerified .upload stream = .ok fileHandle

/-- The task panics exactly if a file is received that is too large. -/
theorem runFileTransfer_eq_none_iff :
    runFileTransfer sha256 ctx request accepted events = none ↔
      Receives ctx accepted ∧ ISIZE_MAX < request.declaredSize := by
  unfold runFileTransfer
  rcases accepted with (_ | e) | stream
  · exact iff_of_false nofun fun ⟨⟨_, _, h, _⟩, _⟩ => nomatch h
  · exact iff_of_false nofun fun ⟨⟨_, _, h, _⟩, _⟩ => nomatch h
  cases hverified : ctx.acceptFileStreamVerified .upload stream with
  | error e =>
    simp only [hverified]
    refine iff_of_false nofun ?_
    rintro ⟨⟨_, _, h, hok⟩, _⟩
    cases h
    cases hverified.symm.trans hok
  | ok verifiedHandle =>
    simp only [hverified]
    have hreceives : Receives ctx (.ok stream) := ⟨stream, verifiedHandle, rfl, hverified⟩
    rw [Option.map_eq_none_iff, receiveFile_eq, and_iff_right hreceives]
    split_ifs with hsize
    · exact iff_of_false nofun (Nat.not_lt.2 hsize)
    · exact iff_of_true rfl (Nat.not_le.1 hsize)

/-- Without a panic, the task takes the steps that the tasks of a session take. -/
theorem steps_of_runFileTransfer {stream : ClientStream}
    {result : Except FileTransferSessionError FileTransferOutcome}
    (h : runFileTransfer sha256 ctx request (.ok stream) events = some (some result))
    (hdirection : request.direction = .upload) (fileHandle : ℕ) :
    Sardp.runFileTransfer sha256 ctx request fileHandle (.readingPrologue stream) .prologue =
        some (.ended result, ctx) ∨
      ∃ verifiedHandle,
        Sardp.runFileTransfer sha256 ctx request fileHandle (.readingPrologue stream) .prologue =
          some (.receiving verifiedHandle request.declaredSize, ctx) ∧
        (Sardp.runFileTransfer sha256 ctx request fileHandle
          (.receiving verifiedHandle request.declaredSize) (.received events)).map Prod.fst =
            some (.ended result) := by
  simp only [runFileTransfer, Sardp.runFileTransfer, hdirection] at h ⊢
  cases hverified : ctx.acceptFileStreamVerified .upload stream with
  | error e =>
    rw [hverified] at h
    cases h
    exact .inl rfl
  | ok verifiedHandle =>
    rw [hverified] at h
    dsimp only at h
    rw [receiveFile_eq] at h
    split_ifs at h
    · rw [Option.map_some, Option.some.injEq, Option.map_eq_some_iff] at h
      obtain ⟨outcome, hreceive, rfl⟩ := h
      refine .inr ⟨verifiedHandle, rfl, ?_⟩
      rw [hreceive]
      rfl
    · cases h

/-- Issuing a handle panics if the deadline cannot be computed. -/
theorem tryIssue_eq_none_iff {store : FileHandleStore} {sessionId : SessionId} {userId : String}
    {direction : FileTransferDirection} {resolvedSize nowUs : ℕ} :
    tryIssue store sessionId userId direction resolvedSize nowUs candidate = none ↔
      2 ^ 64 ≤ nowUs + FILE_HANDLE_TTL_US := by
  rw [tryIssue, Option.map_eq_none_iff, add_eq_none_iff]

theorem exists_of_tryIssue_eq_some {store : FileHandleStore} {sessionId : SessionId}
    {userId : String} {direction : FileTransferDirection} {resolvedSize nowUs : ℕ}
    {issued : Option (ℕ × ℕ)} {store' : FileHandleStore}
    (h : tryIssue store sessionId userId direction resolvedSize nowUs candidate =
      some (issued, store')) :
    issued.isSome ↔ store.handles.keys.length < MAX_CONCURRENT_FILE_TRANSFERS := by
  rw [tryIssue] at h
  obtain ⟨_, _, h⟩ := Option.map_eq_some_iff.1 h
  rw [FileHandleStore.tryIssue] at h
  split_ifs at h with hfull
  · cases h
    exact iff_of_false Bool.false_ne_true (Nat.not_lt.2 hfull)
  · cases h
    exact iff_of_true rfl (Nat.not_le.1 hfull)

theorem upload_eq_none_iff :
    upload sha256 requested request candidate ctx accepted events = none ↔
      2 ^ 64 ≤ requested.nowUs + FILE_HANDLE_TTL_US ∨
        requested.handles.handles.keys.length < MAX_CONCURRENT_FILE_TRANSFERS ∧
          Receives ctx accepted ∧ ISIZE_MAX < request.declaredSize := by
  unfold upload
  cases hissue : tryIssue requested.handles requested.sessionId requested.userId .upload
    request.declaredSize requested.nowUs candidate with
  | none => exact iff_of_true rfl (.inl (tryIssue_eq_none_iff.1 hissue))
  | some r =>
    obtain ⟨issued, store⟩ := r
    have hdeadline : ¬2 ^ 64 ≤ requested.nowUs + FILE_HANDLE_TTL_US :=
      tryIssue_eq_none_iff.not.1 (ne_of_eq_of_ne hissue (Option.some_ne_none (issued, store)))
    have hcount := exists_of_tryIssue_eq_some hissue
    rw [or_iff_right hdeadline, ← hcount]
    cases issued with
    | none => exact iff_of_false nofun fun h => nomatch h.1
    | some fileHandle =>
      rw [Option.isSome_some, and_iff_right rfl]
      exact runFileTransfer_eq_none_iff

/-- An upload goes through without a panic exactly if its deadline can be computed, and no file is
    received that is too large. -/
theorem upload_ne_none_iff (sha256 : List UInt8 → List UInt8) (requested : TaskContext)
    (request : FileTransferRequest) (candidate : ℕ) (ctx : TaskContext)
    (accepted : Except (Option Quinn.ConnectionError) ClientStream) (events : List FileEvent) :
    upload sha256 requested request candidate ctx accepted events ≠ none ↔
      requested.nowUs + FILE_HANDLE_TTL_US < 2 ^ 64 ∧
        (requested.handles.handles.keys.length < MAX_CONCURRENT_FILE_TRANSFERS →
          Receives ctx accepted → request.declaredSize ≤ ISIZE_MAX) := by
  rw [Ne, upload_eq_none_iff, not_or, not_le]
  simp only [not_and, not_lt]

/-- The client says that its file has 2^63 bytes, and opens the stream for it. -/
theorem upload_panics :
    let requested : TaskContext := ⟨Vector.replicate 16 0, "user", 0, .new, []⟩
    let handles := (requested.handles.tryIssue requested.sessionId requested.userId .upload
      (2 ^ 63) requested.nowUs 5).2
    upload id requested ⟨1, .upload, "file", 2 ^ 63⟩ 5 { requested with handles }
      (.ok ⟨.ok ⟨.file, 1, 5⟩⟩) [] = none := by
  intro requested handles
  refine upload_eq_none_iff.2 (.inr ⟨by decide, ⟨⟨.ok ⟨.file, 1, 5⟩⟩, 5, rfl, ?_⟩, by decide⟩)
  rfl

end Checked

end Sardp
