import Sardp.File.Reassembly

/-!
# Sending a file

The sender of a file cuts it into chunks of a size and ends with a checksum of the whole
(`file_transfer_session.rs`). What it writes, the receiver makes the file of, however the
stream is cut on its way (`receives_sent_iff`): unless the size of the chunks is `0` and the
file is longer than a byte, when every chunk is cut as if the size were `1`, but sent with the
offset `0`.
-/

namespace Sardp

/-- The encoding of the bodies of the messages of a file, by a library outside the
    repository. -/
structure FileCodec where
  encodeChunk : FileChunk → List UInt8
  decodeChunk : List UInt8 → Option FileChunk
  encodeComplete : FileTransferComplete → List UInt8
  decodeComplete : List UInt8 → Option FileTransferComplete

/-- Consecutive slices of a length, the last one as long as what is left. -/
def chunks (n : ℕ) (data : List UInt8) : List (List UInt8) :=
  (List.range ((data.length + n - 1) / n)).map fun i => Intervals.slice data (i * n, n)

/-- The chunks a file is sent in. The slices are of a length of at least `1`, the offsets go
    by the length that was asked for. -/
def fileChunks (data : List UInt8) (chunkSize : ℕ) : List FileChunk :=
  (chunks (max chunkSize 1) data).zipIdx.map fun (chunkBytes, index) =>
    ⟨index * chunkSize, chunkBytes.length % 2 ^ 32, chunkBytes⟩

/-- The envelopes a file is sent in. -/
def sendFileData (codec : FileCodec) (sha256 : List UInt8 → List UInt8) (data : List UInt8)
    (chunkSize : ℕ) : List (UInt16 × List UInt8) :=
  (fileChunks data chunkSize).map (fun chunk => (TypeId.FILE_CHUNK, codec.encodeChunk chunk)) ++
    [(TypeId.FILE_TRANSFER_COMPLETE, codec.encodeComplete ⟨sha256 data⟩)]

/-- What a read of an envelope is to the receiver of a file. -/
def FileEvent.ofEnvelope (codec : FileCodec) :
    Except StreamReadError (UInt16 × List UInt8) → FileEvent
  | .error e => .readFailed e
  | .ok (typeRaw, payload) =>
    if typeRaw = TypeId.FILE_CHUNK then .chunk (codec.decodeChunk payload)
    else if typeRaw = TypeId.FILE_TRANSFER_COMPLETE then .complete (codec.decodeComplete payload)
    else .unexpected typeRaw

/-- The first `n` messages of a file stream that does not stall. -/
def EnvelopeReader.fileEvents (codec : FileCodec) (r : EnvelopeReader) (n : ℕ) : List FileEvent :=
  (r.readEnvelopes StreamKind.file.maxEnvelopeLength n).1.map (.ofEnvelope codec)

/-! ## Cutting a file -/

variable {data : List UInt8} {chunkSize n : ℕ}

theorem fileChunks_eq : fileChunks data chunkSize =
    (List.range ((data.length + max chunkSize 1 - 1) / max chunkSize 1)).map fun i =>
      ⟨i * chunkSize, (Intervals.slice data (i * max chunkSize 1, max chunkSize 1)).length % 2 ^ 32,
        Intervals.slice data (i * max chunkSize 1, max chunkSize 1)⟩ := by
  refine List.ext_getElem (by simp [fileChunks, chunks]) fun i hi hi' => ?_
  simp [fileChunks, chunks]

/-- A slice starts within the file. -/
theorem mul_lt_of_lt_chunks {i : ℕ} (hn : 0 < n) (hi : i < (data.length + n - 1) / n) :
    i * n < data.length := by
  have h := (Nat.le_div_iff_mul_le hn).1 (Nat.succ_le_of_lt hi)
  rw [Nat.succ_mul] at h
  omega

/-- A chunk whose slice is not too long is sent as what it is. -/
theorem exists_of_mem_fileChunks (hsize : chunkSize ≠ 0) {c : FileChunk}
    (hc : c ∈ fileChunks data chunkSize) (hlength : c.data.length < 2 ^ 32) :
    ∃ i, i * chunkSize < data.length ∧ c.offset = i * chunkSize ∧
      c.length = min chunkSize (data.length - i * chunkSize) ∧
      c.data = Intervals.slice data (i * chunkSize, chunkSize) := by
  have hmax : max chunkSize 1 = chunkSize := max_eq_left (Nat.pos_of_ne_zero hsize)
  rw [fileChunks_eq, hmax] at hc
  obtain ⟨i, hi, rfl⟩ := List.mem_map.1 hc
  have hi := mul_lt_of_lt_chunks (Nat.pos_of_ne_zero hsize) (List.mem_range.1 hi)
  refine ⟨i, hi, rfl, (Nat.mod_eq_of_lt hlength).trans ?_, rfl⟩
  simp [Intervals.slice]

/-- Of two slices, the one after the other does not overlap it. -/
theorem pairwise_fileChunks (hsize : chunkSize ≠ 0) :
    (fileChunks data chunkSize).Pairwise fun c c' => ¬Overlaps c'.range c.range := by
  have hmax : max chunkSize 1 = chunkSize := max_eq_left (Nat.pos_of_ne_zero hsize)
  rw [fileChunks_eq, hmax]
  refine List.pairwise_map.2 (List.pairwise_lt_range.imp fun {i j} hij hoverlaps => ?_)
  have hmul : (i + 1) * chunkSize ≤ j * chunkSize := Nat.mul_le_mul_right _ hij
  have hlen : (Intervals.slice data (i * chunkSize, chunkSize)).length % 2 ^ 32 ≤ chunkSize :=
    (Nat.mod_le ..).trans (by simp [Intervals.slice])
  have hlt : j * chunkSize < i * chunkSize +
      (Intervals.slice data (i * chunkSize, chunkSize)).length % 2 ^ 32 := hoverlaps.1
  rw [Nat.succ_mul] at hmul
  omega

/-- A position is in the chunk of its quotient. -/
theorem exists_chunk_of_lt (hsize : chunkSize ≠ 0) {i : ℕ} (hi : i < data.length) :
    ∃ c ∈ fileChunks data chunkSize, c.offset = i / chunkSize * chunkSize := by
  have hmax : max chunkSize 1 = chunkSize := max_eq_left (Nat.pos_of_ne_zero hsize)
  have hdiv := Nat.div_add_mod' i chunkSize
  have hk : i / chunkSize < (data.length + chunkSize - 1) / chunkSize := by
    rw [← Nat.succ_le_iff, Nat.le_div_iff_mul_le (Nat.pos_of_ne_zero hsize), Nat.succ_mul]
    omega
  rw [fileChunks_eq, hmax]
  exact ⟨_, List.mem_map_of_mem (List.mem_range.2 hk), rfl⟩

/-- A file that is cut into slices that are not too long consists of them. -/
theorem pieces_fileChunks (hsize : chunkSize ≠ 0)
    (hlength : ∀ c ∈ fileChunks data chunkSize, c.data.length < 2 ^ 32) :
    Pieces data (fileChunks data chunkSize) where
  slice {c} hc := by
    obtain ⟨i, hi, hoffset, hlen, hdata⟩ := exists_of_mem_fileChunks hsize hc (hlength c hc)
    refine ⟨by omega, ?_⟩
    -- the last slice is as long as what is left
    rw [hdata, FileChunk.range, hoffset, hlen]
    simp [Intervals.slice, List.take_eq_take_iff]
  disjoint := pairwise_fileChunks hsize
  covers {i} hi := by
    obtain ⟨c, hc, hoffset⟩ := exists_chunk_of_lt hsize hi
    obtain ⟨k, -, hk, hlen, -⟩ := exists_of_mem_fileChunks hsize hc (hlength c hc)
    have hdiv := Nat.div_add_mod' i chunkSize
    have hmod := Nat.mod_lt i (Nat.pos_of_ne_zero hsize)
    refine ⟨c.range, List.mem_map_of_mem hc, ?_⟩
    simp only [FileChunk.range]
    omega

/-! ## What is written is what is received -/

variable {codec : FileCodec} {sha256 : List UInt8 → List UInt8} {fileHandle : ℕ}

/-- The messages of a file arrive as they were written, however the stream is cut. -/
theorem EnvelopeReader.fileEvents_sendFileData
    (hchunk : ∀ c ∈ fileChunks data chunkSize, codec.decodeChunk (codec.encodeChunk c) = some c)
    (hcomplete : codec.decodeComplete (codec.encodeComplete ⟨sha256 data⟩) = some ⟨sha256 data⟩)
    (hfits : ∀ env ∈ sendFileData codec sha256 data chunkSize,
      env.2.length ≤ StreamKind.file.maxEnvelopeLength)
    {r : EnvelopeReader}
    (hwritten : encodeAll (sendFileData codec sha256 data chunkSize) [] = some r.remaining) :
    r.fileEvents codec (sendFileData codec sha256 data chunkSize).length =
      (fileChunks data chunkSize).map (fun c => .chunk (some c)) ++
        [.complete (some ⟨sha256 data⟩)] := by
  obtain ⟨cs, hbytes, hcs⟩ := encodes_of_encodeAll hfits hwritten
  have hrem : r.remaining = cs.flatten ++ [] := by
    rw [hbytes, List.append_nil]
    rfl
  obtain ⟨r', hr', -⟩ := Framing.Reader.nexts_frames hcs hrem
  rw [List.length_map] at hr'
  rw [fileEvents, readEnvelopes_eq, hr']
  simp only [List.map_map, sendFileData, List.map_append]
  congr 1
  · refine List.map_congr_left fun c hc => ?_
    simp [FileEvent.ofEnvelope, Except.map, Except.mapError, hchunk c hc]
  · simp [FileEvent.ofEnvelope, Except.map, Except.mapError, TypeId.FILE_CHUNK,
      TypeId.FILE_TRANSFER_COMPLETE, hcomplete]

/-- A file of a byte at most is sent in the same chunks with the size `0`. -/
theorem fileChunks_zero (h : data.length ≤ 1) : fileChunks data 0 = fileChunks data 1 := by
  match data, h with
  | [], _ => rfl
  | [byte], _ => simp [fileChunks, chunks]

/-- Of a longer file, the second chunk is sent for the place of the first one. -/
theorem exists_fileChunks_zero (h : 2 ≤ data.length) :
    ∃ byte byte' rest, fileChunks data 0 = ⟨0, 1, [byte]⟩ :: ⟨0, 1, [byte']⟩ :: rest := by
  match data, h with
  | byte :: byte' :: data, _ =>
    refine ⟨byte, byte', (fileChunks (byte :: byte' :: data) 0).drop 2, ?_⟩
    refine List.ext_getElem? fun i => ?_
    rw [fileChunks_eq]
    match i with
    | 0 | 1 => simp [Intervals.slice]
    | i + 2 => simp [Nat.add_comm 2 i]

/-- Two chunks for one place are never part of a file. -/
theorem receiveMessages_of_overlap (sha256 : List UInt8 → List UInt8) (fileHandle : ℕ)
    (r : FileReassembly) (byte byte' : UInt8) (events : List FileEvent) :
    ∃ e, receiveMessages sha256 fileHandle r
      (.chunk (some ⟨0, 1, [byte]⟩) :: .chunk (some ⟨0, 1, [byte']⟩) :: events) =
        some (.ok (.error e)) := by
  rw [receiveMessages]
  cases hr₁ : r.applyChunk ⟨0, 1, [byte]⟩ with
  | error reason => exact ⟨_, rfl⟩
  | ok r₁ =>
    obtain ⟨reason, hr₂⟩ : ∃ reason, r₁.applyChunk ⟨0, 1, [byte']⟩ = .error reason := by
      have hoverlaps : Overlaps (FileChunk.range ⟨0, 1, [byte']⟩) (0, 1) :=
        ⟨Nat.one_pos, Nat.one_pos⟩
      refine FileReassembly.applyChunk_of_overlaps ?_ hoverlaps
      rw [FileReassembly.receivedRanges_applyChunk hr₁]
      exact List.mem_append_right _ (List.mem_singleton_self _)
    dsimp only
    rw [receiveMessages, hr₂]
    exact ⟨_, rfl⟩

/-- The receiver of the size of a file makes the file of what its sender writes, exactly if the
    size of the chunks is not `0` or the file not longer than a byte. -/
theorem receives_sent_iff
    (hchunk : ∀ c ∈ fileChunks data chunkSize, codec.decodeChunk (codec.encodeChunk c) = some c)
    (hcomplete : codec.decodeComplete (codec.encodeComplete ⟨sha256 data⟩) = some ⟨sha256 data⟩)
    (hdata : ∀ c ∈ fileChunks data chunkSize, c.data.length ≤ (codec.encodeChunk c).length)
    (hfits : ∀ env ∈ sendFileData codec sha256 data chunkSize,
      env.2.length ≤ StreamKind.file.maxEnvelopeLength)
    {r : EnvelopeReader}
    (hwritten : encodeAll (sendFileData codec sha256 data chunkSize) [] = some r.remaining) :
    receiveFile sha256 fileHandle data.length
        (r.fileEvents codec (sendFileData codec sha256 data chunkSize).length) =
      some (.ok (.complete data)) ↔ chunkSize ≠ 0 ∨ data.length ≤ 1 := by
  have hlength : ∀ c ∈ fileChunks data chunkSize, c.data.length < 2 ^ 32 := by
    intro c hc
    have hle : (codec.encodeChunk c).length ≤ StreamKind.file.maxEnvelopeLength :=
      hfits (TypeId.FILE_CHUNK, _) (List.mem_append_left _ (List.mem_map_of_mem hc))
    exact ((hdata c hc).trans hle).trans_lt (by decide)
  rw [EnvelopeReader.fileEvents_sendFileData hchunk hcomplete hfits hwritten]
  constructor
  · intro h
    by_contra hnot
    obtain ⟨rfl, hlong⟩ : chunkSize = 0 ∧ 2 ≤ data.length := by omega
    obtain ⟨byte, byte', rest, heq⟩ := exists_fileChunks_zero hlong
    obtain ⟨e, he⟩ := receiveMessages_of_overlap sha256 fileHandle (.new data.length) byte byte'
      (rest.map (fun c => .chunk (some c)) ++ [.complete (some ⟨sha256 data⟩)])
    rw [receiveFile, heq, List.map_cons, List.map_cons, List.cons_append, List.cons_append, he] at h
    cases h
  · intro h
    refine receiveFile_of_pieces ?_
    by_cases hsize : chunkSize = 0
    · subst hsize
      rw [fileChunks_zero (by omega)] at hlength ⊢
      exact pieces_fileChunks Nat.one_ne_zero hlength
    · exact pieces_fileChunks hsize hlength

/-- The encoding of small messages: of numbers below 24, fewer than 24 bytes of data, and
    checksums of 32 bytes. -/
def smallCodec : FileCodec where
  encodeChunk c :=
    [0xa3, 0x66, 0x6f, 0x66, 0x66, 0x73, 0x65, 0x74, UInt8.ofNat c.offset,
      0x66, 0x6c, 0x65, 0x6e, 0x67, 0x74, 0x68, UInt8.ofNat c.length,
      0x64, 0x64, 0x61, 0x74, 0x61, 0x40 + UInt8.ofNat c.data.length] ++ c.data
  decodeChunk bytes := some ⟨(bytes.getD 8 0).toNat, (bytes.getD 16 0).toNat, bytes.drop 23⟩
  encodeComplete c :=
    [0xa1, 0x68, 0x63, 0x68, 0x65, 0x63, 0x6b, 0x73, 0x75, 0x6d, 0x58, 0x20] ++ c.checksum
  decodeComplete bytes := some ⟨bytes.drop 12⟩

/-- The checksum of the bytes `1` and `2`. -/
def checksumOfOneTwo : List UInt8 :=
  [0xa1, 0x28, 0x71, 0xfe, 0xe2, 0x10, 0xfb, 0x86, 0x19, 0x29, 0x1e, 0xae, 0xa1, 0x94, 0x58, 0x1c,
    0xbd, 0x25, 0x31, 0xe4, 0xb2, 0x37, 0x59, 0xd2, 0x25, 0xf6, 0x80, 0x69, 0x23, 0xf6, 0x32, 0x22]

/-- A reader for which what is sent for the bytes `1` and `2` has arrived. -/
def readerOfOneTwo (chunkSize : ℕ) : EnvelopeReader :=
  ⟨⟨[], none⟩, (encodeAll
    (sendFileData smallCodec (fun _ => checksumOfOneTwo) [1, 2] chunkSize) []).getD []⟩

theorem receives_sent_byByte :
    receiveFile (fun _ => checksumOfOneTwo) 7 2 ((readerOfOneTwo 1).fileEvents smallCodec 3) =
      some (.ok (.complete [1, 2])) :=
  (@receives_sent_iff [1, 2] 1 smallCodec _ _ (by decide) (by decide) (by decide) (by decide) _
    (by decide)).2 (.inl Nat.one_ne_zero)

/-- Sent with the size `0`, both bytes are for the first place, and the transfer fails though
    every message fits and is decoded to what was encoded. -/
theorem sent_for_one_place :
    let sha256 := fun _ => checksumOfOneTwo
    let sent := sendFileData smallCodec sha256 [1, 2] 0
    (∀ c ∈ fileChunks [1, 2] 0, smallCodec.decodeChunk (smallCodec.encodeChunk c) = some c) ∧
      (∀ env ∈ sent, env.2.length ≤ StreamKind.file.maxEnvelopeLength) ∧
      encodeAll sent [] = some (readerOfOneTwo 0).remaining ∧
      receiveFile sha256 7 2 ((readerOfOneTwo 0).fileEvents smallCodec sent.length) =
        some (.ok (.error ⟨7, ReasonCode.PROTOCOL_FILE_CHUNK_OVERLAP⟩)) := by
  intro sha256 sent
  have hchunk : ∀ c ∈ fileChunks [1, 2] 0,
      smallCodec.decodeChunk (smallCodec.encodeChunk c) = some c := by decide
  have hfits : ∀ env ∈ sent, env.2.length ≤ StreamKind.file.maxEnvelopeLength := by decide
  have hwritten : encodeAll sent [] = some (readerOfOneTwo 0).remaining := by decide
  refine ⟨hchunk, hfits, hwritten, ?_⟩
  rw [EnvelopeReader.fileEvents_sendFileData hchunk rfl hfits hwritten]
  rfl

end Sardp
