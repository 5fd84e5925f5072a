import Sardp.Server.Tasks
import Sardp.Session.StreamReaders
import Sardp.Wire.Bodies

/-!
# What the senders write

The senders of the streams encode a message and write it as an envelope, as long as it may be
(`input_session.rs`, `clipboard_session.rs`, `video_session.rs`, `audio_session.rs`,
`file_transfer_session.rs`). The reader at the other end refuses an envelope that is longer than the
kind of the stream allows, and with it the stream.

* `Send.Fits` is what it takes for a message to be short enough, in terms of the message.
* `Send.respects_limit_iff`: a sender keeps to the limit exactly for such messages, and exactly
  these may be sent without the reader giving the stream up.
-/

namespace Sardp

open Framing Cbor

/-! ## Writing -/

/-- What a stream makes of the bytes it is to take. -/
inductive WriteOutcome
  | taken
  /-- It takes some of them and fails. -/
  | failed (taken : ℕ) (e : Quinn.WriteError)

/-- Writing an envelope: the result, and the bytes the stream has taken; `none` is the panic on a
    length that cannot be encoded. -/
def writeEnvelope (typeRaw : UInt16) (payload : List UInt8) (outcome : WriteOutcome) :
    Option (Except Quinn.WriteError Unit × List UInt8) :=
  (Envelope.encode typeRaw payload []).map fun buf =>
    match outcome with
    | .taken => (.ok (), buf)
    | .failed taken e => (.error e, buf.take taken)

/-- Writing one envelope after the other, until a write fails. -/
def writeEnvelopes : List (UInt16 × List UInt8) → (ℕ → WriteOutcome) →
    Option (Except Quinn.WriteError Unit × List UInt8)
  | [], _ => some (.ok (), [])
  | (typeRaw, payload) :: envs, outcomes =>
    (writeEnvelope typeRaw payload (outcomes 0)).bind fun
      | (.ok (), bytes) =>
        (writeEnvelopes envs fun n => outcomes (n + 1)).map fun (result, more) =>
          (result, bytes ++ more)
      | (.error e, bytes) => some (.error e, bytes)

/-! ## The senders -/

namespace Wire

def sendTextInput (event : TextInput) : List (UInt16 × List UInt8) :=
  [(TypeId.TEXT_INPUT, event.encode)]

def sendImeComposition (event : ImeComposition) : List (UInt16 × List UInt8) :=
  [(TypeId.IME_COMPOSITION, event.encode)]

def sendClipboardError (error : ClipboardError) : List (UInt16 × List UInt8) :=
  [(TypeId.CLIPBOARD_ERROR, error.encode)]

/-- The answer to a request for the clipboard: the data, unless it is larger than the policy
    allows. -/
def respondToClipboardRequest (requestId : ℕ) (ns : FormatNamespace) (formatId : String)
    (data : List UInt8) (maxSize : Option ℕ) : List (UInt16 × List UInt8) :=
  if ∃ max ∈ maxSize, data.length > max then
    sendClipboardError ⟨requestId, ReasonCode.POLICY_CLIPBOARD_FORMAT_TOO_LARGE⟩
  else [(TypeId.CLIPBOARD_DATA, ClipboardData.encode ⟨requestId, ns, formatId, data⟩)]

/-- A frame of video, its header and its payload in an envelope each. -/
def sendVideoFrame (generation frameId configId : ℕ) (flags : UInt8)
    (captureTs encodeDoneTs width height : ℕ) (payload : List UInt8) :
    List (UInt16 × List UInt8) :=
  let header : VideoFrameHeader := {
    generation, frameId, configId, flags, captureTs, encodeDoneTs, width, height
    payloadLen := payload.length }
  [(TypeId.VIDEO_FRAME_HEADER, header.encode), (TypeId.VIDEO_FRAME_PAYLOAD, payload)]

/-- A frame of audio, likewise. -/
def sendAudioFrame (sequence captureTs durationUs : ℕ) (payload : List UInt8) :
    List (UInt16 × List UInt8) :=
  let header : AudioFrameHeader :=
    { sequence, captureTs, durationUs, payloadLen := payload.length }
  [(TypeId.AUDIO_FRAME_HEADER, header.encode), (TypeId.AUDIO_FRAME_PAYLOAD, payload)]

def sendFileChunk (chunk : FileChunk) : List (UInt16 × List UInt8) :=
  [(TypeId.FILE_CHUNK, chunk.encode)]

end Wire

/-- What an action of a task writes to the stream of its clipboard. -/
def TaskAction.envelopes : TaskAction → List (UInt16 × List UInt8)
  | .sendClipboardData data => [(TypeId.CLIPBOARD_DATA, data.encode)]
  | .sendClipboardError e => Wire.sendClipboardError e
  | _ => []

/-- What the task that announces a clipboard answers is what the sender writes. -/
theorem envelopes_respondToClipboardRequest (request : ClipboardRequest) (data : List UInt8)
    (maxSize : Option ℕ) : (respondToClipboardRequest request data maxSize).envelopes =
      Wire.respondToClipboardRequest request.requestId request.ns request.formatId data maxSize := by
  rw [respondToClipboardRequest, Wire.respondToClipboardRequest]
  split_ifs <;> rfl

/-- A call of a sender. -/
inductive Send
  | textInput (event : Wire.TextInput)
  | imeComposition (event : Wire.ImeComposition)
  | clipboardResponse (requestId : ℕ) (ns : FormatNamespace) (formatId : String)
      (data : List UInt8) (maxSize : Option ℕ)
  | videoFrame (generation frameId configId : ℕ) (flags : UInt8)
      (captureTs encodeDoneTs width height : ℕ) (payload : List UInt8)
  | audioFrame (capture : Bool) (sequence captureTs durationUs : ℕ) (payload : List UInt8)
  | fileChunk (chunk : FileChunk)

namespace Send

/-- The kind of the stream. -/
def kind : Send → StreamKind
  | textInput _ | imeComposition _ => .input
  | clipboardResponse .. => .clipboard
  | videoFrame .. => .video
  | audioFrame capture .. => if capture then .audioCapture else .audioPlayback
  | fileChunk _ => .file

/-- The envelopes the sender writes. -/
def envelopes : Send → List (UInt16 × List UInt8)
  | textInput event => Wire.sendTextInput event
  | imeComposition event => Wire.sendImeComposition event
  | clipboardResponse requestId ns formatId data maxSize =>
    Wire.respondToClipboardRequest requestId ns formatId data maxSize
  | videoFrame generation frameId configId flags captureTs encodeDoneTs width height payload =>
    Wire.sendVideoFrame generation frameId configId flags captureTs encodeDoneTs width height payload
  | audioFrame _ sequence captureTs durationUs payload =>
    Wire.sendAudioFrame sequence captureTs durationUs payload
  | fileChunk chunk => Wire.sendFileChunk chunk

/-- The message is short enough. -/
def Fits : Send → Prop
  | textInput event =>
    33 + headLen event.header.eventId + headLen event.header.clientTs +
      headLen event.text.utf8ByteSize + event.text.utf8ByteSize ≤ 1024
  | imeComposition event =>
    39 + headLen event.header.eventId + headLen event.header.clientTs + headLen event.caret +
      headLen event.text.utf8ByteSize + event.text.utf8ByteSize ≤ 1024
  | clipboardResponse requestId ns formatId data maxSize =>
    (∃ max ∈ maxSize, data.length > max) ∨
      38 + headLen requestId + ns.name.utf8ByteSize + headLen formatId.utf8ByteSize +
        formatId.utf8ByteSize + headLen data.length + data.length ≤ 16 * 1024 * 1024
  | videoFrame _ _ _ _ _ _ _ _ payload => payload.length ≤ 8 * 1024 * 1024
  | audioFrame _ _ _ _ payload => payload.length ≤ 64 * 1024
  | fileChunk chunk =>
    20 + headLen chunk.offset + headLen chunk.length + headLen chunk.data.length +
      chunk.data.length ≤ 1024 * 1024

/-- The envelopes are within the limit of the stream, or the sender fails without a byte written,
    whatever the stream makes of the writes. -/
def RespectsLimit (s : Send) : Prop :=
  ∀ outcomes, (∀ env ∈ s.envelopes, env.2.length ≤ s.kind.maxEnvelopeLength) ∨
    ∃ e, writeEnvelopes s.envelopes outcomes = some (.error e, [])

/-- The envelopes are within the limit of the stream exactly if the message is short enough. -/
theorem fits_iff (s : Send) :
    (∀ env ∈ s.envelopes, env.2.length ≤ s.kind.maxEnvelopeLength) ↔ s.Fits := by
  cases s with
  | textInput event =>
    simp [envelopes, Wire.sendTextInput, event.length_encode, kind, StreamKind.maxEnvelopeLength, Fits]
  | imeComposition event =>
    simp [envelopes, Wire.sendImeComposition, event.length_encode, kind, StreamKind.maxEnvelopeLength,
      Fits]
  | clipboardResponse requestId ns formatId data maxSize =>
    by_cases hlarge : ∃ max ∈ maxSize, data.length > max
    · -- the refusal is short
      refine iff_of_true ?_ (.inl hlarge)
      rw [envelopes, Wire.respondToClipboardRequest, if_pos hlarge]
      simpa [Wire.sendClipboardError, kind, StreamKind.maxEnvelopeLength] using
        (ClipboardError.length_encode_le _).trans (by decide)
    · rw [envelopes, Wire.respondToClipboardRequest, if_neg hlarge, Fits, or_iff_right hlarge]
      simp [ClipboardData.length_encode, kind, StreamKind.maxEnvelopeLength]
  | videoFrame generation frameId configId flags captureTs encodeDoneTs width height payload =>
    have hheader := Wire.VideoFrameHeader.length_encode_le ⟨generation, frameId, configId, flags,
      captureTs, encodeDoneTs, width, height, payload.length⟩
    simp only [envelopes, Wire.sendVideoFrame, List.forall_mem_cons, List.not_mem_nil, false_imp_iff,
      implies_true, and_true, kind, StreamKind.maxEnvelopeLength, Fits]
    exact and_iff_right (hheader.trans (by decide))
  | audioFrame capture sequence captureTs durationUs payload =>
    have hheader := Wire.AudioFrameHeader.length_encode_le
      ⟨sequence, captureTs, durationUs, payload.length⟩
    have hmax : (if capture then StreamKind.audioCapture else .audioPlayback).maxEnvelopeLength =
        64 * 1024 := by cases capture <;> rfl
    simp only [envelopes, Wire.sendAudioFrame, List.forall_mem_cons, List.not_mem_nil, false_imp_iff,
      implies_true, and_true, kind, hmax, Fits]
    exact and_iff_right (hheader.trans (by decide))
  | fileChunk chunk =>
    simp [envelopes, Wire.sendFileChunk, chunk.length_encode, kind, StreamKind.maxEnvelopeLength, Fits]

end Send

/-! ## What is written is what is read -/

variable {maxLength : ℕ} {env : UInt16 × List UInt8} {envs : List (UInt16 × List UInt8)}
  {r : EnvelopeReader}

/-- On a stream that takes everything, no write fails. -/
theorem writeEnvelopes_taken {result : Except Quinn.WriteError Unit × List UInt8}
    (h : writeEnvelopes envs (fun _ => .taken) = some result) : result.1 = .ok () := by
  induction envs generalizing result with
  | nil =>
    cases h
    rfl
  | cons env envs ih =>
    obtain ⟨written, hwritten, hrest⟩ := Option.bind_eq_some_iff.1 h
    obtain ⟨buf, -, rfl⟩ := Option.map_eq_some_iff.1 hwritten
    obtain ⟨more, hmore, rfl⟩ := Option.map_eq_some_iff.1 hrest
    exact @ih more hmore

/-- What is written of an envelope and others is its encoding, and what is written of the others. -/
theorem writeEnvelopes_cons_taken {bytes : List UInt8}
    (h : writeEnvelopes (env :: envs) (fun _ => .taken) = some (.ok (), bytes)) :
    ∃ c rest, bytes = c ++ rest ∧ Envelope.encode env.1 env.2 [] = some c ∧
      writeEnvelopes envs (fun _ => .taken) = some (.ok (), rest) := by
  obtain ⟨written, hwritten, hrest⟩ := Option.bind_eq_some_iff.1 h
  obtain ⟨buf, hbuf, rfl⟩ := Option.map_eq_some_iff.1 hwritten
  obtain ⟨⟨result, more⟩, hmore, heq⟩ := Option.map_eq_some_iff.1 hrest
  obtain ⟨rfl, rfl⟩ := Prod.mk.inj heq
  exact ⟨buf, more, rfl, hbuf, hmore⟩

/-- An envelope that is too long is refused as soon as its length is there. -/
theorem Envelope.parse_of_encode_long {typeRaw : UInt16} {payload bytes : List UInt8}
    (hlong : maxLength < payload.length) (h : encode typeRaw payload [] = some bytes)
    (rest : List UInt8) :
    parse (bytes ++ rest) maxLength = .error (.lengthExceedsLimit payload.length maxLength) := by
  obtain ⟨header, hheader, hbytes⟩ := Option.bind_eq_some_iff.1 h
  obtain ⟨c, rfl, hc⟩ := Varint.decode_encode hheader
  obtain rfl : _ = bytes := by simpa using hbytes
  refine parse_eq_error.2 ⟨payload.length, header.length, ?_, hlong, rfl⟩
  have happend := Varint.decode_append (toLeBytes typeRaw ++ payload ++ rest) hc
  simpa [List.append_assoc] using happend

namespace EnvelopeReader

/-- The reader gives the stream up over an envelope that is too long. -/
def ExceedsLimit (maxLength : ℕ) (r : EnvelopeReader) : Prop :=
  ∃ n length, .error (.envelope (.lengthExceedsLimit length maxLength)) ∈
    (r.readEnvelopes maxLength n).1

/-- At the end of a stream no envelope is too long. -/
theorem not_exceedsLimit_of_end (h : r.remaining = []) : ¬r.ExceedsLimit maxLength := by
  obtain ⟨hnext, -⟩ := Reader.next_end (d := Envelope.decoder maxLength) rfl h
  rintro ⟨n, length, hmem⟩
  induction n with
  | zero => cases hmem
  | succ n ih =>
    rw [readEnvelopes, readEnvelope, hnext] at hmem
    rcases List.mem_cons.1 hmem with heq | hmem
    · cases hending : r.source.ending <;> simp [hending, Reader.endError, Except.map,
        Except.mapError, StreamReadError.ofReadError] at heq
    · exact ih hmem

/-- After an envelope that is short enough, it is a matter of the others. -/
theorem exceedsLimit_iff_of_next {r' : EnvelopeReader}
    (h : r.readEnvelope maxLength = (.ok env, r')) :
    r.ExceedsLimit maxLength ↔ r'.ExceedsLimit maxLength := by
  constructor
  · rintro ⟨n, length, hmem⟩
    cases n with
    | zero => cases hmem
    | succ n =>
      rw [readEnvelopes, h] at hmem
      rcases List.mem_cons.1 hmem with heq | hmem
      · cases heq
      · exact ⟨n, length, hmem⟩
  · rintro ⟨n, length, hmem⟩
    refine ⟨n + 1, length, ?_⟩
    rw [readEnvelopes, h]
    exact List.mem_cons_of_mem _ hmem

/-- The reader of a stream gives it up exactly if one of the envelopes written is too long. -/
theorem exceedsLimit_iff
    (h : writeEnvelopes envs (fun _ => .taken) = some (.ok (), r.remaining)) :
    r.ExceedsLimit maxLength ↔ ∃ env ∈ envs, maxLength < env.2.length := by
  induction envs generalizing r with
  | nil =>
    obtain ⟨-, hnil⟩ := Prod.mk.inj (Option.some.inj h)
    exact iff_of_false (not_exceedsLimit_of_end hnil.symm) nofun
  | cons env envs ih =>
    obtain ⟨c, rest, hrem, henc, hrest⟩ := writeEnvelopes_cons_taken h
    rw [List.exists_mem_cons_iff]
    by_cases hlong : maxLength < env.2.length
    · refine iff_of_true ⟨1, env.2.length, ?_⟩ (.inl hlong)
      obtain ⟨r', hnext, -⟩ := Reader.next_eq_told (d := Envelope.decoder maxLength) r
      have hdecode : (Envelope.decoder maxLength).decode r.remaining = _ :=
        hrem ▸ Envelope.parse_of_encode_long hlong henc rest
      rw [hdecode] at hnext
      rw [readEnvelopes, readEnvelope, hnext]
      exact List.mem_cons_self
    · obtain ⟨c', rfl, hc⟩ := Envelope.encodes_of_encode (e := ⟨env.1, env.2⟩)
        (Nat.not_lt.1 hlong) henc
      obtain ⟨r', hnext, hrem', -⟩ := Reader.next_frame hc hrem
      have hread : r.readEnvelope maxLength = (.ok env, r') := by
        rw [readEnvelope, hnext]
        rfl
      rw [exceedsLimit_iff_of_next hread, or_iff_right hlong]
      exact ih (hrem' ▸ hrest)

end EnvelopeReader

namespace Send

/-- A sender keeps to the limit of the stream exactly if the message is short enough: it never
    fails by itself. -/
theorem respectsLimit_iff_fits (s : Send) : s.RespectsLimit ↔ s.Fits := by
  rw [← fits_iff]
  refine ⟨fun h => ?_, fun h _ => .inl h⟩
  rcases h fun _ => .taken with hfits | ⟨e, he⟩
  · exact hfits
  · cases writeEnvelopes_taken he

/-- A sender keeps to the limit of the stream exactly if the message is short enough, and the reader
    does not give the stream up exactly if all the messages written to it are. -/
theorem respects_limit_iff (s : Send) {kind : StreamKind} {sends : List Send} {r : EnvelopeReader}
    (hkind : ∀ s ∈ sends, s.kind = kind)
    (hwritten : writeEnvelopes (sends.flatMap envelopes) (fun _ => .taken) =
      some (.ok (), r.remaining)) :
    (s.RespectsLimit ↔ s.Fits) ∧
      (¬r.ExceedsLimit kind.maxEnvelopeLength ↔ ∀ s ∈ sends, s.Fits) := by
  refine ⟨respectsLimit_iff_fits s, ?_⟩
  rw [EnvelopeReader.exceedsLimit_iff hwritten]
  push Not
  simp only [List.mem_flatMap, forall_exists_index, and_imp]
  constructor
  · intro h s hs
    refine s.fits_iff.1 fun env henv => ?_
    rw [hkind s hs]
    exact h env s hs henv
  · intro h env s hs henv
    rw [← hkind s hs]
    exact s.fits_iff.2 (h s hs) env henv

/-- A short text keeps to the limit, and is read. -/
theorem respects_limit_iff_short :
    let event : Wire.TextInput := ⟨⟨1, 2⟩, "ab"⟩
    (Send.textInput event).RespectsLimit ∧ ¬EnvelopeReader.ExceedsLimit
      StreamKind.input.maxEnvelopeLength
      (Reader.new ⟨[⟨[38, 0x20, 0] ++ event.encode, by simp⟩], none⟩) := by
  intro event
  have hfits : (Send.textInput event).Fits := by
    rw [Fits]
    decide
  have hkind : ∀ s ∈ [Send.textInput event], s.kind = .input := by simp [kind]
  have hlength : event.encode.length = 38 := by
    rw [event.length_encode]
    rfl
  have hwritten : writeEnvelopes ([Send.textInput event].flatMap envelopes) (fun _ => .taken) =
      some (.ok (), [38, 0x20, 0] ++ event.encode) := by
    have htype : Envelope.toLeBytes TypeId.TEXT_INPUT = [0x20, 0] := by decide
    simp [envelopes, Wire.sendTextInput, writeEnvelopes, writeEnvelope, Envelope.encode, hlength,
      Varint.encode, Varint.MAX, htype]
  have hlimit := respects_limit_iff (.textInput event) hkind
    (r := Reader.new ⟨[⟨[38, 0x20, 0] ++ event.encode, by simp⟩], none⟩)
    (hwritten.trans (by simp [Reader.remaining, Reader.new, symbols]))
  exact ⟨hlimit.1.2 hfits, hlimit.2.2 (by simpa using hfits)⟩

/-- A text of a kibibyte is written, and the server gives the stream up over it. -/
theorem text_exceeds_limit :
    let line := "0123456789abcdef0123456789abcdef0123456789abcdef0123456789abcdef"
    let page := line ++ line ++ line ++ line
    let event : Wire.TextInput := ⟨⟨1, 0⟩, page ++ page ++ page ++ page⟩
    ¬(Send.textInput event).RespectsLimit ∧ ∀ r : EnvelopeReader,
      writeEnvelopes (Wire.sendTextInput event) (fun _ => .taken) = some (.ok (), r.remaining) →
        r.ExceedsLimit StreamKind.input.maxEnvelopeLength := by
  intro line page event
  have hline : line.utf8ByteSize = 64 := by decide
  have hsize : event.text.utf8ByteSize = 1024 := by
    simp only [event, page, String.utf8ByteSize_append, hline]
  refine ⟨fun h => ?_, fun r hwritten => (EnvelopeReader.exceedsLimit_iff hwritten).2 ?_⟩
  · have hfits := (respectsLimit_iff_fits _).1 h
    rw [Fits, hsize] at hfits
    omega
  · refine ⟨_, List.mem_singleton_self _, ?_⟩
    rw [event.length_encode, hsize, StreamKind.maxEnvelopeLength]
    omega

end Send

end Sardp
