import Sardp.Session.Senders
import Sardp.Wire.MediaFormats

/-!
# What the bytes of a stream tell

The bodies of the messages of streams are maps whose names come in the order of the fields
(`messages.rs`), so every one of them is a format (`Cbor.recordFormat`), and the type of the
envelope tells which one (`StreamMessage.ofEnvelope_envelope`).

So the bytes of a stream tell the messages, and so do those that have come so far: what is written
for some messages is the beginning of what is written for others only if the messages are
(`StreamMessage.prefix_of_bytes`).
-/

namespace Sardp

open Cbor Framing

/-! ## Formats -/

/-- The case with a name. -/
def FormatNamespace.ofName (name : String) : Option FormatNamespace :=
  [mime, win32, macosUti].find? fun ns => ns.name = name

def FormatNamespace.format : Format UInt8 FormatNamespace :=
  caseFormat name ofName fun ns => by cases ns <;> rfl

/-- The domain with a number. -/
def ReasonDomain.ofByte (byte : UInt8) : Option ReasonDomain :=
  [none, auth, policy, transport, protocol, os].find? fun domain => domain.toByte = byte

def ReasonCode.format : Format UInt8 ReasonCode :=
  Format.withWrite (recordFormat 2 <|
    ((field "domain" byteFormat).pair (field "code" uintFormat)).iso
      (fun (domain, code) => (ReasonDomain.ofByte domain).map fun domain => ⟨domain, code⟩)
      (fun reason => (reason.domain.toByte, reason.code))
      fun ⟨domain, _⟩ => by cases domain <;> rfl)
    encode fun reason => by simp [encode, record, byteFormat]

namespace Wire

def InputHeader.format : Format UInt8 InputHeader :=
  Format.withWrite (recordFormat 2 <|
    ((field "event_id" uintFormat).pair (field "client_ts" uintFormat)).iso
      (fun (eventId, clientTs) => some ⟨eventId, clientTs⟩)
      (fun header => (header.eventId, header.clientTs)) fun _ => rfl)
    encode fun header => by simp [encode, record]

def TextInput.format : Format UInt8 TextInput :=
  Format.withWrite (recordFormat 2 <|
    ((field "header" InputHeader.format).pair (field "text" textFormat)).iso
      (fun (header, text) => some ⟨header, text⟩)
      (fun event => (event.header, event.text)) fun _ => rfl)
    encode fun event => by simp [encode, record, InputHeader.format]

def ImeComposition.format : Format UInt8 ImeComposition :=
  Format.withWrite (recordFormat 3 <|
    ((field "header" InputHeader.format).pair <| (field "text" textFormat).pair <|
        field "caret" uintFormat).iso
      (fun (header, text, caret) => some ⟨header, text, caret⟩)
      (fun event => (event.header, event.text, event.caret)) fun _ => rfl)
    encode fun event => by simp [encode, record, InputHeader.format]

end Wire

def ClipboardData.format : Format UInt8 ClipboardData :=
  Format.withWrite (recordFormat 4 <|
    ((field "request_id" uintFormat).pair <| (field "namespace" FormatNamespace.format).pair <|
        (field "format_id" textFormat).pair <| field "data" bytesFormat).iso
      (fun (requestId, ns, formatId, data) => some ⟨requestId, ns, formatId, data⟩)
      (fun response => (response.requestId, response.ns, response.formatId, response.data))
      fun _ => rfl)
    encode fun response => by simp [encode, record, FormatNamespace.format]

def ClipboardError.format : Format UInt8 ClipboardError :=
  Format.withWrite (recordFormat 2 <|
    ((field "request_id" uintFormat).pair (field "reason" ReasonCode.format)).iso
      (fun (requestId, reason) => some ⟨requestId, reason⟩)
      (fun error => (error.requestId, error.reason)) fun _ => rfl)
    encode fun error => by simp [encode, record, ReasonCode.format]

def FileChunk.format : Format UInt8 FileChunk :=
  Format.withWrite (recordFormat 3 <|
    ((field "offset" uintFormat).pair <| (field "length" uintFormat).pair <|
        field "data" bytesFormat).iso
      (fun (offset, length, data) => some ⟨offset, length, data⟩)
      (fun chunk => (chunk.offset, chunk.length, chunk.data)) fun _ => rfl)
    encode fun chunk => by simp [encode, record]

/-! ## Messages -/

/-- A message of a stream of data; the payload of a frame is the bytes themselves. -/
inductive StreamMessage
  | textInput (event : Wire.TextInput)
  | imeComposition (event : Wire.ImeComposition)
  | videoStreamGeneration (message : Wire.VideoStreamGeneration)
  | encoderConfig (config : Wire.EncoderConfig)
  | videoFrameHeader (header : Wire.VideoFrameHeader)
  | videoFramePayload (payload : List UInt8)
  | audioConfig (config : Wire.AudioConfig)
  | audioFrameHeader (header : Wire.AudioFrameHeader)
  | audioFramePayload (payload : List UInt8)
  | clipboardData (response : ClipboardData)
  | clipboardError (error : ClipboardError)
  | fileChunk (chunk : FileChunk)

namespace StreamMessage

/-- The envelope of a message. -/
def envelope : StreamMessage → UInt16 × List UInt8
  | textInput event => (TypeId.TEXT_INPUT, event.encode)
  | imeComposition event => (TypeId.IME_COMPOSITION, event.encode)
  | videoStreamGeneration message => (TypeId.VIDEO_STREAM_GENERATION, message.encode)
  | encoderConfig config => (TypeId.ENCODER_CONFIG, config.encode)
  | videoFrameHeader header => (TypeId.VIDEO_FRAME_HEADER, header.encode)
  | videoFramePayload payload => (TypeId.VIDEO_FRAME_PAYLOAD, payload)
  | audioConfig config => (TypeId.AUDIO_CONFIG, config.encode)
  | audioFrameHeader header => (TypeId.AUDIO_FRAME_HEADER, header.encode)
  | audioFramePayload payload => (TypeId.AUDIO_FRAME_PAYLOAD, payload)
  | clipboardData response => (TypeId.CLIPBOARD_DATA, response.encode)
  | clipboardError error => (TypeId.CLIPBOARD_ERROR, error.encode)
  | fileChunk chunk => (TypeId.FILE_CHUNK, chunk.encode)

/-- The numbers of the message are of 64 bits, and so are the lengths of its strings. -/
def Fits : StreamMessage → Prop
  | textInput event => Wire.TextInput.format.Fits event
  | imeComposition event => Wire.ImeComposition.format.Fits event
  | videoStreamGeneration message => Wire.VideoStreamGeneration.format.Fits message
  | encoderConfig config => Wire.EncoderConfig.format.Fits config
  | videoFrameHeader header => Wire.VideoFrameHeader.format.Fits header
  | audioConfig config => Wire.AudioConfig.format.Fits config
  | audioFrameHeader header => Wire.AudioFrameHeader.format.Fits header
  | clipboardData response => ClipboardData.format.Fits response
  | clipboardError error => ClipboardError.format.Fits error
  | fileChunk chunk => FileChunk.format.Fits chunk
  | videoFramePayload _ | audioFramePayload _ => True

/-- How the body is read back, by the type of the envelope. -/
def readers : List (UInt16 × (List UInt8 → Option StreamMessage)) :=
  [(TypeId.TEXT_INPUT, fun body => (Wire.TextInput.format.readWhole body).map textInput),
    (TypeId.IME_COMPOSITION,
      fun body => (Wire.ImeComposition.format.readWhole body).map imeComposition),
    (TypeId.VIDEO_STREAM_GENERATION,
      fun body => (Wire.VideoStreamGeneration.format.readWhole body).map videoStreamGeneration),
    (TypeId.ENCODER_CONFIG,
      fun body => (Wire.EncoderConfig.format.readWhole body).map encoderConfig),
    (TypeId.VIDEO_FRAME_HEADER,
      fun body => (Wire.VideoFrameHeader.format.readWhole body).map videoFrameHeader),
    (TypeId.VIDEO_FRAME_PAYLOAD, fun body => some (videoFramePayload body)),
    (TypeId.AUDIO_CONFIG, fun body => (Wire.AudioConfig.format.readWhole body).map audioConfig),
    (TypeId.AUDIO_FRAME_HEADER,
      fun body => (Wire.AudioFrameHeader.format.readWhole body).map audioFrameHeader),
    (TypeId.AUDIO_FRAME_PAYLOAD, fun body => some (audioFramePayload body)),
    (TypeId.CLIPBOARD_DATA, fun body => (ClipboardData.format.readWhole body).map clipboardData),
    (TypeId.CLIPBOARD_ERROR, fun body => (ClipboardError.format.readWhole body).map clipboardError),
    (TypeId.FILE_CHUNK, fun body => (FileChunk.format.readWhole body).map fileChunk)]

/-- The message that an envelope is. -/
def ofEnvelope (env : UInt16 × List UInt8) : Option StreamMessage :=
  (readers.lookup env.1).bind fun read => read env.2

variable {m : StreamMessage} {ms ms' : List StreamMessage}

theorem ofEnvelope_envelope (h : m.Fits) : ofEnvelope m.envelope = some m := by
  cases m with
  | videoFramePayload | audioFramePayload => rfl
  | textInput | imeComposition | videoStreamGeneration | encoderConfig | videoFrameHeader
  | audioConfig | audioFrameHeader | clipboardData | clipboardError | fileChunk =>
    exact congrArg (Option.map _) (Format.readWhole_write h)

theorem prefix_of_envelopes (h : ∀ m ∈ ms, m.Fits) (h' : ∀ m ∈ ms', m.Fits)
    (hp : ms'.map envelope <+: ms.map envelope) : ms' <+: ms := by
  have hread {ms : List StreamMessage} (h : ∀ m ∈ ms, m.Fits) :
      (ms.map envelope).filterMap ofEnvelope = ms := by
    induction ms with
    | nil => rfl
    | cons m ms ih =>
      obtain ⟨hm, hms⟩ := List.forall_mem_cons.1 h
      rw [List.map_cons, List.filterMap_cons_some (ofEnvelope_envelope hm), ih hms]
  rw [← hread h, ← hread h']
  exact hp.filterMap ofEnvelope

/-- What is written for some messages is the beginning of what is written for others only if the
    messages are the beginning of the others: so the bytes tell the messages. -/
theorem prefix_of_bytes {bytes bytes' : List UInt8} (hfits : ∀ m ∈ ms, m.Fits)
    (hfits' : ∀ m ∈ ms', m.Fits) (h : encodeAll (ms.map envelope) [] = some bytes)
    (h' : encodeAll (ms'.map envelope) [] = some bytes') (hp : bytes' <+: bytes) : ms' <+: ms := by
  have hmax {envs : List (UInt16 × List UInt8)} {bytes : List UInt8}
      (h : encodeAll envs [] = some bytes) : ∀ env ∈ envs, env.2.length ≤ Varint.MAX :=
    encodeAll_isSome.1 (Option.isSome_of_eq_some h)
  obtain ⟨cs, rfl, hcs⟩ := encodes_of_encodeAll (hmax h) h
  obtain ⟨cs', rfl, hcs'⟩ := encodes_of_encodeAll (hmax h') h'
  have hframes := (Envelope.progressive_decoder Varint.MAX).prefix_of_flatten hcs hcs' hp
  refine prefix_of_envelopes hfits hfits' ?_
  have hback (envs : List (UInt16 × List UInt8)) :
      (envs.map fun env => (⟨env.1, env.2⟩ : Envelope)).map
        (fun env => (env.typeRaw, env.payload)) = envs := by
    rw [List.map_map]
    exact List.map_id envs
  rw [← hback (ms.map envelope), ← hback (ms'.map envelope)]
  exact hframes.map _

/-- The header of a frame, and the header before its payload. -/
theorem prefix_of_bytes_frame :
    let header := videoFrameHeader ⟨1, 0, 1, 1, 5, 6, 640, 480, 1⟩
    let payload := videoFramePayload [7]
    ∃ bytes bytes', encodeAll ([header, payload].map envelope) [] = some bytes ∧
      encodeAll ([header].map envelope) [] = some bytes' ∧ bytes' <+: bytes ∧
        [header] <+: [header, payload] := by
  intro header payload
  have hheader : header.Fits :=
    Wire.VideoFrameHeader.fits_iff.2 ⟨by decide, by decide, by decide, by decide, by decide,
      by decide, by decide, by decide, by decide⟩
  have hlength : header.envelope.2.length ≤ Varint.MAX :=
    (Wire.VideoFrameHeader.length_encode_le _).trans (by decide)
  obtain ⟨bytes', h'⟩ : ∃ bytes', encodeAll ([header].map envelope) [] = some bytes' :=
    Option.isSome_iff_exists.1 (encodeAll_isSome.2 (List.forall_mem_singleton.2 hlength))
  have h : encodeAll ([header, payload].map envelope) [] = some (bytes' ++ [1, 8, 0, 7]) := by
    have happend : encodeAll ([header].map envelope ++ [payload.envelope]) [] =
        encodeAll ([header].map envelope) [] >>= encodeAll [payload.envelope] :=
      List.foldlM_append
    rw [List.map_cons, List.map_singleton, ← List.singleton_append]
    rw [List.map_singleton] at h' happend
    have htype : Envelope.toLeBytes TypeId.VIDEO_FRAME_PAYLOAD = [8, 0] := by decide
    rw [happend, h']
    simp [encodeAll, payload, envelope, Envelope.encode, Varint.encode, Varint.MAX, htype]
  have hp : bytes' <+: bytes' ++ [1, 8, 0, 7] := List.prefix_append _ _
  exact ⟨_, _, h, h', hp, prefix_of_bytes (List.forall_mem_cons.2 ⟨hheader,
    List.forall_mem_singleton.2 trivial⟩) (List.forall_mem_singleton.2 hheader) h h' hp⟩

end StreamMessage

end Sardp
