import Sardp.Library.Cbor
import Sardp.Wire.FrameMessages

/-!
# The bodies of messages

A message is written as a CBOR map of its fields by name (`messages.rs`): a field that is a message
is a map within the map, an enumeration is the name of its case. How long a body is follows field by
field (`Cbor.length_record`).
-/

namespace Sardp

open Cbor

namespace Wire

/-- What every message of input starts with, in full. -/
structure InputHeader where
  eventId : ℕ
  clientTs : ℕ
  deriving DecidableEq

/-- Text that has been entered, in full. -/
structure TextInput where
  header : InputHeader
  text : String
  deriving DecidableEq

/-- Text that is being composed, in full. -/
structure ImeComposition where
  header : InputHeader
  text : String
  /-- Where the caret is in the text. -/
  caret : ℕ
  deriving DecidableEq

def InputHeader.encode (header : InputHeader) : List UInt8 :=
  record [("event_id", uint header.eventId), ("client_ts", uint header.clientTs)]

def TextInput.encode (event : TextInput) : List UInt8 :=
  record [("header", event.header.encode), ("text", Cbor.text event.text)]

def ImeComposition.encode (event : ImeComposition) : List UInt8 :=
  record [("header", event.header.encode), ("text", Cbor.text event.text),
    ("caret", uint event.caret)]

def VideoFrameHeader.encode (header : VideoFrameHeader) : List UInt8 :=
  record [("generation", uint header.generation), ("frame_id", uint header.frameId),
    ("config_id", uint header.configId), ("flags", uint header.flags.toNat),
    ("capture_ts", uint header.captureTs), ("encode_done_ts", uint header.encodeDoneTs),
    ("width", uint header.width), ("height", uint header.height),
    ("payload_len", uint header.payloadLen)]

def AudioFrameHeader.encode (header : AudioFrameHeader) : List UInt8 :=
  record [("sequence", uint header.sequence), ("capture_ts", uint header.captureTs),
    ("duration_us", uint header.durationUs), ("payload_len", uint header.payloadLen)]

end Wire

/-- The number of a domain. -/
def ReasonDomain.toByte : ReasonDomain → UInt8
  | none => 0
  | auth => 1
  | policy => 2
  | transport => 3
  | protocol => 4
  | os => 5

def ReasonCode.encode (reason : ReasonCode) : List UInt8 :=
  record [("domain", uint reason.domain.toByte.toNat), ("code", uint reason.code)]

/-- The name of a case. -/
def FormatNamespace.name : FormatNamespace → String
  | mime => "Mime"
  | win32 => "Win32"
  | macosUti => "MacosUti"

def ClipboardData.encode (response : ClipboardData) : List UInt8 :=
  record [("request_id", uint response.requestId), ("namespace", Cbor.text response.ns.name),
    ("format_id", Cbor.text response.formatId), ("data", bytes response.data)]

def ClipboardError.encode (error : ClipboardError) : List UInt8 :=
  record [("request_id", uint error.requestId), ("reason", error.reason.encode)]

def FileChunk.encode (chunk : FileChunk) : List UInt8 :=
  record [("offset", uint chunk.offset), ("length", uint chunk.length), ("data", bytes chunk.data)]

/-! ## The lengths of bodies -/

theorem Wire.InputHeader.length_encode (header : InputHeader) :
    header.encode.length = 20 + headLen header.eventId + headLen header.clientTs := by
  rw [encode, length_record (k := 20) rfl]
  simp [Nat.add_assoc]

theorem Wire.TextInput.length_encode (event : TextInput) : event.encode.length =
    33 + headLen event.header.eventId + headLen event.header.clientTs +
      headLen event.text.utf8ByteSize + event.text.utf8ByteSize := by
  rw [encode, length_record (k := 13) rfl]
  simp only [List.map_cons, List.map_nil, List.sum_cons, List.sum_nil, InputHeader.length_encode,
    length_text]
  omega

theorem Wire.ImeComposition.length_encode (event : ImeComposition) : event.encode.length =
    39 + headLen event.header.eventId + headLen event.header.clientTs + headLen event.caret +
      headLen event.text.utf8ByteSize + event.text.utf8ByteSize := by
  rw [encode, length_record (k := 19) rfl]
  simp only [List.map_cons, List.map_nil, List.sum_cons, List.sum_nil, InputHeader.length_encode,
    length_text, length_uint]
  omega

theorem ClipboardData.length_encode (response : ClipboardData) : response.encode.length =
    38 + headLen response.requestId + response.ns.name.utf8ByteSize +
      headLen response.formatId.utf8ByteSize + response.formatId.utf8ByteSize +
        headLen response.data.length + response.data.length := by
  have hname : headLen response.ns.name.utf8ByteSize = 1 := by cases response.ns <;> rfl
  rw [encode, length_record (k := 37) rfl]
  simp only [List.map_cons, List.map_nil, List.sum_cons, List.sum_nil, length_text, length_uint,
    length_bytes, hname]
  omega

theorem FileChunk.length_encode (chunk : FileChunk) : chunk.encode.length =
    20 + headLen chunk.offset + headLen chunk.length + headLen chunk.data.length +
      chunk.data.length := by
  rw [encode, length_record (k := 20) rfl]
  simp only [List.map_cons, List.map_nil, List.sum_cons, List.sum_nil, length_uint, length_bytes]
  omega

theorem Wire.VideoFrameHeader.length_encode_le (header : VideoFrameHeader) :
    header.encode.length ≤ 169 :=
  length_record_le (k := 88) (m := 9) rfl (by simp [headLen_le])

theorem Wire.AudioFrameHeader.length_encode_le (header : AudioFrameHeader) :
    header.encode.length ≤ 81 :=
  length_record_le (k := 45) (m := 9) rfl (by simp [headLen_le])

theorem ReasonCode.length_encode_le (reason : ReasonCode) : reason.encode.length ≤ 31 :=
  length_record_le (k := 13) (m := 9) rfl (by simp [headLen_le])

theorem ClipboardError.length_encode_le (error : ClipboardError) : error.encode.length ≤ 81 := by
  refine length_record_le (k := 19) (m := 31) rfl ?_
  have hrequestId := headLen_le error.requestId
  simp [error.reason.length_encode_le]
  omega

end Sardp
