import Mathlib.Data.Int.Notation
import Mathlib.Data.Nat.Notation
import Mathlib.Tactic.TypeStar

/-!
# Messages

The messages of the control, feedback, clipboard, file and input streams (`messages.rs`), as
far as the model reads them, and the reason codes they carry (`reason_code.rs`). Their
bodies are encoded by a library outside the repository, so the model has them decoded.
-/

namespace Sardp

/-! ## Reason codes -/

/-- The domains of reason codes. -/
inductive ReasonDomain
  | none
  | auth
  | policy
  | transport
  | protocol
  | os
  deriving DecidableEq, Repr

/-- A reason code: a domain, and a code within it. -/
structure ReasonCode where
  domain : ReasonDomain
  code : ℕ
  deriving DecidableEq, Repr

namespace ReasonCode

/-- No error. -/
def NONE : ReasonCode := ⟨.none, 0⟩

def AUTH_TOO_MANY_ATTEMPTS : ReasonCode := ⟨.auth, 2⟩
def AUTH_SIGNATURE_INVALID : ReasonCode := ⟨.auth, 3⟩
def AUTH_RECONNECT_TOKEN_INVALID : ReasonCode := ⟨.auth, 5⟩
def POLICY_PERMISSION_DENIED : ReasonCode := ⟨.policy, 1⟩
def POLICY_PERMISSION_REVOKED : ReasonCode := ⟨.policy, 2⟩
def POLICY_FILE_POLICY_REJECTED : ReasonCode := ⟨.policy, 5⟩
def POLICY_CLIPBOARD_FORMAT_TOO_LARGE : ReasonCode := ⟨.policy, 6⟩
def TRANSPORT_STREAM_STALL_TIMEOUT : ReasonCode := ⟨.transport, 5⟩
def PROTOCOL_UNEXPECTED_MESSAGE : ReasonCode := ⟨.protocol, 1⟩
def PROTOCOL_SESSION_SETUP_TIMEOUT : ReasonCode := ⟨.protocol, 6⟩
def PROTOCOL_VIDEO_CONFIGURING_TIMEOUT : ReasonCode := ⟨.protocol, 7⟩
def PROTOCOL_FILE_CHUNK_OVERLAP : ReasonCode := ⟨.protocol, 10⟩
def PROTOCOL_FILE_CHUNK_OUT_OF_RANGE : ReasonCode := ⟨.protocol, 11⟩
def PROTOCOL_FILE_INCOMPLETE_TRANSFER : ReasonCode := ⟨.protocol, 12⟩
def PROTOCOL_FILE_CHECKSUM_MISMATCH : ReasonCode := ⟨.protocol, 13⟩

end ReasonCode

/-- What a state machine refuses an operation with. -/
structure ProtocolViolation where
  reason : ReasonCode
  deriving DecidableEq, Repr

/-! ## Types of messages -/

namespace TypeId

def CLIENT_HELLO : UInt16 := 0x0001
def SERVER_HELLO : UInt16 := 0x0002
def AUTH_PUBKEY : UInt16 := 0x0003
def CLIPBOARD_FORMATS : UInt16 := 0x0011
def FILE_CHUNK : UInt16 := 0x0018
def FILE_TRANSFER_COMPLETE : UInt16 := 0x0019

end TypeId

/-! ## Sessions -/

/-- A session identifier, 16 bytes. -/
abbrev SessionId := Vector UInt8 16

/-- A reconnect token, 32 bytes. -/
abbrev ReconnectToken := Vector UInt8 32

/-- A set of permissions, one a bit. -/
abbrev PermissionSet := BitVec 32

/-- What an authentication led to. -/
inductive AuthStatus
  | ok
  | mfaRequired
  | denied
  deriving DecidableEq

/-- The answer to an authentication. -/
structure AuthResult where
  status : AuthStatus
  reason : ReasonCode
  sessionId : SessionId
  reconnectToken : ReconnectToken
  grantedPermissions : PermissionSet

/-- Why a client authenticates again. -/
inductive ReauthenticateReason
  | reconnect
  | permissionRefresh
  deriving DecidableEq

/-- The request to resume a suspended session. -/
structure SessionReauthenticate where
  reason : ReauthenticateReason
  priorSessionId : SessionId
  reconnectToken : ReconnectToken

/-- A change of the permissions. -/
structure PermissionUpdate where
  /-- The permissions in effect from now on. -/
  grantedPermissions : PermissionSet
  /-- The permissions removed that must end at once, even for operations in progress. -/
  immediateRevoke : PermissionSet
  deriving DecidableEq

/-! ## Feedback -/

/-- Why a client asks for a keyframe. -/
inductive KeyframeReason
  | decodeError
  | reconnect
  | manual
  deriving DecidableEq

/-- The request for a keyframe. -/
structure KeyframeRequest where
  reason : KeyframeReason

/-! ## The clipboard -/

/-- What names a clipboard format. -/
inductive FormatNamespace
  | mime
  | win32
  | macosUti
  deriving DecidableEq

/-- A clipboard format. -/
structure ClipboardFormatEntry where
  ns : FormatNamespace
  formatId : String
  deriving DecidableEq

/-- The formats a clipboard can be had in. -/
structure ClipboardFormats where
  requestId : ℕ
  formats : List ClipboardFormatEntry
  deriving DecidableEq

/-- The request for the clipboard in one of its formats. -/
structure ClipboardRequest where
  requestId : ℕ
  ns : FormatNamespace
  formatId : String
  deriving DecidableEq

/-- The clipboard in a format. -/
structure ClipboardData where
  requestId : ℕ
  ns : FormatNamespace
  formatId : String
  data : List UInt8
  deriving DecidableEq

/-- The refusal of a request. -/
structure ClipboardError where
  requestId : ℕ
  reason : ReasonCode
  deriving DecidableEq

/-! ## File transfers -/

/-- The direction of a file transfer, as the client sees it. -/
inductive FileTransferDirection
  | upload
  | download
  deriving DecidableEq

/-- The request for a file transfer. -/
structure FileTransferRequest where
  requestId : ℕ
  direction : FileTransferDirection
  virtualPath : String
  /-- What the client says the size is. -/
  declaredSize : ℕ
  deriving DecidableEq

/-- The answer to an accepted request. -/
structure FileTransferAccept where
  requestId : ℕ
  fileHandle : ℕ
  resolvedSize : ℕ
  expiryTs : ℕ
  deriving DecidableEq

/-- The answer to a refused request. -/
structure FileTransferReject where
  requestId : ℕ
  reason : ReasonCode
  deriving DecidableEq

/-- A piece of a file. -/
structure FileChunk where
  offset : ℕ
  /-- The length of the data, checked against it. -/
  length : ℕ
  data : List UInt8
  deriving DecidableEq

/-- The end of a file, with the checksum of the whole. -/
structure FileTransferComplete where
  checksum : List UInt8
  deriving DecidableEq

/-- The failure of a file transfer. -/
structure FileTransferError where
  fileHandle : ℕ
  reason : ReasonCode
  deriving DecidableEq

/-! ## Input -/

/-- What every input event has: its number on the stream. -/
structure InputHeader where
  eventId : ℕ
  deriving DecidableEq

/-- The modifiers held with a key, one a bit. -/
abbrev KeyModifiers := BitVec 16

namespace KeyModifier

def SHIFT : KeyModifiers := 1 <<< 0
def CTRL : KeyModifiers := 1 <<< 1
def ALT : KeyModifiers := 1 <<< 2
def META : KeyModifiers := 1 <<< 3

end KeyModifier

/-- A physical key going down or up. -/
structure KeyEvent where
  header : InputHeader
  down : Bool
  /-- The key, as its HID usage. -/
  scancode : ℕ
  logicalKey : ℕ
  modifiers : KeyModifiers
  deriving DecidableEq

/-- Text that has been entered. -/
structure TextInput where
  header : InputHeader
  text : String
  deriving DecidableEq

/-- Text that is being composed. -/
structure ImeComposition where
  header : InputHeader
  text : String
  caret : ℕ
  deriving DecidableEq

/-- The pointer going to a position. -/
structure MouseMove where
  header : InputHeader
  x : ℤ
  y : ℤ
  deriving DecidableEq

/-- A button going down or up at a position. -/
structure MouseButton where
  header : InputHeader
  button : ℕ
  down : Bool
  x : ℤ
  y : ℤ
  deriving DecidableEq

/-- The wheel turning. -/
structure Wheel where
  header : InputHeader
  dx : ℤ
  dy : ℤ
  isPrecise : Bool
  deriving DecidableEq

/-- Where text is composed. -/
inductive ImeMode
  | clientSide
  | remoteSide
  deriving DecidableEq

/-- The announcement of a mode, for the events after one. -/
structure ImeModeChange where
  mode : ImeMode
  effectiveAfterEventId : ℕ
  deriving DecidableEq

/-- A message of the input stream. -/
inductive InputMessage
  | key (key : KeyEvent)
  | text (text : TextInput)
  | imeComposition (composition : ImeComposition)
  | mouseMove (m : MouseMove)
  | mouseButton (b : MouseButton)
  | wheel (w : Wheel)
  | imeModeChange (change : ImeModeChange)
  deriving DecidableEq

end Sardp
