import Sardp.Session.BodyFormats
import Sardp.Session.ControlHandshake

/-!
# What is written in a handshake

The bodies of the messages of a handshake (`messages.rs`). Keys and signatures are strings of bytes;
challenges, identifiers and tokens are arrays of numbers. Each message is a format, and reading the
bodies as they have been written is a codec (`HandshakeCodec.ofFormats`), which decodes a message to
what it was encoded from as long as its strings are not longer than CBOR can tell.
-/

namespace Sardp

open Cbor

/-! ## Items -/

/-- The bytes as an array of numbers. -/
def byteArray {n : ℕ} (v : Vector UInt8 n) : List UInt8 :=
  array (v.toList.map fun b => uint b.toNat)

/-- Arrays of so many bytes, as numbers. -/
def vectorFormat (n : ℕ) : Format UInt8 (Vector UInt8 n) :=
  (arrayFormat byteFormat).iso (tryInto n) Vector.toList tryInto_toList

@[simp] theorem write_vectorFormat {n : ℕ} (v : Vector UInt8 n) :
    (vectorFormat n).write v = byteArray v := rfl

theorem fits_vectorFormat {n : ℕ} (hn : n < 2 ^ 64) (v : Vector UInt8 n) :
    (vectorFormat n).Fits v := by
  refine ⟨Vector.length_toList.trans_lt hn, fun b _ => ?_⟩
  exact b.toNat_lt.trans (by decide)

/-- Capabilities as an array of numbers. -/
def encodeCapabilities (capabilities : List UInt16) : List UInt8 :=
  array (capabilities.map fun id => uint id.toNat)

def capabilitiesFormat : Format UInt8 (List UInt16) :=
  arrayFormat (uintFormat.iso (fun n => some (UInt16.ofNat n)) UInt16.toNat fun n => by simp)

@[simp] theorem write_capabilitiesFormat : capabilitiesFormat.write = encodeCapabilities := rfl

/-- A set of permissions as a number. -/
def permissionSetFormat : Format UInt8 PermissionSet :=
  uintFormat.iso (fun n => some (BitVec.ofNat 32 n)) BitVec.toNat fun s => by simp

/-- The name of a case. -/
def AuthMethod.name : AuthMethod → String
  | publicKey => "PublicKey"
  | passkey => "Passkey"
  | password => "Password"
  | totp => "Totp"

/-- The case with a name. -/
def AuthMethod.ofName (name : String) : Option AuthMethod :=
  [publicKey, passkey, password, totp].find? fun method => method.name = name

/-- The names of ways to authenticate, as an array. -/
def AuthMethod.encodeAll (methods : List AuthMethod) : List UInt8 :=
  array (methods.map fun method => text method.name)

def AuthMethod.listFormat : Format UInt8 (List AuthMethod) :=
  arrayFormat (caseFormat name ofName fun method => by cases method <;> rfl)

@[simp] theorem AuthMethod.write_listFormat : listFormat.write = encodeAll := rfl

def AuthCombination.encode (combination : AuthCombination) : List UInt8 :=
  record [("methods", AuthMethod.encodeAll combination.methods),
    ("priority", uint combination.priority.toNat)]

def AuthCombination.format : Format UInt8 AuthCombination :=
  Format.withWrite (recordFormat 2 <|
    ((field "methods" AuthMethod.listFormat).pair (field "priority" byteFormat)).iso
      (fun (methods, priority) => some ⟨methods, priority⟩)
      (fun combination => (combination.methods, combination.priority)) fun _ => rfl)
    encode fun combination => by simp [encode, record, byteFormat]

def AuthPolicy.encode (policy : AuthPolicy) : List UInt8 :=
  record [("accepted_combinations", array (policy.acceptedCombinations.map AuthCombination.encode))]

def AuthPolicy.format : Format UInt8 AuthPolicy :=
  Format.withWrite (recordFormat 1 <|
    (field "accepted_combinations" (arrayFormat AuthCombination.format)).iso
      (fun combinations => some ⟨combinations⟩) acceptedCombinations fun _ => rfl)
    encode fun policy => by simp [encode, record, AuthCombination.format]

@[simp] theorem AuthPolicy.write_format : format.write = encode := rfl

/-! ## The messages -/

def ClientHello.encode (hello : ClientHello) : List UInt8 :=
  record [("client_name", text hello.clientName), ("client_version", text hello.clientVersion),
    ("capabilities", encodeCapabilities hello.capabilities),
    ("auth_methods", AuthMethod.encodeAll hello.authMethods)]

theorem ClientHello.length_encode (hello : ClientHello) : hello.encode.length =
    54 + headLen hello.clientName.utf8ByteSize + hello.clientName.utf8ByteSize +
      headLen hello.clientVersion.utf8ByteSize + hello.clientVersion.utf8ByteSize +
      (encodeCapabilities hello.capabilities).length +
      (AuthMethod.encodeAll hello.authMethods).length := by
  rw [encode, length_record (k := 54) rfl]
  simp only [List.map_cons, List.map_nil, List.sum_cons, List.sum_nil, length_text]
  omega

def ClientHello.format : Format UInt8 ClientHello :=
  Format.withWrite (recordFormat 4 <|
    ((field "client_name" textFormat).pair <| (field "client_version" textFormat).pair <|
        (field "capabilities" capabilitiesFormat).pair <|
        field "auth_methods" AuthMethod.listFormat).iso
      (fun (clientName, clientVersion, capabilities, authMethods) =>
        some ⟨clientName, clientVersion, capabilities, authMethods⟩)
      (fun hello => (hello.clientName, hello.clientVersion, hello.capabilities,
        hello.authMethods)) fun _ => rfl)
    encode fun hello => by simp [encode, record]

def ServerHello.encode (hello : ServerHello) : List UInt8 :=
  record [("server_name", text hello.serverName), ("server_version", text hello.serverVersion),
    ("capabilities", encodeCapabilities hello.capabilities),
    ("auth_policy", hello.authPolicy.encode), ("auth_challenge", byteArray hello.authChallenge)]

def ServerHello.format : Format UInt8 ServerHello :=
  Format.withWrite (recordFormat 5 <|
    ((field "server_name" textFormat).pair <| (field "server_version" textFormat).pair <|
        (field "capabilities" capabilitiesFormat).pair <|
        (field "auth_policy" AuthPolicy.format).pair <|
        field "auth_challenge" (vectorFormat 32)).iso
      (fun (serverName, serverVersion, capabilities, authPolicy, authChallenge) =>
        some ⟨serverName, serverVersion, capabilities, authPolicy, authChallenge⟩)
      (fun hello => (hello.serverName, hello.serverVersion, hello.capabilities,
        hello.authPolicy, hello.authChallenge)) fun _ => rfl)
    encode fun hello => by simp [encode, record]

def AuthPubkey.encode (authPubkey : AuthPubkey) : List UInt8 :=
  record [("user_id", text authPubkey.userId), ("device_id", text authPubkey.deviceId),
    ("public_key", bytes authPubkey.publicKey), ("signature", bytes authPubkey.signature)]

theorem AuthPubkey.length_encode (authPubkey : AuthPubkey) : authPubkey.encode.length =
    40 + headLen authPubkey.userId.utf8ByteSize + authPubkey.userId.utf8ByteSize +
      headLen authPubkey.deviceId.utf8ByteSize + authPubkey.deviceId.utf8ByteSize +
      headLen authPubkey.publicKey.length + authPubkey.publicKey.length +
      headLen authPubkey.signature.length + authPubkey.signature.length := by
  rw [encode, length_record (k := 40) rfl]
  simp only [List.map_cons, List.map_nil, List.sum_cons, List.sum_nil, length_text, length_bytes]
  omega

def AuthPubkey.format : Format UInt8 AuthPubkey :=
  Format.withWrite (recordFormat 4 <|
    ((field "user_id" textFormat).pair <| (field "device_id" textFormat).pair <|
        (field "public_key" bytesFormat).pair <| field "signature" bytesFormat).iso
      (fun (userId, deviceId, publicKey, signature) =>
        some ⟨userId, deviceId, publicKey, signature⟩)
      (fun authPubkey => (authPubkey.userId, authPubkey.deviceId, authPubkey.publicKey,
        authPubkey.signature)) fun _ => rfl)
    encode fun authPubkey => by simp [encode, record]

/-- The name of a case. -/
def AuthStatus.name : AuthStatus → String
  | ok => "Ok"
  | mfaRequired => "MfaRequired"
  | denied => "Denied"

/-- The case with a name. -/
def AuthStatus.ofName (name : String) : Option AuthStatus :=
  [ok, mfaRequired, denied].find? fun status => status.name = name

def AuthResult.encode (result : AuthResult) : List UInt8 :=
  record [("status", text result.status.name), ("reason", result.reason.encode),
    ("session_id", byteArray result.sessionId),
    ("reconnect_token", byteArray result.reconnectToken),
    ("granted_permissions", uint result.grantedPermissions.toNat)]

def AuthResult.format : Format UInt8 AuthResult :=
  Format.withWrite (recordFormat 5 <|
    ((field "status" (caseFormat AuthStatus.name AuthStatus.ofName
          fun status => by cases status <;> rfl)).pair <|
        (field "reason" ReasonCode.format).pair <| (field "session_id" (vectorFormat 16)).pair <|
        (field "reconnect_token" (vectorFormat 32)).pair <|
        field "granted_permissions" permissionSetFormat).iso
      (fun (status, reason, sessionId, reconnectToken, grantedPermissions) =>
        some ⟨status, reason, sessionId, reconnectToken, grantedPermissions⟩)
      (fun result => (result.status, result.reason, result.sessionId, result.reconnectToken,
        result.grantedPermissions)) fun _ => rfl)
    encode fun result => by simp [encode, record, ReasonCode.format, permissionSetFormat]

/-- The name of a case. -/
def ReauthenticateReason.name : ReauthenticateReason → String
  | reconnect => "Reconnect"
  | permissionRefresh => "PermissionRefresh"

/-- The case with a name. -/
def ReauthenticateReason.ofName (name : String) : Option ReauthenticateReason :=
  [reconnect, permissionRefresh].find? fun reason => reason.name = name

def SessionReauthenticate.encode (message : SessionReauthenticate) : List UInt8 :=
  record [("reason", text message.reason.name),
    ("prior_session_id", byteArray message.priorSessionId),
    ("reconnect_token", byteArray message.reconnectToken)]

def SessionReauthenticate.format : Format UInt8 SessionReauthenticate :=
  Format.withWrite (recordFormat 3 <|
    ((field "reason" (caseFormat ReauthenticateReason.name ReauthenticateReason.ofName
          fun reason => by cases reason <;> rfl)).pair <|
        (field "prior_session_id" (vectorFormat 16)).pair <|
        field "reconnect_token" (vectorFormat 32)).iso
      (fun (reason, priorSessionId, reconnectToken) =>
        some ⟨reason, priorSessionId, reconnectToken⟩)
      (fun message => (message.reason, message.priorSessionId, message.reconnectToken))
      fun _ => rfl)
    encode fun message => by simp [encode, record]

/-! ## The codec -/

/-- Reading the bodies of a format as they have been written. -/
def BodyCodec.ofFormat {M : Type} (f : Format UInt8 M) : BodyCodec M where
  encode := f.write
  decode := f.readWhole

theorem BodyCodec.faithful_ofFormat {M : Type} {f : Format UInt8 M} {m : M} (h : f.Fits m) :
    (ofFormat f).Faithful m :=
  Format.readWhole_write h

/-- Reading the bodies as they have been written. -/
def HandshakeCodec.ofFormats : HandshakeCodec where
  clientHello := .ofFormat ClientHello.format
  serverHello := .ofFormat ServerHello.format
  authPubkey := .ofFormat AuthPubkey.format
  authResult := .ofFormat AuthResult.format
  sessionReauthenticate := .ofFormat SessionReauthenticate.format

end Sardp
