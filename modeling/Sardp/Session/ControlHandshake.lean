import Sardp.Session.Handshake
import Sardp.Wire.Contents
import Sardp.Wire.Pieces

/-!
# The handshake on the control stream

Both sides of a handshake (`handshake.rs`, `auth.rs`), as functions that read the envelopes of the
control stream and write to it. What encodes the bodies of the messages, and the cryptography, are
libraries outside the repository (`HandshakeCodec`, `Crypto`).

The server's side gives what `Sardp.serverHandshakeFromClientHello` gives on what it meets
(`serverHandshakeFromClientHello_exec`).
-/

namespace Sardp

open Framing

namespace TypeId

def AUTH_RESULT : UInt16 := 0x0004
def SESSION_REAUTHENTICATE : UInt16 := 0x000E

end TypeId

/-! ## The messages -/

/-- The ways to authenticate. -/
inductive AuthMethod
  | publicKey
  | passkey
  | password
  | totp
  deriving DecidableEq

/-- Ways to authenticate that are enough together. -/
structure AuthCombination where
  methods : List AuthMethod
  priority : UInt8
  deriving DecidableEq

/-- What the server takes for an authentication. -/
structure AuthPolicy where
  acceptedCombinations : List AuthCombination
  deriving DecidableEq

/-- The first message of a client. -/
structure ClientHello where
  clientName : String
  clientVersion : String
  capabilities : List UInt16
  authMethods : List AuthMethod
  deriving DecidableEq

/-- The first message of the server. -/
structure ServerHello where
  serverName : String
  serverVersion : String
  capabilities : List UInt16
  authPolicy : AuthPolicy
  /-- For one authentication only. -/
  authChallenge : Vector UInt8 32
  deriving DecidableEq

/-- The signature of a client. -/
structure AuthPubkey where
  userId : String
  deviceId : String
  publicKey : List UInt8
  signature : List UInt8
  deriving DecidableEq

/-- What the library makes of the bodies of a message. -/
structure BodyCodec (M : Type) where
  encode : M → List UInt8
  decode : List UInt8 → Option M

/-- The body of the message is decoded to the message. -/
def BodyCodec.Faithful {M : Type} (codec : BodyCodec M) (m : M) : Prop :=
  codec.decode (codec.encode m) = some m

/-- What the library makes of the bodies of the messages of a handshake. -/
structure HandshakeCodec where
  clientHello : BodyCodec ClientHello
  serverHello : BodyCodec ServerHello
  authPubkey : BodyCodec AuthPubkey
  authResult : BodyCodec AuthResult
  sessionReauthenticate : BodyCodec SessionReauthenticate

/-! ## The cryptography -/

/-- The libraries of hashing, of the connections and of signing. -/
structure Crypto where
  sha256 : List UInt8 → Vector UInt8 32
  /-- A connection, which both of its ends share the secrets of. -/
  Connection : Type
  /-- 32 bytes that depend on the secrets, a label and a context. -/
  exportKeyingMaterial : Connection → List UInt8 → List UInt8 → Option (Vector UInt8 32)
  SigningKey : Type
  VerifyingKey : Type
  verifyingKey : SigningKey → VerifyingKey
  asBytes : VerifyingKey → Vector UInt8 32
  fromBytes : Vector UInt8 32 → Option VerifyingKey
  sign : SigningKey → Vector UInt8 32 → Vector UInt8 64
  verify : VerifyingKey → Vector UInt8 32 → Vector UInt8 64 → Bool

/-- What a context begins with. -/
def CONTEXT_PREFIX : List UInt8 := "SARDP-auth-v1".toUTF8.data.toList

/-- The label of what is exported. -/
def EXPORTER_LABEL : List UInt8 := "EXPORTER-SARDP-auth-v1".toUTF8.data.toList

/-- The bytes as an array of the length, if that is their number. -/
def tryInto (n : ℕ) (bytes : List UInt8) : Option (Vector UInt8 n) :=
  if h : bytes.length = n then some ⟨bytes.toArray, h⟩ else none

@[simp] theorem tryInto_toList {n : ℕ} (v : Vector UInt8 n) : tryInto n v.toList = some v := by
  rw [tryInto, dif_pos Vector.length_toList]
  rfl

theorem tryInto_eq_some {n : ℕ} {bytes : List UInt8} {v : Vector UInt8 n} :
    tryInto n bytes = some v ↔ bytes = v.toList := by
  constructor
  · intro h
    rw [tryInto] at h
    split_ifs at h
    cases h
    rfl
  · rintro rfl
    exact tryInto_toList v

namespace Crypto

variable (crypto : Crypto)

/-- What binds a signature to the hellos and the challenge. -/
def channelBindingContext (clientHelloBytes serverHelloBytes : List UInt8)
    (authChallenge : Vector UInt8 32) : List UInt8 :=
  CONTEXT_PREFIX ++ (crypto.sha256 clientHelloBytes).toList ++
    (crypto.sha256 serverHelloBytes).toList ++ authChallenge.toList

/-- What is signed: what the connection exports for the context. -/
def computeExporter (connection : crypto.Connection) (context : List UInt8) :
    Except AuthError (Vector UInt8 32) :=
  (crypto.exportKeyingMaterial connection EXPORTER_LABEL context).elim
    (.error .exportKeyingMaterialFailed) .ok

def signExporter (signingKey : crypto.SigningKey) (exporter : Vector UInt8 32) : List UInt8 :=
  (crypto.sign signingKey exporter).toList

/-- Whether the signature is one of the key; whether the key is trusted is not asked. -/
def verifyExporter (publicKeyBytes : List UInt8) (exporter : Vector UInt8 32)
    (signatureBytes : List UInt8) : Except AuthError Unit :=
  match tryInto 32 publicKeyBytes with
  | none => .error .signatureInvalid
  | some publicKeyArray =>
    match crypto.fromBytes publicKeyArray with
    | none => .error .signatureInvalid
    | some verifyingKey =>
      match tryInto 64 signatureBytes with
      | none => .error .signatureInvalid
      | some signature =>
        if crypto.verify verifyingKey exporter signature then .ok () else .error .signatureInvalid

end Crypto

/-! ## Reading and writing -/

/-- A function that reads envelopes of the control stream, and writes pieces of it. -/
abbrev Control (α : Type) := Async (List Piece) EnvelopeRead HandshakeError α

namespace Control

/-- Reading the envelopes of a control stream. -/
abbrev decoder : Decoder UInt8 Envelope Envelope.EnvelopeError :=
  Envelope.decoder StreamKind.control.maxEnvelopeLength

/-- Writing a piece, with what becomes of it. -/
def write (written : Except Quinn.WriteError Unit) (piece : Piece) : Control Unit :=
  match written with
  | .error e => Async.throw (.write e)
  | .ok () => .get fun out => .set (out ++ [piece]) (pure ())

/-- Writing a piece within the time for it, with what becomes of it; `none` when the time is
    up. -/
def writeWithin (elapsed : HandshakeError) (written : Option (Except Quinn.WriteError Unit))
    (piece : Piece) : Control Unit :=
  match written with
  | none => Async.throw elapsed
  | some written => write written piece

/-- Reading an envelope, if it arrives within the time for it. -/
def readWithin (elapsed : HandshakeError) (inTime : Bool) : Control (UInt16 × List UInt8) :=
  if inTime then readEnvelope .read else Async.throw elapsed

/-- What does not wait, and may be a violation of the protocol. -/
def advance {α : Type} (result : Except ProtocolViolation α) : Control α :=
  ofExcept (result.mapError fun v => .protocolViolation v.reason)

/-- The message that a payload is decoded to. -/
def decode {M : Type} (codec : BodyCodec M) (payload : List UInt8) : Control M :=
  ofExcept ((codec.decode payload).elim (.error .decode) .ok)

end Control

/-- The version of either side. -/
def CARGO_PKG_VERSION : String := "0.1.0"

variable (codec : HandshakeCodec) (crypto : Crypto)

/-! ## The client -/

/-- What a client has, and meets, in a handshake. -/
structure ClientSide where
  connection : crypto.Connection
  signingKey : crypto.SigningKey
  clientName : String
  userId : String
  deviceId : String
  /-- What becomes of opening the control stream. -/
  opened : Except Quinn.ConnectionError Unit
  /-- What becomes of writing the prologue, and of the writes below; `none` when the time is
      up. -/
  prologue : Option (Except Quinn.WriteError Unit)
  clientHello : Option (Except Quinn.WriteError Unit)
  /-- The server's hello arrives in time, and so does the result below. -/
  serverHelloInTime : Bool
  authPubkey : Option (Except Quinn.WriteError Unit)
  authResultInTime : Bool

namespace ClientSide

variable {crypto} (i : ClientSide crypto)

/-- Nothing keeps the client from reading and writing. -/
structure Unhindered : Prop where
  opened : i.opened = .ok ()
  prologue : i.prologue = some (.ok ())
  clientHello : i.clientHello = some (.ok ())
  serverHello : i.serverHelloInTime = true
  authPubkey : i.authPubkey = some (.ok ())
  authResult : i.authResultInTime = true

/-- A client that nothing keeps from reading and writing. -/
def unhindered (connection : crypto.Connection) (signingKey : crypto.SigningKey)
    (clientName userId deviceId : String) : ClientSide crypto :=
  { connection, signingKey, clientName, userId, deviceId, opened := .ok (),
    prologue := some (.ok ()), clientHello := some (.ok ()), serverHelloInTime := true,
    authPubkey := some (.ok ()), authResultInTime := true }

/-- The client's hello. -/
def hello : ClientHello :=
  { clientName := i.clientName, clientVersion := CARGO_PKG_VERSION, capabilities := [],
    authMethods := [.publicKey] }

/-- Exchanging the hellos: the bytes of the client's, and the server's with its bytes. -/
def exchangeHellos (sm : ConnectionSm) : Control (List UInt8 × ServerHello × List UInt8) := do
  Control.writeWithin .handshakeTimeout i.prologue (.prologue ⟨.control, 1, 0⟩)
  let clientHelloBytes := codec.clientHello.encode i.hello
  ofExcept (check sm TypeId.CLIENT_HELLO)
  Control.writeWithin .handshakeTimeout i.clientHello
    (.envelope TypeId.CLIENT_HELLO clientHelloBytes)
  let (typeRaw, payload) ← Control.readWithin .handshakeTimeout i.serverHelloInTime
  ofExcept (check sm typeRaw)
  let serverHello ← Control.decode codec.serverHello payload
  return (clientHelloBytes, serverHello, payload)

/-- The signature of what the connection exports. -/
def signed (exporter : Vector UInt8 32) : AuthPubkey :=
  { userId := i.userId, deviceId := i.deviceId,
    publicKey := (crypto.asBytes (crypto.verifyingKey i.signingKey)).toList,
    signature := crypto.signExporter i.signingKey exporter }

/-- Sending the signature, and waiting for the result. -/
def authenticate (sm : ConnectionSm) (clientHelloBytes : List UInt8) (serverHello : ServerHello)
    (serverHelloBytes : List UInt8) : Control AuthResult := do
  let context :=
    crypto.channelBindingContext clientHelloBytes serverHelloBytes serverHello.authChallenge
  let exporter ← ofExcept ((crypto.computeExporter i.connection context).mapError .auth)
  ofExcept (check sm TypeId.AUTH_PUBKEY)
  Control.writeWithin .authTimeout i.authPubkey
    (.envelope TypeId.AUTH_PUBKEY (codec.authPubkey.encode (i.signed exporter)))
  -- the type of the result is not checked
  let (_, payload) ← Control.readWithin .authTimeout i.authResultInTime
  Control.decode codec.authResult payload

/-- What the client makes of the result. -/
def conclude (sm : ConnectionSm) (authResult : AuthResult) :
    Control (HandshakeOutcome × ConnectionSm) :=
  match authResult.status with
  | .ok => do
    let sm ← Control.advance sm.completeAuthentication
    return ({ sessionId := authResult.sessionId, reconnectToken := authResult.reconnectToken,
              grantedPermissions := authResult.grantedPermissions, userId := i.userId }, sm)
  | .mfaRequired | .denied => Async.throw .authDenied

/-- The client's side of the handshake. -/
def clientHandshake : Control (HandshakeOutcome × ConnectionSm) := do
  let sm := ConnectionSm.new
  ofExcept (i.opened.mapError .quic)
  let (clientHelloBytes, serverHello, serverHelloBytes) ← i.exchangeHellos codec sm
  let sm ← Control.advance sm.completeHandshake
  let authResult ← i.authenticate codec sm clientHelloBytes serverHello serverHelloBytes
  i.conclude sm authResult

end ClientSide

/-! ## The server -/

/-- What the server has, draws and meets in a handshake. -/
structure ServerSide where
  connection : crypto.Connection
  serverName : String
  trustedPublicKey : crypto.VerifyingKey
  authChallenge : Vector UInt8 32
  sessionId : SessionId
  reconnectToken : ReconnectToken
  /-- What becomes of writing the server's hello; `none` when the time is up. -/
  serverHello : Option (Except Quinn.WriteError Unit)
  /-- The signature arrives in time. -/
  authPubkeyInTime : Bool
  /-- What becomes of writing the result. -/
  authResult : Except Quinn.WriteError Unit

namespace ServerSide

variable {crypto} (i : ServerSide crypto)

/-- Nothing keeps the server from reading and writing. -/
structure Unhindered : Prop where
  serverHello : i.serverHello = some (.ok ())
  authPubkey : i.authPubkeyInTime = true
  authResult : i.authResult = .ok ()

/-- The server's hello. -/
def hello : ServerHello :=
  { serverName := i.serverName, serverVersion := CARGO_PKG_VERSION, capabilities := [],
    authPolicy := ⟨[⟨[.publicKey], 0⟩]⟩, authChallenge := i.authChallenge }

/-- The verification of a signature, for the hellos of the handshake. -/
def verification (clientHelloBytes serverHelloBytes : List UInt8) (authPubkey : AuthPubkey) :
    Except AuthError Unit :=
  if authPubkey.publicKey ≠ (crypto.asBytes i.trustedPublicKey).toList then
    .error .signatureInvalid
  else do
    let exporter ← crypto.computeExporter i.connection
      (crypto.channelBindingContext clientHelloBytes serverHelloBytes i.authChallenge)
    crypto.verifyExporter authPubkey.publicKey exporter authPubkey.signature

/-- Reading the signature. -/
def readAuthPubkey (sm : ConnectionSm) : Control AuthPubkey := do
  let (typeRaw, payload) ← Control.readWithin .authTimeout i.authPubkeyInTime
  ofExcept (check sm typeRaw)
  Control.decode codec.authPubkey payload

/-- The result of an authentication that has succeeded. -/
def granted : AuthResult :=
  { status := .ok, reason := ReasonCode.NONE, sessionId := i.sessionId,
    reconnectToken := i.reconnectToken, grantedPermissions := FRESH_GRANT }

/-- The result of one that has not. -/
def refused : AuthResult :=
  { status := .denied, reason := ReasonCode.AUTH_SIGNATURE_INVALID,
    sessionId := Vector.replicate 16 0, reconnectToken := Vector.replicate 32 0,
    grantedPermissions := 0 }

/-- Sending the result of the verification. -/
def sendAuthResult (sm : ConnectionSm) (authPubkey : AuthPubkey) :
    Except AuthError Unit → Control (HandshakeOutcome × ConnectionSm)
  | .ok () => do
    let sm ← Control.advance sm.completeAuthentication
    Control.write i.authResult (.envelope TypeId.AUTH_RESULT (codec.authResult.encode i.granted))
    return ({ sessionId := i.sessionId, reconnectToken := i.reconnectToken,
              grantedPermissions := FRESH_GRANT, userId := authPubkey.userId }, sm)
  | .error authError => do
    -- the failure is recorded in a machine that is then dropped
    Control.write i.authResult (.envelope TypeId.AUTH_RESULT (codec.authResult.encode refused))
    Async.throw (.auth authError)

/-- The server's side of the handshake, once the client's hello has been read. -/
def serverHandshakeFromClientHello (clientHelloBytes : List UInt8) :
    Control (HandshakeOutcome × ConnectionSm) := do
  let sm := ConnectionSm.new
  ofExcept (check sm TypeId.CLIENT_HELLO)
  let serverHelloBytes := codec.serverHello.encode i.hello
  ofExcept (check sm TypeId.SERVER_HELLO)
  Control.writeWithin .handshakeTimeout i.serverHello
    (.envelope TypeId.SERVER_HELLO serverHelloBytes)
  let sm ← Control.advance sm.completeHandshake
  let authPubkey ← i.readAuthPubkey codec sm
  i.sendAuthResult codec sm authPubkey
    (i.verification clientHelloBytes serverHelloBytes authPubkey)

end ServerSide

/-! ## What comes of reading and writing -/

namespace Control

variable {α α' M : Type} {written : List Piece} {r : EnvelopeReader} {elapsed : HandshakeError}

theorem exec_bind (p : Control α) (k : α → Control α') :
    (p >>= k).exec decoder written r =
      match p.exec decoder written r with
      | (.ok a, written', r') => (k a).exec decoder written' r'
      | (.error e, written', r') => (.error e, written', r') := by
  have hexec : (p >>= k).exec decoder written r = _ := Async.exec_bind p k written r
  rw [hexec]
  obtain ⟨result, written', r'⟩ := p.exec decoder written r
  cases result <;> rfl

@[simp] theorem exec_pure (a : α) :
    (pure a : Control α).exec decoder written r = (.ok a, written, r) := rfl

@[simp] theorem exec_throw (e : HandshakeError) :
    (Async.throw e : Control α).exec decoder written r = (.error e, written, r) := rfl

@[simp] theorem exec_ofExcept (result : Except HandshakeError α) :
    (ofExcept result : Control α).exec decoder written r = (result, written, r) := rfl

@[simp] theorem exec_advance (result : Except ProtocolViolation α) :
    (advance result).exec decoder written r =
      (result.mapError fun v => .protocolViolation v.reason, written, r) := rfl

@[simp] theorem exec_decode (codec : BodyCodec M) (payload : List UInt8) :
    (decode codec payload).exec decoder written r =
      ((codec.decode payload).elim (.error .decode) .ok, written, r) := rfl

theorem exec_write (result : Except Quinn.WriteError Unit) (piece : Piece) :
    (write result piece).exec decoder written r =
      (result.mapError .write,
        match result with
        | .ok () => written ++ [piece]
        | .error _ => written, r) := by
  cases result <;> rfl

@[simp] theorem exec_writeWithin_none (piece : Piece) :
    (writeWithin elapsed none piece).exec decoder written r = (.error elapsed, written, r) := rfl

@[simp] theorem exec_writeWithin_some (result : Except Quinn.WriteError Unit) (piece : Piece) :
    (writeWithin elapsed (some result) piece).exec decoder written r =
      (write result piece).exec decoder written r := rfl

theorem exec_readWithin (inTime : Bool) :
    (readWithin elapsed inTime).exec decoder written r =
      if inTime then
        ((r.readEnvelope StreamKind.control.maxEnvelopeLength).1.mapError .read, written,
          (r.readEnvelope StreamKind.control.maxEnvelopeLength).2)
      else (.error elapsed, written, r) := by
  cases inTime <;> rfl

/-! ### What is written -/

/-- The function first writes the pieces, behind what has been written, whatever it reads. -/
def Writes (pieces : List Piece) (p : Control α) : Prop :=
  ∀ written r, ∃ more, (p.exec decoder written r).2.1 = written ++ (pieces ++ more)

theorem writes_ofExcept (result : Except HandshakeError α) :
    Writes [] (ofExcept result : Control α) := fun _ _ => ⟨[], (List.append_nil _).symm⟩

theorem writes_write (result : Except Quinn.WriteError Unit) (piece : Piece) :
    Writes [] (write result piece) := by
  intro written r
  cases result with
  | error e => exact ⟨[], (List.append_nil _).symm⟩
  | ok _ => exact ⟨[piece], rfl⟩

theorem writes_writeWithin (result : Option (Except Quinn.WriteError Unit)) (piece : Piece) :
    Writes [] (writeWithin elapsed result piece) := by
  cases result with
  | none => exact writes_ofExcept (.error elapsed)
  | some result => exact writes_write result piece

theorem writes_readWithin (inTime : Bool) : Writes [] (readWithin elapsed inTime) := by
  intro written r
  rw [exec_readWithin]
  cases inTime <;> exact ⟨[], (List.append_nil _).symm⟩

variable {p : Control α} {k : α → Control α'} {pieces : List Piece}

theorem Writes.bind (hp : Writes pieces p) (hk : ∀ a, Writes [] (k a)) :
    Writes pieces (p >>= k) := by
  intro written r
  obtain ⟨more, hmore⟩ := hp written r
  rw [exec_bind]
  generalize p.exec decoder written r = x at hmore
  obtain ⟨result, written₁, r₁⟩ := x
  obtain rfl : written₁ = written ++ (pieces ++ more) := hmore
  cases result with
  | error e => exact ⟨more, rfl⟩
  | ok a =>
    obtain ⟨more', hmore'⟩ := hk a (written ++ (pieces ++ more)) r₁
    exact ⟨more ++ more', hmore'.trans (by simp only [List.append_assoc, List.nil_append])⟩

theorem writes_ofExcept_bind {a : α} (h : Writes pieces (k a)) :
    Writes pieces ((ofExcept (.ok a) : Control α) >>= k) := h

theorem writes_writeWithin_bind {k : Unit → Control α'} {piece : Piece}
    (h : Writes pieces (k ())) :
    Writes (piece :: pieces) (writeWithin elapsed (some (.ok ())) piece >>= k) := by
  intro written r
  obtain ⟨more, hmore⟩ := h (written ++ [piece]) r
  exact ⟨more, hmore.trans (List.append_assoc ..)⟩

/-! ### Success -/

variable {written' : List Piece} {r' : EnvelopeReader}

theorem bind_eq_ok {p : Control α} {k : α → Control α'} {b : α'} :
    (p >>= k).exec decoder written r = (.ok b, written', r') ↔ ∃ a written₁ r₁,
      p.exec decoder written r = (.ok a, written₁, r₁) ∧
        (k a).exec decoder written₁ r₁ = (.ok b, written', r') := by
  rw [exec_bind]
  obtain ⟨result, written₁, r₁⟩ := p.exec decoder written r
  cases result <;> simp

theorem ofExcept_eq_ok {result : Except HandshakeError α} {a : α} :
    (ofExcept result : Control α).exec decoder written r = (.ok a, written', r') ↔
      result = .ok a ∧ written = written' ∧ r = r' := by
  simp

theorem decode_eq_ok {codec : BodyCodec M} {payload : List UInt8} {m : M} :
    (decode codec payload).exec decoder written r = (.ok m, written', r') ↔
      codec.decode payload = some m ∧ written = written' ∧ r = r' := by
  rw [exec_decode]
  cases codec.decode payload <;> simp

theorem write_eq_ok {result : Except Quinn.WriteError Unit} {piece : Piece} {a : Unit} :
    (write result piece).exec decoder written r = (.ok a, written', r') ↔
      result = .ok () ∧ written ++ [piece] = written' ∧ r = r' := by
  rw [exec_write]
  cases result <;> simp [Except.mapError]

theorem writeWithin_eq_ok {result : Option (Except Quinn.WriteError Unit)} {piece : Piece}
    {a : Unit} :
    (writeWithin elapsed result piece).exec decoder written r = (.ok a, written', r') ↔
      result = some (.ok ()) ∧ written ++ [piece] = written' ∧ r = r' := by
  cases result with
  | none => simp
  | some result => rw [exec_writeWithin_some, write_eq_ok, Option.some_inj]

theorem readWithin_eq_ok {inTime : Bool} {env : UInt16 × List UInt8} :
    (readWithin elapsed inTime).exec decoder written r = (.ok env, written', r') ↔
      inTime = true ∧ r.readEnvelope StreamKind.control.maxEnvelopeLength = (.ok env, r') ∧
        written = written' := by
  rw [exec_readWithin]
  cases inTime with
  | false => simp
  | true =>
    obtain ⟨result, r₁⟩ := r.readEnvelope StreamKind.control.maxEnvelopeLength
    cases result with
    | error e => simp [Except.mapError]
    | ok env => simp [Except.mapError, and_comm, and_left_comm]

end Control

/-! ## When each side succeeds -/

/-- A hello is legal before the handshake is complete, whichever it is. -/
theorem check_handshaking {typeRaw : UInt16} {n : ℕ} :
    check ⟨.handshaking, n⟩ typeRaw = .ok () ↔
      typeRaw = TypeId.CLIENT_HELLO ∨ typeRaw = TypeId.SERVER_HELLO := by
  rw [check, Except.mapError_eq_ok]
  show (if ConnectionSm.allowedInHandshaking typeRaw = true then _ else _) = _ ↔ _
  split_ifs with htype
  · exact iff_of_true rfl (by simpa [ConnectionSm.allowedInHandshaking] using htype)
  · exact iff_of_false (fun h => by cases h)
      (by simpa [ConnectionSm.allowedInHandshaking] using htype)

/-- A signature is legal after that, and nothing else. -/
theorem check_authenticating {typeRaw : UInt16} {n : ℕ} :
    check ⟨.authenticating, n⟩ typeRaw = .ok () ↔ typeRaw = TypeId.AUTH_PUBKEY := by
  rw [check, Except.mapError_eq_ok]
  show (if ConnectionSm.allowedInAuthenticating typeRaw = true then _ else _) = _ ↔ _
  split_ifs with htype
  · exact iff_of_true rfl (by simpa [ConnectionSm.allowedInAuthenticating] using htype)
  · exact iff_of_false (fun h => by cases h)
      (by simpa [ConnectionSm.allowedInAuthenticating] using htype)

/-! A handshake that goes well passes each of these. -/

theorem check_clientHello : check .new TypeId.CLIENT_HELLO = .ok () :=
  check_handshaking.2 (.inl rfl)

theorem check_serverHello : check .new TypeId.SERVER_HELLO = .ok () :=
  check_handshaking.2 (.inr rfl)

theorem check_authPubkey : check ⟨.authenticating, 0⟩ TypeId.AUTH_PUBKEY = .ok () :=
  check_authenticating.2 rfl

theorem completeHandshake_new :
    ConnectionSm.new.completeHandshake = .ok ⟨.authenticating, 0⟩ := rfl

theorem completeAuthentication_authenticating :
    ConnectionSm.completeAuthentication ⟨.authenticating, 0⟩ = .ok ⟨.authenticated, 0⟩ := rfl

variable {codec} {crypto} {r r' : EnvelopeReader} {written written' : List Piece}

/-- The client takes either hello for the server's, if it decodes. -/
theorem ClientSide.exchangeHellos_eq_ok {i : ClientSide crypto}
    {clientHelloBytes serverHelloBytes : List UInt8} {serverHello : ServerHello} :
    (i.exchangeHellos codec .new).exec Control.decoder written r =
        (.ok (clientHelloBytes, serverHello, serverHelloBytes), written', r') ↔
      i.prologue = some (.ok ()) ∧ i.clientHello = some (.ok ()) ∧ i.serverHelloInTime = true ∧
        clientHelloBytes = codec.clientHello.encode i.hello ∧
        written' = written ++ [.prologue ⟨.control, 1, 0⟩] ++
          [.envelope TypeId.CLIENT_HELLO clientHelloBytes] ∧
        codec.serverHello.decode serverHelloBytes = some serverHello ∧ ∃ typeRaw,
          r.readEnvelope StreamKind.control.maxEnvelopeLength =
            (.ok (typeRaw, serverHelloBytes), r') ∧
          (typeRaw = TypeId.CLIENT_HELLO ∨ typeRaw = TypeId.SERVER_HELLO) := by
  simp only [ClientSide.exchangeHellos, Control.bind_eq_ok, Control.ofExcept_eq_ok,
    Control.writeWithin_eq_ok, Control.readWithin_eq_ok, Control.decode_eq_ok,
    check_clientHello, Control.exec_pure, Prod.mk.injEq, Except.ok.injEq]
  constructor
  · rintro ⟨_, _, _, ⟨hprologue, rfl, rfl⟩, _, _, _, ⟨-, rfl, rfl⟩, hrest⟩
    obtain ⟨_, _, _, ⟨hhello, rfl, rfl⟩, ⟨typeRaw, _⟩, _, _, ⟨hinTime, henv, rfl⟩, hrest⟩ := hrest
    obtain ⟨_, _, _, ⟨htype, rfl, rfl⟩, _, _, _, ⟨hdecode, rfl, rfl⟩, hrest⟩ := hrest
    obtain ⟨⟨rfl, rfl, rfl⟩, rfl, rfl⟩ := hrest
    exact ⟨hprologue, hhello, hinTime, rfl, rfl, hdecode, typeRaw, henv,
      check_handshaking.1 htype⟩
  · rintro ⟨hprologue, hhello, hinTime, rfl, rfl, hdecode, typeRaw, henv, htype⟩
    exact ⟨(), _, _, ⟨hprologue, rfl, rfl⟩, (), _, _, ⟨trivial, rfl, rfl⟩, (), _, _,
      ⟨hhello, rfl, rfl⟩, (typeRaw, serverHelloBytes), _, _, ⟨hinTime, henv, rfl⟩, (), _, _,
      ⟨check_handshaking.2 htype, rfl, rfl⟩, _, _, _, ⟨hdecode, rfl, rfl⟩, ⟨rfl, rfl, rfl⟩, rfl,
      rfl⟩

/-- The client takes anything for the result, if it decodes. -/
theorem ClientSide.authenticate_eq_ok {i : ClientSide crypto}
    {clientHelloBytes serverHelloBytes : List UInt8} {serverHello : ServerHello}
    {authResult : AuthResult} :
    (i.authenticate codec ⟨.authenticating, 0⟩ clientHelloBytes serverHello serverHelloBytes).exec
        Control.decoder written r = (.ok authResult, written', r') ↔
      ∃ exporter, crypto.computeExporter i.connection (crypto.channelBindingContext
          clientHelloBytes serverHelloBytes serverHello.authChallenge) = .ok exporter ∧
        i.authPubkey = some (.ok ()) ∧ i.authResultInTime = true ∧
        written' = written ++
          [.envelope TypeId.AUTH_PUBKEY (codec.authPubkey.encode (i.signed exporter))] ∧
        ∃ typeRaw payload, r.readEnvelope StreamKind.control.maxEnvelopeLength =
            (.ok (typeRaw, payload), r') ∧ codec.authResult.decode payload = some authResult := by
  simp only [ClientSide.authenticate, Control.bind_eq_ok, Control.ofExcept_eq_ok,
    Control.writeWithin_eq_ok, Control.readWithin_eq_ok, Control.decode_eq_ok,
    check_authPubkey, Except.mapError_eq_ok]
  constructor
  · rintro ⟨exporter, _, _, ⟨hexporter, rfl, rfl⟩, _, _, _, ⟨-, rfl, rfl⟩, _, _, _,
      ⟨hsigned, rfl, rfl⟩, ⟨typeRaw, payload⟩, _, _, ⟨hinTime, henv, rfl⟩, hdecode, rfl, rfl⟩
    exact ⟨exporter, hexporter, hsigned, hinTime, rfl, typeRaw, payload, henv, hdecode⟩
  · rintro ⟨exporter, hexporter, hsigned, hinTime, rfl, typeRaw, payload, henv, hdecode⟩
    exact ⟨exporter, _, _, ⟨hexporter, rfl, rfl⟩, (), _, _, ⟨trivial, rfl, rfl⟩, (), _, _,
      ⟨hsigned, rfl, rfl⟩, (typeRaw, payload), _, _, ⟨hinTime, henv, rfl⟩, hdecode, rfl, rfl⟩

/-- The server only takes a signature for one. -/
theorem ServerSide.readAuthPubkey_eq_ok {i : ServerSide crypto} {authPubkey : AuthPubkey} :
    (i.readAuthPubkey codec ⟨.authenticating, 0⟩).exec Control.decoder written r =
        (.ok authPubkey, written', r') ↔
      i.authPubkeyInTime = true ∧ written' = written ∧ ∃ payload,
        r.readEnvelope StreamKind.control.maxEnvelopeLength =
            (.ok (TypeId.AUTH_PUBKEY, payload), r') ∧
          codec.authPubkey.decode payload = some authPubkey := by
  simp only [ServerSide.readAuthPubkey, Control.bind_eq_ok, Control.ofExcept_eq_ok,
    Control.readWithin_eq_ok, Control.decode_eq_ok]
  constructor
  · rintro ⟨⟨typeRaw, payload⟩, _, _, ⟨hinTime, henv, rfl⟩, _, _, _, ⟨htype, rfl, rfl⟩, hdecode,
      rfl, rfl⟩
    obtain rfl := check_authenticating.1 htype
    exact ⟨hinTime, rfl, payload, henv, hdecode⟩
  · rintro ⟨hinTime, rfl, payload, henv, hdecode⟩
    exact ⟨(TypeId.AUTH_PUBKEY, payload), _, _, ⟨hinTime, henv, rfl⟩, (), _, _,
      ⟨check_authenticating.2 rfl, rfl, rfl⟩, hdecode, rfl, rfl⟩

/-- The client has succeeded once it is told that it is authenticated. -/
theorem ClientSide.clientHandshake_eq_ok {i : ClientSide crypto} {outcome : HandshakeOutcome}
    {sm : ConnectionSm} :
    (i.clientHandshake codec).exec Control.decoder written r = (.ok (outcome, sm), written', r') ↔
      i.opened = .ok () ∧ ∃ clientHelloBytes serverHello serverHelloBytes written₁ r₁ authResult,
        (i.exchangeHellos codec .new).exec Control.decoder written r =
          (.ok (clientHelloBytes, serverHello, serverHelloBytes), written₁, r₁) ∧
        (i.authenticate codec ⟨.authenticating, 0⟩ clientHelloBytes serverHello
          serverHelloBytes).exec Control.decoder written₁ r₁ = (.ok authResult, written', r') ∧
        authResult.status = .ok ∧ outcome = ⟨authResult.sessionId, authResult.reconnectToken,
          authResult.grantedPermissions, i.userId⟩ ∧ sm = ⟨.authenticated, 0⟩ := by
  simp only [ClientSide.clientHandshake, ClientSide.conclude, Control.bind_eq_ok,
    Control.ofExcept_eq_ok, Control.advance, completeHandshake_new, Except.mapError_eq_ok,
    Except.ok.injEq]
  constructor
  · rintro ⟨_, _, _, ⟨hopened, rfl, rfl⟩, ⟨clientHelloBytes, serverHello, serverHelloBytes⟩,
      written₁, r₁, hellos, _, _, _, ⟨rfl, rfl, rfl⟩, authResult, _, _, hresult, hstatus⟩
    cases hok : authResult.status with
    | ok =>
      simp only [hok, Control.bind_eq_ok, Control.ofExcept_eq_ok,
        completeAuthentication_authenticating, Except.mapError_eq_ok, Except.ok.injEq,
        Control.exec_pure, Prod.mk.injEq] at hstatus
      obtain ⟨_, _, _, ⟨rfl, rfl, rfl⟩, ⟨rfl, rfl⟩, rfl, rfl⟩ := hstatus
      exact ⟨hopened, _, _, _, _, _, authResult, hellos, hresult, hok, rfl, rfl⟩
    | mfaRequired | denied =>
      rw [hok] at hstatus
      cases hstatus
  · rintro ⟨hopened, _, _, _, _, _, authResult, hellos, hresult, hok, rfl, rfl⟩
    refine ⟨(), _, _, ⟨hopened, rfl, rfl⟩, _, _, _, hellos, _, _, _, ⟨rfl, rfl, rfl⟩, authResult,
      _, _, hresult, ?_⟩
    rw [hok]
    rfl

/-- The server grants what every fresh session is granted, once the signature is verified. -/
theorem ServerSide.sendAuthResult_eq_ok {i : ServerSide crypto} {authPubkey : AuthPubkey}
    {verification : Except AuthError Unit} {outcome : HandshakeOutcome} {sm : ConnectionSm} :
    (i.sendAuthResult codec ⟨.authenticating, 0⟩ authPubkey verification).exec Control.decoder
        written r = (.ok (outcome, sm), written', r') ↔
      verification = .ok () ∧ i.authResult = .ok () ∧
        outcome = ⟨i.sessionId, i.reconnectToken, FRESH_GRANT, authPubkey.userId⟩ ∧
        sm = ⟨.authenticated, 0⟩ ∧ written' = written ++
          [.envelope TypeId.AUTH_RESULT (codec.authResult.encode i.granted)] ∧ r' = r := by
  cases verification with
  | error e =>
    simp only [ServerSide.sendAuthResult, Control.bind_eq_ok]
    refine iff_of_false ?_ fun h => by cases h.1
    rintro ⟨_, _, _, -, h⟩
    cases h
  | ok _ =>
    simp only [ServerSide.sendAuthResult, Control.bind_eq_ok, Control.advance,
      Control.ofExcept_eq_ok, Control.write_eq_ok, completeAuthentication_authenticating,
      Except.mapError_eq_ok, Except.ok.injEq, Control.exec_pure, Prod.mk.injEq]
    constructor
    · rintro ⟨_, _, _, ⟨rfl, rfl, rfl⟩, _, _, _, ⟨hwritten, rfl, rfl⟩, ⟨rfl, rfl⟩, rfl, rfl⟩
      exact ⟨trivial, hwritten, rfl, rfl, rfl, rfl⟩
    · rintro ⟨-, hwritten, rfl, rfl, rfl, rfl⟩
      exact ⟨_, _, _, ⟨rfl, rfl, rfl⟩, (), _, _, ⟨hwritten, rfl, rfl⟩, ⟨rfl, rfl⟩, rfl, rfl⟩

/-- The server has succeeded once it has told the client that it is authenticated. -/
theorem ServerSide.serverHandshakeFromClientHello_eq_ok {i : ServerSide crypto}
    {clientHelloBytes : List UInt8} {outcome : HandshakeOutcome} {sm : ConnectionSm} :
    (i.serverHandshakeFromClientHello codec clientHelloBytes).exec Control.decoder written r =
        (.ok (outcome, sm), written', r') ↔
      i.serverHello = some (.ok ()) ∧ i.authPubkeyInTime = true ∧ i.authResult = .ok () ∧
        ∃ payload authPubkey, r.readEnvelope StreamKind.control.maxEnvelopeLength =
            (.ok (TypeId.AUTH_PUBKEY, payload), r') ∧
          codec.authPubkey.decode payload = some authPubkey ∧
          i.verification clientHelloBytes (codec.serverHello.encode i.hello) authPubkey = .ok () ∧
          outcome = ⟨i.sessionId, i.reconnectToken, FRESH_GRANT, authPubkey.userId⟩ ∧
          sm = ⟨.authenticated, 0⟩ ∧
          written' = written ++
            [.envelope TypeId.SERVER_HELLO (codec.serverHello.encode i.hello)] ++
            [.envelope TypeId.AUTH_RESULT (codec.authResult.encode i.granted)] := by
  simp only [ServerSide.serverHandshakeFromClientHello, Control.bind_eq_ok,
    Control.ofExcept_eq_ok, Control.writeWithin_eq_ok, Control.advance, check_clientHello,
    check_serverHello, completeHandshake_new, Except.mapError, Except.ok.injEq]
  constructor
  · rintro ⟨_, _, _, ⟨-, rfl, rfl⟩, _, _, _, ⟨-, rfl, rfl⟩, hrest⟩
    obtain ⟨_, _, _, ⟨hhello, rfl, rfl⟩, _, _, _, ⟨rfl, rfl, rfl⟩, hrest⟩ := hrest
    obtain ⟨authPubkey, _, _, hread, hsent⟩ := hrest
    obtain ⟨hinTime, rfl, payload, henv, hdecode⟩ := readAuthPubkey_eq_ok.1 hread
    obtain ⟨hverification, hwritten, rfl, rfl, rfl, rfl⟩ := sendAuthResult_eq_ok.1 hsent
    exact ⟨hhello, hinTime, hwritten, payload, authPubkey, henv, hdecode, hverification, rfl, rfl,
      rfl⟩
  · rintro ⟨hhello, hinTime, hwritten, payload, authPubkey, henv, hdecode, hverification, rfl, rfl,
      rfl⟩
    exact ⟨(), _, _, ⟨trivial, rfl, rfl⟩, (), _, _, ⟨trivial, rfl, rfl⟩, (), _, _,
      ⟨hhello, rfl, rfl⟩, _, _, _, ⟨rfl, rfl, rfl⟩, authPubkey, _, _,
      readAuthPubkey_eq_ok.2 ⟨hinTime, rfl, payload, henv, hdecode⟩,
      sendAuthResult_eq_ok.2 ⟨hverification, hwritten, rfl, rfl, rfl, rfl⟩⟩

/-! ## What the server meets -/

namespace ServerSide

variable (codec) (i : ServerSide crypto) (clientHelloBytes : List UInt8) (r : EnvelopeReader)

/-- The envelope that the server reads, if it arrives in time. -/
def authPubkeyRead : Option (Except StreamReadError (UInt16 × List UInt8)) :=
  if i.authPubkeyInTime then some (r.readEnvelope StreamKind.control.maxEnvelopeLength).1 else none

/-- The signature in an envelope. -/
def authPubkeyOf (read : Option (Except StreamReadError (UInt16 × List UInt8))) :
    Option AuthPubkey :=
  match read with
  | some (.ok env) => codec.authPubkey.decode env.2
  | _ => none

/-- What the server meets, from what it reads. -/
def met : ServerHandshakeInput :=
  { serverHello := i.serverHello
    authPubkey := (i.authPubkeyRead r).map (·.map fun env =>
      (env.1, (codec.authPubkey.decode env.2).map (·.userId)))
    verification := ((authPubkeyOf codec (i.authPubkeyRead r)).elim (.error .signatureInvalid)
      (i.verification clientHelloBytes (codec.serverHello.encode i.hello)))
    sessionId := i.sessionId
    reconnectToken := i.reconnectToken
    authResult := i.authResult }

/-- What becomes of the envelope that is read. -/
def authPubkeyResult (sm : ConnectionSm) :
    Option (Except StreamReadError (UInt16 × List UInt8)) → Except HandshakeError AuthPubkey
  | none => .error .authTimeout
  | some (.error e) => .error (.read e)
  | some (.ok env) => do
    check sm env.1
    (codec.authPubkey.decode env.2).elim (.error .decode) .ok

/-- Reading the signature gives what becomes of the envelope. -/
theorem exec_readAuthPubkey (sm : ConnectionSm) (written : List Piece) :
    ∃ r', (i.readAuthPubkey codec sm).exec Control.decoder written r =
      (authPubkeyResult codec sm (i.authPubkeyRead r), written, r') := by
  rw [readAuthPubkey, Control.exec_bind, Control.exec_readWithin, authPubkeyRead]
  cases i.authPubkeyInTime with
  | false => exact ⟨_, rfl⟩
  | true =>
    simp only [if_true]
    cases (r.readEnvelope StreamKind.control.maxEnvelopeLength).1 with
    | error e => exact ⟨_, rfl⟩
    | ok env =>
      simp only [Except.mapError, Control.exec_bind, Control.exec_ofExcept, authPubkeyResult]
      cases check sm env.1 with
      | error e => exact ⟨_, rfl⟩
      | ok _ => exact ⟨_, rfl⟩

theorem readAuthPubkey_met (sm : ConnectionSm) :
    Sardp.readAuthPubkey (i.met codec clientHelloBytes r) sm =
      (authPubkeyResult codec sm (i.authPubkeyRead r)).map (·.userId) := by
  rw [Sardp.readAuthPubkey, met]
  cases i.authPubkeyRead r with
  | none => rfl
  | some read =>
    cases read with
    | error e => rfl
    | ok env =>
      simp only [Option.map, Except.map, authPubkeyResult, Except.mapError]
      show ((check sm env.1) >>= _) = Except.map _ ((check sm env.1) >>= _)
      cases check sm env.1 with
      | error e => rfl
      | ok _ => cases codec.authPubkey.decode env.2 <;> rfl

/-- The signature that is read is the one that is verified. -/
theorem verification_met {sm : ConnectionSm} {authPubkey : AuthPubkey}
    (h : authPubkeyResult codec sm (i.authPubkeyRead r) = .ok authPubkey) :
    (i.met codec clientHelloBytes r).verification =
      i.verification clientHelloBytes (codec.serverHello.encode i.hello) authPubkey := by
  have hof : authPubkeyOf codec (i.authPubkeyRead r) = some authPubkey := by
    cases hread : i.authPubkeyRead r with
    | none =>
      rw [hread] at h
      cases h
    | some read =>
      rw [hread] at h
      cases read with
      | error e => cases h
      | ok env =>
        obtain ⟨-, -, hdecode⟩ := Except.bind_eq_ok.1 h
        rw [authPubkeyOf]
        cases hauth : codec.authPubkey.decode env.2 with
        | none =>
          rw [hauth] at hdecode
          cases hdecode
        | some authPubkey' =>
          rw [hauth] at hdecode
          cases hdecode
          rfl
  rw [met, hof]
  rfl

theorem exec_sendAuthResult (sm : ConnectionSm) (authPubkey : AuthPubkey) (written : List Piece)
    (r' : EnvelopeReader) :
    ((i.sendAuthResult codec sm authPubkey (i.met codec clientHelloBytes r).verification).exec
      Control.decoder written r').1 =
      Sardp.sendAuthResult (i.met codec clientHelloBytes r) sm authPubkey.userId := by
  rw [Sardp.sendAuthResult]
  cases (i.met codec clientHelloBytes r).verification with
  | error e =>
    simp only [sendAuthResult, Control.exec_bind, Control.exec_write]
    show _ = (i.authResult.mapError HandshakeError.write >>= _)
    cases i.authResult <;> rfl
  | ok _ =>
    simp only [sendAuthResult, Control.exec_bind, Control.exec_write, Control.exec_advance]
    show _ = (sm.completeAuthentication.mapError _ >>= fun sm =>
      (i.authResult.mapError HandshakeError.write >>= _))
    cases sm.completeAuthentication with
    | error v => rfl
    | ok sm => cases i.authResult <;> rfl

/-- The server's side gives what a handshake gives on what it meets. -/
theorem serverHandshakeFromClientHello_exec (written : List Piece) :
    ((i.serverHandshakeFromClientHello codec clientHelloBytes).exec Control.decoder written r).1 =
      Sardp.serverHandshakeFromClientHello (i.met codec clientHelloBytes r) := by
  have hmet : (i.met codec clientHelloBytes r).serverHello = i.serverHello := rfl
  simp only [ServerSide.serverHandshakeFromClientHello, Sardp.serverHandshakeFromClientHello,
    Control.exec_bind, Control.exec_ofExcept, Control.exec_advance, check_clientHello,
    check_serverHello, completeHandshake_new, sendServerHello, hmet]
  cases i.serverHello with
  | none => rfl
  | some result =>
    cases result with
    | error e => rfl
    | ok _ =>
      obtain ⟨r', hread⟩ := i.exec_readAuthPubkey codec r ⟨.authenticating, 0⟩
        (written ++ [.envelope TypeId.SERVER_HELLO (codec.serverHello.encode i.hello)])
      simp only [Control.exec_writeWithin_some, Control.exec_write, Except.mapError, hread]
      show _ = (Sardp.readAuthPubkey _ _ >>= fun userId => Sardp.sendAuthResult _ _ userId)
      rw [readAuthPubkey_met]
      cases hresult : authPubkeyResult codec ⟨.authenticating, 0⟩ (i.authPubkeyRead r) with
      | error e => rfl
      | ok authPubkey =>
        simp only [← i.verification_met codec clientHelloBytes r hresult]
        exact i.exec_sendAuthResult codec clientHelloBytes r _ authPubkey _ r'
end ServerSide

end Sardp
