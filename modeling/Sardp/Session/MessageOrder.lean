import Sardp.Session.ControlHandshake
import Sardp.Session.Reconnection

/-!
# Which message comes first

A new connection may be taken in by a handshake alone (`serverHandshakeWithTimeouts`), or by what
also takes back the session of a client that reconnects (`readFirstControlMessage` of
`reconnection.rs`). The first asks whether the type of the first message is legal in the state of
the connection, which does not tell the hellos apart; the second compares the type itself. The
client asks the same of the server's hello, and nothing of the result.

So each side takes only the message that is due, and the two ways of the server agree, as long as
no peer sends its hello under the type of the other's, and the result comes under its own
(`onlyDue_iff`).
-/

namespace Sardp

open Framing

/-! ## The first message -/

/-- What reads the beginning of the control stream, or fails. -/
abbrev Setup (α : Type) := StateT EnvelopeReader (Except HandshakeError) α

namespace Setup

/-- Reading the prologue. -/
def nextPrologue : Setup StreamPrologue := fun r =>
  match r.readPrologue with
  | (.ok streamPrologue, r) => .ok (streamPrologue, r)
  | (.error e, _) => .error (.read e)

/-- Reading an envelope. -/
def nextEnvelope : Setup (UInt16 × List UInt8) := fun r =>
  match r.readEnvelope StreamKind.control.maxEnvelopeLength with
  | (.ok env, r) => .ok (env, r)
  | (.error e, _) => .error (.read e)

/-- What has to be done by the deadline of the hellos; it is, or it is not. -/
def byDeadline {α : Type} (inTime : Bool) (p : Setup α) : Setup α :=
  if inTime then p else throw .handshakeTimeout

end Setup

/-- Accepting the control stream, up to its first envelope. -/
def acceptControlPrologue : Setup Unit := do
  let streamPrologue ← Setup.nextPrologue
  if streamPrologue.kind ≠ .control then
    throw (.protocolViolation ReasonCode.PROTOCOL_UNEXPECTED_MESSAGE)

/-- Reading the client's hello, when nothing else is expected: its payload. -/
def readClientHello (inTime : Bool) : Setup (List UInt8) :=
  Setup.byDeadline inTime do
    let streamPrologue ← Setup.nextPrologue
    if streamPrologue.kind ≠ .control then
      throw (.protocolViolation ReasonCode.PROTOCOL_UNEXPECTED_MESSAGE)
    let (typeRaw, payload) ← Setup.nextEnvelope
    check .new typeRaw
    return payload

/-- What the first envelope is. -/
inductive FirstMessage
  /-- The client's hello, undecoded. -/
  | clientHello (payload : List UInt8)
  | sessionReauthenticate (reauth : SessionReauthenticate)

variable (codec : HandshakeCodec) {crypto : Crypto}

/-- Reading the first envelope, of a new session or of one that is resumed. -/
def readFirstControlMessage (inTime : Bool) : Setup FirstMessage := do
  acceptControlPrologue
  let (typeRaw, payload) ← Setup.byDeadline inTime Setup.nextEnvelope
  if typeRaw = TypeId.CLIENT_HELLO then
    return .clientHello payload
  else if typeRaw = TypeId.SESSION_REAUTHENTICATE then
    match codec.sessionReauthenticate.decode payload with
    | some reauth => return .sessionReauthenticate reauth
    | none => throw .decode
  else
    throw (.protocolViolation ReasonCode.PROTOCOL_UNEXPECTED_MESSAGE)

/-- The server's side of a handshake on the control stream of a connection. -/
def serverHandshakeWithTimeouts (i : ServerSide crypto)
    (accepted : Except Quinn.ConnectionError RecvStream) (inTime : Bool) :
    Except HandshakeError (HandshakeOutcome × ConnectionSm) := do
  let recv ← accepted.mapError .quic
  let (clientHelloBytes, reader) ← readClientHello inTime (Reader.new recv)
  ((i.serverHandshakeFromClientHello codec clientHelloBytes).exec Control.decoder [] reader).1

/-- Establishing a connection on its control stream, with what completing a reconnect meets. -/
def establishOnStream (i : ServerSide crypto) (sessions : SessionStore)
    (newReconnectToken : ReconnectToken) (written : Except Quinn.WriteError Unit)
    (accepted : Except Quinn.ConnectionError RecvStream) (inTime : Bool) :
    Except HandshakeError EstablishOutcome × SessionStore :=
  establishConnection sessions do
    let recv ← accepted.mapError .quic
    let (first, reader) ← readFirstControlMessage codec inTime (Reader.new recv)
    match first with
    | .clientHello payload => return .clientHello (i.met codec payload reader)
    | .sessionReauthenticate reauth =>
      return .sessionReauthenticate reauth newReconnectToken written

/-- What a fresh session starts from. -/
def HandshakeOutcome.context (outcome : HandshakeOutcome) (connectionSm : ConnectionSm) :
    ConnectionContext :=
  { connectionSm, sessionId := outcome.sessionId, userId := outcome.userId,
    reconnectToken := outcome.reconnectToken, grantedPermissions := outcome.grantedPermissions,
    startingGeneration := 0, isResumed := false }

theorem HandshakeOutcome.context_inj {outcome outcome' : HandshakeOutcome}
    {sm sm' : ConnectionSm} :
    outcome.context sm = outcome'.context sm' ↔ outcome = outcome' ∧ sm = sm' := by
  refine ⟨fun h => ?_, by rintro ⟨rfl, rfl⟩; rfl⟩
  cases outcome
  cases outcome'
  cases h
  exact ⟨rfl, rfl⟩

/-! ## What is read -/

namespace Setup

variable {α α' : Type} {r r' : EnvelopeReader}

theorem bind_eq_ok {p : Setup α} {k : α → Setup α'} {x : α' × EnvelopeReader} :
    (p >>= k) r = .ok x ↔ ∃ a r', p r = .ok (a, r') ∧ k a r' = .ok x := by
  refine Except.bind_eq_ok.trans ⟨?_, ?_⟩
  · rintro ⟨⟨a, r'⟩, hp, hk⟩
    exact ⟨a, r', hp, hk⟩
  · rintro ⟨a, r', hp, hk⟩
    exact ⟨(a, r'), hp, hk⟩

theorem nextPrologue_eq_ok {streamPrologue : StreamPrologue} :
    nextPrologue r = .ok (streamPrologue, r') ↔ r.readPrologue = (.ok streamPrologue, r') := by
  rw [nextPrologue]
  obtain ⟨result, r''⟩ := r.readPrologue
  cases result <;> simp

theorem nextEnvelope_eq_ok {env : UInt16 × List UInt8} :
    nextEnvelope r = .ok (env, r') ↔
      r.readEnvelope StreamKind.control.maxEnvelopeLength = (.ok env, r') := by
  rw [nextEnvelope]
  obtain ⟨result, r''⟩ := r.readEnvelope StreamKind.control.maxEnvelopeLength
  cases result <;> simp

end Setup

variable {codec} {inTime : Bool} {r r' : EnvelopeReader} {payload : List UInt8}

/-- The first envelope of a control stream, and the reader of what follows. -/
def firstEnvelope (r : EnvelopeReader) : Option ((UInt16 × List UInt8) × EnvelopeReader) :=
  ((do acceptControlPrologue; Setup.nextEnvelope : Setup (UInt16 × List UInt8)) r).toOption

theorem acceptControlPrologue_eq_ok :
    acceptControlPrologue r = .ok ((), r') ↔
      ∃ streamPrologue, r.readPrologue = (.ok streamPrologue, r') ∧
        streamPrologue.kind = .control := by
  refine Setup.bind_eq_ok.trans (exists_congr fun streamPrologue => ?_)
  simp only [Setup.nextPrologue_eq_ok]
  constructor
  · rintro ⟨r₁, hprologue, h⟩
    by_cases hkind : streamPrologue.kind = .control
    · rw [if_neg (not_not.2 hkind)] at h
      cases h
      exact ⟨hprologue, hkind⟩
    · rw [if_pos hkind] at h
      cases h
  · rintro ⟨hprologue, hkind⟩
    exact ⟨r', hprologue, by rw [if_neg (not_not.2 hkind)]; rfl⟩

theorem firstEnvelope_eq_some {env : UInt16 × List UInt8} :
    firstEnvelope r = some (env, r') ↔ ∃ r₁, acceptControlPrologue r = .ok ((), r₁) ∧
      r₁.readEnvelope StreamKind.control.maxEnvelopeLength = (.ok env, r') := by
  have hok : firstEnvelope r = some (env, r') ↔
      (do acceptControlPrologue; Setup.nextEnvelope : Setup (UInt16 × List UInt8)) r =
        .ok (env, r') := by
    rw [firstEnvelope]
    generalize (do acceptControlPrologue; Setup.nextEnvelope : Setup _) r = result
    cases result <;> simp [Except.toOption]
  simp only [hok, Setup.bind_eq_ok, Setup.nextEnvelope_eq_ok]
  constructor
  · rintro ⟨_, r₁, h⟩
    exact ⟨r₁, h⟩
  · rintro ⟨r₁, h⟩
    exact ⟨(), r₁, h⟩

/-- When nothing else is expected, either hello is taken for the client's. -/
theorem readClientHello_eq_ok :
    readClientHello inTime r = .ok (payload, r') ↔ inTime = true ∧ ∃ typeRaw,
      firstEnvelope r = some ((typeRaw, payload), r') ∧
        (typeRaw = TypeId.CLIENT_HELLO ∨ typeRaw = TypeId.SERVER_HELLO) := by
  cases inTime with
  | false => exact iff_of_false (fun h => by cases h) fun h => by cases h.1
  | true =>
    -- the stream is accepted the same way
    have heq : readClientHello true = (do
        acceptControlPrologue
        let (typeRaw, payload) ← Setup.nextEnvelope
        check .new typeRaw
        return payload) := by
      rw [readClientHello, Setup.byDeadline, if_pos rfl, acceptControlPrologue, bind_assoc]
      congr 1
      funext streamPrologue
      by_cases hkind : streamPrologue.kind = .control
      · simp [hkind]
      · simp [hkind]
    have hlast : ∀ env r₂, (do check .new (Prod.fst env); return env.2 : Setup (List UInt8)) r₂ =
        .ok (payload, r') ↔ (env.1 = TypeId.CLIENT_HELLO ∨ env.1 = TypeId.SERVER_HELLO) ∧
          env.2 = payload ∧ r₂ = r' := by
      intro env r₂
      rw [← @check_handshaking env.1 0]
      show ((check ⟨.handshaking, 0⟩ env.1).bind fun _ => _).bind _ = _ ↔ _
      cases check ⟨.handshaking, 0⟩ env.1 with
      | error e => simp [Except.bind]
      | ok _ =>
        show (.ok (env.2, r₂) : Except HandshakeError _) = _ ↔ _
        simp
    simp only [heq, Setup.bind_eq_ok, hlast, Setup.nextEnvelope_eq_ok,
      firstEnvelope_eq_some, true_and]
    constructor
    · rintro ⟨_, r₁, haccept, ⟨typeRaw, _⟩, _, henv, htype, rfl, rfl⟩
      exact ⟨typeRaw, ⟨r₁, haccept, henv⟩, htype⟩
    · rintro ⟨typeRaw, ⟨r₁, haccept, henv⟩, htype⟩
      exact ⟨(), r₁, haccept, (typeRaw, payload), r', henv, htype, rfl, rfl⟩

/-- When a client may also reconnect, only its own hello is taken for it. -/
theorem readFirstControlMessage_eq_clientHello :
    readFirstControlMessage codec inTime r = .ok (.clientHello payload, r') ↔
      inTime = true ∧ firstEnvelope r = some ((TypeId.CLIENT_HELLO, payload), r') := by
  cases inTime with
  | false =>
    refine iff_of_false (fun h => ?_) fun h => by cases h.1
    obtain ⟨_, _, -, h⟩ := Setup.bind_eq_ok.1 h
    cases h
  | true =>
    simp only [readFirstControlMessage, Setup.byDeadline, if_true, Setup.bind_eq_ok,
      Setup.nextEnvelope_eq_ok, firstEnvelope_eq_some, true_and]
    constructor
    · rintro ⟨_, r₁, haccept, ⟨typeRaw, _⟩, r₂, henv, h⟩
      by_cases hhello : typeRaw = TypeId.CLIENT_HELLO
      · rw [if_pos hhello] at h
        cases h
        exact ⟨r₁, haccept, hhello ▸ henv⟩
      · rw [if_neg hhello] at h
        split_ifs at h
        · cases hreauth : codec.sessionReauthenticate.decode _ <;> rw [hreauth] at h <;> cases h
        · cases h
    · rintro ⟨r₁, haccept, henv⟩
      exact ⟨(), r₁, haccept, _, r', henv, by rw [if_pos rfl]; rfl⟩

/-- A handshake that begins with the client's own hello establishes a connection on either way to
    take it in, with the same outcome. -/
theorem establishOnStream_eq_ok {i : ServerSide crypto} {sessions : SessionStore}
    {newReconnectToken : ReconnectToken} {written : Except Quinn.WriteError Unit}
    {recv : RecvStream} {r : EnvelopeReader}
    (hfirst : firstEnvelope (Reader.new recv) = some ((TypeId.CLIENT_HELLO, payload), r))
    {outcome : HandshakeOutcome} {sm : ConnectionSm} :
    (establishOnStream codec i sessions newReconnectToken written (.ok recv) inTime).1 =
        .ok (.established (outcome.context sm)) ↔
      serverHandshakeWithTimeouts codec i (.ok recv) inTime = .ok (outcome, sm) := by
  cases inTime with
  | false =>
    -- the time is up on either way
    obtain ⟨r₁, haccept, -⟩ := firstEnvelope_eq_some.1 hfirst
    have hread : readFirstControlMessage codec false (Reader.new recv) =
        .error .handshakeTimeout := by
      show (acceptControlPrologue (Reader.new recv)).bind _ = _
      rw [haccept]
      rfl
    have hlate : establishOnStream codec i sessions newReconnectToken written (.ok recv) false =
        (.error .handshakeTimeout, sessions) := by
      show establishConnection sessions (Except.bind (readFirstControlMessage codec false _) _) = _
      rw [hread]
      rfl
    rw [hlate]
    exact iff_of_false (fun h => by cases h) fun h => by cases h
  | true =>
    have hread := (@readFirstControlMessage_eq_clientHello codec _ _ _ _).2 ⟨rfl, hfirst⟩
    have hread' := readClientHello_eq_ok.2 ⟨rfl, _, hfirst, .inl rfl⟩
    have hestablish : establishOnStream codec i sessions newReconnectToken written (.ok recv) true =
        establishConnection sessions (.ok (.clientHello (i.met codec payload r))) := by
      show establishConnection sessions (Except.bind (readFirstControlMessage codec true _) _) = _
      rw [hread]
      rfl
    have hserver : serverHandshakeWithTimeouts codec i (.ok recv) true =
        Sardp.serverHandshakeFromClientHello (i.met codec payload r) := by
      show Except.bind (readClientHello true _) _ = _
      rw [hread', ← i.serverHandshakeFromClientHello_exec codec payload r []]
      rfl
    rw [hestablish, hserver, establishConnection]
    cases Sardp.serverHandshakeFromClientHello (i.met codec payload r) with
    | error e => simp
    | ok x =>
      rw [Except.ok.injEq, Except.ok.injEq, EstablishOutcome.established.injEq, Prod.ext_iff]
      exact HandshakeOutcome.context_inj

/-! ## The message that is due -/

/-- The type of the next envelope. -/
def nextType (r : EnvelopeReader) : Option UInt16 :=
  (r.readEnvelope StreamKind.control.maxEnvelopeLength).1.toOption.map Prod.fst

/-- The type of the first envelope of a control stream. -/
def firstType (r : EnvelopeReader) : Option UInt16 := (firstEnvelope r).map fun x => x.1.1

/-- The two ways to take a connection in agree on its first message, and each side takes only
    the message that is due, of what it reads of the other. -/
structure OnlyDue (codec : HandshakeCodec) (fromClient fromServer : EnvelopeReader) : Prop where
  agree : firstType fromClient ≠ some TypeId.SESSION_REAUTHENTICATE → ∀ inTime,
    ((∃ payload r, readClientHello inTime fromClient = .ok (payload, r)) ↔
      ∃ payload r,
        readFirstControlMessage codec inTime fromClient = .ok (.clientHello payload, r))
  clientHello : ∀ inTime payload r, readClientHello inTime fromClient = .ok (payload, r) ∨
      readFirstControlMessage codec inTime fromClient = .ok (.clientHello payload, r) →
    firstType fromClient = some TypeId.CLIENT_HELLO
  serverHello : ∀ (crypto : Crypto) (i : ClientSide crypto) written hellos x,
    (i.exchangeHellos codec .new).exec Control.decoder written fromServer = (.ok hellos, x) →
      nextType fromServer = some TypeId.SERVER_HELLO
  authPubkey : ∀ inTime payload r, readClientHello inTime fromClient = .ok (payload, r) →
    ∀ (crypto : Crypto) (i : ServerSide crypto) written authPubkey x,
      (i.readAuthPubkey codec ⟨.authenticating, 0⟩).exec Control.decoder written r =
          (.ok authPubkey, x) →
        nextType r = some TypeId.AUTH_PUBKEY
  authResult : ∀ (crypto : Crypto) (i : ClientSide crypto) written clientHelloBytes serverHello
      serverHelloBytes written' r,
    (i.exchangeHellos codec .new).exec Control.decoder written fromServer =
        (.ok (clientHelloBytes, serverHello, serverHelloBytes), written', r) →
      ∀ authResult x, (i.authenticate codec ⟨.authenticating, 0⟩ clientHelloBytes serverHello
          serverHelloBytes).exec Control.decoder written' r = (.ok authResult, x) →
        nextType r = some TypeId.AUTH_RESULT

/-- No side sends its hello under the type of the other's, and the server sends the result under
    its own type: what is sent otherwise does not decode. -/
structure UnderOwnType (codec : HandshakeCodec) (fromClient fromServer : EnvelopeReader) :
    Prop where
  clientHello : firstType fromClient ≠ some TypeId.SERVER_HELLO
  serverHello : ∀ payload r, fromServer.readEnvelope StreamKind.control.maxEnvelopeLength =
    (.ok (TypeId.CLIENT_HELLO, payload), r) → codec.serverHello.decode payload = none
  authResult : ∀ payload r typeRaw payload' r',
    fromServer.readEnvelope StreamKind.control.maxEnvelopeLength =
        (.ok (TypeId.SERVER_HELLO, payload), r) →
      codec.serverHello.decode payload ≠ none →
      r.readEnvelope StreamKind.control.maxEnvelopeLength = (.ok (typeRaw, payload'), r') →
      typeRaw ≠ TypeId.AUTH_RESULT → codec.authResult.decode payload' = none

variable {fromClient fromServer : EnvelopeReader}

theorem nextType_of_read {env : UInt16 × List UInt8}
    (h : r.readEnvelope StreamKind.control.maxEnvelopeLength = (.ok env, r')) :
    nextType r = some env.1 := by
  rw [nextType, h]
  rfl

theorem firstType_of_first {env : UInt16 × List UInt8} (h : firstEnvelope r = some (env, r')) :
    firstType r = some env.1 := by
  rw [firstType, h]
  rfl

theorem CLIENT_HELLO_ne_SERVER_HELLO : TypeId.CLIENT_HELLO ≠ TypeId.SERVER_HELLO := by decide

/-- Messages under their own types are taken only where they are due. -/
theorem UnderOwnType.onlyDue (h : UnderOwnType codec fromClient fromServer) :
    OnlyDue codec fromClient fromServer where
  agree := by
    intro _ inTime
    simp only [readClientHello_eq_ok, readFirstControlMessage_eq_clientHello]
    constructor
    · rintro ⟨payload, r, hinTime, typeRaw, hfirst, rfl | rfl⟩
      · exact ⟨payload, r, hinTime, hfirst⟩
      · exact absurd (firstType_of_first hfirst) h.clientHello
    · rintro ⟨payload, r, hinTime, hfirst⟩
      exact ⟨payload, r, hinTime, _, hfirst, .inl rfl⟩
  clientHello := by
    simp only [readClientHello_eq_ok, readFirstControlMessage_eq_clientHello]
    rintro inTime payload r (⟨-, typeRaw, hfirst, rfl | rfl⟩ | ⟨-, hfirst⟩)
    · exact firstType_of_first hfirst
    · exact absurd (firstType_of_first hfirst) h.clientHello
    · exact firstType_of_first hfirst
  serverHello := by
    rintro crypto i written ⟨_, serverHello, payload⟩ ⟨_, r⟩ hexec
    obtain ⟨-, -, -, -, -, hdecode, typeRaw, henv, rfl | rfl⟩ :=
      ClientSide.exchangeHellos_eq_ok.1 hexec
    · rw [h.serverHello payload r henv] at hdecode
      cases hdecode
    · exact nextType_of_read henv
  authPubkey := by
    rintro _ _ r - crypto i written authPubkey ⟨_, r'⟩ hexec
    obtain ⟨-, -, payload, henv, -⟩ := ServerSide.readAuthPubkey_eq_ok.1 hexec
    exact nextType_of_read henv
  authResult := by
    rintro crypto i written _ serverHello payload _ r hexec authResult ⟨_, r'⟩ hexec'
    obtain ⟨-, -, -, -, -, hdecode, typeRaw, henv, hhello⟩ :=
      ClientSide.exchangeHellos_eq_ok.1 hexec
    obtain ⟨-, -, -, -, -, typeRaw', payload', henv', hdecode'⟩ :=
      ClientSide.authenticate_eq_ok.1 hexec'
    rcases hhello with rfl | rfl
    · rw [h.serverHello payload r henv] at hdecode
      cases hdecode
    · by_contra hne
      rw [nextType_of_read henv', Option.some_inj] at hne
      have hnone := h.authResult payload r typeRaw' payload' r' henv (by simp [hdecode]) henv' hne
      rw [hnone] at hdecode'
      cases hdecode'

/-- Cryptography that always gives the same. -/
def blankCrypto : Crypto where
  sha256 _ := Vector.replicate 32 0
  Connection := Unit
  exportKeyingMaterial _ _ _ := some (Vector.replicate 32 0)
  SigningKey := Unit
  VerifyingKey := Unit
  verifyingKey _ := ()
  asBytes _ := Vector.replicate 32 0
  fromBytes _ := some ()
  sign _ _ := Vector.replicate 64 0
  verify _ _ _ := true

/-- Each side takes only the message that is due, and the two ways to take a connection in agree
    on its first message, exactly if no hello comes under the type of the other's, and the result
    under its own: or what comes otherwise does not decode. -/
theorem onlyDue_iff :
    OnlyDue codec fromClient fromServer ↔ UnderOwnType codec fromClient fromServer := by
  refine ⟨fun h => ⟨fun hfirst => ?_, fun payload r henv => ?_, ?_⟩, UnderOwnType.onlyDue⟩
  · -- the server's hello is taken for the client's
    obtain ⟨⟨⟨_, payload⟩, r⟩, hfirst', rfl⟩ := Option.map_eq_some_iff.1 hfirst
    have hread := readClientHello_eq_ok.2 ⟨rfl, _, hfirst', .inr rfl⟩
    exact CLIENT_HELLO_ne_SERVER_HELLO
      (Option.some_inj.1 ((h.clientHello true payload r (.inl hread)).symm.trans hfirst))
  · -- the client's hello is taken for the server's
    by_contra hdecode
    obtain ⟨serverHello, hdecode⟩ := Option.ne_none_iff_exists'.1 hdecode
    have hexec := (@ClientSide.exchangeHellos_eq_ok codec blankCrypto _ _ []
      _ (.unhindered () () "" "" "") _ payload serverHello).2
        ⟨rfl, rfl, rfl, rfl, rfl, hdecode, _, henv, .inl rfl⟩
    exact CLIENT_HELLO_ne_SERVER_HELLO (Option.some_inj.1
      ((nextType_of_read henv).symm.trans (h.serverHello _ _ _ _ _ hexec)))
  · -- anything is taken for the result
    intro payload r typeRaw payload' r' henv hdecode henv' hne
    by_contra hdecode'
    obtain ⟨serverHello, hdecode⟩ := Option.ne_none_iff_exists'.1 hdecode
    obtain ⟨authResult, hdecode'⟩ := Option.ne_none_iff_exists'.1 hdecode'
    have hexec := (@ClientSide.exchangeHellos_eq_ok codec blankCrypto _ _ []
      _ (.unhindered () () "" "" "") _ payload serverHello).2
        ⟨rfl, rfl, rfl, rfl, rfl, hdecode, _, henv, .inr rfl⟩
    have htype := h.authResult _ _ _ _ _ _ _ _ hexec authResult (_, r')
      (ClientSide.authenticate_eq_ok.2
        ⟨_, rfl, rfl, rfl, rfl, typeRaw, payload', henv', hdecode'⟩)
    exact hne (Option.some_inj.1 ((nextType_of_read henv').symm.trans htype))

/-- A library that decodes nothing. -/
def blankCodec : HandshakeCodec :=
  { clientHello := ⟨fun _ => [], fun _ => none⟩, serverHello := ⟨fun _ => [], fun _ => none⟩,
    authPubkey := ⟨fun _ => [], fun _ => none⟩, authResult := ⟨fun _ => [], fun _ => none⟩,
    sessionReauthenticate := ⟨fun _ => [], fun _ => none⟩ }

/-- A control stream that begins with an empty envelope of the type of the server's hello. -/
def swappedHello : EnvelopeReader :=
  Reader.new ⟨[⟨[0x53, 0x41, 0x52, 0x44, 0x01, 0x01, 0x00, 0x00, 0x02, 0x00], by decide⟩], none⟩

/-- A client that begins with the hello of a server is taken in where nothing else is expected, and
    turned away where it might also have reconnected. -/
theorem swapped_hello_taken :
    firstType swappedHello = some TypeId.SERVER_HELLO ∧
      (readClientHello true swappedHello).map Prod.fst = .ok [] ∧
      (readFirstControlMessage blankCodec true swappedHello).map Prod.fst =
        .error (.protocolViolation ReasonCode.PROTOCOL_UNEXPECTED_MESSAGE) ∧
      ¬OnlyDue blankCodec swappedHello (Reader.new ⟨[], none⟩) := by
  have htype : firstType swappedHello = some TypeId.SERVER_HELLO := by decide
  have hread : ∃ r, readClientHello true swappedHello = .ok ([], r) := ⟨_, rfl⟩
  refine ⟨htype, rfl, rfl, fun h => ?_⟩
  obtain ⟨r, hread⟩ := hread
  exact CLIENT_HELLO_ne_SERVER_HELLO
    (Option.some_inj.1 ((h.clientHello true [] r (.inl hread)).symm.trans htype))

end Sardp
