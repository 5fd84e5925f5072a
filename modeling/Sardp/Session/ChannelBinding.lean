import Sardp.Library.Sha256
import Sardp.Session.HandshakeFormats
import Sardp.Session.MessageOrder

/-!
# Channel binding

A client proves who it is with a signature of what its connection exports for a context, made of
hashes of both hellos and of the challenge of the server (`auth.rs`). Either side computes it from
what it has: its own hello as it has encoded it, and the other's as it has read it.

* A signature that the server takes is one that the trusted key has made for this connection, these
  hellos and this challenge, as long as nothing collides (`readsBound_of_accepted`).
* A client with the trusted key is taken on the same connection, and both sides end with the same
  outcome, if no message is longer than the control stream allows (`Meet.accepted`). One that is
  longer is refused (`Meet.oversized_refused`).
-/

namespace Sardp

open Framing

/-! ## What is signed -/

/-- What a signature is bound to. -/
structure Binding (crypto : Crypto) where
  connection : crypto.Connection
  clientHelloBytes : List UInt8
  serverHelloBytes : List UInt8
  authChallenge : Vector UInt8 32

namespace Binding

variable {crypto : Crypto}

/-- The context of the export. -/
def context (b : Binding crypto) : List UInt8 :=
  crypto.channelBindingContext b.clientHelloBytes b.serverHelloBytes b.authChallenge

/-- What is signed. -/
def exporter (b : Binding crypto) : Except AuthError (Vector UInt8 32) :=
  crypto.computeExporter b.connection b.context

/-- The hash gives different hellos of the bindings different hashes, and no two different
    contexts or connections of them export the same. -/
structure CollisionFree (bindings : Binding crypto → Prop) : Prop where
  sha256 : ∀ b b', bindings b → bindings b' →
    (crypto.sha256 b.clientHelloBytes = crypto.sha256 b'.clientHelloBytes →
      b.clientHelloBytes = b'.clientHelloBytes) ∧
    (crypto.sha256 b.serverHelloBytes = crypto.sha256 b'.serverHelloBytes →
      b.serverHelloBytes = b'.serverHelloBytes)
  exporter : ∀ b b' m, bindings b → bindings b' → b.exporter = .ok m → b'.exporter = .ok m →
    b.connection = b'.connection ∧ b.context = b'.context

/-- The parts of a context are found in their places. -/
theorem context_inj {b b' : Binding crypto} (h : b.context = b'.context) :
    crypto.sha256 b.clientHelloBytes = crypto.sha256 b'.clientHelloBytes ∧
      crypto.sha256 b.serverHelloBytes = crypto.sha256 b'.serverHelloBytes ∧
      b.authChallenge = b'.authChallenge := by
  simp only [context, Crypto.channelBindingContext, List.append_assoc] at h
  obtain ⟨hclient, h⟩ := List.append_inj (List.append_cancel_left h) (by simp)
  obtain ⟨hserver, hchallenge⟩ := List.append_inj h (by simp)
  exact ⟨Vector.toList_inj.1 hclient, Vector.toList_inj.1 hserver, Vector.toList_inj.1 hchallenge⟩

/-- What is signed tells the bindings apart. -/
theorem CollisionFree.eq_of_exporter {bindings : Binding crypto → Prop}
    (h : CollisionFree bindings) {b b' : Binding crypto} {m : Vector UInt8 32} (hb : bindings b)
    (hb' : bindings b') (hm : b.exporter = .ok m) (hm' : b'.exporter = .ok m) : b = b' := by
  obtain ⟨hconnection, hcontext⟩ := h.exporter b b' m hb hb' hm hm'
  obtain ⟨hclient, hserver, hchallenge⟩ := context_inj hcontext
  obtain ⟨hclient', hserver'⟩ := h.sha256 b b' hb hb'
  cases b
  cases b'
  cases hconnection
  cases hclient' hclient
  cases hserver' hserver
  cases hchallenge
  rfl

end Binding

/-- Signatures verify exactly for what the key has signed. -/
structure Crypto.Unforgeable (crypto : Crypto) : Prop where
  fromBytes_asBytes : ∀ key, crypto.fromBytes (crypto.asBytes key) = some key
  verify_sign : ∀ signingKey m,
    crypto.verify (crypto.verifyingKey signingKey) m (crypto.sign signingKey m) = true
  signed_of_verify : ∀ key m signature, crypto.verify key m signature = true →
    ∃ signingKey, crypto.verifyingKey signingKey = key ∧ signature = crypto.sign signingKey m
  same_of_verify : ∀ key m signingKey m',
    crypto.verify key m (crypto.sign signingKey m') = true →
      crypto.verifyingKey signingKey = key ∧ m' = m

/-- A signature verifies for a key exactly if the key has made it. -/
theorem verifyExporter_trusted {crypto : Crypto} (hcrypto : crypto.Unforgeable)
    {key : crypto.VerifyingKey} {m : Vector UInt8 32} {signature : List UInt8} :
    crypto.verifyExporter (crypto.asBytes key).toList m signature = .ok () ↔ ∃ signingKey,
      crypto.verifyingKey signingKey = key ∧ signature = crypto.signExporter signingKey m := by
  simp only [Crypto.verifyExporter, tryInto_toList, hcrypto.fromBytes_asBytes]
  constructor
  · intro h
    cases harray : tryInto 64 signature with
    | none =>
      rw [harray] at h
      cases h
    | some array =>
      simp only [harray] at h
      split_ifs at h with hverify
      obtain ⟨signingKey, hkey, rfl⟩ := hcrypto.signed_of_verify _ _ _ hverify
      exact ⟨signingKey, hkey, tryInto_eq_some.1 harray⟩
  · rintro ⟨signingKey, rfl, rfl⟩
    simp only [Crypto.signExporter, tryInto_toList, hcrypto.verify_sign, if_true]

/-! ## What the server takes -/

variable {codec : HandshakeCodec} {crypto : Crypto} {r r' : EnvelopeReader}
  {written written' : List Piece} {clientHelloBytes : List UInt8}

namespace ServerSide

/-- What the signature of a handshake is bound to, on the server's side. -/
def binding (codec : HandshakeCodec) (i : ServerSide crypto) (clientHelloBytes : List UInt8) :
    Binding crypto :=
  ⟨i.connection, clientHelloBytes, codec.serverHello.encode i.hello, i.authChallenge⟩

variable {i : ServerSide crypto} {authPubkey : AuthPubkey} {outcome : HandshakeOutcome}
  {sm : ConnectionSm}

/-- The server takes a signature of what it exports itself, by the key that it trusts. -/
theorem verification_eq_ok (hcrypto : crypto.Unforgeable) :
    i.verification clientHelloBytes (codec.serverHello.encode i.hello) authPubkey = .ok () ↔
      authPubkey.publicKey = (crypto.asBytes i.trustedPublicKey).toList ∧ ∃ m signingKey,
        (i.binding codec clientHelloBytes).exporter = .ok m ∧
        crypto.verifyingKey signingKey = i.trustedPublicKey ∧
        authPubkey.signature = crypto.signExporter signingKey m := by
  rw [verification]
  by_cases hkey : authPubkey.publicKey = (crypto.asBytes i.trustedPublicKey).toList
  · rw [if_neg (not_not.2 hkey), Except.bind_eq_ok, hkey]
    simp only [verifyExporter_trusted hcrypto, true_and]
    refine exists_congr fun m => ⟨?_, ?_⟩
    · rintro ⟨hm, signingKey, htrusted, hsignature⟩
      exact ⟨signingKey, hm, htrusted, hsignature⟩
    · rintro ⟨signingKey, hm, htrusted, hsignature⟩
      exact ⟨hm, signingKey, htrusted, hsignature⟩
  · rw [if_pos hkey]
    exact iff_of_false (fun h => by cases h) fun h => hkey h.1

/-- The server reads a signature that the key it trusts has made for what it exports itself. If the
    signature was made for any of some bindings that do not collide, then for this one. -/
def ReadsBound (codec : HandshakeCodec) (i : ServerSide crypto) (clientHelloBytes : List UInt8)
    (r : EnvelopeReader) : Prop :=
  ∃ payload authPubkey m signingKey,
    (r.readEnvelope StreamKind.control.maxEnvelopeLength).1 = .ok (TypeId.AUTH_PUBKEY, payload) ∧
    codec.authPubkey.decode payload = some authPubkey ∧
    (i.binding codec clientHelloBytes).exporter = .ok m ∧
    crypto.verifyingKey signingKey = i.trustedPublicKey ∧
    authPubkey.signature = crypto.signExporter signingKey m ∧
    ∀ bindings, Binding.CollisionFree bindings → bindings (i.binding codec clientHelloBytes) →
      ∀ b m' signingKey', bindings b → b.exporter = .ok m' →
        authPubkey.signature = crypto.signExporter signingKey' m' →
          b = i.binding codec clientHelloBytes ∧
            crypto.verifyingKey signingKey' = i.trustedPublicKey

/-- The server only succeeds with a signature that is bound to its side of the handshake. -/
theorem readsBound_of_accepted (hcrypto : crypto.Unforgeable)
    {x : HandshakeOutcome × ConnectionSm} {y : List Piece × EnvelopeReader}
    (h : (i.serverHandshakeFromClientHello codec clientHelloBytes).exec Control.decoder written r =
      (.ok x, y)) : i.ReadsBound codec clientHelloBytes r := by
  obtain ⟨-, -, -, payload, authPubkey, henv, hdecode, hverification, -, -, -⟩ :=
    ServerSide.serverHandshakeFromClientHello_eq_ok.1 h
  obtain ⟨-, m, signingKey, hm, hkey, hsignature⟩ :=
    (verification_eq_ok hcrypto).1 hverification
  refine ⟨payload, authPubkey, m, signingKey, by rw [henv], hdecode, hm, hkey, hsignature, ?_⟩
  intro bindings hfree hbinding b m' signingKey' hb hm' hsignature'
  -- the same signature verifies for what was signed there
  have hsame : crypto.sign signingKey' m' = crypto.sign signingKey m :=
    Vector.toList_inj.1 (hsignature'.symm.trans hsignature)
  have hverify : crypto.verify i.trustedPublicKey m (crypto.sign signingKey' m') = true := by
    rw [hsame, ← hkey]
    exact hcrypto.verify_sign signingKey m
  obtain ⟨hkey', rfl⟩ := hcrypto.same_of_verify _ _ _ _ hverify
  exact ⟨hfree.eq_of_exporter hb hbinding hm' hm, hkey'⟩

end ServerSide

/-! ## A client with the trusted key -/

namespace ClientSide

variable (codec) (i : ClientSide crypto)

/-- What the client writes, from what it reads. -/
def sent (r : EnvelopeReader) : List Piece :=
  ((i.clientHandshake codec).exec Control.decoder [] r).2.1

theorem writes_authenticate (sm : ConnectionSm) (clientHelloBytes : List UInt8)
    (serverHello : ServerHello) (serverHelloBytes : List UInt8) :
    Control.Writes [] (i.authenticate codec sm clientHelloBytes serverHello serverHelloBytes) :=
  (Control.writes_ofExcept _).bind fun _ => (Control.writes_ofExcept _).bind fun _ =>
    (Control.writes_writeWithin _ _).bind fun _ => (Control.writes_readWithin _).bind fun _ =>
      Control.writes_ofExcept _

theorem writes_conclude (sm : ConnectionSm) (authResult : AuthResult) :
    Control.Writes [] (i.conclude sm authResult) := by
  rw [conclude]
  cases authResult.status with
  | ok => exact (Control.writes_ofExcept _).bind fun _ => Control.writes_ofExcept (.ok _)
  | mfaRequired | denied => exact Control.writes_ofExcept (.error _)

/-- The client begins with the prologue and its hello. -/
theorem Unhindered.sent {i : ClientSide crypto} (h : i.Unhindered) (r : EnvelopeReader) :
    ∃ more, i.sent codec r = .prologue ⟨.control, 1, 0⟩ ::
      .envelope TypeId.CLIENT_HELLO (codec.clientHello.encode i.hello) :: more := by
  have hwrites : Control.Writes [.prologue ⟨.control, 1, 0⟩,
      .envelope TypeId.CLIENT_HELLO (codec.clientHello.encode i.hello)]
      (i.clientHandshake codec) := by
    rw [clientHandshake, exchangeHellos, h.opened, h.prologue, h.clientHello]
    refine Control.writes_ofExcept_bind (Control.Writes.bind ?_ fun hellos => ?_)
    · refine Control.writes_writeWithin_bind (Control.writes_ofExcept_bind
        (Control.writes_writeWithin_bind ?_))
      exact (Control.writes_readWithin _).bind fun _ => (Control.writes_ofExcept _).bind fun _ =>
        (Control.writes_ofExcept _).bind fun _ => Control.writes_ofExcept (.ok _)
    · exact (Control.writes_ofExcept _).bind fun sm =>
        (writes_authenticate codec i _ _ _ _).bind fun authResult => writes_conclude i sm authResult
  exact hwrites [] r

/-- Once it has read the server's hello, the client goes on with its signature. -/
theorem Unhindered.sent_signed {i : ClientSide crypto} (h : i.Unhindered)
    {serverHello : ServerHello} {clientHelloBytes serverHelloBytes : List UInt8}
    {m : Vector UInt8 32}
    (hhellos : (i.exchangeHellos codec .new).exec Control.decoder [] r =
      (.ok (clientHelloBytes, serverHello, serverHelloBytes), written, r'))
    (hm : crypto.computeExporter i.connection (crypto.channelBindingContext clientHelloBytes
      serverHelloBytes serverHello.authChallenge) = .ok m) :
    ∃ more, i.sent codec r = written ++
      .envelope TypeId.AUTH_PUBKEY (codec.authPubkey.encode (i.signed m)) :: more := by
  have hwrites : Control.Writes
      [.envelope TypeId.AUTH_PUBKEY (codec.authPubkey.encode (i.signed m))]
      (i.authenticate codec ⟨.authenticating, 0⟩ clientHelloBytes serverHello
        serverHelloBytes) := by
    rw [authenticate, hm, h.authPubkey]
    refine Control.writes_ofExcept_bind (Control.writes_ofExcept_bind
      (Control.writes_writeWithin_bind ((Control.writes_readWithin _).bind fun env => ?_)))
    exact Control.writes_ofExcept _
  have hrest := Control.writes_ofExcept_bind (Control.Writes.bind hwrites fun authResult =>
    writes_conclude i ⟨.authenticating, 0⟩ authResult)
  rw [ClientSide.sent, clientHandshake, h.opened, Control.exec_bind]
  simp only [Except.mapError, Control.exec_ofExcept]
  rw [Control.exec_bind, hhellos]
  exact hrest written r'

end ClientSide

namespace ServerSide

variable (codec) (i : ServerSide crypto)

/-- What the server writes, from what it reads. -/
def sent (r : EnvelopeReader) : List Piece :=
  match readClientHello true r with
  | .ok (payload, r) =>
    ((i.serverHandshakeFromClientHello codec payload).exec Control.decoder [] r).2.1
  | .error _ => []

/-- The server begins with its hello, once it has read the client's. -/
theorem Unhindered.sent {i : ServerSide crypto} (h : i.Unhindered) {payload : List UInt8}
    (hread : readClientHello true r = .ok (payload, r')) : ∃ more,
    i.sent codec r = .envelope TypeId.SERVER_HELLO (codec.serverHello.encode i.hello) :: more := by
  have hwrites : Control.Writes
      [.envelope TypeId.SERVER_HELLO (codec.serverHello.encode i.hello)]
      (i.serverHandshakeFromClientHello codec payload) := by
    rw [serverHandshakeFromClientHello, h.serverHello]
    refine Control.writes_ofExcept_bind (Control.writes_ofExcept_bind
      (Control.writes_writeWithin_bind ((Control.writes_ofExcept _).bind fun sm => ?_)))
    refine Control.Writes.bind ?_ fun authPubkey => ?_
    · exact (Control.writes_readWithin _).bind fun _ => (Control.writes_ofExcept _).bind fun _ =>
        Control.writes_ofExcept _
    · cases i.verification payload (codec.serverHello.encode i.hello) authPubkey with
      | ok _ =>
        exact (Control.writes_ofExcept _).bind fun _ => (Control.writes_write _ _).bind fun _ =>
          Control.writes_ofExcept (.ok _)
      | error e => exact (Control.writes_write _ _).bind fun _ => Control.writes_ofExcept (.error _)
  rw [ServerSide.sent, hread]
  exact hwrites [] r'

end ServerSide

/-- Each side reads what the other writes, in whatever chunks. -/
structure Meet (codec : HandshakeCodec) (client : ClientSide crypto) (server : ServerSide crypto)
    (fromClient fromServer : EnvelopeReader) : Prop where
  toServer : encodePieces (client.sent codec fromServer) [] = some fromClient.remaining
  toClient : encodePieces (server.sent codec fromClient) [] = some fromServer.remaining

variable {client : ClientSide crypto} {server : ServerSide crypto} {recv : RecvStream}
  {fromClient fromServer : EnvelopeReader}

/-- No message is longer than the control stream allows. -/
structure Fits (codec : HandshakeCodec) (client : ClientSide crypto) (server : ServerSide crypto) :
    Prop where
  clientHello :
    (codec.clientHello.encode client.hello).length ≤ StreamKind.control.maxEnvelopeLength
  serverHello :
    (codec.serverHello.encode server.hello).length ≤ StreamKind.control.maxEnvelopeLength
  authPubkey : ∀ m,
    (codec.authPubkey.encode (client.signed m)).length ≤ StreamKind.control.maxEnvelopeLength
  authResult :
    (codec.authResult.encode server.granted).length ≤ StreamKind.control.maxEnvelopeLength

/-- The library decodes the messages to what they were encoded from. -/
structure Decodes (codec : HandshakeCodec) (client : ClientSide crypto)
    (server : ServerSide crypto) : Prop where
  serverHello : codec.serverHello.Faithful server.hello
  authPubkey : ∀ m, codec.authPubkey.Faithful (client.signed m)
  authResult : codec.authResult.Faithful server.granted

/-- A client with the trusted key, on the other end of the connection. -/
structure Trusted (client : ClientSide crypto) (server : ServerSide crypto) : Prop where
  connection : client.connection = server.connection
  key : crypto.verifyingKey client.signingKey = server.trustedPublicKey
  client : client.Unhindered
  server : server.Unhindered

/-- The outcome that both sides are to end with. -/
def agreedOutcome (client : ClientSide crypto) (server : ServerSide crypto) : HandshakeOutcome :=
  ⟨server.sessionId, server.reconnectToken, FRESH_GRANT, client.userId⟩

/-- The hello of a client arrives as what it is. -/
theorem Meet.firstEnvelope (h : Meet codec client server fromClient fromServer)
    (hclient : client.Unhindered) (hfits : (codec.clientHello.encode client.hello).length ≤
      StreamKind.control.maxEnvelopeLength) :
    ∃ r, Sardp.firstEnvelope fromClient =
        some ((TypeId.CLIENT_HELLO, codec.clientHello.encode client.hello), r) ∧
      ∀ more, client.sent codec fromServer = .prologue ⟨.control, 1, 0⟩ ::
          .envelope TypeId.CLIENT_HELLO (codec.clientHello.encode client.hello) :: more →
        Pending more r := by
  obtain ⟨more, hsent⟩ := hclient.sent codec fromServer
  have hpending : Pending (client.sent codec fromServer) fromClient := ⟨[], h.toServer⟩
  rw [hsent] at hpending
  obtain ⟨r₁, hprologue, hpending⟩ := hpending.readPrologue
  obtain ⟨r₂, henv, hpending⟩ := hpending.readEnvelope hfits
  refine ⟨r₂, firstEnvelope_eq_some.2 ⟨r₁, acceptControlPrologue_eq_ok.2 ⟨_, hprologue, rfl⟩, henv⟩,
    fun more' hmore => ?_⟩
  obtain rfl : more = more' := by simpa using hsent.symm.trans hmore
  exact hpending

/-- A client with the trusted key is accepted, and both sides end with the same outcome. -/
theorem Meet.accepted (h : Meet codec client server fromClient fromServer)
    (hcrypto : crypto.Unforgeable) (htrusted : Trusted client server)
    (hexporter : ∃ m,
      (server.binding codec (codec.clientHello.encode client.hello)).exporter = .ok m)
    (hdecodes : Decodes codec client server) (hfits : Fits codec client server) :
    ∃ payload r y y', Sardp.firstEnvelope fromClient = some ((TypeId.CLIENT_HELLO, payload), r) ∧
      (server.serverHandshakeFromClientHello codec payload).exec Control.decoder [] r =
        (.ok (agreedOutcome client server, ⟨.authenticated, 0⟩), y) ∧
      (client.clientHandshake codec).exec Control.decoder [] fromServer =
        (.ok (agreedOutcome client server, ⟨.authenticated, 0⟩), y') := by
  -- the server reads the client's hello
  obtain ⟨r, hfirst, hmore⟩ := h.firstEnvelope htrusted.client hfits.clientHello
  have hread := readClientHello_eq_ok.2 ⟨rfl, _, hfirst, .inl rfl⟩
  -- the client reads the server's
  obtain ⟨moreServer, hsent⟩ := htrusted.server.sent codec hread
  have hpending : Pending (server.sent codec fromClient) fromServer := ⟨[], h.toClient⟩
  rw [hsent] at hpending
  obtain ⟨r₁, hhello, hpending⟩ := hpending.readEnvelope hfits.serverHello
  have hhellos := ClientSide.exchangeHellos_eq_ok.2 ⟨htrusted.client.prologue,
    htrusted.client.clientHello, htrusted.client.serverHello, rfl, @rfl (List Piece) ([] ++ _ ++ _),
    hdecodes.serverHello, _, hhello, .inr rfl⟩
  -- the server reads the signature, which is one of what it exports itself
  obtain ⟨m, hm⟩ := hexporter
  have hm' := hm
  rw [Binding.exporter, ServerSide.binding, ← htrusted.connection] at hm'
  obtain ⟨moreClient, hsigned⟩ := htrusted.client.sent_signed codec hhellos hm'
  obtain ⟨r₂, hauthPubkey, -⟩ := (hmore _ hsigned).readEnvelope (hfits.authPubkey m)
  have hverification : server.verification (codec.clientHello.encode client.hello)
      (codec.serverHello.encode server.hello) (client.signed m) = .ok () :=
    (ServerSide.verification_eq_ok hcrypto).2
      ⟨by rw [← htrusted.key]; rfl, m, client.signingKey, hm, htrusted.key, rfl⟩
  have hserver := ServerSide.serverHandshakeFromClientHello_eq_ok.2 ⟨htrusted.server.serverHello,
    htrusted.server.authPubkey, htrusted.server.authResult, _, _, hauthPubkey,
    hdecodes.authPubkey m, hverification, rfl, rfl, @rfl (List Piece) ([] ++ _ ++ _)⟩
  -- the client reads the result
  have hsent' := hsent
  rw [ServerSide.sent, hread] at hsent'
  simp only [hserver] at hsent'
  obtain rfl : moreServer = _ := (List.cons.inj hsent').2.symm
  obtain ⟨r₃, hresult, -⟩ := hpending.readEnvelope hfits.authResult
  exact ⟨_, r, _, _, hfirst, hserver, ClientSide.clientHandshake_eq_ok.2 ⟨htrusted.client.opened,
    _, _, _, _, _, server.granted, hhellos, ClientSide.authenticate_eq_ok.2 ⟨m, hm',
      htrusted.client.authPubkey, htrusted.client.authResult, rfl, _, _, hresult,
      hdecodes.authResult⟩, rfl, rfl, rfl⟩⟩

/-- A first envelope that is longer than the control stream allows is refused. -/
theorem firstEnvelope_of_oversized {streamPrologue : StreamPrologue} {typeRaw : UInt16}
    {payload : List UInt8} {more : List Piece}
    (h : Pending (.prologue streamPrologue :: .envelope typeRaw payload :: more) r)
    (hlong : StreamKind.control.maxEnvelopeLength < payload.length) : firstEnvelope r = none := by
  obtain ⟨r₁, hprologue, hpending⟩ := h.readPrologue
  obtain ⟨r₂, henv⟩ := hpending.readEnvelope_oversized hlong
  rw [Option.eq_none_iff_forall_ne_some]
  rintro ⟨env, r'⟩ hfirst
  obtain ⟨r₁', haccept, henv'⟩ := firstEnvelope_eq_some.1 hfirst
  obtain ⟨_, hprologue', -⟩ := acceptControlPrologue_eq_ok.1 haccept
  obtain rfl : r₁ = r₁' := (Prod.ext_iff.1 (hprologue.symm.trans hprologue')).2
  cases henv.symm.trans henv'

/-- So a client with a longer hello is refused. -/
theorem Meet.oversized_refused (h : Meet codec client server fromClient fromServer)
    (hclient : client.Unhindered) (hlong : StreamKind.control.maxEnvelopeLength <
      (codec.clientHello.encode client.hello).length) : Sardp.firstEnvelope fromClient = none := by
  obtain ⟨more, hsent⟩ := hclient.sent codec fromServer
  have hpending : Pending (client.sent codec fromServer) fromClient := ⟨[], h.toServer⟩
  rw [hsent] at hpending
  exact firstEnvelope_of_oversized hpending hlong

/-- What the server accepts is bound to its connection, the hellos and its challenge; and a client
    with the trusted key is accepted, with the same outcome on both sides, if no message is longer
    than the control stream allows. -/
theorem bound_and_accepted (hcrypto : crypto.Unforgeable) :
    (∀ (server : ServerSide crypto) clientHelloBytes written r x y,
      (server.serverHandshakeFromClientHello codec clientHelloBytes).exec Control.decoder written
        r = (.ok x, y) → server.ReadsBound codec clientHelloBytes r) ∧
    ∀ (client : ClientSide crypto) (server : ServerSide crypto) fromClient fromServer,
      Meet codec client server fromClient fromServer → Trusted client server →
      (∃ m, (server.binding codec (codec.clientHello.encode client.hello)).exporter = .ok m) →
      Decodes codec client server → Fits codec client server →
        ∃ payload r y y', firstEnvelope fromClient = some ((TypeId.CLIENT_HELLO, payload), r) ∧
          (server.serverHandshakeFromClientHello codec payload).exec Control.decoder [] r =
            (.ok (agreedOutcome client server, ⟨.authenticated, 0⟩), y) ∧
          (client.clientHandshake codec).exec Control.decoder [] fromServer =
            (.ok (agreedOutcome client server, ⟨.authenticated, 0⟩), y') :=
  ⟨fun _ _ _ _ _ _ h => ServerSide.readsBound_of_accepted hcrypto h,
    fun _ _ _ _ h htrusted hexporter hdecodes hfits =>
      h.accepted hcrypto htrusted hexporter hdecodes hfits⟩

/-- What the server writes is decoded, if its name is not longer than CBOR can tell. -/
theorem ServerSide.fits_hello {server : ServerSide crypto}
    (h : server.serverName.utf8ByteSize < 2 ^ 64) : ServerHello.format.Fits server.hello := by
  have hmethods : AuthMethod.listFormat.Fits [.publicKey] :=
    ⟨by decide, List.forall_mem_singleton.2 (show AuthMethod.publicKey.name.utf8ByteSize < _ by
      decide)⟩
  have hpolicy : AuthPolicy.format.Fits ⟨[⟨[.publicKey], 0⟩]⟩ :=
    ⟨by decide, List.forall_mem_singleton.2 ⟨hmethods, show 0 < 2 ^ 64 by decide⟩⟩
  exact ⟨h, show CARGO_PKG_VERSION.utf8ByteSize < _ by decide,
    ⟨show 0 < 2 ^ 64 by decide, List.forall_mem_nil _⟩, hpolicy, fits_vectorFormat (by decide) _⟩

theorem ServerSide.fits_granted (server : ServerSide crypto) :
    AuthResult.format.Fits server.granted := by
  have hreason : ReasonCode.format.Fits ReasonCode.NONE :=
    ⟨show 0 < 2 ^ 64 by decide, show 0 < 2 ^ 64 by decide⟩
  exact ⟨show AuthStatus.ok.name.utf8ByteSize < _ by decide, hreason,
    fits_vectorFormat (by decide) _, fits_vectorFormat (by decide) _,
    FRESH_GRANT.isLt.trans (by decide)⟩

/-- Read as they have been written, the bodies are decoded to the messages, if no string is longer
    than CBOR can tell. -/
theorem Decodes.ofFormats (hserver : server.serverName.utf8ByteSize < 2 ^ 64)
    (huser : client.userId.utf8ByteSize < 2 ^ 64)
    (hdevice : client.deviceId.utf8ByteSize < 2 ^ 64) : Decodes .ofFormats client server where
  serverHello := BodyCodec.faithful_ofFormat (ServerSide.fits_hello hserver)
  authPubkey m := BodyCodec.faithful_ofFormat
    ⟨huser, hdevice, Vector.length_toList.trans_lt (by decide),
      Vector.length_toList.trans_lt (by decide)⟩
  authResult := BodyCodec.faithful_ofFormat server.fits_granted

/-! ## Two sides that meet -/

/-- The hash SHA-256, an exporter that hashes the secret of a connection with the label and the
    context, and signatures that show the key and what is signed. -/
def plainCrypto : Crypto where
  sha256 := Sha256.digest
  Connection := Vector UInt8 32
  exportKeyingMaterial connection label context :=
    some (Sha256.digest (connection.toList ++ label ++ context))
  SigningKey := Vector UInt8 32
  VerifyingKey := Vector UInt8 32
  verifyingKey key := key
  asBytes key := key
  fromBytes bytes := some bytes
  sign key m := key ++ m
  verify key m signature := decide (signature = key ++ m)

theorem plainCrypto_unforgeable : plainCrypto.Unforgeable where
  fromBytes_asBytes _ := rfl
  verify_sign _ _ := decide_eq_true rfl
  signed_of_verify key _ _ h := ⟨key, rfl, of_decide_eq_true h⟩
  same_of_verify (key : Vector UInt8 32) m (key' : Vector UInt8 32) m' h := by
    have heq : key' ++ m' = key ++ m := of_decide_eq_true h
    have hlist := congrArg Vector.toList heq
    rw [Vector.toList_append, Vector.toList_append] at hlist
    obtain ⟨hkey, hm⟩ := List.append_inj hlist (by rw [Vector.length_toList, Vector.length_toList])
    exact ⟨Vector.toList_inj.1 hkey, Vector.toList_inj.1 hm⟩

/-- The server at one end of a connection. -/
def plainServer : ServerSide plainCrypto :=
  { connection := Vector.replicate 32 7, serverName := "server",
    trustedPublicKey := Vector.replicate 32 1, authChallenge := Vector.replicate 32 2,
    sessionId := Vector.replicate 16 3, reconnectToken := Vector.replicate 32 4,
    serverHello := some (.ok ()), authPubkeyInTime := true, authResult := .ok () }

/-- A client of the name at the other end, with the trusted key. -/
def plainClient (clientName : String) : ClientSide plainCrypto :=
  .unhindered (Vector.replicate 32 7) (Vector.replicate 32 1) clientName "alice" "laptop"

/-- A reader that all of a stream has arrived at. -/
def received (bytes : List UInt8) : EnvelopeReader := ⟨⟨[], none⟩, bytes⟩

@[simp] theorem remaining_received (bytes : List UInt8) : (received bytes).remaining = bytes :=
  List.append_nil bytes

/-- What the connection exports for the handshake of a client with the server. -/
def plainExported : List UInt8 :=
  [0x5c, 0xf0, 0x00, 0xca, 0xd2, 0x38, 0x08, 0xfa, 0xfb, 0xa9, 0x70, 0x3a, 0xb7, 0x09, 0xa7, 0x28,
    0x28, 0x34, 0xb2, 0x8f, 0x13, 0x25, 0xfd, 0x77, 0x60, 0xd8, 0x60, 0x49, 0x91, 0xf8, 0x9e, 0xe5]

/-- All that a client writes in a handshake with the server. -/
def plainFromClient : EnvelopeReader :=
  received ((encodePieces [.prologue ⟨.control, 1, 0⟩,
    .envelope TypeId.CLIENT_HELLO (plainClient "client").hello.encode,
    .envelope TypeId.AUTH_PUBKEY (AuthPubkey.encode ⟨"alice", "laptop", List.replicate 32 1,
      List.replicate 32 1 ++ plainExported⟩)] []).getD [])

/-- All that the server writes. -/
def plainFromServer : EnvelopeReader :=
  received ((encodePieces [.envelope TypeId.SERVER_HELLO plainServer.hello.encode,
    .envelope TypeId.AUTH_RESULT plainServer.granted.encode] []).getD [])

theorem plain_meet :
    Meet .ofFormats (plainClient "client") plainServer plainFromClient plainFromServer where
  toServer := by decide +kernel
  toClient := by decide +kernel

theorem plain_trusted (clientName : String) : Trusted (plainClient clientName) plainServer where
  connection := rfl
  key := rfl
  client := ⟨rfl, rfl, rfl, rfl, rfl, rfl⟩
  server := ⟨rfl, rfl, rfl⟩

theorem plain_decodes (clientName : String) :
    Decodes .ofFormats (plainClient clientName) plainServer :=
  have hserver : "server".utf8ByteSize < 2 ^ 64 := by decide
  have huser : "alice".utf8ByteSize < 2 ^ 64 := by decide
  have hdevice : "laptop".utf8ByteSize < 2 ^ 64 := by decide
  .ofFormats hserver huser hdevice

theorem plain_fits : Fits .ofFormats (plainClient "client") plainServer where
  clientHello := by decide +kernel
  serverHello := by decide +kernel
  authPubkey m := by
    have hlength := AuthPubkey.length_encode ((plainClient "client").signed m)
    have hkey : ((plainClient "client").signed m).publicKey.length = 32 := Vector.length_toList
    have hsignature : ((plainClient "client").signed m).signature.length = 64 :=
      Vector.length_toList
    have hsum : 40 + Cbor.headLen "alice".utf8ByteSize + "alice".utf8ByteSize +
        Cbor.headLen "laptop".utf8ByteSize + "laptop".utf8ByteSize + Cbor.headLen 32 + 32 +
        Cbor.headLen 64 + 64 ≤ StreamKind.control.maxEnvelopeLength := by
      decide
    rw [hkey, hsignature] at hlength
    exact hlength.trans_le hsum
  authResult := by decide +kernel

/-- The same server with another challenge. -/
def renewedServer : ServerSide plainCrypto :=
  { plainServer with authChallenge := Vector.replicate 32 5 }

/-- The handshake of a client with the server, and others that its signature could be taken for: on
    another connection, and with another challenge. -/
def plainBindings : List (Binding plainCrypto) :=
  [plainServer.binding .ofFormats (plainClient "client").hello.encode,
    { plainServer.binding .ofFormats (plainClient "client").hello.encode with
      connection := Vector.replicate 32 8 },
    renewedServer.binding .ofFormats (plainClient "client").hello.encode]

theorem plainBindings_collisionFree : Binding.CollisionFree (· ∈ plainBindings) where
  sha256 b b' hb hb' := by
    have hclient : ∀ b ∈ plainBindings,
        b.clientHelloBytes = (plainClient "client").hello.encode := by
      decide +kernel
    have hserver : ∀ b ∈ plainBindings,
        b.serverHelloBytes ∈ [plainServer.hello.encode, renewedServer.hello.encode] := by
      decide +kernel
    have hnodup : ([plainServer.hello.encode, renewedServer.hello.encode].map
        Sha256.digest).Nodup := by
      decide +kernel
    exact ⟨fun _ => (hclient b hb).trans (hclient b' hb').symm,
      List.inj_on_of_nodup_map hnodup (hserver b hb) (hserver b' hb')⟩
  exporter b b' m hb hb' hm hm' := by
    have hnodup : (plainBindings.map fun b => b.exporter.toOption).Nodup := by decide +kernel
    obtain rfl := List.inj_on_of_nodup_map hnodup hb hb'
      (congrArg Except.toOption (hm.trans hm'.symm))
    exact ⟨rfl, rfl⟩

/-- A client meets the server, and is accepted with a signature that is bound to the handshake, and
    to no other of those it could be mistaken for. -/
theorem bound_and_accepted_plain :
    Binding.CollisionFree (· ∈ plainBindings) ∧ ∃ payload r y y',
      firstEnvelope plainFromClient = some ((TypeId.CLIENT_HELLO, payload), r) ∧
      plainServer.binding .ofFormats payload ∈ plainBindings ∧
      plainServer.ReadsBound .ofFormats payload r ∧
      (plainServer.serverHandshakeFromClientHello .ofFormats payload).exec Control.decoder [] r =
        (.ok (agreedOutcome (plainClient "client") plainServer, ⟨.authenticated, 0⟩), y) ∧
      ((plainClient "client").clientHandshake .ofFormats).exec Control.decoder []
          plainFromServer =
        (.ok (agreedOutcome (plainClient "client") plainServer, ⟨.authenticated, 0⟩), y') := by
  obtain ⟨hbound, haccepted⟩ := @bound_and_accepted .ofFormats plainCrypto plainCrypto_unforgeable
  obtain ⟨payload, r, y, y', hfirst, hserver, hclient⟩ := haccepted _ _ _ _ plain_meet
    (plain_trusted _) ⟨_, rfl⟩ (plain_decodes _) plain_fits
  have hpayload : (firstEnvelope plainFromClient).map (fun x => x.1.2) =
      some (plainClient "client").hello.encode := by
    decide +kernel
  rw [hfirst] at hpayload
  obtain rfl : payload = _ := Option.some_inj.1 hpayload
  exact ⟨plainBindings_collisionFree, _, r, y, y', hfirst, List.mem_cons_self,
    hbound _ _ _ _ _ _ hserver, hserver, hclient⟩

/-- There is a name of any length. -/
theorem exists_name (n : ℕ) : ∃ name : String, name.utf8ByteSize = n := by
  induction n with
  | zero => exact ⟨"", rfl⟩
  | succ n ih =>
    obtain ⟨name, hname⟩ := ih
    exact ⟨name ++ "a", by rw [String.utf8ByteSize_append, hname]; rfl⟩

theorem length_plainHello (clientName : String) :
    (HandshakeCodec.ofFormats.clientHello.encode (plainClient clientName).hello).length =
      72 + Cbor.headLen clientName.utf8ByteSize + clientName.utf8ByteSize := by
  have hversion : Cbor.headLen CARGO_PKG_VERSION.utf8ByteSize +
      CARGO_PKG_VERSION.utf8ByteSize = 6 := by
    decide
  have hlists :
      (encodeCapabilities []).length + (AuthMethod.encodeAll [.publicKey]).length = 12 := by
    decide
  refine (plainClient clientName).hello.length_encode.trans ?_
  show 54 + Cbor.headLen clientName.utf8ByteSize + clientName.utf8ByteSize +
    Cbor.headLen CARGO_PKG_VERSION.utf8ByteSize + CARGO_PKG_VERSION.utf8ByteSize +
    (encodeCapabilities []).length + (AuthMethod.encodeAll [.publicKey]).length = _
  omega

/-- A client of a long name meets the server, if the name can be written at all. -/
theorem plain_meet_long {clientName : String}
    (hlong : StreamKind.control.maxEnvelopeLength < clientName.utf8ByteSize)
    (hmax : clientName.utf8ByteSize + 81 ≤ Varint.MAX) :
    ∃ fromClient fromServer, Meet .ofFormats (plainClient clientName) plainServer fromClient
      fromServer := by
  have hlength := length_plainHello clientName
  have hhead := Cbor.headLen_le clientName.utf8ByteSize
  -- the client writes its hello, and then waits for one that does not come
  have hsent : (plainClient clientName).sent .ofFormats (received []) =
      [.prologue ⟨.control, 1, 0⟩, .envelope TypeId.CLIENT_HELLO
        (HandshakeCodec.ofFormats.clientHello.encode (plainClient clientName).hello)] := rfl
  obtain ⟨bytes, hbytes⟩ : ∃ bytes, Envelope.encode TypeId.CLIENT_HELLO
      (HandshakeCodec.ofFormats.clientHello.encode (plainClient clientName).hello)
        [0x53, 0x41, 0x52, 0x44, 0x01, 0x01, 0x00] = some bytes :=
    Option.isSome_iff_exists.1 (Envelope.encode_isSome.2 (by omega))
  have hpieces : encodePieces ((plainClient clientName).sent .ofFormats (received [])) [] =
      some bytes := by
    rw [hsent]
    exact encodePieces_cons_eq_some.2 ⟨[0x53, 0x41, 0x52, 0x44, 0x01, 0x01, 0x00], by decide,
      encodePieces_cons_eq_some.2 ⟨bytes, hbytes, rfl⟩⟩
  have hpending : Pending _ (received bytes) :=
    ⟨[], by rw [hpieces, remaining_received, List.nil_append]⟩
  have hfirst : firstEnvelope (received bytes) = none :=
    firstEnvelope_of_oversized (hsent ▸ hpending) (by omega)
  refine ⟨received bytes, received [], by rw [hpieces, remaining_received], ?_⟩
  -- the server reads no hello, and writes nothing
  have hnothing : plainServer.sent .ofFormats (received bytes) = [] := by
    rw [ServerSide.sent]
    cases hread : readClientHello true (received bytes) with
    | error e => rfl
    | ok x =>
      obtain ⟨payload, r'⟩ := x
      obtain ⟨-, _, hsome, -⟩ := readClientHello_eq_ok.1 hread
      rw [hfirst] at hsome
      cases hsome
  rw [hnothing]
  rfl

/-- A client with the trusted key is not always accepted: not under a name that is longer than an
    envelope may be. -/
theorem long_name_refused :
    ¬∀ (client : ClientSide plainCrypto) (server : ServerSide plainCrypto) fromClient fromServer,
      Meet .ofFormats client server fromClient fromServer → Trusted client server →
      (∃ m, (server.binding .ofFormats
        (HandshakeCodec.ofFormats.clientHello.encode client.hello)).exporter = .ok m) →
      Decodes .ofFormats client server →
        ∃ payload r, firstEnvelope fromClient = some ((TypeId.CLIENT_HELLO, payload), r) := by
  intro h
  obtain ⟨name, hname⟩ := exists_name 65537
  have hlong : StreamKind.control.maxEnvelopeLength < name.utf8ByteSize := by
    rw [hname]
    decide
  obtain ⟨fromClient, fromServer, hmeet⟩ := plain_meet_long hlong (by rw [hname]; decide)
  obtain ⟨payload, r, hfirst⟩ := h _ _ _ _ hmeet (plain_trusted _) ⟨_, rfl⟩ (plain_decodes _)
  have hlength := length_plainHello name
  have hnone := hmeet.oversized_refused (plain_trusted _).client (by omega)
  rw [hnone] at hfirst
  cases hfirst

end Sardp
