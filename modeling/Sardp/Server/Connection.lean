import Sardp.Server.Rounds
import Sardp.Session.Reconnection

/-!
# Connections

What the server does with every connection (`handle_connection` in `sardp-server.rs`), and
with all of them next to one store of suspended sessions (`Server.machine`). A connection
goes through the awaits of `handle_connection` one by one (`Connection`): establishing, the
clock synchronisation, opening the first instance, accepting the feedback stream, and the
loop. Where one of these fails the connection ends; only what ends the *loop* is looked at
once more, and leaves the session suspended if the transport is at fault
(`Server.endLoop`).

A session is numbered by the connection that did its handshake. The server remembers, next
to what the code keeps, the generations opened in every session, and where every suspended
session comes from.
-/

namespace Sardp

/-! ## One connection -/

/-- Where in `handle_connection` an established connection is. -/
inductive ConnectionPhase
  | timeSync
  | opening
  | acceptingFeedback (videoChannel : VideoChannel) (opened : List ℕ)
  /-- In the loop, with the last toggle it has handled. -/
  | active (session : Session) (toggled : Option (PermissionSet × Bool))

/-- A connection. -/
inductive Connection
  | establishing
  /-- With the number of its session. -/
  | live (number : ℕ) (ctx : ConnectionContext) (phase : ConnectionPhase)
  | ended (result : Except ConnError Unit)

/-- What an await of a connection leads to. -/
inductive ConnectionEvent
  | establish (first : Except HandshakeError FirstControlMessage)
  /-- The clock has been synchronised, or not. -/
  | timeSync (answered : Except TimeSyncError Unit)
  /-- A desktop that cannot be captured counts as one without a first frame. -/
  | openGeneration (opening : OpenOutcome)
  | acceptFeedback (accepted : Except ReadFeedbackError Unit)
  | loop (e : LoopEvent)

/-! ## The server -/

/-- Where a suspended session comes from: its number, and its permissions when the loop
    ended, with the last toggle. -/
structure Origin where
  number : ℕ
  permissionSm : PermissionSm
  toggled : Option (PermissionSet × Bool)

/-- The connections, by their numbers, and the store they share. -/
structure Server where
  /-- The frames are generated, rather than captured from the desktop. -/
  synthetic : Bool
  store : SessionStore
  connections : ℕ → Connection
  /-- Where the session stored under an identifier comes from. -/
  origin : SessionId → Option Origin
  /-- The generations opened in every session, in order. -/
  opened : ℕ → List ℕ

/-- What happens to the server: a step of a connection, or one of the timers. -/
inductive ServerEvent
  | connection (i : ℕ) (e : ConnectionEvent)
  | expire (sessionId : SessionId) (reconnectToken : ReconnectToken)

namespace Server

/-- The server before the first connection. -/
def new (synthetic : Bool) : Server where
  synthetic
  store := .new
  connections _ := .establishing
  origin _ := none
  opened _ := []

def setConnection (s : Server) (i : ℕ) (c : Connection) : Server :=
  { s with connections := Function.update s.connections i c }

/-- The connection returns from `handle_connection`. -/
def endConnection (s : Server) (i : ℕ) (result : Except ConnError Unit) : Server :=
  s.setConnection i (.ended result)

def setOpened (s : Server) (number : ℕ) (opened : List ℕ) : Server :=
  { s with opened := Function.update s.opened number opened }

/-- Establishing a connection: a fresh session takes the number of the connection, a
    resumed one has its own. -/
def establish (s : Server) (i : ℕ) (first : Except HandshakeError FirstControlMessage) : Server :=
  match establishConnection s.store first with
  | (.error e, store) => { s with store }.endConnection i (.error (.handshake e))
  | (.ok (.reconnectRejected _), store) => { s with store }.endConnection i (.ok ())
  | (.ok (.established ctx), store) =>
    let number :=
      if ctx.isResumed then ((s.origin ctx.sessionId).map Origin.number).getD i else i
    { s with store }.setConnection i (.live number ctx .timeSync)

/-- Answering the client's requests to synchronise the clock. -/
def synchronise (s : Server) (i number : ℕ) (ctx : ConnectionContext)
    (answered : Except TimeSyncError Unit) : Server :=
  match answered with
  | .error e => s.endConnection i (.error (.timeSync e))
  | .ok () => s.setConnection i (.live number ctx .opening)

/-- The connection of a session whose first instance is streaming: a resumed one is active
    already. -/
def goLive (ctx : ConnectionContext) : Except ProtocolViolation ConnectionContext :=
  if ctx.isResumed then .ok ctx
  else do
    let connectionSm ← ctx.connectionSm.onChannelLive
    return { ctx with connectionSm }

/-- Opening the first instance of the connection. -/
def openGeneration (s : Server) (i number : ℕ) (ctx : ConnectionContext) (opening : OpenOutcome) :
    Server :=
  let videoChannel := VideoChannel.new ctx.startingGeneration
  let opened :=
    if opening.streamOpened then s.opened number ++ [ctx.startingGeneration]
    else s.opened number
  let s := s.setOpened number opened
  match opening.result ReasonCode.PROTOCOL_SESSION_SETUP_TIMEOUT with
  | .error e => s.endConnection i (.error e)
  | .ok () =>
    match videoChannel.markInstanceStreaming with
    | .error v => s.endConnection i (.error (.violation v.reason))
    | .ok videoChannel =>
      match goLive ctx with
      | .error v => s.endConnection i (.error (.violation v.reason))
      | .ok ctx => s.setConnection i (.live number ctx (.acceptingFeedback videoChannel opened))

/-- Accepting the feedback stream, and starting the loop. -/
def acceptFeedback (s : Server) (i number : ℕ) (ctx : ConnectionContext)
    (videoChannel : VideoChannel) (opened : List ℕ) (accepted : Except ReadFeedbackError Unit) :
    Server :=
  match accepted with
  | .error e => s.endConnection i (.error (.feedback e))
  | .ok () =>
    let session := Session.start ctx.grantedPermissions s.synthetic videoChannel opened
    s.setConnection i (.live number ctx (.active session none))

/-- The end of the loop: the session is suspended when the transport is at fault, with the
    permissions the connection *started* with. -/
def endLoop (s : Server) (i number : ℕ) (ctx : ConnectionContext) (session : Session)
    (toggled : Option (PermissionSet × Bool)) (result : Except ConnError Unit) : Server :=
  match result with
  | .ok () => s.endConnection i (.ok ())
  | .error e =>
    if isTransportDisconnect e then
      match s.store.suspendAndScheduleExpiry ctx.sessionId ctx.userId ctx.connectionSm
          ctx.reconnectToken ctx.grantedPermissions session.videoChannel.generation with
      | .error v => s.endConnection i (.error (.violation v.reason))
      | .ok (store, _) =>
        let origin := Function.update s.origin ctx.sessionId
          (some ⟨number, session.permissionSm, toggled⟩)
        { s with store, origin }.endConnection i (.ok ())
    else s.endConnection i (.error e)

/-- A round of the loop. -/
def loop (s : Server) (i number : ℕ) (ctx : ConnectionContext) (session : Session)
    (toggled : Option (PermissionSet × Bool)) (e : LoopEvent) : Server :=
  let session := (session.handle e).1
  let toggled := e.toggle.or toggled
  let s := s.setOpened number session.opened
  match session.result with
  | none => s.setConnection i (.live number ctx (.active session toggled))
  | some result => s.endLoop i number ctx session toggled result

/-- A step of the server. -/
def step (s : Server) : ServerEvent → Option Server
  | .connection i e =>
    match s.connections i, e with
    | .establishing, .establish first => some (s.establish i first)
    | .live number ctx .timeSync, .timeSync answered => some (s.synchronise i number ctx answered)
    | .live number ctx .opening, .openGeneration opening =>
      some (s.openGeneration i number ctx opening)
    | .live number ctx (.acceptingFeedback videoChannel opened), .acceptFeedback accepted =>
      some (s.acceptFeedback i number ctx videoChannel opened accepted)
    | .live number ctx (.active session toggled), .loop e =>
      if session.Awaits e then some (s.loop i number ctx session toggled e) else none
    | _, _ => none
  | .expire sessionId reconnectToken =>
    some { s with store := s.store.expireIfTokenMatches sessionId reconnectToken }

/-- The steps as a machine. -/
def machine : Machine Server ServerEvent := ⟨step⟩

/-- What a step of the server does, await by await. -/
inductive Takes (s : Server) : ServerEvent → Server → Prop
  | establish {i : ℕ} (hi : s.connections i = .establishing)
      (first : Except HandshakeError FirstControlMessage) :
      Takes s (.connection i (.establish first)) (s.establish i first)
  | timeSync {i number : ℕ} {ctx : ConnectionContext}
      (hi : s.connections i = .live number ctx .timeSync) (answered : Except TimeSyncError Unit) :
      Takes s (.connection i (.timeSync answered)) (s.synchronise i number ctx answered)
  | openGeneration {i number : ℕ} {ctx : ConnectionContext}
      (hi : s.connections i = .live number ctx .opening) (opening : OpenOutcome) :
      Takes s (.connection i (.openGeneration opening)) (s.openGeneration i number ctx opening)
  | acceptFeedback {i number : ℕ} {ctx : ConnectionContext} {videoChannel : VideoChannel}
      {opened : List ℕ}
      (hi : s.connections i = .live number ctx (.acceptingFeedback videoChannel opened))
      (accepted : Except ReadFeedbackError Unit) :
      Takes s (.connection i (.acceptFeedback accepted))
        (s.acceptFeedback i number ctx videoChannel opened accepted)
  | loop {i number : ℕ} {ctx : ConnectionContext} {session : Session}
      {toggled : Option (PermissionSet × Bool)}
      (hi : s.connections i = .live number ctx (.active session toggled)) {e : LoopEvent}
      (he : session.Awaits e) :
      Takes s (.connection i (.loop e)) (s.loop i number ctx session toggled e)
  | expire (sessionId : SessionId) (reconnectToken : ReconnectToken) :
      Takes s (.expire sessionId reconnectToken)
        { s with store := s.store.expireIfTokenMatches sessionId reconnectToken }

theorem takes_of_step {s s' : Server} {e : ServerEvent} (h : s.step e = some s') :
    s.Takes e s' := by
  cases e with
  | connection i e =>
    unfold step at h
    dsimp only at h
    split at h
    · next hi => exact Option.some.inj h ▸ .establish hi _
    · next hi => exact Option.some.inj h ▸ .timeSync hi _
    · next hi => exact Option.some.inj h ▸ .openGeneration hi _
    · next hi => exact Option.some.inj h ▸ .acceptFeedback hi _
    · next hi =>
      split_ifs at h with he
      exact Option.some.inj h ▸ .loop hi he
    · cases h
  | expire sessionId reconnectToken => exact Option.some.inj h ▸ .expire sessionId reconnectToken

end Server

end Sardp
