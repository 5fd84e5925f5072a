import Sardp.Server.Lifecycle
import Sardp.Video.ClientDisplay

/-!
# What survives a disconnect

Three things a session should keep when its connection is lost, over every run of the
server.

* Its generations: they grow from connection to connection
  (`Server.generations_increase`).
* Its permissions: what is stored are the permissions of the start, so a resumed session
  has those of the disconnect exactly if its last toggle left them as they started
  (`Server.resumes_granted_iff`).
* Itself: a session is stored when the *loop* ends for the transport, and not when what
  comes before the loop does (`Server.keepsSession_iff`).
-/

namespace Sardp

namespace Server

variable {s s' : Server} {e : ServerEvent}

/-- A handshake that succeeds. -/
def aliceHello : ServerHandshakeInput :=
  { serverHello := some (.ok ()), authPubkey := some (.ok (TypeId.AUTH_PUBKEY, some "alice")),
    verification := .ok (), sessionId := Vector.replicate 16 7,
    reconnectToken := Vector.replicate 32 1, authResult := .ok () }

/-- The first connection, up to its loop. -/
def freshSession : List ServerEvent :=
  [.establish (.ok (.clientHello aliceHello)), .timeSync (.ok ()), .openGeneration .ok,
    .acceptFeedback (.ok ())].map (.connection 0)

/-- The second one, resuming the session of the first. -/
def resumption : ServerEvent :=
  .connection 1 (.establish
    (.ok (.sessionReauthenticate awaitedReauth (Vector.replicate 32 2) (.ok ()))))

/-! ## Generations -/

/-- Resuming by a reconnect, the connection goes on with a session out of the store. -/
theorem establish_resumed {i n : ℕ} {ctx : ConnectionContext} {reauth : SessionReauthenticate}
    {token : ReconnectToken} {written : Except Quinn.WriteError Unit}
    (h : (s.establish i (.ok (.sessionReauthenticate reauth token written))).connections i =
      .live n ctx .timeSync) :
    ∃ session, reauth.Matches s.store session ∧
      ctx.grantedPermissions = session.grantedPermissions ∧
      ctx.startingGeneration = session.lastGeneration + 1 := by
  rw [establish] at h
  split at h
  · simp [endConnection, setConnection] at h
  · simp [endConnection, setConnection] at h
  · next ctx' store hestablish =>
    obtain ⟨session, hmatch, -, -, -, -, hgrant, hgeneration, -⟩ :=
      establishConnection_resumed hestablish
    obtain ⟨-, rfl⟩ : _ ∧ ctx' = ctx := by simpa [setConnection] using h
    exact ⟨session, hmatch, hgrant, hgeneration⟩

/-- The step opens at most the next generation of the session a connection holds, and a
    resumed session goes on after its last generation. -/
structure OpensNext (s : Server) (e : ServerEvent) (s' : Server) : Prop where
  opens (n : ℕ) : s'.opened n = s.opened n ∨
    ∃ i e' g, e = .connection i e' ∧ (s.connections i).counter = some (n, g) ∧
      s'.opened n = s.opened n ++ [g]
  resumes {i n : ℕ} {ctx : ConnectionContext} {reauth : SessionReauthenticate}
    {token : ReconnectToken} {written : Except Quinn.WriteError Unit} :
    e = .connection i (.establish (.ok (.sessionReauthenticate reauth token written))) →
      s'.connections i = .live n ctx .timeSync →
        ∃ session, reauth.Matches s.store session ∧
          ctx.startingGeneration = session.lastGeneration + 1

@[simp] theorem opened_endLoop (i n : ℕ) (ctx : ConnectionContext) (session : Session)
    (toggled : Option (PermissionSet × Bool)) (result : Except ConnError Unit) :
    (s.endLoop i n ctx session toggled result).opened = s.opened := by
  simp only [endLoop]
  split
  · rfl
  · split_ifs
    · split <;> rfl
    · rfl

theorem opened_loop (i n : ℕ) (ctx : ConnectionContext) (session : Session)
    (toggled : Option (PermissionSet × Bool)) (e : LoopEvent) :
    (s.loop i n ctx session toggled e).opened =
      Function.update s.opened n (session.handle e).1.opened := by
  unfold loop
  dsimp only
  split
  · rfl
  · rw [opened_endLoop]
    rfl

theorem opened_openGeneration (i n : ℕ) (ctx : ConnectionContext) (opening : OpenOutcome) :
    (s.openGeneration i n ctx opening).opened =
      Function.update s.opened n
        (if opening.streamOpened then s.opened n ++ [ctx.startingGeneration] else s.opened n) := by
  unfold openGeneration
  dsimp only
  split
  · rfl
  · split
    · rfl
    · split <;> rfl

theorem opened_establish (i : ℕ) (first : Except HandshakeError FirstControlMessage) :
    (s.establish i first).opened = s.opened := by
  rw [establish]
  split <;> rfl

/-- Appending to one of the sequences, or to none, only does so. -/
theorem opened_update {n g : ℕ} {opened' : List ℕ}
    (h : opened' = s.opened n ∨ opened' = s.opened n ++ [g]) (m : ℕ) :
    Function.update s.opened n opened' m = s.opened m ∨
      m = n ∧ Function.update s.opened n opened' m = s.opened m ++ [g] := by
  by_cases hm : m = n
  · subst hm
    simpa using h
  · exact .inl (Function.update_of_ne hm ..)

theorem Inv.opensNext (hs : s.Inv) (h : s.step e = some s') : OpensNext s e s' where
  resumes := by
    rintro i n ctx reauth token written rfl hi
    cases takes_of_step h with
    | establish _ _ =>
      obtain ⟨session, hmatch, -, hgeneration⟩ := establish_resumed hi
      exact ⟨session, hmatch, hgeneration⟩
  opens m := by
    cases takes_of_step h with
    | establish hi first => exact .inl (congrFun (opened_establish ..) m)
    | timeSync hi answered => cases answered <;> exact .inl rfl
    | acceptFeedback hi accepted => cases accepted <;> exact .inl rfl
    | expire id token => exact .inl rfl
    | @openGeneration i n ctx hi opening =>
      rw [opened_openGeneration]
      have hcases (streamOpened : Bool) :
          (if streamOpened then s.opened n ++ [ctx.startingGeneration] else s.opened n) =
              s.opened n ∨
            (if streamOpened then s.opened n ++ [ctx.startingGeneration] else s.opened n) =
              s.opened n ++ [ctx.startingGeneration] := by
        cases streamOpened <;> simp
      rcases opened_update (hcases opening.streamOpened) m with heq | ⟨rfl, heq⟩
      · exact .inl heq
      · exact .inr ⟨i, _, _, rfl, by rw [hi]; rfl, heq⟩
    | @loop i n ctx session toggled hi e he =>
      obtain ⟨-, -, hopened, -⟩ := hi ▸ hs.connection i
      rw [opened_loop]
      have hcases : (session.handle e).1.opened = s.opened n ∨
          (session.handle e).1.opened = s.opened n ++ [session.videoChannel.generation + 1] := by
        rw [← hopened]
        rcases video_handle_cases session e with hvideo | ⟨-, hopened' | ⟨hopened', -⟩⟩
        · exact .inl (Prod.mk.inj hvideo).2
        · exact .inr hopened'
        · exact .inl hopened'
      rcases opened_update hcases m with heq | ⟨rfl, heq⟩
      · exact .inl heq
      · exact .inr ⟨i, _, _, rfl, by rw [hi]; rfl, heq⟩

/-- In every run of the server, the generations opened in a session are strictly increasing,
    one after the other and across its connections. So on the client, however the frames of
    its instances interleave, the generation shown never decreases, and a frame that would
    not be displayed at some time never is. -/
theorem generations_increase {synthetic : Bool} {es : List ServerEvent}
    (hrun : machine.run (new synthetic) es = some s) :
    (∀ n, (s.opened n).Pairwise (· < ·)) ∧ machine.Always OpensNext (new synthetic) es ∧
      ∀ {F : Type} (d : ClientDisplay F) (frames : List (VideoFrameHeader × F)),
        (∀ g, d.currentGeneration = some g →
          ∃ g' ≥ g, (d.submitAll frames).currentGeneration = some g') ∧
        ∀ header decoded, d.wouldDisplay header = false →
          (d.submitAll frames).submitFrame header decoded =
            (.discardedStaleGeneration, d.submitAll frames) := by
  refine ⟨(Inv.run hrun).custody.sorted, ?_, fun d frames => ⟨fun g hg => ?_, ?_⟩⟩
  · exact Machine.always_of_step (fun _ _ _ hs h => Inv.step hs h)
      (fun _ _ _ hs h => Inv.opensNext hs h) (inv_new synthetic)
  · exact ClientDisplay.generation_mono frames hg
  · intro header decoded h
    exact ClientDisplay.submitFrame_eq_self (ClientDisplay.wouldDisplay_submitAll h)

/-- A session that is reopened once for the client, disconnected, and resumed. -/
def reopenedAndResumed : List ServerEvent :=
  freshSession ++
    [.connection 0 (.loop (.feedback 0 (.ok (.keyframe ⟨.decodeError⟩)) .ok)),
      .connection 0 (.loop .idleTimeout), resumption, .connection 1 (.timeSync (.ok ())),
      .connection 1 (.openGeneration .ok)]

theorem generations_increase_reopenedAndResumed :
    ∃ s, machine.run (new true) reopenedAndResumed = some s ∧ s.opened 0 = [0, 1, 2] ∧
      (s.opened 0).Pairwise (· < ·) ∧
      machine.Always OpensNext (new true) reopenedAndResumed := by
  obtain ⟨s, hrun, hopened⟩ :
      ∃ s, machine.run (new true) reopenedAndResumed = some s ∧ s.opened 0 = [0, 1, 2] :=
    ⟨_, rfl, rfl⟩
  have h := generations_increase hrun
  exact ⟨s, hrun, hopened, h.1 0, h.2.1⟩

/-! ## Permissions -/

/-- The step resumes a session: the result the client is sent, what the connection starts
    with, and where the session comes from. -/
def Resumes (s : Server) (e : ServerEvent) (s' : Server) (authResult : AuthResult)
    (ctx : ConnectionContext) (origin : Origin) : Prop :=
  ∃ i reauth token written n,
    e = .connection i (.establish (.ok (.sessionReauthenticate reauth token written))) ∧
      s'.connections i = .live n ctx .timeSync ∧ s.origin reauth.priorSessionId = some origin ∧
        (serverCompleteReconnect reauth s.store token written).2.2 = some authResult

/-- A session is resumed with the permissions its loop ended with: those the client is told,
    and those the connection starts with. -/
def ResumesGranted (s : Server) (e : ServerEvent) (s' : Server) : Prop :=
  ∀ authResult ctx origin, Resumes s e s' authResult ctx origin → ∀ b ∈ ALL_BITS,
    (authResult.grantedPermissions &&& b ≠ 0 ↔ origin.permissionSm.isGranted b) ∧
      ((PermissionSm.new ctx.grantedPermissions).isGranted b ↔ origin.permissionSm.isGranted b)

/-- The last toggle, if there was one, left its permissions as the mask has them. -/
def Untoggled (g : PermissionSet) (last : Option (PermissionSet × Bool)) : Prop :=
  ∀ toggle ∈ last, ∀ b ∈ ALL_BITS, toggle.1 &&& b ≠ 0 → (g &&& b ≠ 0 ↔ toggle.2 = true)

/-- A session is only resumed if the last toggle of its loop left the permissions as those
    of every fresh session. -/
def ResumesUntoggled (s : Server) (e : ServerEvent) (s' : Server) : Prop :=
  ∀ authResult ctx origin, Resumes s e s' authResult ctx origin →
    Untoggled FRESH_GRANT origin.toggled

/-- The permissions after the last toggle are those of the start exactly if it left its own
    as they were. -/
theorem afterToggle_iff {g : PermissionSet} {last : Option (PermissionSet × Bool)} :
    (∀ b ∈ ALL_BITS, g &&& b ≠ 0 ↔ Session.afterToggle g last &&& b ≠ 0) ↔ Untoggled g last := by
  match last with
  | none => exact iff_of_true (fun _ _ => Iff.rfl) nofun
  | some (bit, grant) =>
    simp only [Untoggled, Option.mem_some_iff, forall_eq']
    refine forall₂_congr fun b hb => ?_
    rw [Session.afterToggle, (buildPermissionToggle_setsExactly g bit grant).mem hb]
    by_cases h : bit &&& b ≠ 0
    · rw [if_pos h, imp_iff_right h]
    · rw [if_neg h]
      exact iff_of_true Iff.rfl fun h' => absurd h' h

/-- A session is resumed with the permissions of a fresh one, whatever its loop ended with. -/
theorem Inv.resumes (hs : s.Inv) (h : s.step e = some s') {authResult : AuthResult}
    {ctx : ConnectionContext} {origin : Origin} (hr : Resumes s e s' authResult ctx origin) :
    authResult.grantedPermissions = FRESH_GRANT ∧ ctx.grantedPermissions = FRESH_GRANT ∧
      ∀ b ∈ ALL_BITS, origin.permissionSm.isGranted b ↔
        Session.afterToggle FRESH_GRANT origin.toggled &&& b ≠ 0 := by
  obtain ⟨i, reauth, token, written, n, rfl, hi, horigin, hauth⟩ := hr
  cases takes_of_step h with
  | establish _ _ =>
    obtain ⟨session, hmatch, hgrant, -⟩ := establish_resumed hi
    obtain ⟨origin', horigin', hstored, hgranted⟩ := hs.stored hmatch.1
    obtain rfl : origin' = origin := Option.some.inj (horigin'.symm.trans horigin)
    exact ⟨(serverCompleteReconnect_authResult hmatch hauth).trans hstored, hgrant.trans hstored,
      hgranted⟩

theorem Inv.resumesGranted_iff (hs : s.Inv) (h : s.step e = some s') :
    ResumesGranted s e s' ↔ ResumesUntoggled s e s' := by
  refine forall₃_congr fun authResult ctx origin => forall_congr' fun hr => ?_
  obtain ⟨hauth, hgrant, hlive⟩ := hs.resumes h hr
  rw [← afterToggle_iff, hauth, hgrant]
  refine forall₂_congr fun b hb => ?_
  rw [PermissionSm.isGranted_new hb, hlive b hb, and_self]

/-- Every session is resumed with the permissions it was suspended with exactly if every
    session resumed had its last toggle, before the disconnect, leave them as they
    started. -/
theorem resumes_granted_iff {synthetic : Bool} {es : List ServerEvent} :
    machine.Always ResumesGranted (new synthetic) es ↔
      machine.Always ResumesUntoggled (new synthetic) es :=
  Machine.always_congr (fun _ _ _ hs h => Inv.step hs h)
    (fun _ _ _ hs h => Inv.resumesGranted_iff hs h) (inv_new synthetic)

/-- The fresh session, with the screen revoked before its connection is lost. -/
def revokedView : List ServerEvent :=
  freshSession ++
    ([.frameTick, .command (.togglePermission Bit.VIEW false) (.ok ()), .frame (.ok false) (.ok ()),
      .idleTimeout] : List LoopEvent).map fun e => .connection 0 (.loop e)

/-- Reconnecting grants the screen again that was revoked before the disconnect. -/
theorem resumption_grants_revoked_view :
    ∃ s s' authResult ctx origin, machine.run (new true) revokedView = some s ∧
      machine.step s resumption = some s' ∧ Resumes s resumption s' authResult ctx origin ∧
      origin.permissionSm.isGranted Bit.VIEW = false ∧
      (PermissionSm.new ctx.grantedPermissions).isGranted Bit.VIEW = true ∧
      ¬machine.Always ResumesGranted (new true) (revokedView ++ [resumption]) := by
  obtain ⟨s, s', authResult, ctx, origin, hrun, hstep, hresumes, hrevoked, hgranted⟩ :
      ∃ s s' authResult ctx origin, machine.run (new true) revokedView = some s ∧
        machine.step s resumption = some s' ∧ Resumes s resumption s' authResult ctx origin ∧
        origin.permissionSm.isGranted Bit.VIEW = false ∧
        (PermissionSm.new ctx.grantedPermissions).isGranted Bit.VIEW = true :=
    ⟨_, _, _, _, _, rfl, rfl, ⟨1, _, _, _, 0, rfl, rfl, rfl, rfl⟩, rfl, rfl⟩
  refine ⟨s, s', authResult, ctx, origin, hrun, hstep, hresumes, hrevoked, hgranted, fun h => ?_⟩
  have hsame := (h.of_append hrun hstep authResult ctx origin hresumes Bit.VIEW (by decide)).2
  rw [hrevoked, hgranted] at hsame
  exact absurd (hsame.1 rfl) nofun

/-! ## Sessions -/

/-- The error that ends the run of an established connection at one of its awaits. -/
def exitError (s : Server) (i : ℕ) : ConnectionEvent → Option ConnError
  | .timeSync (.error e) => some (.timeSync e)
  | .openGeneration opening =>
    match opening.result ReasonCode.PROTOCOL_SESSION_SETUP_TIMEOUT with
    | .error e => some e
    | .ok () => none
  | .acceptFeedback (.error e) => some (.feedback e)
  | .loop e =>
    match s.connections i with
    | .live _ _ (.active session _) =>
      match (session.handle e).1.result with
      | some (.error e) => some e
      | _ => none
    | _ => none
  | _ => none

/-- The step ends a connection whose session is active, the transport being at fault. -/
def LosesTransport (s : Server) (e : ServerEvent) (i : ℕ) (e' : ConnectionEvent) (n : ℕ)
    (ctx : ConnectionContext) (phase : ConnectionPhase) : Prop :=
  e = .connection i e' ∧ s.connections i = .live n ctx phase ∧
    ctx.connectionSm.state = .active ∧ ∃ err, s.exitError i e' = some err ∧ err.IsTransport

/-- A session that loses its transport is in the store, under its identifier and its token
    and with the newest generation opened in it. -/
def KeepsSession (s : Server) (e : ServerEvent) (s' : Server) : Prop :=
  ∀ i e' n ctx phase, LosesTransport s e i e' n ctx phase →
    ∃ entry origin, s'.store.sessions ctx.sessionId = some entry ∧
      s'.origin ctx.sessionId = some origin ∧ origin.number = n ∧
      entry.reconnectToken = ctx.reconnectToken ∧
      (s'.opened n).getLast? = some entry.lastGeneration

/-- A session loses its transport in the loop only, and not when the stream of a reopened
    instance cannot be opened. -/
def FailsInLoop (s : Server) (e : ServerEvent) (_s' : Server) : Prop :=
  ∀ i e' n ctx phase, LosesTransport s e i e' n ctx phase →
    ∃ session toggled round, phase = .active session toggled ∧ e' = .loop round ∧
      ∀ q, session.reopening round ≠ some (.openFailed q)

/-- A connection that ends without its session being stored leaves none there. -/
theorem Inv.not_stored (hs : s.Inv) {i n : ℕ} {ctx : ConnectionContext} {phase : ConnectionPhase}
    (hi : s.connections i = .live n ctx phase) {entry : SuspendedSession} {origin : Origin}
    (hentry : s.store.sessions ctx.sessionId = some entry)
    (horigin : s.origin ctx.sessionId = some origin) : origin.number ≠ n := by
  rintro rfl
  obtain ⟨k, hk⟩ : ∃ k, s.custody.held (.connection i) = some (origin.number, k) := by
    simp only [Server.custody, hi]
    cases phase <;> exact ⟨_, rfl⟩
  have hheld : s.custody.held (.entry ctx.sessionId) =
      some (origin.number, entry.lastGeneration + 1) := by
    simp [Server.custody, entryCounter, hentry, horigin]
  cases hs.custody.unique hk hheld

/-- When the loop ends for the transport, the newest generation opened is the one of the
    video channel, unless the stream for that one could not be opened. -/
theorem newest_opened_iff {session : Session}
    (hlast : session.opened.getLast? = some session.videoChannel.generation) {e : LoopEvent}
    {err : ConnError} (herr : (session.handle e).1.result = some (.error err))
    (htransport : err.IsTransport) (he : session.Awaits e) :
    (session.handle e).1.opened.getLast? = some (session.handle e).1.videoChannel.generation ↔
      ∀ q, session.reopening e ≠ some (.openFailed q) := by
  cases hreopening : session.reopening e with
  | none =>
    obtain ⟨hgeneration, hopened⟩ := Prod.mk.inj (Session.video_handle hreopening)
    exact iff_of_true (by rw [hgeneration, hopened, hlast]) nofun
  | some opening =>
    obtain ⟨hvideo, hresult⟩ := Session.video_handle_reopening hreopening
    obtain ⟨hgeneration, hopened⟩ := Prod.mk.inj hvideo
    rw [hgeneration, hopened]
    rw [herr] at hresult
    -- the stream is recorded when it is opened, the generation before that
    cases opening with
    | ok => simp [OpenOutcome.result, he.1] at hresult
    | writeFailed q => simp [OpenOutcome.streamOpened]
    | openFailed q => simp [OpenOutcome.streamOpened, hlast]
    | noFrame e =>
      obtain rfl : err = e.toConnError := by simpa [OpenOutcome.result] using hresult
      cases e <;> cases htransport
    | timedOut streamOpened =>
      obtain rfl : err = .violation _ := by simpa [OpenOutcome.result] using hresult
      cases htransport

/-- Before the loop, no step of an established connection stores anything. -/
theorem openGeneration_store (i n : ℕ) (ctx : ConnectionContext) (opening : OpenOutcome) :
    (s.openGeneration i n ctx opening).store = s.store ∧
      (s.openGeneration i n ctx opening).origin = s.origin := by
  unfold openGeneration
  dsimp only
  split
  · exact ⟨rfl, rfl⟩
  · split
    · exact ⟨rfl, rfl⟩
    · split <;> exact ⟨rfl, rfl⟩

/-- The loop that ends for the transport leaves its session in the store. -/
theorem loop_stores {i n : ℕ} {ctx : ConnectionContext} {session : Session}
    {toggled : Option (PermissionSet × Bool)} {e : LoopEvent} {err : ConnError}
    (hactive : ctx.connectionSm.state = .active) (he : session.Awaits e)
    (herr : (session.handle e).1.result = some (.error err)) (htransport : err.IsTransport) :
    ∃ entry origin, (s.loop i n ctx session toggled e).store.sessions ctx.sessionId = some entry ∧
      (s.loop i n ctx session toggled e).origin ctx.sessionId = some origin ∧ origin.number = n ∧
      entry.reconnectToken = ctx.reconnectToken ∧
      entry.lastGeneration = (session.handle e).1.videoChannel.generation := by
  have hfromLoop : err.FromLoop :=
    Session.endsFromLoop_handle e (fun err herr => by rw [he.1] at herr; cases herr) err herr
  have hdisconnect := hfromLoop.isTransportDisconnect_iff.2 htransport
  rw [loop]
  simp only [herr]
  rw [endLoop]
  simp only [hdisconnect, if_true]
  split
  · next v hv =>
    cases hv.symm.trans (SessionStore.suspendAndScheduleExpiry_eq_ok.2 ⟨hactive, rfl, rfl⟩)
  · next store timer hstore =>
    obtain ⟨-, -, rfl⟩ := SessionStore.suspendAndScheduleExpiry_eq_ok.1 hstore
    exact ⟨_, ⟨n, (session.handle e).1.permissionSm, e.toggle.or toggled⟩,
      Function.update_self .., Function.update_self .., rfl, rfl, rfl⟩

theorem Inv.keeps_iff_reachesLoop (hs : s.Inv) (h : s.step e = some s') :
    KeepsSession s e s' ↔ FailsInLoop s e s' := by
  refine forall_congr' fun i => forall_congr' fun e' => forall_congr' fun n =>
    forall₃_congr fun ctx phase hlost => ?_
  obtain ⟨rfl, hi, hactive, err, herr, htransport⟩ := hlost
  -- before the loop, the session is lost
  have hbefore (hstore : s'.store = s.store) (horigin : s'.origin = s.origin)
      (hphase : ∀ session toggled, phase ≠ .active session toggled) :
      (∃ entry origin, s'.store.sessions ctx.sessionId = some entry ∧
        s'.origin ctx.sessionId = some origin ∧ origin.number = n ∧
        entry.reconnectToken = ctx.reconnectToken ∧
        (s'.opened n).getLast? = some entry.lastGeneration) ↔
      ∃ session toggled round, phase = .active session toggled ∧ e' = .loop round ∧
        ∀ q, session.reopening round ≠ some (.openFailed q) := by
    refine iff_of_false ?_ ?_
    · rintro ⟨entry, origin, hentry, horigin', hnumber, -⟩
      rw [hstore] at hentry
      rw [horigin] at horigin'
      exact hs.not_stored hi hentry horigin' hnumber
    · rintro ⟨session, toggled, -, hactive, -⟩
      exact hphase session toggled hactive
  cases takes_of_step h with
  | establish hi' first =>
    rw [hi] at hi'
    cases hi'
  | timeSync hi' answered =>
    rw [hi] at hi'
    cases hi'
    cases answered with
    | ok _ => cases herr
    | error e => exact hbefore rfl rfl fun _ _ h => nomatch h
  | openGeneration hi' opening =>
    rw [hi] at hi'
    cases hi'
    obtain ⟨hstore, horigin⟩ := openGeneration_store (s := s) i n ctx opening
    exact hbefore hstore horigin fun _ _ h => nomatch h
  | acceptFeedback hi' accepted =>
    rw [hi] at hi'
    cases hi'
    cases accepted with
    | ok _ => cases herr
    | error e => exact hbefore rfl rfl fun _ _ h => nomatch h
  | @loop _ _ _ session toggled hi' round he =>
    rw [hi] at hi'
    cases hi'
    obtain ⟨-, -, hopened, hlast, -⟩ := hi ▸ hs.connection i
    have hresult : (session.handle round).1.result = some (.error err) := by
      simp only [exitError, hi] at herr
      split at herr
      · next heq => rwa [← Option.some.inj herr]
      · cases herr
    -- the loop stores the session; what is left is which generation it is stored with
    obtain ⟨entry, origin, hentry, horigin, hnumber, htoken, hgeneration⟩ :=
      loop_stores (s := s) (i := i) (n := n) hactive he hresult htransport
    have hnewest := newest_opened_iff hlast hresult htransport he
    rw [opened_loop, Function.update_self]
    constructor
    · rintro ⟨entry', -, hentry', -, -, -, hnewest'⟩
      obtain rfl := Option.some.inj (hentry.symm.trans hentry')
      exact ⟨session, toggled, round, rfl, rfl, hnewest.1 (hgeneration ▸ hnewest')⟩
    · rintro ⟨_, _, _, ⟨⟩, ⟨⟩, hopenFailed⟩
      exact ⟨entry, origin, hentry, horigin, hnumber, htoken,
        hgeneration ▸ hnewest.2 hopenFailed⟩

/-- A session that loses its transport is kept in the store exactly if it loses it in the
    loop, and not opening the stream of a reopened instance. -/
theorem keepsSession_iff {synthetic : Bool} {es : List ServerEvent} :
    machine.Always KeepsSession (new synthetic) es ↔
      machine.Always FailsInLoop (new synthetic) es :=
  Machine.always_congr (fun _ _ _ hs h => Inv.step hs h)
    (fun _ _ _ hs h => Inv.keeps_iff_reachesLoop hs h) (inv_new synthetic)

/-- A resumed session whose connection is lost while the clock is synchronised is gone: it
    has left the store, and is not stored again. -/
theorem timeSync_loses_resumed_session :
    let lost : ServerEvent := .connection 1 (.timeSync (.error (.read .closedEarly)))
    let es := freshSession ++ [.connection 0 (.loop .idleTimeout), resumption]
    ∃ s s', machine.run (new true) es = some s ∧ machine.step s lost = some s' ∧
      s'.store.contains (Vector.replicate 16 7) = false ∧
      ¬machine.Always KeepsSession (new true) (es ++ [lost]) := by
  intro lost es
  obtain ⟨s, s', ctx, hrun, hstep, hlost, hid, hstore⟩ :
      ∃ s s' ctx, machine.run (new true) es = some s ∧ machine.step s lost = some s' ∧
        LosesTransport s lost 1 (.timeSync (.error (.read .closedEarly))) 0 ctx .timeSync ∧
        ctx.sessionId = Vector.replicate 16 7 ∧
        s'.store.sessions (Vector.replicate 16 7) = none :=
    ⟨_, _, _, rfl, rfl, ⟨rfl, rfl, rfl, _, rfl, trivial⟩, rfl, rfl⟩
  refine ⟨s, s', hrun, hstep, by rw [SessionStore.contains, hstore]; rfl, fun h => ?_⟩
  obtain ⟨entry, -, hentry, -⟩ := h.of_append hrun hstep 1 _ 0 ctx .timeSync hlost
  rw [hid, hstore] at hentry
  cases hentry

end Server

end Sardp
