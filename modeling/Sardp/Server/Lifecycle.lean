import Sardp.Library.Custody
import Sardp.Server.Connection
import Sardp.Server.Toggles

/-!
# The life of a session

A session goes from connection to connection by way of the store. At any time it is held
once: by a connection or by an entry of the store (`Holder`), together with the generation
its next instance gets; that makes the server an instance of counters in custody
(`Server.custody`), and the generations opened in a session strictly increasing.

`Server.Inv` adds what every connection and every entry of the store knows of its session;
every step keeps it (`Server.Inv.step`).
-/

namespace Sardp

/-! ## Who holds a session -/

/-- Who may hold a session. -/
inductive Holder
  | connection (i : ℕ)
  | entry (sessionId : SessionId)
  deriving DecidableEq

/-- The session of a connection, with the generation of its next instance. -/
def Connection.counter : Connection → Option (ℕ × ℕ)
  | .live number ctx .timeSync | .live number ctx .opening =>
    some (number, ctx.startingGeneration)
  | .live number _ (.acceptingFeedback videoChannel _) =>
    some (number, videoChannel.generation + 1)
  | .live number _ (.active session _) => some (number, session.videoChannel.generation + 1)
  | .establishing | .ended _ => none

namespace Server

/-- The session stored under an identifier, with the generation of its next instance. -/
def entryCounter (s : Server) (sessionId : SessionId) : Option (ℕ × ℕ) :=
  match s.store.sessions sessionId, s.origin sessionId with
  | some session, some origin => some (origin.number, session.lastGeneration + 1)
  | _, _ => none

/-- The sessions in the hands of the connections and the store, and their generations. -/
def custody (s : Server) : Custody Holder ℕ where
  held
    | .connection i => (s.connections i).counter
    | .entry sessionId => s.entryCounter sessionId
  drawn := s.opened

variable {s : Server}

theorem custody_setConnection (i : ℕ) (c : Connection) :
    (s.setConnection i c).custody = s.custody.put (.connection i) c.counter := by
  refine congrArg (Custody.mk · s.opened) (funext fun h => ?_)
  cases h with
  | connection j =>
    by_cases hj : j = i
    · subst hj
      simp [setConnection]
    · have hne : Holder.connection j ≠ .connection i := fun h => hj (Holder.connection.inj h)
      simp [setConnection, hj, custody]
  | entry id => simp [setConnection, custody, entryCounter]

theorem custody_expire (id : SessionId) :
    { s with store := s.store.expire id }.custody = s.custody.put (.entry id) none := by
  refine congrArg (Custody.mk · s.opened) (funext fun h => ?_)
  cases h with
  | connection j => simp [custody]
  | entry id' =>
    by_cases hid : id' = id
    · subst hid
      simp [entryCounter, SessionStore.expire]
    · simp [hid, custody, entryCounter, SessionStore.expire]

theorem custody_suspend (id : SessionId) (session : SuspendedSession) (origin : Origin) :
    { s with
        store := s.store.suspend id session
        origin := Function.update s.origin id (some origin) }.custody =
      s.custody.put (.entry id) (some (origin.number, session.lastGeneration + 1)) := by
  refine congrArg (Custody.mk · s.opened) (funext fun h => ?_)
  cases h with
  | connection j => simp [custody]
  | entry id' =>
    by_cases hid : id' = id
    · subst hid
      simp [entryCounter, SessionStore.suspend]
    · simp [hid, custody, entryCounter, SessionStore.suspend]

theorem setOpened_self (number : ℕ) : s.setOpened number (s.opened number) = s := by
  simp [setOpened]

theorem custody_setOpened (number generation : ℕ) :
    (s.setOpened number (s.opened number ++ [generation])).custody =
      s.custody.draw number generation := rfl

/-! ## The invariant -/

end Server

/-- What a connection knows of its session in a phase. -/
def ConnectionPhase.Ok (number : ℕ) (ctx : ConnectionContext) (opened : ℕ → List ℕ) :
    ConnectionPhase → Prop
  | .timeSync | .opening => ctx.isResumed = true → ctx.connectionSm.state = .active
  | .acceptingFeedback videoChannel opened' =>
    ctx.connectionSm.state = .active ∧ opened' = opened number ∧
      opened'.getLast? = some videoChannel.generation
  | .active session toggled =>
    ctx.connectionSm.state = .active ∧ session.opened = opened number ∧
      session.opened.getLast? = some session.videoChannel.generation ∧
      session.Toggled FRESH_GRANT toggled

/-- What a connection knows of its session, once it has one. -/
def Connection.Ok (opened : ℕ → List ℕ) : Connection → Prop
  | .live number ctx phase => ctx.grantedPermissions = FRESH_GRANT ∧ phase.Ok number ctx opened
  | .establishing | .ended _ => True

/-- What a connection knows depends on the generations of its own session alone. -/
theorem Connection.Ok.of_eq {c : Connection} {opened opened' : ℕ → List ℕ} (h : c.Ok opened)
    (heq : ∀ n k, c.counter = some (n, k) → opened' n = opened n) : c.Ok opened' := by
  match c with
  | .establishing | .ended _ => trivial
  | .live number ctx .timeSync | .live number ctx .opening => exact h
  | .live number ctx (.acceptingFeedback videoChannel _) | .live number ctx (.active session _) =>
    obtain ⟨hgrant, hactive, hopened, hrest⟩ := h
    exact ⟨hgrant, hactive, hopened.trans (heq number _ rfl).symm, hrest⟩

/-- What an entry of the store knows of its session: the permissions of the start, and
    where it comes from. -/
def SuspendedSession.Ok (session : SuspendedSession) (origin : Origin) : Prop :=
  session.grantedPermissions = FRESH_GRANT ∧
    ∀ b ∈ ALL_BITS, origin.permissionSm.isGranted b ↔
      Session.afterToggle FRESH_GRANT origin.toggled &&& b ≠ 0

namespace Server

variable {s : Server}

/-- What holds of the server at any time. -/
structure Inv (s : Server) : Prop where
  custody : s.custody.Inv
  /-- A connection that is not established has no session of its number. -/
  fresh {i : ℕ} : s.connections i = .establishing →
    s.opened i = [] ∧ ∀ h k, s.custody.held h ≠ some (i, k)
  connection (i : ℕ) : (s.connections i).Ok s.opened
  stored {id : SessionId} {session : SuspendedSession} :
    s.store.sessions id = some session → ∃ origin, s.origin id = some origin ∧ session.Ok origin

theorem inv_new (synthetic : Bool) : Inv (new synthetic) where
  custody :=
    { unique {h _ _ _ _} hheld := by cases h <;> cases hheld
      below {h _ _} hheld := by cases h <;> cases hheld
      sorted _ := List.Pairwise.nil }
  fresh _ := ⟨rfl, fun h _ => by cases h <;> nofun⟩
  connection _ := trivial
  stored h := nomatch h

/-! ## Every step keeps the invariant -/

/-- A connection that is not established is another one than the one that goes on. -/
theorem establishing_of_setConnection {i j : ℕ} {c : Connection} (hc : c ≠ .establishing)
    (hj : (s.setConnection i c).connections j = .establishing) :
    j ≠ i ∧ s.connections j = .establishing := by
  have hji : j ≠ i := by
    rintro rfl
    exact hc (by simpa [Server.setConnection] using hj)
  exact ⟨hji, by simpa [Server.setConnection, hji] using hj⟩

/-- A connection may go on, with the same session or with one it takes. -/
theorem Inv.setConnection (hs : s.Inv) {i : ℕ} {c : Connection}
    (hcustody : (s.custody.put (.connection i) c.counter).Inv) (hc : c ≠ .establishing)
    (hnumber : ∀ n k, c.counter = some (n, k) → s.connections n = .establishing → n = i)
    (hok : c.Ok s.opened) : (s.setConnection i c).Inv where
  custody := by rwa [custody_setConnection]
  fresh {j} hj := by
    obtain ⟨hji, hj'⟩ := establishing_of_setConnection hc hj
    refine ⟨(hs.fresh hj').1, fun h k => ?_⟩
    rw [custody_setConnection]
    exact Custody.held_put_ne (fun h' => (hs.fresh hj').2 h' k)
      (fun hcounter => hji (hnumber j k hcounter hj')) h
  connection j := by
    by_cases hji : j = i
    · subst hji
      simpa [Server.setConnection] using hok
    · simpa [Server.setConnection, hji] using hs.connection j
  stored := hs.stored

/-- A session in the hands of a connection is not one of a connection to come. -/
theorem Inv.number_ne (hs : s.Inv) {h : Holder} {n k : ℕ} (hheld : s.custody.held h = some (n, k)) :
    s.connections n ≠ .establishing :=
  fun hn => (hs.fresh hn).2 h k hheld

/-- A connection may end. -/
theorem Inv.endConnection (hs : s.Inv) (i : ℕ) (result : Except ConnError Unit) :
    (s.endConnection i result).Inv :=
  hs.setConnection (hs.custody.release _) nofun nofun trivial

/-- A connection may go on with its session. -/
theorem Inv.advance (hs : s.Inv) {i n k : ℕ} {c : Connection}
    (hheld : (s.connections i).counter = some (n, k)) (hcounter : c.counter = some (n, k))
    (hok : c.Ok s.opened) : (s.setConnection i c).Inv := by
  have hheld' : s.custody.held (.connection i) = some (n, k) := hheld
  refine hs.setConnection ?_ ?_ (fun n' k' h hn' => ?_) hok
  · rw [hcounter, Custody.put_eq_self hheld']
    exact hs.custody
  · rintro rfl
    cases hcounter
  · rw [hcounter] at h
    cases h
    exact absurd hn' (hs.number_ne hheld')

/-- Drawing the next generation of its session, a connection goes on with it or ends. -/
theorem Inv.drawConnection (hs : s.Inv) {i n k : ℕ} {c : Connection}
    (hheld : (s.connections i).counter = some (n, k))
    (hcounter : c.counter = none ∨ c.counter = some (n, k + 1)) (hc : c ≠ .establishing)
    (hok : c.Ok (Function.update s.opened n (s.opened n ++ [k]))) :
    ((s.setOpened n (s.opened n ++ [k])).setConnection i c).Inv where
  custody := by
    have hheld' : s.custody.held (.connection i) = some (n, k) := hheld
    rw [custody_setConnection, custody_setOpened]
    -- the generation is drawn in either case; then the counter is given up or kept
    rcases hcounter with hcounter | hcounter <;> rw [hcounter]
    · simpa using (hs.custody.draw hheld').release (.connection i)
    · exact hs.custody.draw hheld'
  fresh {j} hj := by
    obtain ⟨hji, hj'⟩ : j ≠ i ∧ s.connections j = .establishing :=
      establishing_of_setConnection hc hj
    -- nor is it the number of the session, which somebody holds
    have hjn : j ≠ n := by
      rintro rfl
      exact (hs.fresh hj').2 (.connection i) k hheld
    refine ⟨by simpa [Server.setConnection, setOpened, hjn] using (hs.fresh hj').1,
      fun h k' => ?_⟩
    rw [custody_setConnection]
    refine Custody.held_put_ne (fun h' => (hs.fresh hj').2 h' k') (fun hcounter' => ?_) h
    rcases hcounter with hcounter | hcounter <;> rw [hcounter] at hcounter' <;> cases hcounter'
    exact hjn rfl
  connection j := by
    by_cases hji : j = i
    · subst hji
      simpa [Server.setConnection, setOpened] using hok
    · have hj := hs.connection j
      simp only [Server.setConnection, setOpened, Function.update_of_ne hji]
      refine hj.of_eq fun n' k' hn' => Function.update_of_ne (fun hnn => ?_) ..
      -- another connection has another session
      have hheld' : s.custody.held (.connection i) = some (n, k) := hheld
      have hother : s.custody.held (.connection j) = some (n, k') := hnn ▸ hn'
      exact hji (Holder.connection.inj (hs.custody.unique hother hheld'))
  stored := hs.stored

/-- A session may be taken out of the store. -/
theorem Inv.expire (hs : s.Inv) (id : SessionId) : { s with store := s.store.expire id }.Inv where
  custody := by
    rw [custody_expire]
    exact hs.custody.release _
  fresh {j} hj := by
    refine ⟨(hs.fresh hj).1, fun h k => ?_⟩
    rw [custody_expire]
    exact Custody.held_put_ne (fun h' => (hs.fresh hj).2 h' k) (Option.some_ne_none _).symm h
  connection := hs.connection
  stored h := hs.stored (SessionStore.sessions_of_expire h)

/-- A session in nobody's hands may be stored, at the last of its generations or a later
    one. -/
theorem Inv.suspend (hs : s.Inv) {id : SessionId} {session : SuspendedSession} {origin : Origin}
    (hfree : ∀ h k, s.custody.held h ≠ some (origin.number, k))
    (hnumber : s.connections origin.number ≠ .establishing)
    (hbelow : ∀ g ∈ s.opened origin.number, g < session.lastGeneration + 1)
    (hok : session.Ok origin) :
    { s with
      store := s.store.suspend id session
      origin := Function.update s.origin id (some origin) }.Inv where
  custody := by
    rw [custody_suspend]
    exact hs.custody.take _ hfree hbelow
  fresh {j} hj := by
    refine ⟨(hs.fresh hj).1, fun h k => ?_⟩
    rw [custody_suspend]
    refine Custody.held_put_ne (fun h' => (hs.fresh hj).2 h' k) (fun hcounter => ?_) h
    cases hcounter
    exact hnumber hj
  connection := hs.connection
  stored {id' session'} h := by
    by_cases hid : id' = id
    · subst hid
      obtain rfl : session = session' := by simpa [SessionStore.suspend] using h
      exact ⟨origin, by simp, hok⟩
    · simpa [hid] using hs.stored (by simpa [SessionStore.suspend, hid] using h)

theorem Inv.establish (hs : s.Inv) {i : ℕ} (hi : s.connections i = .establishing)
    (first : Except HandshakeError FirstControlMessage) : (s.establish i first).Inv := by
  have hstore {store : SessionStore} (h : (establishConnection s.store first).2 = store) :
      { s with store }.Inv := by
    rcases @establishConnection_store s.store first with h' | ⟨id, h'⟩
    · rwa [← h, h']
    · rw [← h, h']
      exact hs.expire id
  rw [Server.establish]
  split
  · next h => exact (hstore (congrArg Prod.snd h)).endConnection i _
  · next h => exact (hstore (congrArg Prod.snd h)).endConnection i _
  · next ctx store h =>
    rcases establishConnection_cases h with ⟨input, rfl⟩ | ⟨reauth, token, written, rfl⟩
    · -- a fresh session, with the number of the connection
      obtain ⟨rfl, -, -, -, hgrant, hgeneration, hresumed⟩ := establishConnection_fresh h
      simp only [hresumed, Bool.false_eq_true, if_false]
      refine hs.setConnection ?_ nofun (fun n k hcounter _ => ?_)
        ⟨hgrant, fun hresumed' => by simp [hresumed] at hresumed'⟩
      · rw [Connection.counter, hgeneration]
        refine hs.custody.take _ (hs.fresh hi).2 ?_
        rw [show s.custody.drawn i = [] from (hs.fresh hi).1]
        nofun
      · cases hcounter
        rfl
    · -- a resumed one, out of the store
      obtain ⟨session, hmatch, rfl, hactive, hid, -, hgrant, hgeneration, hresumed⟩ :=
        establishConnection_resumed h
      obtain ⟨origin, horigin, hok⟩ := hs.stored hmatch.1
      simp only [hresumed, if_true, hid, horigin, Option.map_some, Option.getD_some]
      have hheld : s.custody.held (.entry reauth.priorSessionId) =
          some (origin.number, ctx.startingGeneration) := by
        simp [Server.custody, entryCounter, hmatch.1, horigin, hgeneration]
      refine (hs.expire _).setConnection ?_ nofun (fun n k hcounter hn => ?_)
        ⟨hgrant.trans hok.1, fun _ => hactive⟩
      · rw [custody_expire]
        exact hs.custody.pass hheld _ le_rfl
      · cases hcounter
        exact absurd hn (hs.number_ne hheld)

theorem Inv.synchronise (hs : s.Inv) {i n : ℕ} {ctx : ConnectionContext}
    (hi : s.connections i = .live n ctx .timeSync) (answered : Except TimeSyncError Unit) :
    (s.synchronise i n ctx answered).Inv := by
  cases answered with
  | error e => exact hs.endConnection i _
  | ok _ =>
    have hok := hs.connection i
    rw [hi] at hok
    exact hs.advance (by rw [hi]; rfl) rfl hok

theorem goLive_eq_ok {ctx ctx' : ConnectionContext} (h : goLive ctx = .ok ctx')
    (hctx : ctx.isResumed = true → ctx.connectionSm.state = .active) :
    ctx'.grantedPermissions = ctx.grantedPermissions ∧ ctx'.connectionSm.state = .active := by
  rw [goLive] at h
  split_ifs at h with hresumed
  · cases h
    exact ⟨rfl, hctx hresumed⟩
  · obtain ⟨sm, hsm, h⟩ := Except.bind_eq_ok.1 h
    obtain ⟨-, rfl⟩ := ConnectionSm.advance_eq_ok.1 hsm
    cases h
    exact ⟨rfl, rfl⟩

theorem Inv.openGeneration (hs : s.Inv) {i n : ℕ} {ctx : ConnectionContext}
    (hi : s.connections i = .live n ctx .opening) (opening : OpenOutcome) :
    (s.openGeneration i n ctx opening).Inv := by
  have hheld : (s.connections i).counter = some (n, ctx.startingGeneration) := by
    rw [hi]
    rfl
  have hok := hs.connection i
  rw [hi] at hok
  have hended (result : Except ConnError Unit) :
      ((s.setOpened n (s.opened n ++ [ctx.startingGeneration])).endConnection i result).Inv :=
    hs.drawConnection hheld (.inl rfl) nofun trivial
  unfold Server.openGeneration
  dsimp only
  cases hopened : opening.streamOpened with
  | false =>
    simp only [Bool.false_eq_true, if_false, setOpened_self]
    split
    · exact hs.endConnection i _
    · next hresult =>
      -- without a stream there is no first frame
      cases opening <;> cases hresult
      cases hopened
  | true =>
    simp only [if_true, VideoChannel.markInstanceStreaming_new]
    split
    · exact hended _
    · split
      · exact hended _
      · next ctx' hlive =>
        obtain ⟨hgrant, hactive⟩ := goLive_eq_ok hlive hok.2
        exact hs.drawConnection hheld (.inr rfl) nofun
          ⟨hgrant.trans hok.1, hactive, by simp, by simp [VideoChannel.streaming, VideoChannel.new]⟩

theorem Inv.acceptFeedback (hs : s.Inv) {i n : ℕ} {ctx : ConnectionContext}
    {videoChannel : VideoChannel} {opened : List ℕ}
    (hi : s.connections i = .live n ctx (.acceptingFeedback videoChannel opened))
    (accepted : Except ReadFeedbackError Unit) :
    (s.acceptFeedback i n ctx videoChannel opened accepted).Inv := by
  cases accepted with
  | error e => exact hs.endConnection i _
  | ok _ =>
    obtain ⟨hgrant, hactive, hopened, hlast⟩ := hi ▸ hs.connection i
    refine hs.advance (by rw [hi]; rfl) rfl ⟨hgrant, hactive, hopened, hlast, ?_⟩
    rw [hgrant]
    exact Session.toggled_start ..

/-- The end of the loop, in a state where the connection may end and its session is then in
    nobody's hands. -/
theorem Inv.endLoop {i n : ℕ} {ctx : ConnectionContext} {session : Session}
    {toggled : Option (PermissionSet × Bool)} (hs : ∀ result, (s.endConnection i result).Inv)
    (hfree : ∀ h k, (s.endConnection i (.ok ())).custody.held h ≠ some (n, k))
    (hnumber : s.connections n ≠ .establishing)
    (hbelow : ∀ g ∈ s.opened n, g < session.videoChannel.generation + 1)
    (hgrant : ctx.grantedPermissions = FRESH_GRANT) (hsession : session.Toggled FRESH_GRANT toggled)
    (result : Except ConnError Unit) : (s.endLoop i n ctx session toggled result).Inv := by
  simp only [Server.endLoop]
  split
  · exact hs _
  · split_ifs
    · split
      · exact hs _
      · next store timer hstore =>
        obtain ⟨-, -, rfl⟩ := SessionStore.suspendAndScheduleExpiry_eq_ok.1 hstore
        refine Inv.suspend (hs (.ok ())) hfree (fun hn => ?_) hbelow ⟨hgrant, fun b hb => ?_⟩
        · have hended : Connection.ended (.ok ()) ≠ .establishing := nofun
          exact hnumber (establishing_of_setConnection hended hn).2
        · rw [hsession.granted b hb, hsession.effective]
    · exact hs _

/-- What a round does to the generations of a session: nothing, or it moves on to the next
    one, whose stream it opens unless it ends the loop. -/
theorem video_handle_cases (session : Session) (e : LoopEvent) :
    (session.handle e).1.video = session.video ∨
      let next := session.videoChannel.generation + 1
      (session.handle e).1.videoChannel.generation = next ∧
        ((session.handle e).1.opened = session.opened ++ [next] ∨
          (session.handle e).1.opened = session.opened ∧ (session.handle e).1.result ≠ none) := by
  cases hreopening : session.reopening e with
  | none => exact .inl (Session.video_handle hreopening)
  | some opening =>
    obtain ⟨hvideo, hresult⟩ := Session.video_handle_reopening hreopening
    obtain ⟨hgeneration, hopened⟩ := Prod.mk.inj hvideo
    refine .inr ⟨hgeneration, ?_⟩
    rw [hopened, hresult]
    cases opening with
    | ok | writeFailed => exact .inl rfl
    | noFrame | openFailed => exact .inr ⟨rfl, nofun⟩
    | timedOut streamOpened =>
      cases streamOpened <;> simp [OpenOutcome.streamOpened, OpenOutcome.result]

theorem Inv.loop (hs : s.Inv) {i n : ℕ} {ctx : ConnectionContext} {session : Session}
    {toggled : Option (PermissionSet × Bool)}
    (hi : s.connections i = .live n ctx (.active session toggled)) {e : LoopEvent}
    (he : session.Awaits e) : (s.loop i n ctx session toggled e).Inv := by
  obtain ⟨hgrant, hactive, hopened, hlast, htoggled⟩ := hi ▸ hs.connection i
  have htoggled' := htoggled.step (Session.machine_step.2 ⟨he, rfl⟩)
  have hheld : (s.connections i).counter = some (n, session.videoChannel.generation + 1) := by
    rw [hi]
    rfl
  have hheld' : s.custody.held (.connection i) = some (n, session.videoChannel.generation + 1) :=
    hheld
  have hbelow := hs.custody.below hheld'
  have hfree (opened : List ℕ) (h : Holder) (k : ℕ) :
      ((s.setOpened n opened).endConnection i (.ok ())).custody.held h ≠ some (n, k) := by
    have hput : ((s.setOpened n opened).endConnection i (.ok ())).custody =
        (s.setOpened n opened).custody.put (.connection i) none := custody_setConnection i _
    rw [hput]
    exact hs.custody.free_of_release hheld' h k
  unfold Server.loop
  dsimp only
  have hvideo := video_handle_cases session e
  generalize (session.handle e).1 = session' at htoggled' hvideo ⊢
  -- the connection may end, and then its generations are below the one it would store
  obtain ⟨hended, hbelow', hlast'⟩ :
      (∀ result, ((s.setOpened n session'.opened).endConnection i result).Inv) ∧
        (∀ g ∈ session'.opened, g < session'.videoChannel.generation + 1) ∧
        (session'.result = none → ((s.setOpened n session'.opened).setConnection i
          (.live n ctx (.active session' (e.toggle.or toggled)))).Inv) := by
    rcases hvideo with hvideo | ⟨hgeneration, hopened' | ⟨hopened', hresult⟩⟩
    · -- the generation is still the last one opened
      obtain ⟨hgeneration, hopened'⟩ := Prod.mk.inj hvideo
      rw [hopened', hopened, setOpened_self, hgeneration]
      refine ⟨hs.endConnection i, hbelow, fun _ => hs.advance hheld ?_ ?_⟩
      · rw [Connection.counter, hgeneration]
      · exact ⟨hgrant, hactive, hopened'.trans hopened, by rw [hopened', hgeneration, hlast],
          htoggled'⟩
    · -- the next one is drawn from the counter of the session
      rw [hopened', hopened, hgeneration]
      refine ⟨fun result => hs.drawConnection hheld (.inl rfl) nofun trivial, fun g hg => ?_,
        fun _ => hs.drawConnection hheld (.inr ?_) nofun ?_⟩
      · rcases List.mem_append.1 hg with hg | hg
        · exact (hbelow g hg).trans (Nat.lt_succ_self _)
        · exact (List.mem_singleton.1 hg).trans_lt (Nat.lt_succ_self _)
      · rw [Connection.counter, hgeneration]
      · exact ⟨hgrant, hactive, by simp [hopened', hopened], by simp [hopened', hgeneration],
          htoggled'⟩
    · -- the loop ends between the two, and a generation is skipped
      rw [hopened', hopened, setOpened_self, hgeneration]
      exact ⟨hs.endConnection i, fun g hg => (hbelow g hg).trans (Nat.lt_succ_self _),
        fun hnone => absurd hnone hresult⟩
  split
  · next hresult => exact hlast' hresult
  · refine Inv.endLoop hended (hfree _) (hs.number_ne hheld') (fun g hg => ?_) hgrant htoggled' _
    exact hbelow' g (by simpa [setOpened] using hg)

theorem Inv.step (hs : s.Inv) {e : ServerEvent} {s' : Server} (h : s.step e = some s') : s'.Inv := by
  cases takes_of_step h with
  | establish hi first => exact hs.establish hi first
  | timeSync hi answered => exact hs.synchronise hi answered
  | openGeneration hi opening => exact hs.openGeneration hi opening
  | acceptFeedback hi accepted => exact hs.acceptFeedback hi accepted
  | loop hi he => exact hs.loop hi he
  | expire id token =>
    rw [SessionStore.expireIfTokenMatches_eq]
    split_ifs
    · exact hs.expire id
    · exact hs

/-- What holds of the server at any time. -/
theorem Inv.run {synthetic : Bool} {es : List ServerEvent}
    (h : machine.run (new synthetic) es = some s) : s.Inv :=
  Machine.run_invariant (I := Inv) (fun _ _ _ hs hstep => hs.step hstep) (inv_new synthetic) h

end Server

end Sardp
