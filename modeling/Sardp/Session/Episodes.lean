import Sardp.Library.Machine
import Sardp.Session.Reconnection

/-!
# Episodes of suspension

The store of suspended sessions under any interleaving of suspensions, reconnects,
expirations and the timers the suspensions arm (`StoreWorld.machine`). Every suspension
starts an *episode*, numbered from 0; the world remembers, next to what the code keeps,
which episode every stored session and every timer belongs to, and which episodes have
been returned to whom.

`StoreWorld.Inv` relates the three: a stored session is one of the episodes, under its
identifier and its token, suspended, and has not been returned; every operation keeps it
(`StoreWorld.Inv.step`). An episode returned is no longer stored, so it is not returned
again; and a timer only removes a session with the token of its own episode, so it
leaves the later ones of the session alone as long as they have another token.
-/

namespace Sardp

/-- An episode: the identifier and the token of the session suspended. -/
structure Episode where
  sessionId : SessionId
  reconnectToken : ReconnectToken
  deriving DecidableEq

/-- The store, the timers that have not fired, and the episodes so far. -/
structure StoreWorld where
  store : SessionStore
  /-- The timers, each with the number of its episode. -/
  timers : List (ℕ × ExpiryTimer)
  /-- All episodes, in order. -/
  episodes : List Episode
  /-- The episode of the session stored under an identifier. -/
  current : SessionId → Option ℕ
  /-- The episodes returned by reconnects, and the credentials presented for them. -/
  returned : List (ℕ × Episode)

/-- The operations on the store, in any order. -/
inductive StoreEvent
  | suspendAndScheduleExpiry (sessionId : SessionId) (userId : String)
      (connectionSm : ConnectionSm) (reconnectToken : ReconnectToken)
      (grantedPermissions : PermissionSet) (lastGeneration : ℕ)
  | tryReconnect (sessionId : SessionId) (token : ReconnectToken)
  | expireIfTokenMatches (sessionId : SessionId) (reconnectToken : ReconnectToken)
  /-- One of the timers fires. -/
  | fire (timer : ℕ × ExpiryTimer)

/-- The episode the operation starts, if it does: suspending an active connection. -/
def StoreEvent.episode? : StoreEvent → Option Episode
  | .suspendAndScheduleExpiry sessionId _ connectionSm reconnectToken _ _ =>
    if connectionSm.state = .active then some ⟨sessionId, reconnectToken⟩ else none
  | _ => none

namespace StoreWorld

/-- The world before the first operation. -/
def new : StoreWorld := ⟨SessionStore.new, [], [], fun _ => none, []⟩

/-- Expiring a session by a token: the store after it, and the episodes still stored. -/
def expire (w : StoreWorld) (sessionId : SessionId) (token : ReconnectToken) : StoreWorld :=
  let store := w.store.expireIfTokenMatches sessionId token
  { w with
    store
    current := fun id => if (store.sessions id).isNone then none else w.current id }

/-- One operation. A timer fires once. -/
def step (w : StoreWorld) : StoreEvent → Option StoreWorld
  | .suspendAndScheduleExpiry sessionId userId connectionSm reconnectToken grantedPermissions
      lastGeneration =>
    match w.store.suspendAndScheduleExpiry sessionId userId connectionSm reconnectToken
        grantedPermissions lastGeneration with
    | .error _ => some w
    | .ok (store, timer) =>
      some { w with
        store
        timers := w.timers ++ [(w.episodes.length, timer)]
        episodes := w.episodes ++ [⟨sessionId, reconnectToken⟩]
        current := Function.update w.current sessionId (some w.episodes.length) }
  | .tryReconnect sessionId token =>
    match w.store.tryReconnect sessionId token with
    | (.error _, store) => some { w with store }
    | (.ok _, store) =>
      -- the token is used up here, whatever the caller does with the session
      some { w with
        store
        current := Function.update w.current sessionId none
        returned := w.returned ++ ((w.current sessionId).map fun n => (n, ⟨sessionId, token⟩)).toList }
  | .expireIfTokenMatches sessionId token => some (w.expire sessionId token)
  | .fire timer =>
    if timer ∈ w.timers then
      some ({ w with timers := w.timers.erase timer }.expire timer.2.sessionId
        timer.2.reconnectToken)
    else none

/-- The operations as a machine. -/
def machine : Machine StoreWorld StoreEvent := ⟨step⟩

/-! ## The invariant -/

/-- What holds in every world. -/
structure Inv (w : StoreWorld) : Prop where
  /-- A stored session is a suspended one of an episode, under its identifier and token. -/
  stored {id : SessionId} {session : SuspendedSession} :
    w.store.sessions id = some session → session.connectionSm.state = .suspended ∧
      ∃ n, w.current id = some n ∧ w.episodes[n]? = some ⟨id, session.reconnectToken⟩
  /-- Only stored sessions have a current episode. -/
  current {id : SessionId} {n : ℕ} : w.current id = some n → (w.store.sessions id).isSome
  /-- A timer expires by the identifier and the token of its episode. -/
  timers {t : ℕ × ExpiryTimer} :
    t ∈ w.timers → w.episodes[t.1]? = some ⟨t.2.sessionId, t.2.reconnectToken⟩
  /-- An episode is returned to who presents its identifier and token. -/
  returned {r : ℕ × Episode} : r ∈ w.returned → w.episodes[r.1]? = some r.2
  /-- An episode returned is no longer stored. -/
  returned_gone {r : ℕ × Episode} {id : SessionId} : r ∈ w.returned → w.current id ≠ some r.1
  nodup_returned : (w.returned.map Prod.fst).Nodup

theorem inv_new : Inv new where
  stored h := by simp [new, SessionStore.new] at h
  current h := by simp [new] at h
  timers h := by simp [new] at h
  returned h := by simp [new] at h
  returned_gone h := by simp [new] at h
  nodup_returned := List.nodup_nil

variable {w w' : StoreWorld}

/-- The current episode of a session is one of those stored under its identifier. -/
theorem Inv.current_episode (hw : Inv w) {id : SessionId} {n : ℕ} (h : w.current id = some n) :
    ∃ session, w.store.sessions id = some session ∧
      w.episodes[n]? = some ⟨id, session.reconnectToken⟩ := by
  obtain ⟨session, hsession⟩ := Option.isSome_iff_exists.1 (hw.current h)
  obtain ⟨-, m, hm, hepisode⟩ := hw.stored hsession
  obtain rfl : n = m := Option.some.inj (h.symm.trans hm)
  exact ⟨session, hsession, hepisode⟩

/-- Two identifiers do not share an episode. -/
theorem Inv.current_inj (hw : Inv w) {id id' : SessionId} {n : ℕ} (h : w.current id = some n)
    (h' : w.current id' = some n) : id = id' := by
  obtain ⟨_, -, hepisode⟩ := hw.current_episode h
  obtain ⟨_, -, hepisode'⟩ := hw.current_episode h'
  exact congrArg Episode.sessionId (Option.some.inj (hepisode.symm.trans hepisode'))

/-- Expiring removes sessions, and only from the stored ones. -/
theorem Inv.expire (hw : Inv w) (id : SessionId) (token : ReconnectToken) :
    Inv (w.expire id token) := by
  have hstored : ∀ id' session, (w.expire id token).store.sessions id' = some session →
      w.store.sessions id' = some session := by
    intro id' session h
    simp only [StoreWorld.expire, SessionStore.expireIfTokenMatches_eq] at h
    split_ifs at h
    · exact SessionStore.sessions_of_expire h
    · exact h
  have hcurrent : ∀ id' n, (w.expire id token).current id' = some n →
      w.current id' = some n ∧ ((w.expire id token).store.sessions id').isSome := by
    intro id' n h
    simp only [StoreWorld.expire] at h ⊢
    split_ifs at h with hnone
    exact ⟨h, Option.isSome_iff_ne_none.2 (Option.isNone_iff_eq_none.not.1 hnone)⟩
  constructor
  case stored =>
    intro id' session h
    obtain ⟨hstate, n, hn, hepisode⟩ := hw.stored (hstored id' session h)
    refine ⟨hstate, n, ?_, hepisode⟩
    simp only [StoreWorld.expire] at h ⊢
    simp [h, hn]
  case current => exact fun h => (hcurrent _ _ h).2
  case timers => exact hw.timers
  case returned => exact hw.returned
  case returned_gone => exact fun hr h => hw.returned_gone hr (hcurrent _ _ h).1
  case nodup_returned => exact hw.nodup_returned

/-- Suspending starts an episode that no one knows of yet. -/
theorem Inv.suspend (hw : Inv w) (id : SessionId) (session : SuspendedSession)
    (hstate : session.connectionSm.state = .suspended) :
    Inv { w with
      store := w.store.suspend id session
      timers := w.timers ++ [(w.episodes.length, ⟨id, session.reconnectToken⟩)]
      episodes := w.episodes ++ [⟨id, session.reconnectToken⟩]
      current := Function.update w.current id (some w.episodes.length) } := by
  have hold : ∀ {n : ℕ} {e e' : Episode}, w.episodes[n]? = some e →
      (w.episodes ++ [e'])[n]? = some e :=
    fun h => List.getElem?_append_left (List.getElem?_eq_some_iff.1 h).1 ▸ h
  constructor
  case stored =>
    intro id' session' h
    by_cases hid : id' = id
    · subst hid
      obtain rfl : session = session' := by simpa [SessionStore.suspend] using h
      exact ⟨hstate, w.episodes.length, by simp, by simp⟩
    · have hstored : w.store.sessions id' = some session' := by
        simpa [SessionStore.suspend, hid] using h
      obtain ⟨hstate', n, hn, hepisode⟩ := hw.stored hstored
      exact ⟨hstate', n, by simpa [hid] using hn, hold hepisode⟩
  case current =>
    intro id' n h
    by_cases hid : id' = id
    · simp [SessionStore.suspend, hid]
    · simpa [SessionStore.suspend, hid] using hw.current (by simpa [hid] using h)
  case timers =>
    intro t ht
    rcases List.mem_append.1 ht with ht | ht
    · exact hold (hw.timers ht)
    · obtain rfl := List.mem_singleton.1 ht
      simp
  case returned => exact fun hr => hold (hw.returned hr)
  case returned_gone =>
    intro r id' hr h
    by_cases hid : id' = id
    · -- the episode that starts has a number that none returned so far can have
      have hlen : w.episodes.length = r.1 := by simpa [hid] using h
      exact absurd (List.getElem?_eq_some_iff.1 (hw.returned hr)).1 (by omega)
    · exact hw.returned_gone hr (by simpa [hid] using h)
  case nodup_returned => exact hw.nodup_returned

/-- Returning an episode to who presents its credentials takes it out of the store. -/
theorem Inv.reconnect (hw : Inv w) {id : SessionId} {session : SuspendedSession} {n : ℕ}
    (hsession : w.store.sessions id = some session) (hn : w.current id = some n) :
    Inv { w with
      store := w.store.expire id
      current := Function.update w.current id none
      returned := w.returned ++ [(n, ⟨id, session.reconnectToken⟩)] } := by
  have hcurrent : ∀ {id' m}, Function.update w.current id none id' = some m →
      id' ≠ id ∧ w.current id' = some m := by
    intro id' m h
    by_cases hid : id' = id
    · simp [hid] at h
    · exact ⟨hid, by simpa [hid] using h⟩
  constructor
  case stored =>
    intro id' session' h
    have hid : id' ≠ id := SessionStore.ne_of_expire h
    obtain ⟨hstate, m, hm, hepisode⟩ := hw.stored (SessionStore.sessions_of_expire h)
    exact ⟨hstate, m, by simpa [hid] using hm, hepisode⟩
  case current =>
    intro id' m h
    obtain ⟨hid, hm⟩ := hcurrent h
    simpa [SessionStore.expire, hid] using hw.current hm
  case timers => exact hw.timers
  case returned =>
    intro r hr
    rcases List.mem_append.1 hr with hr | hr
    · exact hw.returned hr
    · obtain rfl := List.mem_singleton.1 hr
      obtain ⟨session', hsession', hepisode⟩ := hw.current_episode hn
      obtain rfl : session = session' := Option.some.inj (hsession.symm.trans hsession')
      exact hepisode
  case returned_gone =>
    intro r id' hr h
    obtain ⟨hid, hm⟩ := hcurrent h
    -- the episode returned now was current for `id` only, and is not any more
    rcases List.mem_append.1 hr with hr | hr
    · exact hw.returned_gone hr hm
    · obtain rfl := List.mem_singleton.1 hr
      exact hid (hw.current_inj hm hn)
  case nodup_returned =>
    rw [List.map_append, List.map_singleton]
    refine List.nodup_append.2 ⟨hw.nodup_returned, List.nodup_singleton _, ?_⟩
    rintro m hm _ hm' rfl
    obtain rfl := List.mem_singleton.1 hm'
    obtain ⟨r, hr, rfl⟩ := List.mem_map.1 hm
    exact hw.returned_gone hr hn

/-- Every operation keeps the invariant. -/
theorem Inv.step {e : StoreEvent} (hw : Inv w) (h : w.step e = some w') : Inv w' := by
  cases e with
  | suspendAndScheduleExpiry id userId sm token granted lastGeneration =>
    simp only [StoreWorld.step] at h
    split at h
    · exact Option.some.inj h ▸ hw
    · next store timer hsuspend =>
      obtain ⟨-, rfl, rfl⟩ := SessionStore.suspendAndScheduleExpiry_eq_ok.1 hsuspend
      exact Option.some.inj h ▸ hw.suspend id _ rfl
  | tryReconnect id token =>
    simp only [StoreWorld.step] at h
    split at h
    · next e store htry =>
      obtain rfl := SessionStore.tryReconnect_error htry
      exact Option.some.inj h ▸ hw
    · next session store htry =>
      obtain ⟨hsession, rfl, rfl⟩ := SessionStore.tryReconnect_eq_ok.1 htry
      obtain ⟨-, n, hn, -⟩ := hw.stored hsession
      rw [hn] at h
      exact Option.some.inj h ▸ hw.reconnect hsession hn
  | expireIfTokenMatches id token => exact Option.some.inj h ▸ hw.expire id token
  | fire t =>
    simp only [StoreWorld.step] at h
    split_ifs at h with ht
    have hw' : Inv { w with timers := w.timers.erase t } :=
      { hw with timers := fun h => hw.timers (List.mem_of_mem_erase h) }
    exact Option.some.inj h ▸ hw'.expire _ _

/-- Every run keeps the invariant. -/
theorem inv_of_run {es : List StoreEvent} (h : machine.run new es = some w) : Inv w :=
  Machine.run_invariant (m := machine) (fun _ _ _ hw h => hw.step h) inv_new h

/-- An operation adds the episode it starts, if any. -/
theorem episodes_of_step {e : StoreEvent} (h : w.step e = some w') :
    w'.episodes = w.episodes ++ e.episode?.toList := by
  cases e with
  | suspendAndScheduleExpiry id userId sm token granted lastGeneration =>
    simp only [StoreWorld.step] at h
    split at h
    · next v hsuspend =>
      have hstate : sm.state ≠ .active := by
        intro hactive
        rw [SessionStore.suspendAndScheduleExpiry_eq_ok.2 ⟨hactive, rfl, rfl⟩] at hsuspend
        nomatch hsuspend
      obtain rfl := Option.some.inj h
      simp [StoreEvent.episode?, hstate]
    · next store timer hsuspend =>
      obtain ⟨hstate, -⟩ := SessionStore.suspendAndScheduleExpiry_eq_ok.1 hsuspend
      obtain rfl := Option.some.inj h
      simp [StoreEvent.episode?, hstate]
  | tryReconnect id token =>
    simp only [StoreWorld.step] at h
    split at h <;> obtain rfl := Option.some.inj h <;> simp [StoreEvent.episode?]
  | expireIfTokenMatches id token =>
    obtain rfl := Option.some.inj h
    simp [StoreEvent.episode?, StoreWorld.expire]
  | fire t =>
    simp only [StoreWorld.step] at h
    split_ifs at h
    obtain rfl := Option.some.inj h
    simp [StoreEvent.episode?, StoreWorld.expire]

/-- The episodes of a run are those its operations start. -/
theorem episodes_of_run {es : List StoreEvent} (h : machine.run w es = some w') :
    w'.episodes = w.episodes ++ es.filterMap StoreEvent.episode? := by
  induction es generalizing w with
  | nil => simp [Option.some.inj h]
  | cons e es ih =>
    obtain ⟨w₁, hstep, hrun⟩ := Machine.run_cons_eq_some.1 h
    rw [ih hrun, episodes_of_step hstep, List.append_assoc]
    cases he : e.episode? <;> simp [he]

/-! ## Single use -/

/-- A successful reconnect returns the episode of the session it finds, which has exactly
    the identifier and the token presented. -/
def ReturnsEpisode (w : StoreWorld) (e : StoreEvent) (w' : StoreWorld) : Prop :=
  ∀ id token session, e = .tryReconnect id token →
    (w.store.tryReconnect id token).1 = .ok session →
      ∃ n, w.current id = some n ∧ w.episodes[n]? = some ⟨id, token⟩ ∧
        w'.returned = w.returned ++ [(n, ⟨id, token⟩)]

/-- A failed reconnect leaves the store as it is. -/
def FailureChangesNothing (w : StoreWorld) (e : StoreEvent) (w' : StoreWorld) : Prop :=
  ∀ id token err, e = .tryReconnect id token →
    (w.store.tryReconnect id token).1 = .error err → w'.store = w.store

/-- A timer leaves the sessions of all other episodes than its own as they are. -/
def TimerSparesOthers (w : StoreWorld) (e : StoreEvent) (w' : StoreWorld) : Prop :=
  ∀ timer id n, e = .fire timer → w.current id = some n → n ≠ timer.1 →
    w'.store.sessions id = w.store.sessions id ∧ w'.current id = some n

theorem Inv.returnsEpisode {e : StoreEvent} (hw : Inv w) (h : w.step e = some w') :
    ReturnsEpisode w e w' := by
  rintro id token session rfl hok
  obtain ⟨store, htry⟩ : ∃ store, w.store.tryReconnect id token = (.ok session, store) :=
    ⟨_, Prod.ext hok rfl⟩
  obtain ⟨hsession, rfl, -⟩ := SessionStore.tryReconnect_eq_ok.1 htry
  obtain ⟨-, n, hn, hepisode⟩ := hw.stored hsession
  refine ⟨n, hn, hepisode, ?_⟩
  simp only [StoreWorld.step, htry, hn] at h
  exact Option.some.inj h ▸ rfl

theorem failureChangesNothing {e : StoreEvent} (h : w.step e = some w') :
    FailureChangesNothing w e w' := by
  rintro id token err rfl herr
  obtain ⟨store, htry⟩ : ∃ store, w.store.tryReconnect id token = (.error err, store) :=
    ⟨_, Prod.ext herr rfl⟩
  simp only [StoreWorld.step, htry] at h
  exact Option.some.inj h ▸ SessionStore.tryReconnect_error htry

/-- When the episodes have distinct tokens, a timer finds no other session under its token. -/
theorem Inv.timerSparesOthers {e : StoreEvent} (hw : Inv w)
    (hdistinct : (w.episodes.map Episode.reconnectToken).Nodup) (h : w.step e = some w') :
    TimerSparesOthers w e w' := by
  rintro timer id n rfl hn hne
  simp only [StoreWorld.step] at h
  split_ifs at h with ht
  obtain ⟨session, hsession, hepisode⟩ := hw.current_episode hn
  have htimer := hw.timers ht
  -- the stored session has the token of its own episode, which is not the timer's
  have htoken : session.reconnectToken ≠ timer.2.reconnectToken := by
    intro heq
    refine hne ((List.getElem?_inj (?_ : n < (w.episodes.map _).length) hdistinct).1 ?_)
    · rw [List.length_map]
      exact (List.getElem?_eq_some_iff.1 hepisode).1
    · rw [List.getElem?_map, List.getElem?_map, hepisode, htimer]
      exact congrArg some heq
  have hstore : (w.store.expireIfTokenMatches timer.2.sessionId timer.2.reconnectToken).sessions id =
      w.store.sessions id := by
    rw [SessionStore.expireIfTokenMatches_eq]
    split_ifs with hmatch
    · have hid : id ≠ timer.2.sessionId := by
        rintro rfl
        rw [hsession] at hmatch
        exact htoken (Option.some.inj hmatch)
      simp [SessionStore.expire, hid]
    · rfl
  obtain rfl := Option.some.inj h
  refine ⟨hstore, ?_⟩
  simp only [StoreWorld.expire, hstore, hsession]
  exact hn

/-- What single use of the episodes asks of a run from an empty store to the world `w`. -/
structure SingleUse (es : List StoreEvent) (w : StoreWorld) : Prop where
  /-- No episode is returned twice. -/
  nodup_returned : (w.returned.map Prod.fst).Nodup
  returnsEpisode : machine.Always ReturnsEpisode new es
  failureChangesNothing : machine.Always FailureChangesNothing new es
  timerSparesOthers : machine.Always TimerSparesOthers new es
  suspended {id : SessionId} {session : SuspendedSession} :
    w.store.sessions id = some session → session.connectionSm.state = .suspended
  /-- No reconnect is refused for the state of a connection. -/
  no_violation (reauth : SessionReauthenticate) (token : ReconnectToken)
    (written : Except Quinn.WriteError Unit) (reason : ReasonCode) :
    (serverCompleteReconnect reauth w.store token written).1 ≠ .error (.violation reason)

/-- In every run of the operations from an empty store, with distinct tokens for distinct
    episodes, the episodes are of single use. -/
theorem singleUse_of_run {es : List StoreEvent} (hrun : machine.run new es = some w)
    (hdistinct : ((es.filterMap StoreEvent.episode?).map Episode.reconnectToken).Nodup) :
    SingleUse es w := by
  have hw := inv_of_run hrun
  constructor
  case nodup_returned => exact hw.nodup_returned
  case returnsEpisode =>
    exact Machine.always_of_step (m := machine) (fun _ _ _ hw h => hw.step h)
      (fun _ _ _ hw h => hw.returnsEpisode h) inv_new
  case failureChangesNothing =>
    exact Machine.always_of_step (m := machine) (I := Inv) (fun _ _ _ hw h => hw.step h)
      (fun _ _ _ _ h => StoreWorld.failureChangesNothing h) inv_new
  case timerSparesOthers =>
    refine Machine.always_of_prefix fun es₁ e es₂ w₁ w₂ hes hrun₁ hstep => ?_
    refine (inv_of_run hrun₁).timerSparesOthers ?_ hstep
    -- the episodes so far are among those of the whole run
    rw [episodes_of_run hrun₁]
    refine hdistinct.sublist (List.Sublist.map _ ?_)
    rw [hes, List.filterMap_append]
    exact List.sublist_append_left _ _
  case suspended => exact fun h => (hw.stored h).1
  case no_violation =>
    intro reauth token written reason h
    obtain ⟨session, hmatch, hstate⟩ := serverCompleteReconnect_violation h
    exact hstate (hw.stored hmatch.1).1

/-- A session suspended, resumed and suspended again, before the first timer fires: the
    timer finds the second episode, and a replay of the first token fails. -/
def staleTimer : List StoreEvent :=
  let id := Vector.replicate 16 1
  let suspend (token : UInt8) (generation : ℕ) := StoreEvent.suspendAndScheduleExpiry id "alice"
    ⟨.active, 0⟩ (Vector.replicate 32 token) FRESH_GRANT generation
  [suspend 2 0, .tryReconnect id (Vector.replicate 32 2), suspend 9 1,
    .fire (0, ⟨id, Vector.replicate 32 2⟩), .tryReconnect id (Vector.replicate 32 2)]

theorem singleUse_staleTimer :
    ∃ w, machine.run new staleTimer = some w ∧ w.returned.length = 1 ∧
      (w.store.contains (Vector.replicate 16 1)) ∧ SingleUse staleTimer w :=
  ⟨_, rfl, rfl, rfl, singleUse_of_run rfl (by decide)⟩

end StoreWorld

end Sardp
