import Sardp.File.HandleStore
import Sardp.Library.Machine
import Sardp.Wire.Prologue

/-!
# Whose a file handle is

Over any history of a store of file handles with a clock that does not go back, a handle is
good for exactly those it was issued to, until it is removed or expires
(`FileHandleWorld.bound_of_run`).

The store is compared with the history of what was issued and removed: what it holds stands in
the history (`FileHandleWorld.Stands`), and what stands there and has not expired it holds
(`FileHandleWorld.Inv`). Sweeping does not show in the history, since what is swept has expired
by the clock, and stays so.
-/

namespace Sardp

namespace FileHandleStore

/-- The handle of eight random bytes, least significant first, as far as a varint goes. -/
def candidate (bytes : Vector UInt8 8) : ℕ :=
  bytes.toList.foldr (fun byte rest => byte.toNat + 256 * rest) 0 &&& Varint.MAX

/-- The first handle drawn that is vacant; `none` when the draws run out before. -/
def drawVacant (store : FileHandleStore) : List (Vector UInt8 8) → Option ℕ
  | [] => none
  | bytes :: draws =>
    if candidate bytes ∈ store.handles then store.drawVacant draws else some (candidate bytes)

/-- Issuing a handle that is drawn, for a time and up to a number of handles; `none` as long as
    no vacant one has been drawn. -/
def tryIssueDrawn (store : FileHandleStore) (sessionId : SessionId) (userId : String)
    (direction : FileTransferDirection) (resolvedSize ttlUs maxConcurrent nowUs : ℕ)
    (draws : List (Vector UInt8 8)) : Option (Option (ℕ × ℕ) × FileHandleStore) :=
  let expiryTs := nowUs + ttlUs
  let record := { sessionId, userId, direction, resolvedSize, expiryTs }
  if store.handles.keys.length ≥ maxConcurrent then some (none, store)
  else
    (store.drawVacant draws).map fun candidate =>
      (some (candidate, expiryTs), ⟨store.handles.insert candidate record⟩)

variable {store store' : FileHandleStore} {sessionId : SessionId} {userId : String}
  {direction : FileTransferDirection} {resolvedSize ttlUs maxConcurrent nowUs fileHandle h : ℕ}
  {draws : List (Vector UInt8 8)} {record : FileHandleRecord}

/-- The server issues the first vacant handle that is drawn. -/
theorem tryIssueDrawn_eq_tryIssue (hdraw : store.drawVacant draws = some h) :
    store.tryIssueDrawn sessionId userId direction resolvedSize FILE_HANDLE_TTL_US
        MAX_CONCURRENT_FILE_TRANSFERS nowUs draws =
      some (store.tryIssue sessionId userId direction resolvedSize nowUs h) := by
  rw [tryIssueDrawn, tryIssue, hdraw]
  split_ifs <;> rfl

/-- A handle that is drawn is vacant, and a varint. -/
theorem drawVacant_eq_some (hdraw : store.drawVacant draws = some h) :
    store.get h = none ∧ h ≤ Varint.MAX := by
  induction draws with
  | nil => cases hdraw
  | cons bytes draws ih =>
    rw [drawVacant] at hdraw
    split_ifs at hdraw with hmem
    · exact ih hdraw
    · cases hdraw
      exact ⟨AList.lookup_eq_none.2 hmem, Nat.and_le_right⟩

/-- What issuing a handle leads to. -/
theorem tryIssueDrawn_eq_some {result : Option (ℕ × ℕ)} :
    store.tryIssueDrawn sessionId userId direction resolvedSize ttlUs maxConcurrent nowUs draws =
        some (result, store') ↔
      (maxConcurrent ≤ store.handles.keys.length ∧ result = none ∧ store' = store) ∨
      store.handles.keys.length < maxConcurrent ∧ ∃ h, store.drawVacant draws = some h ∧
        result = some (h, nowUs + ttlUs) ∧ store' = ⟨store.handles.insert h
          ⟨sessionId, userId, direction, resolvedSize, nowUs + ttlUs⟩⟩ := by
  rw [tryIssueDrawn]
  split_ifs with hfull
  · simp [hfull, Nat.not_lt.2 hfull, eq_comm]
  · simp [hfull, Nat.lt_of_not_le hfull, eq_comm]

theorem get_insert_self (handles : AList fun _ : ℕ => FileHandleRecord) :
    get ⟨handles.insert h record⟩ h = some record :=
  AList.lookup_insert handles

theorem get_insert_of_ne {h' : ℕ} (hne : h' ≠ h) :
    get ⟨store.handles.insert h record⟩ h' = store.get h' :=
  AList.lookup_insert_ne hne

theorem get_remove : (store.remove fileHandle).get h =
    if h = fileHandle then none else store.get h := by
  split_ifs with heq
  · subst heq
    exact AList.lookup_erase h store.handles
  · exact AList.lookup_erase_ne heq

/-- Sweeping keeps exactly the handles that have not expired. -/
theorem get_sweepExpired : (store.sweepExpired nowUs).get h = some record ↔
    store.get h = some record ∧ nowUs ≤ record.expiryTs := by
  rw [get, get, ← Option.mem_def, ← Option.mem_def, AList.mem_lookup_iff, AList.mem_lookup_iff]
  simp [sweepExpired]

end FileHandleStore

/-! ## Histories -/

/-- What happens to a handle. -/
inductive FileHandleChange
  | issued (fileHandle : ℕ) (record : FileHandleRecord)
  | removed (fileHandle : ℕ)
  deriving DecidableEq

/-- A store with the time and the history of its handles, newest first. -/
structure FileHandleWorld where
  store : FileHandleStore
  nowUs : ℕ
  history : List FileHandleChange

/-- The operations of the store. -/
inductive FileHandleOp
  | tryIssue (sessionId : SessionId) (userId : String) (direction : FileTransferDirection)
    (resolvedSize ttlUs maxConcurrent : ℕ) (draws : List (Vector UInt8 8))
  | validate (fileHandle : ℕ) (sessionId : SessionId) (userId : String)
    (direction : FileTransferDirection)
  | remove (fileHandle : ℕ)
  | sweepExpired

/-- An operation, and the time it is called at. -/
structure FileHandleCall where
  nowUs : ℕ
  op : FileHandleOp

namespace FileHandleWorld

/-- A store without handles. -/
def new (nowUs : ℕ) : FileHandleWorld := ⟨.new, nowUs, []⟩

/-- A call, no earlier than the one before. -/
def step (w : FileHandleWorld) (call : FileHandleCall) : Option FileHandleWorld :=
  if call.nowUs < w.nowUs then none
  else
    match call.op with
    | .tryIssue sessionId userId direction resolvedSize ttlUs maxConcurrent draws =>
      match w.store.tryIssueDrawn sessionId userId direction resolvedSize ttlUs maxConcurrent
          call.nowUs draws with
      | none => none
      | some (none, store) => some { w with store, nowUs := call.nowUs }
      | some (some (fileHandle, expiryTs), store) =>
        let record := { sessionId, userId, direction, resolvedSize, expiryTs }
        some ⟨store, call.nowUs, .issued fileHandle record :: w.history⟩
    -- validating a handle changes nothing
    | .validate _ _ _ _ => some { w with nowUs := call.nowUs }
    | .remove fileHandle =>
      some ⟨w.store.remove fileHandle, call.nowUs, .removed fileHandle :: w.history⟩
    | .sweepExpired =>
      some { w with store := w.store.sweepExpired call.nowUs, nowUs := call.nowUs }

/-- The calls as a machine. -/
def machine : Machine FileHandleWorld FileHandleCall := ⟨step⟩

/-- In the history, the handle was issued with the record, and has not been removed since. -/
def Stands (history : List FileHandleChange) (fileHandle : ℕ) (record : FileHandleRecord) : Prop :=
  ∃ later earlier, history = later ++ .issued fileHandle record :: earlier ∧
    .removed fileHandle ∉ later

variable {w w' : FileHandleWorld} {call : FileHandleCall} {h : ℕ} {record : FileHandleRecord}

theorem stands_cons {change : FileHandleChange} {history : List FileHandleChange} :
    Stands (change :: history) h record ↔
      change = .issued h record ∨ change ≠ .removed h ∧ Stands history h record := by
  constructor
  · rintro ⟨later, earlier, heq, hremoved⟩
    cases later with
    | nil => exact .inl (List.cons.inj heq).1
    | cons _ later =>
      obtain ⟨rfl, rfl⟩ := List.cons.inj heq
      rw [List.mem_cons, not_or] at hremoved
      exact .inr ⟨Ne.symm hremoved.1, later, earlier, rfl, hremoved.2⟩
  · rintro (rfl | ⟨hne, later, earlier, rfl, hremoved⟩)
    · exact ⟨[], history, rfl, List.not_mem_nil⟩
    · refine ⟨change :: later, earlier, rfl, ?_⟩
      rw [List.mem_cons, not_or]
      exact ⟨Ne.symm hne, hremoved⟩

/-- The store agrees with the history, but for what has expired. -/
structure Inv (w : FileHandleWorld) : Prop where
  stands {h : ℕ} {record : FileHandleRecord} :
    w.store.get h = some record → Stands w.history h record
  stored {h : ℕ} {record : FileHandleRecord} :
    Stands w.history h record → w.nowUs ≤ record.expiryTs → w.store.get h = some record
  le_max {h : ℕ} {record : FileHandleRecord} : w.store.get h = some record → h ≤ Varint.MAX

theorem inv_new (nowUs : ℕ) : (new nowUs).Inv where
  stands h := nomatch h
  stored := by
    rintro h record ⟨later, earlier, heq, -⟩
    cases later <;> cases heq
  le_max h := nomatch h

/-- A handle that is issued anew stands next to the others. -/
theorem Inv.issue (hw : w.Inv) {nowUs : ℕ} (hnow : w.nowUs ≤ nowUs) (hget : w.store.get h = none)
    (hmax : h ≤ Varint.MAX) :
    Inv ⟨⟨w.store.handles.insert h record⟩, nowUs, .issued h record :: w.history⟩ where
  stands {h' record'} hget' := by
    rw [stands_cons]
    by_cases heq : h' = h
    · subst heq
      rw [FileHandleStore.get_insert_self, Option.some.injEq] at hget'
      exact .inl (by rw [hget'])
    · rw [FileHandleStore.get_insert_of_ne heq] at hget'
      exact .inr ⟨nofun, hw.stands hget'⟩
  stored {h' record'} hstands hexpiry := by
    rcases stands_cons.1 hstands with heq | ⟨-, hstands⟩
    · cases heq
      exact FileHandleStore.get_insert_self ..
    · have hstored := hw.stored hstands (hnow.trans hexpiry)
      -- what is stored is not vacant
      have hne : h' ≠ h := by
        rintro rfl
        rw [hget] at hstored
        cases hstored
      rwa [FileHandleStore.get_insert_of_ne hne]
  le_max {h' record'} hget' := by
    by_cases heq : h' = h
    · exact heq ▸ hmax
    · rw [FileHandleStore.get_insert_of_ne heq] at hget'
      exact hw.le_max hget'

theorem Inv.remove (hw : w.Inv) {nowUs : ℕ} (hnow : w.nowUs ≤ nowUs) (h : ℕ) :
    Inv ⟨w.store.remove h, nowUs, .removed h :: w.history⟩ where
  stands {h' record'} hget := by
    rw [FileHandleStore.get_remove] at hget
    split_ifs at hget with heq
    exact stands_cons.2 (.inr ⟨fun h => heq (FileHandleChange.removed.inj h).symm, hw.stands hget⟩)
  stored {h' record'} hstands hexpiry := by
    rcases stands_cons.1 hstands with heq | ⟨hne, hstands⟩
    · cases heq
    · rw [FileHandleStore.get_remove, if_neg fun heq => hne (by rw [heq])]
      exact hw.stored hstands (hnow.trans hexpiry)
  le_max {h' record'} hget := by
    rw [FileHandleStore.get_remove] at hget
    split_ifs at hget
    exact hw.le_max hget

theorem Inv.sweepExpired (hw : w.Inv) {nowUs : ℕ} (hnow : w.nowUs ≤ nowUs) :
    Inv ⟨w.store.sweepExpired nowUs, nowUs, w.history⟩ where
  stands hget := hw.stands (FileHandleStore.get_sweepExpired.1 hget).1
  stored hstands hexpiry :=
    FileHandleStore.get_sweepExpired.2 ⟨hw.stored hstands (hnow.trans hexpiry), hexpiry⟩
  le_max hget := hw.le_max (FileHandleStore.get_sweepExpired.1 hget).1

/-- Time that passes makes handles expire. -/
theorem Inv.elapse (hw : w.Inv) {nowUs : ℕ} (hnow : w.nowUs ≤ nowUs) :
    Inv { w with nowUs } where
  stands := hw.stands
  stored hstands hexpiry := hw.stored hstands (hnow.trans hexpiry)
  le_max := hw.le_max

/-- Time passes, and a handle is issued or removed, or those that have expired are swept. -/
theorem step_cases (hstep : machine.step w call = some w') :
    w.nowUs ≤ call.nowUs ∧
      (w' = { w with nowUs := call.nowUs } ∨
        (∃ h record, w.store.get h = none ∧ h ≤ Varint.MAX ∧
          w' = ⟨⟨w.store.handles.insert h record⟩, call.nowUs, .issued h record :: w.history⟩) ∨
        (∃ h, w' = ⟨w.store.remove h, call.nowUs, .removed h :: w.history⟩) ∨
        w' = { w with store := w.store.sweepExpired call.nowUs, nowUs := call.nowUs }) := by
  obtain ⟨nowUs, op⟩ := call
  simp only [machine, FileHandleWorld.step] at hstep
  split_ifs at hstep with hlt
  refine ⟨Nat.le_of_not_lt hlt, ?_⟩
  cases op with
  | tryIssue sessionId userId direction resolvedSize ttlUs maxConcurrent draws =>
    dsimp only at hstep
    split at hstep
    · cases hstep
    · next store hissue =>
      cases hstep
      obtain ⟨-, -, rfl⟩ | ⟨-, _, -, hresult, -⟩ :=
        FileHandleStore.tryIssueDrawn_eq_some.1 hissue
      · exact .inl rfl
      · cases hresult
    · next h expiryTs store hissue =>
      cases hstep
      obtain ⟨-, hresult, -⟩ | ⟨-, _, hdraw, hresult, rfl⟩ :=
        FileHandleStore.tryIssueDrawn_eq_some.1 hissue
      · cases hresult
      · cases hresult
        obtain ⟨hget, hmax⟩ := FileHandleStore.drawVacant_eq_some hdraw
        exact .inr (.inl ⟨h, _, hget, hmax, rfl⟩)
  | validate =>
    cases hstep
    exact .inl rfl
  | remove h =>
    cases hstep
    exact .inr (.inr (.inl ⟨h, rfl⟩))
  | sweepExpired =>
    cases hstep
    exact .inr (.inr (.inr rfl))

theorem Inv.step (hw : w.Inv) (hstep : machine.step w call = some w') : w'.Inv := by
  obtain ⟨hnow, rfl | ⟨h, record, hget, hmax, rfl⟩ | ⟨h, rfl⟩ | rfl⟩ := step_cases hstep
  · exact hw.elapse hnow
  · exact hw.issue hnow hget hmax
  · exact hw.remove hnow h
  · exact hw.sweepExpired hnow

/-- What binds the handles of a store to those they were issued to. -/
structure Bound (w : FileHandleWorld) : Prop where
  /-- A handle is good for those it was issued to, until it is removed or expires. -/
  validate {nowUs h : ℕ} {sessionId : SessionId} {userId : String}
    {direction : FileTransferDirection} {record : FileHandleRecord} : w.nowUs ≤ nowUs →
    (w.store.validate nowUs h sessionId userId direction = .ok record ↔
      Stands w.history h record ∧ record.sessionId = sessionId ∧ record.userId = userId ∧
        record.direction = direction ∧ nowUs ≤ record.expiryTs)
  /-- A handle that is issued was vacant, no other one changes, and there are not too many
      then; issuing that is refused changes nothing. -/
  tryIssue {sessionId : SessionId} {userId : String} {direction : FileTransferDirection}
    {resolvedSize ttlUs maxConcurrent nowUs : ℕ} {draws : List (Vector UInt8 8)}
    {result : Option (ℕ × ℕ)} {store : FileHandleStore} :
    w.store.tryIssueDrawn sessionId userId direction resolvedSize ttlUs maxConcurrent nowUs draws =
        some (result, store) →
      (result = none → store = w.store) ∧
        ∀ h expiryTs, result = some (h, expiryTs) → w.store.get h = none ∧
          store.get h = some ⟨sessionId, userId, direction, resolvedSize, expiryTs⟩ ∧
          (∀ h' ≠ h, store.get h' = w.store.get h') ∧
          store.handles.keys.length ≤ maxConcurrent
  /-- A handle of the store keeps what it is bound to, until it is gone. -/
  keeps {call : FileHandleCall} {w' : FileHandleWorld} {h : ℕ} {record : FileHandleRecord} :
    machine.step w call = some w' → w.store.get h = some record →
      w'.store.get h = some record ∨ w'.store.get h = none
  /-- Sweeping removes the handles that their owners would find expired, and no others. -/
  sweepExpired {nowUs h : ℕ} : (w.store.sweepExpired nowUs).get h =
    (w.store.get h).filter fun record =>
      w.store.validate nowUs h record.sessionId record.userId record.direction ≠ .error .expired
  /-- A handle survives the prologue of the stream it is the context of. -/
  prologue {h : ℕ} {record : FileHandleRecord} (kind : StreamKind) (version : UInt8)
    (out : List UInt8) : w.store.get h = some record →
    ∃ c, StreamPrologue.encode kind version h out = some (out ++ c) ∧
      ∀ rest, StreamPrologue.parse (c ++ rest) = .ok (some (⟨kind, version, h⟩, c.length))

/-- A varint survives the prologue of a stream. -/
theorem parse_encode_of_le_max (kind : StreamKind) (version : UInt8) (out : List UInt8)
    (hmax : h ≤ Varint.MAX) : ∃ c, StreamPrologue.encode kind version h out = some (out ++ c) ∧
      ∀ rest, StreamPrologue.parse (c ++ rest) = .ok (some (⟨kind, version, h⟩, c.length)) := by
  obtain ⟨bytes, hbytes⟩ : ∃ bytes, StreamPrologue.encode kind version h out = some bytes :=
    Option.isSome_iff_exists.1 (Varint.encode_isSome.2 hmax)
  obtain ⟨c, rfl, hc⟩ := StreamPrologue.encodes_of_encode hbytes
  exact ⟨c, hbytes, fun rest => hc.decode_append rest⟩

theorem tryIssueDrawn_spec {store store' : FileHandleStore} {sessionId : SessionId}
    {userId : String} {direction : FileTransferDirection}
    {resolvedSize ttlUs maxConcurrent nowUs expiryTs : ℕ} {draws : List (Vector UInt8 8)}
    (hissue : store.tryIssueDrawn sessionId userId direction resolvedSize ttlUs maxConcurrent nowUs
      draws = some (some (h, expiryTs), store')) :
    store.get h = none ∧
      store'.get h = some ⟨sessionId, userId, direction, resolvedSize, expiryTs⟩ ∧
      (∀ h' ≠ h, store'.get h' = store.get h') ∧ store'.handles.keys.length ≤ maxConcurrent := by
  obtain ⟨-, hresult, -⟩ | ⟨hlt, _, hdraw, hresult, rfl⟩ :=
    FileHandleStore.tryIssueDrawn_eq_some.1 hissue
  · cases hresult
  · cases hresult
    obtain ⟨hget, -⟩ := FileHandleStore.drawVacant_eq_some hdraw
    refine ⟨hget, FileHandleStore.get_insert_self .., fun h' hne =>
      FileHandleStore.get_insert_of_ne hne, ?_⟩
    have hlen : (store.handles.keys.erase h).length ≤ store.handles.keys.length :=
      List.length_erase_le
    rw [AList.keys_insert, List.length_cons]
    omega

/-- To its owner, a handle of the store is expired exactly once its time is over. -/
theorem validate_owner_eq_expired {store : FileHandleStore} {nowUs : ℕ}
    (hget : store.get h = some record) :
    store.validate nowUs h record.sessionId record.userId record.direction = .error .expired ↔
      record.expiryTs < nowUs := by
  rw [FileHandleStore.validate, hget]
  simp

/-- A handle of the store keeps what it is bound to, until it is gone. -/
theorem get_step (hstep : machine.step w call = some w') (hget : w.store.get h = some record) :
    w'.store.get h = some record ∨ w'.store.get h = none := by
  obtain ⟨-, rfl | ⟨candidate, record', hvacant, -, rfl⟩ | ⟨fileHandle, rfl⟩ | rfl⟩ :=
    step_cases hstep
  · exact .inl hget
  · -- what is bound is not vacant
    have hne : h ≠ candidate := by
      rintro rfl
      rw [hvacant] at hget
      cases hget
    exact .inl ((FileHandleStore.get_insert_of_ne hne).trans hget)
  · rw [FileHandleStore.get_remove]
    split_ifs
    · exact .inr rfl
    · exact .inl hget
  · cases hswept : (w.store.sweepExpired call.nowUs).get h with
    | none => exact .inr rfl
    | some record' =>
      obtain ⟨hget', -⟩ := FileHandleStore.get_sweepExpired.1 hswept
      exact .inl (hget'.symm.trans hget)

theorem Inv.bound (hw : w.Inv) : w.Bound where
  validate {nowUs h sessionId userId direction record} hnow := by
    rw [FileHandleStore.validate_eq_ok]
    constructor
    · rintro ⟨hget, howner⟩
      exact ⟨hw.stands hget, howner⟩
    · rintro ⟨hstands, hsession, huser, hdirection, hexpiry⟩
      exact ⟨hw.stored hstands (hnow.trans hexpiry), hsession, huser, hdirection, hexpiry⟩
  tryIssue {_ _ _ _ _ _ _ _ result store} hissue := by
    refine ⟨fun hresult => ?_, fun h expiryTs hresult => ?_⟩
    · obtain ⟨-, -, rfl⟩ | ⟨-, _, -, hresult', -⟩ :=
        FileHandleStore.tryIssueDrawn_eq_some.1 hissue
      · rfl
      · rw [hresult] at hresult'
        cases hresult'
    · exact tryIssueDrawn_spec (hresult ▸ hissue)
  keeps hstep hget := get_step hstep hget
  sweepExpired {nowUs h} := by
    ext record
    rw [FileHandleStore.get_sweepExpired, Option.filter_eq_some_iff, decide_eq_true_eq]
    refine and_congr_right fun hget => ?_
    rw [Ne, validate_owner_eq_expired hget, Nat.not_lt]
  prologue kind version out hget := parse_encode_of_le_max kind version out (hw.le_max hget)

/-- After every history of calls with a clock that does not go back, the handles are bound to
    those they were issued to. -/
theorem bound_of_run {startUs : ℕ} {calls : List FileHandleCall}
    (hrun : machine.run (new startUs) calls = some w) : w.Bound :=
  (Machine.run_invariant (fun _ _ _ hw hstep => Inv.step hw hstep) (inv_new startUs) hrun).bound

/-- A handle that was swept is issued again, to another session, and is good for that one. -/
theorem bound_of_run_reissued :
    let drawn := [Vector.replicate 8 1]
    let upload (id : UInt8) : FileHandleOp :=
      .tryIssue (Vector.replicate 16 id) "user" .upload 5 10 64 drawn
    ∃ w, machine.run (new 0) [⟨0, upload 1⟩, ⟨11, .sweepExpired⟩, ⟨12, upload 2⟩] = some w ∧
      w.Bound := by
  intro drawn upload
  obtain ⟨w, hrun⟩ : ∃ w, machine.run (new 0)
      [⟨0, upload 1⟩, ⟨11, .sweepExpired⟩, ⟨12, upload 2⟩] = some w := ⟨_, rfl⟩
  exact ⟨w, hrun, bound_of_run hrun⟩

end FileHandleWorld

end Sardp
