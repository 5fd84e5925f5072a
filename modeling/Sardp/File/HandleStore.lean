import Mathlib.Data.List.AList
import Sardp.Messages

/-!
# File handles

The handles the server has issued for file transfers, each bound to a session, a user, a
direction and a size, until a deadline (`file_handle_store.rs`). A handle may be used by
whom it was issued to (`FileHandleStore.validate_eq_ok`), as often as they like, until it is
removed.
-/

namespace Sardp

/-- What a handle is bound to. -/
structure FileHandleRecord where
  sessionId : SessionId
  userId : String
  direction : FileTransferDirection
  resolvedSize : ℕ
  expiryTs : ℕ
  deriving DecidableEq

/-- Why a handle is refused. -/
inductive FileHandleError
  | unknown
  | expired
  | sessionMismatch
  | userMismatch
  | directionMismatch
  deriving DecidableEq

/-- The time a handle is valid for. -/
def FILE_HANDLE_TTL_US : ℕ := 300 * 1000000

/-- The number of handles there may be. -/
def MAX_CONCURRENT_FILE_TRANSFERS : ℕ := 64

/-- The handles issued, with what they are bound to. -/
structure FileHandleStore where
  handles : AList fun _ : ℕ => FileHandleRecord

namespace FileHandleStore

/-- A store without handles. -/
def new : FileHandleStore := ⟨∅⟩

/-- What a handle is bound to. -/
def get (store : FileHandleStore) (fileHandle : ℕ) : Option FileHandleRecord :=
  store.handles.lookup fileHandle

/-- Issuing a handle, the first vacant one that is drawn, unless there are too many: the
    handle and its deadline, and the store with it. -/
def tryIssue (store : FileHandleStore) (sessionId : SessionId) (userId : String)
    (direction : FileTransferDirection) (resolvedSize nowUs candidate : ℕ) :
    Option (ℕ × ℕ) × FileHandleStore :=
  if store.handles.keys.length ≥ MAX_CONCURRENT_FILE_TRANSFERS then (none, store)
  else
    let expiryTs := nowUs + FILE_HANDLE_TTL_US
    let record := { sessionId, userId, direction, resolvedSize, expiryTs }
    (some (candidate, expiryTs), ⟨store.handles.insert candidate record⟩)

/-- Whether a handle was issued to the session and the user, for the direction, and has not
    expired. -/
def validate (store : FileHandleStore) (nowUs fileHandle : ℕ) (sessionId : SessionId)
    (userId : String) (direction : FileTransferDirection) :
    Except FileHandleError FileHandleRecord :=
  match store.get fileHandle with
  | none => .error .unknown
  | some record =>
    if record.sessionId ≠ sessionId then .error .sessionMismatch
    else if record.userId ≠ userId then .error .userMismatch
    else if record.direction ≠ direction then .error .directionMismatch
    else if nowUs > record.expiryTs then .error .expired
    else .ok record

/-- Removing a handle, if it is still there. -/
def remove (store : FileHandleStore) (fileHandle : ℕ) : FileHandleStore :=
  ⟨store.handles.erase fileHandle⟩

/-- Removing every expired handle. -/
def sweepExpired (store : FileHandleStore) (nowUs : ℕ) : FileHandleStore where
  handles :=
    { entries := store.handles.entries.filter fun entry => entry.2.expiryTs ≥ nowUs
      nodupKeys := store.handles.nodupKeys.sublist List.filter_sublist }

variable {store : FileHandleStore} {nowUs fileHandle : ℕ} {sessionId : SessionId}
  {userId : String} {direction : FileTransferDirection} {record : FileHandleRecord}

theorem validate_eq_ok :
    store.validate nowUs fileHandle sessionId userId direction = .ok record ↔
      store.get fileHandle = some record ∧ record.sessionId = sessionId ∧
        record.userId = userId ∧ record.direction = direction ∧ nowUs ≤ record.expiryTs := by
  rw [validate]
  cases store.get fileHandle with
  | none => simp
  | some found =>
    dsimp only
    split_ifs with h₁ h₂ h₃ h₄
    -- past every check the record is the one found; each of the others refutes its own part
    case neg =>
      simp only [Except.ok.injEq, Option.some.injEq]
      constructor
      · rintro rfl
        exact ⟨rfl, not_not.1 h₁, not_not.1 h₂, not_not.1 h₃, not_lt.1 h₄⟩
      · exact And.left
    all_goals
      refine iff_of_false nofun ?_
      rintro ⟨⟨⟩, hsession, huser, hdirection, hexpiry⟩
    · exact h₁ hsession
    · exact h₂ huser
    · exact h₃ hdirection
    · exact absurd h₄ (not_lt.2 hexpiry)

/-- Issuing a handle to a session adds none of another one. -/
theorem get_of_tryIssue {h resolvedSize candidate : ℕ}
    (hget : (store.tryIssue sessionId userId direction resolvedSize nowUs candidate).2.get h =
      some record) (hsession : sessionId ≠ record.sessionId) : store.get h = some record := by
  rw [tryIssue] at hget
  split_ifs at hget
  · exact hget
  · by_cases hh : h = candidate
    · -- the record found would be the one issued, which is the other session's
      subst hh
      simp only [get, AList.lookup_insert, Option.some.injEq] at hget
      exact absurd (congrArg FileHandleRecord.sessionId hget) hsession
    · rwa [get, AList.lookup_insert_ne hh] at hget

/-- Removing handles adds none. -/
theorem get_of_remove {h : ℕ} (hget : (store.remove fileHandle).get h = some record) :
    store.get h = some record := by
  by_cases hh : h = fileHandle
  · subst hh
    simp [get, remove] at hget
  · rwa [get, remove, AList.lookup_erase_ne hh] at hget

theorem get_of_sweepExpired {h : ℕ} (hget : (store.sweepExpired nowUs).get h = some record) :
    store.get h = some record := by
  have hmem := AList.mem_lookup_iff.1 hget
  exact AList.mem_lookup_iff.2 (List.mem_of_mem_filter hmem)

end FileHandleStore

end Sardp
