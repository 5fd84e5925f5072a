import Sardp.Library.Histories
import Sardp.Session.Permission

/-!
# Permissions bit by bit

The permissions of a session are ten machines, one for each (`PermissionSm`). An update names all
the permissions granted from now on, so it is an event for every one of them, also for those it
does not mention; the end of the operations in progress is an event for one (`PermissionOp.on`).

* `BitState.step` is the machine of a permission on its own, and `PermissionSm.state_run` says that
  the machine of all runs these side by side.
* `PermissionSm.bitwise` says what a permission goes through, when the gate is open, and which of
  the two reasons it gives when it is not.
-/

namespace Sardp

/-- What happens to the permissions of a session. -/
inductive PermissionOp
  | applyUpdate (update : PermissionUpdate)
  | finishDraining (bit : PermissionSet)
  deriving DecidableEq

/-- What happens to one permission. -/
inductive BitOp
  /-- An update, and whether the permission is in its two masks. -/
  | update (granted immediatelyRevoked : Bool)
  /-- The operations in progress have ended. -/
  | finish
  deriving DecidableEq

/-- The machine of a permission on its own. -/
def BitState.step : BitState → BitOp → BitState
  | _, .update true _ => .granted
  | .granted, .update false true => .notGranted
  | .granted, .update false false => .draining
  | .draining, .finish => .notGranted
  | state, _ => state

/-- The state a permission starts in. -/
def BitState.initial (granted : Bool) : BitState := if granted then .granted else .notGranted

namespace PermissionOp

/-- The permission is in the mask. -/
def has (mask b : PermissionSet) : Bool := mask &&& b ≠ 0

/-- What an operation is to one permission. -/
def on (b : PermissionSet) : PermissionOp → Option BitOp
  | applyUpdate update =>
    some (.update (has update.grantedPermissions b) (has update.immediateRevoke b))
  | finishDraining bit => if bit = b then some .finish else none

/-- The permissions granted by an update. -/
def granted : PermissionOp → Option PermissionSet
  | applyUpdate update => some update.grantedPermissions
  | finishDraining _ => none

/-- The operation grants the permission. -/
def Grants (b : PermissionSet) (op : PermissionOp) : Prop :=
  ∃ revoked, op.on b = some (.update true revoked)

/-- The operation drops the permission at once. -/
def Revokes (b : PermissionSet) (op : PermissionOp) : Prop := op.on b = some (.update false true)

/-- The operation drops the permission, but what is in progress may go on. -/
def Drains (b : PermissionSet) (op : PermissionOp) : Prop := op.on b = some (.update false false)

/-- Nothing drains any more after the operation. -/
def EndsDraining (b : PermissionSet) (op : PermissionOp) : Prop :=
  op.Grants b ∨ op = finishDraining b

/-- The permissions last granted: by the last update, or else by the mask of the start. -/
def lastGranted (mask : PermissionSet) (ops : List PermissionOp) : PermissionSet :=
  (ops.filterMap granted).getLast?.getD mask

variable {b mask : PermissionSet} {op : PermissionOp}

theorem eq_finishDraining_iff : op = finishDraining b ↔ op.on b = some .finish := by
  cases op <;> simp [on]

theorem lastGranted_append_singleton (ops : List PermissionOp) :
    lastGranted mask (ops ++ [op]) = op.granted.getD (lastGranted mask ops) := by
  rw [lastGranted, List.filterMap_append, List.getLast?_append]
  cases op <;> rfl

end PermissionOp

namespace BitState

variable {state : BitState} {event : Option BitOp}

/-- A permission is granted if the event grants it, or if it was and the event is no update. -/
theorem elim_step_eq_granted : event.elim state state.step = .granted ↔
    (∃ revoked, event = some (.update true revoked)) ∨
      state = .granted ∧ ∀ granted revoked, event ≠ some (.update granted revoked) := by
  rcases event with _ | ⟨_ | _, _ | _⟩ | _ <;> cases state <;> simp [step]

/-- A permission drains if it was granted and the event drops it, or if it drained and the event
    neither grants it nor ends what is in progress. -/
theorem elim_step_eq_draining : event.elim state state.step = .draining ↔
    state = .granted ∧ event = some (.update false false) ∨
      state = .draining ∧
        ¬((∃ revoked, event = some (.update true revoked)) ∨ event = some .finish) := by
  rcases event with _ | ⟨_ | _, _ | _⟩ | _ <;> cases state <;> simp [step]

/-- A permission stops being granted as the event says. -/
theorem of_elim_step_ne_granted (hstate : state = .granted)
    (h : event.elim state state.step ≠ .granted) :
    (event = some (.update false true) ∧ event.elim state state.step = .notGranted) ∨
      (event = some (.update false false) ∧ event.elim state state.step = .draining) := by
  subst hstate
  rcases event with _ | ⟨_ | _, _ | _⟩ | _ <;> simp_all [step]

/-- A permission stops draining as the event says. -/
theorem of_elim_step_ne_draining (hstate : state = .draining)
    (h : event.elim state state.step ≠ .draining) :
    (event = some .finish ∧ event.elim state state.step = .notGranted) ∨
      ((∃ revoked, event = some (.update true revoked)) ∧
        event.elim state state.step = .granted) := by
  subst hstate
  rcases event with _ | ⟨_ | _, _ | _⟩ | _ <;> simp_all [step]

end BitState

namespace PermissionSm

open PermissionOp

/-- One operation. -/
def apply (sm : PermissionSm) : PermissionOp → PermissionSm
  | .applyUpdate update => sm.applyUpdate update
  | .finishDraining bit => sm.finishDraining bit

/-- A sequence of operations. -/
def run (sm : PermissionSm) (ops : List PermissionOp) : PermissionSm := ops.foldl apply sm

variable {sm : PermissionSm} {mask b bit : PermissionSet} {op : PermissionOp}
  {ops : List PermissionOp}

theorem run_append_singleton : sm.run (ops ++ [op]) = (sm.run ops).apply op := by
  rw [run, List.foldl_append]
  rfl

theorem state_finishDraining : (sm.finishDraining bit).state b =
    if bit = b ∧ sm.state b = .draining then .notGranted else sm.state b := by
  rw [finishDraining]
  by_cases hbit : bit = b
  · subst hbit
    split_ifs <;> simp_all [insert, state]
  · have hne : b ≠ bit := fun h => hbit h.symm
    split_ifs <;> simp_all [insert, state]

theorem has_iff : has mask b = true ↔ mask &&& b ≠ 0 := decide_eq_true_iff

theorem nextState_eq_step (update : PermissionUpdate) (b : PermissionSet) (state : BitState) :
    nextState update b state = state.step
      (.update (has update.grantedPermissions b) (has update.immediateRevoke b)) := by
  simp only [nextState, ← has_iff]
  cases has update.grantedPermissions b <;> cases has update.immediateRevoke b <;>
    cases state <;> rfl

/-- An operation moves a permission as the machine on its own does. -/
theorem state_apply (hb : b ∈ ALL_BITS) (sm : PermissionSm) (op : PermissionOp) :
    (sm.apply op).state b = (op.on b).elim (sm.state b) (sm.state b).step := by
  cases op with
  | applyUpdate update =>
    rw [apply, state_applyUpdate, if_pos hb, nextState_eq_step]
    rfl
  | finishDraining bit =>
    rw [apply, state_finishDraining]
    by_cases hbit : bit = b
    · subst hbit
      simp only [on, if_true, true_and, Option.elim_some]
      cases sm.state bit <;> rfl
    · simp [on, hbit]

theorem state_new (hb : b ∈ ALL_BITS) : (new mask).state b = BitState.initial (has mask b) := by
  simp [new, state, hb, BitState.initial, has]

/-- What has become of a permission depends on what has happened to it alone. -/
theorem state_run (hb : b ∈ ALL_BITS) (ops : List PermissionOp) :
    ((new mask).run ops).state b =
      (ops.filterMap (on b)).foldl BitState.step (BitState.initial (has mask b)) := by
  rw [← state_new hb]
  exact Histories.part_foldl (·.state b) (state_apply hb) (new mask) ops

/-- A mask that is no permission is never granted. -/
theorem state_run_of_not_mem (hb : b ∉ ALL_BITS) (ops : List PermissionOp) :
    ((new mask).run ops).state b = .notGranted := by
  induction ops using List.reverseRecOn with
  | nil => simp [run, new, state, hb]
  | append_singleton ops op ih =>
    rw [run_append_singleton]
    cases op with
    | applyUpdate update => rw [apply, state_applyUpdate, if_neg hb, ih]
    | finishDraining bit =>
      rw [apply, state_finishDraining, ih]
      split_ifs <;> rfl

/-- A permission is granted exactly if it is in the mask granted last. -/
theorem state_run_eq_granted (hb : b ∈ ALL_BITS) :
    ((new mask).run ops).state b = .granted ↔ has (lastGranted mask ops) b := by
  induction ops using List.reverseRecOn with
  | nil =>
    rw [run, List.foldl_nil, state_new hb, lastGranted, List.filterMap_nil, BitState.initial]
    cases h : has mask b <;> simp [h]
  | append_singleton ops op ih =>
    rw [run_append_singleton, state_apply hb, BitState.elim_step_eq_granted,
      lastGranted_append_singleton, ih]
    cases op with
    | applyUpdate update => simp [on, granted]
    | finishDraining bit => by_cases hbit : bit = b <;> simp [on, granted, hbit]

/-- A permission drains exactly if it was dropped while granted, and what was in progress has not
    ended since. -/
theorem state_run_eq_draining (hb : b ∈ ALL_BITS) :
    ((new mask).run ops).state b = .draining ↔ Histories.Since
      (fun before op => has (lastGranted mask before) b ∧ op.Drains b) (EndsDraining b) ops := by
  induction ops using List.reverseRecOn with
  | nil =>
    refine iff_of_false ?_ Histories.not_since_nil
    rw [run, List.foldl_nil, state_new hb, BitState.initial]
    split_ifs <;> nofun
  | append_singleton ops op ih =>
    rw [run_append_singleton, state_apply hb, BitState.elim_step_eq_draining,
      Histories.since_append_singleton, ih, state_run_eq_granted hb, ← eq_finishDraining_iff]
    rfl

theorem checkGate_eq_revoked :
    sm.checkGate b = .error ReasonCode.POLICY_PERMISSION_REVOKED ↔ sm.state b = .draining := by
  rw [checkGate, isGranted]
  cases sm.state b <;> simp [ReasonCode.POLICY_PERMISSION_REVOKED,
    ReasonCode.POLICY_PERMISSION_DENIED]

theorem checkGate_eq_denied :
    sm.checkGate b = .error ReasonCode.POLICY_PERMISSION_DENIED ↔ sm.state b = .notGranted := by
  rw [checkGate, isGranted]
  cases sm.state b <;> simp [ReasonCode.POLICY_PERMISSION_REVOKED,
    ReasonCode.POLICY_PERMISSION_DENIED]

/-- The permissions after some operations, and what the next one does to them. -/
structure Bitwise (mask : PermissionSet) (ops : List PermissionOp) : Prop where
  /-- What has become of a permission depends on what has happened to it alone. -/
  independent : ∀ b ∈ ALL_BITS, ((new mask).run ops).state b =
    (ops.filterMap (on b)).foldl BitState.step (BitState.initial (has mask b))
  enters_granted : ∀ b ∈ ALL_BITS, ∀ op, ((new mask).run ops).state b ≠ .granted →
    ((new mask).run (ops ++ [op])).state b = .granted → op.Grants b
  leaves_granted : ∀ b ∈ ALL_BITS, ∀ op, ((new mask).run ops).state b = .granted →
    ((new mask).run (ops ++ [op])).state b ≠ .granted →
      (op.Revokes b ∧ ((new mask).run (ops ++ [op])).state b = .notGranted) ∨
        (op.Drains b ∧ ((new mask).run (ops ++ [op])).state b = .draining)
  leaves_draining : ∀ b ∈ ALL_BITS, ∀ op, ((new mask).run ops).state b = .draining →
    ((new mask).run (ops ++ [op])).state b ≠ .draining →
      (op = .finishDraining b ∧ ((new mask).run (ops ++ [op])).state b = .notGranted) ∨
        (op.Grants b ∧ ((new mask).run (ops ++ [op])).state b = .granted)
  /-- The gate is open to what was granted last. -/
  gate_ok : ∀ b ∈ ALL_BITS, ((new mask).run ops).checkGate b = .ok () ↔
    has (lastGranted mask ops) b
  /-- It is closed as revoked to what was granted when it was dropped, while operations may be in
      progress. -/
  gate_revoked : ∀ b ∈ ALL_BITS, ((new mask).run ops).checkGate b =
    .error ReasonCode.POLICY_PERMISSION_REVOKED ↔ Histories.Since
      (fun before op => has (lastGranted mask before) b ∧ op.Drains b) (EndsDraining b) ops
  /-- It is closed as denied to the rest. -/
  gate_denied : ∀ b ∈ ALL_BITS, ((new mask).run ops).checkGate b =
    .error ReasonCode.POLICY_PERMISSION_DENIED ↔ ¬has (lastGranted mask ops) b ∧ ¬Histories.Since
      (fun before op => has (lastGranted mask before) b ∧ op.Drains b) (EndsDraining b) ops
  untracked : ∀ b ∉ ALL_BITS, ((new mask).run ops).state b = .notGranted ∧
    ((new mask).run ops).checkGate b = .error ReasonCode.POLICY_PERMISSION_DENIED

/-- The permissions of a session are machines side by side, and the gate tells their states. -/
theorem bitwise (mask : PermissionSet) (ops : List PermissionOp) : Bitwise mask ops where
  independent _ hb := state_run hb ops
  enters_granted b hb op hbefore hafter := by
    rw [run_append_singleton, state_apply hb, BitState.elim_step_eq_granted] at hafter
    rcases hafter with hgrants | ⟨hgranted, -⟩
    · exact hgrants
    · exact absurd hgranted hbefore
  leaves_granted b hb op hbefore hafter := by
    rw [run_append_singleton, state_apply hb] at hafter ⊢
    exact BitState.of_elim_step_ne_granted hbefore hafter
  leaves_draining b hb op hbefore hafter := by
    rw [run_append_singleton, state_apply hb] at hafter ⊢
    rw [eq_finishDraining_iff]
    exact BitState.of_elim_step_ne_draining hbefore hafter
  gate_ok b hb := by
    rw [checkGate_eq_ok, isGranted, decide_eq_true_iff, state_run_eq_granted hb]
  gate_revoked b hb := by rw [checkGate_eq_revoked, state_run_eq_draining hb]
  gate_denied b hb := by
    rw [checkGate_eq_denied, ← state_run_eq_granted hb, ← state_run_eq_draining hb]
    cases ((new mask).run ops).state b <;> simp
  untracked b hb := by
    have hstate : ((new mask).run ops).state b = .notGranted := state_run_of_not_mem hb ops
    exact ⟨hstate, checkGate_eq_denied.2 hstate⟩

end PermissionSm

end Sardp
