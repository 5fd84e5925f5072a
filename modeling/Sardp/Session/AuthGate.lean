import Mathlib.Algebra.Group.Nat.Defs
import Mathlib.Data.List.Induction
import Sardp.Session.ConnectionSm

/-!
# The authentication gate

The operations on a connection in any order and number (`ConnectionSm.Op`). Each one returns
its result and leaves the connection in some state (`Op.call`), the one that `advance` gives
where it is not refused (`move_eq_advance`).

* What is known after any operations is said once (`AuthInv`) and kept by one more
  (`AuthInv.call`), so that it holds after all of them (`authInv_after`).
* No sequence of operations gets past the gate but by an authentication that succeeds before
  the limit of failures is reached (`gate_closed`).
-/

namespace Sardp

namespace ConnectionSm

/-- The operations on a connection. -/
inductive Op
  | completeHandshake
  | recordAuthFailure
  | completeAuthentication
  | onChannelLive
  | suspend
  | resume
  | checkMessage (typeId : UInt16)
  deriving DecidableEq

/-- The step from one state to another, as a call: what it returns, and the connection after it. -/
def move (source target : ConnectionState) (sm : ConnectionSm) :
    Except ProtocolViolation Unit × ConnectionSm :=
  if sm.state = source then (.ok (), { sm with state := target }) else (.error unexpected, sm)

/-- What an operation returns, and the connection after it. -/
def Op.call (sm : ConnectionSm) : Op → Except ProtocolViolation Unit × ConnectionSm
  | .completeHandshake => sm.move .handshaking .authenticating
  | .recordAuthFailure => (.error sm.recordAuthFailure.2, sm.recordAuthFailure.1)
  | .completeAuthentication => sm.move .authenticating .authenticated
  | .onChannelLive => sm.move .authenticated .active
  | .suspend => sm.move .active .suspended
  | .resume => sm.move .suspended .active
  | .checkMessage typeId => (sm.checkMessage typeId, sm)

/-- The connection after the operations, from a new one. -/
def after (ops : List Op) : ConnectionSm := ops.foldl (fun sm op => (op.call sm).2) new

/-- The operation has succeeded at some point. -/
def Succeeded (ops : List Op) (op : Op) : Prop :=
  ∃ ops₁ ops₂, ops = ops₁ ++ op :: ops₂ ∧ (op.call (after ops₁)).1 = .ok ()

/-- The number of failures that the operations record, from a connection. -/
def failures : ConnectionSm → List Op → ℕ
  | _, [] => 0
  | sm, op :: ops =>
    (if op = .recordAuthFailure ∧ sm.state = .authenticating then 1 else 0) +
      failures (op.call sm).2 ops

/-- The states that an authentication leads to. -/
def PastGate (state : ConnectionState) : Prop :=
  state = .authenticated ∨ state = .active ∨ state = .suspended

variable {sm sm' : ConnectionSm} {source target : ConnectionState} {ops : List Op} {op op' : Op}

/-! ## Calls -/

/-- A call of a step is the step, with the connection kept where it is refused. -/
theorem move_eq_advance :
    advance source target sm =
      (move source target sm).1.map fun _ => (move source target sm).2 := by
  rw [advance, move]
  split_ifs <;> rfl

/-- A step succeeds exactly in its source state. -/
theorem move_fst_eq_ok : (move source target sm).1 = .ok () ↔ sm.state = source := by
  rw [move]
  split_ifs with h
  · simp [h]
  · simp [h]

/-- In its source state a step leads to the target. -/
theorem move_snd_of_eq (h : sm.state = source) :
    (move source target sm).2 = { sm with state := target } := by
  rw [move, if_pos h]

/-- In any other state it changes nothing. -/
theorem move_snd_of_ne (h : sm.state ≠ source) : (move source target sm).2 = sm := by
  rw [move, if_neg h]

/-- A failure is only recorded while authenticating. -/
theorem recordAuthFailure_of_ne (h : sm.state ≠ .authenticating) :
    sm.recordAuthFailure = (sm, unexpected) := by
  rw [recordAuthFailure, if_neg h]

/-- A failure is counted, and the last one allowed closes the connection. -/
theorem recordAuthFailure_of_eq (h : sm.state = .authenticating) :
    sm.recordAuthFailure =
      if sm.authAttempts + 1 < AUTH_ATTEMPT_LIMIT then
        (⟨.authenticating, sm.authAttempts + 1⟩, ⟨ReasonCode.AUTH_SIGNATURE_INVALID⟩)
      else
        (⟨.closing ReasonCode.AUTH_TOO_MANY_ATTEMPTS, sm.authAttempts + 1⟩,
          ⟨ReasonCode.AUTH_TOO_MANY_ATTEMPTS⟩) := by
  rw [recordAuthFailure, if_pos h]
  by_cases hlimit : sm.authAttempts + 1 < AUTH_ATTEMPT_LIMIT
  · simp [hlimit, h]
  · simp [hlimit, Nat.le_of_not_lt hlimit]

/-- An operation that is refused changes nothing, a recorded failure apart. -/
theorem call_snd_of_error {v : ProtocolViolation} (h : (op.call sm).1 = .error v)
    (hne : ¬(op = .recordAuthFailure ∧ sm.state = .authenticating)) : (op.call sm).2 = sm := by
  have hmove : ∀ {source target}, (move source target sm).1 = .error v →
      (move source target sm).2 = sm := by
    intro source target herr
    refine move_snd_of_ne fun hsource => ?_
    rw [move_fst_eq_ok.2 hsource] at herr
    cases herr
  cases op with
  | recordAuthFailure =>
    rw [Op.call, recordAuthFailure_of_ne fun hstate => hne ⟨rfl, hstate⟩]
  | checkMessage typeId => rfl
  | completeHandshake => exact hmove h
  | completeAuthentication => exact hmove h
  | onChannelLive => exact hmove h
  | suspend => exact hmove h
  | resume => exact hmove h

/-- A connection that closes refuses every operation and stays as it is. -/
theorem call_of_closing {reason : ReasonCode} (h : sm.state = .closing reason) (op : Op) :
    op.call sm = (.error unexpected, sm) := by
  cases op with
  | recordAuthFailure => rw [Op.call, recordAuthFailure_of_ne (by simp [h])]
  | checkMessage typeId => simp [Op.call, ConnectionSm.checkMessage, h]
  | _ => simp [Op.call, move, h]

/-! ## Histories -/

@[simp] theorem after_nil : after [] = new := rfl

@[simp] theorem after_append_singleton : after (ops ++ [op]) = (op.call (after ops)).2 := by
  rw [after, List.foldl_append]
  rfl

/-- What has succeeded goes on to have. -/
theorem Succeeded.append (h : Succeeded ops op) (ops' : List Op) : Succeeded (ops ++ ops') op := by
  obtain ⟨ops₁, ops₂, rfl, hok⟩ := h
  exact ⟨ops₁, ops₂ ++ ops', by simp, hok⟩

/-- An operation that succeeds has. -/
theorem succeeded_of_call (h : (op.call (after ops)).1 = .ok ()) : Succeeded (ops ++ [op]) op :=
  ⟨ops, [], rfl, h⟩

/-- One more operation records a failure if it is one, and made while authenticating. -/
theorem failures_append_singleton :
    failures sm (ops ++ [op]) = failures sm ops +
      if op = .recordAuthFailure ∧ (ops.foldl (fun sm op => (op.call sm).2) sm).state =
        .authenticating then 1 else 0 := by
  induction ops generalizing sm with
  | nil => exact Nat.add_comm ..
  | cons op' ops ih =>
    rw [List.cons_append, failures, ih, failures, List.foldl_cons]
    omega

/-- An operation that is no failure, or made while not authenticating, records none. -/
theorem failures_of_not (h : ¬(op = .recordAuthFailure ∧ (after ops).state = .authenticating)) :
    failures new (ops ++ [op]) = failures new ops := by
  rw [failures_append_singleton]
  exact congrArg _ (if_neg h)

/-- A failure made while authenticating is recorded. -/
theorem failures_recordAuthFailure (h : (after ops).state = .authenticating) :
    failures new (ops ++ [.recordAuthFailure]) = failures new ops + 1 := by
  rw [failures_append_singleton]
  exact congrArg _ (if_pos ⟨rfl, h⟩)

/-- What is known of the connection after the operations. -/
structure AuthInv (ops : List Op) : Prop where
  authAttempts : (after ops).authAttempts = failures new ops
  /-- Only a connection that closes has used up its attempts. -/
  closing : ∀ reason, (after ops).state = .closing reason →
    reason = ReasonCode.AUTH_TOO_MANY_ATTEMPTS ∧ failures new ops = AUTH_ATTEMPT_LIMIT
  notClosing : (∀ reason, (after ops).state ≠ .closing reason) →
    failures new ops < AUTH_ATTEMPT_LIMIT
  authenticating : (after ops).state = .authenticating → Succeeded ops .completeHandshake
  pastGate : PastGate (after ops).state → Succeeded ops .completeAuthentication

theorem authInv_nil : AuthInv [] where
  authAttempts := rfl
  closing := by simp [new]
  notClosing _ := by decide
  authenticating h := by cases h
  pastGate h := by rcases h with h | h | h <;> cases h

/-- An operation that changes nothing, and records no failure, keeps the invariant. -/
theorem AuthInv.of_unchanged (h : AuthInv ops)
    (hfail : ¬(op = .recordAuthFailure ∧ (after ops).state = .authenticating))
    (hsame : (op.call (after ops)).2 = after ops) : AuthInv (ops ++ [op]) := by
  have hafter : after (ops ++ [op]) = after ops := by rw [after_append_singleton, hsame]
  have hfailures : failures new (ops ++ [op]) = failures new ops := failures_of_not hfail
  constructor
  case authAttempts => rw [hafter, hfailures, h.authAttempts]
  case closing => exact hafter ▸ hfailures ▸ h.closing
  case notClosing => exact hafter ▸ hfailures ▸ h.notClosing
  case authenticating => exact fun hstate => (h.authenticating (hafter ▸ hstate)).append [op]
  case pastGate => exact fun hstate => (h.pastGate (hafter ▸ hstate)).append [op]

/-- A step keeps the invariant, as long as only the handshake leads to authenticating, and
    only an authentication past the gate. -/
theorem AuthInv.move (h : AuthInv ops)
    (hcall : op.call (after ops) = (after ops).move source target)
    (hop : op ≠ .recordAuthFailure) (hsource : ∀ reason, source ≠ .closing reason)
    (htarget : ∀ reason, target ≠ .closing reason)
    (hauth : target = .authenticating → op = .completeHandshake)
    (hpast : PastGate target → PastGate source ∨ op = .completeAuthentication) :
    AuthInv (ops ++ [op]) := by
  by_cases hstate : (after ops).state = source
  · have hsucc : Succeeded (ops ++ [op]) op := by
      refine succeeded_of_call ?_
      rw [hcall]
      exact move_fst_eq_ok.2 hstate
    have hafter : after (ops ++ [op]) = { after ops with state := target } := by
      rw [after_append_singleton, hcall, move_snd_of_eq hstate]
    have hfailures : failures new (ops ++ [op]) = failures new ops :=
      failures_of_not fun h => hop h.1
    constructor
    case authAttempts => rw [hafter, hfailures, ← h.authAttempts]
    case closing =>
      intro reason hreason
      rw [hafter] at hreason
      exact absurd hreason (htarget reason)
    case notClosing =>
      intro _
      rw [hfailures]
      exact h.notClosing fun reason hreason => hsource reason (hstate ▸ hreason)
    case authenticating =>
      intro htarget
      rw [hafter] at htarget
      exact hauth htarget ▸ hsucc
    case pastGate =>
      intro htarget
      rw [hafter] at htarget
      rcases hpast htarget with hpast | hop
      · exact (h.pastGate (hstate ▸ hpast)).append [op]
      · exact hop ▸ hsucc
  · exact h.of_unchanged (fun h => hop h.1) (by rw [hcall, move_snd_of_ne hstate])

/-- A failure keeps the invariant: the one that reaches the limit closes the connection. -/
theorem AuthInv.recordAuthFailure (h : AuthInv ops) : AuthInv (ops ++ [.recordAuthFailure]) := by
  by_cases hstate : (after ops).state = .authenticating
  · have hlt : failures new ops < AUTH_ATTEMPT_LIMIT := h.notClosing (by simp [hstate])
    have hafter : after (ops ++ [.recordAuthFailure]) = (after ops).recordAuthFailure.1 :=
      after_append_singleton
    have hfailures := failures_recordAuthFailure hstate
    rw [recordAuthFailure_of_eq hstate, h.authAttempts] at hafter
    by_cases hlimit : failures new ops + 1 < AUTH_ATTEMPT_LIMIT
    · -- one more attempt is left
      rw [if_pos hlimit] at hafter
      constructor
      case authAttempts => rw [hafter, hfailures]
      case closing => simp [hafter]
      case notClosing => exact fun _ => hfailures ▸ hlimit
      case authenticating => exact fun _ => (h.authenticating hstate).append _
      case pastGate => simp [hafter, PastGate]
    · rw [if_neg hlimit] at hafter
      constructor
      case authAttempts => rw [hafter, hfailures]
      case closing =>
        intro reason hreason
        rw [hafter] at hreason
        cases hreason
        exact ⟨rfl, by omega⟩
      case notClosing => simp [hafter]
      case authenticating => simp [hafter]
      case pastGate => simp [hafter, PastGate]
  · exact h.of_unchanged (fun h => hstate h.2) (by rw [Op.call, recordAuthFailure_of_ne hstate])

/-- Every operation keeps the invariant. -/
theorem AuthInv.call (h : AuthInv ops) (op : Op) : AuthInv (ops ++ [op]) := by
  cases op with
  | recordAuthFailure => exact h.recordAuthFailure
  | checkMessage typeId => exact h.of_unchanged (by simp) rfl
  | completeHandshake =>
    exact h.move rfl (by simp) (by simp) (by simp) (by simp) (by simp [PastGate])
  | completeAuthentication =>
    exact h.move rfl (by simp) (by simp) (by simp) (by simp) (by simp [PastGate])
  | onChannelLive => exact h.move rfl (by simp) (by simp) (by simp) (by simp) (by simp [PastGate])
  | suspend => exact h.move rfl (by simp) (by simp) (by simp) (by simp) (by simp [PastGate])
  | resume => exact h.move rfl (by simp) (by simp) (by simp) (by simp) (by simp [PastGate])

/-- The invariant holds after any operations. -/
theorem authInv_after (ops : List Op) : AuthInv ops := by
  induction ops using List.reverseRecOn with
  | nil => exact authInv_nil
  | append_singleton ops op ih => exact ih.call op

/-! ## The gate -/

/-- What the gate promises, whatever operations have been made. -/
structure Gate (ops : List Op) : Prop where
  /-- No state past the gate but by an authentication that has succeeded. -/
  pastGate : PastGate (after ops).state → Succeeded ops .completeAuthentication
  /-- An authentication only succeeds after the handshake, and before the limit of failures. -/
  authentication : (Op.completeAuthentication.call (after ops)).1 = .ok () →
    (after ops).state = .authenticating ∧ Succeeded ops .completeHandshake ∧
      failures new ops < AUTH_ATTEMPT_LIMIT
  /-- A connection that closes stays so, and admits no message. -/
  closing : ∀ reason, (after ops).state = .closing reason →
    (∀ ops', after (ops ++ ops') = after ops) ∧
      ∀ typeId, (after ops).checkMessage typeId = .error unexpected
  /-- A failure closes the connection exactly if it is the last one of the limit. -/
  lastFailure : (after ops).state = .authenticating → ∀ reason,
    (Op.recordAuthFailure.call (after ops)).2.state = .closing reason ↔
      failures new ops + 1 = AUTH_ATTEMPT_LIMIT ∧ reason = ReasonCode.AUTH_TOO_MANY_ATTEMPTS
  /-- Nothing but the failures closes it. -/
  onlyFailures : ∀ reason, (after ops).state = .closing reason ↔
    failures new ops = AUTH_ATTEMPT_LIMIT ∧ reason = ReasonCode.AUTH_TOO_MANY_ATTEMPTS
  /-- The counter counts the failures, and counting one more does not overflow it. -/
  noOverflow : (after ops).authAttempts = failures new ops ∧ (after ops).authAttempts + 1 < 2 ^ 8
  /-- An operation that is refused changes nothing, a recorded failure apart. -/
  refused : ∀ op v, (Op.call (after ops) op).1 = .error v →
    ¬(op = .recordAuthFailure ∧ (after ops).state = .authenticating) →
      (Op.call (after ops) op).2 = after ops

/-- The limit of failures is reached exactly in a connection that closes. -/
theorem closing_iff (reason : ReasonCode) : (after ops).state = .closing reason ↔
    failures new ops = AUTH_ATTEMPT_LIMIT ∧ reason = ReasonCode.AUTH_TOO_MANY_ATTEMPTS := by
  have h := authInv_after ops
  constructor
  · intro hreason
    exact (h.closing reason hreason).symm
  · rintro ⟨hfailures, rfl⟩
    by_contra hne
    refine absurd (h.notClosing fun reason hreason => hne ?_) (by omega)
    rw [hreason, (h.closing reason hreason).1]

/-- No operations ever record more failures than the limit. -/
theorem failures_le : failures new ops ≤ AUTH_ATTEMPT_LIMIT := by
  have h := authInv_after ops
  cases hstate : (after ops).state with
  | closing reason => exact Nat.le_of_eq (h.closing reason hstate).2
  | _ => exact Nat.le_of_lt (h.notClosing (by simp [hstate]))

/-- A connection that closes is the same after any more operations. -/
theorem after_append_of_closing {reason : ReasonCode} (h : (after ops).state = .closing reason)
    (ops' : List Op) : after (ops ++ ops') = after ops := by
  induction ops' using List.reverseRecOn with
  | nil => rw [List.append_nil]
  | append_singleton ops' op ih =>
    rw [← List.append_assoc, after_append_singleton, ih, call_of_closing h]

/-- There is no way around the gate, in any order of operations. -/
theorem gate_closed (ops : List Op) : Gate ops := by
  have h := authInv_after ops
  constructor
  case pastGate => exact h.pastGate
  case authentication =>
    intro hok
    have hstate := move_fst_eq_ok.1 hok
    exact ⟨hstate, h.authenticating hstate, h.notClosing (by simp [hstate])⟩
  case closing =>
    intro reason hreason
    refine ⟨after_append_of_closing hreason, fun typeId => ?_⟩
    exact congrArg Prod.fst (call_of_closing hreason (.checkMessage typeId))
  case lastFailure =>
    intro hstate reason
    rw [← after_append_singleton, closing_iff, failures_recordAuthFailure hstate]
  case onlyFailures => exact closing_iff
  case noOverflow =>
    have hle : failures new ops ≤ AUTH_ATTEMPT_LIMIT := failures_le
    rw [AUTH_ATTEMPT_LIMIT] at hle
    exact ⟨h.authAttempts, by rw [h.authAttempts]; omega⟩
  case refused => exact fun op v => call_snd_of_error

end ConnectionSm

end Sardp
