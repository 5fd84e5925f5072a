import Sardp.Input.Injection

/-!
# The boundary of a mode

The client announces a mode for the events after one. Only the last announcement is kept until an
event crosses its boundary, so one that is replaced before that never takes effect. Otherwise every
event of text or of a key is handled under the mode announced last for it
(`InputInjection.handled_under_announced_mode`). An announcement that is replaced makes a difference
(`InputInjection.replaced_announcement`).
-/

namespace Sardp

open Histories

/-! ## Announcements -/

/-- The number of an event. -/
def InputMessage.eventId : InputMessage → Option ℕ
  | .key e => some e.header.eventId
  | .text e => some e.header.eventId
  | .imeComposition e => some e.header.eventId
  | .mouseMove e => some e.header.eventId
  | .mouseButton e => some e.header.eventId
  | .wheel e => some e.header.eventId
  | .imeModeChange _ => none

/-- The announcements of a history, each with what comes after it. -/
def announcements : List InputMessage → List (ImeModeChange × List InputMessage)
  | [] => []
  | .imeModeChange change :: after => (change, after) :: announcements after
  | _ :: after => announcements after

/-- The mode announced last, of the announcements that are admitted. -/
def announcedMode (admits : ImeModeChange → List InputMessage → Bool)
    (history : List InputMessage) : ImeMode :=
  (((announcements history).filter fun (change, after) => admits change after).getLast?.map
    (·.1.mode)).getD .clientSide

/-- A message is an event beyond the boundary. -/
def InputMessage.crosses (boundary : ℕ) (m : InputMessage) : Bool :=
  m.modeEventId.any (boundary < ·)

/-- The next announcement comes before any event beyond the boundary. -/
def replaced (boundary : ℕ) : List InputMessage → Bool
  | [] => false
  | .imeModeChange _ :: _ => true
  | m :: after => !m.crosses boundary && replaced boundary after

/-- An event beyond the boundary comes before the next announcement. -/
def crossed (boundary : ℕ) : List InputMessage → Bool
  | [] => false
  | .imeModeChange _ :: _ => false
  | m :: after => m.crosses boundary || crossed boundary after

/-- The mode once an event has come, if the pending boundary is crossed as it says. -/
def ImeModeSm.modeAfter (sm : ImeModeSm) (crossedBy : ℕ → Bool) : ImeMode :=
  match sm.pending with
  | some (mode, boundary) => if crossedBy boundary then mode else sm.current
  | none => sm.current

variable {history after : List InputMessage} {e m : InputMessage} {eventId boundary : ℕ}
  {admits : ImeModeChange → List InputMessage → Bool} {sm : ImeModeSm}

/-- What is no announcement is skipped by what goes by announcements. -/
theorem cons_of_ne (hm : ∀ change, m ≠ .imeModeChange change) (history : List InputMessage)
    (boundary : ℕ) : announcements (m :: history) = announcements history ∧
      replaced boundary (m :: history) = (!m.crosses boundary && replaced boundary history) ∧
      crossed boundary (m :: history) = (m.crosses boundary || crossed boundary history) := by
  cases m with
  | imeModeChange change => exact absurd rfl (hm change)
  | _ => exact ⟨rfl, rfl, rfl⟩

theorem ne_imeModeChange (he : e.modeEventId = some eventId) (change : ImeModeChange) :
    e ≠ .imeModeChange change := by
  rintro rfl
  cases he

theorem crosses_eq (he : e.modeEventId = some eventId) :
    e.crosses boundary = decide (boundary < eventId) := by
  rw [InputMessage.crosses, he, Option.any_some]

/-- If the events come in order, an announcement is followed by an event beyond its boundary
    before the next one exactly if it is for the event and has not been replaced. -/
theorem crossed_append_singleton (he : e.modeEventId = some eventId)
    (hafter : ∀ m ∈ after, ∀ i, m.modeEventId = some i → i < eventId) :
    crossed boundary (after ++ [e]) = (decide (boundary < eventId) && !replaced boundary after) := by
  induction after with
  | nil =>
    rw [List.nil_append, (cons_of_ne (ne_imeModeChange he) [] boundary).2.2, crosses_eq he]
    simp [crossed, replaced]
  | cons m after ih =>
    rw [List.cons_append]
    by_cases hm : ∃ change, m = .imeModeChange change
    · obtain ⟨change, rfl⟩ := hm
      simp [crossed, replaced]
    · obtain ⟨-, hreplaced, -⟩ := cons_of_ne (not_exists.1 hm) after boundary
      obtain ⟨-, -, hcrossed⟩ := cons_of_ne (not_exists.1 hm) (after ++ [e]) boundary
      rw [hcrossed, hreplaced, ih fun m' hm' => hafter m' (List.mem_cons_of_mem m hm')]
      cases hcrosses : m.crosses boundary with
      | false => simp
      | true =>
        -- an event beyond the boundary, and the event comes after it
        obtain ⟨i, hi, hlt⟩ := (Option.any_eq_true ..).1 hcrosses
        have hlt' := hafter m List.mem_cons_self i hi
        simp only [decide_eq_true_eq] at hlt
        simp
        omega

theorem ImeModeSm.modeFor_eq : (sm.modeFor eventId).1 = sm.modeAfter (· < eventId) := by
  cases hpending : sm.pending with
  | none => simp only [modeFor, modeAfter, hpending]
  | some announced =>
    simp only [modeFor, modeAfter, hpending, decide_eq_true_eq]
    split_ifs <;> rfl

/-- A message that is no announcement crosses the pending boundary, or leaves it to the next. -/
theorem ImeModeSm.modeAfter_onMessage (hm : ∀ change, m ≠ .imeModeChange change)
    (crossedBy : ℕ → Bool) : (sm.onMessage m).modeAfter crossedBy =
      sm.modeAfter fun boundary => m.crosses boundary || crossedBy boundary := by
  have honMessage : sm.onMessage m =
      (m.modeEventId.map fun i => (sm.modeFor i).2).getD sm := by
    cases m with
    | imeModeChange change => exact absurd rfl (hm change)
    | _ => rfl
  rw [honMessage]
  cases hid : m.modeEventId with
  | none => simp [InputMessage.crosses, hid]
  | some i =>
    simp only [crosses_eq hid, Option.map_some, Option.getD_some, modeFor, modeAfter]
    cases hpending : sm.pending with
    | none => simp [hpending]
    | some pending =>
      by_cases hlt : pending.2 < i
      · simp [hlt]
      · simp [hlt, hpending]

theorem getD_getLast?_map_cons {α β : Type*} (f : α → β) (x : α) (xs : List α) (b : β) :
    ((x :: xs).getLast?.map f).getD b = (xs.getLast?.map f).getD (f x) := by
  rw [List.getLast?_cons]
  cases xs.getLast? <;> rfl

/-- The mode an event is handled under after a history: the one announced last, of the
    announcements whose boundary is crossed before the next one, and otherwise what it is without
    the history. -/
theorem modeFor_foldl (he : e.modeEventId = some eventId) :
    ((history.foldl ImeModeSm.onMessage sm).modeFor eventId).1 =
      (((announcements history).filter fun (change, after) =>
        crossed change.effectiveAfterEventId (after ++ [e])).getLast?.map (·.1.mode)).getD
        (sm.modeAfter fun boundary => crossed boundary (history ++ [e])) := by
  induction history generalizing sm with
  | nil =>
    have hcrossed (boundary : ℕ) : crossed boundary [e] = decide (boundary < eventId) := by
      rw [(cons_of_ne (ne_imeModeChange he) [] boundary).2.2, crosses_eq he, crossed, Bool.or_false]
    simp only [List.foldl_nil, announcements, List.nil_append, List.filter_nil, hcrossed]
    exact ImeModeSm.modeFor_eq
  | cons m history ih =>
    rw [List.foldl_cons, ih, List.cons_append]
    by_cases hm : ∃ change, m = .imeModeChange change
    · obtain ⟨change, rfl⟩ := hm
      -- what has been pending is replaced
      have hbase : sm.modeAfter (fun boundary =>
          crossed boundary (.imeModeChange change :: (history ++ [e]))) = sm.current := by
        rw [ImeModeSm.modeAfter]
        split <;> rfl
      rw [hbase, announcements, List.filter_cons]
      by_cases hcrossed : crossed change.effectiveAfterEventId (history ++ [e])
      · simp only [hcrossed, if_true, getD_getLast?_map_cons]
        simp [ImeModeSm.onMessage, ImeModeSm.onModeChange, ImeModeSm.modeAfter, hcrossed]
      · simp [ImeModeSm.onMessage, ImeModeSm.onModeChange, ImeModeSm.modeAfter, hcrossed]
    · rw [ImeModeSm.modeAfter_onMessage (not_exists.1 hm),
        (cons_of_ne (not_exists.1 hm) history 0).1]
      congr 2
      funext boundary
      exact (cons_of_ne (not_exists.1 hm) (history ++ [e]) boundary).2.2.symm

/-- What comes after an announcement is part of the history. -/
theorem mem_of_mem_announcements {change : ImeModeChange}
    (h : (change, after) ∈ announcements history) (hm : m ∈ after) : m ∈ history := by
  induction history with
  | nil => cases h
  | cons m' history ih =>
    by_cases hm' : ∃ change, m' = .imeModeChange change
    · obtain ⟨change', rfl⟩ := hm'
      rcases List.mem_cons.1 h with heq | h
      · cases heq
        exact List.mem_cons_of_mem _ hm
      · exact List.mem_cons_of_mem _ (ih h)
    · rw [(cons_of_ne (not_exists.1 hm') history 0).1] at h
      exact List.mem_cons_of_mem _ (ih h)

theorem eventId_of_modeEventId (he : e.modeEventId = some eventId) : e.eventId = some eventId := by
  cases e <;> first | exact he | cases he

/-! ## Handling under a mode -/

namespace InputInjection

variable {s : InputInjection} {permissionSm : PermissionSm} {calls : List Call}

theorem ime_run (calls : List Call) :
    (run calls).ime = (handled calls).foldl ImeModeSm.onMessage .new := by
  induction calls using List.reverseRecOn with
  | nil => rfl
  | append_singleton calls call ih =>
    rw [run_append_singleton, handled_append_singleton, List.foldl_append, ← ih]
    cases call with
    | handle message permissionSm => exact ime_handle
    | releaseAll => rw [InputInjection.call, releaseAll_eq]; rfl

/-- What handling a message leads to: what it returns, what is down, and what the sink has been
    given. -/
def outcome (s : InputInjection) (message : InputMessage) (permissionSm : PermissionSm) :
    Except ReasonCode Unit × PressedInputs × List SinkEvent :=
  let (result, s) := s.handle message permissionSm
  (result, s.pressed, s.emitted)

/-- Where the mode is settled. -/
def settled (s : InputInjection) (mode : ImeMode) : InputInjection := { s with ime := ⟨mode, none⟩ }

/-- An event is handled as where the mode for it is settled. -/
theorem outcome_settled (he : e.modeEventId = some eventId) :
    s.outcome e permissionSm =
      (s.settled (s.ime.modeFor eventId).1).outcome e permissionSm := by
  have hsettled (mode : ImeMode) : (s.settled mode).ime.modeFor eventId = (mode, ⟨mode, none⟩) := rfl
  cases e with
  | key key =>
    cases he
    simp only [outcome, handle, hsettled]
    split_ifs <;> rfl
  | text text =>
    cases he
    simp only [outcome, handle, hsettled]
    split
    · rfl
    · split_ifs <;> rfl
  | imeComposition composition =>
    cases he
    simp only [outcome, handle, hsettled]
    split <;> rfl
  | _ => cases he

/-- The events before one come in order. -/
theorem lt_of_pairwise {history : List InputMessage}
    (horder : ((history ++ [e]).filterMap InputMessage.eventId).Pairwise (· < ·))
    (he : e.modeEventId = some eventId) (hm : m ∈ history) {i : ℕ}
    (hi : m.modeEventId = some i) : i < eventId := by
  rw [List.filterMap_append, List.pairwise_append] at horder
  refine horder.2.2 i (List.mem_filterMap.2 ⟨m, hm, eventId_of_modeEventId hi⟩) eventId ?_
  simp [eventId_of_modeEventId he]

/-- With events that come in order, an event of text or of a key is handled under the mode
    announced last, of the announcements that are for it and have not been replaced before an
    event crossed their boundary. -/
theorem handled_under_announced_mode (calls : List Call) (e : InputMessage) (eventId : ℕ)
    (permissionSm : PermissionSm) (he : e.modeEventId = some eventId)
    (horder : ((handled calls ++ [e]).filterMap InputMessage.eventId).Pairwise (· < ·)) :
    let mode := announcedMode (fun change after => decide (change.effectiveAfterEventId < eventId) &&
      !replaced change.effectiveAfterEventId after) (handled calls)
    ((run calls).ime.modeFor eventId).1 = mode ∧
      (run calls).outcome e permissionSm = ((run calls).settled mode).outcome e permissionSm := by
  intro mode
  have hmode : ((run calls).ime.modeFor eventId).1 = mode := by
    rw [ime_run, modeFor_foldl he]
    unfold mode announcedMode
    congr 3
    refine List.filter_congr fun ⟨change, after⟩ hmem => ?_
    exact crossed_append_singleton he fun m hm i hi =>
      lt_of_pairwise horder he (mem_of_mem_announcements hmem hm) hi
  exact ⟨hmode, hmode ▸ outcome_settled he⟩

/-- An announcement that is not replaced takes effect after its boundary. -/
theorem handled_under_announced_mode_remote :
    let calls : List Call := [.handle (.imeModeChange ⟨.remoteSide, 10⟩) (.new Bit.INPUT_KEYBOARD)]
    let e : InputMessage := .key ⟨⟨11⟩, true, 0x04, 0x41, 0⟩
    ((run calls).ime.modeFor 11).1 = .remoteSide ∧
      (run calls).outcome e (.new Bit.INPUT_KEYBOARD) =
        ((run calls).settled .remoteSide).outcome e (.new Bit.INPUT_KEYBOARD) :=
  handled_under_announced_mode [.handle (.imeModeChange ⟨.remoteSide, 10⟩) (.new Bit.INPUT_KEYBOARD)]
    (.key ⟨⟨11⟩, true, 0x04, 0x41, 0⟩) 11 (.new Bit.INPUT_KEYBOARD) rfl (by decide)

/-- An announcement that is replaced does not, though events come in order: a key that the last
    announcement for it says to inject is left to arrive as text. -/
theorem replaced_announcement :
    let calls : List Call := [.handle (.imeModeChange ⟨.remoteSide, 10⟩) (.new Bit.INPUT_KEYBOARD),
      .handle (.imeModeChange ⟨.clientSide, 20⟩) (.new Bit.INPUT_KEYBOARD)]
    let e : InputMessage := .key ⟨⟨15⟩, true, 0x04, 0x41, 0⟩
    let mode := announcedMode (fun change _ => decide (change.effectiveAfterEventId < 15))
      (handled calls)
    ((run calls).ime.modeFor 15).1 ≠ mode ∧
      (run calls).outcome e (.new Bit.INPUT_KEYBOARD) ≠
        ((run calls).settled mode).outcome e (.new Bit.INPUT_KEYBOARD) := by
  decide

end InputInjection

end Sardp
