import Sardp.Server.Rounds
import Sardp.Session.Handshake

/-!
# Toggling permissions in the loop

The administrator's toggles reach an active session one after the other. The update for
each is built from the permissions the session *started* with, so a toggle keeps what the
earlier ones changed only by chance: `Session.toggles_compose_iff` says exactly for which
sequences every toggle changes its own permission and no other.

`Session.Toggled` is the invariant: the permissions in effect are those of the start with
the last toggle applied, and the machine grants exactly them.
-/

namespace Sardp

namespace Session

variable {s s' : Session}

/-- The permissions granted after the last toggle, if there was one. -/
def afterToggle (grantedPermissions : PermissionSet) :
    Option (PermissionSet × Bool) → PermissionSet
  | none => grantedPermissions
  | some (bit, grant) => (buildPermissionToggle grantedPermissions bit grant).grantedPermissions

/-- The session started with the permissions, and `last` was its last toggle. -/
structure Toggled (grantedPermissions : PermissionSet) (last : Option (PermissionSet × Bool))
    (s : Session) : Prop where
  start : s.grantedPermissions = grantedPermissions
  effective : s.effective = afterToggle grantedPermissions last
  granted : ∀ b ∈ ALL_BITS, s.permissionSm.isGranted b ↔ s.effective &&& b ≠ 0

theorem Toggled.of_permissions {g : PermissionSet} {last : Option (PermissionSet × Bool)}
    (h : s'.permissions = s.permissions) (hs : Toggled g last s) : Toggled g last s' := by
  obtain ⟨hstart, hsm, hupdates⟩ : s'.grantedPermissions = s.grantedPermissions ∧
      s'.permissionSm = s.permissionSm ∧ s'.updates = s.updates := by
    simpa [permissions] using h
  have heffective : s'.effective = s.effective := by
    rw [Session.effective, hupdates, hstart, Session.effective]
  exact ⟨hstart.trans hs.start, heffective.trans hs.effective, by
    rw [hsm, heffective]
    exact hs.granted⟩

theorem toggled_start (g : PermissionSet) (synthetic : Bool) (videoChannel : VideoChannel)
    (opened : List ℕ) : Toggled g none (start g synthetic videoChannel opened) where
  start := rfl
  effective := rfl
  granted _ := PermissionSm.isGranted_new

/-- A toggle becomes the last one, whatever the earlier ones were. -/
theorem Toggled.step {g : PermissionSet} {last : Option (PermissionSet × Bool)} {e : LoopEvent}
    (h : Toggled g last s) (hstep : machine.step s e = some s') :
    Toggled g (e.toggle.or last) s' := by
  obtain ⟨-, rfl⟩ := machine_step.1 hstep
  cases he : e.toggle with
  | none => exact .of_permissions (permissions_handle he) h
  | some toggle =>
    obtain ⟨bit, grant⟩ := toggle
    obtain ⟨written, rfl⟩ := LoopEvent.toggle_eq_some.1 he
    have hp := permissions_handle_toggle (s := s) bit grant written
    simp only [permissions, Prod.mk.injEq, h.start] at hp
    obtain ⟨hstart, hsm, hupdates⟩ := hp
    have heffective : (s.handle (.command (.togglePermission bit grant) written)).1.effective =
        (buildPermissionToggle g bit grant).grantedPermissions := by
      simp [Session.effective, hupdates]
    exact ⟨hstart, heffective, fun b hb => by
      rw [hsm, heffective, PermissionSm.isGranted_applyUpdate hb]⟩

/-- The last toggle of a run decides the permissions after it. -/
theorem Toggled.run {g : PermissionSet} {last : Option (PermissionSet × Bool)}
    {es : List LoopEvent} (h : Toggled g last s) (hrun : machine.run s es = some s') :
    Toggled g ((es.filterMap LoopEvent.toggle).getLast?.or last) s' := by
  induction es generalizing s last with
  | nil => exact Option.some.inj hrun ▸ h
  | cons e es ih =>
    obtain ⟨s₁, hs₁, hrun⟩ := Machine.run_cons_eq_some.1 hrun
    have := ih (h.step hs₁) hrun
    cases he : e.toggle with
    | none => simpa [he] using this
    | some toggle => simpa [he, List.getLast?_cons] using this

/-- The step, if it is a toggle, sets or clears its own permissions, and no others: those
    the machine grants, and those the client is told. -/
def TogglesExactly (s : Session) (e : LoopEvent) (s' : Session) : Prop :=
  ∀ bit grant, e.toggle = some (bit, grant) →
    SetsExactly bit grant s.effective s'.effective ∧
      ∀ b ∈ ALL_BITS, s'.permissionSm.isGranted b ↔
        if bit &&& b ≠ 0 then grant = true else s.permissionSm.isGranted b

/-- What the first toggle changed of the permissions of the start, the second one toggles
    as well. -/
def Overrides (grantedPermissions : PermissionSet) (first second : PermissionSet × Bool) : Prop :=
  ∀ i < 32, first.1.getLsbD i = true → second.1.getLsbD i = false →
    grantedPermissions.getLsbD i = first.2

instance (g : PermissionSet) (first second : PermissionSet × Bool) :
    Decidable (Overrides g first second) := by
  unfold Overrides
  infer_instance

/-- A toggle keeps what the last one did exactly if it overrides it. -/
theorem setsExactly_afterToggle_iff {g bit : PermissionSet} {grant : Bool}
    {last : Option (PermissionSet × Bool)} :
    SetsExactly bit grant (afterToggle g last) (afterToggle g (some (bit, grant))) ↔
      ∀ first ∈ last, Overrides g first (bit, grant) := by
  rw [afterToggle.eq_2, setsExactly_toggle_iff]
  cases last with
  | none => simp [afterToggle]
  | some first =>
    obtain ⟨bit₁, grant₁⟩ := first
    simp only [Option.mem_some_iff, forall_eq']
    refine forall₂_congr fun i hi => ?_
    rw [afterToggle, buildPermissionToggle_setsExactly g bit₁ grant₁ i hi]
    cases bit₁.getLsbD i <;> simp

/-- A toggle is exact exactly if it overrides the last one: where the masks are, so is the
    machine. -/
theorem Toggled.togglesExactly_iff {g : PermissionSet} {last : Option (PermissionSet × Bool)}
    {e : LoopEvent} (h : Toggled g last s) (hstep : machine.step s e = some s') :
    TogglesExactly s e s' ↔ ∀ second ∈ e.toggle, ∀ first ∈ last, Overrides g first second := by
  have h' := h.step hstep
  constructor
  · rintro hexact ⟨bit, grant⟩ he
    have := (hexact bit grant he).1
    rw [h.effective, h'.effective, Option.mem_def.1 he, Option.some_or,
      setsExactly_afterToggle_iff] at this
    exact this
  · intro hover bit grant he
    have hmask : SetsExactly bit grant s.effective s'.effective := by
      rw [h.effective, h'.effective, he, Option.some_or, setsExactly_afterToggle_iff]
      exact hover _ he
    exact ⟨hmask, fun b hb => by rw [h'.granted b hb, hmask.mem hb, h.granted b hb]⟩

theorem Toggled.always_iff {g : PermissionSet} {last : Option (PermissionSet × Bool)}
    {es : List LoopEvent} (h : Toggled g last s) (hrun : machine.run s es = some s') :
    machine.Always TogglesExactly s es ↔
      (last.toList ++ es.filterMap LoopEvent.toggle).IsChain (Overrides g) := by
  induction es generalizing s last with
  | nil => cases last <;> simp
  | cons e es ih =>
    obtain ⟨s₁, hs₁, hrun⟩ := Machine.run_cons_eq_some.1 hrun
    rw [Machine.always_cons hs₁, h.togglesExactly_iff hs₁, ih (h.step hs₁) hrun]
    cases he : e.toggle with
    | none => simp [he]
    | some toggle => cases last <;> simp [he]

/-- The toggles of a session compose exactly if each one overrides the one before it. -/
theorem toggles_compose_iff (grantedPermissions : PermissionSet) (synthetic : Bool)
    (videoChannel : VideoChannel) (opened : List ℕ) {es : List LoopEvent} {s : Session}
    (hrun : machine.run (start grantedPermissions synthetic videoChannel opened) es = some s) :
    machine.Always TogglesExactly (start grantedPermissions synthetic videoChannel opened) es ↔
      (es.filterMap LoopEvent.toggle).IsChain (Overrides grantedPermissions) :=
  (toggled_start grantedPermissions synthetic videoChannel opened).always_iff hrun

/-- Revoking the mouse grants the screen again that was revoked before. -/
theorem toggles_grant_revoked_view :
    let s := start FRESH_GRANT true (.streaming 0) [0]
    let es := [.frameTick, .command (.togglePermission Bit.VIEW false) (.ok ()),
      .command (.togglePermission Bit.INPUT_MOUSE false) (.ok ())]
    (∃ s', machine.run s es = some s' ∧ s'.permissionSm.isGranted Bit.VIEW ∧
      s'.effective &&& Bit.VIEW ≠ 0) ∧ ¬ machine.Always TogglesExactly s es := by
  intro s es
  obtain ⟨s', hrun⟩ : ∃ s', machine.run s es = some s' := ⟨_, rfl⟩
  have h := toggled_start FRESH_GRANT true (.streaming 0) [0]
  refine ⟨⟨s', hrun, ?_⟩, ?_⟩
  · have hview : s'.effective &&& Bit.VIEW ≠ 0 := by
      rw [(h.run hrun).effective]
      decide
    exact ⟨((h.run hrun).granted Bit.VIEW (by decide)).2 hview, hview⟩
  · rw [h.always_iff hrun]
    decide

/-- Revoking the screen and granting it again, the administrator's toggles compose. -/
theorem toggles_compose_same_permission :
    machine.Always TogglesExactly (start FRESH_GRANT true (.streaming 0) [0])
      [.frameTick, .command (.togglePermission Bit.VIEW false) (.ok ()),
        .command (.togglePermission Bit.VIEW true) (.ok ())] :=
  (toggles_compose_iff FRESH_GRANT true (.streaming 0) [0] rfl).2 (by decide)

end Session

end Sardp
