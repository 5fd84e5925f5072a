import Mathlib.Logic.Function.Basic
import Mathlib.Data.List.Nodup
import Mathlib.Data.List.DropRight
import Mathlib.Tactic.Cases
import Sardp.Messages

/-!
# Permissions

Every permission is a bit of a mask, and has a state of its own (`permission_sm.rs`):
granted or not, or *draining*, revoked while operations in progress may end. An update
names the permissions granted from now on, and those to revoke at once.

* `PermissionSm.isGranted_applyUpdate`: after an update, exactly the permissions of its
  mask are granted, whatever the machine went through before.
* `SetsExactly` says what a toggle of one permission is for: that bit, and no other,
  changes. An update built from a mask keeps the bits *of that mask*
  (`buildPermissionToggle_setsExactly`), so it is only a toggle of the permissions in
  effect where the two agree (`setsExactly_toggle_iff`).
-/

namespace Sardp

namespace Bit

def VIEW : PermissionSet := 1 <<< 0
def INPUT_KEYBOARD : PermissionSet := 1 <<< 1
def INPUT_MOUSE : PermissionSet := 1 <<< 2
def CLIP_READ : PermissionSet := 1 <<< 3
def CLIP_WRITE : PermissionSet := 1 <<< 4
def FILE_UP : PermissionSet := 1 <<< 5
def FILE_DOWN : PermissionSet := 1 <<< 6
def AUDIO_PLAYBACK : PermissionSet := 1 <<< 7
def AUDIO_CAPTURE : PermissionSet := 1 <<< 8
def ADMIN : PermissionSet := 1 <<< 9

end Bit

/-- The permissions there are. -/
def ALL_BITS : List PermissionSet :=
  [Bit.VIEW, Bit.INPUT_KEYBOARD, Bit.INPUT_MOUSE, Bit.CLIP_READ, Bit.CLIP_WRITE, Bit.FILE_UP,
    Bit.FILE_DOWN, Bit.AUDIO_PLAYBACK, Bit.AUDIO_CAPTURE, Bit.ADMIN]

theorem nodup_ALL_BITS : ALL_BITS.Nodup := by
  decide

/-- Every permission is one bit. -/
theorem exists_twoPow_of_mem {b : PermissionSet} (hb : b ∈ ALL_BITS) :
    ∃ i < 32, b = BitVec.twoPow 32 i := by
  have hall : ALL_BITS = (List.range 10).map (BitVec.twoPow 32) := by
    decide
  obtain ⟨i, hi, rfl⟩ := List.mem_map.1 (hall ▸ hb)
  exact ⟨i, (List.mem_range.1 hi).trans (by decide), rfl⟩

/-- A mask has one bit in common with a permission, or none. -/
theorem and_twoPow_ne_zero (x : PermissionSet) (i : ℕ) :
    x &&& BitVec.twoPow 32 i ≠ 0 ↔ x.getLsbD i := by
  rw [BitVec.and_twoPow]
  split
  · next h =>
    refine iff_of_true (fun h0 => ?_) h
    have hbit := congrArg (BitVec.getLsbD · i) h0
    simp [BitVec.lt_of_getLsbD h] at hbit
  · next h => exact iff_of_false (fun h0 => h0 rfl) h

/-- The state of a permission. -/
inductive BitState
  | notGranted
  | granted
  /-- Revoked, but operations in progress may end. -/
  | draining
  deriving DecidableEq, Repr

/-- The states of the permissions; a mask that is none is not granted. -/
structure PermissionSm where
  states : PermissionSet → BitState

namespace PermissionSm

/-- The machine of a session that starts with the permissions of the mask. -/
def new (grantedPermissions : PermissionSet) : PermissionSm where
  states b :=
    if b ∈ ALL_BITS then if grantedPermissions &&& b ≠ 0 then .granted else .notGranted
    else .notGranted

/-- The state of a permission. -/
def state (sm : PermissionSm) (bit : PermissionSet) : BitState := sm.states bit

/-- Operations may start: neither not granted nor draining. -/
def isGranted (sm : PermissionSm) (bit : PermissionSet) : Bool := sm.state bit = .granted

/-- Setting the state of a permission. -/
def insert (sm : PermissionSm) (bit : PermissionSet) (state : BitState) : PermissionSm where
  states := Function.update sm.states bit state

/-- The state an update leads a permission to. -/
def nextState (update : PermissionUpdate) (b : PermissionSet) (state : BitState) : BitState :=
  let nowGranted := update.grantedPermissions &&& b ≠ 0
  let immediatelyRevoked := update.immediateRevoke &&& b ≠ 0
  if nowGranted then .granted
  -- a revoke only concerns what is granted: what drains goes on to do so
  else if state = .granted then if immediatelyRevoked then .notGranted else .draining
  else state

/-- Applying an update, permission by permission. -/
def applyUpdate (sm : PermissionSm) (update : PermissionUpdate) : PermissionSm :=
  ALL_BITS.foldl (fun sm b => sm.insert b (nextState update b (sm.state b))) sm

/-- The operations in progress have ended: a draining permission no longer is. -/
def finishDraining (sm : PermissionSm) (bit : PermissionSet) : PermissionSm :=
  if sm.state bit = .draining then sm.insert bit .notGranted else sm

/-- Whether an operation may start, and why not. -/
def checkGate (sm : PermissionSm) (bit : PermissionSet) : Except ReasonCode Unit :=
  if sm.isGranted bit then .ok ()
  else if sm.state bit = .draining then .error ReasonCode.POLICY_PERMISSION_REVOKED
  else .error ReasonCode.POLICY_PERMISSION_DENIED

variable {sm : PermissionSm} {update : PermissionUpdate} {b : PermissionSet}

/-- Updates of distinct permissions, one after the other, each lead one to its next state. -/
theorem state_foldl_insert (next : PermissionSet → BitState → BitState)
    {bits : List PermissionSet} (hbits : bits.Nodup) (sm : PermissionSm) (b : PermissionSet) :
    (bits.foldl (fun sm b => sm.insert b (next b (sm.state b))) sm).state b =
      if b ∈ bits then next b (sm.state b) else sm.state b := by
  induction bits generalizing sm with
  | nil => rfl
  | cons c bits ih =>
    obtain ⟨hc, hbits⟩ := List.nodup_cons.1 hbits
    rw [List.foldl_cons, ih hbits]
    -- a mask is updated once, as it does not occur again
    by_cases hbc : b = c
    · subst hbc
      simp [hc, insert, state]
    · simp [hbc, insert, state]

/-- An update leads every permission to its next state, and touches nothing else. -/
theorem state_applyUpdate (b : PermissionSet) :
    (sm.applyUpdate update).state b =
      if b ∈ ALL_BITS then nextState update b (sm.state b) else sm.state b :=
  state_foldl_insert (nextState update) nodup_ALL_BITS sm b

/-- Initially, exactly the permissions of the mask are granted. -/
theorem isGranted_new {grantedPermissions : PermissionSet} (hb : b ∈ ALL_BITS) :
    (new grantedPermissions).isGranted b ↔ grantedPermissions &&& b ≠ 0 := by
  simp only [isGranted, state, new, hb, if_true, decide_eq_true_eq]
  split_ifs with h
  · exact iff_of_true rfl h
  · exact iff_of_false nofun h

/-- After an update, exactly the permissions of its mask are granted. -/
theorem isGranted_applyUpdate (hb : b ∈ ALL_BITS) :
    (sm.applyUpdate update).isGranted b ↔ update.grantedPermissions &&& b ≠ 0 := by
  simp only [isGranted, state_applyUpdate, hb, if_true, nextState, decide_eq_true_eq]
  split_ifs with hgranted hstate
  · exact iff_of_true rfl hgranted
  · exact iff_of_false nofun hgranted
  · exact iff_of_false nofun hgranted
  · exact iff_of_false hstate hgranted

theorem checkGate_eq_ok (bit : PermissionSet) : sm.checkGate bit = .ok () ↔ sm.isGranted bit := by
  rw [checkGate]
  split_ifs with h h' <;> simp [h]

end PermissionSm

/-- The update for granting or revoking the permissions of `bit`, keeping every other bit
    of the mask. -/
def buildPermissionToggle (currentGranted bit : PermissionSet) (grant : Bool) :
    PermissionUpdate :=
  let otherBits := currentGranted &&& ~~~bit
  let thisBit := if grant then bit else 0
  { grantedPermissions := thisBit ||| otherBits
    immediateRevoke := if grant then 0 else bit }

/-- The commands of the administrator of the server. -/
inductive AdminCommand
  | togglePermission (bit : PermissionSet) (grant : Bool)
  | sendClipboard
  deriving DecidableEq

/-- The white space characters. -/
def isWhitespace (c : Char) : Bool :=
  (0x09 ≤ c.toNat && c.toNat ≤ 0x0D) || c.toNat = 0x20 || c.toNat = 0x85 || c.toNat = 0xA0 ||
    c.toNat = 0x1680 || (0x2000 ≤ c.toNat && c.toNat ≤ 0x200A) || c.toNat = 0x2028 ||
    c.toNat = 0x2029 || c.toNat = 0x202F || c.toNat = 0x205F || c.toNat = 0x3000

/-- A line without the white space around it. -/
def trim (line : String) : String :=
  String.ofList ((line.toList.dropWhile isWhitespace).rdropWhile isWhitespace)

/-- A line of the administrator as a command; `none` for a blank or an unknown one. -/
def parseAdminCommand (line : String) : Option AdminCommand :=
  let toggle (bit : PermissionSet) (grant : Bool) := some (.togglePermission bit grant)
  match trim line with
  | "grant-view" => toggle Bit.VIEW true
  | "revoke-view" => toggle Bit.VIEW false
  | "grant-keyboard" => toggle Bit.INPUT_KEYBOARD true
  | "revoke-keyboard" => toggle Bit.INPUT_KEYBOARD false
  | "grant-mouse" => toggle Bit.INPUT_MOUSE true
  | "revoke-mouse" => toggle Bit.INPUT_MOUSE false
  | "grant-clip-read" => toggle Bit.CLIP_READ true
  | "revoke-clip-read" => toggle Bit.CLIP_READ false
  | "grant-clip-write" => toggle Bit.CLIP_WRITE true
  | "revoke-clip-write" => toggle Bit.CLIP_WRITE false
  | "grant-audio-playback" => toggle Bit.AUDIO_PLAYBACK true
  | "revoke-audio-playback" => toggle Bit.AUDIO_PLAYBACK false
  | "grant-audio-capture" => toggle Bit.AUDIO_CAPTURE true
  | "revoke-audio-capture" => toggle Bit.AUDIO_CAPTURE false
  | "send-clipboard" => some .sendClipboard
  | _ => none

/-- The administrator only toggles single permissions there are. -/
theorem mem_ALL_BITS_of_parseAdminCommand {line : String} {bit : PermissionSet} {grant : Bool}
    (h : parseAdminCommand line = some (.togglePermission bit grant)) : bit ∈ ALL_BITS := by
  rw [parseAdminCommand] at h
  dsimp only at h
  split at h <;> simp_all [ALL_BITS]

/-! ## Toggles -/

/-- From `before` to `after`, the bits of `bit`, and no others, are set or cleared. -/
def SetsExactly (bit : PermissionSet) (grant : Bool) (before after : PermissionSet) : Prop :=
  ∀ i < 32, after.getLsbD i = if bit.getLsbD i then grant else before.getLsbD i

/-- The toggle built from a mask is one of that mask. -/
theorem buildPermissionToggle_setsExactly (currentGranted bit : PermissionSet) (grant : Bool) :
    SetsExactly bit grant currentGranted
      (buildPermissionToggle currentGranted bit grant).grantedPermissions := by
  intro i hi
  simp only [BitVec.getLsbD_eq_getElem hi]
  cases grant <;> cases hbit : bit[i] <;> simp [buildPermissionToggle, hbit]

/-- The toggle built from the mask `base` is one of the mask `current` exactly if the two
    agree on all other bits. -/
theorem setsExactly_toggle_iff {base current bit : PermissionSet} {grant : Bool} :
    SetsExactly bit grant current (buildPermissionToggle base bit grant).grantedPermissions ↔
      ∀ i < 32, bit.getLsbD i = false → base.getLsbD i = current.getLsbD i := by
  refine forall₂_congr fun i hi => ?_
  rw [buildPermissionToggle_setsExactly base bit grant i hi]
  cases bit.getLsbD i <;> simp

/-- After a toggle of a mask, a permission is in the mask as the toggle says, or, if it is
    none of the toggled ones, as before. -/
theorem SetsExactly.mem {bit before after : PermissionSet} {grant : Bool}
    (h : SetsExactly bit grant before after) {b : PermissionSet} (hb : b ∈ ALL_BITS) :
    after &&& b ≠ 0 ↔ if bit &&& b ≠ 0 then grant = true else before &&& b ≠ 0 := by
  obtain ⟨i, hi, rfl⟩ := exists_twoPow_of_mem hb
  simp only [and_twoPow_ne_zero, h i hi]
  split <;> rfl

end Sardp
