import Sardp.Input.Injection

/-!
# Key-ups that have arrived

Whether a key is injected is decided for every event of it on its own: by its modifiers, the mode
and the permissions of that moment. So a key that has gone down may be up for the client, and the
event have arrived, while for the sink it is still down.

This does not happen exactly as long as every event that lets go of a key or button that is down is
let through (`InputInjection.ups_take_effect_iff`). It happens when a shortcut is let go of with the
modifier first (`InputInjection.shortcut_stays_down`).
-/

namespace Sardp

open Histories

namespace InputInjection

/-- The key or button a call is about. -/
def Call.signal (call : Call) (k : Release) : Option Bool :=
  match call with
  | .handle message _ => message.signal k
  | .releaseAll => none

/-- What a call does to a key or button. -/
def callEffect (s : InputInjection) (call : Call) (k : Release) : Option Bool :=
  match call with
  | .handle message permissionSm => s.effect message permissionSm k
  | .releaseAll => if k ∈ s.pressed then some false else none

/-- What lets go of a key or button that is down is let through. -/
def LetsUpsThrough (s : InputInjection) : Call → Prop
  | .handle message permissionSm => ∀ k ∈ s.pressed,
      message.signal k = some false → s.letsThrough message permissionSm
  | .releaseAll => True

variable {s : InputInjection}

theorem last_emitted_call (call : Call) (k : Release) :
    last SinkEvent.signal (s.call call).emitted k =
      (s.callEffect call k).or (last SinkEvent.signal s.emitted k) := by
  cases call with
  | handle message permissionSm => exact last_emitted_handle ..
  | releaseAll => exact last_emitted_releaseAll

/-- A call only presses what it is about. -/
theorem signal_of_callEffect {call : Call} {k : Release} (h : s.callEffect call k = some true) :
    call.signal k = some true := by
  cases call with
  | handle message permissionSm => exact (Option.ite_none_right_eq_some.1 h).2
  | releaseAll => cases (Option.ite_none_right_eq_some.1 h).2

theorem letsUpsThrough_iff (htracks : s.Tracks) (call : Call) :
    s.LetsUpsThrough call ↔ ∀ k, Down SinkEvent.signal s.emitted k → call.signal k = some false →
      s.callEffect call k ≠ none := by
  simp only [← htracks _]
  cases call with
  | releaseAll => exact iff_of_true trivial nofun
  | handle message permissionSm =>
    refine forall₃_congr fun k _ hsignal => ?_
    have hsignal : message.signal k = some false := hsignal
    simp only [callEffect, effect, hsignal]
    split_ifs with hlets <;> simp [hlets]

/-- A key or button whose last event lets go of it has not last been pressed, after every part of
    the calls, exactly if everything that lets go of what is down is let through. -/
theorem ups_take_effect_iff (calls : List Call) :
    (∀ calls', calls' <+: calls → ∀ k, last Call.signal calls' k = some false →
      ¬Down SinkEvent.signal (run calls').emitted k) ↔
      ∀ calls' call, calls' ++ [call] <+: calls → (run calls').LetsUpsThrough call := by
  simp only [letsUpsThrough_iff (tracks_run _)]
  refine up_iff_effective (fun calls => (run calls).emitted)
    (fun calls call k => (run calls).callEffect call k) (fun calls call k => ?_)
    (fun calls call k htrue => ?_)
  · rw [run_append_singleton]
    exact last_emitted_call call k
  · exact signal_of_callEffect htrue

/-- An event of a key. -/
def keyCall (eventId scancode : ℕ) (down : Bool) (modifiers : KeyModifiers) : Call :=
  .handle (.key ⟨⟨eventId⟩, down, scancode, 0, modifiers⟩) (.new Bit.INPUT_KEYBOARD)

/-- A shortcut, let go of with the modifier first: the other key stays down. -/
theorem shortcut_stays_down :
    let calls := [keyCall 1 0xE0 true KeyModifier.CTRL, keyCall 2 0x06 true KeyModifier.CTRL,
      keyCall 3 0xE0 false 0, keyCall 4 0x06 false 0]
    last Call.signal calls (.key 0x06) = some false ∧
      Down SinkEvent.signal (run calls).emitted (.key 0x06) := by
  decide

end InputInjection

end Sardp
