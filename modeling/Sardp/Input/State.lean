import Mathlib.Data.List.Nodup
import Mathlib.Data.Nat.Basic
import Sardp.Library.OrderedSet
import Sardp.Messages

/-!
# The state of the input

What a session keeps on its input (`input_state.rs`): the mode of the input method, where a
change is announced for the events after one (`ImeModeSm`), and the keys and buttons that are
down (`PressedInputs`), so that they can be released when the stream or the session ends. A key
that makes a character is not injected as long as the client composes the text
(`shouldInjectKey`): its character arrives as text.
-/

namespace Sardp

/-! ## The mode of the input method -/

/-- The mode, and the last announcement of one whose boundary no event has crossed. -/
structure ImeModeSm where
  current : ImeMode
  pending : Option (ImeMode × ℕ)
  deriving DecidableEq

namespace ImeModeSm

def new : ImeModeSm := ⟨.clientSide, none⟩

/-- An announcement; one that is pending is replaced. -/
def onModeChange (sm : ImeModeSm) (change : ImeModeChange) : ImeModeSm :=
  { sm with pending := some (change.mode, change.effectiveAfterEventId) }

/-- The mode for an event, which crosses a pending boundary if it is after it. -/
def modeFor (sm : ImeModeSm) (eventId : ℕ) : ImeMode × ImeModeSm :=
  match sm.pending with
  | some (mode, boundary) => if boundary < eventId then (mode, ⟨mode, none⟩) else (sm.current, sm)
  | none => (sm.current, sm)

/-- Text is not allowed while it is the server that composes it. -/
def checkTextAllowed : ImeMode → Except ReasonCode Unit
  | .clientSide => .ok ()
  | .remoteSide => .error ReasonCode.PROTOCOL_UNEXPECTED_MESSAGE

end ImeModeSm

/-! ## Keys and buttons -/

/-- Something to release: a key, as its HID usage, or a button. -/
inductive Release
  | key (scancode : ℕ)
  | button (button : ℕ)
  deriving DecidableEq

/-- The keys and buttons that are down. -/
structure PressedInputs where
  keys : OrderedSet ℕ
  buttons : OrderedSet ℕ
  deriving DecidableEq

namespace PressedInputs

def new : PressedInputs := ⟨.empty, .empty⟩

def onKey (p : PressedInputs) (scancode : ℕ) (down : Bool) : PressedInputs :=
  { p with keys := if down then p.keys.insert scancode else p.keys.erase scancode }

def onButton (p : PressedInputs) (button : ℕ) (down : Bool) : PressedInputs :=
  { p with buttons := if down then p.buttons.insert button else p.buttons.erase button }

def isEmpty (p : PressedInputs) : Bool := p.keys.toList.isEmpty && p.buttons.toList.isEmpty

/-- What to release so that nothing is down, the buttons first, and then nothing is. -/
def takeReleases (p : PressedInputs) : List Release × PressedInputs :=
  (p.buttons.toList.map .button ++ p.keys.toList.map .key, new)

instance : Membership Release PressedInputs where
  mem p
    | .key scancode => scancode ∈ p.keys
    | .button button => button ∈ p.buttons

variable {p : PressedInputs} {k : Release} {scancode button : ℕ} {down : Bool}

theorem key_mem : .key scancode ∈ p ↔ scancode ∈ p.keys := Iff.rfl

theorem button_mem : .button button ∈ p ↔ button ∈ p.buttons := Iff.rfl

instance (k : Release) (p : PressedInputs) : Decidable (k ∈ p) := by
  cases k
  · exact inferInstanceAs (Decidable (_ ∈ p.keys))
  · exact inferInstanceAs (Decidable (_ ∈ p.buttons))

@[simp] theorem not_mem_new : k ∉ new := by
  cases k <;> simp [new, key_mem, button_mem]

/-- A key is down after it has gone down, and otherwise if it was before. -/
@[simp] theorem mem_onKey :
    k ∈ p.onKey scancode down ↔ if k = .key scancode then down = true else k ∈ p := by
  cases k <;> cases down <;> simp [onKey, key_mem, button_mem, or_iff_not_imp_left]

@[simp] theorem mem_onButton :
    k ∈ p.onButton button down ↔ if k = .button button then down = true else k ∈ p := by
  cases k <;> cases down <;> simp [onButton, key_mem, button_mem, or_iff_not_imp_left]

/-- What is released is what is down. -/
@[simp] theorem mem_takeReleases : k ∈ p.takeReleases.1 ↔ k ∈ p := by
  cases k <;> simp [takeReleases, key_mem, button_mem]

theorem eq_new_of_isEmpty (h : p.isEmpty) : p = new := by
  rw [isEmpty, Bool.and_eq_true, List.isEmpty_iff, List.isEmpty_iff] at h
  obtain ⟨keys, buttons⟩ := p
  exact congrArg₂ mk (OrderedSet.ext h.1) (OrderedSet.ext h.2)

/-- Nothing is released twice. -/
theorem nodup_takeReleases (p : PressedInputs) : p.takeReleases.1.Nodup := by
  refine List.Nodup.append (p.buttons.nodup.map fun _ _ => Release.button.inj)
    (p.keys.nodup.map fun _ _ => Release.key.inj) ?_
  intro k hbutton hkey
  obtain ⟨button, -, rfl⟩ := List.mem_map.1 hbutton
  obtain ⟨scancode, -, hkey⟩ := List.mem_map.1 hkey
  cases hkey

end PressedInputs

/-! ## Which keys are injected -/

/-- The keys that make a character when pressed on their own. -/
def isCharacterKey (hidUsage : ℕ) : Bool :=
  (0x04 ≤ hidUsage && hidUsage ≤ 0x27) || hidUsage = 0x2C ||
    (0x2D ≤ hidUsage && hidUsage ≤ 0x38) || (0x54 ≤ hidUsage && hidUsage ≤ 0x57) ||
    (0x59 ≤ hidUsage && hidUsage ≤ 0x63) || hidUsage = 0x64 || hidUsage = 0x67 ||
    hidUsage = 0x85 || hidUsage = 0x87 || hidUsage = 0x89

/-- The modifiers make a shortcut of a key. -/
def isShortcut (modifiers : KeyModifiers) : Bool :=
  modifiers &&& (KeyModifier.CTRL ||| KeyModifier.ALT ||| KeyModifier.META) ≠ 0

/-- Whether a key is injected: while the client composes the text, a key that makes a
    character only is as part of a shortcut. -/
def shouldInjectKey (mode : ImeMode) (hidUsage : ℕ) (modifiers : KeyModifiers) : Bool :=
  match mode with
  | .remoteSide => true
  | .clientSide => isShortcut modifiers || !isCharacterKey hidUsage

end Sardp
