import Sardp.Library.Histories
import Sardp.Messages

/-!
# The input of the window

The window of the client turns the messages of the system into input for the client
(`handle_input_message` in `display.rs`), a physical key by its scan code (`keymap.rs`). While a
composition is in progress, no key is reported.

So a key that has been reported as going down, and is let go of during a composition, stays down
for the client. Every key that is let go of is reported as such, or the focus lost since it went
down, exactly as long as no key that is reported as down is let go of during a composition
(`WindowState.ups_reported_iff`).
-/

namespace Sardp

open Histories

/-! ## The input for the client -/

/-- What the user does in the window. -/
inductive WindowInput
  | key (down : Bool) (hidUsage virtualKey : ℕ) (modifiers : KeyModifiers)
  | text (text : String)
  | imeComposition (text : String) (caret : ℕ)
  | mouseMove (x y : ℤ)
  | mouseButton (button : ℕ) (down : Bool) (x y : ℤ)
  | wheel (dx dy : ℤ)
  | focusLost
  deriving DecidableEq

/-! ## Physical keys -/

/-- The HID usages of the keys, with their scan codes, extended or not. -/
def TABLE : List (ℕ × ℕ × Bool) :=
  [(0x04, 0x1E, false), (0x05, 0x30, false), (0x06, 0x2E, false), (0x07, 0x20, false),
    (0x08, 0x12, false), (0x09, 0x21, false), (0x0A, 0x22, false), (0x0B, 0x23, false),
    (0x0C, 0x17, false), (0x0D, 0x24, false), (0x0E, 0x25, false), (0x0F, 0x26, false),
    (0x10, 0x32, false), (0x11, 0x31, false), (0x12, 0x18, false), (0x13, 0x19, false),
    (0x14, 0x10, false), (0x15, 0x13, false), (0x16, 0x1F, false), (0x17, 0x14, false),
    (0x18, 0x16, false), (0x19, 0x2F, false), (0x1A, 0x11, false), (0x1B, 0x2D, false),
    (0x1C, 0x15, false), (0x1D, 0x2C, false), (0x1E, 0x02, false), (0x1F, 0x03, false),
    (0x20, 0x04, false), (0x21, 0x05, false), (0x22, 0x06, false), (0x23, 0x07, false),
    (0x24, 0x08, false), (0x25, 0x09, false), (0x26, 0x0A, false), (0x27, 0x0B, false),
    (0x28, 0x1C, false), (0x29, 0x01, false), (0x2A, 0x0E, false), (0x2B, 0x0F, false),
    (0x2C, 0x39, false), (0x2D, 0x0C, false), (0x2E, 0x0D, false), (0x2F, 0x1A, false),
    (0x30, 0x1B, false), (0x31, 0x2B, false), (0x33, 0x27, false), (0x34, 0x28, false),
    (0x35, 0x29, false), (0x36, 0x33, false), (0x37, 0x34, false), (0x38, 0x35, false),
    (0x39, 0x3A, false), (0x3A, 0x3B, false), (0x3B, 0x3C, false), (0x3C, 0x3D, false),
    (0x3D, 0x3E, false), (0x3E, 0x3F, false), (0x3F, 0x40, false), (0x40, 0x41, false),
    (0x41, 0x42, false), (0x42, 0x43, false), (0x43, 0x44, false), (0x44, 0x57, false),
    (0x45, 0x58, false), (0x46, 0x37, true), (0x47, 0x46, false), (0x49, 0x52, true),
    (0x4A, 0x47, true), (0x4B, 0x49, true), (0x4C, 0x53, true), (0x4D, 0x4F, true),
    (0x4E, 0x51, true), (0x4F, 0x4D, true), (0x50, 0x4B, true), (0x51, 0x50, true),
    (0x52, 0x48, true), (0x53, 0x45, false), (0x54, 0x35, true), (0x55, 0x37, false),
    (0x56, 0x4A, false), (0x57, 0x4E, false), (0x58, 0x1C, true), (0x59, 0x4F, false),
    (0x5A, 0x50, false), (0x5B, 0x51, false), (0x5C, 0x4B, false), (0x5D, 0x4C, false),
    (0x5E, 0x4D, false), (0x5F, 0x47, false), (0x60, 0x48, false), (0x61, 0x49, false),
    (0x62, 0x52, false), (0x63, 0x53, false), (0x64, 0x56, false), (0x65, 0x5D, true),
    (0x67, 0x59, false), (0x68, 0x64, false), (0x69, 0x65, false), (0x6A, 0x66, false),
    (0x6B, 0x67, false), (0x6C, 0x68, false), (0x6D, 0x69, false), (0x6E, 0x6A, false),
    (0x6F, 0x6B, false), (0x70, 0x6C, false), (0x71, 0x6D, false), (0x72, 0x6E, false),
    (0x73, 0x76, false), (0x87, 0x73, false), (0x88, 0x70, false), (0x89, 0x7D, false),
    (0x8A, 0x79, false), (0x8B, 0x7B, false), (0x90, 0x72, false), (0x91, 0x71, false),
    (0xE0, 0x1D, false), (0xE1, 0x2A, false), (0xE2, 0x38, false), (0xE3, 0x5B, true),
    (0xE4, 0x1D, true), (0xE5, 0x36, false), (0xE6, 0x38, true), (0xE7, 0x5C, true)]

/-- The HID usage of a scan code. -/
def scancodeToHid (scancode : ℕ) (extended : Bool) : Option ℕ :=
  (TABLE.find? fun (_, sc, ext) => sc = scancode && ext = extended).map Prod.fst

/-! ## The messages of the system -/

namespace Button

def LEFT : ℕ := 1
def RIGHT : ℕ := 2
def MIDDLE : ℕ := 3
def X1 : ℕ := 4
def X2 : ℕ := 5

end Button

/-- The kinds of messages. -/
inductive WindowMsg
  /-- A key going down or up, with the key for the menu of the window or without. -/
  | key (sys down : Bool)
  | char
  | sysChar
  | imeStartComposition
  | imeEndComposition
  | imeComposition
  | mouseMove
  | lButton (down : Bool)
  | rButton (down : Bool)
  | mButton (down : Bool)
  | xButton (down : Bool)
  | mouseWheel
  | mouseHWheel
  | killFocus
  /-- Any other. -/
  | other
  deriving DecidableEq

/-- A message, with what the system says when asked about it. -/
structure WindowMessage where
  msg : WindowMsg
  wparam : BitVec 32
  lparam : BitVec 32
  /-- It comes from the injector of this machine. -/
  isInjectedEcho : Bool
  currentModifiers : KeyModifiers
  /-- The composition in progress, and the caret in it. -/
  composition : Option (String × ℕ)

namespace WindowMessage

def scancode (m : WindowMessage) : ℕ := (m.lparam.extractLsb' 16 8).toNat

def extended (m : WindowMessage) : Bool := m.lparam.getLsbD 24

def mousePosition (m : WindowMessage) : ℤ × ℤ :=
  ((m.lparam.extractLsb' 0 16).toInt, (m.lparam.extractLsb' 16 16).toInt)

/-- The composition has changed. -/
def hasComposition (m : WindowMessage) : Bool := m.lparam &&& 0x0008 ≠ 0

/-- The button of a message of the extra ones. -/
def xButton (m : WindowMessage) : ℕ :=
  if (m.wparam.extractLsb' 16 16).toNat = 2 then Button.X2 else Button.X1

def wheelDelta (m : WindowMessage) : ℤ := (m.wparam.extractLsb' 16 16).toInt

end WindowMessage

/-! ## The window procedure -/

/-- A unit of UTF-16 as a character, which a surrogate is not. -/
def charOfUnit (unit : ℕ) : Option Char := if unit.isValidChar then some (Char.ofNat unit) else none

/-- The character a unit completes, if it does. -/
def completedChar (pendingHighSurrogate : Option ℕ) (unit : ℕ) : Option Char :=
  match pendingHighSurrogate with
  | some high =>
    if 0xDC00 ≤ unit ∧ unit ≤ 0xDFFF then
      some (Char.ofNat (0x10000 + (high - 0xD800) * 0x400 + (unit - 0xDC00)))
    else charOfUnit unit
  | none => charOfUnit unit

def isControl (c : Char) : Bool := c.toNat < 0x20 || (0x7F ≤ c.toNat && c.toNat ≤ 0x9F)

/-- The state of the window, and the input it has sent. -/
structure WindowState where
  /-- A composition is in progress, and the keys that feed it are not reported. -/
  composing : Bool
  pendingHighSurrogate : Option ℕ
  buttonsDown : ℕ
  sent : List WindowInput

namespace WindowState

def new : WindowState := ⟨false, none, 0, []⟩

def send (s : WindowState) (event : WindowInput) : WindowState :=
  { s with sent := s.sent ++ [event] }

/-- A unit of UTF-16 that has been entered; control characters are keys. -/
def handleChar (s : WindowState) (unit : ℕ) : WindowState :=
  if 0xD800 ≤ unit ∧ unit ≤ 0xDBFF then { s with pendingHighSurrogate := some unit }
  else
    let text := completedChar s.pendingHighSurrogate unit
    let s := { s with pendingHighSurrogate := none }
    match text with
    | none => s
    | some c => if isControl c then s else s.send (.text c.toString)

/-- A button going down or up: the buttons that are down are counted for the capture of the
    mouse. -/
def handleButton (s : WindowState) (m : WindowMessage) (button : ℕ) (down : Bool) : WindowState :=
  let s := { s with buttonsDown := if down then min (s.buttonsDown + 1) 255 else s.buttonsDown - 1 }
  if m.isInjectedEcho then s
  else
    let (x, y) := m.mousePosition
    s.send (.mouseButton button down x y)

/-- A message; it is consumed, or left to the default window procedure. -/
def handleInputMessage (s : WindowState) (m : WindowMessage) : Bool × WindowState :=
  match m.msg with
  | .key _ down =>
    if m.isInjectedEcho || s.composing then (true, s)
    else
      match scancodeToHid m.scancode m.extended with
      | some hidUsage => (true, s.send (.key down hidUsage m.wparam.toNat m.currentModifiers))
      | none => (true, s)
  | .char =>
    if m.isInjectedEcho then (true, s)
    else (true, s.handleChar (m.wparam.extractLsb' 0 16).toNat)
  | .sysChar => (true, s)
  | .imeStartComposition => (false, { s with composing := true })
  | .imeEndComposition => (false, { s with composing := false }.send (.imeComposition "" 0))
  | .imeComposition =>
    match m.hasComposition, m.composition with
    | true, some (text, caret) => (false, s.send (.imeComposition text caret))
    | _, _ => (false, s)
  | .mouseMove =>
    if m.isInjectedEcho then (true, s)
    else
      let (x, y) := m.mousePosition
      (true, s.send (.mouseMove x y))
  | .lButton down => (true, s.handleButton m Button.LEFT down)
  | .rButton down => (true, s.handleButton m Button.RIGHT down)
  | .mButton down => (true, s.handleButton m Button.MIDDLE down)
  | .xButton down => (true, s.handleButton m m.xButton down)
  | .mouseWheel =>
    if m.isInjectedEcho then (true, s) else (true, s.send (.wheel 0 m.wheelDelta))
  | .mouseHWheel =>
    if m.isInjectedEcho then (true, s) else (true, s.send (.wheel m.wheelDelta 0))
  | .killFocus => (false, { s with composing := false }.send .focusLost)
  | .other => (false, s)

/-- The window after messages. -/
def run (messages : List WindowMessage) : WindowState :=
  messages.foldl (fun s m => (s.handleInputMessage m).2) new

@[simp] theorem run_append_singleton (messages : List WindowMessage) (m : WindowMessage) :
    run (messages ++ [m]) = ((run messages).handleInputMessage m).2 := by
  simp [run]

end WindowState

/-! ## Keys that are reported as down -/

/-- What an input signals to a key, by its HID usage: the loss of the focus releases every key. -/
def WindowInput.signal (event : WindowInput) (k : ℕ) : Option Bool :=
  match event with
  | .key down hidUsage _ _ => if k = hidUsage then some down else none
  | .focusLost => some false
  | _ => none

/-- What a message says of a key; an echo says nothing. -/
def WindowMessage.signal (m : WindowMessage) (k : ℕ) : Option Bool :=
  match m.msg with
  | .key _ down =>
    if m.isInjectedEcho = false ∧ scancodeToHid m.scancode m.extended = some k then some down
    else none
  | _ => none

namespace WindowState

variable {s : WindowState} {m : WindowMessage} {k : ℕ}

/-- What a message does to a key: what it says, unless a composition is in progress, and the loss
    of the focus releases every key. -/
def effect (s : WindowState) (m : WindowMessage) (k : ℕ) : Option Bool :=
  if m.msg = .killFocus then some false else if s.composing then none else m.signal k

theorem last_sent_send (event : WindowInput) : last WindowInput.signal (s.send event).sent k =
    (event.signal k).or (last WindowInput.signal s.sent k) := by
  simp [send]

theorem last_sent_handleChar (unit : ℕ) :
    last WindowInput.signal (s.handleChar unit).sent k = last WindowInput.signal s.sent k := by
  rw [handleChar]
  split_ifs
  · rfl
  · dsimp only
    split
    · rfl
    · split_ifs
      · rfl
      · exact last_sent_send _

theorem last_sent_handleButton (button : ℕ) (down : Bool) :
    last WindowInput.signal (s.handleButton m button down).sent k =
      last WindowInput.signal s.sent k := by
  by_cases hecho : m.isInjectedEcho
  · simp [handleButton, hecho]
  · simp [handleButton, hecho, last_sent_send, WindowInput.signal]

theorem last_sent_handleInputMessage :
    last WindowInput.signal (s.handleInputMessage m).2.sent k =
      (s.effect m k).or (last WindowInput.signal s.sent k) := by
  have hnone (hkey : ∀ sys down, m.msg ≠ .key sys down) (hfocus : m.msg ≠ .killFocus) :
      s.effect m k = none := by
    have hsignal : m.signal k = none := by
      rw [WindowMessage.signal]
      split
      · next sys down hmsg => exact absurd hmsg (hkey sys down)
      · rfl
    rw [effect, if_neg hfocus, hsignal, ite_self]
  cases hmsg : m.msg with
  | key sys down =>
    rw [handleInputMessage, hmsg, effect, hmsg, WindowMessage.signal, hmsg]
    cases s.composing with
    | true => simp
    | false =>
      cases m.isInjectedEcho with
      | true => simp
      | false =>
        cases scancodeToHid m.scancode m.extended with
        | none => simp
        | some hidUsage => simp [last_sent_send, WindowInput.signal, eq_comm]
  | killFocus =>
    rw [handleInputMessage, hmsg, effect, if_pos hmsg]
    exact last_sent_send _
  | char =>
    rw [handleInputMessage, hmsg, hnone (by simp [hmsg]) (by simp [hmsg])]
    dsimp only
    split_ifs
    · rfl
    · exact last_sent_handleChar _
  | imeComposition =>
    rw [handleInputMessage, hmsg, hnone (by simp [hmsg]) (by simp [hmsg])]
    dsimp only
    split
    · exact last_sent_send _
    · rfl
  | lButton | rButton | mButton | xButton =>
    rw [handleInputMessage, hmsg, hnone (by simp [hmsg]) (by simp [hmsg])]
    exact last_sent_handleButton ..
  | imeEndComposition =>
    rw [handleInputMessage, hmsg, hnone (by simp [hmsg]) (by simp [hmsg])]
    exact last_sent_send _
  | sysChar | imeStartComposition | other =>
    rw [handleInputMessage, hmsg, hnone (by simp [hmsg]) (by simp [hmsg])]
    rfl
  | mouseMove | mouseWheel | mouseHWheel =>
    rw [handleInputMessage, hmsg, hnone (by simp [hmsg]) (by simp [hmsg])]
    dsimp only
    split_ifs
    · rfl
    · exact last_sent_send _

theorem signal_of_effect (h : s.effect m k = some true) : m.signal k = some true := by
  rw [effect] at h
  split_ifs at h
  · cases h
  · exact h

/-- Letting go of a key has an effect unless a composition is in progress. -/
theorem effect_eq_none_iff (h : m.signal k = some false) :
    s.effect m k = none ↔ s.composing = true := by
  have hfocus : m.msg ≠ .killFocus := by
    intro hmsg
    rw [WindowMessage.signal, hmsg] at h
    cases h
  rw [effect, if_neg hfocus, h]
  simp

/-- The keys that are let go of are reported to be up, or the focus has been lost since they went
    down, after every part of the messages, exactly if no key reported to be down is let go of
    during a composition. -/
theorem ups_reported_iff (messages : List WindowMessage) :
    (∀ ms, ms <+: messages → ∀ k, last WindowMessage.signal ms k = some false →
      ¬Down WindowInput.signal (run ms).sent k) ↔
      ∀ ms m, ms ++ [m] <+: messages → ∀ k, Down WindowInput.signal (run ms).sent k →
        m.signal k = some false → (run ms).composing = false := by
  rw [up_iff_effective (fun ms => (run ms).sent) (fun ms m k => (run ms).effect m k)
    (fun ms m k => by rw [run_append_singleton, last_sent_handleInputMessage])
    (fun ms m k => signal_of_effect)]
  refine forall₃_congr fun ms m _ => forall₂_congr fun k _ => forall_congr' fun hup => ?_
  rw [Ne, effect_eq_none_iff hup, Bool.not_eq_true]

/-- A message of a key, by its scan code and the modifiers, that is no echo. -/
def keyMessage (down : Bool) (scancode : BitVec 32) (virtualKey : BitVec 32)
    (modifiers : KeyModifiers) : WindowMessage :=
  ⟨.key false down, virtualKey, scancode <<< 16, false, modifiers, none⟩

/-- A modifier that is held when a composition starts, and let go of during it, stays down. -/
theorem modifier_stays_down :
    let messages := [keyMessage true 0x1D 0x11 KeyModifier.CTRL,
      ⟨.imeStartComposition, 0, 0, false, KeyModifier.CTRL, none⟩, keyMessage false 0x1D 0x11 0,
      ⟨.imeEndComposition, 0, 0, false, 0, none⟩]
    last WindowMessage.signal messages 0xE0 = some false ∧
      Down WindowInput.signal (run messages).sent 0xE0 := by
  decide

end WindowState

end Sardp
