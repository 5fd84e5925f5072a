import Mathlib.Data.Int.Notation
import Mathlib.Data.Nat.Notation

/-!
# Injecting the input on macOS

What macOS is told of the keys and the mouse (`sardp-mac`, `inject.rs` and `keymap.rs`). An event
carries the modifiers that are down, a move while a button is held is a drag of the lowest one, and
an event of a button carries how many clicks it makes, up to three
(`MacInput.InputState.mouseButton`).

Positions are points of a type of their own: how they come of pixels, and which of them are close
enough for a double click, is up to the configuration.
-/

namespace Sardp.MacInput

/-! ## Keys -/

/-- The keys by their usage, with the virtual keys of macOS. -/
def TABLE : List (ℕ × ℕ) :=
  [(0x04, 0x00), (0x05, 0x0B), (0x06, 0x08), (0x07, 0x02), (0x08, 0x0E), (0x09, 0x03),
    (0x0A, 0x05), (0x0B, 0x04), (0x0C, 0x22), (0x0D, 0x26), (0x0E, 0x28), (0x0F, 0x25),
    (0x10, 0x2E), (0x11, 0x2D), (0x12, 0x1F), (0x13, 0x23), (0x14, 0x0C), (0x15, 0x0F),
    (0x16, 0x01), (0x17, 0x11), (0x18, 0x20), (0x19, 0x09), (0x1A, 0x0D), (0x1B, 0x07),
    (0x1C, 0x10), (0x1D, 0x06), (0x1E, 0x12), (0x1F, 0x13), (0x20, 0x14), (0x21, 0x15),
    (0x22, 0x17), (0x23, 0x16), (0x24, 0x1A), (0x25, 0x1C), (0x26, 0x19), (0x27, 0x1D),
    (0x28, 0x24), (0x29, 0x35), (0x2A, 0x33), (0x2B, 0x30), (0x2C, 0x31), (0x2D, 0x1B),
    (0x2E, 0x18), (0x2F, 0x21), (0x30, 0x1E), (0x31, 0x2A), (0x33, 0x29), (0x34, 0x27),
    (0x35, 0x32), (0x36, 0x2B), (0x37, 0x2F), (0x38, 0x2C), (0x39, 0x39), (0x3A, 0x7A),
    (0x3B, 0x78), (0x3C, 0x63), (0x3D, 0x76), (0x3E, 0x60), (0x3F, 0x61), (0x40, 0x62),
    (0x41, 0x64), (0x42, 0x65), (0x43, 0x6D), (0x44, 0x67), (0x45, 0x6F), (0x49, 0x72),
    (0x4A, 0x73), (0x4B, 0x74), (0x4C, 0x75), (0x4D, 0x77), (0x4E, 0x79), (0x4F, 0x7C),
    (0x50, 0x7B), (0x51, 0x7D), (0x52, 0x7E), (0x53, 0x47), (0x54, 0x4B), (0x55, 0x43),
    (0x56, 0x4E), (0x57, 0x45), (0x58, 0x4C), (0x59, 0x53), (0x5A, 0x54), (0x5B, 0x55),
    (0x5C, 0x56), (0x5D, 0x57), (0x5E, 0x58), (0x5F, 0x59), (0x60, 0x5B), (0x61, 0x5C),
    (0x62, 0x52), (0x63, 0x41), (0x64, 0x0A), (0x67, 0x51), (0x68, 0x69), (0x69, 0x6B),
    (0x6A, 0x71), (0x6B, 0x6A), (0x6C, 0x40), (0x6D, 0x4F), (0x6E, 0x50), (0x6F, 0x5A),
    (0x87, 0x5E), (0x89, 0x5D), (0x90, 0x68), (0x91, 0x66), (0xE0, 0x3B), (0xE1, 0x38),
    (0xE2, 0x3A), (0xE3, 0x37), (0xE4, 0x3E), (0xE5, 0x3C), (0xE6, 0x3D), (0xE7, 0x36)]

def hidToVirtualKey (hidUsage : ℕ) : Option ℕ :=
  (TABLE.find? fun entry => entry.1 = hidUsage).map Prod.snd

def isModifier (hidUsage : ℕ) : Bool := 0xE0 ≤ hidUsage && hidUsage ≤ 0xE7

/-- The keys of the number pad, and the arrows. -/
def isNumericPad (hidUsage : ℕ) : Bool :=
  (0x4F ≤ hidUsage && hidUsage ≤ 0x52) || (0x53 ≤ hidUsage && hidUsage ≤ 0x63) || hidUsage = 0x67

namespace Flag

def SHIFT : BitVec 64 := 0x00020000
def CONTROL : BitVec 64 := 0x00040000
def ALTERNATE : BitVec 64 := 0x00080000
def COMMAND : BitVec 64 := 0x00100000
def NUMERIC_PAD : BitVec 64 := 0x00200000
def DEVICE_LCTRL : BitVec 64 := 0x00000001
def DEVICE_LSHIFT : BitVec 64 := 0x00000002
def DEVICE_RSHIFT : BitVec 64 := 0x00000004
def DEVICE_LCMD : BitVec 64 := 0x00000008
def DEVICE_RCMD : BitVec 64 := 0x00000010
def DEVICE_LALT : BitVec 64 := 0x00000020
def DEVICE_RALT : BitVec 64 := 0x00000040
def DEVICE_RCTRL : BitVec 64 := 0x00002000

end Flag

/-- The modifiers in the order of their usages, with their flags. -/
def MODIFIERS : List (ℕ × BitVec 64 × BitVec 64) :=
  [(0xE0, Flag.CONTROL, Flag.DEVICE_LCTRL), (0xE1, Flag.SHIFT, Flag.DEVICE_LSHIFT),
    (0xE2, Flag.ALTERNATE, Flag.DEVICE_LALT), (0xE3, Flag.COMMAND, Flag.DEVICE_LCMD),
    (0xE4, Flag.CONTROL, Flag.DEVICE_RCTRL), (0xE5, Flag.SHIFT, Flag.DEVICE_RSHIFT),
    (0xE6, Flag.ALTERNATE, Flag.DEVICE_RALT), (0xE7, Flag.COMMAND, Flag.DEVICE_RCMD)]

/-! ## The mouse -/

namespace Button

def LEFT : ℕ := 1
def RIGHT : ℕ := 2
def MIDDLE : ℕ := 3
def X1 : ℕ := 4
def X2 : ℕ := 5

end Button

/-- The number macOS has for a button. -/
def cgButton (button : ℕ) : ℕ :=
  if button = Button.RIGHT then 1
  else if button = Button.MIDDLE then 2
  else if button = Button.X1 then 3
  else if button = Button.X2 then 4
  else 0

inductive MouseKind
  | move
  | drag
  | down
  | up
  deriving DecidableEq

/-- An event of the mouse. -/
structure MousePost (Point : Type) where
  kind : MouseKind
  button : ℕ
  position : Point
  clickState : ℕ
  flags : BitVec 64
  deriving DecidableEq

/-- What macOS is given. -/
inductive Post (Point : Type)
  | key (keyCode : ℕ) (down : Bool) (flags : BitVec 64)
  | text (text : String)
  | mouse (post : MousePost Point)
  | scroll (linesDy linesDx : ℤ) (flags : BitVec 64)
  | nothing
  deriving DecidableEq

structure InjectorConfig (Point : Type) where
  outputOrigin : Point
  /-- The point of a position in pixels, by the origin and the scale. -/
  toPoints : ℤ → ℤ → Point
  doubleClickIntervalUs : ℕ
  /-- The points are not farther apart than the slop. -/
  withinSlop : Point → Point → Bool

structure LastClick (Point : Type) where
  button : ℕ
  atUs : ℕ
  position : Point
  clickState : ℕ
  deriving DecidableEq

/-- The keyboard and the mouse, as far as they have been injected. -/
structure InputState (Point : Type) where
  config : InjectorConfig Point
  /-- The modifiers that are down, a bit each from `0xE0` on. -/
  modifiers : BitVec 8
  /-- The buttons that are down, by their numbers. -/
  buttons : BitVec 8
  position : Point
  lastClick : Option (LastClick Point)

/-- The lines of a turn of the wheel, at least one. -/
def wheelToLines (delta : ℤ) : ℤ :=
  let lines := delta.tdiv 120
  if lines ≠ 0 then lines
  else if delta > 0 then 1
  else if delta < 0 then -1
  else 0

namespace InputState

variable {Point : Type}

def new (config : InjectorConfig Point) : InputState Point :=
  { config, modifiers := 0, buttons := 0, position := config.outputOrigin, lastClick := none }

/-- The flags of the modifiers that are down. -/
def flags (s : InputState Point) : BitVec 64 :=
  MODIFIERS.zipIdx.foldl
    (fun flags ((_, group, device), i) =>
      if s.modifiers &&& (1#8 <<< i) ≠ 0 then flags ||| (group ||| device) else flags) 0

/-- The lowest button that is down. -/
def lowestPressedButton (s : InputState Point) : Option ℕ :=
  (List.range' 1 7).find? fun b => s.buttons &&& (1#8 <<< b) ≠ 0

def key (s : InputState Point) (hidUsage : ℕ) (down : Bool) : InputState Point × Post Point :=
  match hidToVirtualKey hidUsage with
  | none => (s, .nothing)
  | some keyCode =>
    let bit : BitVec 8 := 1#8 <<< (hidUsage - 0xE0)
    -- the event of a modifier carries the state after it
    let s :=
      if isModifier hidUsage then
        { s with modifiers := if down then s.modifiers ||| bit else s.modifiers &&& ~~~bit }
      else s
    let flags := if isNumericPad hidUsage then s.flags ||| Flag.NUMERIC_PAD else s.flags
    (s, .key keyCode down flags)

def text (s : InputState Point) (text : String) : InputState Point × Post Point :=
  (s, if text = "" then .nothing else .text text)

def mouseMove (s : InputState Point) (x y : ℤ) : InputState Point × Post Point :=
  let s := { s with position := s.config.toPoints x y }
  let (kind, button) :=
    match s.lowestPressedButton with
    | some b => (MouseKind.drag, cgButton b)
    | none => (MouseKind.move, 0)
  let clickState :=
    if kind = .drag then
      -- whichever button has been pressed last
      match s.lastClick with
      | some last => last.clickState
      | none => 1
    else 0
  (s, .mouse { kind, button, position := s.position, clickState, flags := s.flags })

/-- The clicks that a press makes. -/
def pressClickState (s : InputState Point) (button nowUs : ℕ) : ℕ :=
  match s.lastClick with
  | some last =>
    if last.button = button ∧ nowUs - last.atUs ≤ s.config.doubleClickIntervalUs ∧
        s.config.withinSlop last.position s.position then
      min (last.clickState + 1) 3
    else 1
  | none => 1

/-- The clicks that a release carries. -/
def releaseClickState (s : InputState Point) (button : ℕ) : ℕ :=
  match s.lastClick with
  | some last => if last.button = button then last.clickState else 1
  | none => 1

def mouseButton (s : InputState Point) (button : ℕ) (down : Bool) (nowUs : ℕ) :
    InputState Point × Post Point :=
  let bit : BitVec 8 := 1#8 <<< min button 7
  let s := { s with buttons := if down then s.buttons ||| bit else s.buttons &&& ~~~bit }
  if down then
    let clickState := s.pressClickState button nowUs
    let s := { s with lastClick := some ⟨button, nowUs, s.position, clickState⟩ }
    (s, .mouse ⟨.down, cgButton button, s.position, clickState, s.flags⟩)
  else (s, .mouse ⟨.up, cgButton button, s.position, s.releaseClickState button, s.flags⟩)

def wheel (s : InputState Point) (dx dy : ℤ) : InputState Point × Post Point :=
  let (linesDy, linesDx) := (wheelToLines dy, wheelToLines dx)
  (s, if linesDy = 0 ∧ linesDx = 0 then .nothing else .scroll linesDy linesDx s.flags)

end InputState

end Sardp.MacInput
