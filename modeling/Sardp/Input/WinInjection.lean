import Sardp.Input.KeyUps
import Sardp.Input.WindowInput
import Sardp.Library.FixedWidth
import Sardp.Library.Utf16

/-!
# Injecting the input on Windows

A thread of the server gives Windows the input of the client, one command after the other
(`sardp-win`, `inject.rs`). A position of the mouse is one in the captured output, and becomes one
in the virtual screen, where each side has 65536 coordinates. The pauses between the units of a
text are left out.

The client may send any position, and no one checks it. The sum with the origin of the output, and
the distance from that of the virtual screen, may overflow, which ends the thread, or gives another
position; and the coordinate is cut down to 32 bits. So every position is given to Windows, as the
closest coordinate there is, exactly if all the client has sent are in range
(`WinInput.positions_exact_iff`). Otherwise a key may stay down (`WinInput.move_keeps_key_down`).
-/

namespace Sardp.WinInput

open FixedWidth

/-! ## What Windows is given -/

inductive KeyFlag
  | scancode
  | extendedKey
  | keyUp
  | unicode
  deriving DecidableEq

inductive MouseFlag
  | move
  | absolute
  | virtualDesk
  | leftDown
  | leftUp
  | rightDown
  | rightUp
  | middleDown
  | middleUp
  | xDown
  | xUp
  | wheel
  | hWheel
  deriving DecidableEq

/-- An event, for Windows. -/
inductive Input
  | keyboard (scan : ℕ) (flags : List KeyFlag)
  | mouse (dx dy : ℤ) (data : BitVec 32) (flags : List MouseFlag)
  deriving DecidableEq

def XBUTTON1 : BitVec 32 := 1

def XBUTTON2 : BitVec 32 := 2

/-- The rectangle all the screens are in. -/
structure VirtualScreen where
  x : ℤ
  y : ℤ
  width : ℤ
  height : ℤ

/-- What Windows answers, by how often it has been asked: whether it takes all events of a call, and
    where the virtual screen is. -/
structure Windows where
  sendInput : ℕ → Bool
  virtualScreen : ℕ → VirtualScreen

/-- The calls with events, and how many positions there have been. -/
structure Injector where
  calls : List (List Input)
  positions : ℕ
  deriving DecidableEq

namespace Injector

def new : Injector := ⟨[], 0⟩

/-- A call with events; it fails if Windows does not take all of them. -/
def sendInputs (win : Windows) (s : Injector) (inputs : List Input) : Bool × Injector :=
  (win.sendInput s.calls.length, { s with calls := s.calls ++ [inputs] })

end Injector

/-! ## Commands -/

/-- A command to the thread. -/
inductive InjectCommand
  | key (hidUsage : ℕ) (down : Bool)
  | text (text : String)
  /-- A position in the captured output. -/
  | mouseMove (x y : ℤ)
  | mouseButton (button : ℕ) (down : Bool)
  | wheel (dx dy : ℤ)
  deriving DecidableEq

/-- The scan code of a key, and whether it is extended. -/
def hidToScancode (hidUsage : ℕ) : Option (ℕ × Bool) :=
  (TABLE.find? fun (hid, _, _) => hid = hidUsage).map Prod.snd

/-- A coordinate in the virtual screen; `none` if that overflows, and the program panics. The
    product is one of 64 bits, which it fits. -/
def absPosition (mode : Overflow) (outputOrigin vsOrigin vsSize pos : ℤ) : Option ℤ := do
  let screenPos ← Overflow.settle 31 mode (outputOrigin + pos)
  let distance ← Overflow.settle 31 mode (screenPos.val - vsOrigin)
  return wrap 31 ((distance.val * 65535).tdiv (max vsSize 1))

/-- The units of a text, each pressed and released, until Windows does not take one. -/
def typeUnits (win : Windows) (s : Injector) : List ℕ → Bool × Injector
  | [] => (true, s)
  | unit :: units =>
    match s.sendInputs win
        [.keyboard unit [.unicode], .keyboard unit [.unicode, .keyUp]] with
    | (true, s) => typeUnits win s units
    | (false, s) => (false, s)

/-- The flag of a button going down or up, and which of the extra ones it is. -/
def buttonFlags (button : ℕ) (down : Bool) : Option (MouseFlag × BitVec 32) :=
  if button = Button.LEFT then some (if down then .leftDown else .leftUp, 0)
  else if button = Button.RIGHT then some (if down then .rightDown else .rightUp, 0)
  else if button = Button.MIDDLE then some (if down then .middleDown else .middleUp, 0)
  else if button = Button.X1 then some (if down then .xDown else .xUp, XBUTTON1)
  else if button = Button.X2 then some (if down then .xDown else .xUp, XBUTTON2)
  else none

/-- The events of the wheel in the directions it has been turned. -/
def wheelInputs (dx dy : ℤ) : List Input :=
  (if dy ≠ 0 then [.mouse 0 0 (.ofInt 32 dy) [.wheel]] else []) ++
    if dx ≠ 0 then [.mouse 0 0 (.ofInt 32 dx) [.hWheel]] else []

/-- A command, and whether it succeeds; `none` if it panics. -/
def perform (mode : Overflow) (win : Windows) (outputOrigin : ℤ × ℤ) (s : Injector) :
    InjectCommand → Option (Bool × Injector)
  | .key hidUsage down =>
    match hidToScancode hidUsage with
    | none => some (true, s)
    | some (scancode, extended) =>
      some (s.sendInputs win [.keyboard scancode
        (.scancode :: (if extended then [.extendedKey] else []) ++ if down then [] else [.keyUp])])
  | .text text => some (typeUnits win s (Utf16.encode text.toList))
  | .mouseMove x y => do
    let vs := win.virtualScreen s.positions
    let absX ← absPosition mode outputOrigin.1 vs.x vs.width x
    let absY ← absPosition mode outputOrigin.2 vs.y vs.height y
    return { s with positions := s.positions + 1 }.sendInputs win
      [.mouse absX absY 0 [.move, .absolute, .virtualDesk]]
  | .mouseButton button down =>
    match buttonFlags button down with
    | none => some (true, s)
    | some (flag, data) => some (s.sendInputs win [.mouse 0 0 data [flag]])
  | .wheel dx dy =>
    let inputs := wheelInputs dx dy
    if inputs = [] then some (true, s) else some (s.sendInputs win inputs)

/-- The thread, with its commands, which go on if one fails; and whether it gets through them. -/
def work (mode : Overflow) (win : Windows) (outputOrigin : ℤ × ℤ) :
    Injector → List InjectCommand → Injector × Bool
  | s, [] => (s, true)
  | s, command :: commands =>
    match perform mode win outputOrigin s command with
    | none => (s, false)
    | some (_, s) => work mode win outputOrigin s commands

/-! ## Coordinates -/

/-- The coordinate there is closest to the exact one. -/
def exactPosition (outputOrigin vsOrigin vsSize pos : ℤ) : ℤ :=
  saturate 31 (((outputOrigin + pos - vsOrigin) * 65535).tdiv (max vsSize 1))

/-- Nothing overflows, and the coordinate is not cut down to another one. -/
structure InRange (outputOrigin vsOrigin vsSize pos : ℤ) : Prop where
  sum_fits : Fits 31 (outputOrigin + pos)
  distance_fits : Fits 31 (outputOrigin + pos - vsOrigin)
  narrows : QuotientNarrows 31 ((outputOrigin + pos - vsOrigin) * 65535) (max vsSize 1)

section Coordinates

variable {mode : Overflow} {outputOrigin vsOrigin vsSize pos absPos : ℤ}

theorem absPosition_of_fits (hsum : Fits 31 (outputOrigin + pos))
    (hdistance : Fits 31 (outputOrigin + pos - vsOrigin)) :
    absPosition mode outputOrigin vsOrigin vsSize pos =
      some (wrap 31 (((outputOrigin + pos - vsOrigin) * 65535).tdiv (max vsSize 1))) := by
  rw [absPosition, Overflow.settle_of_fits hsum, Option.bind_eq_bind, Option.bind_some,
    Overflow.settle_of_fits hdistance]
  rfl

theorem fits_of_absPosition
    (h : absPosition .panicking outputOrigin vsOrigin vsSize pos = some absPos) :
    Fits 31 (outputOrigin + pos) ∧ Fits 31 (outputOrigin + pos - vsOrigin) := by
  simp only [absPosition, Option.bind_eq_bind, Option.bind_eq_some_iff] at h
  obtain ⟨screenPos, hsum, distance, hdistance, -⟩ := h
  rw [Overflow.settle_panicking_eq_some] at hsum hdistance
  rw [← hsum, ← hdistance]
  exact ⟨screenPos.fits, distance.fits⟩

/-- However the program was built, the coordinate is the closest one exactly in range. -/
theorem absPosition_exact_iff :
    (∀ mode, absPosition mode outputOrigin vsOrigin vsSize pos =
      some (exactPosition outputOrigin vsOrigin vsSize pos)) ↔
      InRange outputOrigin vsOrigin vsSize pos := by
  have hsize : 0 < max vsSize 1 := lt_max_of_lt_right Int.one_pos
  constructor
  · intro h
    obtain ⟨hsum, hdistance⟩ := fits_of_absPosition (h .panicking)
    have hexact := h .panicking
    rw [absPosition_of_fits hsum hdistance] at hexact
    exact ⟨hsum, hdistance, (wrap_tdiv_eq_saturate_iff hsize).1 (Option.some.inj hexact)⟩
  · intro h mode
    rw [absPosition_of_fits h.sum_fits h.distance_fits,
      (wrap_tdiv_eq_saturate_iff hsize).2 h.narrows]
    rfl

end Coordinates

/-! ## Positions -/

/-- The position an event moves the mouse to. -/
def Input.position? : Input → Option (ℤ × ℤ)
  | .keyboard _ _ => none
  | .mouse dx dy _ flags => if .absolute ∈ flags then some (dx, dy) else none

/-- The positions Windows has been given. -/
def Injector.absPositions (s : Injector) : List (ℤ × ℤ) :=
  s.calls.flatten.filterMap Input.position?

/-- The position of a command. -/
def InjectCommand.position? : InjectCommand → Option (ℤ × ℤ)
  | .mouseMove x y => some (x, y)
  | _ => none

section Thread

variable {mode : Overflow} {win : Windows} {outputOrigin : ℤ × ℤ} {s s' : Injector}
  {command : InjectCommand} {commands : List InjectCommand} {ok : Bool}

/-- The coordinates of a position, each the closest there is. -/
def exactPositionAt (outputOrigin : ℤ × ℤ) (vs : VirtualScreen) (position : ℤ × ℤ) : ℤ × ℤ :=
  (exactPosition outputOrigin.1 vs.x vs.width position.1,
    exactPosition outputOrigin.2 vs.y vs.height position.2)

/-- The closest coordinates of positions, when there have been some before. -/
def exactPositions (win : Windows) (outputOrigin : ℤ × ℤ) : ℕ → List (ℤ × ℤ) → List (ℤ × ℤ)
  | _, [] => []
  | n, position :: positions =>
    exactPositionAt outputOrigin (win.virtualScreen n) position ::
      exactPositions win outputOrigin (n + 1) positions

/-- Both coordinates as they are computed. -/
def absPositionAt (mode : Overflow) (outputOrigin : ℤ × ℤ) (vs : VirtualScreen)
    (position : ℤ × ℤ) : Option (ℤ × ℤ) := do
  let absX ← absPosition mode outputOrigin.1 vs.x vs.width position.1
  let absY ← absPosition mode outputOrigin.2 vs.y vs.height position.2
  return (absX, absY)

theorem absPositions_sendInputs (inputs : List Input) :
    (s.sendInputs win inputs).2.absPositions =
      s.absPositions ++ inputs.filterMap Input.position? := by
  rw [Injector.absPositions, Injector.sendInputs, List.flatten_append, List.filterMap_append,
    List.flatten_singleton]
  rfl

/-- No positions in between. -/
def SamePositions (s s' : Injector) : Prop :=
  s'.positions = s.positions ∧ s'.absPositions = s.absPositions

theorem samePositions_sendInputs {inputs : List Input}
    (h : ∀ input ∈ inputs, input.position? = none) :
    SamePositions s (s.sendInputs win inputs).2 := by
  refine ⟨rfl, ?_⟩
  rw [absPositions_sendInputs, List.filterMap_eq_nil_iff.2 h, List.append_nil]

/-- Typing moves nothing. -/
theorem samePositions_typeUnits (units : List ℕ) :
    SamePositions s (typeUnits win s units).2 := by
  induction units generalizing s with
  | nil => exact ⟨rfl, rfl⟩
  | cons unit units ih =>
    have hsend : SamePositions s
        (s.sendInputs win [.keyboard unit [.unicode], .keyboard unit [.unicode, .keyUp]]).2 :=
      samePositions_sendInputs (by simp [Input.position?])
    rw [typeUnits]
    generalize s.sendInputs win [.keyboard unit [.unicode], .keyboard unit [.unicode, .keyUp]] =
      sent at hsend ⊢
    obtain ⟨ok, s'⟩ := sent
    cases ok with
    | true => exact ⟨ih.1.trans hsend.1, ih.2.trans hsend.2⟩
    | false => exact hsend

theorem buttonFlags_ne_absolute {button : ℕ} {down : Bool} {entry : MouseFlag × BitVec 32}
    (h : buttonFlags button down = some entry) : entry.1 ≠ .absolute := by
  rw [buttonFlags] at h
  split_ifs at h <;> cases h <;> cases down <;> simp

/-- A command that is no position does not panic, and moves nothing. -/
theorem perform_of_position?_eq_none (mode : Overflow) (win : Windows) (outputOrigin : ℤ × ℤ)
    (s : Injector) (h : command.position? = none) :
    ∃ ok s', perform mode win outputOrigin s command = some (ok, s') ∧ SamePositions s s' := by
  have hsend (inputs : List Input) (hinputs : ∀ input ∈ inputs, input.position? = none) :
      ∃ ok s', some (s.sendInputs win inputs) = some (ok, s') ∧ SamePositions s s' :=
    ⟨_, (s.sendInputs win inputs).2, rfl, samePositions_sendInputs hinputs⟩
  cases command with
  | mouseMove x y => cases h
  | text text => exact ⟨_, _, rfl, samePositions_typeUnits _⟩
  | key hidUsage down =>
    rw [perform]
    cases hidToScancode hidUsage with
    | none => exact ⟨_, _, rfl, rfl, rfl⟩
    | some entry => exact hsend _ (by simp [Input.position?])
  | mouseButton button down =>
    rw [perform]
    cases hflags : buttonFlags button down with
    | none => exact ⟨_, _, rfl, rfl, rfl⟩
    | some entry => exact hsend _ (by simp [Input.position?, (buttonFlags_ne_absolute hflags).symm])
  | wheel dx dy =>
    by_cases hempty : wheelInputs dx dy = []
    · exact ⟨true, s, if_pos hempty, rfl, rfl⟩
    · rw [perform, if_neg hempty]
      refine hsend _ ?_
      unfold wheelInputs
      split_ifs <;> simp [Input.position?]

/-- A position is given to Windows as it is computed. -/
theorem perform_of_position?_eq_some (mode : Overflow) (win : Windows) (outputOrigin : ℤ × ℤ)
    (s : Injector) {position : ℤ × ℤ} (h : command.position? = some position) :
    perform mode win outputOrigin s command =
      (absPositionAt mode outputOrigin (win.virtualScreen s.positions) position).map
        fun (absX, absY) => { s with positions := s.positions + 1 }.sendInputs win
          [.mouse absX absY 0 [.move, .absolute, .virtualDesk]] := by
  cases command with
  | mouseMove x y =>
    cases h
    rw [perform, absPositionAt]
    cases absPosition mode outputOrigin.1 _ _ x with
    | none => rfl
    | some absX => cases absPosition mode outputOrigin.2 _ _ y <;> rfl
  | _ => cases h

/-- What a command does to the positions: nothing, or it adds one, or panics. -/
theorem perform_cases (mode : Overflow) (win : Windows) (outputOrigin : ℤ × ℤ) (s : Injector)
    (command : InjectCommand) :
    (command.position? = none ∧
      ∃ ok s', perform mode win outputOrigin s command = some (ok, s') ∧ SamePositions s s') ∨
    (∃ position, command.position? = some position ∧
      absPositionAt mode outputOrigin (win.virtualScreen s.positions) position = none ∧
      perform mode win outputOrigin s command = none) ∨
    ∃ position absPos, command.position? = some position ∧
      absPositionAt mode outputOrigin (win.virtualScreen s.positions) position = some absPos ∧
      ∃ ok s', perform mode win outputOrigin s command = some (ok, s') ∧
        s'.positions = s.positions + 1 ∧ s'.absPositions = s.absPositions ++ [absPos] := by
  cases h : command.position? with
  | none => exact .inl ⟨rfl, perform_of_position?_eq_none mode win outputOrigin s h⟩
  | some position =>
    have hperform := perform_of_position?_eq_some mode win outputOrigin s h
    cases habs : absPositionAt mode outputOrigin (win.virtualScreen s.positions) position with
    | none =>
      rw [habs] at hperform
      exact .inr (.inl ⟨position, rfl, habs, hperform⟩)
    | some absPos =>
      have hadd : ({ s with positions := s.positions + 1 }.sendInputs win
          [.mouse absPos.1 absPos.2 0 [.move, .absolute, .virtualDesk]]).2.absPositions =
            s.absPositions ++ [absPos] := absPositions_sendInputs _
      rw [habs] at hperform
      exact .inr (.inr ⟨position, absPos, rfl, habs, _, _, hperform, rfl, hadd⟩)

theorem work_of_some (h : perform mode win outputOrigin s command = some (ok, s')) :
    work mode win outputOrigin s (command :: commands) =
      work mode win outputOrigin s' commands := by
  rw [work, h]

theorem work_of_none (h : perform mode win outputOrigin s command = none) :
    work mode win outputOrigin s (command :: commands) = (s, false) := by
  rw [work, h]

/-- Positions are only added. -/
theorem absPositions_work (h : work mode win outputOrigin s commands = (s', ok)) :
    s.absPositions <+: s'.absPositions := by
  induction commands generalizing s with
  | nil =>
    cases h
    exact List.prefix_rfl
  | cons command commands ih =>
    obtain ⟨-, _, next, hperform, -, hsame⟩ | ⟨position, -, -, hperform⟩ |
      ⟨position, absPos, -, -, _, next, hperform, -, hadd⟩ :=
      perform_cases mode win outputOrigin s command
    · rw [work_of_some hperform] at h
      exact hsame ▸ ih h
    · rw [work_of_none hperform] at h
      cases h
      exact List.prefix_rfl
    · rw [work_of_some hperform] at h
      exact (List.prefix_append _ [absPos]).trans (hadd ▸ ih h)

/-- The thread gets through its commands with the closest coordinates, exactly if they are computed
    at every position. -/
theorem work_exact_iff (mode : Overflow) (win : Windows) (outputOrigin : ℤ × ℤ) (s : Injector)
    (commands : List InjectCommand) :
    (∃ s', work mode win outputOrigin s commands = (s', true) ∧
      s'.absPositions = s.absPositions ++ exactPositions win outputOrigin s.positions
        (commands.filterMap InjectCommand.position?)) ↔
      ∀ n position, (commands.filterMap InjectCommand.position?)[n]? = some position →
        absPositionAt mode outputOrigin (win.virtualScreen (s.positions + n)) position =
          some (exactPositionAt outputOrigin (win.virtualScreen (s.positions + n)) position) := by
  induction commands generalizing s with
  | nil => exact iff_of_true ⟨s, rfl, (List.append_nil _).symm⟩ fun n position h => by cases h
  | cons command commands ih =>
    obtain ⟨hnone, ok, s', hperform, hsame, hsame'⟩ | ⟨position, hsome, habs, hperform⟩ |
      ⟨position, absPos, hsome, habs, ok, s', hperform, hnext, hadd⟩ :=
      perform_cases mode win outputOrigin s command
    · rw [work_of_some hperform, List.filterMap_cons_none hnone, ← hsame, ← hsame']
      exact ih s'
    · -- The thread has ended at a position that is not computed.
      rw [work_of_none hperform, List.filterMap_cons_some hsome]
      refine iff_of_false ?_ fun h => ?_
      · rintro ⟨s', h, -⟩
        cases h
      · have hexact := h 0 position rfl
        rw [Nat.add_zero, habs] at hexact
        cases hexact
    · rw [work_of_some hperform, List.filterMap_cons_some hsome, exactPositions]
      have hrest := ih s'
      rw [hnext, hadd, List.append_assoc, List.singleton_append] at hrest
      have hshift (n : ℕ) : s.positions + (n + 1) = s.positions + 1 + n := by omega
      constructor
      · rintro ⟨s'', hwork, heq⟩
        -- What Windows is given for this position stays the first after those before.
        have hstart := absPositions_work hwork
        rw [hadd, heq, List.prefix_append_right_inj, List.cons_prefix_cons] at hstart
        rw [← hstart.1] at heq
        rintro (_ | n) p hn
        · cases hn
          rw [Nat.add_zero, habs, hstart.1]
        · rw [hshift]
          exact hrest.1 ⟨s'', hwork, heq⟩ n p hn
      · intro h
        have hexact := h 0 position rfl
        rw [Nat.add_zero, habs, Option.some.injEq] at hexact
        rw [← hexact]
        refine hrest.2 fun n position hn => ?_
        rw [← hshift]
        exact h (n + 1) position hn

end Thread

theorem absPositionAt_eq_some {mode : Overflow} {outputOrigin : ℤ × ℤ} {vs : VirtualScreen}
    {position absPos : ℤ × ℤ} : absPositionAt mode outputOrigin vs position = some absPos ↔
      absPosition mode outputOrigin.1 vs.x vs.width position.1 = some absPos.1 ∧
        absPosition mode outputOrigin.2 vs.y vs.height position.2 = some absPos.2 := by
  simp only [absPositionAt, Option.bind_eq_bind, Option.bind_eq_some_iff, Option.pure_def,
    Option.some.injEq]
  constructor
  · rintro ⟨absX, hx, absY, hy, rfl⟩
    exact ⟨hx, hy⟩
  · rintro ⟨hx, hy⟩
    exact ⟨absPos.1, hx, absPos.2, hy, rfl⟩

/-- Both coordinates are the closest ones exactly in range. -/
theorem absPositionAt_exact_iff {outputOrigin : ℤ × ℤ} {vs : VirtualScreen} {position : ℤ × ℤ} :
    (∀ mode, absPositionAt mode outputOrigin vs position =
      some (exactPositionAt outputOrigin vs position)) ↔
      InRange outputOrigin.1 vs.x vs.width position.1 ∧
        InRange outputOrigin.2 vs.y vs.height position.2 := by
  simp only [absPositionAt_eq_some, forall_and]
  exact and_congr absPosition_exact_iff absPosition_exact_iff

end Sardp.WinInput

/-! ## Positions from the client -/

namespace Sardp

open WinInput

/-- The command for an event of the sink. -/
def SinkEvent.command : SinkEvent → InjectCommand
  | .key hidUsage down => .key hidUsage down
  | .text s => .text s
  | .mouseMove x y => .mouseMove x y
  | .mouseButton button down => .mouseButton button down
  | .wheel dx dy => .wheel dx dy

/-- The position in a message. -/
def InputMessage.position? : InputMessage → Option (ℤ × ℤ)
  | .mouseMove m => some (m.x, m.y)
  | .mouseButton b => some (b.x, b.y)
  | _ => none

namespace InputInjection

/-- The commands calls lead to. -/
def commands (calls : List Call) : List InjectCommand := (run calls).emitted.map SinkEvent.command

/-- The position in a message that is handled with the permission. -/
def Call.position? : Call → Option (ℤ × ℤ)
  | .handle message permissionSm =>
    if permissionSm.isGranted Bit.INPUT_MOUSE then message.position? else none
  | .releaseAll => none

variable {s : InputInjection}

/-- The positions the sink has been given. -/
def positions (s : InputInjection) : List (ℤ × ℤ) :=
  s.emitted.filterMap fun event => event.command.position?

theorem positions_emit (s : InputInjection) (event : SinkEvent) :
    (s.emit event).positions = s.positions ++ event.command.position?.toList := by
  rw [positions, emit, List.filterMap_append]
  cases h : event.command.position? <;> simp [positions, h]

theorem positions_emit_of_none {event : SinkEvent} (h : event.command.position? = none) :
    (s.emit event).positions = s.positions := by
  rw [positions_emit, h, Option.toList_none, List.append_nil]

/-- A message with no position gives the sink none. -/
theorem positions_handle_of_none {message : InputMessage} (h : message.position? = none)
    (permissionSm : PermissionSm) : (s.handle message permissionSm).2.positions = s.positions := by
  cases message with
  | mouseMove | mouseButton => cases h
  | key key =>
    rw [handle_key]
    dsimp only
    split_ifs
    · exact positions_emit_of_none rfl
    · rfl
  | text text =>
    simp only [handle]
    split
    · rfl
    · split_ifs
      · rfl
      · exact positions_emit_of_none rfl
  | imeComposition composition =>
    simp only [handle]
    split <;> rfl
  | wheel w =>
    simp only [handle]
    split_ifs
    · rfl
    · exact positions_emit_of_none rfl
  | imeModeChange change => rfl

theorem positions_handle (message : InputMessage) (permissionSm : PermissionSm) :
    (s.handle message permissionSm).2.positions =
      s.positions ++ (Call.handle message permissionSm).position?.toList := by
  cases h : message.position? with
  | none =>
    rw [positions_handle_of_none h, Call.position?, h, ite_self, Option.toList_none,
      List.append_nil]
  | some position =>
    cases message with
    | mouseMove m =>
      simp only [handle, Call.position?, Bool.not_eq_true']
      cases permissionSm.isGranted Bit.INPUT_MOUSE with
      | false => exact (List.append_nil _).symm
      | true => exact positions_emit s _
    | mouseButton b =>
      rw [handle_mouseButton, Call.position?, letsThrough]
      split_ifs
      · rw [positions_emit_of_none rfl, positions_emit]
        rfl
      · exact (List.append_nil _).symm
    | _ => cases h

theorem positions_releaseAll : s.releaseAll.positions = s.positions := by
  have hnone (releases : List Release) :
      (releases.map Release.emission).filterMap (fun event => event.command.position?) = [] := by
    rw [List.filterMap_map, List.filterMap_eq_nil_iff]
    rintro (_ | _) _ <;> rfl
  rw [releaseAll_eq, positions, List.filterMap_append, hnone, List.append_nil]
  rfl

/-- The positions the client sends are given to the sink as they are. -/
theorem positions_run (calls : List Call) :
    (run calls).positions = calls.filterMap Call.position? := by
  induction calls using List.reverseRecOn with
  | nil => rfl
  | append_singleton calls call ih =>
    rw [run_append_singleton, List.filterMap_append, ← ih, List.filterMap_cons]
    cases call with
    | handle message permissionSm =>
      refine (positions_handle message permissionSm).trans ?_
      cases (Call.handle message permissionSm).position? <;> rfl
    | releaseAll => exact positions_releaseAll.trans (List.append_nil _).symm

end InputInjection

namespace WinInput

open InputInjection

/-- Whatever the client sends, and however the program was built: the thread gets through its
    commands, and gives Windows the closest coordinates of every position, exactly if all positions
    are in range. -/
theorem positions_exact_iff (win : Windows) (outputOrigin : ℤ × ℤ) (calls : List Call) :
    (∀ mode, ∃ s, work mode win outputOrigin .new (commands calls) = (s, true) ∧
      s.absPositions = exactPositions win outputOrigin 0 (calls.filterMap Call.position?)) ↔
      ∀ n x y, (calls.filterMap Call.position?)[n]? = some (x, y) →
        InRange outputOrigin.1 (win.virtualScreen n).x (win.virtualScreen n).width x ∧
          InRange outputOrigin.2 (win.virtualScreen n).y (win.virtualScreen n).height y := by
  have hpositions : (commands calls).filterMap InjectCommand.position? =
      calls.filterMap Call.position? := by
    rw [commands, List.filterMap_map]
    exact positions_run calls
  have hwork (mode : Overflow) := work_exact_iff mode win outputOrigin .new (commands calls)
  have hfirst (n : ℕ) : Injector.new.positions + n = n := Nat.zero_add n
  simp only [hpositions, hfirst] at hwork
  refine (forall_congr' hwork).trans ⟨fun h n x y hn => ?_, fun h mode n position hn => ?_⟩
  · exact absPositionAt_exact_iff.1 fun mode => h mode n (x, y) hn
  · exact absPositionAt_exact_iff.2 (h n position.1 position.2 hn) mode

/-- A modifier is pressed, and the mouse moved as far to the right as a message can tell, on a
    screen to the right of another one: the modifier is not let go of in the end. -/
theorem move_keeps_key_down :
    let win : Windows := ⟨fun _ => true, fun _ => ⟨0, 0, 3840, 1080⟩⟩
    let calls := [keyCall 1 0xE0 true KeyModifier.CTRL,
      .handle (.mouseMove ⟨⟨2⟩, 2147483647, 0⟩) (.new Bit.INPUT_MOUSE), .releaseAll]
    commands calls = [.key 0xE0 true, .mouseMove 2147483647 0, .key 0xE0 false] ∧
      work .panicking win (1920, 0) .new (commands calls) =
        (⟨[[.keyboard 0x1D [.scancode]]], 0⟩, false) ∧
      ¬∀ mode, ∃ s, work mode win (1920, 0) .new (commands calls) = (s, true) ∧
        s.absPositions = exactPositions win (1920, 0) 0 (calls.filterMap Call.position?) := by
  intro win calls
  have hcommands : commands calls = [.key 0xE0 true, .mouseMove 2147483647 0, .key 0xE0 false] := by
    decide
  have hwork : work .panicking win (1920, 0) .new (commands calls) =
      (⟨[[.keyboard 0x1D [.scancode]]], 0⟩, false) := by
    rw [hcommands]
    decide
  refine ⟨hcommands, hwork, fun h => ?_⟩
  obtain ⟨s, hs, -⟩ := h .panicking
  rw [hwork] at hs
  cases hs

end WinInput

end Sardp
