import Sardp.Input.State
import Sardp.Library.Histories
import Sardp.Session.Permission

/-!
# Injecting the input

The server injects the input of the client into its desktop (`InputInjection` in
`sardp-server.rs`), as far as the permissions of the moment, the mode of the input method, and the
rule on keys that make a character let it through (`InputInjection.letsThrough`). What a message
does to the keys that are down is the same for those it has recorded and for those of the desktop
(`InputInjection.mem_pressed_handle`, `InputInjection.last_emitted_handle`), so the two agree after
any calls (`InputInjection.tracks_run`).

The counters are left out, which are for the log, and the sink is the list of what it has been
given, in order.
-/

namespace Sardp

open Histories

/-- An event for the sink, after all decisions. -/
inductive SinkEvent
  | key (hidUsage : ℕ) (down : Bool)
  | text (text : String)
  | mouseMove (x y : ℤ)
  | mouseButton (button : ℕ) (down : Bool)
  | wheel (dx dy : ℤ)
  deriving DecidableEq

/-- The event of a release. -/
def Release.emission : Release → SinkEvent
  | .key hidUsage => .key hidUsage false
  | .button number => .mouseButton number false

/-- The input of a session: the mode, the keys that are down, and the events the sink has been
    given. -/
structure InputInjection where
  ime : ImeModeSm
  pressed : PressedInputs
  emitted : List SinkEvent
  deriving DecidableEq

namespace InputInjection

def new : InputInjection := ⟨.new, .new, []⟩

def emit (s : InputInjection) (event : SinkEvent) : InputInjection :=
  { s with emitted := s.emitted ++ [event] }

/-- A message on the input stream, under the permissions of the moment. The errors are
    violations of the protocol. -/
def handle (s : InputInjection) (message : InputMessage) (permissionSm : PermissionSm) :
    Except ReasonCode Unit × InputInjection :=
  let keyboard := permissionSm.isGranted Bit.INPUT_KEYBOARD
  let mouse := permissionSm.isGranted Bit.INPUT_MOUSE
  match message with
  | .imeModeChange change => (.ok (), { s with ime := s.ime.onModeChange change })
  | .key key =>
    let (mode, ime) := s.ime.modeFor key.header.eventId
    let s := { s with ime }
    if !keyboard then (.ok (), s)
    -- the character comes as text
    else if !shouldInjectKey mode key.scancode key.modifiers then (.ok (), s)
    else
      let s := { s with pressed := s.pressed.onKey key.scancode key.down }
      (.ok (), s.emit (.key key.scancode key.down))
  | .text text =>
    let (mode, ime) := s.ime.modeFor text.header.eventId
    let s := { s with ime }
    match ImeModeSm.checkTextAllowed mode with
    | .error reason => (.error reason, s)
    | .ok () => if !keyboard then (.ok (), s) else (.ok (), s.emit (.text text.text))
  | .imeComposition composition =>
    let (mode, ime) := s.ime.modeFor composition.header.eventId
    let s := { s with ime }
    match ImeModeSm.checkTextAllowed mode with
    | .error reason => (.error reason, s)
    -- granted or not: nothing to inject, the text follows when it is composed
    | .ok () => (.ok (), s)
  | .mouseMove m => if !mouse then (.ok (), s) else (.ok (), s.emit (.mouseMove m.x m.y))
  | .mouseButton b =>
    if !mouse then (.ok (), s)
    else
      let s := { s with pressed := s.pressed.onButton b.button b.down }
      -- the position first, so that the click is where the client has made it
      (.ok (), (s.emit (.mouseMove b.x b.y)).emit (.mouseButton b.button b.down))
  | .wheel w => if !mouse then (.ok (), s) else (.ok (), s.emit (.wheel w.dx w.dy))

/-- Releasing everything that is down. -/
def releaseAll (s : InputInjection) : InputInjection :=
  let (releases, pressed) := s.pressed.takeReleases
  releases.foldl (fun s release => s.emit release.emission) { s with pressed }

/-- A call. -/
inductive Call
  | handle (message : InputMessage) (permissionSm : PermissionSm)
  | releaseAll

def call (s : InputInjection) : Call → InputInjection
  | .handle message permissionSm => (s.handle message permissionSm).2
  | .releaseAll => s.releaseAll

/-- The input after calls, whatever they return. -/
def run (calls : List Call) : InputInjection := calls.foldl call new

/-- The message that is handled. -/
def Call.message : Call → Option InputMessage
  | .handle message _ => some message
  | .releaseAll => none

/-- The messages handled, in order. -/
def handled (calls : List Call) : List InputMessage := calls.filterMap Call.message

end InputInjection

/-! ## What a message does -/

/-- The number of an event that is handled under a mode. -/
def InputMessage.modeEventId : InputMessage → Option ℕ
  | .key e => some e.header.eventId
  | .text e => some e.header.eventId
  | .imeComposition e => some e.header.eventId
  | _ => none

/-- The modes after a message. -/
def ImeModeSm.onMessage (sm : ImeModeSm) (m : InputMessage) : ImeModeSm :=
  match m with
  | .imeModeChange change => sm.onModeChange change
  | _ =>
    match m.modeEventId with
    | some eventId => (sm.modeFor eventId).2
    | none => sm

/-- The key or button an event of the sink presses or releases. -/
def SinkEvent.signal (e : SinkEvent) (k : Release) : Option Bool :=
  match e with
  | .key hidUsage down => if k = .key hidUsage then some down else none
  | .mouseButton button down => if k = .button button then some down else none
  | _ => none

/-- The key or button a message is about. -/
def InputMessage.signal (message : InputMessage) (k : Release) : Option Bool :=
  match message with
  | .key e => if k = .key e.scancode then some e.down else none
  | .mouseButton b => if k = .button b.button then some b.down else none
  | _ => none

namespace InputInjection

/-- A key or button is let through to the sink: with the permission, and, for a key, if it is
    to be injected. -/
def letsThrough (s : InputInjection) (message : InputMessage) (permissionSm : PermissionSm) : Bool :=
  match message with
  | .key key => permissionSm.isGranted Bit.INPUT_KEYBOARD &&
      shouldInjectKey (s.ime.modeFor key.header.eventId).1 key.scancode key.modifiers
  | .mouseButton _ => permissionSm.isGranted Bit.INPUT_MOUSE
  | _ => false

/-- What a message does to a key or button: what it signals, if it is let through. -/
def effect (s : InputInjection) (message : InputMessage) (permissionSm : PermissionSm)
    (k : Release) : Option Bool :=
  if s.letsThrough message permissionSm then message.signal k else none

variable {s : InputInjection} {message : InputMessage} {permissionSm : PermissionSm} {k : Release}

theorem handle_key (key : KeyEvent) : (s.handle (.key key) permissionSm).2 =
    let s' := { s with ime := (s.ime.modeFor key.header.eventId).2 }
    if s.letsThrough (.key key) permissionSm then
      { s' with pressed := s.pressed.onKey key.scancode key.down }.emit (.key key.scancode key.down)
    else s' := by
  simp only [handle, letsThrough, Bool.and_eq_true, Bool.not_eq_true']
  by_cases hgranted : permissionSm.isGranted Bit.INPUT_KEYBOARD
  · by_cases hinject : shouldInjectKey (s.ime.modeFor key.header.eventId).1 key.scancode
      key.modifiers
    · simp [hgranted, hinject]
    · simp [hgranted, hinject]
  · simp [hgranted]

theorem handle_mouseButton (b : MouseButton) : (s.handle (.mouseButton b) permissionSm).2 =
    if s.letsThrough (.mouseButton b) permissionSm then
      ({ s with pressed := s.pressed.onButton b.button b.down }.emit (.mouseMove b.x b.y)).emit
        (.mouseButton b.button b.down)
    else s := by
  simp only [handle, letsThrough, Bool.not_eq_true']
  by_cases hgranted : permissionSm.isGranted Bit.INPUT_MOUSE
  · simp [hgranted]
  · simp [hgranted]

/-- A message that is about no key or button records none, and emits nothing about one. -/
theorem handle_of_signal_eq_none (h : ∀ k, message.signal k = none) :
    (s.handle message permissionSm).2.pressed = s.pressed ∧
      ∀ k, last SinkEvent.signal (s.handle message permissionSm).2.emitted k =
        last SinkEvent.signal s.emitted k := by
  cases message with
  | key key => simpa [InputMessage.signal] using h (.key key.scancode)
  | mouseButton b => simpa [InputMessage.signal] using h (.button b.button)
  | text text =>
    simp only [handle]
    split
    · simp
    · split_ifs <;> simp [emit, SinkEvent.signal]
  | imeComposition composition =>
    simp only [handle]
    split <;> simp
  | mouseMove | wheel =>
    simp only [handle]
    split_ifs <;> simp [emit, SinkEvent.signal]
  | imeModeChange change => simp [handle]

theorem mem_pressed_handle : k ∈ (s.handle message permissionSm).2.pressed ↔
    s.effect message permissionSm k = some true ∨
      s.effect message permissionSm k = none ∧ k ∈ s.pressed := by
  by_cases h : ∀ k, message.signal k = none
  · simp [(handle_of_signal_eq_none h).1, effect, h]
  · cases message with
    | key key =>
      rw [handle_key, effect]
      by_cases hlets : s.letsThrough (.key key) permissionSm
      · by_cases hk : k = .key key.scancode <;> simp [hlets, hk, emit, InputMessage.signal]
      · simp [hlets]
    | mouseButton b =>
      rw [handle_mouseButton, effect]
      by_cases hlets : s.letsThrough (.mouseButton b) permissionSm
      · by_cases hk : k = .button b.button <;> simp [hlets, hk, emit, InputMessage.signal]
      · simp [hlets]
    | _ => exact absurd (fun _ => rfl) h

theorem last_emitted_handle (s : InputInjection) (message : InputMessage)
    (permissionSm : PermissionSm) (k : Release) :
    last SinkEvent.signal (s.handle message permissionSm).2.emitted k =
    (s.effect message permissionSm k).or (last SinkEvent.signal s.emitted k) := by
  by_cases h : ∀ k, message.signal k = none
  · simp [(handle_of_signal_eq_none h).2, effect, h]
  · cases message with
    | key key =>
      rw [handle_key, effect]
      by_cases hlets : s.letsThrough (.key key) permissionSm <;>
        simp [hlets, emit, InputMessage.signal, SinkEvent.signal]
    | mouseButton b =>
      rw [handle_mouseButton, effect]
      by_cases hlets : s.letsThrough (.mouseButton b) permissionSm <;>
        simp [hlets, emit, InputMessage.signal, SinkEvent.signal]
    | _ => exact absurd (fun _ => rfl) h

theorem ime_handle : (s.handle message permissionSm).2.ime = s.ime.onMessage message := by
  cases message with
  | key key =>
    rw [handle_key]
    split_ifs <;> rfl
  | text text =>
    simp only [handle]
    split
    · rfl
    · split_ifs <;> rfl
  | imeComposition composition =>
    simp only [handle]
    split <;> rfl
  | mouseButton b =>
    rw [handle_mouseButton]
    split_ifs <;> rfl
  | mouseMove | wheel =>
    simp only [handle]
    split_ifs <;> rfl
  | imeModeChange change => rfl

/-! ## What is down -/

/-- The keys recorded as down are those the sink has last been told to press. -/
def Tracks (s : InputInjection) : Prop := ∀ k, k ∈ s.pressed ↔ Down SinkEvent.signal s.emitted k

theorem releaseAll_eq : s.releaseAll =
    ⟨s.ime, .new, s.emitted ++ s.pressed.takeReleases.1.map Release.emission⟩ := by
  have hfoldl (releases : List Release) (s : InputInjection) :
      releases.foldl (fun s release => s.emit release.emission) s =
        { s with emitted := s.emitted ++ releases.map Release.emission } := by
    induction releases generalizing s with
    | nil => simp
    | cons release releases ih =>
      rw [List.foldl_cons, ih, List.map_cons, List.append_cons]
      rfl
  exact hfoldl ..

theorem last_emitted_releaseAll : last SinkEvent.signal s.releaseAll.emitted k =
    (if k ∈ s.pressed then some false else none).or (last SinkEvent.signal s.emitted k) := by
  have hlast : last SinkEvent.signal (s.pressed.takeReleases.1.map Release.emission) k =
      if k ∈ s.pressed.takeReleases.1 then some false else none := by
    refine last_map (fun k => ?_) (fun k k' hne => ?_)
    · cases k <;> simp [Release.emission, SinkEvent.signal]
    · cases k <;> simp [Release.emission, SinkEvent.signal, hne]
  simp only [releaseAll_eq, last_append, hlast, PressedInputs.mem_takeReleases]

theorem Tracks.handle (h : s.Tracks) (message : InputMessage) (permissionSm : PermissionSm) :
    (s.handle message permissionSm).2.Tracks := by
  intro k
  rw [mem_pressed_handle, h k, Down, Down, last_emitted_handle, Option.or_eq_some_iff]

/-- Releasing what is recorded as down leaves nothing down. -/
theorem Tracks.not_down_releaseAll (h : s.Tracks) (k : Release) :
    ¬Down SinkEvent.signal s.releaseAll.emitted k := by
  intro hdown
  rw [Down, last_emitted_releaseAll] at hdown
  split_ifs at hdown with hk
  · cases hdown
  · exact hk ((h k).2 hdown)

theorem Tracks.releaseAll (h : s.Tracks) : s.releaseAll.Tracks := by
  intro k
  refine iff_of_false ?_ (h.not_down_releaseAll k)
  rw [releaseAll_eq]
  exact PressedInputs.not_mem_new

theorem tracks_new : new.Tracks := by
  intro k
  exact iff_of_false PressedInputs.not_mem_new not_down_nil

theorem Tracks.call (h : s.Tracks) (call : Call) : (s.call call).Tracks := by
  cases call with
  | handle message permissionSm => exact h.handle message permissionSm
  | releaseAll => exact h.releaseAll

@[simp] theorem run_append_singleton (calls : List Call) (call : Call) :
    run (calls ++ [call]) = (run calls).call call := by
  simp [run]

theorem handled_append_singleton (calls : List Call) (call : Call) :
    handled (calls ++ [call]) = handled calls ++ call.message.toList := by
  cases call <;> simp [handled, Call.message]

/-- After any calls, what is recorded as down is what the sink has last been told to press. -/
theorem tracks_run (calls : List Call) : (run calls).Tracks := by
  induction calls using List.reverseRecOn with
  | nil => exact tracks_new
  | append_singleton calls call ih =>
    rw [run_append_singleton]
    exact ih.call call

end InputInjection

end Sardp
