import Mathlib.Algebra.Group.Nat.Defs
import Sardp.Input.Injection
import Sardp.Input.WindowInput

/-!
# Forwarding the input

The client forwards the input of its window to the server (`InputForwarder` in
`sardp-client.rs`), the permissions of the session allowing, and records the keys and buttons it has
reported as down, to let go of them when the focus is lost or the client shuts down
(`InputForwarder.releaseAll`).

What it lets go of, the server takes as any other event: a key without a modifier, and a button at
the position `(0, 0)`. So everything is up afterwards, and the pointer where it was, exactly if no
key that makes a character was down at the server, as part of a shortcut, and no button down, or the
pointer at that position anyway (`InputForwarder.released_in_place_iff`).

That a message cannot be written, which ends the client, is left out.
-/

namespace Sardp

open Histories

/-- What the client keeps to forward its input, and the messages it has sent. -/
structure InputForwarder where
  nextEventId : ℕ
  pressed : PressedInputs
  keyboard : Bool
  mouse : Bool
  streamSize : ℕ × ℕ
  windowSize : ℕ × ℕ
  sent : List InputMessage

namespace InputForwarder

def new (grantedPermissions : PermissionSet) (streamSize windowSize : ℕ × ℕ) : InputForwarder where
  nextEventId := 1
  pressed := .new
  keyboard := grantedPermissions &&& Bit.INPUT_KEYBOARD ≠ 0
  mouse := grantedPermissions &&& Bit.INPUT_MOUSE ≠ 0
  streamSize
  windowSize
  sent := []

/-- Sending a message, as the next event. -/
def send (s : InputForwarder) (message : InputHeader → InputMessage) : InputForwarder :=
  { s with nextEventId := s.nextEventId + 1, sent := s.sent ++ [message ⟨s.nextEventId⟩] }

/-- A coordinate of the window in the stream, as a number of 32 bits. -/
def scale (v : ℤ) (window stream : ℕ) : ℤ :=
  let mapped := (v * stream).tdiv (max window 1 : ℕ)
  (max 0 (min mapped (stream - 1 : ℕ))).bmod (2 ^ 32)

/-- A position in the window as one in the stream. -/
def map (s : InputForwarder) (x y : ℤ) : ℤ × ℤ :=
  (scale x s.windowSize.1 s.streamSize.1, scale y s.windowSize.2 s.streamSize.2)

/-- The message that lets go of something. -/
def release (header : InputHeader) : Release → InputMessage
  | .key hidUsage => .key ⟨header, false, hidUsage, 0, 0⟩
  | .button button => .mouseButton ⟨header, button, false, 0, 0⟩

/-- Letting go of everything that was reported as down. -/
def releaseAll (s : InputForwarder) : InputForwarder :=
  let (releases, pressed) := s.pressed.takeReleases
  releases.foldl (fun s k => s.send (release · k)) { s with pressed }

/-- Forwarding an input of the window. -/
def forward (s : InputForwarder) : WindowInput → InputForwarder
  | .key down hidUsage virtualKey modifiers =>
    if !s.keyboard then s
    else { s with pressed := s.pressed.onKey hidUsage down }.send fun header =>
      .key ⟨header, down, hidUsage, virtualKey, modifiers⟩
  | .text text => if !s.keyboard then s else s.send fun header => .text ⟨header, text⟩
  | .imeComposition text caret =>
    if !s.keyboard then s else s.send fun header => .imeComposition ⟨header, text, caret⟩
  | .mouseMove x y =>
    if !s.mouse then s
    else
      let (x, y) := s.map x y
      s.send fun header => .mouseMove ⟨header, x, y⟩
  | .mouseButton button down x y =>
    if !s.mouse then s
    else
      let (x, y) := s.map x y
      { s with pressed := s.pressed.onButton button down }.send fun header =>
        .mouseButton ⟨header, button, down, x, y⟩
  | .wheel dx dy => if !s.mouse then s else s.send fun header => .wheel ⟨header, dx, dy, false⟩
  | .focusLost => if !s.pressed.isEmpty then s.releaseAll else s

/-- The client after inputs of the window. -/
def run (grantedPermissions : PermissionSet) (streamSize windowSize : ℕ × ℕ)
    (inputs : List WindowInput) : InputForwarder :=
  inputs.foldl forward (new grantedPermissions streamSize windowSize)

end InputForwarder

/-- The server after it has handled messages, with permissions that do not change. -/
def serve (permissionSm : PermissionSm) (messages : List InputMessage) : InputInjection :=
  InputInjection.run (messages.map (.handle · permissionSm))

/-- The position an event moves the pointer to. -/
def SinkEvent.position : SinkEvent → Option (ℤ × ℤ)
  | .mouseMove x y => some (x, y)
  | _ => none

/-- The last position of the pointer. -/
def pointer (emitted : List SinkEvent) : Option (ℤ × ℤ) :=
  (emitted.filterMap SinkEvent.position).getLast?

/-! ## Letting go of something at the server -/

namespace Release

/-- The permission for a key or a button. -/
def permission : Release → PermissionSet
  | .key _ => Bit.INPUT_KEYBOARD
  | .button _ => Bit.INPUT_MOUSE

/-- A key that makes a character. -/
def isCharacter : Release → Bool
  | .key hidUsage => isCharacterKey hidUsage
  | .button _ => false

/-- What the server gives the sink when the client lets go of something. -/
def letGo (k : Release) : List SinkEvent :=
  match k with
  | .key hidUsage => if isCharacterKey hidUsage then [] else [k.emission]
  | .button _ => [.mouseMove 0 0, k.emission]

end Release

variable {permissionSm : PermissionSm} {k : Release}

theorem serve_append_singleton (messages : List InputMessage) (m : InputMessage) :
    serve permissionSm (messages ++ [m]) =
      ((serve permissionSm messages).handle m permissionSm).2 := by
  rw [serve, List.map_append, List.map_singleton, InputInjection.run_append_singleton]
  rfl

theorem tracks_serve (messages : List InputMessage) : (serve permissionSm messages).Tracks :=
  InputInjection.tracks_run _

/-- A key is let through to a sink that is composed for as part of a shortcut, or if it makes no
    character. -/
theorem letsThrough_key {s : InputInjection} (hime : s.ime = .new) (key : KeyEvent)
    (permissionSm : PermissionSm) :
    s.letsThrough (.key key) permissionSm =
      (permissionSm.isGranted Bit.INPUT_KEYBOARD &&
        (isShortcut key.modifiers || !isCharacterKey key.scancode)) := by
  rw [InputInjection.letsThrough, hime]
  rfl

theorem emitted_handle_release {s : InputInjection} (hime : s.ime = .new)
    (hgranted : permissionSm.isGranted k.permission) (header : InputHeader) :
    (s.handle (InputForwarder.release header k) permissionSm).2.emitted = s.emitted ++ k.letGo := by
  cases k with
  | key hidUsage =>
    have hlets := letsThrough_key hime ⟨header, false, hidUsage, 0, 0⟩ permissionSm
    rw [show permissionSm.isGranted Bit.INPUT_KEYBOARD = true from hgranted, Bool.true_and,
      show isShortcut 0 = false by decide, Bool.false_or] at hlets
    rw [InputForwarder.release, InputInjection.handle_key, hlets, Release.letGo]
    cases isCharacterKey hidUsage <;> simp [InputInjection.emit, Release.emission]
  | button button =>
    have hlets : s.letsThrough (.mouseButton ⟨header, button, false, 0, 0⟩) permissionSm = true :=
      hgranted
    rw [InputForwarder.release, InputInjection.handle_mouseButton, if_pos hlets, Release.letGo]
    simp [InputInjection.emit, Release.emission]

/-- A key or button of a list that is let go of is last released, unless it makes a character. -/
theorem last_flatMap_letGo (ks : List Release) :
    last SinkEvent.signal (ks.flatMap Release.letGo) k =
      if k ∈ ks ∧ k.isCharacter = false then some false else none := by
  have hletGo (k' : Release) : last SinkEvent.signal k'.letGo k =
      if k = k' ∧ k.isCharacter = false then some false else none := by
    cases k' with
    | key hidUsage =>
      by_cases hcharacter : isCharacterKey hidUsage
      · have hne : ¬(k = .key hidUsage ∧ k.isCharacter = false) := by
          rintro ⟨rfl, h⟩
          exact Bool.false_ne_true (h.symm.trans hcharacter)
        rw [Release.letGo, if_pos hcharacter, if_neg hne, last_nil]
      · have hcases : k = .key hidUsage → k.isCharacter = false := by
          rintro rfl
          exact Bool.eq_false_iff.2 hcharacter
        rw [Release.letGo, if_neg hcharacter]
        simp [Release.emission, SinkEvent.signal, and_iff_left_of_imp hcases]
    | button button =>
      have hcases : k = .button button → k.isCharacter = false := by
        rintro rfl
        rfl
      simp [Release.letGo, Release.emission, SinkEvent.signal, and_iff_left_of_imp hcases]
  induction ks with
  | nil => simp
  | cons k' ks ih =>
    simp only [List.flatMap_cons, last_append, ih, hletGo, List.mem_cons]
    cases k.isCharacter with
    | true => simp
    | false =>
      by_cases hks : k ∈ ks
      · simp [hks]
      · simp [hks]

/-! ## The pointer -/

theorem pointer_append (emitted emitted' : List SinkEvent) :
    pointer (emitted ++ emitted') = (pointer emitted').or (pointer emitted) := by
  simp [pointer, List.getLast?_append]

theorem exists_of_pointer {emitted : List SinkEvent} {p : ℤ × ℤ} (h : pointer emitted = some p) :
    ∃ e ∈ emitted, e.position = some p :=
  List.mem_filterMap.1 (List.mem_of_getLast? h)

theorem pointer_ne_none {emitted : List SinkEvent} {e : SinkEvent} {p : ℤ × ℤ} (he : e ∈ emitted)
    (hp : e.position = some p) : pointer emitted ≠ none := by
  intro h
  have hmem : p ∈ emitted.filterMap SinkEvent.position := List.mem_filterMap.2 ⟨e, he, hp⟩
  rw [List.getLast?_eq_none_iff.1 h] at hmem
  cases hmem

/-- Letting go of a list moves the pointer to one position, for the buttons of the list. -/
theorem position_of_mem_letGo {ks : List Release} {e : SinkEvent} {p : ℤ × ℤ}
    (he : e ∈ ks.flatMap Release.letGo) (hp : e.position = some p) :
    p = (0, 0) ∧ ∃ button, .button button ∈ ks := by
  obtain ⟨k, hk, he⟩ := List.mem_flatMap.1 he
  cases k with
  | key hidUsage =>
    rw [Release.letGo] at he
    split_ifs at he
    · cases he
    · cases List.mem_singleton.1 he
      cases hp
  | button button =>
    refine ⟨?_, button, hk⟩
    rcases List.mem_cons.1 he with rfl | he
    · exact (Option.some.inj hp).symm
    · cases List.mem_singleton.1 he
      cases hp

namespace InputForwarder

variable {s : InputForwarder}

/-- What a client has sent, and recorded, and the server made of it, with the same permissions. -/
structure Linked (permissionSm : PermissionSm) (s : InputForwarder) : Prop where
  ime : (serve permissionSm s.sent).ime = .new
  keyboard : s.keyboard = permissionSm.isGranted Bit.INPUT_KEYBOARD
  mouse : s.mouse = permissionSm.isGranted Bit.INPUT_MOUSE
  granted : ∀ k ∈ s.pressed, permissionSm.isGranted k.permission
  /-- The two agree on what is down, but for the keys that make a character. -/
  pressed : ∀ k : Release, k.isCharacter = false →
    (k ∈ s.pressed ↔ k ∈ (serve permissionSm s.sent).pressed)

/-- Letting go of a list, one by one. -/
theorem serve_foldl_release (hime : (serve permissionSm s.sent).ime = .new) {ks : List Release}
    (hgranted : ∀ k ∈ ks, permissionSm.isGranted k.permission) :
    let s' := ks.foldl (fun s k => s.send (release · k)) s
    (serve permissionSm s'.sent).ime = .new ∧
      (serve permissionSm s'.sent).emitted =
        (serve permissionSm s.sent).emitted ++ ks.flatMap Release.letGo ∧
      s'.pressed = s.pressed ∧ s'.keyboard = s.keyboard ∧ s'.mouse = s.mouse := by
  induction ks generalizing s with
  | nil => simp [hime]
  | cons k ks ih =>
    have hserve : serve permissionSm (s.send (release · k)).sent =
        ((serve permissionSm s.sent).handle (release ⟨s.nextEventId⟩ k) permissionSm).2 :=
      serve_append_singleton ..
    have hime' : (serve permissionSm (s.send (release · k)).sent).ime = .new := by
      rw [hserve, InputInjection.ime_handle, hime]
      cases k <;> rfl
    have hemitted := emitted_handle_release hime (hgranted k List.mem_cons_self) ⟨s.nextEventId⟩
    rw [← hserve] at hemitted
    obtain ⟨hime, hks, hs⟩ := ih hime' fun k' hk' => hgranted k' (List.mem_cons_of_mem k hk')
    refine ⟨hime, hks.trans ?_, hs⟩
    rw [hemitted, List.append_assoc, List.flatMap_cons]

theorem linked_new (grantedPermissions : PermissionSet) (streamSize windowSize : ℕ × ℕ) :
    Linked (.new grantedPermissions) (new grantedPermissions streamSize windowSize) where
  ime := rfl
  keyboard := by
    have hb : Bit.INPUT_KEYBOARD ∈ ALL_BITS := by decide
    rw [new, Bool.eq_iff_iff, PermissionSm.isGranted_new hb, decide_eq_true_eq]
  mouse := by
    have hb : Bit.INPUT_MOUSE ∈ ALL_BITS := by decide
    rw [new, Bool.eq_iff_iff, PermissionSm.isGranted_new hb, decide_eq_true_eq]
  granted k hk := absurd hk PressedInputs.not_mem_new
  pressed k _ := iff_of_false PressedInputs.not_mem_new PressedInputs.not_mem_new

/-- Client and server stay linked when they do the same to what is down. -/
theorem Linked.send (h : s.Linked permissionSm) {message : InputHeader → InputMessage}
    (pressed : PressedInputs) (hmode : ∀ header change, message header ≠ .imeModeChange change)
    (hgranted : ∀ k ∈ pressed, permissionSm.isGranted k.permission)
    (hpressed : ∀ header, ∀ k : Release, k.isCharacter = false → (k ∈ pressed ↔
      (serve permissionSm s.sent).effect (message header) permissionSm k = some true ∨
        (serve permissionSm s.sent).effect (message header) permissionSm k = none ∧
          k ∈ s.pressed)) :
    Linked permissionSm ({ s with pressed }.send message) := by
  have hserve : serve permissionSm ({ s with pressed }.send message).sent =
      ((serve permissionSm s.sent).handle (message ⟨s.nextEventId⟩) permissionSm).2 :=
    serve_append_singleton ..
  refine ⟨?_, h.keyboard, h.mouse, hgranted, fun k hk => ?_⟩
  · rw [hserve, InputInjection.ime_handle, h.ime]
    cases hm : message ⟨s.nextEventId⟩ with
    | imeModeChange change => exact absurd hm (hmode _ change)
    | _ => rfl
  · rw [hserve, InputInjection.mem_pressed_handle, ← h.pressed k hk]
    exact hpressed ⟨s.nextEventId⟩ k hk

/-- A message that is about no key or button keeps them linked. -/
theorem Linked.send_of_signal (h : s.Linked permissionSm) {message : InputHeader → InputMessage}
    (hmode : ∀ header change, message header ≠ .imeModeChange change)
    (hsignal : ∀ header k, (message header).signal k = none) :
    Linked permissionSm (s.send message) := by
  refine h.send s.pressed hmode h.granted fun header k _ => ?_
  simp [InputInjection.effect, hsignal]

/-- The client lets go of everything, and the server gives its sink what it makes of that. -/
theorem Linked.serve_releaseAll (h : s.Linked permissionSm) :
    (serve permissionSm s.releaseAll.sent).ime = .new ∧
      (serve permissionSm s.releaseAll.sent).emitted =
        (serve permissionSm s.sent).emitted ++ s.pressed.takeReleases.1.flatMap Release.letGo ∧
      s.releaseAll.pressed = .new ∧ s.releaseAll.keyboard = s.keyboard ∧
      s.releaseAll.mouse = s.mouse :=
  serve_foldl_release (s := { s with pressed := s.pressed.takeReleases.2 }) h.ime
    fun k hk => h.granted k (PressedInputs.mem_takeReleases.1 hk)

/-- After that, the keys that make a character are down as before, and everything else is up. -/
theorem Linked.down_releaseAll (h : s.Linked permissionSm) :
    Down SinkEvent.signal (serve permissionSm s.releaseAll.sent).emitted k ↔
      Down SinkEvent.signal (serve permissionSm s.sent).emitted k ∧ k.isCharacter := by
  rw [Down, h.serve_releaseAll.2.1, last_append, last_flatMap_letGo]
  cases hcharacter : k.isCharacter with
  | true => simp [Down]
  | false =>
    have hdown : k ∈ s.pressed ↔ Down SinkEvent.signal (serve permissionSm s.sent).emitted k :=
      (h.pressed k hcharacter).trans (tracks_serve _ k)
    by_cases hk : k ∈ s.pressed
    · simp [hk]
    · simpa [hk, Down] using hdown.not.1 hk

theorem Linked.releaseAll (h : s.Linked permissionSm) : Linked permissionSm s.releaseAll := by
  obtain ⟨hime, -, hpressed, hkeyboard, hmouse⟩ := h.serve_releaseAll
  refine ⟨hime, hkeyboard.trans h.keyboard, hmouse.trans h.mouse, fun k hk => ?_, fun k hk => ?_⟩
  · rw [hpressed] at hk
    exact absurd hk PressedInputs.not_mem_new
  · rw [hpressed, tracks_serve _ k, h.down_releaseAll, hk]
    exact iff_of_false PressedInputs.not_mem_new nofun

/-- Where nothing is down, there is nothing to let go of. -/
theorem forward_focusLost : s.forward .focusLost = s.releaseAll := by
  rw [forward]
  split_ifs with hempty
  · rfl
  · have hpressed := PressedInputs.eq_new_of_isEmpty (by simpa using hempty)
    rw [InputForwarder.releaseAll, hpressed]
    exact congrArg (fun pressed => { s with pressed }) hpressed

theorem Linked.forward (h : s.Linked permissionSm) (input : WindowInput) :
    Linked permissionSm (s.forward input) := by
  cases input with
  | key down hidUsage virtualKey modifiers =>
    rw [InputForwarder.forward]
    split_ifs with hkeyboard
    · exact h
    · have hgranted : permissionSm.isGranted Bit.INPUT_KEYBOARD = true := by
        simpa [← h.keyboard] using hkeyboard
      refine h.send _ (fun _ _ h => by cases h) (fun k hk => ?_) (fun header k hk => ?_)
      · rw [PressedInputs.mem_onKey] at hk
        split_ifs at hk with hkey
        · rw [hkey]
          exact hgranted
        · exact h.granted k hk
      · rw [PressedInputs.mem_onKey, InputInjection.effect, letsThrough_key h.ime, hgranted]
        by_cases hkey : k = .key hidUsage
        · have hcharacter : isCharacterKey hidUsage = false := by
            rw [hkey] at hk
            exact hk
          simp [hkey, hcharacter, InputMessage.signal]
        · simp [hkey, InputMessage.signal]
  | mouseButton button down x y =>
    rw [InputForwarder.forward]
    split_ifs with hmouse
    · exact h
    · have hgranted : permissionSm.isGranted Bit.INPUT_MOUSE = true := by
        simpa [← h.mouse] using hmouse
      refine h.send _ (fun _ _ h => by cases h) (fun k hk => ?_) (fun header k _ => ?_)
      · rw [PressedInputs.mem_onButton] at hk
        split_ifs at hk with hbutton
        · rw [hbutton]
          exact hgranted
        · exact h.granted k hk
      · rw [PressedInputs.mem_onButton, InputInjection.effect, InputInjection.letsThrough, hgranted]
        by_cases hbutton : k = .button button
        · simp [hbutton, InputMessage.signal]
        · simp [hbutton, InputMessage.signal]
  | text | imeComposition | mouseMove | wheel =>
    rw [InputForwarder.forward]
    split_ifs
    · exact h
    · exact h.send_of_signal (fun _ _ h => by cases h) fun _ _ => rfl
  | focusLost =>
    rw [forward_focusLost]
    exact h.releaseAll

theorem linked_run (grantedPermissions : PermissionSet) (streamSize windowSize : ℕ × ℕ)
    (inputs : List WindowInput) :
    Linked (.new grantedPermissions) (run grantedPermissions streamSize windowSize inputs) := by
  induction inputs using List.reverseRecOn with
  | nil => exact linked_new ..
  | append_singleton inputs input ih =>
    rw [run, List.foldl_append]
    exact ih.forward input

/-- Letting go of everything leaves the pointer where it is exactly if no button was down, or the
    pointer is where the buttons are let go of. -/
theorem Linked.pointer_releaseAll (h : s.Linked permissionSm) :
    let before := (serve permissionSm s.sent).emitted
    (∀ emitted, before <+: emitted → emitted <+: (serve permissionSm s.releaseAll.sent).emitted →
      pointer emitted = pointer before) ↔
      (∀ button, .button button ∉ s.pressed) ∨ pointer before = some (0, 0) := by
  intro before
  rw [h.serve_releaseAll.2.1]
  constructor
  · intro hstill
    by_contra hnot
    obtain ⟨⟨button, hbutton⟩, hpointer⟩ : (∃ button, .button button ∈ s.pressed) ∧
        pointer before ≠ some (0, 0) := by
      simpa using hnot
    have hmem : SinkEvent.mouseMove 0 0 ∈ s.pressed.takeReleases.1.flatMap Release.letGo :=
      List.mem_flatMap.2 ⟨.button button, PressedInputs.mem_takeReleases.2 hbutton,
        List.mem_cons_self⟩
    obtain ⟨p, hp⟩ := Option.ne_none_iff_exists'.1 (pointer_ne_none hmem rfl)
    obtain ⟨e, he, hposition⟩ := exists_of_pointer hp
    have hall := hstill _ (List.prefix_append ..) (List.prefix_refl _)
    rw [pointer_append, hp, Option.some_or, (position_of_mem_letGo he hposition).1] at hall
    exact hpointer hall.symm
  · rintro hor _ ⟨added, rfl⟩ hprefix
    have hadded := (List.prefix_append_right_inj _).1 hprefix
    rw [pointer_append]
    cases hp : pointer added with
    | none => rw [Option.none_or]
    | some p =>
      -- a move is one for a button, and to where the pointer is
      obtain ⟨e, he, hposition⟩ := exists_of_pointer hp
      obtain ⟨rfl, button, hbutton⟩ := position_of_mem_letGo (hadded.subset he) hposition
      have hpointer := hor.resolve_left fun hnone =>
        hnone button (PressedInputs.mem_takeReleases.1 hbutton)
      rw [Option.some_or, hpointer]

/-- When the focus is lost, or the client shuts down, everything is up at the server after it has
    handled the messages, and the pointer has not moved, exactly if no key that makes a character
    was down there, and no button was down, or the pointer at `(0, 0)`. -/
theorem released_in_place_iff (grantedPermissions : PermissionSet) (streamSize windowSize : ℕ × ℕ)
    (inputs : List WindowInput) (shutdown : Bool) :
    let s := run grantedPermissions streamSize windowSize inputs
    let s' := if shutdown then s.releaseAll else s.forward .focusLost
    let before := (serve (.new grantedPermissions) s.sent).emitted
    let after := (serve (.new grantedPermissions) s'.sent).emitted
    ((∀ k, ¬Down SinkEvent.signal after k) ∧
      ∀ emitted, before <+: emitted → emitted <+: after → pointer emitted = pointer before) ↔
      (∀ hidUsage, isCharacterKey hidUsage → ¬Down SinkEvent.signal before (.key hidUsage)) ∧
        ((∀ button, .button button ∉ s.pressed) ∨ pointer before = some (0, 0)) := by
  intro s s' before after
  have hlinked : s.Linked (.new grantedPermissions) := linked_run ..
  have hs' : s' = s.releaseAll := by
    cases shutdown
    · exact forward_focusLost
    · rfl
  simp only [after, hs', hlinked.down_releaseAll, not_and]
  refine and_congr ⟨fun h hidUsage hcharacter hdown => ?_, fun h k hdown hcharacter => ?_⟩
    hlinked.pointer_releaseAll
  · exact h (.key hidUsage) hdown hcharacter
  · cases k with
    | key hidUsage => exact h hidUsage hcharacter hdown
    | button button => cases hcharacter

/-- With a shortcut and a button held, the key of the shortcut stays down when the focus is lost,
    and the pointer moves. -/
theorem focus_lost_with_shortcut_and_button :
    let s := run (Bit.INPUT_KEYBOARD ||| Bit.INPUT_MOUSE) (100, 100) (100, 100)
      [.key true 0xE0 0x11 KeyModifier.CTRL, .key true 0x06 0x43 KeyModifier.CTRL,
        .mouseButton Button.LEFT true 10 20]
    let before := (serve (.new (Bit.INPUT_KEYBOARD ||| Bit.INPUT_MOUSE)) s.sent).emitted
    let after :=
      (serve (.new (Bit.INPUT_KEYBOARD ||| Bit.INPUT_MOUSE)) (s.forward .focusLost).sent).emitted
    Down SinkEvent.signal after (.key 0x06) ∧ pointer before = some (10, 20) ∧
      pointer after = some (0, 0) := by
  decide

end InputForwarder

end Sardp
