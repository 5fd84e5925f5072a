import Sardp.Input.CharReassembly
import Sardp.Input.Forwarder
import Sardp.Input.InjectionThread
import Sardp.Input.InputStream

/-!
# Typed text from end to end

A text that is entered in the window of the client is typed into the desktop of the server. On its
way it is divided into units of UTF-16, into messages, and into chunks of a stream that may break
off (`InputPath`); the session handles the messages, and a thread types what it emits.

Nothing else is typed: at any time, what has been typed are characters that have been entered, in
order, and none of them twice. And every character that has been entered is typed in the end, if
the client may use the keyboard and the session goes on allowing it, the messages have all come
through, and the system takes them (`InjectionThread.typed_on_windows`,
`InjectionThread.typed_on_macos`).
-/

namespace Sardp

open Framing

/-! ## The client -/

/-- The characters of an input. -/
def WindowInput.chars (input : WindowInput) : List Char := input.text?.toList.flatMap String.toList

/-- The characters of a message. -/
def InputMessage.chars : InputMessage → List Char
  | .text e => e.text.toList
  | _ => []

/-- A change of the mode, which the client of the window never sends. -/
def InputMessage.isModeChange : InputMessage → Bool
  | .imeModeChange _ => true
  | _ => false

namespace WindowState

/-- The characters of what the window has sent are those that have been entered. -/
theorem chars_sent_run (messages : List WindowMessage) :
    (run messages).sent.flatMap WindowInput.chars = enteredChars (charUnits messages) := by
  have htexts := textsWith_run messages []
  rw [textsWith, List.append_nil, List.append_nil, enteredChars_pending, List.map_nil,
    List.append_nil] at htexts
  have hchars (inputs : List WindowInput) : inputs.flatMap WindowInput.chars =
      (inputs.filterMap WindowInput.text?).flatMap String.toList := by
    rw [List.filterMap_eq_flatMap_toList, List.flatMap_assoc]
    rfl
  rw [hchars, ← texts, htexts, List.flatMap_map]
  simp only [Char.toString_eq_singleton, String.toList_singleton, List.flatMap_singleton']

end WindowState

namespace InputForwarder

variable {s : InputForwarder} {input : WindowInput}

/-- What more has been sent: messages with some characters, and no change of the mode. -/
def Sends (s s' : InputForwarder) (cs : List Char) : Prop :=
  s'.keyboard = s.keyboard ∧ ∃ more, s'.sent = s.sent ++ more ∧
    more.flatMap InputMessage.chars = cs ∧ ∀ m ∈ more, m.isModeChange = false

theorem sends_nil (s : InputForwarder) : s.Sends s [] :=
  ⟨rfl, [], (List.append_nil _).symm, rfl, by simp⟩

theorem sends_send (s : InputForwarder) {message : InputHeader → InputMessage}
    (h : (message ⟨s.nextEventId⟩).isModeChange = false) :
    s.Sends (s.send message) (message ⟨s.nextEventId⟩).chars :=
  ⟨rfl, [_], rfl, List.flatMap_singleton _ _, List.forall_mem_singleton.2 h⟩

theorem Sends.trans {s s' s'' : InputForwarder} {cs cs' : List Char} (h : s.Sends s' cs)
    (h' : s'.Sends s'' cs') : s.Sends s'' (cs ++ cs') := by
  obtain ⟨hkeyboard, more, hsent, hchars, hmode⟩ := h
  obtain ⟨hkeyboard', more', hsent', hchars', hmode'⟩ := h'
  refine ⟨hkeyboard'.trans hkeyboard, more ++ more', ?_, ?_, ?_⟩
  · rw [hsent', hsent, List.append_assoc]
  · rw [List.flatMap_append, hchars, hchars']
  · exact List.forall_mem_append.2 ⟨hmode, hmode'⟩

/-- What is let go of is no text. -/
theorem sends_releaseAll (s : InputForwarder) : s.Sends s.releaseAll [] := by
  have hfoldl (releases : List Release) (s : InputForwarder) :
      s.Sends (releases.foldl (fun s k => s.send (release · k)) s) [] := by
    induction releases generalizing s with
    | nil => exact s.sends_nil
    | cons k releases ih =>
      have hsend : s.Sends (s.send (release · k)) [] := by
        cases k with
        | key hidUsage => exact s.sends_send rfl
        | button button => exact s.sends_send rfl
      exact hsend.trans (ih _)
  exact hfoldl s.pressed.takeReleases.1 { s with pressed := s.pressed.takeReleases.2 }

/-- An input is forwarded with its characters, if the client may use the keyboard. -/
theorem sends_forward (s : InputForwarder) (input : WindowInput) :
    s.Sends (s.forward input) (if s.keyboard then input.chars else []) := by
  cases input with
  | text text =>
    rw [forward]
    cases hkeyboard : s.keyboard with
    | false => exact s.sends_nil
    | true =>
      have hchars : (WindowInput.text text).chars = text.toList := List.flatMap_singleton _ _
      rw [hchars]
      exact @sends_send s (fun header => .text ⟨header, text⟩) rfl
  | focusLost =>
    rw [forward_focusLost, show WindowInput.focusLost.chars = [] from rfl, ite_self]
    exact s.sends_releaseAll
  | key | mouseButton =>
    rw [forward, show (if s.keyboard then WindowInput.chars _ else []) = [] from ite_self _]
    split_ifs
    · exact s.sends_nil
    · exact sends_send { s with pressed := _ } rfl
  | imeComposition | mouseMove | wheel =>
    rw [forward, show (if s.keyboard then WindowInput.chars _ else []) = [] from ite_self _]
    split_ifs
    · exact s.sends_nil
    · exact s.sends_send rfl

/-- What is sent of inputs are their characters, if the client may use the keyboard, and no change
    of the mode. -/
theorem sends_run (permissions : PermissionSet) (streamSize windowSize : ℕ × ℕ)
    (inputs : List WindowInput) :
    (new permissions streamSize windowSize).Sends (run permissions streamSize windowSize inputs)
      (if (new permissions streamSize windowSize).keyboard then inputs.flatMap WindowInput.chars
        else []) := by
  induction inputs using List.reverseRecOn with
  | nil =>
    rw [List.flatMap_nil, ite_self]
    exact sends_nil _
  | append_singleton inputs input ih =>
    have hstep := ih.trans (sends_forward (run permissions streamSize windowSize inputs) input)
    rw [ih.1] at hstep
    have hsplit (keyboard : Bool) (cs cs' : List Char) : (if keyboard then cs ++ cs' else []) =
        (if keyboard then cs else []) ++ if keyboard then cs' else [] := by
      split_ifs <;> rfl
    rw [run, List.foldl_append, List.flatMap_append, List.flatMap_singleton, hsplit]
    exact hstep

end InputForwarder

/-! ## The stream -/

/-- The way of the input from the window of a client to the session that reads it. -/
structure InputPath (codec : InputCodec) where
  /-- What the system tells the window. -/
  messages : List WindowMessage
  /-- What the client may do. -/
  permissions : PermissionSet
  streamSize : ℕ × ℕ
  windowSize : ℕ × ℕ
  /-- At its end, the client has let go of what is down. -/
  shutdown : Bool
  /-- What the client has sent, each message with its time. -/
  sent : List (ℕ × InputMessage)
  bytes : List UInt8
  recv : RecvStream
  streamPrologue : StreamPrologue
  reader : EnvelopeReader
  calls : List (CallEvent UInt8)
  loop : Loop Unit UInt8 EnvelopeRead ReadInputError InputMessage
  forwarded :
    let s := InputForwarder.run permissions streamSize windowSize (WindowState.run messages).sent
    sent.map Prod.snd = (if shutdown then s.releaseAll else s).sent
  fits : ∀ x ∈ sent, x.2.Fits x.1
  written : InputCodec.streamBytes sent = some bytes
  /-- The stream may break off. -/
  received : symbols recv.chunks <+: bytes
  opened : EnvelopeReader.readPrologue (Reader.new recv) = (.ok streamPrologue, reader)
  arrives : arrived calls <+: reader.source.chunks
  looped : codec.loop.run (.start () reader.buf) calls = some loop

namespace InputPath

variable {codec : InputCodec}

/-- The characters that have been entered. -/
def entered (path : InputPath codec) : List Char :=
  enteredChars (WindowState.charUnits path.messages)

/-- The messages the session has read. -/
def read (path : InputPath codec) : List InputMessage :=
  path.loop.results.filterMap (·.toOption)

/-- The client may use the keyboard. -/
def keyboard (path : InputPath codec) : Bool := path.permissions &&& Bit.INPUT_KEYBOARD ≠ 0

theorem read_of_sent (hcodec : codec.ReadsBack) (path : InputPath codec) :
    path.read <+: path.sent.map Prod.snd := by
  have hshort : (path.sent.takeWhile fun x => x.2.Short x.1) <+: path.sent :=
    List.takeWhile_prefix _
  exact (InputCodec.messages_of_streamBytes hcodec path.fits path.written path.received path.opened
    path.arrives path.looped).1.trans (hshort.map _)

theorem sends (path : InputPath codec) :
    ((path.sent.map Prod.snd).flatMap InputMessage.chars =
      if path.keyboard then path.entered else []) ∧
    ∀ m ∈ path.sent.map Prod.snd, m.isModeChange = false := by
  have hrun := InputForwarder.sends_run path.permissions path.streamSize path.windowSize
    (WindowState.run path.messages).sent
  have hend := hrun.trans (InputForwarder.sends_releaseAll _)
  rw [List.append_nil] at hend
  have hall : (InputForwarder.new path.permissions path.streamSize path.windowSize).Sends
      (if path.shutdown then (InputForwarder.run path.permissions path.streamSize path.windowSize
        (WindowState.run path.messages).sent).releaseAll else
          InputForwarder.run path.permissions path.streamSize path.windowSize
            (WindowState.run path.messages).sent)
      (if path.keyboard then path.entered else []) := by
    rw [WindowState.chars_sent_run] at hrun hend
    cases path.shutdown with
    | false => exact hrun
    | true => exact hend
  obtain ⟨-, more, hsent, hchars, hmode⟩ := hall
  rw [path.forwarded, hsent]
  exact ⟨hchars, hmode⟩

end InputPath

/-- A letter and a pair of surrogates are entered, and the stream is cut within an envelope. -/
theorem exists_inputPath : ∃ path : InputPath .ofFormats, path.entered = ['h', '😀'] ∧
    path.keyboard ∧ path.sent.map Prod.snd = [.text ⟨⟨1⟩, "h"⟩, .text ⟨⟨2⟩, "😀"⟩] ∧
    path.read = path.sent.map Prod.snd := by
  let char (unit : BitVec 32) : WindowMessage := ⟨.char, unit, 0, false, 0, none⟩
  let sent : List (ℕ × InputMessage) := [(5, .text ⟨⟨1⟩, "h"⟩), (6, .text ⟨⟨2⟩, "😀"⟩)]
  have hfits : ∀ x ∈ sent, x.2.Fits x.1 := List.forall_mem_cons.2
    ⟨TextInput.fits_iff.2 (by decide +kernel),
      List.forall_mem_singleton.2 (TextInput.fits_iff.2 (by decide +kernel))⟩
  let bytes := (InputCodec.streamBytes sent).getD []
  let first : Chunk UInt8 := ⟨bytes.take 20, by decide +kernel⟩
  let rest : Chunk UInt8 := ⟨bytes.drop 20, by decide +kernel⟩
  let opened := EnvelopeReader.readPrologue (Reader.new ⟨[first, rest], none⟩)
  let calls : List (CallEvent UInt8) := [.call, .reissue, .chunk rest, .call, .call]
  obtain ⟨l, hrun, hread⟩ := Option.map_eq_some_iff.1
    (show (InputCodec.ofFormats.loop.run (.start () opened.2.buf) calls).map
      (fun l => l.results.filterMap (·.toOption)) = some (sent.map Prod.snd) by decide +kernel)
  have hwritten : InputCodec.streamBytes sent = some (first.1 ++ rest.1) := by decide +kernel
  have hwhole : symbols [first, rest] = first.1 ++ rest.1 := by
    rw [symbols_cons, symbols_cons, symbols_nil, List.append_nil]
  let messages : List WindowMessage := [char 0x68, char 0xD83D, char 0xDE00]
  have hentered : enteredChars (WindowState.charUnits messages) = ['h', '😀'] := by decide +kernel
  have hkeyboard : decide (Bit.INPUT_KEYBOARD &&& Bit.INPUT_KEYBOARD ≠ 0) = true := by decide
  exact ⟨{
    messages := messages
    permissions := Bit.INPUT_KEYBOARD
    streamSize := (100, 100)
    windowSize := (100, 100)
    shutdown := true
    sent := sent
    bytes := first.1 ++ rest.1
    recv := ⟨[first, rest], none⟩
    streamPrologue := ⟨.input, 1, 0⟩
    reader := opened.2
    calls := calls
    loop := l
    forwarded := by decide +kernel
    fits := hfits
    written := hwritten
    received := hwhole ▸ List.prefix_rfl
    opened := Prod.ext (by decide +kernel) rfl
    arrives := by decide +kernel
    looped := hrun }, hentered, hkeyboard, rfl, hread⟩

/-! ## The session -/

/-- The characters of an event for the sink. -/
def SinkEvent.chars : SinkEvent → List Char
  | .text string => string.toList
  | _ => []

namespace InputInjection

variable {s : InputInjection} {m : InputMessage}

/-- The characters that have been emitted. -/
def chars (s : InputInjection) : List Char := s.emitted.flatMap SinkEvent.chars

theorem chars_emit (s : InputInjection) (event : SinkEvent) :
    (s.emit event).chars = s.chars ++ event.chars := by
  rw [chars, emit, List.flatMap_append, List.flatMap_singleton]
  rfl

theorem chars_releaseAll (s : InputInjection) : s.releaseAll.chars = s.chars := by
  have hnil : (s.pressed.takeReleases.1.map Release.emission).flatMap SinkEvent.chars = [] := by
    refine List.flatMap_eq_nil_iff.2 fun event hevent => ?_
    obtain ⟨k, -, rfl⟩ := List.mem_map.1 hevent
    cases k <;> rfl
  rw [chars, releaseAll_eq, List.flatMap_append, hnil, List.append_nil]
  rfl

/-- As long as the client composes the text, a message emits its characters, with the permission. -/
theorem chars_handle (hime : s.ime = .new) (m : InputMessage) (permissionSm : PermissionSm) :
    (s.handle m permissionSm).2.chars =
      s.chars ++ if permissionSm.isGranted Bit.INPUT_KEYBOARD then m.chars else [] := by
  have hnone {m : InputMessage} (hm : m.chars = []) :
      s.chars ++ (if permissionSm.isGranted Bit.INPUT_KEYBOARD then m.chars else []) = s.chars := by
    rw [hm, ite_self, List.append_nil]
  have hmode (eventId : ℕ) : ImeModeSm.new.modeFor eventId = (.clientSide, .new) := rfl
  cases m with
  | key key =>
    rw [handle_key, hnone rfl]
    dsimp only
    split_ifs
    · exact (chars_emit _ _).trans (List.append_nil _)
    · rfl
  | mouseButton b =>
    rw [handle_mouseButton, hnone rfl]
    split_ifs
    · rw [chars_emit, chars_emit]
      exact (List.append_nil _).trans (List.append_nil _)
    · rfl
  | text text =>
    simp only [handle, hime, hmode, ImeModeSm.checkTextAllowed]
    cases permissionSm.isGranted Bit.INPUT_KEYBOARD with
    | false => exact (List.append_nil _).symm
    | true => exact chars_emit _ _
  | imeComposition composition =>
    simp only [handle, hime, hmode, ImeModeSm.checkTextAllowed]
    rw [hnone rfl]
    rfl
  | imeModeChange change =>
    rw [hnone rfl]
    rfl
  | mouseMove | wheel =>
    simp only [handle]
    rw [hnone rfl]
    split_ifs
    · rfl
    · exact (chars_emit _ _).trans (List.append_nil _)

theorem ime_handle_of_text (hime : s.ime = .new) (hm : m.isModeChange = false)
    (permissionSm : PermissionSm) : (s.handle m permissionSm).2.ime = .new := by
  rw [ime_handle, hime]
  cases m with
  | imeModeChange change => cases hm
  | _ => rfl

end InputInjection

/-- The message that is handled. -/
def InputSessionEvent.message? : InputSessionEvent → Option InputMessage
  | .message m => some m
  | _ => none

namespace InputSession

variable {s s' : InputSession} {e : InputSessionEvent} {events : List InputSessionEvent}

/-- The messages that are handled. -/
def handled (events : List InputSessionEvent) : List InputMessage :=
  events.filterMap InputSessionEvent.message?

/-- The keyboard is granted when a message is handled. -/
def KeyboardGranted (s : InputSession) (e : InputSessionEvent) (_ : InputSession) : Prop :=
  e.message?.isSome → s.session.permissionSm.isGranted Bit.INPUT_KEYBOARD

instance (s : InputSession) (e : InputSessionEvent) (s' : InputSession) :
    Decidable (KeyboardGranted s e s') := inferInstanceAs (Decidable (_ → _))

theorem chars_of_step (hime : s.injection.ime = .new)
    (hmode : ∀ m ∈ e.message?, m.isModeChange = false) (hstep : machine.step s e = some s') :
    s'.injection.ime = .new ∧ s'.injection.chars = s.injection.chars ++
      if s.session.permissionSm.isGranted Bit.INPUT_KEYBOARD then
        e.message?.toList.flatMap InputMessage.chars else [] := by
  have hreleased : s.injection.releaseAll.ime = .new ∧
      s.injection.releaseAll.chars = s.injection.chars ++
        if s.session.permissionSm.isGranted Bit.INPUT_KEYBOARD then [] else [] := by
    rw [ite_self, List.append_nil, InputInjection.chars_releaseAll, InputInjection.releaseAll_eq]
    exact ⟨hime, rfl⟩
  cases e with
  | round e =>
    obtain ⟨-, hstep⟩ := Option.ite_none_right_eq_some.1 hstep
    obtain ⟨session, -, rfl⟩ := Option.map_eq_some_iff.1 hstep
    refine ⟨hime, ?_⟩
    rw [show InputSessionEvent.message? (.round e) = none from rfl, Option.toList_none,
      List.flatMap_nil, ite_self, List.append_nil]
  | message m =>
    obtain ⟨-, hstep⟩ := Option.ite_none_right_eq_some.1 hstep
    obtain ⟨session, -, rfl⟩ := Option.map_eq_some_iff.1 hstep
    have hm : m.isModeChange = false := hmode m rfl
    refine ⟨InputInjection.ime_handle_of_text hime hm _, ?_⟩
    rw [show InputSessionEvent.message? (.message m) = some m from rfl, Option.toList_some,
      List.flatMap_singleton]
    exact InputInjection.chars_handle hime m _
  | streamEnded =>
    obtain ⟨-, hstep⟩ := Option.ite_none_right_eq_some.1 hstep
    obtain ⟨session, -, rfl⟩ := Option.map_eq_some_iff.1 hstep
    exact hreleased
  | returned | dropped =>
    obtain ⟨-, hstep⟩ := Option.ite_none_right_eq_some.1 hstep
    cases hstep
    exact hreleased

/-- What a session has emitted of the characters of its messages: some of them, in order; and all of
    them, if the keyboard has been granted for each of its messages. -/
structure Emits (s₀ : InputSession) (events : List InputSessionEvent) (s : InputSession) :
    Prop where
  run : machine.run s₀ events = some s
  ime : s.injection.ime = .new
  some_of : s.injection.chars.Sublist ((handled events).flatMap InputMessage.chars)
  all_of : machine.Always KeyboardGranted s₀ events →
    s.injection.chars = (handled events).flatMap InputMessage.chars

theorem handled_append_singleton (events : List InputSessionEvent) (e : InputSessionEvent) :
    handled (events ++ [e]) = handled events ++ e.message?.toList := by
  rw [handled, List.filterMap_append]
  cases h : e.message? <;> simp [handled, h]

theorem Emits.step {s₀ : InputSession} (h : Emits s₀ events s)
    (hmode : ∀ m ∈ e.message?, m.isModeChange = false) (hstep : machine.step s e = some s') :
    Emits s₀ (events ++ [e]) s' := by
  obtain ⟨hime, hadds⟩ := chars_of_step h.ime hmode hstep
  refine ⟨Machine.run_append_eq_some.2 ⟨s, h.run, Machine.run_cons_eq_some.2 ⟨s', hstep, rfl⟩⟩,
    hime, ?_, fun halways => ?_⟩
  · rw [handled_append_singleton, List.flatMap_append, hadds]
    refine h.some_of.append ?_
    split_ifs
    · exact List.Sublist.refl _
    · exact List.nil_sublist _
  · obtain ⟨hbefore, hlast⟩ := Machine.always_append.1 halways
    rw [handled_append_singleton, List.flatMap_append, hadds, h.all_of hbefore]
    cases hm : e.message? with
    | none => simp
    | some m =>
      have hgranted := (hlast s h.run s' hstep).1 (by rw [hm]; rfl)
      rw [if_pos hgranted]

theorem emits_of_run {s₀ : InputSession} (hnew : s₀.injection = .new)
    (hmode : ∀ m ∈ handled events, m.isModeChange = false)
    (hrun : machine.run s₀ events = some s) : Emits s₀ events s := by
  refine Machine.run_history (R := fun events s =>
    (∀ m ∈ handled events, m.isModeChange = false) → Emits s₀ events s)
    (fun events s e s' ih hstep hmode => ?_) (fun _ => ?_) hrun hmode
  · rw [handled_append_singleton, List.forall_mem_append] at hmode
    exact (ih hmode.1).step (by simpa using hmode.2) hstep
  · have hchars : s₀.injection.chars = [] := by
      rw [hnew]
      rfl
    exact ⟨rfl, by rw [hnew]; rfl, by rw [hchars]; exact List.nil_sublist _, fun _ => hchars⟩

end InputSession

namespace InjectionThread

variable {W C I : Type} {command : SinkEvent → C} {perform : W → C → I → Option W}

/-- What the session does. -/
def sessionEvents (es : List (InjectionThreadEvent I)) : List InputSessionEvent :=
  es.filterMap fun
    | .session e => some e
    | _ => none

/-- In a run of the two, the session runs by itself. -/
theorem run_session {s s' : InjectionThread W C} {es : List (InjectionThreadEvent I)}
    (hrun : (machine command perform).run s es = some s') :
    InputSession.machine.run s.session (sessionEvents es) = some s'.session := by
  induction es generalizing s with
  | nil =>
    cases hrun
    rfl
  | cons e es ih =>
    obtain ⟨s₁, hstep, hrun⟩ := Machine.run_cons_eq_some.1 hrun
    have hrest := ih hrun
    cases e with
    | session e =>
      obtain ⟨session, hsession, rfl⟩ := Option.map_eq_some_iff.1 hstep
      exact Machine.run_cons_eq_some.2 ⟨session, hsession, hrest⟩
    | turn i =>
      obtain ⟨worker, -, rfl⟩ := Option.map_eq_some_iff.1 hstep
      exact hrest
    | join =>
      obtain ⟨-, hstep⟩ := Option.ite_none_right_eq_some.1 hstep
      cases hstep
      exact hrest

/-- What the thread has performed of a session that reads the input of a client: events with some of
    the characters that have been entered, in order; and with all of them, if they have all come
    through. -/
theorem performed_of_path {codec : InputCodec} (hcodec : codec.ReadsBack) (path : InputPath codec)
    {session : InputSession} {state : W} (hsession : session.Inv)
    (hnew : session.injection = .new) (hphase : session.phase ≠ .dropped)
    {es : List (InjectionThreadEvent I)} {s : InjectionThread W C}
    (hrun : (machine command perform).run (start session state) es = some s)
    (hhandled : InputSession.handled (sessionEvents es) <+: path.read) :
    ∃ (done : List (C × I)) (events : List SinkEvent),
      Worker.performed perform state done = some s.worker.state ∧
      done.map Prod.fst = events.map command ∧
      (events.flatMap SinkEvent.chars).Sublist path.entered ∧
      (path.keyboard → InputSession.handled (sessionEvents es) = path.sent.map Prod.snd →
        InputSession.machine.Always InputSession.KeyboardGranted session (sessionEvents es) →
        s.worker.place = .gone → events.flatMap SinkEvent.chars = path.entered) := by
  have hinv : s.Inv command perform state :=
    Machine.run_invariant (fun _ _ _ h hstep => h.step hstep)
      (inv_start hsession (by rw [hnew]; rfl) hphase _) hrun
  obtain ⟨hsent, hmode⟩ := path.sends
  have hread := hhandled.trans (path.read_of_sent hcodec)
  have hemits : InputSession.Emits session (sessionEvents es) s.session :=
    InputSession.emits_of_run hnew (fun m hm => hmode m (hread.subset hm)) (run_session hrun)
  obtain ⟨done, hdone, hfirst, hgone⟩ := hinv.fed.exists_done
  obtain ⟨more, hmore⟩ := hfirst
  obtain ⟨events, rest, hemitted, hevents, -⟩ := List.map_eq_append_iff.1 hmore.symm
  refine ⟨done, events, hdone, hevents.symm, ?_, fun hkeyboard hall halways hplace => ?_⟩
  · have hpart : (events.flatMap SinkEvent.chars).Sublist s.session.injection.chars := by
      rw [InputInjection.chars, hemitted, List.flatMap_append]
      exact List.sublist_append_left _ _
    have hsome : ((path.sent.map Prod.snd).flatMap InputMessage.chars).Sublist path.entered := by
      rw [hsent]
      split_ifs
      · exact List.Sublist.refl _
      · exact List.nil_sublist _
    exact ((hpart.trans hemits.some_of).trans (hread.sublist.flatMap _)).trans hsome
  · have hwhole : events = s.session.injection.emitted := by
      have hlength := congrArg List.length (hevents.trans (hgone hplace))
      rw [List.length_map, List.length_map] at hlength
      exact List.IsPrefix.eq_of_length (hemitted ▸ List.prefix_append _ _) hlength
    have hchars := hemits.all_of halways
    rw [hall, hsent, if_pos hkeyboard, InputInjection.chars] at hchars
    rw [hwhole, hchars]

end InjectionThread

/-! ## Windows -/

namespace WinInput

/-- The unit an event types. -/
def Input.unit? : Input → Option ℕ
  | .keyboard unit [.unicode] => some unit
  | _ => none

/-- The units a call types. -/
def units (call : List Input) : List ℕ := call.filterMap Input.unit?

/-- The units of a command. -/
def InjectCommand.units : InjectCommand → List ℕ
  | .text string => Utf16.encode string.toList
  | _ => []

variable {mode : Overflow} {win : Windows} {s s' : Injector} {outputOrigin : ℤ × ℤ}
  {c : InjectCommand} {ok : Bool}

/-- The units that are typed are the first of those there are, and all of them if Windows takes
    them. -/
theorem units_typeUnits (win : Windows) (s : Injector) (us : List ℕ) :
    ∃ more, (typeUnits win s us).2.calls = s.calls ++ more ∧ more.flatMap units <+: us ∧
      ((∀ n, win.sendInput n = true) → more.flatMap units = us) := by
  induction us generalizing s with
  | nil => exact ⟨[], (List.append_nil _).symm, List.prefix_rfl, fun _ => rfl⟩
  | cons unit us ih =>
    let call : List Input := [.keyboard unit [.unicode], .keyboard unit [.unicode, .keyUp]]
    simp only [typeUnits, Injector.sendInputs]
    cases htakes : win.sendInput s.calls.length with
    | true =>
      obtain ⟨more, hmore, hfirst, hall⟩ := ih { s with calls := s.calls ++ [call] }
      refine ⟨call :: more, ?_, (List.prefix_cons_inj unit).2 hfirst, fun h => ?_⟩
      · exact hmore.trans (List.append_assoc s.calls [call] more)
      · exact congrArg (unit :: ·) (hall h)
    | false =>
      refine ⟨[call], rfl, (List.prefix_cons_inj unit).2 List.nil_prefix, fun h => ?_⟩
      exact absurd ((h _).symm.trans htakes) (by decide)

/-- A call that types nothing, for a command without units. -/
theorem units_singleton {call : List Input} (hcall : units call = []) (hc : c.units = []) :
    (([call] : List (List Input)).flatMap units).Sublist c.units ∧
      ((∀ n, win.sendInput n = true) → ([call] : List (List Input)).flatMap units = c.units) := by
  rw [List.flatMap_singleton, hcall, hc]
  exact ⟨List.Sublist.refl _, fun _ => rfl⟩

/-- The calls of a command type its units, or some of them. -/
theorem units_perform (h : perform mode win outputOrigin s c = some (ok, s')) :
    ∃ more, s'.calls = s.calls ++ more ∧ (more.flatMap units).Sublist c.units ∧
      ((∀ n, win.sendInput n = true) → more.flatMap units = c.units) := by
  have hnothing (hc : c.units = []) : s.calls = s.calls ++ [] ∧
      (([] : List (List Input)).flatMap units).Sublist c.units ∧
        ((∀ n, win.sendInput n = true) → ([] : List (List Input)).flatMap units = c.units) :=
    ⟨(List.append_nil _).symm, List.nil_sublist _, fun _ => hc.symm⟩
  cases c with
  | key hidUsage down =>
    simp only [perform] at h
    split at h
    · cases h
      exact ⟨[], hnothing rfl⟩
    · next scancode extended _ =>
      cases h
      refine ⟨_, rfl, units_singleton ?_ rfl⟩
      cases extended <;> cases down <;> rfl
  | text text =>
    simp only [perform, Option.some.injEq] at h
    obtain ⟨more, hmore, hfirst, hall⟩ := units_typeUnits win s (Utf16.encode text.toList)
    rw [h] at hmore
    exact ⟨more, hmore, hfirst.sublist, hall⟩
  | mouseMove x y =>
    obtain ⟨absX, -, h⟩ := Option.bind_eq_some_iff.1 h
    obtain ⟨absY, -, h⟩ := Option.bind_eq_some_iff.1 h
    cases h
    exact ⟨_, rfl, units_singleton rfl rfl⟩
  | mouseButton button down =>
    simp only [perform] at h
    split at h
    · cases h
      exact ⟨[], hnothing rfl⟩
    · cases h
      exact ⟨_, rfl, units_singleton rfl rfl⟩
  | wheel dx dy =>
    simp only [perform] at h
    split_ifs at h
    · cases h
      exact ⟨[], hnothing rfl⟩
    · cases h
      refine ⟨_, rfl, units_singleton ?_ rfl⟩
      rw [wheelInputs, units, List.filterMap_append]
      split_ifs <;> rfl

/-- The units that have been typed: Windows has taken the calls. -/
def Injector.typed (win : Windows) (s : Injector) : List ℕ :=
  (Worker.taken win.sendInput s.calls).flatMap units

/-- The units of events are their characters, encoded. -/
theorem units_command (events : List SinkEvent) :
    (events.map SinkEvent.command).flatMap InjectCommand.units =
      Utf16.encode (events.flatMap SinkEvent.chars) := by
  rw [List.flatMap_map, Utf16.encode, List.flatMap_assoc]
  congr
  funext event
  cases event <;> rfl

/-- What has been typed by commands are some of their units, in order, and all of them if Windows
    takes every call. -/
theorem typed_of_performed {done : List (InjectCommand × Unit)}
    (h : Worker.performed (performUnit mode win outputOrigin) .new done = some s) :
    (s.typed win).Sublist ((done.map Prod.fst).flatMap InjectCommand.units) ∧
      ((∀ n, win.sendInput n = true) →
        s.typed win = (done.map Prod.fst).flatMap InjectCommand.units) := by
  have hwrites (s : Injector) (c : InjectCommand) (i : Unit) (s' : Injector)
      (h : performUnit mode win outputOrigin s c i = some s') :
      ∃ more, s'.calls = s.calls ++ more ∧ (more.flatMap units).Sublist c.units ∧
        ((∀ n, win.sendInput n = true) → more.flatMap units = c.units) := by
    obtain ⟨⟨ok, _⟩, hperform, rfl⟩ := Option.map_eq_some_iff.1 h
    exact units_perform hperform
  constructor
  · have hcalls : (s.calls.flatMap units).Sublist
        ((done.map Prod.fst).flatMap InjectCommand.units) :=
      Worker.written_of_performed (List.Sublist.refl _) (fun _ _ _ _ h h' => h.append h') rfl
        (fun s c i s' h => (hwrites s c i s' h).imp fun more hmore => ⟨hmore.1, hmore.2.1⟩) h
    exact ((Worker.taken_sublist win.sendInput s.calls).flatMap units).trans hcalls
  · intro htakes
    rw [Injector.typed, Worker.taken_of_forall htakes]
    exact Worker.written_of_performed rfl (fun _ _ _ _ h h' => congrArg₂ (· ++ ·) h h') rfl
      (fun s c i s' h => (hwrites s c i s' h).imp fun more hmore =>
        ⟨hmore.1, hmore.2.2 htakes⟩) h

end WinInput

namespace InjectionThread

open WinInput

/-- In any interleaving of a session that reads the input of a client with the thread that injects
    it on Windows, at any time: what has been typed are units of the text that has been entered, in
    order, and none of them twice. If Windows takes every call, they are those of some of its
    characters; and of all of them in the end, if the client may use the keyboard, the session has
    handled all messages, and the keyboard has been granted for each of them. -/
theorem typed_on_windows {codec : InputCodec} (hcodec : codec.ReadsBack) (path : InputPath codec)
    (mode : Overflow) (win : Windows) (outputOrigin : ℤ × ℤ) {grantedPermissions : PermissionSet}
    {synthetic : Bool} {videoChannel : VideoChannel} {opened : List ℕ}
    {es : List (InjectionThreadEvent Unit)} {s : InjectionThread Injector InjectCommand}
    (hrun : (machine SinkEvent.command (performUnit mode win outputOrigin)).run
      (start (.start grantedPermissions synthetic videoChannel opened) .new) es = some s)
    (hhandled : InputSession.handled (sessionEvents es) <+: path.read) :
    (s.worker.state.typed win).Sublist (Utf16.encode path.entered) ∧
    ((∀ n, win.sendInput n = true) → ∃ cs : List Char, cs.Sublist path.entered ∧
      s.worker.state.typed win = Utf16.encode cs ∧
      (path.keyboard → InputSession.handled (sessionEvents es) = path.sent.map Prod.snd →
        InputSession.machine.Always InputSession.KeyboardGranted
          (.start grantedPermissions synthetic videoChannel opened) (sessionEvents es) →
        s.worker.place = .gone → cs = path.entered)) := by
  obtain ⟨done, events, hdone, hevents, hsome, hall⟩ := performed_of_path hcodec path
    (InputSession.inv_start ..) rfl (by simp [InputSession.start]) hrun hhandled
  obtain ⟨htyped, htakes⟩ := typed_of_performed hdone
  rw [hevents, units_command] at htyped htakes
  exact ⟨htyped.trans (hsome.flatMap _), fun h => ⟨_, hsome, htakes h, hall⟩⟩

/-- The two characters are handled, and the input is dropped. -/
def droppedWithText {I : Type} (i : I) : List (InjectionThreadEvent I) :=
  [.session (.round (.incomingUni (.ok .input) (.ok ()))),
    .session (.message (.text ⟨⟨1⟩, "h"⟩)), .turn i, .session (.message (.text ⟨⟨2⟩, "😀"⟩)),
    .session .dropped, .turn i, .turn i, .join]

theorem typed_on_windows_pair :
    let win : Windows := ⟨fun _ => true, fun _ => ⟨0, 0, 3840, 1080⟩⟩
    ∃ s, (machine SinkEvent.command (performUnit .panicking win (1920, 0))).run
        (start (.start Bit.INPUT_KEYBOARD true (.new 0) []) .new) (droppedWithText ()) = some s ∧
      s.worker.state.typed win = [0x68, 0xD83D, 0xDE00] := by
  intro win
  obtain ⟨path, hentered, hkeyboard, hsent, hread⟩ := exists_inputPath
  obtain ⟨s, hrun, hgone⟩ :
      ∃ s, (machine SinkEvent.command (performUnit .panicking win (1920, 0))).run
        (start (.start Bit.INPUT_KEYBOARD true (.new 0) []) .new) (droppedWithText ()) = some s ∧
      s.worker.place = .gone := ⟨_, rfl, rfl⟩
  have hhandled : InputSession.handled (sessionEvents (droppedWithText ())) =
      path.sent.map Prod.snd := by
    rw [hsent]
    rfl
  have hgranted : InputSession.machine.Always InputSession.KeyboardGranted
      (.start Bit.INPUT_KEYBOARD true (.new 0) []) (sessionEvents (droppedWithText ())) := by
    decide +kernel
  obtain ⟨-, hall⟩ := typed_on_windows InputCodec.readsBack_ofFormats path .panicking win (1920, 0)
    hrun (hhandled.trans hread.symm ▸ List.prefix_rfl)
  obtain ⟨cs, -, htyped, hcs⟩ := hall fun _ => rfl
  refine ⟨s, hrun, ?_⟩
  rw [htyped, hcs hkeyboard hhandled hgranted hgone, hentered]
  decide

end InjectionThread

/-! ## macOS -/

namespace MacInput

/-- The characters a call types. -/
def Post.chars {Point : Type} : Post Point → List Char
  | .text string => string.toList
  | _ => []

/-- The characters of a command. -/
def InjectCommand.chars : InjectCommand → List Char
  | .text string => string.toList
  | _ => []

variable {Point : Type} {takes : ℕ → Bool} {s s' : Injector Point} {c : InjectCommand} {nowUs : ℕ}

/-- The clusters that are typed are the first of those there are, and all of them if macOS takes
    them. -/
theorem chars_postText (calls : List (Post Point)) (clusters : List (List Char)) :
    ∃ more, Injector.postText takes calls clusters = calls ++ more ∧
      more.flatMap Post.chars <+: clusters.flatten ∧
      ((∀ n, takes n = true) → more.flatMap Post.chars = clusters.flatten) := by
  induction clusters generalizing calls with
  | nil => exact ⟨[], (List.append_nil _).symm, List.prefix_rfl, fun _ => rfl⟩
  | cons cluster clusters ih =>
    have hchars : (Post.text (String.ofList cluster) : Post Point).chars = cluster :=
      String.toList_ofList ..
    rw [Injector.postText]
    split_ifs with htakes
    · obtain ⟨more, hmore, hfirst, hall⟩ := ih (calls ++ [.text (String.ofList cluster)])
      refine ⟨.text (String.ofList cluster) :: more, ?_, ?_, fun h => ?_⟩
      · rw [hmore, List.append_assoc]
        rfl
      · rw [List.flatMap_cons, List.flatten_cons, hchars]
        exact (List.prefix_append_right_inj _).2 hfirst
      · rw [List.flatMap_cons, List.flatten_cons, hchars, hall h]
    · refine ⟨[.text (String.ofList cluster)], rfl, ?_, fun h => absurd (h _) htakes⟩
      rw [List.flatMap_singleton, List.flatten_cons, hchars]
      exact List.prefix_append _ _

/-- A call that types nothing, for a command without characters. -/
theorem chars_singleton {post : Post Point} (hpost : post.chars = []) (hc : c.chars = []) :
    ([post].flatMap Post.chars).Sublist c.chars ∧
      ((∀ n, takes n = true) → [post].flatMap Post.chars = c.chars) := by
  rw [List.flatMap_singleton, hpost, hc]
  exact ⟨List.Sublist.refl _, fun _ => rfl⟩

/-- The calls of a command type its characters, or some of them. -/
theorem chars_perform (h : Injector.perform takes s c nowUs = some s') :
    ∃ more, s'.calls = s.calls ++ more ∧ (more.flatMap Post.chars).Sublist c.chars ∧
      ((∀ n, takes n = true) → more.flatMap Post.chars = c.chars) := by
  have hnothing (hc : c.chars = []) : s.calls = s.calls ++ [] ∧
      (([] : List (Post Point)).flatMap Post.chars).Sublist c.chars ∧
        ((∀ n, takes n = true) → ([] : List (Post Point)).flatMap Post.chars = c.chars) :=
    ⟨(List.append_nil _).symm, List.nil_sublist _, fun _ => hc.symm⟩
  cases c with
  | key hidUsage down =>
    simp only [Injector.perform, InputState.command, InputState.key] at h
    split at h
    · cases h
      exact ⟨[], hnothing rfl⟩
    · cases h
      exact ⟨_, rfl, chars_singleton rfl rfl⟩
  | text text =>
    simp only [Injector.perform, InputState.command, InputState.text] at h
    split_ifs at h with hempty
    · cases h
      exact ⟨[], hnothing (by rw [hempty]; rfl)⟩
    · obtain ⟨clusters, hclusters, rfl⟩ := Option.map_eq_some_iff.1 h
      rw [splitGraphemes_eq_splitBy, Option.some.injEq] at hclusters
      obtain ⟨more, hmore, hfirst, hall⟩ := @chars_postText _ takes s.calls clusters
      rw [← hclusters, List.flatten_splitBy] at hfirst hall
      exact ⟨more, hmore, hfirst.sublist, hall⟩
  | mouseMove x y =>
    simp only [Injector.perform, InputState.command, InputState.mouseMove] at h
    split at h
    all_goals
      cases h
      exact ⟨_, rfl, chars_singleton rfl rfl⟩
  | mouseButton button down =>
    cases down
    all_goals
      cases h
      exact ⟨_, rfl, chars_singleton rfl rfl⟩
  | wheel dx dy =>
    simp only [Injector.perform, InputState.command, InputState.wheel] at h
    split_ifs at h
    all_goals cases h
    · exact ⟨[], hnothing rfl⟩
    · exact ⟨_, rfl, chars_singleton rfl rfl⟩

/-- The characters that have been typed: macOS has taken the calls. -/
def Injector.typed (takes : ℕ → Bool) (s : Injector Point) : List Char :=
  (Worker.taken takes s.calls).flatMap Post.chars

theorem chars_macCommand (events : List SinkEvent) :
    (events.map InjectionThread.macCommand).flatMap InjectCommand.chars =
      events.flatMap SinkEvent.chars := by
  rw [List.flatMap_map]
  congr
  funext event
  cases event <;> rfl

/-- What has been typed by commands are some of their characters, in order, and all of them if macOS
    takes every call. -/
theorem typed_of_performed {config : InjectorConfig Point} {done : List (InjectCommand × ℕ)}
    (h : Worker.performed (Injector.perform takes) ⟨.new config, []⟩ done = some s) :
    (s.typed takes).Sublist ((done.map Prod.fst).flatMap InjectCommand.chars) ∧
      ((∀ n, takes n = true) →
        s.typed takes = (done.map Prod.fst).flatMap InjectCommand.chars) := by
  constructor
  · have hcalls : (s.calls.flatMap Post.chars).Sublist
        ((done.map Prod.fst).flatMap InjectCommand.chars) :=
      Worker.written_of_performed (List.Sublist.refl _) (fun _ _ _ _ h h' => h.append h') rfl
        (fun s c i s' h => (chars_perform h).imp fun more hmore => ⟨hmore.1, hmore.2.1⟩) h
    exact ((Worker.taken_sublist takes s.calls).flatMap Post.chars).trans hcalls
  · intro htakes
    rw [Injector.typed, Worker.taken_of_forall htakes]
    exact Worker.written_of_performed rfl (fun _ _ _ _ h h' => congrArg₂ (· ++ ·) h h') rfl
      (fun s c i s' h => (chars_perform h).imp fun more hmore => ⟨hmore.1, hmore.2.2 htakes⟩) h

end MacInput

namespace InjectionThread

open MacInput

/-- In any interleaving of a session that reads the input of a client with the thread that injects
    it on macOS, at any time: what has been typed are characters that have been entered, in order,
    and none of them twice. In the end they are all typed, if macOS takes every call, the client may
    use the keyboard, the session has handled all messages, and the keyboard has been granted for
    each of them. -/
theorem typed_on_macos {codec : InputCodec} (hcodec : codec.ReadsBack) (path : InputPath codec)
    {Point : Type} (takes : ℕ → Bool) (config : InjectorConfig Point)
    {grantedPermissions : PermissionSet} {synthetic : Bool} {videoChannel : VideoChannel}
    {opened : List ℕ} {es : List (InjectionThreadEvent ℕ)}
    {s : InjectionThread (MacInput.Injector Point) MacInput.InjectCommand}
    (hrun : (machine macCommand (MacInput.Injector.perform takes)).run
      (start (.start grantedPermissions synthetic videoChannel opened) ⟨.new config, []⟩) es =
        some s)
    (hhandled : InputSession.handled (sessionEvents es) <+: path.read) :
    (s.worker.state.typed takes).Sublist path.entered ∧
    ((∀ n, takes n = true) → path.keyboard →
      InputSession.handled (sessionEvents es) = path.sent.map Prod.snd →
      InputSession.machine.Always InputSession.KeyboardGranted
        (.start grantedPermissions synthetic videoChannel opened) (sessionEvents es) →
      s.worker.place = .gone → s.worker.state.typed takes = path.entered) := by
  obtain ⟨done, events, hdone, hevents, hsome, hall⟩ := performed_of_path hcodec path
    (InputSession.inv_start ..) rfl (by simp [InputSession.start]) hrun hhandled
  obtain ⟨htyped, htakes⟩ := MacInput.typed_of_performed hdone
  rw [hevents, chars_macCommand] at htyped htakes
  exact ⟨htyped.trans hsome, fun h hkeyboard hsent halways hgone =>
    (htakes h).trans (hall hkeyboard hsent halways hgone)⟩

theorem typed_on_macos_pair :
    let config : InjectorConfig (ℤ × ℤ) := ⟨(0, 0), fun x y => (x, y), 500000, fun _ _ => true⟩
    ∃ s, (machine macCommand (MacInput.Injector.perform fun _ => true)).run
        (start (.start Bit.INPUT_KEYBOARD true (.new 0) []) ⟨.new config, []⟩)
        (droppedWithText 0) = some s ∧ s.worker.state.typed (fun _ => true) = ['h', '😀'] := by
  intro config
  obtain ⟨path, hentered, hkeyboard, hsent, hread⟩ := exists_inputPath
  obtain ⟨s, hrun, hgone⟩ :
      ∃ s, (machine macCommand (MacInput.Injector.perform fun _ => true)).run
        (start (.start Bit.INPUT_KEYBOARD true (.new 0) []) ⟨.new config, []⟩)
        (droppedWithText 0) = some s ∧ s.worker.place = .gone := ⟨_, rfl, rfl⟩
  have hhandled : InputSession.handled (sessionEvents (droppedWithText 0)) =
      path.sent.map Prod.snd := by
    rw [hsent]
    rfl
  have hgranted : InputSession.machine.Always InputSession.KeyboardGranted
      (.start Bit.INPUT_KEYBOARD true (.new 0) []) (sessionEvents (droppedWithText 0)) := by
    decide +kernel
  obtain ⟨-, hall⟩ := typed_on_macos InputCodec.readsBack_ofFormats path (fun _ => true) config hrun
    (hhandled.trans hread.symm ▸ List.prefix_rfl)
  refine ⟨s, hrun, ?_⟩
  rw [hall (fun _ => rfl) hkeyboard hhandled hgranted hgone, hentered]

end InjectionThread

end Sardp
