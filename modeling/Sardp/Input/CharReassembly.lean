import Sardp.Input.WindowInput
import Sardp.Library.Utf16

/-!
# Characters that are entered

The system delivers the text that is entered in units of UTF-16, one in each message. The window
keeps a high surrogate until the next unit, and sends a text for each character that is complete
(`WindowState.handleChar`).

Together with what is still to come, the texts that are sent stand for the units throughout
(`WindowState.textsWith_handleInputMessage`), so that the window decodes them, whatever other
messages come in between (`WindowState.texts_run`).
-/

namespace Sardp

/-- The text of an input. -/
def WindowInput.text? : WindowInput → Option String
  | .text s => some s
  | _ => none

/-- The unit of UTF-16 that a message delivers. -/
def WindowMessage.charUnit (m : WindowMessage) : Option ℕ :=
  if m.msg = .char ∧ m.isInjectedEcho = false then some (m.wparam.extractLsb' 0 16).toNat else none

/-- The characters of units that are no control characters. -/
def enteredChars (units : List ℕ) : List Char := (Utf16.decode units).filter fun c => !isControl c

namespace WindowState

variable {s : WindowState} {m : WindowMessage} {unit : ℕ} {units : List ℕ}

/-- The texts the window has sent. -/
def texts (s : WindowState) : List String := s.sent.filterMap WindowInput.text?

/-- The texts the window has sent, and those it will have sent after some more units. -/
def textsWith (s : WindowState) (units : List ℕ) : List String :=
  s.texts ++ (enteredChars (s.pendingHighSurrogate.toList ++ units)).map Char.toString

/-- What is kept is a high surrogate. -/
def PendingIsHigh (s : WindowState) : Prop := ∀ unit ∈ s.pendingHighSurrogate, Utf16.IsHigh unit

/-! ## A unit -/

theorem texts_send (s : WindowState) (event : WindowInput) :
    (s.send event).texts = s.texts ++ event.text?.toList := by
  rw [texts, send, List.filterMap_append]
  cases h : event.text? <;> simp [h, texts]

/-- A high surrogate that is kept makes no pair with a unit that is no low one. -/
theorem decode_pending_of_not_isLow (hpending : s.PendingIsHigh) (hunit : ¬Utf16.IsLow unit) :
    Utf16.decode (s.pendingHighSurrogate.toList ++ unit :: units) =
      Utf16.decode (unit :: units) := by
  have hnext : ∀ next ∈ (unit :: units).head?, ¬Utf16.IsLow next := by
    rintro next ⟨⟩
    exact hunit
  cases hp : s.pendingHighSurrogate with
  | none => rfl
  | some high => exact Utf16.decode_of_isHigh (hpending high hp) hnext

/-- A unit that is no high surrogate completes what comes next in the decoded text. -/
theorem decode_pending_of_not_isHigh (hpending : s.PendingIsHigh) (hunit : ¬Utf16.IsHigh unit) :
    Utf16.decode (s.pendingHighSurrogate.toList ++ unit :: units) =
      (completedChar s.pendingHighSurrogate unit).toList ++ Utf16.decode units := by
  have halone := Utf16.decode_of_not_isHigh hunit units
  cases hp : s.pendingHighSurrogate with
  | none => exact halone
  | some high =>
    rw [completedChar]
    split_ifs with hlow
    · exact Utf16.decode_pair (hpending high hp) hlow units
    · rw [← hp, decode_pending_of_not_isLow hpending hlow]
      exact halone

theorem pendingIsHigh_handleChar : (s.handleChar unit).PendingIsHigh := by
  rw [handleChar]
  split_ifs with hhigh
  · rintro _ ⟨⟩
    exact hhigh
  · dsimp only
    split
    · rintro _ ⟨⟩
    · split_ifs <;> rintro _ ⟨⟩

theorem textsWith_handleChar (hpending : s.PendingIsHigh) :
    (s.handleChar unit).textsWith units = s.textsWith (unit :: units) := by
  rw [handleChar]
  split_ifs with hhigh
  · -- It takes the place of the one before, which has been left without its low one.
    have hdecode : Utf16.decode (s.pendingHighSurrogate.toList ++ unit :: units) =
        Utf16.decode (unit :: units) :=
      decode_pending_of_not_isLow hpending (Utf16.not_isLow_of_isHigh hhigh)
    rw [textsWith, textsWith, enteredChars, enteredChars, hdecode]
    rfl
  · rw [textsWith, textsWith, enteredChars, enteredChars,
      decode_pending_of_not_isHigh hpending hhigh]
    cases completedChar s.pendingHighSurrogate unit with
    | none => rfl
    | some c =>
      dsimp only
      split_ifs with hcontrol
      · rw [Option.toList_some, List.singleton_append, List.filter_cons_of_neg (by simp [hcontrol])]
        rfl
      · rw [Option.toList_some, List.singleton_append, List.filter_cons_of_pos (by simp [hcontrol]),
          texts_send, List.map_cons, List.append_assoc]
        rfl

/-! ## Messages -/

/-- A window that goes on from the same units with the same texts. -/
def SameChars (s t : WindowState) : Prop :=
  t.pendingHighSurrogate = s.pendingHighSurrogate ∧ t.texts = s.texts

theorem sameChars_send {event : WindowInput} (h : event.text? = none) :
    s.SameChars (s.send event) :=
  ⟨rfl, by rw [texts_send, h, Option.toList_none, List.append_nil]⟩

theorem sameChars_handleButton (button : ℕ) (down : Bool) :
    s.SameChars (s.handleButton m button down) := by
  cases hecho : m.isInjectedEcho with
  | true =>
    rw [handleButton, hecho]
    exact ⟨rfl, rfl⟩
  | false =>
    rw [handleButton, hecho]
    exact sameChars_send (s := { s with buttonsDown := _ }) rfl

theorem handleInputMessage_of_charUnit (h : m.charUnit = some unit) :
    (s.handleInputMessage m).2 = s.handleChar unit := by
  rw [WindowMessage.charUnit] at h
  split_ifs at h with hchar
  cases h
  rw [handleInputMessage, hchar.1, hchar.2]
  rfl

/-- Messages that deliver no unit leave the text as it is. -/
theorem sameChars_handleInputMessage (h : m.charUnit = none) :
    s.SameChars (s.handleInputMessage m).2 := by
  cases hmsg : m.msg with
  | char =>
    have hecho : m.isInjectedEcho = true := by
      rw [WindowMessage.charUnit] at h
      split_ifs at h with hchar
      exact (Bool.not_eq_false _).mp fun hecho => hchar ⟨hmsg, hecho⟩
    rw [handleInputMessage, hmsg, hecho]
    exact ⟨rfl, rfl⟩
  | key sys down =>
    rw [handleInputMessage, hmsg]
    dsimp only
    split_ifs
    · exact ⟨rfl, rfl⟩
    · split
      · exact sameChars_send rfl
      · exact ⟨rfl, rfl⟩
  | imeComposition =>
    rw [handleInputMessage, hmsg]
    dsimp only
    split
    · exact sameChars_send rfl
    · exact ⟨rfl, rfl⟩
  | lButton | rButton | mButton | xButton =>
    rw [handleInputMessage, hmsg]
    exact sameChars_handleButton ..
  | imeEndComposition | killFocus =>
    rw [handleInputMessage, hmsg]
    exact sameChars_send (s := { s with composing := false }) rfl
  | mouseMove | mouseWheel | mouseHWheel =>
    rw [handleInputMessage, hmsg]
    dsimp only
    split_ifs
    · exact ⟨rfl, rfl⟩
    · exact sameChars_send rfl
  | sysChar | imeStartComposition | other =>
    rw [handleInputMessage, hmsg]
    exact ⟨rfl, rfl⟩

theorem pendingIsHigh_handleInputMessage (hpending : s.PendingIsHigh) :
    (s.handleInputMessage m).2.PendingIsHigh := by
  cases h : m.charUnit with
  | none =>
    rw [PendingIsHigh, (sameChars_handleInputMessage h).1]
    exact hpending
  | some unit =>
    rw [handleInputMessage_of_charUnit h]
    exact pendingIsHigh_handleChar

/-- A message takes the unit it delivers, if any, off those that are still to come. -/
theorem textsWith_handleInputMessage (hpending : s.PendingIsHigh) :
    (s.handleInputMessage m).2.textsWith units = s.textsWith (m.charUnit.toList ++ units) := by
  cases h : m.charUnit with
  | none =>
    obtain ⟨hsame, htexts⟩ := s.sameChars_handleInputMessage h
    rw [textsWith, textsWith, hsame, htexts]
    rfl
  | some unit =>
    rw [handleInputMessage_of_charUnit h]
    exact textsWith_handleChar hpending

/-! ## Runs -/

/-- The units that messages deliver. -/
def charUnits (messages : List WindowMessage) : List ℕ := messages.filterMap WindowMessage.charUnit

theorem pendingIsHigh_run (messages : List WindowMessage) : (run messages).PendingIsHigh := by
  induction messages using List.reverseRecOn with
  | nil => exact nofun
  | append_singleton messages m ih =>
    rw [run_append_singleton]
    exact pendingIsHigh_handleInputMessage ih

/-- After messages, the texts are those of the units that have been delivered and of those to
    come. -/
theorem textsWith_run (messages : List WindowMessage) (units : List ℕ) :
    (run messages).textsWith units =
      (enteredChars (charUnits messages ++ units)).map Char.toString := by
  induction messages using List.reverseRecOn generalizing units with
  | nil => rfl
  | append_singleton messages m ih =>
    rw [run_append_singleton, textsWith_handleInputMessage (pendingIsHigh_run messages), ih,
      charUnits, charUnits, List.filterMap_append, List.append_assoc]
    cases h : m.charUnit <;> simp [h]

/-- A unit that is kept to the end is no character. -/
theorem enteredChars_pending (messages : List WindowMessage) :
    enteredChars (run messages).pendingHighSurrogate.toList = [] := by
  cases hp : (run messages).pendingHighSurrogate with
  | none => rfl
  | some high =>
    have hhigh := pendingIsHigh_run messages high hp
    rw [enteredChars, Option.toList_some, Utf16.decode_singleton hhigh, List.filter_nil]

theorem join_map_toString (cs : List Char) :
    String.join (cs.map Char.toString) = String.ofList cs := by
  rw [← String.toList_inj, String.toList_join, String.toList_ofList, List.flatMap_map]
  simp only [Char.toString_eq_singleton, String.toList_singleton, List.flatMap_singleton']

/-- The texts that are sent are the characters of the units that are delivered, each by itself and
    none of them a control character. So a text is sent as it was entered, apart from its control
    characters. -/
theorem texts_run (messages : List WindowMessage) :
    (run messages).texts = (enteredChars (charUnits messages)).map Char.toString ∧
      String.join (run messages).texts = String.ofList (enteredChars (charUnits messages)) ∧
      ∀ cs, charUnits messages = Utf16.encode cs →
        String.join (run messages).texts = String.ofList (cs.filter fun c => !isControl c) := by
  have htexts : (run messages).texts = (enteredChars (charUnits messages)).map Char.toString := by
    have hrun := textsWith_run messages []
    rw [textsWith, List.append_nil, List.append_nil, enteredChars_pending, List.map_nil,
      List.append_nil] at hrun
    exact hrun
  have hjoin := join_map_toString (enteredChars (charUnits messages))
  rw [← htexts] at hjoin
  refine ⟨htexts, hjoin, fun cs hcs => ?_⟩
  rw [hjoin, hcs, enteredChars, Utf16.decode_encode]

end WindowState

end Sardp
