import Sardp.Session.BodyFormats

/-!
# The input stream from end to end

The client writes its input as envelopes on a stream of its own, and the server reads them in the
loop of the session (`input_session.rs`), where a call that waits for the next one is dropped
whenever something else happens.

Whatever the stream is cut into, and whenever calls are dropped, the server reads the messages that
have been sent, in order, up to the first that is longer than the stream allows; if the stream
breaks off, it reads the first of them, and nothing else. All it takes is that the library reads the
bodies back that it has written (`InputCodec.input_round_trip`).
-/

namespace Sardp

open Cbor Framing

/-! ## Bodies -/

def KeyEvent.encode (clientTs : ℕ) (key : KeyEvent) : List UInt8 :=
  record [("header", (Wire.InputHeader.mk key.header.eventId clientTs).encode),
    ("down", bool key.down), ("scancode", uint key.scancode),
    ("logical_key", uint key.logicalKey), ("modifiers", uint key.modifiers.toNat)]

def MouseMove.encode (clientTs : ℕ) (m : MouseMove) : List UInt8 :=
  record [("header", (Wire.InputHeader.mk m.header.eventId clientTs).encode), ("x", int m.x),
    ("y", int m.y)]

def MouseButton.encode (clientTs : ℕ) (b : MouseButton) : List UInt8 :=
  record [("header", (Wire.InputHeader.mk b.header.eventId clientTs).encode),
    ("button", uint b.button), ("down", bool b.down), ("x", int b.x), ("y", int b.y)]

def Wheel.encode (clientTs : ℕ) (w : Wheel) : List UInt8 :=
  record [("header", (Wire.InputHeader.mk w.header.eventId clientTs).encode), ("dx", int w.dx),
    ("dy", int w.dy), ("is_precise", bool w.isPrecise)]

/-- The name of a case. -/
def ImeMode.name : ImeMode → String
  | clientSide => "ClientSide"
  | remoteSide => "RemoteSide"

def ImeModeChange.encode (change : ImeModeChange) : List UInt8 :=
  record [("mode", Cbor.text change.mode.name),
    ("effective_after_event_id", uint change.effectiveAfterEventId)]

/-! ## Formats -/

/-- Modifiers as a number. -/
def modifiersFormat : Format UInt8 KeyModifiers :=
  uintFormat.iso (fun n => some (.ofNat 16 n)) BitVec.toNat fun b => by simp

/-- The case with a name. -/
def ImeMode.ofName (name : String) : Option ImeMode :=
  [clientSide, remoteSide].find? fun mode => mode.name = name

/-- Events come with the time at the client, which the server does not look at. -/
def KeyEvent.format : Format UInt8 (ℕ × KeyEvent) :=
  Format.withWrite (recordFormat 5 <|
    ((field "header" Wire.InputHeader.format).pair <| (field "down" boolFormat).pair <|
        (field "scancode" uintFormat).pair <| (field "logical_key" uintFormat).pair <|
        field "modifiers" modifiersFormat).iso
      (fun (header, down, scancode, logicalKey, modifiers) =>
        some (header.clientTs, ⟨⟨header.eventId⟩, down, scancode, logicalKey, modifiers⟩))
      (fun (clientTs, key) => (⟨key.header.eventId, clientTs⟩, key.down, key.scancode,
        key.logicalKey, key.modifiers)) fun _ => rfl)
    (fun (clientTs, key) => key.encode clientTs)
    fun (clientTs, key) => by simp [encode, record, Wire.InputHeader.format, modifiersFormat]

def TextInput.format : Format UInt8 (ℕ × TextInput) :=
  Wire.TextInput.format.iso
    (fun event => some (event.header.clientTs, ⟨⟨event.header.eventId⟩, event.text⟩))
    (fun (clientTs, event) => ⟨⟨event.header.eventId, clientTs⟩, event.text⟩) fun _ => rfl

theorem TextInput.fits_iff {clientTs : ℕ} {e : TextInput} : format.Fits (clientTs, e) ↔
    (e.header.eventId < 2 ^ 64 ∧ clientTs < 2 ^ 64) ∧ e.text.utf8ByteSize < 2 ^ 64 := Iff.rfl

def ImeComposition.format : Format UInt8 (ℕ × ImeComposition) :=
  Wire.ImeComposition.format.iso
    (fun event => some (event.header.clientTs, ⟨⟨event.header.eventId⟩, event.text, event.caret⟩))
    (fun (clientTs, event) => ⟨⟨event.header.eventId, clientTs⟩, event.text, event.caret⟩)
    fun _ => rfl

def MouseMove.format : Format UInt8 (ℕ × MouseMove) :=
  Format.withWrite (recordFormat 3 <|
    ((field "header" Wire.InputHeader.format).pair <| (field "x" intFormat).pair <|
        field "y" intFormat).iso
      (fun (header, x, y) => some (header.clientTs, ⟨⟨header.eventId⟩, x, y⟩))
      (fun (clientTs, m) => (⟨m.header.eventId, clientTs⟩, m.x, m.y)) fun _ => rfl)
    (fun (clientTs, m) => m.encode clientTs)
    fun (clientTs, m) => by simp [encode, record, Wire.InputHeader.format]

theorem MouseMove.fits_iff {clientTs : ℕ} {m : MouseMove} : format.Fits (clientTs, m) ↔
    (m.header.eventId < 2 ^ 64 ∧ clientTs < 2 ^ 64) ∧
      (-2 ^ 64 ≤ m.x ∧ m.x < 2 ^ 64) ∧ -2 ^ 64 ≤ m.y ∧ m.y < 2 ^ 64 := Iff.rfl

def MouseButton.format : Format UInt8 (ℕ × MouseButton) :=
  Format.withWrite (recordFormat 5 <|
    ((field "header" Wire.InputHeader.format).pair <| (field "button" uintFormat).pair <|
        (field "down" boolFormat).pair <| (field "x" intFormat).pair <| field "y" intFormat).iso
      (fun (header, button, down, x, y) =>
        some (header.clientTs, ⟨⟨header.eventId⟩, button, down, x, y⟩))
      (fun (clientTs, b) => (⟨b.header.eventId, clientTs⟩, b.button, b.down, b.x, b.y))
      fun _ => rfl)
    (fun (clientTs, b) => b.encode clientTs)
    fun (clientTs, b) => by simp [encode, record, Wire.InputHeader.format]

def Wheel.format : Format UInt8 (ℕ × Wheel) :=
  Format.withWrite (recordFormat 4 <|
    ((field "header" Wire.InputHeader.format).pair <| (field "dx" intFormat).pair <|
        (field "dy" intFormat).pair <| field "is_precise" boolFormat).iso
      (fun (header, dx, dy, isPrecise) =>
        some (header.clientTs, ⟨⟨header.eventId⟩, dx, dy, isPrecise⟩))
      (fun (clientTs, w) => (⟨w.header.eventId, clientTs⟩, w.dx, w.dy, w.isPrecise)) fun _ => rfl)
    (fun (clientTs, w) => w.encode clientTs)
    fun (clientTs, w) => by simp [encode, record, Wire.InputHeader.format]

def ImeModeChange.format : Format UInt8 ImeModeChange :=
  Format.withWrite (recordFormat 2 <|
    ((field "mode" (caseFormat ImeMode.name ImeMode.ofName fun mode => by cases mode <;> rfl)).pair
        (field "effective_after_event_id" uintFormat)).iso
      (fun (mode, effectiveAfterEventId) => some ⟨mode, effectiveAfterEventId⟩)
      (fun change => (change.mode, change.effectiveAfterEventId)) fun _ => rfl)
    encode fun change => by simp [encode, record]

/-! ## Messages and their envelopes -/

namespace InputMessage

/-- The envelope of a message that is sent at a time of the client. -/
def envelope (clientTs : ℕ) : InputMessage → UInt16 × List UInt8
  | key e => (TypeId.KEY_EVENT, e.encode clientTs)
  | text e => (TypeId.TEXT_INPUT, (Wire.TextInput.mk ⟨e.header.eventId, clientTs⟩ e.text).encode)
  | imeComposition e => (TypeId.IME_COMPOSITION,
      (Wire.ImeComposition.mk ⟨e.header.eventId, clientTs⟩ e.text e.caret).encode)
  | mouseMove e => (TypeId.MOUSE_MOVE, e.encode clientTs)
  | mouseButton e => (TypeId.MOUSE_BUTTON, e.encode clientTs)
  | wheel e => (TypeId.WHEEL, e.encode clientTs)
  | imeModeChange change => (TypeId.IME_MODE_CHANGE, change.encode)

/-- The numbers of the message are of 64 bits, and so is the length of its text. -/
def Fits (clientTs : ℕ) : InputMessage → Prop
  | key e => KeyEvent.format.Fits (clientTs, e)
  | text e => TextInput.format.Fits (clientTs, e)
  | imeComposition e => ImeComposition.format.Fits (clientTs, e)
  | mouseMove e => MouseMove.format.Fits (clientTs, e)
  | mouseButton e => MouseButton.format.Fits (clientTs, e)
  | wheel e => Wheel.format.Fits (clientTs, e)
  | imeModeChange change => ImeModeChange.format.Fits change

/-- The message is as long as the stream allows. -/
def Short (clientTs : ℕ) (m : InputMessage) : Prop :=
  (m.envelope clientTs).2.length ≤ StreamKind.input.maxEnvelopeLength

instance (clientTs : ℕ) (m : InputMessage) : Decidable (m.Short clientTs) :=
  inferInstanceAs (Decidable (_ ≤ _))

end InputMessage

/-! ## The server -/

/-- Called anew where it has come to wait, a function that reads one envelope waits there again. -/
theorem restartable_readAs {σ ε A : Type} {maxLength : ℕ} (ofRead : StreamReadError → ε)
    (f : UInt16 × List UInt8 → Except ε A) :
    (readAs ofRead f : Async σ EnvelopeRead ε A).Restartable (Envelope.decoder maxLength) := by
  intro s buf
  rw [readAs, poll_readEnvelope_bind]
  cases hparse : Envelope.parse buf maxLength with
  | error e => exact .inl ⟨_, rfl⟩
  | ok result =>
    cases result with
    | none =>
      refine .inr ?_
      dsimp only
      rw [poll_readEnvelope_bind, hparse]
    | some fn => exact .inl ⟨_, rfl⟩

namespace InputCodec

/-- The library reads back what it has written. -/
structure ReadsBack (codec : InputCodec) : Prop where
  key : ∀ clientTs e, KeyEvent.format.Fits (clientTs, e) → codec.key (e.encode clientTs) = some e
  text : ∀ clientTs e, TextInput.format.Fits (clientTs, e) →
    codec.text (Wire.TextInput.mk ⟨e.header.eventId, clientTs⟩ e.text).encode = some e
  imeComposition : ∀ clientTs e, ImeComposition.format.Fits (clientTs, e) →
    codec.imeComposition
      (Wire.ImeComposition.mk ⟨e.header.eventId, clientTs⟩ e.text e.caret).encode = some e
  mouseMove : ∀ clientTs e, MouseMove.format.Fits (clientTs, e) →
    codec.mouseMove (e.encode clientTs) = some e
  mouseButton : ∀ clientTs e, MouseButton.format.Fits (clientTs, e) →
    codec.mouseButton (e.encode clientTs) = some e
  wheel : ∀ clientTs e, Wheel.format.Fits (clientTs, e) → codec.wheel (e.encode clientTs) = some e
  imeModeChange : ∀ change, ImeModeChange.format.Fits change →
    codec.imeModeChange change.encode = some change

/-- Reading the bodies as they have been written. -/
def ofFormats : InputCodec where
  key body := (KeyEvent.format.readWhole body).map Prod.snd
  text body := (TextInput.format.readWhole body).map Prod.snd
  imeComposition body := (ImeComposition.format.readWhole body).map Prod.snd
  mouseMove body := (MouseMove.format.readWhole body).map Prod.snd
  mouseButton body := (MouseButton.format.readWhole body).map Prod.snd
  wheel body := (Wheel.format.readWhole body).map Prod.snd
  imeModeChange := ImeModeChange.format.readWhole

theorem readsBack_ofFormats : ofFormats.ReadsBack where
  key _ _ h := congrArg (Option.map Prod.snd) (Format.readWhole_write h)
  text _ _ h := congrArg (Option.map Prod.snd) (Format.readWhole_write h)
  imeComposition _ _ h := congrArg (Option.map Prod.snd) (Format.readWhole_write h)
  mouseMove _ _ h := congrArg (Option.map Prod.snd) (Format.readWhole_write h)
  mouseButton _ _ h := congrArg (Option.map Prod.snd) (Format.readWhole_write h)
  wheel _ _ h := congrArg (Option.map Prod.snd) (Format.readWhole_write h)
  imeModeChange _ h := Format.readWhole_write h

variable {codec : InputCodec} {clientTs : ℕ} {m : InputMessage}

/-- What the server makes of an envelope. -/
def messageOf (codec : InputCodec) : UInt16 × List UInt8 → Except ReadInputError InputMessage :=
  decodeOneOf .unexpectedType .decode
    [(TypeId.KEY_EVENT, fun body => (codec.key body).map .key),
      (TypeId.TEXT_INPUT, fun body => (codec.text body).map .text),
      (TypeId.IME_COMPOSITION, fun body => (codec.imeComposition body).map .imeComposition),
      (TypeId.MOUSE_MOVE, fun body => (codec.mouseMove body).map .mouseMove),
      (TypeId.MOUSE_BUTTON, fun body => (codec.mouseButton body).map .mouseButton),
      (TypeId.WHEEL, fun body => (codec.wheel body).map .wheel),
      (TypeId.IME_MODE_CHANGE, fun body => (codec.imeModeChange body).map .imeModeChange)]

theorem readMessage_eq (codec : InputCodec) :
    codec.readMessage = readAs .read codec.messageOf := rfl

/-- A message is read as what has been sent, without the time. -/
theorem messageOf_envelope (hcodec : codec.ReadsBack) (h : m.Fits clientTs) :
    codec.messageOf (m.envelope clientTs) = .ok m := by
  have hread {M : Type} {body : Option M} {e : M} (he : body = some e) (f : M → InputMessage) :
      (body.map f).elim (Except.error ReadInputError.decode) Except.ok = Except.ok (f e) := by
    rw [he]
    rfl
  cases m with
  | key e => exact hread (hcodec.key clientTs e h) .key
  | text e => exact hread (hcodec.text clientTs e h) .text
  | imeComposition e => exact hread (hcodec.imeComposition clientTs e h) .imeComposition
  | mouseMove e => exact hread (hcodec.mouseMove clientTs e h) .mouseMove
  | mouseButton e => exact hread (hcodec.mouseButton clientTs e h) .mouseButton
  | wheel e => exact hread (hcodec.wheel clientTs e h) .wheel
  | imeModeChange change => exact hread (hcodec.imeModeChange change h) .imeModeChange

/-- The messages that the envelopes begin with. -/
def messagesOf (codec : InputCodec) : List (UInt16 × List UInt8) → List InputMessage
  | [] => []
  | env :: envs =>
    match codec.messageOf env with
    | .ok m => m :: codec.messagesOf envs
    | .error _ => []

theorem messagesOf_envelopes (hcodec : codec.ReadsBack) {sent : List (ℕ × InputMessage)}
    (hfits : ∀ x ∈ sent, x.2.Fits x.1) :
    codec.messagesOf (sent.map fun x => x.2.envelope x.1) = sent.map Prod.snd := by
  induction sent with
  | nil => rfl
  | cons x sent ih =>
    obtain ⟨hx, hsent⟩ := List.forall_mem_cons.1 hfits
    simp only [List.map_cons, messagesOf, messageOf_envelope hcodec hx, ih hsent]

/-- More envelopes are more messages. -/
theorem messagesOf_mono (codec : InputCodec) {envs envs' : List (UInt16 × List UInt8)}
    (hp : envs <+: envs') : codec.messagesOf envs <+: codec.messagesOf envs' := by
  obtain ⟨more, rfl⟩ := hp
  induction envs with
  | nil => exact List.nil_prefix
  | cons env envs ih =>
    simp only [List.cons_append, messagesOf]
    cases codec.messageOf env with
    | error e => exact List.nil_prefix
    | ok m => exact List.cons_prefix_cons.2 ⟨rfl, ih⟩

/-! ## The calls -/

variable {r : EnvelopeReader} {envs : List (UInt16 × List UInt8)} {stop : StreamReadError}

/-- A call gives the next message that the stream carries, or fails. -/
theorem exec_readMessage
    (h : EnvelopeReader.Carries StreamKind.input.maxEnvelopeLength r envs stop) :
    (∃ m rest r', codec.messagesOf envs = m :: codec.messagesOf rest ∧
      EnvelopeReader.Carries StreamKind.input.maxEnvelopeLength r' rest stop ∧
      codec.readMessage.exec (Envelope.decoder StreamKind.input.maxEnvelopeLength) () r =
        (.ok m, (), r')) ∨
    codec.messagesOf envs = [] ∧ ∃ e x,
      codec.readMessage.exec (Envelope.decoder StreamKind.input.maxEnvelopeLength) () r =
        (.error e, x) := by
  rw [readMessage_eq]
  rcases parses_readAs (s := ()) .read codec.messageOf r envs stop h with
    ⟨m, rest, r', hnext, h', hexec⟩ | ⟨hnext, e, x, hexec⟩
  · refine .inl ⟨m, rest, r', ?_, h', hexec⟩
    cases envs with
    | nil => cases hnext
    | cons env envs =>
      obtain ⟨m', hm', heq⟩ := Option.map_eq_some_iff.1 hnext
      cases heq
      simp only [messagesOf]
      cases hm : codec.messageOf env with
      | error e =>
        rw [hm] at hm'
        cases hm'
      | ok m =>
        rw [hm] at hm'
        cases hm'
        rfl
  · refine .inr ⟨?_, e, x, hexec⟩
    cases envs with
    | nil => rfl
    | cons env envs =>
      simp only [messagesOf]
      cases hm : codec.messageOf env with
      | error e => rfl
      | ok m =>
        rw [EnvelopeParser.next, hm] at hnext
        cases hnext

/-- Left alone, the calls give the messages that the stream carries, and then fail. -/
theorem results_readMessage
    (h : EnvelopeReader.Carries StreamKind.input.maxEnvelopeLength r envs stop) (n : ℕ) :
    let results := codec.readMessage.results (Envelope.decoder StreamKind.input.maxEnvelopeLength) n
      codec.readMessage () r
    results.filterMap (·.toOption) = (codec.messagesOf envs).take n ∧
      ∀ e, .error e ∈ results → (codec.messagesOf envs).length < n := by
  induction n generalizing r envs with
  | zero => exact ⟨rfl, fun e he => by cases he⟩
  | succ n ih =>
    simp only [Async.results]
    rcases @exec_readMessage codec _ _ _ h with
      ⟨m, rest, r', hmessages, h', hexec⟩ | ⟨hmessages, e, x, hexec⟩
    · obtain ⟨hresults, hlength⟩ := ih h'
      rw [hexec, hmessages, List.take_succ_cons, ← hresults]
      refine ⟨rfl, fun e he => ?_⟩
      rcases List.mem_cons.1 he with he | he
      · cases he
      · exact Nat.succ_lt_succ (hlength e he)
    · rw [hexec, hmessages]
      exact ⟨rfl, fun _ _ => Nat.succ_pos n⟩

/-! ## The loop -/

/-- The loop of the session, as far as it reads the input. -/
abbrev loop (codec : InputCodec) :
    Machine (Loop Unit UInt8 EnvelopeRead ReadInputError InputMessage) (CallEvent UInt8) :=
  Loop.machine (Envelope.decoder StreamKind.input.maxEnvelopeLength) codec.readMessage

variable {buf : List UInt8} {es : List (CallEvent UInt8)}
  {l : Loop Unit UInt8 EnvelopeRead ReadInputError InputMessage}

/-- A call that waits has no complete envelope, and would fail if there came nothing else. -/
theorem outcome_of_waiting (hrun : codec.loop.run (.start () buf) es = some l)
    (hwaits : l.future.isSome) :
    ∃ e, l.outcome (Envelope.decoder StreamKind.input.maxEnvelopeLength) codec.readMessage
      ⟨[], none⟩ 1 = l.results ++ [.error e] := by
  obtain ⟨p, hp⟩ := Option.isSome_iff_exists.1 hwaits
  obtain ⟨hsettled, hdone, hended⟩ := (Loop.waiting_start () buf).run hrun p hp
  have hresumes : l.Resumes (Envelope.decoder StreamKind.input.maxEnvelopeLength)
      codec.readMessage :=
    Machine.run_invariant (fun _ _ _ h hstep => h.step (restartable_readAs _ _) hstep)
      (fun p hp => by cases hp) hrun
  have hpoll := hresumes p hp
  rw [readMessage_eq, readAs, poll_readEnvelope_bind] at hpoll
  cases hparse : Envelope.parse l.buf StreamKind.input.maxEnvelopeLength with
  | error e =>
    rw [hparse] at hpoll
    exact absurd (Prod.mk.inj hpoll).1.symm (hdone _)
  | ok result =>
    cases result with
    | some fn =>
      rw [hparse] at hpoll
      exact absurd (Prod.mk.inj hpoll).1.symm (hdone _)
    | none =>
      rw [hparse] at hpoll
      obtain rfl := (Prod.mk.inj hpoll).1
      have hnil : EnvelopeReader.envelopes ⟨⟨[], none⟩, l.buf⟩
          StreamKind.input.maxEnvelopeLength = [] := by
        have hcontents := @contents_of_none _ _ _ _
          (Envelope.progressive_decoder StreamKind.input.maxEnvelopeLength) _ hparse
        rw [EnvelopeReader.envelopes, Reader.remaining, symbols_nil, List.append_nil, hcontents,
          List.map_nil]
      have hcarries := EnvelopeReader.carries_self ⟨⟨[], none⟩, l.buf⟩
        StreamKind.input.maxEnvelopeLength
      rw [hnil] at hcarries
      rcases @exec_readMessage codec _ _ _ hcarries with
        ⟨m, rest, r', hmessages, -⟩ | ⟨-, e, x, hexec⟩
      · cases hmessages
      · refine ⟨e, ?_⟩
        have hresults : codec.readMessage.results
            (Envelope.decoder StreamKind.input.maxEnvelopeLength) 1 codec.readMessage l.state
              ⟨⟨[], none⟩, l.buf⟩ = [.error e] := by
          rw [Async.results, hexec]
        rw [Loop.outcome, if_neg (by simp [hended]), hp]
        exact congrArg (l.results ++ ·) hresults

/-- What the loop has read are the first of the messages that the bytes carry, whenever calls have
    been dropped; and all of them once a call waits or has failed. -/
theorem messages_of_run (hrun : codec.loop.run (.start () buf) es = some l)
    (hcarries : EnvelopeReader.Carries StreamKind.input.maxEnvelopeLength
      ⟨⟨arrived es, none⟩, buf⟩ envs stop) :
    l.results.filterMap (·.toOption) <+: codec.messagesOf envs ∧
      (l.future.isSome ∨ (∃ e, .error e ∈ l.results) →
        l.results.filterMap (·.toOption) = codec.messagesOf envs) := by
  have hfaithful : Loop.Faithful _ codec.readMessage (.start () buf) es l :=
    Async.Restartable.faithful (restartable_readAs _ codec.messageOf) hrun
  -- what the loop gets from where it is, is what the calls would have got if left alone
  have hresults (n : ℕ) : l.outcome (Envelope.decoder StreamKind.input.maxEnvelopeLength)
      codec.readMessage ⟨[], none⟩ n = codec.readMessage.results
        (Envelope.decoder StreamKind.input.maxEnvelopeLength) (l.results.length + n)
          codec.readMessage () ⟨⟨arrived es, none⟩, buf⟩ := by
    have houtcome := hfaithful [] none n
    rw [List.append_nil] at houtcome
    exact houtcome
  have hzero : l.outcome (Envelope.decoder StreamKind.input.maxEnvelopeLength) codec.readMessage
      ⟨[], none⟩ 0 = l.results := by
    rw [Loop.outcome]
    split_ifs
    · rfl
    · exact List.append_nil _
  obtain ⟨htake, herror⟩ := @results_readMessage codec _ _ _ hcarries (l.results.length + 0)
  rw [← hresults, hzero] at htake herror
  refine ⟨htake ▸ List.take_prefix _ _, fun hend => ?_⟩
  rw [htake, List.take_of_length_le]
  rcases hend with hwaits | ⟨e, he⟩
  · obtain ⟨e, hone⟩ := outcome_of_waiting hrun hwaits
    have hlength := (@results_readMessage codec _ _ _ hcarries (l.results.length + 1)).2 e
    rw [← hresults, hone] at hlength
    exact Nat.le_of_lt_succ (hlength (List.mem_append_right _ (List.mem_singleton_self _)))
  · exact (herror e he).le

/-! ## The round trip -/

/-- The bytes of the stream: its prologue, and the envelopes of the messages, each with the time it
    is sent at. -/
def streamBytes (sent : List (ℕ × InputMessage)) : Option (List UInt8) :=
  StreamPrologue.encode .input 1 0 [] >>= encodeAll (sent.map fun x => x.2.envelope x.1)

variable {sent : List (ℕ × InputMessage)} {bytes : List UInt8} {recv : RecvStream}

/-- What a stream carries that may break off are the first of the envelopes that have been sent, up
    to one that is too long. -/
theorem envelopes_of_streamBytes (hwritten : streamBytes sent = some bytes)
    (hp : symbols recv.chunks <+: bytes) {streamPrologue : StreamPrologue}
    (hread : EnvelopeReader.readPrologue (Reader.new recv) = (.ok streamPrologue, r)) :
    streamPrologue = ⟨.input, 1, 0⟩ ∧
      r.envelopes StreamKind.input.maxEnvelopeLength <+:
        (sent.takeWhile fun x => x.2.Short x.1).map (fun x => x.2.envelope x.1) ∧
      (symbols recv.chunks = bytes → r.envelopes StreamKind.input.maxEnvelopeLength =
        (sent.takeWhile fun x => x.2.Short x.1).map fun x => x.2.envelope x.1) := by
  have hshort : (sent.map fun x => x.2.envelope x.1).takeWhile
      (fun env => env.2.length ≤ StreamKind.input.maxEnvelopeLength) =
        (sent.takeWhile fun x => x.2.Short x.1).map fun x => x.2.envelope x.1 := by
    rw [List.takeWhile_map]
    rfl
  rw [← hshort]
  exact EnvelopeReader.envelopes_of_written hwritten hp hread

/-- Of a stream that may break off, the loop reads the first of the messages that have been sent, up
    to one that is too long, and nothing else. -/
theorem messages_of_streamBytes (hcodec : codec.ReadsBack) (hfits : ∀ x ∈ sent, x.2.Fits x.1)
    (hwritten : streamBytes sent = some bytes) (hp : symbols recv.chunks <+: bytes)
    {streamPrologue : StreamPrologue}
    (hread : EnvelopeReader.readPrologue (Reader.new recv) = (.ok streamPrologue, r))
    (harrived : arrived es <+: r.source.chunks)
    (hrun : codec.loop.run (.start () r.buf) es = some l) :
    l.results.filterMap (·.toOption) <+: (sent.takeWhile fun x => x.2.Short x.1).map Prod.snd ∧
      (symbols recv.chunks = bytes → arrived es = r.source.chunks →
        l.future.isSome ∨ (∃ e, .error e ∈ l.results) →
        l.results.filterMap (·.toOption) =
          (sent.takeWhile fun x => x.2.Short x.1).map Prod.snd) := by
  obtain ⟨-, henvs, hwhole⟩ := envelopes_of_streamBytes hwritten hp hread
  have hshort : ∀ x ∈ sent.takeWhile fun x => x.2.Short x.1, x.2.Fits x.1 :=
    fun x hx => hfits x ((List.takeWhile_prefix _).subset hx)
  obtain ⟨more, hmore⟩ := harrived
  have hrem : Reader.remaining (⟨⟨arrived es, none⟩, r.buf⟩ : EnvelopeReader) ++ symbols more =
      r.remaining := by
    rw [Reader.remaining, Reader.remaining, ← hmore, List.append_assoc]
    simp [symbols]
  have hframes := contents_prefix (Envelope.progressive_decoder
    StreamKind.input.maxEnvelopeLength) ⟨_, hrem⟩
  have hcut : EnvelopeReader.envelopes ⟨⟨arrived es, none⟩, r.buf⟩
      StreamKind.input.maxEnvelopeLength <+: r.envelopes StreamKind.input.maxEnvelopeLength :=
    hframes.map _
  obtain ⟨hfirst, hall⟩ := messages_of_run hrun (EnvelopeReader.carries_self _ _)
  rw [← messagesOf_envelopes hcodec hshort]
  refine ⟨hfirst.trans (messagesOf_mono codec (hcut.trans henvs)), fun hbytes heq hend => ?_⟩
  have hmore' : more = [] := by
    rw [heq] at hmore
    exact List.self_eq_append_right.1 hmore.symm
  subst hmore'
  rw [symbols_nil, List.append_nil] at hrem
  rw [hall hend, EnvelopeReader.envelopes, hrem, ← hwhole hbytes]
  rfl

/-- Whatever the stream of the input is cut into, and whenever calls are dropped, the server reads
    the messages the client has sent, each once and in order, up to the first that is longer than
    the stream allows: all of them if the stream arrives whole, and the first of them and nothing
    else if it breaks off. -/
theorem input_round_trip (hcodec : codec.ReadsBack) (hfits : ∀ x ∈ sent, x.2.Fits x.1)
    (hwritten : streamBytes sent = some bytes) (hp : symbols recv.chunks <+: bytes) :
    (symbols recv.chunks = bytes → ∃ r,
      EnvelopeReader.readPrologue (Reader.new recv) = (.ok ⟨.input, 1, 0⟩, r)) ∧
    ∀ streamPrologue r, EnvelopeReader.readPrologue (Reader.new recv) = (.ok streamPrologue, r) →
      streamPrologue = ⟨.input, 1, 0⟩ ∧
      ∀ es l, arrived es <+: r.source.chunks → codec.loop.run (.start () r.buf) es = some l →
        l.results.filterMap (·.toOption) <+:
          (sent.takeWhile fun x => x.2.Short x.1).map Prod.snd ∧
        (symbols recv.chunks = bytes → arrived es = r.source.chunks →
          l.future.isSome ∨ (∃ e, .error e ∈ l.results) →
          l.results.filterMap (·.toOption) =
            (sent.takeWhile fun x => x.2.Short x.1).map Prod.snd) := by
  refine ⟨fun hwhole => ?_, fun streamPrologue r hread =>
    ⟨(envelopes_of_streamBytes hwritten hp hread).1, fun es l harrived hrun =>
      messages_of_streamBytes hcodec hfits hwritten hp hread harrived hrun⟩⟩
  rw [streamBytes] at hwritten
  obtain ⟨prologue, hprologue, hbytes⟩ := Option.bind_eq_some_iff.1 hwritten
  obtain ⟨cs, rfl, -⟩ :=
    encodes_of_encodeAll (encodeAll_isSome.1 (Option.isSome_of_eq_some hbytes)) hbytes
  obtain ⟨r, hread, -⟩ :=
    EnvelopeReader.readPrologue_of_encoded (r := Reader.new recv) hprologue hwhole
  exact ⟨r, hread⟩

/-- The stream is cut within an envelope, and a call that waits for the rest is dropped. -/
theorem input_round_trip_cut :
    let sent : List (ℕ × InputMessage) := [(5, .mouseMove ⟨⟨1⟩, 3, -2⟩), (6, .text ⟨⟨2⟩, "a"⟩)]
    ∃ first rest : Chunk UInt8, streamBytes sent = some (first.1 ++ rest.1) ∧ ∃ r l,
      EnvelopeReader.readPrologue (Reader.new ⟨[first, rest], none⟩) = (.ok ⟨.input, 1, 0⟩, r) ∧
      ofFormats.loop.run (.start () r.buf) [.call, .reissue, .chunk rest, .call, .call] = some l ∧
      l.results.filterMap (·.toOption) = sent.map Prod.snd := by
  intro sent
  have hfits : ∀ x ∈ sent, x.2.Fits x.1 := List.forall_mem_cons.2
    ⟨MouseMove.fits_iff.2 (by decide),
      List.forall_mem_singleton.2 (TextInput.fits_iff.2 (by decide +kernel))⟩
  let bytes := (streamBytes sent).getD []
  let first : Chunk UInt8 := ⟨bytes.take 20, by decide +kernel⟩
  let rest : Chunk UInt8 := ⟨bytes.drop 20, by decide +kernel⟩
  have hwritten : streamBytes sent = some (first.1 ++ rest.1) := by decide +kernel
  have hwhole : symbols [first, rest] = first.1 ++ rest.1 := by
    rw [symbols_cons, symbols_cons, symbols_nil, List.append_nil]
  obtain ⟨hprologue, hall⟩ := @input_round_trip ofFormats sent _ ⟨[first, rest], none⟩
    readsBack_ofFormats hfits hwritten (hwhole ▸ List.prefix_rfl)
  obtain ⟨r, hread⟩ := hprologue hwhole
  obtain rfl := congrArg Prod.snd hread
  have hruns : (ofFormats.loop.run
      (.start () (EnvelopeReader.readPrologue (Reader.new ⟨[first, rest], none⟩)).2.buf)
      [.call, .reissue, .chunk rest, .call, .call]).map (·.future.isSome) = some true := by
    decide +kernel
  obtain ⟨l, hrun, hwaits⟩ := Option.map_eq_some_iff.1 hruns
  have harrived : [rest] =
      (EnvelopeReader.readPrologue (Reader.new ⟨[first, rest], none⟩)).2.source.chunks := by
    decide +kernel
  have hmessages := ((hall _ _ hread).2 _ l (harrived ▸ List.prefix_rfl) hrun).2 hwhole harrived
    (.inl hwaits)
  exact ⟨first, rest, hwritten, _, l, hread, hrun, hmessages.trans (by decide +kernel)⟩

end InputCodec

end Sardp
