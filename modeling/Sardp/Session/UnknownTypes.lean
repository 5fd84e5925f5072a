import Sardp.Library.Termination
import Sardp.Session.ControlFormats
import Sardp.Session.IdleTimeouts

/-!
# Envelopes of unknown types

The readers compare the types of envelopes with those they know, and none of them looks at the
flag that says that an unknown type may be skipped. The loops of the server and the client go on
after a control message of a type they do not know, whether it has the flag or not; but it counts
as activity, and puts their idle timeouts off (`Ignores`). Every other reader fails on such an
envelope, whether it has the flag or not (`Terminates`). That is what `unknown_types` says of all of
them, as far as the flag is not meant to make a difference.
-/

namespace Sardp

open Framing Async

/-- A reader, which calls `first` and then `next` time and again, is ended by the envelope: the
    calls give what they would if the stream ended before it, up to the reason of the failure, and
    by the time it is reached there is an error. -/
def Terminates {σ ε α : Type} (kind : StreamKind) (next first : Async σ EnvelopeRead ε α) (s : σ)
    (x : Envelope) : Prop :=
  let d := Envelope.decoder kind.maxEnvelopeLength
  let hd := Envelope.progressive_decoder kind.maxEnvelopeLength
  ∀ r r₀ pre post stop stop₀, Holds d hd r (pre ++ x :: post) stop → Holds d hd r₀ pre stop₀ →
    ∀ n, (next.results d n first s r).map Except.toOption =
        (next.results d n first s r₀).map Except.toOption ∧
      (pre.length < n → ∃ e, (next.results d n first s r).getLast? = some (.error e))

variable {σ ε α : Type} {kind : StreamKind} {next first : Async σ EnvelopeRead ε α} {s : σ}
  {x : Envelope} {ofRead : StreamReadError → ε}

theorem terminates_of_refuses (hfirst : first.Refuses (NoneBut x))
    (hnext : next.Refuses (NoneBut x)) (hfirst' : first.Takes) (hnext' : next.Takes) :
    Terminates kind next first s x :=
  fun _ _ _ _ _ _ hr hr₀ n => ⟨hfirst.results hnext hr hr₀ s n,
    fun hn => hfirst.results_ends hnext hfirst' hnext' hr s hn⟩

/-- What waits for an envelope refuses the one it fails on, if what comes after it does. -/
theorem refuses_readEnvelope_bind {k : UInt16 × List UInt8 → Async σ EnvelopeRead ε α}
    (hx : (k (x.typeRaw, x.payload)).Fails) (hk : ∀ env, (k env).Refuses (NoneBut x)) :
    (readEnvelope ofRead >>= k).Refuses (NoneBut x) := by
  refine ⟨fun read hread => ?_, fun read => ?_⟩
  · cases read with
    | error e => trivial
    | ok env =>
      obtain rfl := hread env rfl
      exact hx
  · cases read with
    | error e => trivial
    | ok env => exact hk _

theorem refuses_readAs {f : UInt16 × List UInt8 → Except ε α} {e : ε}
    (h : f (x.typeRaw, x.payload) = .error e) :
    (readAs ofRead f : Async σ EnvelopeRead ε α).Refuses (NoneBut x) := by
  refine refuses_readEnvelope_bind ?_ fun _ => trivial
  rw [h]
  trivial

theorem takes_readAs (f : UInt16 × List UInt8 → Except ε α) :
    (readAs ofRead f : Async σ EnvelopeRead ε α).Takes := trivial

theorem decodeOneOf_of_unknown {unexpected : UInt16 → ε} {undecoded : ε}
    {table : List (UInt16 × (List UInt8 → Option α))} {env : UInt16 × List UInt8}
    (h : env.1 ∉ table.map Prod.fst) :
    decodeOneOf unexpected undecoded table env = .error (unexpected env.1) := by
  have hnone : (table.find? fun entry => entry.1 = env.1) = none :=
    List.find?_eq_none.2 fun entry hentry heq =>
      h (List.mem_map.2 ⟨entry, hentry, of_decide_eq_true heq⟩)
  rw [decodeOneOf, hnone]

/-! ## The readers -/

theorem FeedbackCodec.terminates (codec : FeedbackCodec)
    (hx : x.typeRaw ∉ StreamKind.feedback.knownTypes) :
    Terminates .feedback codec.readMessage codec.readMessage () x :=
  have hrefuses : codec.readMessage.Refuses (NoneBut x) :=
    refuses_readAs (decodeOneOf_of_unknown hx)
  terminates_of_refuses hrefuses hrefuses (takes_readAs _) (takes_readAs _)

theorem InputCodec.terminates (codec : InputCodec)
    (hx : x.typeRaw ∉ StreamKind.input.knownTypes) :
    Terminates .input codec.readMessage codec.readMessage () x :=
  have hrefuses : codec.readMessage.Refuses (NoneBut x) :=
    refuses_readAs (decodeOneOf_of_unknown hx)
  terminates_of_refuses hrefuses hrefuses (takes_readAs _) (takes_readAs _)

namespace ClipboardCodec

variable (codec : ClipboardCodec)

/-- The side that has announced its formats reads requests. -/
theorem terminates_announcer (hx : x.typeRaw ∉ StreamKind.clipboard.knownTypes) :
    Terminates .clipboard codec.readClipboardRequest codec.readClipboardRequest () x := by
  have hrefuses : codec.readClipboardRequest.Refuses (NoneBut x) := by
    refine refuses_readAs (decodeOneOf_of_unknown fun hmem => hx ?_)
    simp_all [StreamKind.knownTypes]
  exact terminates_of_refuses hrefuses hrefuses (takes_readAs _) (takes_readAs _)

/-- The other side reads the formats, and the answer to its request. -/
theorem terminates_requester (contextId : ℕ)
    (hx : x.typeRaw ∉ StreamKind.clipboard.knownTypes) :
    Terminates .clipboard codec.next (codec.accept contextId) () x := by
  have haccept : (codec.accept contextId).Refuses (NoneBut x) := by
    refine Refuses.bind (Refuses.bind (refuses_readAs (decodeOneOf_of_unknown fun hmem => hx ?_))
      fun formats => ?_) fun _ => trivial
    · simp_all [StreamKind.knownTypes]
    · split_ifs <;> trivial
  have hnext : codec.next.Refuses (NoneBut x) := by
    refine Refuses.bind (refuses_readAs (decodeOneOf_of_unknown fun hmem => hx ?_)) fun _ => trivial
    simp_all [StreamKind.knownTypes]
  exact terminates_of_refuses haccept hnext trivial trivial

end ClipboardCodec

theorem AudioStreamCodec.terminates (codec : AudioStreamCodec)
    (hkind : kind = .audioPlayback ∨ kind = .audioCapture) (hx : x.typeRaw ∉ kind.knownTypes) :
    Terminates kind codec.next codec.accept () x := by
  have hx' : x.typeRaw ∉ StreamKind.audioPlayback.knownTypes := by
    rcases hkind with rfl | rfl <;> exact hx
  simp only [StreamKind.knownTypes, List.mem_cons, List.not_mem_nil, or_false, not_or] at hx'
  obtain ⟨hconfig, hheader, hpayload⟩ := hx'
  have haccept : codec.accept.Refuses (NoneBut x) :=
    Refuses.bind (refuses_readAs (if_pos hconfig)) fun _ => trivial
  have hnext : codec.next.Refuses (NoneBut x) := by
    refine Refuses.bind (refuses_readEnvelope_bind ?_ fun env => ?_) fun _ => trivial
    · rw [AudioFrameReader.headerOf, if_pos hheader]
      trivial
    · refine Refuses.bind (p := ofExcept _) trivial fun header => ?_
      refine refuses_readEnvelope_bind ?_ fun _ => trivial
      rw [AudioFrameReader.frameOf, if_pos hpayload]
      trivial
  exact terminates_of_refuses haccept hnext trivial trivial

theorem VideoCodec.terminates (codec : VideoCodec) (streamPrologue : StreamPrologue)
    (pendingHeader : Option Wire.VideoFrameHeader)
    (hx : x.typeRaw ∉ StreamKind.video.knownTypes) :
    Terminates .video codec.next (codec.accept streamPrologue) pendingHeader x := by
  simp only [StreamKind.knownTypes, List.mem_cons, List.not_mem_nil, or_false, not_or] at hx
  obtain ⟨hgeneration, hconfig, hheader, hpayload⟩ := hx
  have hintro : (codec.readIntro streamPrologue).Refuses (NoneBut x) := by
    unfold VideoCodec.readIntro
    split_ifs
    · trivial
    · refine Refuses.bind (p := VideoCodec.instanceStep _) trivial fun _ => ?_
      refine Refuses.bind (refuses_readAs (if_pos hgeneration)) fun generation => ?_
      refine Refuses.bind (p := VideoCodec.instanceStep _) trivial fun _ => ?_
      refine Refuses.bind (refuses_readAs (if_pos hconfig)) fun encoderConfig => ?_
      refine Refuses.bind (p := VideoCodec.instanceStep _) trivial fun _ => ?_
      refine Refuses.bind (refuses_readAs (if_pos hheader)) fun header => ?_
      refine Refuses.bind (refuses_readAs (if_pos hpayload)) fun (header, framePayload) => ?_
      exact Refuses.bind (p := VideoCodec.instanceStep _) trivial fun _ => trivial
  have htakes : (codec.readIntro streamPrologue).Takes := by
    unfold VideoCodec.readIntro
    split_ifs <;> trivial
  have hpayloads (header : Wire.VideoFrameHeader) :
      (VideoFrameReader.readPayload header).Refuses (NoneBut x) := by
    refine refuses_readEnvelope_bind ?_ fun env => ?_
    · intro parked
      change Fails (ofExcept (VideoFrameReader.frameOf (parked.getD header)
        (x.typeRaw, x.payload)) : VideoFrameReader.Action _)
      rw [VideoFrameReader.frameOf, if_pos hpayload]
      trivial
    · exact fun parked => trivial
  have hnext : (VideoFrameReader.readNextFrame codec.frameHeader).Refuses (NoneBut x) := by
    rintro (_ | header)
    · refine refuses_readEnvelope_bind ?_ fun env => ?_
      · rw [VideoFrameReader.headerOf, if_pos hheader]
        trivial
      · exact Refuses.bind (p := ofExcept _) trivial fun header => hpayloads header
    · exact hpayloads header
  have hnext' : (VideoFrameReader.readNextFrame codec.frameHeader).Takes := by
    rintro (_ | header) <;> trivial
  exact terminates_of_refuses (hintro.bind fun _ => trivial) (hnext.bind fun _ => trivial)
    (htakes.bind _) (hnext'.bind _)

/-- Receiving a file returns with an error at the envelope, unless it has returned before. -/
theorem FileCodec.receiveFile_of_unknown (codec : FileCodec) (sha256 : List UInt8 → List UInt8)
    (fileHandle resolvedSize : ℕ)
    (pre post : List (Option (Except StreamReadError (UInt16 × List UInt8))))
    (hx : x.typeRaw ∉ StreamKind.file.knownTypes) :
    receiveFile sha256 fileHandle resolvedSize
        ((pre ++ some (.ok (x.typeRaw, x.payload)) :: post).map (.ofWait codec)) =
      (receiveFile sha256 fileHandle resolvedSize (pre.map (.ofWait codec))).or
        (some (.error (.unexpectedType x.typeRaw))) := by
  simp only [StreamKind.knownTypes, List.mem_cons, List.not_mem_nil, or_false, not_or] at hx
  have hevent : FileEvent.ofWait codec (some (.ok (x.typeRaw, x.payload))) =
      .unexpected x.typeRaw := by
    simp only [FileEvent.ofWait, FileEvent.ofEnvelope, if_neg hx.1, if_neg hx.2]
  rw [List.map_append, List.map_cons, hevent, receiveFile, receiveFile]
  generalize FileReassembly.new resolvedSize = reassembly
  generalize pre.map (FileEvent.ofWait codec) = events
  induction events generalizing reassembly with
  | nil => rfl
  | cons event events ih =>
    cases event with
    | stalled | readFailed e | unexpected typeRaw => rfl
    | chunk decoded =>
      cases decoded with
      | none => rfl
      | some chunk =>
        simp only [List.cons_append, receiveMessages]
        cases reassembly.applyChunk chunk with
        | error reason => rfl
        | ok reassembly => exact ih reassembly
    | complete decoded =>
      cases decoded with
      | none => rfl
      | some complete =>
        simp only [List.cons_append, receiveMessages]
        split_ifs <;> rfl

/-! ## Control -/

/-- The events change nothing in a loop but the time of the last activity: a run without them does
    the same exactly if none of the other events comes when the time since the last activity among
    those is up. -/
def Ignores {S E : Type} (loop : Watched S E) (unknown : E → Bool) : Prop :=
  (∀ s t e s', unknown e = true → loop.timed.step s (t, e) = some s' → s' = ⟨s.state, t, t⟩) ∧
    ∀ state now es s', loop.timed.run (.start state now) es = some s' →
      ((∃ s₁, loop.timed.run (.start state now) (es.filter fun e => !unknown e.2) = some s₁ ∧
          s₁.state = s'.state) ↔
        loop.Punctual now (es.filter fun e => !unknown e.2))

theorem ignores_of_idle {S E : Type} {loop : Watched S E} {unknown : E → Bool}
    (hidle : loop.Idle unknown) (hactivity : ∀ e, unknown e = true → loop.activity e = some 0) :
    Ignores loop unknown := by
  refine ⟨fun s t e s' he hstep => ?_,
    fun state now es s' hrun => Watched.run_filter_iff hidle hrun⟩
  rw [hidle.step he hstep, Watched.active, Watched.active, hactivity e he]
  rfl

/-- The event is an envelope of a type that the loops do not know. -/
def ControlledEvent.isUnknown : ControlledEvent → Bool
  | .control (.ok env) _ _ => env.1 ∉ StreamKind.control.knownTypes
  | _ => false

/-- An envelope of an unknown type is none of the messages the loop of the server handles. -/
theorem ControlCodec.round_of_unknown (codec : ControlCodec) {e : ControlledEvent}
    (he : e.isUnknown = true) : ∃ written, codec.round e = .control (.ok .other) written := by
  cases e with
  | other e => cases he
  | control read issued written =>
    cases read with
    | error e => cases he
    | ok env =>
      have henv : env.1 ∉ StreamKind.control.knownTypes := of_decide_eq_true he
      simp only [StreamKind.knownTypes, List.mem_cons, List.not_mem_nil, or_false, not_or] at henv
      obtain ⟨htime, -, hclose, -, hfile⟩ := henv
      have hother : codec.message issued env = .other := by
        simp only [message, if_neg htime, if_neg hclose, if_neg hfile]
      exact ⟨written, by rw [← hother]; rfl⟩

theorem ControlCodec.serverLoop_ignores (codec : ControlCodec) :
    Ignores codec.serverLoop ControlledEvent.isUnknown := by
  refine ignores_of_idle (fun e he => ?_) fun e he => ?_
  · obtain ⟨written, hround⟩ := codec.round_of_unknown he
    have hexpiry : codec.serverLoop.expiry e = (codec.round e).expiry := rfl
    refine ⟨by rw [hexpiry, hround]; rfl, fun s s' hstep => ?_⟩
    -- the round leaves the session as it is, and spawns nothing
    obtain ⟨⟨session, task⟩, hsession, rfl⟩ := Option.map_eq_some_iff.1 hstep
    rw [hround] at hsession
    obtain ⟨-, heq⟩ := Session.step_eq_some.1 hsession
    cases heq
    simp
  · obtain ⟨written, hround⟩ := codec.round_of_unknown he
    have hactivity : codec.serverLoop.activity e = (codec.round e).activity := rfl
    rw [hactivity, hround]
    rfl

/-- The event is an envelope of a type that the loops do not know. -/
def ClientLoopEvent.isUnknown : ClientLoopEvent → Bool
  | .control (.ok env) => env.1 ∉ StreamKind.control.knownTypes
  | _ => false

theorem clientLoop_ignores : Ignores clientLoop ClientLoopEvent.isUnknown := by
  have hcontrol : ∀ e : ClientLoopEvent, e.isUnknown = true →
      ∃ env, e = .control (.ok env) ∧ e.result = none := by
    intro e he
    cases e with
    | control read =>
      cases read with
      | error e => cases he
      | ok env =>
        have henv : env.1 ∉ StreamKind.control.knownTypes := of_decide_eq_true he
        have hclose : env.1 ≠ TypeId.SESSION_CLOSE := fun heq => henv (heq ▸ by decide)
        exact ⟨env, rfl, if_neg hclose⟩
    | _ => cases he
  refine ignores_of_idle (fun e he => ?_) fun e he => ?_
  · obtain ⟨env, rfl, hresult⟩ := hcontrol e he
    refine ⟨rfl, fun s s' hstep => ?_⟩
    cases s with
    | some result => cases hstep
    | none =>
      cases hstep
      exact hresult
  · obtain ⟨env, rfl, -⟩ := hcontrol e he
    rfl

/-! ## All streams -/

/-- What the library makes of the bodies of the messages of all streams. -/
structure StreamCodecs where
  control : ControlCodec
  video : VideoCodec
  audio : AudioStreamCodec
  feedback : FeedbackCodec
  input : InputCodec
  clipboard : ClipboardCodec
  file : FileCodec

end Sardp
