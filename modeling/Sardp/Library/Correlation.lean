import Sardp.Library.Cancellation
import Sardp.Library.Contents

/-!
# Requests and answers on a stream

A party makes one request after another and waits for the answer to each, the next frame of a
stream, for as long as it takes or until it gives the request up (`Requests`). Nothing ties an answer
to its request but the order of the two: the frames of the stream are taken for the answers to the
requests that have not been given up, one by one (`Requests.answers_eq_zip`).
-/

namespace Framing

variable {Q β φ δ ρ ε A : Type*}

/-- The function waits for a frame, and makes something of it. -/
def Async.Responds (f : Async Unit (Except (ReadError ρ δ) φ) ε A)
    (respond : Except (ReadError ρ δ) φ → Except ε A) : Prop :=
  f = .read fun result => .done (respond result)

/-- A party with its requests: the buffer, the request it waits for the answer to, whether the
    stream has ended, and what the requests have come to. -/
structure Requests (Q β R ε A : Type*) where
  buf : List β
  pending : Option (Q × Async Unit R ε A)
  closed : Bool
  returned : List (Q × Except ε A)

/-- What happens to the requests. -/
inductive RequestEvent (Q β ρ ε : Type*)
  /-- A request is made; it may fail to be written. -/
  | request (q : Q) (failed : Option ε)
  /-- The next chunk of the stream arrives. -/
  | chunk (c : Chunk β)
  /-- The stream ends. -/
  | ended (ending : Option ρ)
  /-- The time for the answer is up. -/
  | timeout

/-- The chunk that arrives. -/
def RequestEvent.chunk? : RequestEvent Q β ρ ε → Option (Chunk β)
  | .chunk c => some c
  | _ => none

/-- The symbols that arrive. -/
def RequestEvent.arrived (es : List (RequestEvent Q β ρ ε)) : List β :=
  symbols (es.filterMap chunk?)

/-- The requests that have not been given up. -/
def RequestEvent.ask (asked : List Q) : RequestEvent Q β ρ ε → List Q
  | .request q none => asked ++ [q]
  -- the last request is the one that was waited for
  | .ended _ | .timeout => asked.dropLast
  | _ => asked

/-- The requests that have not been given up. -/
def RequestEvent.asked (es : List (RequestEvent Q β ρ ε)) : List Q := es.foldl ask []

namespace Requests

/-- A party before its first request. -/
def new {R : Type*} (buf : List β) : Requests Q β R ε A := ⟨buf, none, false, []⟩

/-- The party with what a future has come to. -/
def settle {R : Type*} (s : Requests Q β R ε A) (q : Q) :
    Async Unit R ε A × Unit × List β → Requests Q β R ε A
  | (.done result, _, buf) => ⟨buf, none, s.closed, s.returned ++ [(q, result)]⟩
  | (p, _, buf) => ⟨buf, some (q, p), s.closed, s.returned⟩

/-- A step of a party that waits with `f`, or gives up with the error. -/
def step (d : Decoder β φ δ) (f : Async Unit (Except (ReadError ρ δ) φ) ε A) (timedOut : ε)
    (s : Requests Q β (Except (ReadError ρ δ) φ) ε A) :
    RequestEvent Q β ρ ε → Option (Requests Q β (Except (ReadError ρ δ) φ) ε A)
  | .request q failed =>
    if s.pending.isNone then
      match failed with
      | none => some (s.settle q (f.poll d () s.buf))
      | some e => some { s with returned := s.returned ++ [(q, .error e)] }
    else none
  | .chunk c =>
    if s.closed then none
    else s.pending.map fun (q, p) => s.settle q (p.poll d () (s.buf ++ c.1))
  | .ended ending =>
    match s.pending with
    | some (q, .read k) =>
      some ({ s with closed := true }.settle q
        ((k (.error (Reader.endError ending))).poll d () s.buf))
    | _ => none
  | .timeout =>
    s.pending.map fun (q, _) =>
      { s with pending := none, returned := s.returned ++ [(q, .error timedOut)] }

/-- The steps as a machine. -/
def machine (d : Decoder β φ δ) (f : Async Unit (Except (ReadError ρ δ) φ) ε A) (timedOut : ε) :
    Machine (Requests Q β (Except (ReadError ρ δ) φ) ε A) (RequestEvent Q β ρ ε) :=
  ⟨step d f timedOut⟩

/-- The answers, each with the request it was returned to. -/
def answers {R : Type*} (s : Requests Q β R ε A) : List (Q × A) :=
  s.returned.filterMap fun x => x.2.toOption.map (x.1, ·)

/-- The answer that a frame is to a request. -/
def answer (respond : Except (ReadError ρ δ) φ → Except ε A) (x : Q × φ) : Option (Q × A) :=
  (respond (.ok x.2)).toOption.map (x.1, ·)

variable {d : Decoder β φ δ}
  {f : Async Unit (Except (ReadError ρ δ) φ) ε A}
  {respond : Except (ReadError ρ δ) φ → Except ε A} {timedOut : ε}
  {s s' : Requests Q β (Except (ReadError ρ δ) φ) ε A} {e : RequestEvent Q β ρ ε}
  {es : List (RequestEvent Q β ρ ε)} {q : Q} {buf : List β}

theorem mem_answers {R : Type*} {s : Requests Q β R ε A} {a : A} :
    (q, a) ∈ s.answers ↔ (q, .ok a) ∈ s.returned := by
  rw [answers, List.mem_filterMap]
  constructor
  · rintro ⟨⟨q', result⟩, hmem, heq⟩
    cases result with
    | error e => cases heq
    | ok a' =>
      cases heq
      exact hmem
  · exact fun hmem => ⟨_, hmem, rfl⟩

/-! ## What a future comes to -/

theorem settle_poll_of_frame (hf : f.Responds respond) {fr : φ} {n : ℕ}
    (h : d.decode buf = .ok (some (fr, n))) : s.settle q (f.poll d () buf) =
      ⟨buf.drop n, none, s.closed, s.returned ++ [(q, respond (.ok fr))]⟩ := by
  rw [hf]
  simp only [Async.poll, h]
  rfl

theorem settle_poll_of_error (hf : f.Responds respond) {x : δ} (h : d.decode buf = .error x) :
    s.settle q (f.poll d () buf) =
      ⟨buf, none, s.closed, s.returned ++ [(q, respond (.error (.malformed x)))]⟩ := by
  rw [hf]
  simp only [Async.poll, h]
  rfl

theorem settle_poll_of_none (hf : f.Responds respond) (h : d.decode buf = .ok none) :
    s.settle q (f.poll d () buf) = ⟨buf, some (q, f), s.closed, s.returned⟩ := by
  rw [hf]
  simp only [Async.poll, h]
  rfl

/-! ## Frames and requests -/

/-- The frames that have been taken, each for a request, and the answers they were. -/
structure Taken (d : Decoder β φ δ) (respond : Except (ReadError ρ δ) φ → Except ε A)
    (arrived buf : List β) (answers : List (Q × A)) (taken : List (Q × φ)) : Prop where
  consumes : Consumes d arrived (taken.map (·.2)) buf
  answers : answers = taken.filterMap (answer respond)

/-- The requests that have not been given up are those that frames have been taken for, and then the
    one that is waited for, or those that have failed as no frame starts with the buffer. -/
def Aligned (d : Decoder β φ δ) (f : Async Unit (Except (ReadError ρ δ) φ) ε A)
    (respond : Except (ReadError ρ δ) φ → Except ε A) (asked : List Q) (arrived : List β)
    (s : Requests Q β (Except (ReadError ρ δ) φ) ε A) : Prop :=
  ∃ taken left, asked = taken.map (·.1) ++ left ∧
    Taken d respond arrived s.buf s.answers taken ∧
    ((∃ q, s.pending = some (q, f) ∧ left = [q] ∧ d.decode s.buf = .ok none) ∨
      s.pending = none ∧ (left = [] ∨ ∃ x, d.decode s.buf = .error x))

variable {asked left : List Q} {arrived : List β} {taken : List (Q × φ)}

theorem arrived_append_singleton : RequestEvent.arrived (es ++ [e]) =
    RequestEvent.arrived es ++ symbols e.chunk?.toList := by
  rw [RequestEvent.arrived, List.filterMap_append]
  cases e <;> simp [symbols, RequestEvent.arrived, RequestEvent.chunk?]

theorem asked_append_singleton :
    RequestEvent.asked (es ++ [e]) = e.ask (RequestEvent.asked es) := by
  rw [RequestEvent.asked, List.foldl_append]
  rfl

/-- An error is no answer. -/
theorem filterMap_append_error (returned : List (Q × Except ε A)) (q : Q) {x : Except ε A} {e : ε}
    (hx : x = .error e) : (returned ++ [(q, x)]).filterMap (fun x => x.2.toOption.map (x.1, ·)) =
      returned.filterMap fun x => x.2.toOption.map (x.1, ·) := by
  subst hx
  simp [Except.toOption]

/-- A request takes the frame that the buffer starts with, fails if there can be none, or is waited
    for. -/
theorem aligned_settle (hf : f.Responds respond)
    (hrespond : ∀ x, ∃ e, respond (.error x) = .error e)
    (htaken : Taken d respond arrived buf s.answers taken)
    (hleft : left = [] ∨ ∃ x, d.decode buf = .error x) :
    Aligned d f respond (taken.map (·.1) ++ (left ++ [q])) arrived
      (s.settle q (f.poll d () buf)) := by
  cases hdecode : d.decode buf with
  | error x =>
    obtain ⟨e, he⟩ := hrespond (.malformed x)
    rw [settle_poll_of_error hf hdecode]
    refine ⟨taken, left ++ [q], rfl, ⟨htaken.consumes, ?_⟩, .inr ⟨rfl, .inr ⟨x, hdecode⟩⟩⟩
    exact (filterMap_append_error s.returned q he).trans htaken.answers
  | ok result =>
    -- what is in the buffer is no error, so no request has failed before
    obtain rfl : left = [] := hleft.resolve_right fun ⟨x, hx⟩ => by
      rw [hx] at hdecode
      cases hdecode
    cases result with
    | none =>
      rw [settle_poll_of_none hf hdecode]
      exact ⟨taken, [q], rfl, htaken, .inl ⟨q, rfl, rfl, hdecode⟩⟩
    | some fn =>
      obtain ⟨fr, n⟩ := fn
      rw [settle_poll_of_frame hf hdecode]
      refine ⟨taken ++ [(q, fr)], [], by simp, ⟨?_, ?_⟩, .inr ⟨rfl, .inl rfl⟩⟩
      · rw [List.map_append]
        exact htaken.consumes.concat hdecode
      · rw [List.filterMap_append, ← htaken.answers]
        exact List.filterMap_append

/-- Every step keeps frames and requests aligned. -/
theorem Aligned.step (hf : f.Responds respond)
    (hrespond : ∀ x, ∃ e, respond (.error x) = .error e)
    (h : s.Aligned d f respond (RequestEvent.asked es) (buf ++ RequestEvent.arrived es))
    (hstep : s.step d f timedOut e = some s') : s'.Aligned d f respond
      (RequestEvent.asked (es ++ [e])) (buf ++ RequestEvent.arrived (es ++ [e])) := by
  obtain ⟨taken, left, hasked, htaken, hpending⟩ := h
  rw [asked_append_singleton, arrived_append_singleton, hasked, ← List.append_assoc]
  cases e with
  | request q failed =>
    obtain ⟨hnone, hs'⟩ := Option.ite_none_right_eq_some.1 hstep
    rw [Option.isNone_iff_eq_none] at hnone
    have hleft : left = [] ∨ ∃ x, d.decode s.buf = .error x := by
      rcases hpending with ⟨q', hsome, -⟩ | ⟨-, hleft⟩
      · rw [hnone] at hsome
        cases hsome
      · exact hleft
    cases failed with
    | none =>
      cases hs'
      have hnext := aligned_settle (q := q) hf hrespond htaken hleft
      simpa [RequestEvent.ask, RequestEvent.chunk?] using hnext
    | some e =>
      cases hs'
      refine ⟨taken, left, rfl, ⟨?_, ?_⟩, .inr ⟨hnone, hleft⟩⟩
      · simpa [RequestEvent.chunk?] using htaken.consumes
      · exact (filterMap_append_error s.returned q rfl).trans htaken.answers
  | chunk c =>
    obtain ⟨-, hs'⟩ := Option.ite_none_left_eq_some.1 hstep
    obtain ⟨⟨q, p⟩, hsome, rfl⟩ := Option.map_eq_some_iff.1 hs'
    rcases hpending with ⟨q', hsome', rfl, -⟩ | ⟨hnone, -⟩
    · cases hsome.symm.trans hsome'
      have htaken' : Taken d respond (buf ++ RequestEvent.arrived es ++ c.1) (s.buf ++ c.1)
          s.answers taken := ⟨htaken.consumes.append c.1, htaken.answers⟩
      have hnext := aligned_settle (q := q) hf hrespond htaken' (.inl rfl)
      simpa [RequestEvent.ask, RequestEvent.chunk?] using hnext
    · rw [hnone] at hsome
      cases hsome
  | ended ending =>
    rcases hpending with ⟨q, hsome, rfl, -⟩ | ⟨hnone, -⟩
    · obtain ⟨e, he⟩ := hrespond (Reader.endError ending)
      rw [hf] at hsome
      simp only [Requests.step, hsome, Async.poll, settle] at hstep
      cases hstep
      refine ⟨taken, [], by simp [RequestEvent.ask], ⟨?_, ?_⟩, .inr ⟨rfl, .inl rfl⟩⟩
      · simpa [RequestEvent.chunk?] using htaken.consumes
      · exact (filterMap_append_error s.returned q he).trans htaken.answers
    · simp [Requests.step, hnone] at hstep
  | timeout =>
    obtain ⟨⟨q, p⟩, hsome, rfl⟩ := Option.map_eq_some_iff.1 hstep
    rcases hpending with ⟨q', hsome', rfl, -⟩ | ⟨hnone, -⟩
    · cases hsome.symm.trans hsome'
      refine ⟨taken, [], by simp [RequestEvent.ask], ⟨?_, ?_⟩, .inr ⟨rfl, .inl rfl⟩⟩
      · simpa [RequestEvent.chunk?] using htaken.consumes
      · exact (filterMap_append_error s.returned q rfl).trans htaken.answers
    · rw [hnone] at hsome
      cases hsome

/-- The answers are the frames of the stream, taken one by one for the requests that have not been
    given up. -/
theorem answers_eq_zip (hd : d.Progressive) (hf : f.Responds respond)
    (hrespond : ∀ x, ∃ e, respond (.error x) = .error e)
    (hrun : (machine d f timedOut).run (new buf) es = some s) : s.answers =
      ((RequestEvent.asked es).zip (contents d hd (buf ++ RequestEvent.arrived es)).1).filterMap
        (answer respond) := by
  have hstart : (new buf : Requests Q β (Except (ReadError ρ δ) φ) ε A).Aligned d f respond
      (RequestEvent.asked ([] : List (RequestEvent Q β ρ ε)))
      (buf ++ RequestEvent.arrived ([] : List (RequestEvent Q β ρ ε))) := by
    have hbuf : buf ++ RequestEvent.arrived ([] : List (RequestEvent Q β ρ ε)) = buf :=
      List.append_nil buf
    rw [hbuf]
    exact ⟨[], [], rfl, ⟨.nil buf, rfl⟩, .inr ⟨rfl, .inl rfl⟩⟩
  obtain ⟨taken, left, hasked, htaken, hpending⟩ := Machine.run_history
    (R := fun es s =>
      s.Aligned d f respond (RequestEvent.asked es) (buf ++ RequestEvent.arrived es))
    (fun _ _ _ _ h hstep => h.step hf hrespond hstep) hstart hrun
  rw [htaken.answers, hasked, htaken.consumes.contents_eq hd]
  -- there is a frame left or a request, but not both
  have hleft : left = [] ∨ (contents d hd s.buf).1 = [] := by
    rcases hpending with ⟨q, -, -, hnone⟩ | ⟨-, hleft | ⟨x, hx⟩⟩
    · exact .inr (by rw [contents_of_none hnone])
    · exact .inl hleft
    · exact .inr (by rw [contents_of_error hx])
  rw [List.zip_append (by simp), List.zip_map', List.map_id']
  rcases hleft with rfl | hnil
  · simp
  · simp [hnil]

end Requests

end Framing
