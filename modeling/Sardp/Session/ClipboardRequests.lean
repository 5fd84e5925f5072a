import Sardp.Library.Correlation
import Sardp.Session.Senders

/-!
# The requests for a clipboard

On the stream of a clipboard one request may follow another, each with a time limit for the answer
(`clipboard_session.rs`). What arrives next is taken for the answer, whatever ids and format it
carries. So the answers are those to the requests exactly as long as the peer sends, in order, one
for each request that has not been given up (`ClipboardCodec.correlated_iff`): after a request that
has timed out, a late answer is taken for that to the next one.
-/

namespace Sardp

open Framing

/-- What is made of the answer to a request. -/
abbrev ClipboardAnswer := Except ClipboardError ClipboardData

/-- The requester of a clipboard, with the calls it makes. -/
abbrev ClipboardRequester :=
  Requests ClipboardRequest UInt8 EnvelopeRead ClipboardSessionError ClipboardAnswer

/-- What happens to the calls. -/
abbrev ClipboardCall := RequestEvent ClipboardRequest UInt8 Quinn.ReadError ClipboardSessionError

/-- The answer is one to the request. -/
def ClipboardRequest.Correlates (request : ClipboardRequest) : ClipboardAnswer → Prop
  | .ok data => data.requestId = request.requestId ∧ data.ns = request.ns ∧
      data.formatId = request.formatId
  | .error error => error.requestId = request.requestId

namespace ClipboardCodec

variable (codec : ClipboardCodec)

/-- Requests for a clipboard, one after the other, each with a time limit. -/
def requests : Machine ClipboardRequester ClipboardCall :=
  Requests.machine (Envelope.decoder StreamKind.clipboard.maxEnvelopeLength) codec.readResponse
    .responseTimeout

/-- The envelopes of the stream, from those that have been buffered on. -/
def received (buf : List UInt8) (calls : List ClipboardCall) : List (UInt16 × List UInt8) :=
  EnvelopeReader.envelopes ⟨⟨calls.filterMap RequestEvent.chunk?, none⟩, buf⟩
    StreamKind.clipboard.maxEnvelopeLength

/-- The envelope, if it is an answer, is one to the request. -/
structure IsFor (request : ClipboardRequest) (env : UInt16 × List UInt8) : Prop where
  data : env.1 = TypeId.CLIPBOARD_DATA → ∀ data, codec.data env.2 = some data →
    data.requestId = request.requestId ∧ data.ns = request.ns ∧ data.formatId = request.formatId
  error : env.1 = TypeId.CLIPBOARD_ERROR → ∀ error, codec.error env.2 = some error →
    error.requestId = request.requestId

/-- What is made of an envelope, or of the failure to read one. -/
def response (read : EnvelopeRead) : Except ClipboardSessionError ClipboardAnswer :=
  match read.toResult with
  | .error e => .error (.read e)
  | .ok env => decodeOneOf .unexpectedType .decode
      [(TypeId.CLIPBOARD_DATA, fun body => (codec.data body).map .ok),
        (TypeId.CLIPBOARD_ERROR, fun body => (codec.error body).map .error)] env

variable {codec} {request : ClipboardRequest}

theorem responds_readResponse : codec.readResponse.Responds codec.response := by
  refine congrArg Async.read (funext fun read => ?_)
  cases read <;> rfl

theorem response_error (x : ReadError Quinn.ReadError Envelope.EnvelopeError) :
    ∃ e, codec.response (.error x) = .error e := ⟨_, rfl⟩

/-- An envelope is an answer by its type and its body. -/
theorem response_eq_ok {env : Envelope} {answer : ClipboardAnswer} :
    codec.response (.ok env) = .ok answer ↔
      (env.typeRaw = TypeId.CLIPBOARD_DATA ∧
        ∃ data, codec.data env.payload = some data ∧ answer = .ok data) ∨
      (env.typeRaw = TypeId.CLIPBOARD_ERROR ∧
        ∃ error, codec.error env.payload = some error ∧ answer = .error error) := by
  have hne : TypeId.CLIPBOARD_DATA ≠ TypeId.CLIPBOARD_ERROR := by decide
  have hdecode : codec.response (.ok env) = decodeOneOf .unexpectedType .decode
      [(TypeId.CLIPBOARD_DATA, fun body => (codec.data body).map .ok),
        (TypeId.CLIPBOARD_ERROR, fun body => (codec.error body).map .error)]
      (env.typeRaw, env.payload) := rfl
  rw [hdecode, decodeOneOf]
  by_cases hdata : env.typeRaw = TypeId.CLIPBOARD_DATA
  · cases hbody : codec.data env.payload <;> simp [hdata, hbody, hne, eq_comm]
  · by_cases herror : env.typeRaw = TypeId.CLIPBOARD_ERROR
    · cases hbody : codec.error env.payload <;> simp [herror, hbody, hne.symm, eq_comm]
    · simp [hdata, herror, eq_comm]

/-- An envelope is for a request exactly if what it is an answer of is one to the request. -/
theorem isFor_iff {env : Envelope} : codec.IsFor request (env.typeRaw, env.payload) ↔
    ∀ answer, codec.response (.ok env) = .ok answer → request.Correlates answer := by
  constructor
  · intro h answer hanswer
    rcases response_eq_ok.1 hanswer with ⟨htype, data, hdata, rfl⟩ | ⟨htype, error, herror, rfl⟩
    · exact h.data htype data hdata
    · exact h.error htype error herror
  · intro h
    refine ⟨fun htype data hdata => ?_, fun htype error herror => ?_⟩
    · exact h (.ok data) (response_eq_ok.2 (.inl ⟨htype, data, hdata, rfl⟩))
    · exact h (.error error) (response_eq_ok.2 (.inr ⟨htype, error, herror, rfl⟩))

/-- The answers are those to the requests exactly as long as the envelopes that arrive are, one by
    one, answers to the requests that have not been given up. -/
theorem correlated_iff {buf : List UInt8} {calls : List ClipboardCall} {x : ClipboardRequester}
    (hrun : codec.requests.run (.new buf) calls = some x) :
    (∀ request answer, (request, .ok answer) ∈ x.returned → request.Correlates answer) ↔
      ∀ p ∈ (RequestEvent.asked calls).zip (received buf calls), codec.IsFor p.1 p.2 := by
  have hanswers := Requests.answers_eq_zip
    (Envelope.progressive_decoder StreamKind.clipboard.maxEnvelopeLength)
    responds_readResponse response_error hrun
  have hreceived : (RequestEvent.asked calls).zip (received buf calls) = _ :=
    List.zip_map_right ..
  rw [hreceived]
  simp only [← Requests.mem_answers, hanswers, List.mem_filterMap, List.mem_map]
  constructor
  · rintro h _ ⟨⟨request, env⟩, hmem, rfl⟩
    refine isFor_iff.2 fun answer hanswer => h request answer ⟨(request, env), hmem, ?_⟩
    rw [Requests.answer, hanswer]
    rfl
  · rintro h _ _ ⟨⟨request, env⟩, hmem, heq⟩
    obtain ⟨answer, hanswer, heq⟩ := Option.map_eq_some_iff.1 heq
    obtain ⟨rfl, rfl⟩ := Prod.mk.inj heq
    refine isFor_iff.1 (h _ ⟨(request, env), hmem, rfl⟩) answer ?_
    cases hresponse : codec.response (.ok env) with
    | error e =>
      rw [hresponse] at hanswer
      cases hanswer
    | ok answer' =>
      rw [hresponse] at hanswer
      exact congrArg _ (Option.some.inj hanswer)

/-! ## A late answer -/

/-- Two formats of one clipboard, and an answer in the first. -/
def plainRequest : ClipboardRequest := ⟨7, .mime, "text/plain"⟩
def htmlRequest : ClipboardRequest := ⟨7, .mime, "text/html"⟩
def plainData : ClipboardData := ⟨7, .mime, "text/plain", [104, 105]⟩

/-- A codec that knows the answer. -/
def plainCodec : ClipboardCodec where
  formats _ := none
  request _ := none
  data body := if body = plainData.encode then some plainData else none
  error _ := none

/-- The answer as it arrives. -/
def plainChunk : Chunk UInt8 := ⟨[57, 0x13, 0] ++ plainData.encode, by simp⟩

/-- The answer is all there is in the chunk. -/
theorem received_plainChunk (request : ClipboardRequest) :
    received [] [.request request none, .chunk plainChunk] =
      [(TypeId.CLIPBOARD_DATA, plainData.encode)] := by
  have hframe : (Envelope.decoder StreamKind.clipboard.maxEnvelopeLength).decode plainChunk.1 =
      .ok (some (⟨TypeId.CLIPBOARD_DATA, plainData.encode⟩, 60)) := rfl
  have hrest : (Envelope.decoder StreamKind.clipboard.maxEnvelopeLength).decode
      (plainChunk.1.drop 60) = .ok none := rfl
  have hcontents : contents _ (Envelope.progressive_decoder _) plainChunk.1 = _ :=
    contents_of_frame hframe
  rw [contents_of_none hrest] at hcontents
  exact congrArg (fun frames => frames.1.map fun env => (env.typeRaw, env.payload)) hcontents

/-- In time, the answer is one to its request. -/
theorem correlated_iff_in_time : ∃ x,
    plainCodec.requests.run (.new []) [.request plainRequest none, .chunk plainChunk] = some x ∧
      ∀ request answer, (request, .ok answer) ∈ x.returned → request.Correlates answer := by
  have hrun : plainCodec.requests.run (.new [])
      [.request plainRequest none, .chunk plainChunk] = some _ := rfl
  refine ⟨_, hrun, (correlated_iff hrun).2 fun p hp => ?_⟩
  rw [received_plainChunk] at hp
  obtain rfl : p = (plainRequest, TypeId.CLIPBOARD_DATA, plainData.encode) :=
    List.mem_singleton.1 hp
  refine ⟨fun _ data hdata => ?_, fun htype => absurd htype (by decide)⟩
  obtain rfl : plainData = data := Option.some.inj hdata
  exact ⟨rfl, rfl, rfl⟩

/-- Late, it is taken for that to the next one. -/
theorem late_answer_taken_for_next : ∃ x,
    plainCodec.requests.run (.new [])
      [.request plainRequest none, .timeout, .request htmlRequest none, .chunk plainChunk] =
        some x ∧ (htmlRequest, .ok (.ok plainData)) ∈ x.returned ∧
      ¬htmlRequest.Correlates (.ok plainData) := by
  refine ⟨_, rfl, ?_, fun h => absurd h.2.2 (by decide)⟩
  exact List.mem_cons_of_mem _ List.mem_cons_self

end ClipboardCodec

end Sardp
