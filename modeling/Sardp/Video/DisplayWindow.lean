import Sardp.Library.Machine
import Sardp.Library.Mirror
import Sardp.Video.CircuitBreaker

/-!
# The display window of the client

The frames of the client are decoded and shown by a worker of its own (`run_worker` in
`display.rs`), which takes them one by one in the order of their submission. It skips a frame if one
of a newer generation has been submitted, and otherwise decodes it, and reports on it for every
image that comes of that. The client keeps the frames it has not had a report on, and takes the age
of the oldest one for how far the window is behind (`VideoSink::Window` in `sardp-client.rs`).

A frame that is skipped, or of which no image comes, is never reported on. As long as no such frame
is one of those the client keeps, these mirror what the window has yet to do
(`WindowedClient.mirrors_of_run`). Otherwise the client asks for a keyframe though the window is not
behind at all (`WindowedClient.tripped_without_backlog`).
-/

namespace Sardp

/-- A frame with its number among those submitted. -/
abbrev NumberedFrame := VideoFrameHeader × ℕ

/-- What the worker and the client share, and what the worker has in hand. -/
structure DisplayWindow where
  newestGeneration : ℕ
  /-- The frames that have been submitted and not been taken. -/
  queue : List NumberedFrame
  decoding : Option NumberedFrame
  /-- The reports that have not been sent. -/
  emitting : List NumberedFrame
  /-- The reports that have been sent and not been received. -/
  timings : List NumberedFrame
  deriving DecidableEq

/-- How many reports may be on their way. -/
def TIMING_CHANNEL_CAPACITY : ℕ := 64

namespace DisplayWindow

def new : DisplayWindow := ⟨0, [], none, [], []⟩

/-- What the window has yet to do: what is to be received, sent, decoded, and taken. -/
def work (w : DisplayWindow) : List NumberedFrame :=
  w.timings ++ (w.emitting ++ (w.decoding.toList ++ w.queue))

/-- The worker waits for the next frame. -/
def Waiting (w : DisplayWindow) : Prop := w.decoding = none ∧ w.emitting = []

instance (w : DisplayWindow) : Decidable w.Waiting := by
  unfold Waiting
  infer_instance

/-- A frame is submitted. -/
def submit (w : DisplayWindow) (frame : NumberedFrame) : DisplayWindow :=
  { w with
    newestGeneration := max w.newestGeneration frame.1.generation
    queue := w.queue ++ [frame] }

/-- A step of the worker. -/
inductive Step
  /-- The next frame is taken, and skipped if it is stale. -/
  | take
  /-- The frame in hand is decoded, to a number of images. -/
  | decode (images : ℕ)
  /-- The next report is sent. -/
  | emit

/-- A step of the worker; `none` where it is not possible. -/
def step (w : DisplayWindow) : Step → Option DisplayWindow
  | .take =>
    if w.Waiting then
      match w.queue with
      | [] => none
      | frame :: queue =>
        if frame.1.generation < w.newestGeneration then some { w with queue }
        else some { w with queue, decoding := some frame }
    else none
  | .decode images =>
    w.decoding.map fun frame =>
      { w with decoding := none, emitting := w.emitting ++ List.replicate images frame }
  | .emit =>
    match w.emitting with
    | [] => none
    | frame :: emitting =>
      if w.timings.length < TIMING_CHANNEL_CAPACITY then
        some { w with emitting, timings := w.timings ++ [frame] }
      else none

/-- The frame that a step gives up without a report: it is stale, or no image comes of it. -/
def givesUp (w : DisplayWindow) : Step → Option NumberedFrame
  | .take => w.queue.head?.filter fun frame => frame.1.generation < w.newestGeneration
  | .decode images => if images = 0 then w.decoding else none
  | .emit => none

end DisplayWindow

/-- The client and its window. -/
structure WindowedClient where
  nowUs : ℕ
  client : WindowSink
  /-- The number of frames that have been submitted. -/
  submitted : ℕ
  window : DisplayWindow
  /-- The requests that have been sent. -/
  requests : List KeyframeRequest

/-- What happens to a client and its window. -/
inductive WindowedClientEvent
  | elapse (us : ℕ)
  | processFrame (header : VideoFrameHeader)
  | worker (step : DisplayWindow.Step)
  /-- The next report is received. -/
  | windowTiming
  | tickCircuitBreaker

namespace WindowedClient

def start : WindowedClient := ⟨0, .new, 0, .new, []⟩

/-- The client has done something, and sends the request that comes of it. -/
def observed (s : WindowedClient) (r : Option KeyframeRequest × WindowSink) : WindowedClient :=
  { s with client := r.2, requests := s.requests ++ r.1.toList }

def step (s : WindowedClient) : WindowedClientEvent → Option WindowedClient
  | .elapse us => some { s with nowUs := s.nowUs + us }
  | .processFrame header =>
    let processed := s.client.processFrame s.nowUs header false
    if s.client.display.wouldDisplay header then
      some ({ s with
        submitted := s.submitted + 1
        window := s.window.submit (header, s.submitted) }.observed processed)
    else some (s.observed processed)
  | .worker step => (s.window.step step).map fun window => { s with window }
  | .windowTiming =>
    match s.window.timings with
    | [] => none
    | (header, _) :: timings =>
      some ({ s with window := { s.window with timings } }.observed
        (s.client.onWindowTiming s.nowUs header))
  | .tickCircuitBreaker => some (s.observed (s.client.observeCircuitBreaker s.nowUs))

/-- The steps as a machine. -/
def machine : Machine WindowedClient WindowedClientEvent := ⟨step⟩

/-- The headers of the frames the client keeps. -/
def pendingHeaders (s : WindowedClient) : List VideoFrameHeader :=
  s.client.pending.map PendingFeedback.header

/-- A frame is one of those the client keeps. -/
def Keeps (s : WindowedClient) (frame : NumberedFrame) : Prop :=
  s.submitted - s.client.pending.length ≤ frame.2

instance (s : WindowedClient) (frame : NumberedFrame) : Decidable (s.Keeps frame) :=
  inferInstanceAs (Decidable (_ ≤ _))

/-- The worker gives up no frame that the client keeps. -/
def Reports (s : WindowedClient) : WindowedClientEvent → Prop
  | .worker step => ∀ frame ∈ s.window.givesUp step, ¬s.Keeps frame
  | _ => True

instance (s : WindowedClient) (e : WindowedClientEvent) : Decidable (s.Reports e) := by
  cases e with
  | worker step => exact inferInstanceAs (Decidable (∀ frame ∈ s.window.givesUp step, _))
  | _ => exact .isTrue trivial

end WindowedClient

/-! ## What the window has yet to do -/

namespace DisplayWindow

variable {w w' : DisplayWindow}

theorem work_submit (frame : NumberedFrame) : (w.submit frame).work = w.work ++ [frame] := by
  simp [submit, work]

/-- What mirrors the work goes on to do so, unless the worker gives up what it covers. -/
theorem covers_step {headers : List VideoFrameHeader} {submitted : ℕ} {step : Step}
    (h : Mirror.Covers headers submitted w.work) (hstep : w.step step = some w')
    (hgivesUp : ∀ frame ∈ w.givesUp step, frame.2 < submitted - headers.length) :
    Mirror.Covers headers submitted w'.work := by
  cases step with
  | take =>
    simp only [DisplayWindow.step] at hstep
    split_ifs at hstep with hwaiting
    split at hstep
    · cases hstep
    · next frame queue hqueue =>
      have hwork : w.work = w.timings ++ frame :: queue := by
        simp [work, hwaiting.1, hwaiting.2, hqueue]
      rw [hwork] at h
      split_ifs at hstep with hstale
      · have hcovers := h.replicate (n := 0)
          (.inr (hgivesUp frame (by simp [givesUp, hqueue, Option.filter, hstale])))
        cases hstep
        simpa [work, hwaiting.1, hwaiting.2] using hcovers
      · cases hstep
        simpa [work, hwaiting.2] using h
  | decode images =>
    obtain ⟨frame, hframe, rfl⟩ := Option.map_eq_some_iff.1 hstep
    have hwork : w.work = (w.timings ++ w.emitting) ++ frame :: w.queue := by
      simp [work, hframe]
    rw [hwork] at h
    have hcovers := h.replicate (n := images) (by
      by_cases himages : images = 0
      · exact .inr (hgivesUp frame (by simp [givesUp, himages, hframe]))
      · exact .inl himages)
    simpa [work] using hcovers
  | emit =>
    simp only [DisplayWindow.step] at hstep
    split at hstep
    · cases hstep
    · next frame emitting hemitting =>
      split_ifs at hstep
      cases hstep
      simpa [work, hemitting] using h

end DisplayWindow

namespace WindowSink

variable {w : WindowSink} {nowUs : ℕ} {request : KeyframeRequest} {header : VideoFrameHeader}

theorem pending_observeCircuitBreaker :
    (w.observeCircuitBreaker nowUs).2.pending = w.pending := rfl

theorem headers_onWindowTiming :
    (w.onWindowTiming nowUs header).2.pending.map PendingFeedback.header =
      Mirror.reported (w.pending.map PendingFeedback.header) header := by
  rw [onWindowTiming, Mirror.reported, List.findIdx?_map]
  have hcomp : ((fun header' => decide (header' = header)) ∘ PendingFeedback.header) =
      fun p : PendingFeedback => decide (p.header = header) := rfl
  rw [hcomp]
  split
  · next hposition => rw [hposition]
  · next position hposition =>
    rw [hposition, pending_observeCircuitBreaker]
    exact List.map_drop

/-- A request is sent for a frame that the client keeps. -/
theorem pending_ne_nil_of_observe (h : (w.observeCircuitBreaker nowUs).1 = some request) :
    (w.observeCircuitBreaker nowUs).2.pending ≠ [] := by
  obtain ⟨p, hp, -⟩ := exists_oldest h
  intro hnil
  rw [pending_observeCircuitBreaker] at hnil
  rw [hnil] at hp
  cases hp

theorem pending_ne_nil_of_processFrame (h : (w.processFrame nowUs header false).1 = some request) :
    (w.processFrame nowUs header false).2.pending ≠ [] := by
  rw [processFrame] at h ⊢
  split_ifs at h ⊢
  exact pending_ne_nil_of_observe h

theorem pending_ne_nil_of_onWindowTiming (h : (w.onWindowTiming nowUs header).1 = some request) :
    (w.onWindowTiming nowUs header).2.pending ≠ [] := by
  rw [onWindowTiming] at h ⊢
  split at h
  · cases h
  · exact pending_ne_nil_of_observe h

/-- Without a frame that it keeps, the client observes the age `0`. -/
theorem observeCircuitBreaker_of_nil (h : w.pending = []) : w.observeCircuitBreaker nowUs =
    ((w.breaker.observe 0).1, { w with breaker := (w.breaker.observe 0).2 }) := by
  have hage : (w.pending.head?.map fun p => nowUs - p.receiveTs).getD 0 = 0 := by
    rw [h]
    rfl
  unfold observeCircuitBreaker
  rw [hage]

end WindowSink

namespace WindowedClient

/-- What the client keeps mirrors what the window has yet to do. -/
def Mirrored (s : WindowedClient) : Prop :=
  Mirror.Covers s.pendingHeaders s.submitted s.window.work

variable {s s' : WindowedClient} {e : WindowedClientEvent}

theorem Mirrored.step (h : s.Mirrored) (hstep : machine.step s e = some s')
    (hreports : s.Reports e) : s'.Mirrored := by
  cases e with
  | elapse us =>
    cases hstep
    exact h
  | processFrame header =>
    simp only [machine, WindowedClient.step, WindowSink.processFrame] at hstep
    by_cases hdisplay : s.client.display.wouldDisplay header
    · simp only [hdisplay] at hstep
      cases hstep
      have hcovers := h.submit header
      rw [← DisplayWindow.work_submit] at hcovers
      simpa [Mirrored, pendingHeaders, observed, WindowSink.pending_observeCircuitBreaker]
        using hcovers
    · simp only [hdisplay] at hstep
      cases hstep
      exact h
  | worker step =>
    obtain ⟨window, hwindow, rfl⟩ := Option.map_eq_some_iff.1 hstep
    refine DisplayWindow.covers_step h hwindow fun frame hframe => ?_
    rw [pendingHeaders, List.length_map]
    exact Nat.lt_of_not_le (hreports frame hframe)
  | windowTiming =>
    simp only [machine, WindowedClient.step] at hstep
    split at hstep
    · cases hstep
    · next header number timings htimings =>
      cases hstep
      have hwork : s.window.work =
          (header, number) :: { s.window with timings }.work := by
        simp [DisplayWindow.work, htimings]
      rw [Mirrored, hwork] at h
      have hcovers := h.report
      rw [pendingHeaders, ← WindowSink.headers_onWindowTiming] at hcovers
      exact hcovers
  | tickCircuitBreaker =>
    cases hstep
    exact h

/-- The window of the client and what the client keeps agree. -/
structure Mirrors (s : WindowedClient) : Prop where
  /-- The oldest frame the client keeps is one the window has yet to do something about. -/
  oldest {p : PendingFeedback} : s.client.pending.head? = some p →
    (p.header, s.submitted - s.client.pending.length) ∈ s.window.work
  /-- When the window has nothing left to do, nothing is kept, and the breaker observes the
      age `0`, so that it does not trip. -/
  idle : s.window.work = [] → s.client.pending = [] ∧ ∀ nowUs,
    s.client.observeCircuitBreaker nowUs = ((s.client.breaker.observe 0).1,
        { s.client with breaker := (s.client.breaker.observe 0).2 }) ∧
      (s.client.observeCircuitBreaker nowUs).1 = none

theorem Mirrored.mirrors (h : s.Mirrored) : s.Mirrors where
  oldest {p} hp := by
    have hhead : s.pendingHeaders.head? = some p.header := by
      rw [pendingHeaders, List.head?_map, hp, Option.map_some]
    simpa [pendingHeaders] using h.head hhead
  idle hidle := by
    rw [Mirrored, hidle] at h
    have hnil : s.client.pending = [] := List.map_eq_nil_iff.1 h.eq_nil
    refine ⟨hnil, fun nowUs => ⟨WindowSink.observeCircuitBreaker_of_nil hnil, ?_⟩⟩
    rw [WindowSink.observeCircuitBreaker_of_nil hnil]
    exact Option.eq_none_iff_forall_ne_some.2 fun request hrequest =>
      Nat.not_lt_zero _ (ClientQueueCircuitBreaker.lt_of_observe hrequest)

/-- A request is sent by a client that keeps a frame. -/
theorem pending_ne_nil_of_requests (hstep : machine.step s e = some s')
    (h : s'.requests ≠ s.requests) : s'.client.pending ≠ [] := by
  have hsome {s₁ : WindowedClient} {r : Option KeyframeRequest × WindowSink}
      (hne : (s₁.observed r).requests ≠ s₁.requests) : ∃ request, r.1 = some request :=
    Option.ne_none_iff_exists'.1 fun hnone => hne (by simp [observed, hnone])
  cases e with
  | elapse us =>
    cases hstep
    exact absurd rfl h
  | processFrame header =>
    simp only [machine, WindowedClient.step] at hstep
    split_ifs at hstep <;>
      (cases hstep
       obtain ⟨request, hrequest⟩ := hsome h
       exact WindowSink.pending_ne_nil_of_processFrame hrequest)
  | worker step =>
    obtain ⟨window, -, rfl⟩ := Option.map_eq_some_iff.1 hstep
    exact absurd rfl h
  | windowTiming =>
    simp only [machine, WindowedClient.step] at hstep
    split at hstep
    · cases hstep
    · cases hstep
      obtain ⟨request, hrequest⟩ := hsome h
      exact WindowSink.pending_ne_nil_of_onWindowTiming hrequest
  | tickCircuitBreaker =>
    cases hstep
    obtain ⟨request, hrequest⟩ := hsome h
    exact WindowSink.pending_ne_nil_of_observe hrequest

/-- The client asks for a keyframe only if its window has something left to do. -/
def TripsWithBacklog (s : WindowedClient) (_ : WindowedClientEvent) (s' : WindowedClient) : Prop :=
  s'.requests ≠ s.requests → s'.window.work ≠ []

theorem mirrored_start : start.Mirrored := Mirror.covers_nil

/-- In every run in which the worker gives up no frame that the client keeps, what the client
    keeps mirrors what the window has yet to do, and it asks for a keyframe only if that is
    something. -/
theorem mirrors_of_run {events : List WindowedClientEvent}
    (hreports : machine.Always (fun s e _ => s.Reports e) start events)
    (hrun : machine.run start events = some s) :
    s.Mirrors ∧ machine.Always TripsWithBacklog start events := by
  constructor
  · exact (hreports.run_invariant (fun _ _ _ h hstep hr => h.step hstep hr)
      mirrored_start hrun).mirrors
  · refine hreports.imp (I := Mirrored) (fun s e s' h hstep hr => ?_) mirrored_start
    have hs' := h.step hstep hr
    refine ⟨hs', fun hrequests hidle => ?_⟩
    exact pending_ne_nil_of_requests hstep hrequests (hs'.mirrors.idle hidle).1

/-- Two frames are decoded one after the other, the report on the first received in between. -/
theorem mirrors_of_run_two :
    let events : List WindowedClientEvent := [.processFrame ⟨1, 1⟩, .processFrame ⟨1, 2⟩,
      .worker .take, .worker (.decode 1), .worker .emit, .worker .take, .windowTiming]
    ∃ s, machine.run start events = some s ∧ s.Mirrors ∧
      machine.Always TripsWithBacklog start events := by
  intro events
  obtain ⟨s, hrun⟩ : ∃ s, machine.run start events = some s := ⟨_, rfl⟩
  exact ⟨s, hrun, mirrors_of_run (by decide) hrun⟩

/-- No image comes of a frame, and nothing else happens: more than the threshold later, the client
    still keeps the frame, and asks for a keyframe, though its window has nothing left to do. -/
theorem tripped_without_backlog :
    ∃ s, machine.run start [.processFrame ⟨1, 1⟩, .worker .take, .worker (.decode 0),
        .elapse (TRIP_THRESHOLD_US + 1), .tickCircuitBreaker] = some s ∧
      s.window.work = [] ∧ s.client.pending.map PendingFeedback.header = [⟨1, 1⟩] ∧
      s.requests = [⟨.decodeError⟩] :=
  ⟨_, rfl, rfl, rfl, rfl⟩

end WindowedClient

end Sardp
