import Sardp.Video.ClientDisplay
import Sardp.Video.KeyframeRequests

/-!
# The circuit breaker of the client

A client whose decoder stalls asks for a keyframe once the oldest frame it has not displayed is
too old (`queue_circuit_breaker.rs`), in case the reports it sends do not make the server reset
the stream in time. The server honors such requests at most once an interval, which is as long
as that age.

So the two agree: when a request comes too soon after a reopen, the frame it was made for is of
a generation the server has replaced (`KeyframeLoop.replaced_of_rateLimited`). A frame of the
current generation cannot have been sent, let alone been received, before the server decided to
reopen, so it is not old enough before the interval is over (`KeyframeLoop.Lagging`).
-/

namespace Sardp

/-- The age of the oldest frame at which the breaker may trip again. -/
def REARM_THRESHOLD_US : ℕ := VIDEO_RATE_REDUCE_THRESHOLD_DELTA_US

/-- The breaker, which does not ask again before the queue has recovered. -/
structure ClientQueueCircuitBreaker where
  tripThresholdUs : ℕ
  rearmThresholdUs : ℕ
  tripped : Bool
  rearm_lt_trip : rearmThresholdUs < tripThresholdUs

namespace ClientQueueCircuitBreaker

/-- The breaker of a new client. -/
def new : ClientQueueCircuitBreaker := ⟨TRIP_THRESHOLD_US, REARM_THRESHOLD_US, false, by decide⟩

/-- Observing the age of the oldest frame: the request to send, if it trips. -/
def observe (b : ClientQueueCircuitBreaker) (oldestQueuedAgeUs : ℕ) :
    Option KeyframeRequest × ClientQueueCircuitBreaker :=
  if b.tripped then
    -- only the gap between the two thresholds keeps it from asking for every frame
    if oldestQueuedAgeUs < b.rearmThresholdUs then (none, { b with tripped := false })
    else (none, b)
  else if oldestQueuedAgeUs > b.tripThresholdUs then
    (some ⟨.decodeError⟩, { b with tripped := true })
  else (none, b)

variable {b : ClientQueueCircuitBreaker} {age : ℕ}

@[simp] theorem tripThresholdUs_observe :
    (b.observe age).2.tripThresholdUs = b.tripThresholdUs := by
  rw [observe]
  split_ifs <;> rfl

/-- A request is only sent beyond the threshold. -/
theorem lt_of_observe {request : KeyframeRequest} (h : (b.observe age).1 = some request) :
    b.tripThresholdUs < age := by
  rw [observe] at h
  split_ifs at h with _ _ hage
  exact hage

end ClientQueueCircuitBreaker

/-! ## The client -/

/-- A frame that has been handed to the window, and when. -/
structure PendingFeedback where
  header : VideoFrameHeader
  receiveTs : ℕ

/-- The window of the client, with the frames it has not reported on. -/
structure WindowSink where
  display : ClientDisplay Unit
  pending : List PendingFeedback
  breaker : ClientQueueCircuitBreaker

namespace WindowSink

/-- The window of a new client. -/
def new : WindowSink := ⟨.new, [], .new⟩

/-- The breaker observes the age of the oldest frame. -/
def observeCircuitBreaker (w : WindowSink) (nowUs : ℕ) : Option KeyframeRequest × WindowSink :=
  let age := (w.pending.head?.map fun p => nowUs - p.receiveTs).getD 0
  let (request, breaker) := w.breaker.observe age
  (request, { w with breaker })

/-- A frame is received: it is handed to the window unless it is of a stale generation, or the
    window has been closed. -/
def processFrame (w : WindowSink) (nowUs : ℕ) (header : VideoFrameHeader) (closed : Bool) :
    Option KeyframeRequest × WindowSink :=
  if !w.display.wouldDisplay header || closed then (none, w)
  else
    let submitted : WindowSink :=
      { w with
        display := (w.display.submitFrame header ()).2
        pending := w.pending ++ [⟨header, nowUs⟩] }
    submitted.observeCircuitBreaker nowUs

/-- The window reports on a frame: those before it will not be reported on any more. -/
def onWindowTiming (w : WindowSink) (nowUs : ℕ) (header : VideoFrameHeader) :
    Option KeyframeRequest × WindowSink :=
  match w.pending.findIdx? fun p => p.header = header with
  | none => (none, w)
  | some position =>
    let reported : WindowSink := { w with pending := w.pending.drop (position + 1) }
    reported.observeCircuitBreaker nowUs

variable {w : WindowSink} {nowUs : ℕ} {request : KeyframeRequest}

/-- A request is sent for the oldest frame, which is older than the threshold. -/
theorem exists_oldest (h : (w.observeCircuitBreaker nowUs).1 = some request) :
    ∃ p, w.pending.head? = some p ∧ p.receiveTs + w.breaker.tripThresholdUs < nowUs := by
  have hlt := ClientQueueCircuitBreaker.lt_of_observe h
  cases hhead : w.pending.head? with
  | none => simp [hhead] at hlt
  | some p =>
    rw [hhead, Option.map_some, Option.getD_some] at hlt
    exact ⟨p, rfl, by omega⟩

theorem trip_observeCircuitBreaker : (w.observeCircuitBreaker nowUs).2.breaker.tripThresholdUs =
    w.breaker.tripThresholdUs :=
  ClientQueueCircuitBreaker.tripThresholdUs_observe

end WindowSink

/-! ## The client and the server -/

/-- A video channel of a server and the window of a client, with what is under way between
    them. The two clocks run at the same rate. -/
structure KeyframeLoop where
  nowUs : ℕ
  serverOffsetUs : ℕ
  clientOffsetUs : ℕ
  server : ServedChannel
  /-- The frames that have been sent and not been received. -/
  frames : List VideoFrameHeader
  client : WindowSink
  /-- The requests that have been sent and not been handled, in order, with the oldest frame
      that was not displayed when they were sent. -/
  requests : List (KeyframeRequest × PendingFeedback)

/-- What goes on between the two. -/
inductive KeyframeLoopEvent
  | elapse (us : ℕ)
  /-- A call of the video channel for another reason than a request. -/
  | call (e : ChannelCall)
  /-- The server handles the next request. -/
  | handleRequest
  /-- The server sends a frame of its generation. -/
  | sendFrame (frameId : ℕ)
  /-- The client receives one of the frames sent, or it is lost with its stream. -/
  | receiveFrame (i : ℕ) (closed : Bool)
  | loseFrame (i : ℕ)
  /-- The window reports on a frame. -/
  | timing (header : VideoFrameHeader)
  | tickCircuitBreaker

namespace KeyframeLoop

/-- The client and the server of a connection as its first instance is opened. -/
def start (serverOffsetUs clientOffsetUs generation : ℕ) : KeyframeLoop :=
  ⟨0, serverOffsetUs, clientOffsetUs, .start generation, [], .new, []⟩

def serverNowUs (s : KeyframeLoop) : ℕ := s.nowUs + s.serverOffsetUs

def clientNowUs (s : KeyframeLoop) : ℕ := s.nowUs + s.clientOffsetUs

/-- The client has done something, and sends the request that comes of it. -/
def observed (s : KeyframeLoop) (r : Option KeyframeRequest × WindowSink) : KeyframeLoop :=
  { s with
    client := r.2
    requests := s.requests ++ (r.1.bind fun request =>
      r.2.pending.head?.map fun oldest => (request, oldest)).toList }

/-- What happens next; `none` where it is not possible. -/
def step (s : KeyframeLoop) : KeyframeLoopEvent → Option KeyframeLoop
  | .elapse us => some { s with nowUs := s.nowUs + us }
  | .call e =>
    match e with
    | .keyframeRequest _ _ => none
    | .feedback nowUs _ _ =>
      if nowUs = s.serverNowUs then
        (ServedChannel.calls.step s.server e).map fun server => { s with server }
      else none
    | _ => (ServedChannel.calls.step s.server e).map fun server => { s with server }
  | .handleRequest =>
    match s.requests with
    | [] => none
    | (request, _) :: requests =>
      (ServedChannel.calls.step s.server (.keyframeRequest s.serverNowUs request)).map
        fun server => { s with server, requests }
  | .sendFrame frameId =>
    -- a decision to reopen is followed by the reopen before the next frame
    if s.server.stage = .givenUp then none
    else some { s with frames := s.frames ++ [⟨s.server.channel.generation, frameId⟩] }
  | .receiveFrame i closed =>
    match s.frames[i]? with
    | none => none
    | some header =>
      some ({ s with frames := s.frames.eraseIdx i }.observed
        (s.client.processFrame s.clientNowUs header closed))
  | .loseFrame i => some { s with frames := s.frames.eraseIdx i }
  | .timing header => some (s.observed (s.client.onWindowTiming s.clientNowUs header))
  | .tickCircuitBreaker => some (s.observed (s.client.observeCircuitBreaker s.clientNowUs))

/-- The steps as a machine. -/
def machine : Machine KeyframeLoop KeyframeLoopEvent := ⟨step⟩

end KeyframeLoop

namespace ServedChannel

variable {s s' : ServedChannel} {e : ChannelCall}

/-- A call leaves the generation and the time of the last decision alone, unless it decides to
    reopen or does so. -/
theorem reopen_cases (hstep : calls.step s e = some s') :
    (s'.channel.generation = s.channel.generation ∧ s'.stage = .givenUp) ∨
      s'.channel.generation = s.channel.generation + 1 ∨
      s'.channel.generation = s.channel.generation ∧ s.stage ≠ .givenUp ∧
        s'.channel.lastReopenUs = s.channel.lastReopenUs := by
  obtain ⟨hpermits, rfl⟩ := calls_step hstep
  have hlast (h : (s.channel.call e).1.reopens = false) :
      (s.channel.call e).2.lastReopenUs = s.channel.lastReopenUs := by
    rw [VideoChannel.lastReopenUs_call, VideoChannel.reopenTime, h]
    rfl
  cases e with
  | markInstanceStreaming =>
    have hstage : s.stage ≠ .givenUp := by
      intro hstage
      simp [permits, hstage] at hpermits
    exact .inr (.inr ⟨VideoChannel.generation_call (by simp), hstage,
      hlast VideoChannel.reopens_markInstanceStreaming⟩)
  | feedback | keyframeRequest =>
    have hstage : s.stage = .running := by simpa [permits] using hpermits
    rw [stageAfter]
    split_ifs with hreopens
    · exact .inl ⟨VideoChannel.generation_call (by simp), rfl⟩
    · exact .inr (.inr ⟨VideoChannel.generation_call (by simp), by simp [hstage],
        hlast (Bool.eq_false_iff.2 hreopens)⟩)
  | prepareReopen => exact .inr (.inl rfl)
  | activate | deactivate =>
    by_cases hstage : s.stage = .givenUp
    · exact .inl ⟨rfl, hstage⟩
    · exact .inr (.inr ⟨rfl, hstage, rfl⟩)

theorem lastReopenUs_step (hstep : calls.step s e = some s') :
    s'.channel.lastReopenUs = s.channel.lastReopenUs ∨
      s'.channel.lastReopenUs = e.time := by
  obtain ⟨-, rfl⟩ := calls_step hstep
  rw [VideoChannel.lastReopenUs_call, VideoChannel.reopenTime]
  split
  · cases e.time with
    | none => exact .inl rfl
    | some t => exact .inr rfl
  · exact .inl rfl

end ServedChannel

namespace KeyframeLoop

variable {s s' : KeyframeLoop} {e : KeyframeLoopEvent}

/-- The generation has been opened, and if it is the one of the server, the time of the decision
    that led to it has the property. -/
def Since (server : ServedChannel) (generation : ℕ) (P : ℕ → Prop) : Prop :=
  generation ≤ server.channel.generation ∧
    (generation = server.channel.generation → server.stage ≠ .givenUp →
      ∀ last ∈ server.channel.lastReopenUs, P last)

theorem Since.step {server server' : ServedChannel} {e : ChannelCall} {generation : ℕ}
    {P : ℕ → Prop} (h : Since server generation P)
    (hstep : ServedChannel.calls.step server e = some server') : Since server' generation P := by
  rcases ServedChannel.reopen_cases hstep with
    ⟨hgeneration, hstage⟩ | hgeneration | ⟨hgeneration, hstage, hlast⟩
  · -- the generation has been given up, and is about to be replaced
    exact ⟨hgeneration ▸ h.1, fun _ hne => absurd hstage hne⟩
  · -- it is replaced now
    have hle := h.1
    exact ⟨by omega, fun heq => by omega⟩
  · rw [Since, hgeneration, hlast]
    exact ⟨h.1, fun heq _ => h.2 heq hstage⟩

/-- Frames and requests lag behind the server: a frame of its generation has been received after
    the decision that led to it, and a request for such a frame comes an interval later. -/
structure Lagging (s : KeyframeLoop) : Prop where
  last_le : ∀ last ∈ s.server.channel.lastReopenUs, last ≤ s.serverNowUs
  frames : ∀ header ∈ s.frames, header.generation ≤ s.server.channel.generation
  pending : ∀ p ∈ s.client.pending, Since s.server p.header.generation fun last =>
    last + s.clientOffsetUs ≤ p.receiveTs + s.serverOffsetUs
  requests : ∀ r ∈ s.requests, Since s.server r.2.header.generation fun last =>
    last + KEYFRAME_REQUEST_MIN_INTERVAL_US ≤ s.serverNowUs
  trip : s.client.breaker.tripThresholdUs = TRIP_THRESHOLD_US

theorem lagging_start (serverOffsetUs clientOffsetUs generation : ℕ) :
    (start serverOffsetUs clientOffsetUs generation).Lagging :=
  ⟨nofun, nofun, nofun, nofun, rfl⟩

/-- What the server does keeps the lag. -/
theorem Lagging.serve (h : s.Lagging) {e : ChannelCall} {server : ServedChannel}
    (hstep : ServedChannel.calls.step s.server e = some server)
    (htime : ∀ t ∈ e.time, t ≤ s.serverNowUs) : Lagging { s with server } where
  last_le := by
    rcases ServedChannel.lastReopenUs_step hstep with hlast | hlast <;> rw [hlast]
    · exact h.last_le
    · exact htime
  frames header hheader := by
    have hle := h.frames header hheader
    rcases ServedChannel.reopen_cases hstep with
      ⟨hgeneration, -⟩ | hgeneration | ⟨hgeneration, -⟩ <;> (rw [hgeneration]; omega)
  pending p hp := (h.pending p hp).step hstep
  requests r hr := (h.requests r hr).step hstep
  trip := h.trip

/-- What the breaker observes keeps it, too. -/
theorem Lagging.observed (h : s.Lagging) :
    (s.observed (s.client.observeCircuitBreaker s.clientNowUs)).Lagging := by
  refine ⟨h.last_le, h.frames, h.pending, fun r hr => ?_, ?_⟩
  · rcases List.mem_append.1 hr with hr | hr
    · exact h.requests r hr
    · obtain ⟨request, hrequest, hr⟩ := Option.bind_eq_some_iff.1 (Option.mem_toList.1 hr)
      obtain ⟨oldest, hoverdue, hage⟩ := WindowSink.exists_oldest hrequest
      obtain ⟨oldest', hoverdue', rfl⟩ := Option.map_eq_some_iff.1 hr
      cases hoverdue.symm.trans hoverdue'
      have hmem := List.mem_of_mem_head? (Option.mem_def.2 hoverdue)
      refine ⟨(h.pending oldest hmem).1, fun heq hne last hlast => ?_⟩
      have hreceived : last + s.clientOffsetUs ≤ oldest.receiveTs + s.serverOffsetUs :=
        (h.pending oldest hmem).2 heq hne last hlast
      -- received after the decision, the frame is older than the interval
      rw [h.trip, clientNowUs] at hage
      show last + TRIP_THRESHOLD_US ≤ s.nowUs + s.serverOffsetUs
      omega
  · exact WindowSink.trip_observeCircuitBreaker.trans h.trip

theorem observed_none (s : KeyframeLoop) : s.observed (none, s.client) = s := by
  simp [observed]

/-- A frame that is received has been sent by now, so that it is received after the decision
    that led to its generation. -/
theorem Lagging.received (h : s.Lagging) {header : VideoFrameHeader} (hheader : header ∈ s.frames)
    (i : ℕ) (closed : Bool) :
    (KeyframeLoop.observed { s with frames := s.frames.eraseIdx i }
      (s.client.processFrame s.clientNowUs header closed)).Lagging := by
  have herased : Lagging { s with frames := s.frames.eraseIdx i } :=
    ⟨h.last_le, fun header' hheader' => h.frames header' (List.mem_of_mem_eraseIdx hheader'),
      h.pending, h.requests, h.trip⟩
  rw [WindowSink.processFrame]
  split_ifs
  · exact (observed_none { s with frames := s.frames.eraseIdx i }).symm ▸ herased
  · let s₁ : KeyframeLoop :=
      { s with
        frames := s.frames.eraseIdx i
        client :=
          { s.client with
            display := (s.client.display.submitFrame header ()).2
            pending := s.client.pending ++ [⟨header, s.clientNowUs⟩] } }
    have hs₁ : s₁.Lagging := by
      refine ⟨herased.last_le, herased.frames, fun p hp => ?_, herased.requests, herased.trip⟩
      rcases List.mem_append.1 hp with hp | hp
      · exact h.pending p hp
      · rw [List.mem_singleton.1 hp]
        refine ⟨h.frames header hheader, fun _ _ last hlast => ?_⟩
        -- the frame is received now, and no decision is later than that
        have hle : last ≤ s.nowUs + s.serverOffsetUs := h.last_le last hlast
        show last + s.clientOffsetUs ≤ s.nowUs + s.clientOffsetUs + s.serverOffsetUs
        omega
    exact hs₁.observed

theorem Lagging.step (h : s.Lagging) (hstep : machine.step s e = some s') : s'.Lagging := by
  cases e with
  | elapse us =>
    cases hstep
    refine ⟨fun last hlast => (h.last_le last hlast).trans ?_, h.frames, h.pending,
      fun r hr => ⟨(h.requests r hr).1, fun heq hne last hlast =>
        ((h.requests r hr).2 heq hne last hlast).trans ?_⟩, h.trip⟩
    all_goals
      simp only [serverNowUs]
      omega
  | call e =>
    cases e with
    | keyframeRequest => cases hstep
    | feedback nowUs clientQueueDelayUs appSendQueueBytes =>
      simp only [machine, step] at hstep
      split_ifs at hstep with hnow
      obtain ⟨server, hserver, rfl⟩ := Option.map_eq_some_iff.1 hstep
      exact h.serve hserver fun t ht => by cases ht; exact hnow.le
    | markInstanceStreaming | prepareReopen | activate | deactivate =>
      simp only [machine, step] at hstep
      obtain ⟨server, hserver, rfl⟩ := Option.map_eq_some_iff.1 hstep
      exact h.serve hserver nofun
  | handleRequest =>
    simp only [machine, step] at hstep
    split at hstep
    · cases hstep
    · next request oldest requests hrequests =>
      obtain ⟨server, hserver, rfl⟩ := Option.map_eq_some_iff.1 hstep
      have hserved := h.serve hserver fun t ht => by cases ht; exact le_rfl
      refine ⟨hserved.last_le, hserved.frames, hserved.pending, fun r hr => ?_, hserved.trip⟩
      exact hserved.requests r (hrequests ▸ List.mem_cons_of_mem _ hr)
  | sendFrame frameId =>
    simp only [machine, step] at hstep
    split_ifs at hstep
    cases hstep
    refine ⟨h.last_le, fun header hheader => ?_, h.pending, h.requests, h.trip⟩
    rcases List.mem_append.1 hheader with hheader | hheader
    · exact h.frames header hheader
    · rw [List.mem_singleton.1 hheader]
  | receiveFrame i closed =>
    simp only [machine, step] at hstep
    split at hstep
    · cases hstep
    · next header hheader =>
      cases hstep
      exact h.received (List.mem_of_getElem? hheader) i closed
  | loseFrame i =>
    cases hstep
    exact ⟨h.last_le, fun header hheader => h.frames header (List.mem_of_mem_eraseIdx hheader),
      h.pending, h.requests, h.trip⟩
  | timing header =>
    simp only [machine, step, WindowSink.onWindowTiming] at hstep
    split at hstep
    · rw [observed_none] at hstep
      cases hstep
      exact h
    · next position _ =>
      cases hstep
      let s₁ : KeyframeLoop := { s with
        client := { s.client with pending := s.client.pending.drop (position + 1) } }
      have hs₁ : s₁.Lagging :=
        ⟨h.last_le, h.frames, fun p hp => h.pending p (List.mem_of_mem_drop hp), h.requests, h.trip⟩
      exact hs₁.observed
  | tickCircuitBreaker =>
    cases hstep
    exact h.observed

/-- If a request comes too soon, the frame it was made for is of a generation the server has
    replaced. -/
theorem replaced_of_rateLimited (serverOffsetUs clientOffsetUs generation : ℕ)
    (es : List KeyframeLoopEvent) :
    machine.Always (fun s e _ => ∀ request oldest requests t, e = .handleRequest →
        s.requests = (request, oldest) :: requests →
        (s.server.channel.onKeyframeRequest s.serverNowUs request).1 = .ignored (.rateLimited t) →
        oldest.header.generation < s.server.channel.generation)
      (start serverOffsetUs clientOffsetUs generation) es := by
  refine Machine.always_of_step (I := Lagging) (fun _ _ _ hs hstep => hs.step hstep) ?_
    (lagging_start _ _ _)
  intro s e _ hs hstep request oldest requests t he hrequests hlimited
  subst he
  simp only [machine, step, hrequests] at hstep
  obtain ⟨server, hserver, -⟩ := Option.map_eq_some_iff.1 hstep
  have hstage : s.server.stage = .running := by
    simpa [ServedChannel.permits] using (ServedChannel.calls_step hserver).1
  have hsoon : s.server.channel.TooSoon s.serverNowUs := by
    rcases s.server.channel.onKeyframeRequest_cases s.serverNowUs request with
      ⟨hsoon, -⟩ | ⟨-, -, h⟩ | ⟨-, -, h⟩
    · exact hsoon
    all_goals
      rw [h] at hlimited
      cases hlimited
  obtain ⟨last, hlast, hlt⟩ := hsoon
  have hrequest := hs.requests (request, oldest) (hrequests ▸ List.mem_cons_self)
  refine lt_of_le_of_ne hrequest.1 fun heq => ?_
  -- were it the generation of the server, the interval would be over by now
  have hle : last + KEYFRAME_REQUEST_MIN_INTERVAL_US ≤ s.serverNowUs :=
    hrequest.2 heq (by rw [hstage]; nofun) last hlast
  exact absurd (hlt.trans_le (min_le_left _ _)) hle.not_gt

end KeyframeLoop

end Sardp
