import Sardp.Server.DesktopSession

/-!
# Requests for IDRs

A server that opens an instance asks the source for an IDR by a flag, which the next capture takes,
and skips what has been under way until then. The IDR can get lost on its way: the source does not
wait for room in the hand-off or in the channel, which are full of older frames just when the
session is behind (`DesktopSession.requested_idr_dropped`); and on macOS the encoder may refuse the
image the flag was taken for. Nobody asks again.

If no such thing happens while the server waits, an IDR that has been requested is under way until
there is one (`DesktopSource.coming`), and the server does not skip too many frames
(`DesktopSession.idr_delivered`).
-/

namespace Sardp

/-! ## What is under way -/

namespace DesktopSource

/-- How many images and frames are on their way to the session. -/
def underWay (s : DesktopSource) : ℕ :=
  s.channel.waiting.length + s.handoff.waiting.length + s.encoder.length

/-- The encoder puts out an IDR for every image of which one is requested. -/
def Honors (s : DesktopSource) : SourceEvent → Prop
  | .encode isIdr => s.encoder.head? = some true → isIdr = true
  | .skip => s.encoder.head? ≠ some true
  | _ => True

instance (s : DesktopSource) : (e : SourceEvent) → Decidable (s.Honors e)
  | .encode isIdr => inferInstanceAs (Decidable (s.encoder.head? = some true → isIdr = true))
  | .skip => inferInstanceAs (Decidable (s.encoder.head? ≠ some true))
  | .capture | .refuse | .send | .stop => .isTrue trivial

/-- The frame is an IDR that has been requested. -/
def requested (frame : EncodedFrame) : Bool := frame.forced && frame.isIdr

/-- What is going to reach the session, in order: whether it is an IDR that has been requested,
    or will be one if the encoder honors the requests. Nothing that is not in the channel reaches
    the session once the worker has ended. -/
def coming (s : DesktopSource) : List Bool :=
  s.channel.waiting.map requested ++
    if s.stopped then [] else s.handoff.waiting.map requested ++ s.encoder ++
      if s.forceIdr then [true] else []

/-- The source does not lose an IDR that has been requested. -/
def Delivers (s : DesktopSource) : SourceEvent → Prop
  | .refuse => s.forceIdr = false
  | .encode _ => s.encoder.head? = some true → s.handoff.hasRoom
  | .send => ∀ frame ∈ s.handoff.waiting.head?, frame.forced → s.channel.hasRoom
  | _ => True

instance (s : DesktopSource) : (e : SourceEvent) → Decidable (s.Delivers e)
  | .refuse => inferInstanceAs (Decidable (s.forceIdr = false))
  | .encode _ => inferInstanceAs (Decidable (s.encoder.head? = some true → s.handoff.hasRoom))
  | .send => inferInstanceAs
      (Decidable (∀ frame ∈ s.handoff.waiting.head?, frame.forced → s.channel.hasRoom))
  | .capture | .skip | .stop => .isTrue trivial

/-- An IDR that has been requested reaches the session in time, `n` frames having been skipped; or
    the worker has ended, and there are too few frames to skip. -/
def Due (s : DesktopSource) (n : ℕ) : Prop :=
  (true ∈ s.coming ∧ n + s.coming.idxOf true < MAX_FRAMES_TO_SKIP_FOR_IDR) ∨
    s.stopped = true ∧ n + s.channel.waiting.length < MAX_FRAMES_TO_SKIP_FOR_IDR

variable {s s' : DesktopSource} {e : SourceEvent} {frame : EncodedFrame} {n : ℕ}

/-- Dropping something else brings what has been requested forward. -/
theorem due_of_removed (before after : List Bool) (h : s.Due n) (hrunning : s.stopped = false)
    (hs : s.coming = before ++ false :: after) (hs' : s'.coming = before ++ after) : s'.Due n := by
  rcases h with ⟨hmem, hlt⟩ | ⟨hstopped, -⟩
  · left
    rw [hs] at hmem hlt
    rw [hs']
    have hmem' : true ∈ before ++ after := by simpa using hmem
    refine ⟨hmem', ?_⟩
    rw [List.idxOf_append] at hlt ⊢
    rw [List.idxOf_cons_ne _ (by decide)] at hlt
    split_ifs at hlt ⊢ <;> omega
  · simp [hrunning] at hstopped

/-- What comes later does not matter. -/
theorem due_of_append (rest : List Bool) (h : s.Due n) (hrunning : s.stopped = false)
    (hs' : s'.coming = s.coming ++ rest) : s'.Due n := by
  rcases h with ⟨hmem, hlt⟩ | ⟨hstopped, -⟩
  · left
    rw [hs', List.idxOf_append_of_mem hmem]
    exact ⟨List.mem_append_left _ hmem, hlt⟩
  · simp [hrunning] at hstopped

/-- A request in time is due. -/
theorem due_requestIdr (h : s.underWay < MAX_FRAMES_TO_SKIP_FOR_IDR) : s.requestIdr.Due 0 := by
  cases hstopped : s.stopped with
  | true =>
    have hle : s.channel.waiting.length ≤ s.underWay := by
      rw [underWay]
      omega
    exact .inr ⟨hstopped, by simpa [requestIdr] using hle.trans_lt h⟩
  | false =>
    have hcoming : s.requestIdr.coming = s.channel.waiting.map requested ++
        (s.handoff.waiting.map requested ++ s.encoder) ++ [true] := by
      simp [coming, requestIdr, hstopped]
    have hmem : true ∈ s.requestIdr.coming := by simp [hcoming]
    have hlt : s.requestIdr.coming.idxOf true < s.requestIdr.coming.length :=
      List.idxOf_lt_length_of_mem hmem
    refine .inl ⟨hmem, ?_⟩
    have hlength : s.requestIdr.coming.length = s.underWay + 1 := by
      simp only [hcoming, underWay, List.length_append, List.length_map, List.length_singleton]
      omega
    omega

/-- What is due stays due, whatever the source does. -/
theorem Due.step (h : s.Due n) (hhonors : s.Honors e) (hdelivers : s.Delivers e)
    (hstep : machine.step s e = some s') : s'.Due n := by
  obtain ⟨hrunning, hcase⟩ := step_eq_some.1 hstep
  cases e with
  | capture =>
    -- the request goes from the flag to the image, without changing its place
    cases hcase
    cases hforce : s.forceIdr with
    | true => exact due_of_append [] h hrunning (by simp [coming, hrunning, hforce])
    | false => exact due_of_append [false] h hrunning (by simp [coming, hrunning, hforce])
  | refuse =>
    obtain ⟨-, rfl⟩ := hcase
    have hforce : s.forceIdr = false := hdelivers
    exact due_of_append [] h hrunning (by simp [coming, hrunning, hforce])
  | encode isIdr =>
    obtain ⟨forced, encoder, hencoder, rfl⟩ := hcase
    have hhonors : forced = true → isIdr = true := fun hforced =>
      hhonors (by rw [hencoder, hforced]; rfl)
    by_cases hroom : s.handoff.hasRoom
    · -- the frame takes the place of its image
      refine due_of_append [] h hrunning ?_
      cases forced <;>
        simp_all [coming, requested, frame, Passage.offer]
    · have hforced : forced = false := by
        by_contra hforced
        exact hroom (hdelivers (by rw [hencoder, Bool.eq_true_of_not_eq_false hforced]; rfl))
      refine due_of_removed ((s.channel.waiting ++ s.handoff.waiting).map requested)
        (encoder ++ if s.forceIdr then [true] else []) h hrunning ?_ ?_
      · simp [coming, hrunning, hencoder, hforced]
      · simp [coming, hrunning, Passage.offer, hroom]
  | skip =>
    obtain ⟨forced, encoder, hencoder, rfl⟩ := hcase
    -- an encoder that honors the requests drops no image of which an IDR is requested
    have hforced : forced = false := by
      by_contra hforced
      exact hhonors (by rw [hencoder, Bool.eq_true_of_not_eq_false hforced]; rfl)
    refine due_of_removed ((s.channel.waiting ++ s.handoff.waiting).map requested)
      (encoder ++ if s.forceIdr then [true] else []) h hrunning ?_ ?_
    · simp [coming, hrunning, hencoder, hforced]
    · simp [coming, hrunning]
  | send =>
    obtain ⟨frame, handoff, htake, rfl⟩ := hcase
    obtain ⟨waiting, hwaiting, rfl⟩ := Passage.take_eq_some.1 htake
    by_cases hroom : s.channel.hasRoom
    · exact due_of_append [] h hrunning (by
        simp [coming, hrunning, hwaiting, Passage.offer, hroom])
    · -- the channel is full, but not for an IDR that has been requested
      have hforced : frame.forced = false := by
        by_contra hforced
        exact hroom (hdelivers frame (by rw [hwaiting]; rfl) (Bool.eq_true_of_not_eq_false hforced))
      refine due_of_removed (s.channel.waiting.map requested)
        (waiting.map requested ++ s.encoder ++ if s.forceIdr then [true] else [])
        h hrunning ?_ ?_
      · simp [coming, hrunning, hwaiting, requested, hforced]
      · simp [coming, hrunning, Passage.offer, hroom]
  | stop =>
    cases hcase
    rcases h with ⟨hmem, hlt⟩ | ⟨hstopped, -⟩
    · -- what is not in the channel is lost, but then there is not enough in it to skip
      rw [coming, if_neg (Bool.eq_false_iff.1 hrunning)] at hmem hlt
      by_cases hchannel : true ∈ s.channel.waiting.map requested
      · rw [List.idxOf_append_of_mem hchannel] at hlt
        exact .inl ⟨by simpa [coming] using hchannel, by simpa [coming] using hlt⟩
      · rw [List.idxOf_append_of_notMem hchannel, List.length_map] at hlt
        refine .inr ⟨rfl, ?_⟩
        show n + s.channel.waiting.length < MAX_FRAMES_TO_SKIP_FOR_IDR
        omega
    · simp [hrunning] at hstopped

/-- Skipping a frame that is no IDR takes one off what is due. -/
theorem Due.nextFrame (h : s.Due n) (hnext : s.nextFrame = some (frame, s'))
    (hidr : frame.isIdr = false) : s'.Due (n + 1) := by
  obtain ⟨channel, htake, hs'⟩ := nextFrame_eq_some.1 hnext
  obtain ⟨waiting, hwaiting, rfl⟩ := Passage.take_eq_some.1 htake
  rcases h with ⟨hmem, hlt⟩ | ⟨hstopped, hlt⟩
  · -- the frame that is skipped comes first, and is not the one that is due
    have hcoming : s.coming = false :: s'.coming := by
      simp [← hs', coming, hwaiting, requested, hidr]
    rw [hcoming] at hmem hlt
    rw [List.idxOf_cons_ne _ (by decide)] at hlt
    exact .inl ⟨by simpa using hmem, by omega⟩
  · rw [hwaiting, List.length_cons] at hlt
    refine .inr ⟨hs' ▸ hstopped, ?_⟩
    rw [← hs']
    show n + 1 + waiting.length < MAX_FRAMES_TO_SKIP_FOR_IDR
    omega

end DesktopSource

/-! ## The session -/

namespace DesktopSession

/-- The encoder puts out an IDR for every image of which one is requested. -/
def Honors (s : DesktopSession) : DesktopEvent → Prop
  | .source e => s.source.Honors e
  | _ => True

instance (s : DesktopSession) : (e : DesktopEvent) → Decidable (s.Honors e)
  | .source e => inferInstanceAs (Decidable (s.source.Honors e))
  | .openFirst | .round _ | .desktopFrame _ | .giveUp _ _ | .nextIdrFrame _ | .openingTimeout =>
    .isTrue trivial

/-- The server waits for an IDR. -/
def waits (s : DesktopSession) : Bool :=
  match s.consumer with
  | .opening _ _ => true
  | _ => false

/-- Too little is under way to skip when an IDR is requested, and while the server waits for it,
    the source does not lose it. -/
def Delivers (s : DesktopSession) : DesktopEvent → Prop
  | .source e => s.waits → s.source.Delivers e
  | .openFirst | .giveUp _ _ => s.source.underWay < MAX_FRAMES_TO_SKIP_FOR_IDR
  | _ => True

instance (s : DesktopSession) : (e : DesktopEvent) → Decidable (s.Delivers e)
  | .source e => inferInstanceAs (Decidable (s.waits → s.source.Delivers e))
  | .openFirst | .giveUp _ _ =>
    inferInstanceAs (Decidable (s.source.underWay < MAX_FRAMES_TO_SKIP_FOR_IDR))
  | .round _ | .desktopFrame _ | .nextIdrFrame _ | .openingTimeout => .isTrue trivial

/-- While the server waits, it has not skipped too many frames, and an IDR that has been requested
    is under way. -/
def Delivered (s : DesktopSession) : Prop :=
  ∀ round skipped, s.consumer = .opening round skipped →
    skipped < MAX_FRAMES_TO_SKIP_FOR_IDR ∧ (s.source.stopped = false → true ∈ s.source.coming)

/-- What the server waits for is due. -/
def Due (s : DesktopSession) : Prop :=
  ∀ round skipped, s.consumer = .opening round skipped → s.source.Due skipped

variable {s s' : DesktopSession} {e : DesktopEvent}

theorem Due.delivered (h : s.Due) : s.Delivered := by
  intro round skipped hconsumer
  rcases h round skipped hconsumer with ⟨hmem, hlt⟩ | ⟨hstopped, hlt⟩
  · exact ⟨by omega, fun _ => hmem⟩
  · exact ⟨by omega, fun hrunning => absurd hstopped (Bool.eq_false_iff.1 hrunning)⟩

theorem Due.step (h : s.Due) (hstep : machine.step s e = some s') (hhonors : s.Honors e)
    (hdelivers : s.Delivers e) : s'.Due := by
  cases stepped hstep with
  | source hsource =>
    intro round skipped hconsumer
    have hwaits : s.waits = true := by rw [waits, hconsumer]
    exact (h round skipped hconsumer).step hhonors (hdelivers hwaits) hsource
  | session => exact h
  | openFirst | giveUp =>
    intro round skipped hconsumer
    cases hconsumer
    exact DesktopSource.due_requestIdr hdelivers
  | frame session hstreaming =>
    intro round skipped hconsumer
    cases hstreaming.symm.trans hconsumer
  | opened =>
    -- the server does not wait any more
    intro round skipped hconsumer
    dsimp only at hconsumer
    split_ifs at hconsumer
  | skipped session hopening hnext hidr =>
    intro round skipped hconsumer
    cases hconsumer
    exact (h _ _ hopening).nextFrame hnext hidr

/-- An image goes through the source. -/
def image (isIdr : Bool) : List DesktopEvent :=
  [.source .capture, .source (.encode isIdr), .source .send]

/-- The session has shown two frames, and has not taken some others, when it gives its instance
    up: an IDR is requested and goes through the source before the others are skipped. -/
def fallingBehind (frames : ℕ) : List DesktopEvent :=
  image true ++ [.openFirst, .nextIdrFrame .ok] ++ image true ++ [.desktopFrame (.ok ())] ++
    (List.replicate frames (image false)).flatten ++
    [.giveUp 0 (.keyframe ⟨.decodeError⟩)] ++ image true

/-- The channel of an instance that is streaming. -/
def streamingChannel : VideoChannel := ((VideoChannel.new 0).call .markInstanceStreaming).2

/-- If the four other frames fill the channel, the IDR is dropped although the encoder has honored
    the request, and the server skips frames until it has skipped too many. -/
theorem requested_idr_dropped :
    let es := fallingBehind 4 ++ List.replicate 4 (.nextIdrFrame .ok) ++
      (List.replicate 116 (image false ++ [.nextIdrFrame .ok])).flatten
    machine.Always (fun s e _ => s.Honors e) (start .windows Bit.VIEW streamingChannel [0]) es ∧
      ∃ s, machine.run (start .windows Bit.VIEW streamingChannel [0]) es = some s ∧
        s.session.result = some (.error .capture) ∧ ¬ s.Delivered := by
  intro es
  refine ⟨by decide +kernel, ?_⟩
  have hall : (machine.run (start .windows Bit.VIEW streamingChannel [0]) es).map
      (fun s => (s.consumer, s.session.result)) =
      some (.opening (some (0, .keyframe ⟨.decodeError⟩)) 120, some (.error .capture)) := by
    decide +kernel
  obtain ⟨s, hrun, hs⟩ := Option.map_eq_some_iff.1 hall
  obtain ⟨hconsumer, hresult⟩ := Prod.mk.inj hs
  exact ⟨s, hrun, hresult, fun h => absurd (h _ _ hconsumer).1 (by decide)⟩

/-- If the encoder honors the requests, too little is under way to skip when there is one, and the
    source does not lose an IDR the server waits for, then the server gets one in time. -/
theorem idr_delivered (platform : Platform) (grantedPermissions : PermissionSet)
    (videoChannel : VideoChannel) (opened : List ℕ) (es : List DesktopEvent)
    (hhonors : machine.Always (fun s e _ => s.Honors e)
      (start platform grantedPermissions videoChannel opened) es)
    (hdelivers : machine.Always (fun s e _ => s.Delivers e)
      (start platform grantedPermissions videoChannel opened) es)
    (hrun : machine.run (start platform grantedPermissions videoChannel opened) es = some s) :
    s.Delivered := by
  have hstart : (start platform grantedPermissions videoChannel opened).Due := nofun
  have hdue : s.Due := (Machine.always_and.2 ⟨hhonors, hdelivers⟩).run_invariant
    (fun _ _ _ h hstep he => h.step hstep he.1 he.2) hstart hrun
  exact hdue.delivered

/-- If there are two other frames, the IDR is in the channel behind them. -/
theorem idr_delivered_behind_two :
    ∃ s, machine.run (start .windows Bit.VIEW streamingChannel [0]) (fallingBehind 2) = some s ∧
      s.consumer = .opening (some (0, .keyframe ⟨.decodeError⟩)) 0 ∧ s.Delivered := by
  have hall : (machine.run (start .windows Bit.VIEW streamingChannel [0]) (fallingBehind 2)).map
      (fun s => s.consumer) = some (.opening (some (0, .keyframe ⟨.decodeError⟩)) 0) := by
    decide
  obtain ⟨s, hrun, hconsumer⟩ := Option.map_eq_some_iff.1 hall
  exact ⟨s, hrun, hconsumer, idr_delivered _ _ _ _ _ (by decide) (by decide) hrun⟩

end DesktopSession

end Sardp
