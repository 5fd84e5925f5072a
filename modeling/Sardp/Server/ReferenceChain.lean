import Sardp.Server.DesktopSession

/-!
# The frames of a desktop session refer to what has been sent

A frame that is no IDR refers to the frame the encoder put out before it, and can only be decoded
after it. Frames are dropped in four places after they have been encoded: the hand-off and the
channel drop what finds no room, the loop drops what the client may not see, and frames are
skipped before an instance is opened. The encoder does not know of it, and nobody asks it for an
IDR, so that the next frame sent may refer to one that has not been
(`DesktopSession.frame_sent_after_revoked_view`).

Skipping frames does no harm, as the instance starts with an IDR. In the other places it takes
an IDR: if whatever has dropped a frame goes on with an IDR, everything that is sent can be
decoded (`DesktopSession.intact_of_resumes`).
-/

namespace Sardp

/-- The frame can be decoded after the other one: it is an IDR, or the encoder has put it out
    next. -/
def EncodedFrame.Follows (a b : EncodedFrame) : Prop := b.isIdr = true ∨ b.index = a.index + 1

/-! ## The source -/

namespace DesktopSource

/-- What has dropped a frame, the hand-off or the channel, goes on with an IDR. -/
def Resumes (s : DesktopSource) : SourceEvent → Prop
  | .encode isIdr => s.handoff.hasRoom → s.handoff.Dropping → isIdr
  | .send => ∀ frame ∈ s.handoff.waiting.head?,
      s.channel.hasRoom → s.channel.Dropping → frame.isIdr
  | _ => True

instance (s : DesktopSource) : (e : SourceEvent) → Decidable (s.Resumes e)
  | .encode isIdr =>
    inferInstanceAs (Decidable (s.handoff.hasRoom → s.handoff.Dropping → isIdr))
  | .send => inferInstanceAs (Decidable (∀ frame ∈ s.handoff.waiting.head?,
      s.channel.hasRoom → s.channel.Dropping → frame.isIdr))
  | .capture | .refuse | .skip | .stop => .isTrue trivial

/-- What waits for the worker and for the session can be decoded in order. -/
structure Chained (s : DesktopSource) : Prop where
  /-- The encoder goes on after the last frame offered to the worker. -/
  encoded : ∀ frame ∈ s.handoff.offered, s.outputs = frame.index + 1
  handoff : s.handoff.Chained EncodedFrame.Follows
  sent : s.channel.offered = s.handoff.left
  channel : s.channel.Chained EncodedFrame.Follows

variable {s s' : DesktopSource} {e : SourceEvent} {frame : EncodedFrame}

theorem chained_start (platform : Platform) : (start platform).Chained :=
  ⟨nofun, Passage.chained_new _, rfl, Passage.chained_new _⟩

theorem Chained.step (h : s.Chained) (hresumes : s.Resumes e) (hstep : machine.step s e = some s') :
    s'.Chained := by
  obtain ⟨-, hcase⟩ := step_eq_some.1 hstep
  cases e with
  | capture | stop =>
    cases hcase
    exact ⟨h.encoded, h.handoff, h.sent, h.channel⟩
  | refuse =>
    obtain ⟨-, rfl⟩ := hcase
    exact ⟨h.encoded, h.handoff, h.sent, h.channel⟩
  | encode isIdr =>
    obtain ⟨forced, encoder, -, rfl⟩ := hcase
    -- the frame follows the output before it, and is an IDR if that one has been dropped
    refine ⟨fun frame hframe => ?_, h.handoff.offer (fun last hlast => ?_)
      fun hroom hdropping _ => .inl (hresumes hroom hdropping), h.sent, h.channel⟩
    · cases hframe
      rfl
    · exact .inr (h.encoded last hlast)
  | skip =>
    obtain ⟨forced, encoder, -, rfl⟩ := hcase
    exact ⟨h.encoded, h.handoff, h.sent, h.channel⟩
  | send =>
    obtain ⟨frame, handoff, htake, rfl⟩ := hcase
    obtain ⟨hhandoff, hfollows⟩ := h.handoff.take htake
    obtain ⟨waiting, hwaiting, rfl⟩ := Passage.take_eq_some.1 htake
    -- the channel is offered what leaves the hand-off, which is chained
    refine ⟨h.encoded, hhandoff, rfl, h.channel.offer (fun last hlast => ?_)
      fun hroom hdropping _ => .inl (hresumes frame ?_ hroom hdropping)⟩
    · exact hfollows last (h.sent ▸ hlast)
    · rw [hwaiting]
      rfl

/-- The frame the session takes can be decoded after the one it has taken before. -/
theorem Chained.nextFrame (h : s.Chained) (hnext : s.nextFrame = some (frame, s')) :
    s'.Chained ∧ frame ∈ s.channel.waiting.head? ∧
      ∀ last ∈ s.channel.left, last.Follows frame := by
  obtain ⟨channel, htake, rfl⟩ := nextFrame_eq_some.1 hnext
  obtain ⟨hchannel, hfollows⟩ := h.channel.take htake
  obtain ⟨waiting, hwaiting, rfl⟩ := Passage.take_eq_some.1 htake
  exact ⟨⟨h.encoded, h.handoff, h.sent, hchannel⟩, by rw [hwaiting]; rfl, hfollows⟩

end DesktopSource

/-! ## What is sent -/

/-- The stream of an instance starts with an IDR, and every other frame can be decoded after the
    one sent before it. -/
structure Intact (stream : List EncodedFrame) : Prop where
  head : ∀ frame ∈ stream.head?, frame.isIdr = true
  chain : stream.IsChain EncodedFrame.Follows

theorem intact_nil : Intact [] := ⟨nofun, .nil⟩

theorem intact_singleton {frame : EncodedFrame} (h : frame.isIdr = true) : Intact [frame] := by
  refine ⟨fun _ hframe => ?_, .singleton frame⟩
  cases hframe
  exact h

namespace Intact

variable {stream : List EncodedFrame}

/-- A frame that can be decoded after the last one may be sent. -/
theorem concat (h : Intact stream) (hne : stream ≠ []) {frame : EncodedFrame}
    (hfollows : ∀ last ∈ stream.getLast?, last.Follows frame) : Intact (stream ++ [frame]) := by
  refine ⟨?_, List.IsChain.append h.chain (.singleton frame) fun last hlast _ hframe => ?_⟩
  · rw [List.head?_append_of_ne_nil stream hne]
    exact h.head
  · cases hframe
    exact hfollows last hlast

/-- A frame that is no IDR comes right after the one the encoder put out before it. -/
theorem index_succ (h : Intact stream) (sent rest : List EncodedFrame) {a b : EncodedFrame}
    (hstream : stream = sent ++ a :: b :: rest) (hb : b.isIdr = false) : b.index = a.index + 1 := by
  have hchain := h.chain
  rw [hstream, List.isChain_append_cons_cons] at hchain
  rcases hchain.2.1 with hidr | hindex
  · simp [hb] at hidr
  · exact hindex

/-- Between a frame that is not on the stream and a later one that is no IDR, there is an IDR. -/
theorem exists_idr_between (h : Intact stream) {n : ℕ} (hn : ∀ frame ∈ stream, frame.index ≠ n)
    {sent rest : List EncodedFrame} {b : EncodedFrame} (hstream : stream = sent ++ b :: rest)
    (hb : b.isIdr = false) (hlt : n < b.index) :
    ∃ idr ∈ sent, idr.isIdr = true ∧ n < idr.index := by
  induction sent using List.reverseRecOn generalizing b rest with
  | nil =>
    have hidr := h.head b (by rw [hstream]; rfl)
    simp [hb] at hidr
  | append_singleton sent a ih =>
    rw [List.append_assoc] at hstream
    have hsucc : b.index = a.index + 1 := h.index_succ sent rest hstream hb
    have hne : a.index ≠ n := hn a (by simp [hstream])
    have hlt' : n < a.index := by omega
    cases ha : a.isIdr with
    | true => exact ⟨a, by simp, ha, hlt'⟩
    | false =>
      -- the frame before `b` is no IDR either, and still later than the missing one
      obtain ⟨idr, hmem, hidr⟩ := ih hstream ha hlt'
      exact ⟨idr, List.mem_append_left _ hmem, hidr⟩

end Intact

namespace DesktopSession

/-- What has dropped a frame, the hand-off, the channel or the loop, goes on with an IDR. -/
def Resumes (s : DesktopSession) : DesktopEvent → Prop
  | .source e => s.source.Resumes e
  | .desktopFrame _ => ∀ frame ∈ s.source.channel.waiting.head?,
      s.session.permissionSm.isGranted Bit.VIEW → s.source.channel.left ≠ s.stream.getLast? →
      frame.isIdr
  | _ => True

instance (s : DesktopSession) : (e : DesktopEvent) → Decidable (s.Resumes e)
  | .source e => inferInstanceAs (Decidable (s.source.Resumes e))
  | .desktopFrame _ => inferInstanceAs (Decidable (∀ frame ∈ s.source.channel.waiting.head?,
      s.session.permissionSm.isGranted Bit.VIEW → s.source.channel.left ≠ s.stream.getLast? →
      frame.isIdr))
  | .openFirst | .round _ | .giveUp _ _ | .nextIdrFrame _ | .openingTimeout => .isTrue trivial

/-- What is sent is intact, and goes on with what the source has. -/
structure Chained (s : DesktopSession) : Prop where
  source : s.source.Chained
  stream : Intact s.stream
  opening : s.consumer = .streaming ∨ s.stream = []
  streaming : s.consumer = .streaming → s.stream ≠ []

variable {s s' : DesktopSession} {e : DesktopEvent}

theorem chained_start (platform : Platform) (grantedPermissions : PermissionSet)
    (videoChannel : VideoChannel) (opened : List ℕ) :
    (start platform grantedPermissions videoChannel opened).Chained :=
  ⟨DesktopSource.chained_start platform, intact_nil, .inr rfl, nofun⟩

theorem Chained.step (h : s.Chained) (hstep : machine.step s e = some s') (hresumes : s.Resumes e) :
    s'.Chained := by
  have hrequest : s.source.requestIdr.Chained :=
    ⟨h.source.encoded, h.source.handoff, h.source.sent, h.source.channel⟩
  cases stepped hstep with
  | source hsource => exact ⟨h.source.step hresumes hsource, h.stream, h.opening, h.streaming⟩
  | session => exact ⟨h.source, h.stream, h.opening, h.streaming⟩
  | openFirst hconsumer =>
    have hstream : s.stream = [] := h.opening.resolve_left (by rw [hconsumer]; nofun)
    exact ⟨hrequest, h.stream, .inr hstream, nofun⟩
  | frame session hconsumer hnext =>
    obtain ⟨hsource, hhead, hfollows⟩ := h.source.nextFrame hnext
    have hne := h.streaming hconsumer
    split_ifs with hview
    · refine ⟨hsource, h.stream.concat hne fun last hlast => ?_, .inl hconsumer, fun _ => by simp⟩
      -- the last frame taken from the channel is the last one sent, unless the loop dropped it
      by_cases hleft : s.source.channel.left = s.stream.getLast?
      · exact hfollows last (hleft ▸ hlast)
      · exact .inl (hresumes _ hhead hview hleft)
    · exact ⟨hsource, h.stream, h.opening, h.streaming⟩
  -- the next instance has a stream of its own, which is empty so far
  | giveUp => exact ⟨hrequest, intact_nil, .inr rfl, nofun⟩
  | opened session hconsumer hnext hidr =>
    have hsource := (h.source.nextFrame hnext).1
    split_ifs
    · exact ⟨hsource, intact_singleton hidr, .inl rfl, fun _ => List.cons_ne_nil _ _⟩
    · exact ⟨hsource, intact_nil, .inr rfl, nofun⟩
  | skipped session hconsumer hnext =>
    have hstream : s.stream = [] := h.opening.resolve_left (by rw [hconsumer]; nofun)
    exact ⟨(h.source.nextFrame hnext).1, h.stream, .inr hstream, nofun⟩

/-- A session that revokes the permission to see the desktop while there is one frame: the first
    two frames are IDRs, the second one as it has been requested. The last frame is sent after the
    permission has been granted again. -/
def revokingView (lastIsIdr : Bool) : List DesktopEvent :=
  [.source .capture, .source (.encode true), .source .send, .openFirst, .nextIdrFrame .ok,
    .source .capture, .source (.encode true), .source .send, .desktopFrame (.ok ()),
    .source .capture, .source (.encode false), .source .send,
    .round .frameTick, .round (.command (.togglePermission Bit.VIEW false) (.ok ())),
    .round (.frame (.ok true) (.ok ())), .desktopFrame (.ok ()),
    .source .capture, .source (.encode lastIsIdr), .source .send,
    .round .frameTick, .round (.command (.togglePermission Bit.VIEW true) (.ok ())),
    .round (.frame (.ok true) (.ok ())), .desktopFrame (.ok ())]

/-- It drops the frame with the index 2, and sends the next one right after the IDR before. -/
theorem frame_sent_after_revoked_view :
    ∃ s, machine.run (start .windows Bit.VIEW (.new 0) [0]) (revokingView false) = some s ∧
      s.stream = [⟨0, true, false⟩, ⟨1, true, true⟩, ⟨3, false, false⟩] ∧ ¬ Intact s.stream := by
  have hall : (machine.run (start .windows Bit.VIEW (.new 0) [0]) (revokingView false)).map
      (fun s => s.stream) = some [⟨0, true, false⟩, ⟨1, true, true⟩, ⟨3, false, false⟩] := by
    decide
  obtain ⟨s, hrun, hstream⟩ := Option.map_eq_some_iff.1 hall
  refine ⟨s, hrun, hstream, fun h => ?_⟩
  have hsucc : (3 : ℕ) = 1 + 1 := h.index_succ [⟨0, true, false⟩] [] hstream rfl
  omega

/-- If whatever has dropped a frame goes on with an IDR, then every frame of a stream that is no
    IDR comes right after the one the encoder put out before it, and between a frame that has been
    dropped and a later one that is no IDR, there is an IDR. -/
theorem intact_of_resumes (platform : Platform) (grantedPermissions : PermissionSet)
    (videoChannel : VideoChannel) (opened : List ℕ) (es : List DesktopEvent)
    (hresumes : machine.Always (fun s e _ => s.Resumes e)
      (start platform grantedPermissions videoChannel opened) es)
    (hrun : machine.run (start platform grantedPermissions videoChannel opened) es = some s) :
    Intact s.stream ∧ ∀ n, (∀ frame ∈ s.stream, frame.index ≠ n) →
      ∀ sent b rest, s.stream = sent ++ b :: rest → b.isIdr = false → n < b.index →
        ∃ idr ∈ sent, idr.isIdr = true ∧ n < idr.index := by
  have hchained : s.Chained :=
    hresumes.run_invariant (fun _ _ _ h hstep he => h.step hstep he)
      (chained_start platform grantedPermissions videoChannel opened) hrun
  exact ⟨hchained.stream, fun n hn sent b rest hstream hb hlt =>
    hchained.stream.exists_idr_between hn hstream hb hlt⟩

/-- If that frame is an IDR, everything sent can be decoded. -/
theorem intact_of_resumes_idr :
    ∃ s, machine.run (start .windows Bit.VIEW (.new 0) [0]) (revokingView true) = some s ∧
      s.stream = [⟨0, true, false⟩, ⟨1, true, true⟩, ⟨3, true, false⟩] ∧ Intact s.stream := by
  have hall : (machine.run (start .windows Bit.VIEW (.new 0) [0]) (revokingView true)).map
      (fun s => s.stream) = some [⟨0, true, false⟩, ⟨1, true, true⟩, ⟨3, true, false⟩] := by
    decide
  obtain ⟨s, hrun, hstream⟩ := Option.map_eq_some_iff.1 hall
  exact ⟨s, hrun, hstream, (intact_of_resumes _ _ _ _ (revokingView true) (by decide) hrun).1⟩

end DesktopSession

end Sardp
