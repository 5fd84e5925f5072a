import Sardp.Server.Session

/-!
# What a round changes

Most rounds of the loop change neither the permissions of a session nor its video
(`Session.quiet_handle`). The permissions only change by a toggle of the administrator
(`Session.permissions_handle_toggle`), the video only when a message on the feedback
stream makes the loop give up an instance for the next one (`Session.reopening`,
`Session.video_handle_reopening`). However a round ends the loop, the error is one that
the server recognises if the transport is at fault (`ConnError.FromLoop`).
-/

namespace Sardp

/-- An error the loop can end with: none of the handshake, and of the clock synchronisation
    only that a request does not decode. -/
def ConnError.FromLoop : ConnError → Prop
  | .handshake _ => False
  | .timeSync e => e = .decode
  | _ => True

/-- The errors of the transport that end the loop are recognised. -/
theorem ConnError.FromLoop.isTransportDisconnect_iff {e : ConnError} (h : e.FromLoop) :
    isTransportDisconnect e ↔ e.IsTransport := by
  rw [Sardp.isTransportDisconnect_iff]
  refine ⟨And.left, fun htransport => ⟨htransport, ?_, ?_⟩⟩
  · rintro _ rfl
    exact h
  · rintro e' rfl
    cases e' <;> cases h
    exact htransport

/-- The toggle an event is, if it is one: the permissions, and whether they are granted. -/
def LoopEvent.toggle : LoopEvent → Option (PermissionSet × Bool)
  | .command (.togglePermission bit grant) _ => some (bit, grant)
  | _ => none

theorem LoopEvent.toggle_eq_some {e : LoopEvent} {bit : PermissionSet} {grant : Bool} :
    e.toggle = some (bit, grant) ↔ ∃ written, e = .command (.togglePermission bit grant) written := by
  cases e with
  | command command written => cases command <;> simp [toggle]
  | _ => simp [toggle]

/-- The update of the permissions a message is, if it is one. -/
def ControlOut.update : ControlOut → Option PermissionUpdate
  | .permissionUpdate update => some update
  | _ => none

namespace Session

/-- The updates of the permissions sent to the client, in order. -/
def updates (s : Session) : List PermissionUpdate := s.sent.filterMap ControlOut.update

/-- The permissions in effect, as the client has last been told. -/
def effective (s : Session) : PermissionSet :=
  (s.updates.getLast?.map PermissionUpdate.grantedPermissions).getD s.grantedPermissions

/-- What of a session the toggles change. -/
def permissions (s : Session) : PermissionSet × PermissionSm × List PermissionUpdate :=
  (s.grantedPermissions, s.permissionSm, s.updates)

/-- What of a session a reopening changes. -/
def video (s : Session) : ℕ × List ℕ := (s.videoChannel.generation, s.opened)

/-- What becomes of opening the next instance, in a round that gives up the current one. -/
def reopening (s : Session) : LoopEvent → Option OpenOutcome
  | .feedback nowUs (.ok (.keyframe request)) opening =>
    if (s.videoChannel.onKeyframeRequest nowUs request).1 = .reopen then some opening else none
  | .feedback nowUs (.ok (.transport clientQueueDelayUs)) opening =>
    if (s.videoChannel.onFeedback nowUs clientQueueDelayUs 0).1 matches .ok .resetStream then
      some opening
    else none
  | _ => none

/-- The loop is running, or has ended in one of its own ways. -/
def EndsFromLoop (s : Session) : Prop := ∀ err, s.result = some (.error err) → err.FromLoop

/-- From one session to the other neither the permissions nor the video change. -/
structure Quiet (s s' : Session) : Prop where
  permissions : s'.permissions = s.permissions
  video : s'.video = s.video
  ends : s.EndsFromLoop → s'.EndsFromLoop

variable {s s' : Session}

theorem Quiet.refl (s : Session) : Quiet s s := ⟨rfl, rfl, id⟩

theorem Quiet.trans {s'' : Session} (h : Quiet s s') (h' : Quiet s' s'') : Quiet s s'' :=
  ⟨h'.permissions.trans h.permissions, h'.video.trans h.video, h'.ends ∘ h.ends⟩

theorem endsFromLoop_finish {err : ConnError} (herr : err.FromLoop) :
    (s.finish (.error err)).EndsFromLoop := by
  rintro _ ⟨⟩
  exact herr

theorem quiet_finish {result : Except ConnError Unit}
    (herr : ∀ err, result = .error err → err.FromLoop) : Quiet s (s.finish result) where
  permissions := rfl
  video := rfl
  ends _ err h := herr err (Option.some.inj h)

theorem quiet_finish_error {err : ConnError} (herr : err.FromLoop) :
    Quiet s (s.finish (.error err)) :=
  quiet_finish (by rintro _ ⟨⟩; exact herr)

/-- A message other than an update tells the client nothing of the permissions. -/
theorem quiet_writeControl (message : ControlOut) (written : Written)
    (h : message.update = none) : Quiet s (s.writeControl message written) := by
  have hupdates : { s with sent := s.sent ++ [message] }.updates = s.updates := by
    simp [updates, h]
  have hpermissions :
      (s.grantedPermissions, s.permissionSm, { s with sent := s.sent ++ [message] }.updates) =
        s.permissions := by
    rw [hupdates, permissions]
  cases written with
  | ok _ => exact ⟨hpermissions, rfl, id⟩
  | error e => exact ⟨hpermissions, rfl, fun _ => endsFromLoop_finish trivial⟩

theorem quiet_sendFrame (written : Written) : Quiet s (s.sendFrame written) := by
  cases written with
  | ok _ => exact ⟨rfl, rfl, id⟩
  | error e => exact quiet_finish_error trivial

theorem quiet_handleFileTransferRequest (request : FileTransferRequest)
    (issued : Option (ℕ × ℕ)) (written : Written) :
    Quiet s (s.handleFileTransferRequest request issued written).1 := by
  simp only [handleFileTransferRequest]
  split
  · exact quiet_writeControl _ written rfl
  · split <;> exact quiet_writeControl _ written rfl

theorem quiet_handleControl (message : Except StreamReadError ControlMessage)
    (written : Written) : Quiet s (s.handleControl message written).1 := by
  simp only [handleControl]
  split
  · exact quiet_finish_error trivial
  · exact quiet_finish_error rfl
  · exact quiet_writeControl _ written rfl
  · exact quiet_finish nofun
  · exact quiet_finish_error trivial
  · exact quiet_handleFileTransferRequest ..
  · exact .refl s

theorem FrameError.fromLoop (e : FrameError) : e.toConnError.FromLoop := by
  cases e <;> trivial

theorem quiet_handleFrame (frame : Except FrameError Bool) (written : Written) :
    Quiet s (s.handleFrame frame written) := by
  simp only [handleFrame]
  split_ifs
  · exact .refl s
  · exact .refl s
  · split
    · exact quiet_finish_error (FrameError.fromLoop _)
    · exact .refl s
    · exact quiet_sendFrame written

theorem quiet_handleDesktopFrame (frame : Except FrameError Bool) (written : Written) :
    Quiet s (s.handleDesktopFrame frame written) := by
  simp only [handleDesktopFrame]
  split
  · exact quiet_finish_error (FrameError.fromLoop _)
  · exact quiet_finish_error trivial
  · split_ifs
    · exact .refl s
    · exact quiet_sendFrame written

theorem quiet_handleAudioTick (opening : Except AudioError Unit) (written : Written) :
    Quiet s (s.handleAudioTick opening written) := by
  simp only [handleAudioTick]
  by_cases hgranted : s.permissionSm.isGranted Bit.AUDIO_PLAYBACK
  · rw [if_pos hgranted]
    split
    · exact quiet_finish_error trivial
    · cases written with
      | ok _ => exact ⟨rfl, rfl, id⟩
      | error e => exact ⟨rfl, rfl, fun _ => endsFromLoop_finish trivial⟩
  · rw [if_neg hgranted]
    exact .refl s

theorem quiet_handleIncomingUni (accepted : Except AcceptUniError StreamKind)
    (config : Except AudioError Unit) : Quiet s (s.handleIncomingUni accepted config).1 := by
  simp only [handleIncomingUni]
  split
  · next e => cases e <;> exact quiet_finish_error trivial
  · split_ifs
    · cases config with
      | ok _ => exact .refl s
      | error e => exact quiet_finish_error trivial
    · exact .refl s
  · exact ⟨rfl, rfl, id⟩
  · exact .refl s

theorem quiet_handleInput (handled : Option (Except ReasonCode Unit)) :
    Quiet s (s.handleInput handled) := by
  simp only [handleInput]
  split
  · exact .refl s
  · exact quiet_finish_error trivial
  · exact ⟨rfl, rfl, id⟩

theorem quiet_handleClipboardFormats (accepted : Except ClipboardSessionError ClipboardFormats) :
    Quiet s (s.handleClipboardFormats accepted).1 := by
  simp only [handleClipboardFormats]
  split
  · exact quiet_finish_error trivial
  · split_ifs <;> exact .refl s

/-! ## Reopening -/

/-- Reopening moves the video one generation on, opens its stream or not, and ends the loop
    exactly if that fails. -/
theorem reopenVideoGeneration_spec (opening : OpenOutcome) :
    let s' := s.reopenVideoGeneration opening
    let next := s.videoChannel.generation + 1
    s'.permissions = s.permissions ∧
      s'.video = (next, if opening.streamOpened then s.opened ++ [next] else s.opened) ∧
      s'.result = match opening.result ReasonCode.PROTOCOL_VIDEO_CONFIGURING_TIMEOUT with
        | .error err => some (.error err)
        | .ok () => s.result := by
  obtain ⟨c, hc⟩ := VideoChannel.markInstanceStreaming_of_new
    (c := s.videoChannel.prepareReopen) rfl
  have hgeneration := VideoChannel.generation_markInstanceStreaming hc
  dsimp only
  rw [reopenVideoGeneration]
  dsimp only
  cases opening.result ReasonCode.PROTOCOL_VIDEO_CONFIGURING_TIMEOUT with
  | error err => exact ⟨rfl, rfl, rfl⟩
  | ok _ =>
    simp only [hc]
    refine ⟨rfl, ?_, trivial⟩
    rw [video, hgeneration]
    rfl

theorem OpenOutcome.fromLoop {opening : OpenOutcome} {timeout : ReasonCode} {err : ConnError}
    (h : opening.result timeout = .error err) : err.FromLoop := by
  cases opening <;> cases h
  case noFrame e => exact FrameError.fromLoop e
  all_goals trivial

theorem endsFromLoop_reopenVideoGeneration (opening : OpenOutcome) (hs : s.EndsFromLoop) :
    (s.reopenVideoGeneration opening).EndsFromLoop := by
  intro err herr
  rw [(reopenVideoGeneration_spec opening).2.2] at herr
  split at herr
  · next h =>
    cases herr
    exact OpenOutcome.fromLoop h
  · exact hs err herr

/-- A message on the feedback stream reopens the video, or leaves it alone. -/
theorem handleFeedback_cases (nowUs : ℕ) (message : Except ReadFeedbackError FeedbackMessage)
    (opening : OpenOutcome) :
    (s.reopening (.feedback nowUs message opening) = none ∧
        Quiet s (s.handleFeedback nowUs message opening)) ∨
      (s.reopening (.feedback nowUs message opening) = some opening ∧
        ∃ s₁, Quiet s s₁ ∧ s₁.result = s.result ∧
          s.handleFeedback nowUs message opening = s₁.reopenVideoGeneration opening) := by
  have hquiet (c : VideoChannel) (hc : c.generation = s.videoChannel.generation) :
      Quiet s { s with videoChannel := c } := ⟨rfl, by rw [video, hc]; rfl, id⟩
  simp only [handleFeedback]
  split
  · exact .inl ⟨rfl, quiet_finish_error trivial⟩
  · next request =>
    have hc : (s.videoChannel.onKeyframeRequest nowUs request).2.generation = _ :=
      VideoChannel.generation_onKeyframeRequest
    split
    · next c hreopen =>
      rw [hreopen] at hc
      exact .inr ⟨by simp [reopening, hreopen], _, hquiet c hc, rfl, rfl⟩
    · next c hignored =>
      rw [hignored] at hc
      exact .inl ⟨by simp [reopening, hignored], hquiet c hc⟩
  · exact .inl ⟨rfl, .refl s⟩
  · next delay =>
    -- of the decisions about a report only the reset of the decoder reopens the video
    have hc : (s.videoChannel.onFeedback nowUs delay 0).2.generation = _ :=
      VideoChannel.generation_onFeedback
    split
    · next v c hrefused =>
      rw [hrefused] at hc
      refine .inl ⟨by simp [reopening, hrefused], rfl, (hquiet c hc).video, fun _ => ?_⟩
      exact endsFromLoop_finish trivial
    · next c hreset =>
      rw [hreset] at hc
      exact .inr ⟨by simp [reopening, hreset], _, hquiet c hc, rfl, rfl⟩
    · next decision c hreset hdecision =>
      rw [hdecision] at hc
      refine .inl ⟨?_, hquiet c hc⟩
      cases decision <;> simp [reopening, hdecision] at hreset ⊢

/-- A round that reopens the video does so after what leaves it alone, and does nothing else. -/
theorem handle_eq_reopen {e : LoopEvent} {opening : OpenOutcome}
    (h : s.reopening e = some opening) :
    ∃ s₁, Quiet s s₁ ∧ s₁.result = s.result ∧
      (s.handle e).1 = s₁.reopenVideoGeneration opening := by
  obtain ⟨nowUs, message, opening', rfl⟩ :
      ∃ nowUs message opening', e = .feedback nowUs message opening' := by
    cases e <;> first | exact ⟨_, _, _, rfl⟩ | cases h
  obtain ⟨hnone, -⟩ | ⟨hsome, hreopens⟩ := handleFeedback_cases (s := s) nowUs message opening'
  · cases hnone.symm.trans h
  · obtain rfl : opening' = opening := Option.some.inj (hsome.symm.trans h)
    exact hreopens

/-! ## Rounds -/

/-- A round without a toggle or a reopening changes neither the permissions nor the video. -/
theorem quiet_handle {e : LoopEvent} (htoggle : e.toggle = none)
    (hreopening : s.reopening e = none) : Quiet s (s.handle e).1 := by
  cases e with
  | shutdown =>
    exact (quiet_writeControl .sessionClose (.ok ()) rfl).trans (quiet_finish nofun)
  | idleTimeout => exact quiet_finish_error trivial
  | control message written => exact quiet_handleControl message written
  | keepalive written => exact quiet_writeControl _ written rfl
  | frameTick => exact ⟨rfl, rfl, id⟩
  | command command written =>
    cases command with
    | togglePermission => cases htoggle
    | sendClipboard =>
      simp only [handle, handleCommand]
      split <;> exact .refl s
  | frame frame written =>
    -- leaving the wait for the frame is not seen by any of the three
    have hdrained : Quiet s { s with phase := .selecting } := ⟨rfl, rfl, id⟩
    exact hdrained.trans (quiet_handleFrame frame written)
  | desktopFrame frame written => exact quiet_handleDesktopFrame frame written
  | feedback nowUs message opening =>
    rcases handleFeedback_cases (s := s) nowUs message opening with ⟨-, h⟩ | ⟨h, -⟩
    · exact h
    · rw [hreopening] at h
      cases h
  | audioTick opening written => exact quiet_handleAudioTick opening written
  | incomingUni accepted config => exact quiet_handleIncomingUni accepted config
  | input handled => exact quiet_handleInput handled
  | clipboardFormats accepted => exact quiet_handleClipboardFormats accepted

/-- A toggle sends the update built from the permissions of the start, and applies it. -/
theorem permissions_handle_toggle (bit : PermissionSet) (grant : Bool) (written : Written) :
    let update := buildPermissionToggle s.grantedPermissions bit grant
    (s.handle (.command (.togglePermission bit grant) written)).1.permissions =
      (s.grantedPermissions, s.permissionSm.applyUpdate update, s.updates ++ [update]) := by
  intro update
  have hupdates : { s with sent := s.sent ++ [ControlOut.permissionUpdate update] }.updates =
      s.updates ++ [update] := by
    simp [updates, ControlOut.update]
  cases written <;>
    exact congrArg (fun u => (s.grantedPermissions, s.permissionSm.applyUpdate update, u)) hupdates

/-- Only a toggle changes the permissions. -/
theorem permissions_handle {e : LoopEvent} (htoggle : e.toggle = none) :
    (s.handle e).1.permissions = s.permissions := by
  cases hreopening : s.reopening e with
  | none => exact (quiet_handle htoggle hreopening).permissions
  | some opening =>
    obtain ⟨s₁, hs₁, -, heq⟩ := handle_eq_reopen hreopening
    rw [heq, (reopenVideoGeneration_spec opening).1, hs₁.permissions]

/-- A round without a reopening leaves the video alone. -/
theorem video_handle {e : LoopEvent} (hreopening : s.reopening e = none) :
    (s.handle e).1.video = s.video := by
  cases htoggle : e.toggle with
  | none => exact (quiet_handle htoggle hreopening).video
  | some toggle =>
    obtain ⟨written, rfl⟩ := LoopEvent.toggle_eq_some.1 htoggle
    cases written <;> rfl

/-- A round that reopens the video moves it one generation on, opens its stream or not, and
    ends the loop exactly if that fails. -/
theorem video_handle_reopening {e : LoopEvent} {opening : OpenOutcome}
    (hreopening : s.reopening e = some opening) :
    let next := s.videoChannel.generation + 1
    (s.handle e).1.video =
        (next, if opening.streamOpened then s.opened ++ [next] else s.opened) ∧
      (s.handle e).1.result =
        match opening.result ReasonCode.PROTOCOL_VIDEO_CONFIGURING_TIMEOUT with
        | .error err => some (.error err)
        | .ok () => s.result := by
  obtain ⟨s₁, hs₁, hresult, heq⟩ := handle_eq_reopen hreopening
  have hspec := (reopenVideoGeneration_spec (s := s₁) opening).2
  obtain ⟨hgeneration, hopened⟩ := Prod.mk.inj hs₁.video
  rw [hgeneration, hopened, hresult] at hspec
  rw [heq]
  exact hspec

/-- A running loop only ends in one of its own ways. -/
theorem endsFromLoop_handle (e : LoopEvent) (hs : s.EndsFromLoop) :
    (s.handle e).1.EndsFromLoop := by
  cases hreopening : s.reopening e with
  | none =>
    cases htoggle : e.toggle with
    | none => exact (quiet_handle htoggle hreopening).ends hs
    | some toggle =>
      obtain ⟨written, rfl⟩ := LoopEvent.toggle_eq_some.1 htoggle
      -- a toggle that is written goes on, one that is not ends the loop as any write does
      cases written with
      | ok _ => exact hs
      | error e => exact endsFromLoop_finish trivial
  | some opening =>
    obtain ⟨s₁, hs₁, -, heq⟩ := handle_eq_reopen hreopening
    rw [heq]
    exact endsFromLoop_reopenVideoGeneration opening (hs₁.ends hs)

/-! ## What is sent -/

theorem sent_prefix_writeControl (message : ControlOut) (written : Written) :
    s.sent <+: (s.writeControl message written).sent := by
  cases written <;> exact List.prefix_append _ _

theorem sent_sendFrame (written : Written) : (s.sendFrame written).sent = s.sent := by
  cases written <;> rfl

theorem sent_reopenVideoGeneration (opening : OpenOutcome) :
    (s.reopenVideoGeneration opening).sent = s.sent := by
  simp only [reopenVideoGeneration]
  split
  · rfl
  · split <;> rfl

theorem sent_prefix_handleControl (message : Except StreamReadError ControlMessage)
    (written : Written) : s.sent <+: (s.handleControl message written).1.sent := by
  simp only [handleControl]
  split
  case h_3 => exact sent_prefix_writeControl _ written
  case h_6 =>
    simp only [handleFileTransferRequest]
    split
    · exact sent_prefix_writeControl _ written
    · split <;> exact sent_prefix_writeControl _ written
  all_goals exact List.prefix_rfl

theorem sent_prefix_handleCommand (command : AdminCommand) (written : Written) :
    s.sent <+: (s.handleCommand command written).1.sent := by
  cases command with
  | togglePermission => cases written <;> exact List.prefix_append _ _
  | sendClipboard =>
    simp only [handleCommand]
    split <;> exact List.prefix_rfl

theorem sent_handleFrame (frame : Except FrameError Bool) (written : Written) :
    (s.handleFrame frame written).sent = s.sent := by
  simp only [handleFrame]
  split_ifs
  · rfl
  · rfl
  · split
    · rfl
    · rfl
    · exact sent_sendFrame written

theorem sent_handleDesktopFrame (frame : Except FrameError Bool) (written : Written) :
    (s.handleDesktopFrame frame written).sent = s.sent := by
  simp only [handleDesktopFrame]
  split
  · rfl
  · rfl
  · split_ifs
    · rfl
    · exact sent_sendFrame written

theorem sent_handleFeedback (nowUs : ℕ) (message : Except ReadFeedbackError FeedbackMessage)
    (opening : OpenOutcome) : (s.handleFeedback nowUs message opening).sent = s.sent := by
  simp only [handleFeedback]
  split
  · rfl
  · split
    · exact sent_reopenVideoGeneration opening
    · rfl
  · rfl
  · split
    · rfl
    · exact sent_reopenVideoGeneration opening
    · rfl

theorem sent_handleAudioTick (opening : Except AudioError Unit) (written : Written) :
    (s.handleAudioTick opening written).sent = s.sent := by
  simp only [handleAudioTick]
  by_cases hgranted : s.permissionSm.isGranted Bit.AUDIO_PLAYBACK
  · rw [if_pos hgranted]
    split
    · rfl
    · split <;> rfl
  · rw [if_neg hgranted]

/-- What a round sends comes after what has been sent. -/
theorem sent_prefix_handle (e : LoopEvent) : s.sent <+: (s.handle e).1.sent := by
  cases e with
  | shutdown => exact List.prefix_append _ _
  | control message written => exact sent_prefix_handleControl message written
  | keepalive written => exact sent_prefix_writeControl _ written
  | command command written => exact sent_prefix_handleCommand command written
  | frame frame written =>
    exact (sent_handleFrame (s := { s with phase := .selecting }) frame written).symm ▸
      List.prefix_rfl
  | desktopFrame frame written => exact (sent_handleDesktopFrame frame written).symm ▸ List.prefix_rfl
  | feedback nowUs message opening =>
    exact (sent_handleFeedback nowUs message opening).symm ▸ List.prefix_rfl
  | audioTick opening written => exact (sent_handleAudioTick opening written).symm ▸ List.prefix_rfl
  | incomingUni accepted config =>
    simp only [handle, handleIncomingUni]
    split
    case h_2 =>
      split
      · split <;> exact List.prefix_rfl
      · exact List.prefix_rfl
    all_goals exact List.prefix_rfl
  | input handled =>
    simp only [handle, handleInput]
    split <;> exact List.prefix_rfl
  | clipboardFormats accepted =>
    simp only [handle, handleClipboardFormats]
    split
    · exact List.prefix_rfl
    · split <;> exact List.prefix_rfl
  | idleTimeout | frameTick => exact List.prefix_rfl

end Session

end Sardp
