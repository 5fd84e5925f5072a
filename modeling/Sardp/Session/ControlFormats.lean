import Sardp.Session.BodyFormats

/-!
# What the client writes on the control and feedback streams

The bodies of the messages that the loop of the server decodes (`messages.rs`): a request for the
time or for a file transfer on the control stream, and the messages of the feedback stream. Each
of them is a format, and reading the bodies as they have been written is a codec
(`ControlCodec.ofFormats`, `FeedbackCodec.ofFormats`).
-/

namespace Sardp

open Cbor

/-! ## Control -/

/-- The name of a case. -/
def FileTransferDirection.name : FileTransferDirection → String
  | upload => "Upload"
  | download => "Download"

/-- The case with a name. -/
def FileTransferDirection.ofName (name : String) : Option FileTransferDirection :=
  [upload, download].find? fun direction => direction.name = name

def FileTransferRequest.encode (request : FileTransferRequest) : List UInt8 :=
  record [("request_id", uint request.requestId), ("direction", text request.direction.name),
    ("virtual_path", text request.virtualPath), ("declared_size", uint request.declaredSize)]

def FileTransferRequest.format : Format UInt8 FileTransferRequest :=
  Format.withWrite (recordFormat 4 <|
    ((field "request_id" uintFormat).pair <|
        (field "direction" (caseFormat FileTransferDirection.name FileTransferDirection.ofName
          fun direction => by cases direction <;> rfl)).pair <|
        (field "virtual_path" textFormat).pair <| field "declared_size" uintFormat).iso
      (fun (requestId, direction, virtualPath, declaredSize) =>
        some ⟨requestId, direction, virtualPath, declaredSize⟩)
      (fun request => (request.requestId, request.direction, request.virtualPath,
        request.declaredSize)) fun _ => rfl)
    encode fun request => by simp [encode, record]

/-- The request for the time, by the time at which it is sent. -/
def timeSyncRequestFormat : Format UInt8 ℕ := recordFormat 1 (field "t1" uintFormat)

/-- Reading the bodies as they have been written. -/
def ControlCodec.ofFormats : ControlCodec where
  timeSyncRequest body := (timeSyncRequestFormat.readWhole body).isSome
  fileTransferRequest := FileTransferRequest.format.readWhole

/-! ## Feedback -/

/-- The name of a case. -/
def KeyframeReason.name : KeyframeReason → String
  | decodeError => "DecodeError"
  | reconnect => "Reconnect"
  | manual => "Manual"

/-- The case with a name. -/
def KeyframeReason.ofName (name : String) : Option KeyframeReason :=
  [decodeError, reconnect, manual].find? fun reason => reason.name = name

def KeyframeRequest.encode (request : KeyframeRequest) : List UInt8 :=
  record [("reason", text request.reason.name)]

def KeyframeRequest.format : Format UInt8 KeyframeRequest :=
  Format.withWrite (recordFormat 1 <|
    (field "reason" (caseFormat KeyframeReason.name KeyframeReason.ofName
        fun reason => by cases reason <;> rfl)).iso
      (fun reason => some ⟨reason⟩) KeyframeRequest.reason fun _ => rfl)
    encode fun request => by simp [encode, record]

namespace Wire

def TransportFeedback.encode (feedback : TransportFeedback) : List UInt8 :=
  record [("last_received_frame_id", uint feedback.lastReceivedFrameId),
    ("last_decoded_frame_id", uint feedback.lastDecodedFrameId),
    ("last_displayed_frame_id", uint feedback.lastDisplayedFrameId),
    ("frames_received", uint feedback.framesReceived),
    ("frames_dropped", uint feedback.framesDropped),
    ("receive_bitrate_bps", uint feedback.receiveBitrateBps),
    ("decode_delay_us", uint feedback.decodeDelayUs),
    ("display_delay_us", uint feedback.displayDelayUs),
    ("target_latency_us", uint feedback.targetLatencyUs),
    ("client_queue_delay_us", uint feedback.clientQueueDelayUs)]

def TransportFeedback.format : Format UInt8 TransportFeedback :=
  Format.withWrite (recordFormat 10 <|
    ((field "last_received_frame_id" uintFormat).pair <|
        (field "last_decoded_frame_id" uintFormat).pair <|
        (field "last_displayed_frame_id" uintFormat).pair <|
        (field "frames_received" uintFormat).pair <| (field "frames_dropped" uintFormat).pair <|
        (field "receive_bitrate_bps" uintFormat).pair <|
        (field "decode_delay_us" uintFormat).pair <| (field "display_delay_us" uintFormat).pair <|
        (field "target_latency_us" uintFormat).pair <|
        field "client_queue_delay_us" uintFormat).iso
      (fun (lastReceivedFrameId, lastDecodedFrameId, lastDisplayedFrameId, framesReceived,
          framesDropped, receiveBitrateBps, decodeDelayUs, displayDelayUs, targetLatencyUs,
          clientQueueDelayUs) =>
        some ⟨lastReceivedFrameId, lastDecodedFrameId, lastDisplayedFrameId, framesReceived,
          framesDropped, receiveBitrateBps, decodeDelayUs, displayDelayUs, targetLatencyUs,
          clientQueueDelayUs⟩)
      (fun feedback => (feedback.lastReceivedFrameId, feedback.lastDecodedFrameId,
        feedback.lastDisplayedFrameId, feedback.framesReceived, feedback.framesDropped,
        feedback.receiveBitrateBps, feedback.decodeDelayUs, feedback.displayDelayUs,
        feedback.targetLatencyUs, feedback.clientQueueDelayUs)) fun _ => rfl)
    encode fun feedback => by simp [encode, record]

def AudioSyncFeedback.encode (feedback : AudioSyncFeedback) : List UInt8 :=
  record [("audio_played_ts", uint feedback.audioPlayedTs),
    ("video_displayed_ts", uint feedback.videoDisplayedTs), ("drift_ppm", int feedback.driftPpm)]

def AudioSyncFeedback.format : Format UInt8 AudioSyncFeedback :=
  Format.withWrite (recordFormat 3 <|
    ((field "audio_played_ts" uintFormat).pair <| (field "video_displayed_ts" uintFormat).pair <|
        field "drift_ppm" intFormat).iso
      (fun (audioPlayedTs, videoDisplayedTs, driftPpm) =>
        some ⟨audioPlayedTs, videoDisplayedTs, driftPpm⟩)
      (fun feedback => (feedback.audioPlayedTs, feedback.videoDisplayedTs, feedback.driftPpm))
      fun _ => rfl)
    encode fun feedback => by simp [encode, record]

end Wire

/-- Reading the bodies as they have been written. -/
def FeedbackCodec.ofFormats : FeedbackCodec where
  transport := Wire.TransportFeedback.format.readWhole
  audioSync := Wire.AudioSyncFeedback.format.readWhole
  keyframe := KeyframeRequest.format.readWhole

end Sardp
