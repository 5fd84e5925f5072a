import Sardp.Client.StreamDispatch
import Sardp.Server.AcceptArms
import Sardp.Server.Dispatch
import Sardp.Server.Revocation
import Sardp.Server.Uploads
import Sardp.Server.Resumption
import Sardp.Session.Episodes
import Sardp.Video.Refusals
import Sardp.Video.DelayInvariance
import Sardp.Video.HardThreshold
import Sardp.Server.IdrRequests
import Sardp.Server.ReferenceChain
import Sardp.Video.CircuitBreaker
import Sardp.File.Integrity
import Sardp.File.Partition
import Sardp.File.Sending
import Sardp.File.HandleHistory
import Sardp.Input.InputSession
import Sardp.Input.KeyUps
import Sardp.Input.ImeBoundary
import Sardp.Input.WindowInput
import Sardp.Input.Forwarder
import Sardp.Video.WindowDrop
import Sardp.Session.AuthGate
import Sardp.Video.MonitorManager
import Sardp.Video.FrameReader
import Sardp.Audio.FrameReader
import Sardp.Video.InstanceIntro
import Sardp.Session.ChannelBinding
import Sardp.Server.SetupDeadlines
import Sardp.Server.InstanceStreams
import Sardp.Session.UnknownTypes
import Sardp.Video.RollingMinimum
import Sardp.Video.TripEpisodes
import Sardp.Wire.Reparsing
import Sardp.Wire.ReceiveBuffer
import Sardp.Video.Hysteresis
import Sardp.Session.PermissionBits
import Sardp.Session.ClipboardRequests
import Sardp.Server.Shutdown
import Sardp.Video.ParameterSets
import Sardp.File.Overlaps
import Sardp.Client.Feedback
import Sardp.Client.HexFields
import Sardp.Server.UploadPanics
import Sardp.Input.ClickStates
import Sardp.Video.RecoveryBackoff
import Sardp.Video.Timecode
import Sardp.Input.TextPacing
import Sardp.Input.CharReassembly
import Sardp.Input.WinInjection
import Sardp.Video.FrameWorker
import Sardp.Library.Pacing
import Sardp.Video.CapturePacing
import Sardp.Video.MftEncoder
import Sardp.Library.Formats
import Sardp.Library.CborFormats
import Sardp.Session.BodyFormats
import Sardp.Video.InstanceRoundTrip
import Sardp.Server.VideoDelivery
import Sardp.Library.Workers
import Sardp.Input.InjectionThread
import Sardp.Input.InputStream
import Sardp.Input.TypedText
import Sardp.Library.LengthPrefixed
import Sardp.Video.VtEncoder
