import AurixVoice.E2ee.KeyRedelivery
import AurixVoice.E2ee.LateArrivals
import AurixVoice.E2ee.LockedOut
import AurixVoice.E2ee.Rotation
import AurixVoice.Cascade.RelayedOnce
import AurixVoice.Web.CounterReuse
import AurixVoice.Web.JoinWindow
import AurixVoice.Web.Interleaving
import AurixVoice.Downlink.OnlyMembers
import AurixVoice.Media.Attribution
import AurixVoice.Media.KeystreamReuse
import AurixVoice.Cascade.AcceptedOnce
import AurixVoice.Cascade.HopLimit
import AurixVoice.Protocol.Framing
import AurixVoice.Turn.Integrity
import AurixVoice.Turn.Tcp
import AurixVoice.Sdk.CodecsAgree
import AurixVoice.Sdk.X25519Agree
import AurixVoice.Mixing.MutedSpeakers
import AurixVoice.Media.ForgedFlags
import AurixVoice.Media.WebRtcTasks
import AurixVoice.Sfu.Indexes
import AurixVoice.Recording.LiveConsent
import AurixVoice.Recording.TrackDecoder
import AurixVoice.Takeover.Exclusive
import AurixVoice.Takeover.ClosedSessions
import AurixVoice.Takeover.ResumeTokens
import AurixVoice.Takeover.Restored
import AurixVoice.Connections.Lifecycle
import AurixVoice.Connections.ParticipantCounts
import AurixVoice.Moderation.ServerMute
import AurixVoice.Auth.Grants
import AurixVoice.Speech.Transcripts
import AurixVoice.E2ee.Settled
import AurixVoice.Protocol.AcceptedNumbers
import AurixVoice.Turn.Bindings
import AurixVoice.Turn.CreatePermission
import AurixVoice.Moderation.AuditLog
import AurixVoice.Net.ClientIp
import AurixVoice.Moderation.NormalizedText
import AurixVoice.Recording.OggFile
import AurixVoice.Cascade.RouteIndex
import AurixVoice.Recording.WrittenOrder
import AurixVoice.Media.UplinkEstimator
import AurixVoice.Metering.UsageMeter
import AurixVoice.Recording.ActiveRecordings
import AurixVoice.Speech.Captions
import AurixVoice.E2ee.Bookkeeping
import AurixVoice.Quality.Accumulator
import AurixVoice.Quality.MosAlert
