import Fosipcore.Library.BigEndian
import Fosipcore.Library.RtpPacket
import Fosipcore.Library.FlvContainer
import Fosipcore.Video.FlvMuxer
import Fosipcore.Library.Transducer
import Fosipcore.Audio.Aac
import Fosipcore.Audio.Transcode
import Fosipcore.Audio.PcmuPackets
import Fosipcore.Library.Blocks
import Fosipcore.Audio.Packetisation
import Fosipcore.Video.Pipeline
import Fosipcore.Video.Reassembly
import Fosipcore.Video.UnitTypes
import Fosipcore.Video.HeaderShapes
import Fosipcore.Video.MuxerRuns
import Fosipcore.Video.LaggingClients
import Fosipcore.Video.PortWalk
import Fosipcore.Video.Aggregation
import Fosipcore.Library.Machine
import Fosipcore.Video.HttpFlv
import Fosipcore.Library.IpAddr
import Fosipcore.Net
import Fosipcore.Net.Blocked
import Fosipcore.Net.Origins
import Fosipcore.Video.Server
import Fosipcore.Video.Sequential
import Fosipcore.Video.OriginGate
import Fosipcore.Video.Session
import Fosipcore.Proxy.Redact
import Fosipcore.Core.LivePorts
import Fosipcore.Core.PortsReturned
import Fosipcore.Core.Connection
import Fosipcore.Core.Gates
import Fosipcore.Protocol.Messages
import Fosipcore.Proxy.Cgi
import Fosipcore.Proxy.RequestUrls
import Fosipcore.Core.Login
import Fosipcore.Core.RefusedLogin
import Fosipcore.Core.LoginErrors
import Fosipcore.Core.Dials
import Fosipcore.Core.Pinning
import Fosipcore.Library.Fallible
import Fosipcore.Library.Json
import Fosipcore.Library.Utf8
import Fosipcore.Library.BufReader
import Fosipcore.Video.RtspClient
import Fosipcore.Video.Interleaved
import Fosipcore.Video.Responses
import Fosipcore.Video.Resync
import Fosipcore.Video.SdpSections
import Fosipcore.Video.Handshake
import Fosipcore.Video.DigestResponse
import Fosipcore.Video.Freshness
import Fosipcore.Video.Established
import Fosipcore.Video.SequenceHeader
import Fosipcore.Video.SessionHeaders
import Fosipcore.Video.ChallengeParams
import Fosipcore.Video.ChallengeOffsets
import Fosipcore.Library.IpText
import Fosipcore.Library.Authority
import Fosipcore.Video.ControlUrls
import Fosipcore.Library.UrlEncoded
import Fosipcore.Proxy.QueryParams
import Fosipcore.Proxy.MaskedValues
import Fosipcore.Video.HandedOut
import Fosipcore.Core.Dispatch
import Fosipcore.Core.AllOrNothing
import Fosipcore.Video.Endpoints
import Fosipcore.Library.JsonReader
import Fosipcore.Core.Envelopes
import Fosipcore.Video.StapA
import Fosipcore.Video.BufferCap
import Fosipcore.Audio.EncoderErrors
import Fosipcore.Audio.SampleCounts
import Fosipcore.Library.ByteSlice
import Fosipcore.Core.LogExcerpts
import Fosipcore.Video.ChannelPairs
import Fosipcore.Library.Metered
import Fosipcore.Video.ReadBuffers
import Fosipcore.Library.Channels
import Fosipcore.Video.StreamClients
import Fosipcore.Video.PipelineTasks
import Fosipcore.Video.EndToEnd
import Fosipcore.Library.WebSocket
import Fosipcore.Library.JsonMap
import Fosipcore.Core.Inbound
import Fosipcore.Core.MessageLoop
import Fosipcore.ServiceManager
import Fosipcore.Core.Playback
import Fosipcore.Library.Xml
import Fosipcore.Proxy.Settings
import Fosipcore.Proxy.Bodies
import Fosipcore.Core.CameraTexts
import Fosipcore.Core.Sessions
import Fosipcore.Library.Lines
import Fosipcore.Video.Requests
import Fosipcore.Video.Authorization
import Fosipcore.Video.Camera
import Fosipcore.Video.ServedHandshake
import Fosipcore.Video.Attempts
import Fosipcore.Video.Shutdown
