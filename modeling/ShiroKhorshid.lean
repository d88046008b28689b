import ShiroKhorshid.Vpn.MaximalRoutes
import ShiroKhorshid.Vpn.PrivateAddress
import ShiroKhorshid.Service.FallbackCoverage
import ShiroKhorshid.Service.Lifecycle
import ShiroKhorshid.Service.LanProxy
import ShiroKhorshid.Service.Diagnostics
import ShiroKhorshid.Service.Messages
import ShiroKhorshid.Service.UpstreamUrl
import ShiroKhorshid.Settings.Updates
import ShiroKhorshid.Settings.FindBest
import ShiroKhorshid.Settings.Readers
import ShiroKhorshid.Storage.SafeFile
import ShiroKhorshid.Log.Feedback
import ShiroKhorshid.Log.Persistence
import ShiroKhorshid.Log.RedactedAlike
import ShiroKhorshid.Traffic.Lifetime
import ShiroKhorshid.Bypass.Comments
import ShiroKhorshid.Bypass.SecureDns
import ShiroKhorshid.Cdn.Counts
import ShiroKhorshid.Conduit.Statistics
import ShiroKhorshid.Apps.Selection
import ShiroKhorshid.Apps.RealVersion
import ShiroKhorshid.Upgrade.Containment
import ShiroKhorshid.Embedded.Secrets
import ShiroKhorshid.Lib.Bytes
import ShiroKhorshid.Lib.Fifo
import ShiroKhorshid.Lib.Framing
import ShiroKhorshid.Lib.OnesComplement
import ShiroKhorshid.Tun.ChunkBuffer2
import ShiroKhorshid.Tun.ChunkQueue
import ShiroKhorshid.Tun.Datagram
import ShiroKhorshid.Tun.DatagramChecks
import ShiroKhorshid.Tun.FairQueue
import ShiroKhorshid.Tun.Fairness
import ShiroKhorshid.Tun.PacketBuffer
import ShiroKhorshid.Tun.PacketProto
import ShiroKhorshid.Tun.PacketStream
import ShiroKhorshid.Tun.TcpClient
import ShiroKhorshid.Tun.TcpEffect
import ShiroKhorshid.Tun.TcpInvariant
import ShiroKhorshid.Tun.TcpRelay
import ShiroKhorshid.Tun.UdpGateway
import ShiroKhorshid.Tun.UdpGwEffect
import ShiroKhorshid.Tun.UdpGwRuns
