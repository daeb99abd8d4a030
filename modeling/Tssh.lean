import Tssh.Framework.System
import Tssh.Framework.Threads
import Tssh.Framework.Slice
import Tssh.Framework.Aead
import Tssh.Framework.BigEndian
import Tssh.Framework.Index
import Tssh.Framework.Pattern
import Tssh.Rekey.Crypto
import Tssh.Rekey.Protocol
import Tssh.Proxy.Auth
import Tssh.Proxy.Server
import Tssh.Proxy.Addresses
import Tssh.Proxy.Renewal
import Tssh.Proxy.Acceptance
import Tssh.Proxy.Races
import Tssh.Output.Cache
import Tssh.Output.Ledger
import Tssh.Output.Forward
import Tssh.Output.Delivery
import Tssh.Output.Newline
import Tssh.Notif.OutputCache
import Tssh.Output.CursorRequests
import Tssh.Framework.Stream
import Tssh.Wire.Bus
import Tssh.Wire.Packets
import Tssh.Proxy.TcpFrames
import Tssh.Sshd.MatchLine
import Tssh.Sshd.Environment
import Tssh.Session.MapContents
import Tssh.Session.Ownership
import Tssh.Session.PendingInput
import Tssh.Session.MarkerBytes
import Tssh.Session.MarkerDelivery
import Tssh.Session.MarkerArrival
import Tssh.Framework.Buffer
import Tssh.X11.Setup
import Tssh.Session.DiscardChunks
import Tssh.Sshd.Conjunction
import Tssh.Forward.AcceptedConns
import Tssh.Ports.Ranges
import Tssh.Forward.UdpSessions
import Tssh.Forward.LocalUdp
import Tssh.Proxy.ClientRenewal
import Tssh.Rekey.Attempts
import Tssh.Forward.UdpChannels
import Tssh.Framework.Ring
import Tssh.Proxy.PacketCache
import Tssh.Checker.Attach
import Tssh.Session.BusInit
import Tssh.Session.ClientAttach
import Tssh.Proxy.WriteTo
import Tssh.Session.ReplaceableStream
import Tssh.Forward.UdpPending
import Tssh.Forward.UdpForwarder
import Tssh.Framework.Split
import Tssh.Notif.TmuxCommands
import Tssh.Notif.TmuxInput
import Tssh.Config.SshTime
import Tssh.Session.MarkerIndex
import Tssh.Framework.Regex
import Tssh.Sshd.Glob
import Tssh.Expect.Pattern
import Tssh.Config.Tokens
import Tssh.Sshd.Forms
import Tssh.Stun.Discover
import Tssh.Forward.Argument
import Tssh.Forward.PacketConn
import Tssh.Forward.PacketOrder
import Tssh.Checker.AliveTime
import Tssh.Checker.KeepAlive
import Tssh.Framework.Place
import Tssh.Ports.Listen
import Tssh.Proxy.Backend
import Tssh.Forward.Relay
import Tssh.Proxy.Wakeups
import Tssh.Session.StreamRegistry
import Tssh.Session.StreamShutdown
import Tssh.Session.Activation
