import PacketForge.Apps.Answering
import PacketForge.Apps.Cleanup
import PacketForge.Apps.ClientMain
import PacketForge.Apps.Conversation
import PacketForge.Apps.RemoteClose
import PacketForge.Apps.ServerMain
import PacketForge.Client.Client
import PacketForge.Common.Buffer
import PacketForge.Common.Endian
import PacketForge.Common.Error
import PacketForge.Common.Platform
import PacketForge.Config.Composition
import PacketForge.Config.Config
import PacketForge.Config.ConfigLoader
import PacketForge.Config.Meaning
import PacketForge.Config.RoundTrip
import PacketForge.Config.Values
import PacketForge.Lib.Bytes
import PacketForge.Lib.Conservation
import PacketForge.Lib.Fifo
import PacketForge.Lib.Framing
import PacketForge.Lib.Interaction
import PacketForge.Lib.Machine
import PacketForge.Lib.Parallel
import PacketForge.Lib.Replace
import PacketForge.Lib.Text
import PacketForge.Network.Descriptors
import PacketForge.Network.Loopback
import PacketForge.Network.Posix
import PacketForge.Network.Socket
import PacketForge.Network.Transport
import PacketForge.Network.Usage
import PacketForge.Objects.Conservation
import PacketForge.Objects.Heap
import PacketForge.Objects.Lifecycle
import PacketForge.Objects.Links
import PacketForge.Objects.Ownership
import PacketForge.Objects.Staleness
import PacketForge.Protocol.Codec
import PacketForge.Protocol.CodecLemmas
import PacketForge.Protocol.Delivery
import PacketForge.Protocol.Escapes
import PacketForge.Protocol.Exchange
import PacketForge.Protocol.OpcodeDispatcher
import PacketForge.Protocol.Packet
import PacketForge.Protocol.PacketIo
import PacketForge.Protocol.Peers
import PacketForge.Protocol.Reading
import PacketForge.Protocol.Stream
import PacketForge.Server.Server
import PacketForge.ThreadPool.AcceptLoop
import PacketForge.ThreadPool.ClientProgram
import PacketForge.ThreadPool.Custody
import PacketForge.ThreadPool.Pool
import PacketForge.ThreadPool.Requests
import PacketForge.ThreadPool.Server
import PacketForge.ThreadPool.Service
import PacketForge.ThreadPool.Sessions
import PacketForge.ThreadPool.Shutdown
import PacketForge.ThreadPool.Tasks
import PacketForge.ThreadPool.Visit
import PacketForge.ThreadPool.Wakeup
