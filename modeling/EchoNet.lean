import EchoNet.Net.CloseProtocol
import EchoNet.Net.SendPath
import EchoNet.Net.HalfClose
import EchoNet.Net.TaskOrder
import EchoNet.Net.OutputStream
import EchoNet.Net.InlineSubmit
import EchoNet.Net.Interest
import EchoNet.Protocol.Chunking
import EchoNet.Gateway.Soundness
import EchoNet.Gateway.Replies
import EchoNet.Gateway.Accounting
import EchoNet.Gateway.Settlement
import EchoNet.Gateway.ReservedId
import EchoNet.Gateway.Direction
import EchoNet.Gateway.Convergence
import EchoNet.Gateway.Health
import EchoNet.Gateway.Channels
import EchoNet.Gateway.Identity
import EchoNet.Chat.Membership
import EchoNet.Chat.Ghosts
import EchoNet.Chat.Twins
import EchoNet.Chat.EmptyRooms
import EchoNet.Chat.Resources
import EchoNet.Chat.RedisMirror
import EchoNet.Chat.Counts
import EchoNet.Chat.RoomRows
import EchoNet.Chat.JoinRace
import EchoNet.Chat.FrameSizes
import EchoNet.Server.SessionIsolation
import EchoNet.Server.GracefulStop
import EchoNet.Reactor.EventLoop
import EchoNet.Chat.Dropped
import EchoNet.Chat.Throttling
import EchoNet.Chat.RateBound
import EchoNet.RateLimit.RedisTokenBucket
import EchoNet.DB.MySQLPool
import EchoNet.Net.ByteQueue
import EchoNet.Http.Completion
import EchoNet.Http.Recovery
import EchoNet.Chat.NamedRoom
import EchoNet.RateLimit.Bounds
import EchoNet.Gateway.RoundRobin
import EchoNet.Gateway.Registry
import EchoNet.Client.Encoders
import EchoNet.Client.Framing
import EchoNet.Client.Broadcast
import EchoNet.Logger.AsyncLogger
import EchoNet.Reactor.Wakeup
import EchoNet.ThreadPool.Progress
import EchoNet.Gateway.Discovery
import EchoNet.DB.RedisPool
import EchoNet.Chat.Refinement
import EchoNet.Net.BackendLink
import EchoNet.Reactor.IdleScan
import EchoNet.Net.WorkLeft
import EchoNet.Server.StopReturns
import EchoNet.Chat.Answers
import EchoNet.Client.Window
import EchoNet.Client.RoomAgreement
