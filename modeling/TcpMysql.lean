import TcpMysql.EventRuns
import TcpMysql.StableList
import TcpMysql.CircularBuffer
import TcpMysql.TimeWheel
import TcpMysql.Buffer
import TcpMysql.TcpConnection
import TcpMysql.TcpConnectionOutput
import TcpMysql.ConnectionTable
import TcpMysql.ConnectionTableInvariant
import TcpMysql.ConnectionEviction
import TcpMysql.ConnectionRecency
import TcpMysql.SqlCache
import TcpMysql.SqlCacheMemo
import TcpMysql.SqlCacheExpiry
import TcpMysql.SqlCacheOwners
import TcpMysql.SelfDelimiting
import TcpMysql.DecimalText
import TcpMysql.MysqlServer
import TcpMysql.MysqlReplies
import TcpMysql.MysqlReplyStream
import TcpMysql.MemoServer
import TcpMysql.TcpMysqlServer
import TcpMysql.ServerRuns
import TcpMysql.ServerAsWritten
import TcpMysql.ServerMemo
import TcpMysql.ServerSegmentation
import TcpMysql.ServerReplies
import TcpMysql.Fallible
import TcpMysql.OrderedSet
import TcpMysql.TimerQueue
import TcpMysql.TimerQueueSets
import TcpMysql.TimerQueueInvariant
import TcpMysql.TimerQueueRuns
import TcpMysql.TimerQueueCancel
import TcpMysql.TimerQueueWakeup
import TcpMysql.EventLoop
import TcpMysql.PollWorld
import TcpMysql.EPollPoller
import TcpMysql.SwapRemove
import TcpMysql.PollPoller
import TcpMysql.PollersAgree
import TcpMysql.ConnectionChannels
import TcpMysql.PolledServer
import TcpMysql.Reactor
import TcpMysql.BigEndian
import TcpMysql.NetBuffer
import TcpMysql.StreamDecoder
import TcpMysql.Adler32
import TcpMysql.ProtobufCodec
import TcpMysql.RpcCalls
import TcpMysql.AsyncLogging
import TcpMysql.Monitor
import TcpMysql.ThreadPool
import TcpMysql.ThreadPoolRuns
