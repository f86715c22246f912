import HttpServer.Lib.Machine
import HttpServer.Lib.Pipe
import HttpServer.Lib.Refinement
import HttpServer.Lib.Bytes
import HttpServer.Lib.LexicalPath
import HttpServer.Lib.Ledger
import HttpServer.Lib.Counting
import HttpServer.Lib.Rolled
import HttpServer.Lib.SqlText
import HttpServer.Lib.FirstWins
import HttpServer.Lib.FileTree
import HttpServer.Lib.Ancestors
import HttpServer.Lib.Draining
import HttpServer.Lib.Programs
import HttpServer.Lib.Triples
import HttpServer.Lib.LazyInstance
import HttpServer.Net.Utill
import HttpServer.Net.LineSplit
import HttpServer.Protocol.Message
import HttpServer.Protocol.Recv
import HttpServer.Protocol.Os
import HttpServer.Protocol.RecvSpec
import HttpServer.Protocol.Respond
import HttpServer.Protocol.Acceptance
import HttpServer.Protocol.RoundTrip
import HttpServer.Protocol.WebRoot
import HttpServer.Protocol.Descriptors
import HttpServer.Protocol.Wire
import HttpServer.Protocol.Framing
import HttpServer.Protocol.SendBody
import HttpServer.Protocol.BodyLength
import HttpServer.Protocol.Spelling
import HttpServer.Protocol.Sizes
import HttpServer.Protocol.Target
import HttpServer.Protocol.ContentType
import HttpServer.Pool.ThreadPool
import HttpServer.Pool.WorkConserving
import HttpServer.Pool.Draining
import HttpServer.Pool.Tasks
import HttpServer.Server.Handler
import HttpServer.Server.Ownership
import HttpServer.Server.Loop
import HttpServer.Server.Conservation
import HttpServer.Server.Ending
import HttpServer.Server.Draining
import HttpServer.Server.Instances
import HttpServer.Logs.Buffer
import HttpServer.Logs.ByteQueue
import HttpServer.Logs.Looper
import HttpServer.Logs.Rounds
import HttpServer.Logs.Delivery
import HttpServer.Logs.Stop
import HttpServer.Logs.Format
import HttpServer.Logs.Drained
import HttpServer.Logs.Bounded
import HttpServer.Logs.Backlog
import HttpServer.Logs.Pattern
import HttpServer.Logs.Sink
import HttpServer.Logs.FileNames
import HttpServer.Logs.RollingFiles
import HttpServer.Logs.Sync
import HttpServer.Logs.Async
import HttpServer.Logs.Registry
import HttpServer.Logs.Directories
import HttpServer.Cgi.Exchange
import HttpServer.Cgi.Inheritance
import HttpServer.Cgi.ForkedChild
import HttpServer.Cgi.ForkLock
import HttpServer.Cgi.Comm
import HttpServer.Cgi.Transmission
import HttpServer.Cgi.MysqlCgi
import HttpServer.Cgi.TestCgi
import HttpServer.Cgi.BodyReader
import HttpServer.Service.Site
import HttpServer.Service.Reply
import HttpServer.Service.Forms
import HttpServer.Service.Calculator
import HttpServer.Service.Registration
import HttpServer.Service.Client
import HttpServer.Service.Handling
import HttpServer.Service.Everyone
import HttpServer.Service.Answered
