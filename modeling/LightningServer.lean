import LightningServer.Foundation.Atomicity
import LightningServer.Foundation.Framing
import LightningServer.Foundation.Guarantee
import LightningServer.Foundation.Interleaving
import LightningServer.Foundation.Json
import LightningServer.Foundation.JsonParser
import LightningServer.Foundation.Lending
import LightningServer.Foundation.Numerals
import LightningServer.Foundation.Paging
import LightningServer.Foundation.Program
import LightningServer.Foundation.Progress
import LightningServer.Foundation.Promise
import LightningServer.Foundation.SqlGrammar
import LightningServer.Foundation.SqlText
import LightningServer.Foundation.Tally
import LightningServer.Foundation.Transition
import LightningServer.Handler.ApiHandler
import LightningServer.Handler.ApiProgress
import LightningServer.Handler.ApiRuns
import LightningServer.Handler.ApiThreads
import LightningServer.Handler.CommentPost
import LightningServer.Handler.OutageReport
import LightningServer.Handler.PostLedger
import LightningServer.Handler.ResponseHeads
import LightningServer.Handler.RouterTotality
import LightningServer.Handler.StatusAgreement
import LightningServer.Handler.TaskOutcomes
import LightningServer.Main.Coupling
import LightningServer.Main.Endurance
import LightningServer.Main.Process
import LightningServer.Main.Shutdown
import LightningServer.Main.Steps
import LightningServer.Main.Stopping
import LightningServer.Main.SyncTimer
import LightningServer.Main.Tasks
import LightningServer.Main.Tracking
import LightningServer.Main.Traffic
import LightningServer.Net.Acceptance
import LightningServer.Net.Backlog
import LightningServer.Net.BlockRequest
import LightningServer.Net.BodyFragmentation
import LightningServer.Net.Buffer
import LightningServer.Net.BufferBound
import LightningServer.Net.Bytes
import LightningServer.Net.Completion
import LightningServer.Net.ContentLength
import LightningServer.Net.Conversation
import LightningServer.Net.HttpMessage
import LightningServer.Net.HttpParser
import LightningServer.Net.HttpParserFraming
import LightningServer.Net.HttpServer
import LightningServer.Net.KeepAlive
import LightningServer.Net.Lifecycle
import LightningServer.Net.MachineBuffer
import LightningServer.Net.Persistence
import LightningServer.Net.Pipelining
import LightningServer.Net.QueryString
import LightningServer.Net.RequestLine
import LightningServer.Net.ResponseStream
import LightningServer.Net.SessionHandlers
import LightningServer.Net.Strand
import LightningServer.Service.ArticleCache
import LightningServer.Service.ArticlePages
import LightningServer.Service.ArticleService
import LightningServer.Service.CommentCache
import LightningServer.Service.CommentCopies
import LightningServer.Service.CommentDuplicates
import LightningServer.Service.CommentFill
import LightningServer.Service.CommentLength
import LightningServer.Service.CommentLimit
import LightningServer.Service.CommentOrder
import LightningServer.Service.CommentPushes
import LightningServer.Service.CommentService
import LightningServer.Service.CommentThreads
import LightningServer.Service.CommentVisibility
import LightningServer.Service.CounterReaders
import LightningServer.Service.DetailRace
import LightningServer.Service.DetailThreads
import LightningServer.Service.Forum
import LightningServer.Service.ForumThreads
import LightningServer.Service.HotRanking
import LightningServer.Service.MockComments
import LightningServer.Service.PageOrder
import LightningServer.Service.Reliance
import LightningServer.Service.ShownViews
import LightningServer.Service.SyncFrame
import LightningServer.Service.ViewSync
import LightningServer.Service.ViewTally
import LightningServer.Service.VisitCount
import LightningServer.Store.Connections
import LightningServer.Store.Database
import LightningServer.Store.Driver
import LightningServer.Store.Holding
import LightningServer.Store.Mock
import LightningServer.Store.MockTransparency
import LightningServer.Store.Outage
import LightningServer.Store.Proxied
import LightningServer.Store.Proxy
import LightningServer.Store.ProxyActions
import LightningServer.Store.Redis
import LightningServer.Store.ServedText
import LightningServer.Store.SqlServer
import LightningServer.Store.StatementText
import LightningServer.Store.World
