import HttpFramework.Library.Loop
import HttpFramework.Library.Fallible
import HttpFramework.Library.Resumable
import HttpFramework.Library.Search
import HttpFramework.Library.Regex
import HttpFramework.Library.Slots
import HttpFramework.Library.Transition
import HttpFramework.Library.FileTree
import HttpFramework.Library.Grid
import HttpFramework.Library.Heap
import HttpFramework.Library.Holders
import HttpFramework.Library.Ledger
import HttpFramework.Library.Rolling
import HttpFramework.Cpp
import HttpFramework.StdRegex
import HttpFramework.Http.Request
import HttpFramework.Http.Context
import HttpFramework.Http.Response
import HttpFramework.Http.Server
import HttpFramework.Http.Middleware
import HttpFramework.Http.Router
import HttpFramework.Http.Session
import HttpFramework.Http.SessionStorage
import HttpFramework.Http.DbConnectionPool
import HttpFramework.Http.DbOperations
import HttpFramework.Http.SslConnection
import HttpFramework.Http.Json
import HttpFramework.Mylog.Buffer
import HttpFramework.Mylog.Worker
import HttpFramework.Mylog.Construction
import HttpFramework.Mylog.ThreadPool
import HttpFramework.Mylog.Backup
import HttpFramework.Mylog.LogFlush
import HttpFramework.Storage.Disk
import HttpFramework.Storage.Util
import HttpFramework.Storage.DataManager
import HttpFramework.Storage.Service
import HttpFramework.Storage.Failures
import HttpFramework.Client.DataManage
import HttpFramework.Client.Storage
import HttpFramework.Code.Timer
import HttpFramework.Code.Buffer
import HttpFramework.Code.SqlConnPool
import HttpFramework.Code.HttpRequest
import HttpFramework.Code.HttpResponse
import HttpFramework.Code.HttpConn
import HttpFramework.Code.UserTable
import HttpFramework.Code.Log
import HttpFramework.Code.BlockDeque
import HttpFramework.Code.EventLoop
import HttpFramework.Gomoku.AiGame
import HttpFramework.Gomoku.MoveRequests
import HttpFramework.Gomoku.MaxOnline
import HttpFramework.Gomoku.Handlers
import HttpFramework.Gomoku.Routes
import HttpFramework.Proofs.ParserLoop
import HttpFramework.Proofs.ParserChunks
import HttpFramework.Proofs.RequestFormat
import HttpFramework.Proofs.RequestLine
import HttpFramework.Proofs.QueryParameters
import HttpFramework.Proofs.BodyLength
import HttpFramework.Proofs.ParserOutcomes
import HttpFramework.Proofs.ConnectionStream
import HttpFramework.Proofs.RequestIsolation
import HttpFramework.Proofs.Pipelining
import HttpFramework.Proofs.ConnectionRuns
import HttpFramework.Proofs.ConnectionFaults
import HttpFramework.Proofs.BufferBounds
import HttpFramework.Proofs.WorkerDelivery
import HttpFramework.Proofs.WorkerCapacity
import HttpFramework.Proofs.WorkerCallback
import HttpFramework.Proofs.PoolTasks
import HttpFramework.Proofs.BackupDelivery
import HttpFramework.Proofs.LogFileNames
import HttpFramework.Proofs.LogFiles
import HttpFramework.Proofs.TableLock
import HttpFramework.Proofs.DiskFiles
import HttpFramework.Proofs.IndexFile
import HttpFramework.Proofs.UploadPath
import HttpFramework.Proofs.Replies
import HttpFramework.Proofs.DownloadEffects
import HttpFramework.Proofs.MissingRecord
import HttpFramework.Proofs.UploadRoundTrip
import HttpFramework.Proofs.PercentEncoding
import HttpFramework.Proofs.ETags
import HttpFramework.Proofs.UploadFailures
import HttpFramework.Proofs.BufferQueue
import HttpFramework.Proofs.ClientUploads
import HttpFramework.Proofs.ClientTable
import HttpFramework.Proofs.ClientNames
import HttpFramework.Proofs.WebRequest
import HttpFramework.Proofs.ResponseSending
import HttpFramework.Proofs.ResponsePath
import HttpFramework.Proofs.UserRegistration
import HttpFramework.Proofs.LogOrder
import HttpFramework.Proofs.LogWrite
import HttpFramework.Proofs.DequeClose
import HttpFramework.Proofs.DequeItems
import HttpFramework.Proofs.PendingFunctions
import HttpFramework.Proofs.PoolOwnership
import HttpFramework.Proofs.DbPool
import HttpFramework.Proofs.DbInit
import HttpFramework.Proofs.DbOverlap
import HttpFramework.Proofs.TimerHeap
import HttpFramework.Proofs.TimerCalls
import HttpFramework.Proofs.TimerTick
import HttpFramework.Proofs.SessionStore
import HttpFramework.Proofs.SessionReturns
import HttpFramework.Proofs.SessionCookie
import HttpFramework.Proofs.PathParameters
import HttpFramework.Proofs.PathPattern
import HttpFramework.Proofs.RoutePriority
import HttpFramework.Proofs.StatusLine
import HttpFramework.Proofs.ResponseFormat
import HttpFramework.Proofs.Preflight
import HttpFramework.Proofs.CorsOrigin
import HttpFramework.Proofs.AfterChain
import HttpFramework.Proofs.SslDelivery
import HttpFramework.Proofs.HandlerEffects
import HttpFramework.Proofs.GomokuRoutes
import HttpFramework.Proofs.LoginState
import HttpFramework.Proofs.OnlineUsers
import HttpFramework.Proofs.GomokuEndings
import HttpFramework.Proofs.GomokuReplies
import HttpFramework.Proofs.PlayerIsolation
import HttpFramework.Proofs.MaxOnline
import HttpFramework.Proofs.GameBoard
import HttpFramework.Proofs.GameWins
import HttpFramework.Proofs.BestMove
import HttpFramework.Proofs.ImmediateWins
import HttpFramework.Proofs.GameTurns
import HttpFramework.Proofs.TimerNext
import HttpFramework.Proofs.PoolCalls
import HttpFramework.Proofs.FormBounds
import HttpFramework.Proofs.FormRoundTrip
import HttpFramework.Proofs.SentBytes
import HttpFramework.Proofs.ReplyFormat
import HttpFramework.Proofs.ContentLength
import HttpFramework.Proofs.ReplyStatus
import HttpFramework.Library.Custody
import HttpFramework.Library.Simulation
import HttpFramework.Code.ThreadPool
import HttpFramework.Code.WebServer
import HttpFramework.Proofs.PoolDraining
import HttpFramework.Proofs.ServerPlaces
import HttpFramework.Proofs.SerialServer
import HttpFramework.Proofs.ServerSteps
import HttpFramework.Proofs.ServerOwnership
import HttpFramework.Proofs.ServerThreads
import HttpFramework.Proofs.ServerRefinement
import HttpFramework.Proofs.ReplyFrames
import HttpFramework.Proofs.ServerStream
import HttpFramework.Mylog.Sinks
import HttpFramework.Proofs.LogSinks
import HttpFramework.Proofs.LogDelivery
import HttpFramework.Library.Lines
import HttpFramework.Storage.Base64
import HttpFramework.Proofs.Base64Texts
