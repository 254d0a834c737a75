import ChudMoney.Lib.Runs
import ChudMoney.Lib.Ladder
import ChudMoney.Lib.Text
import ChudMoney.Lib.Json
import ChudMoney.Lib.MachineInt
import ChudMoney.Kalshi.Book
import ChudMoney.Kalshi.Stream
import ChudMoney.Kalshi.Client
import ChudMoney.Db.Rows
import ChudMoney.Model.Market
import ChudMoney.Model.Collection
import ChudMoney.AppError
import ChudMoney.Kalshi.Exact
import ChudMoney.Feeds.Shared
import ChudMoney.Feeds.Task
import ChudMoney.Feeds.Frames
import ChudMoney.Feeds.Cache
import ChudMoney.Feeds.EventLog
import ChudMoney.Lib.Sequence
import ChudMoney.Lib.Windows
import ChudMoney.Coinbase.Stream
import ChudMoney.Feeds.Coinbase
import ChudMoney.Feeds.Gaps
import ChudMoney.Feeds.Malformed
import ChudMoney.Db.Export
import ChudMoney.Controllers.Data
import ChudMoney.Db.IlpWriter
import ChudMoney.Lib.SortDedup
import ChudMoney.Controllers.Ingest
import ChudMoney.Lib.Replica
import ChudMoney.Kalshi.FixedPoint
import ChudMoney.Kalshi.SnapshotFrame
import ChudMoney.Feeds.Proxy
import ChudMoney.Lib.Remote
import ChudMoney.Feeds.Rotation
import ChudMoney.Feeds.Registry
import ChudMoney.Controllers.Markets
import ChudMoney.Lib.Chunks
import ChudMoney.Lib.JsonArray
import ChudMoney.Lib.JsonText
import ChudMoney.Db.Columns
import ChudMoney.Controllers.Events
import ChudMoney.Lib.Resume
import ChudMoney.Controllers.Resume
import ChudMoney.Kalshi.Rest
import ChudMoney.Lib.Programs
import ChudMoney.Lib.Calendar
import ChudMoney.Lib.Grids
import ChudMoney.Lib.Owners
import ChudMoney.Lib.Versions
import ChudMoney.Controllers.Periods
import ChudMoney.Controllers.IngestJobs
import ChudMoney.Controllers.Throttled
import ChudMoney.Controllers.JobLog
import ChudMoney.Controllers.IngestLoop
import ChudMoney.Controllers.Coverage
import ChudMoney.Controllers.ContractsLoop
import ChudMoney.Controllers.RunJob
import ChudMoney.Controllers.JobTable
import ChudMoney.Controllers.CandleCursor
import ChudMoney.Db.Candles
import ChudMoney.Controllers.ContractsRun
import ChudMoney.Controllers.CandleCounts
import ChudMoney.Controllers.Resubmission
import ChudMoney.Kalshi.BookRuns
import ChudMoney.Kalshi.DeltaSums
import ChudMoney.Lib.Decimals
import ChudMoney.Controllers.Router
import ChudMoney.Controllers.Tiling
import ChudMoney.Db.EncodeRow
import ChudMoney.Db.Push
import ChudMoney.Db.Queries
import ChudMoney.Feeds.ExactStamps
import ChudMoney.Kalshi.Forms
import ChudMoney.Kalshi.Overflow
import ChudMoney.Feeds.Level2Log
import ChudMoney.Controllers.Products
import ChudMoney.Db.Batches
import ChudMoney.Kalshi.Normalise
import ChudMoney.Lib.Broadcast
import ChudMoney.Lib.Shedding
import ChudMoney.Feeds.Handling
import ChudMoney.Feeds.Accounting
import ChudMoney.Feeds.CoinbaseAccounting
import ChudMoney.Feeds.Broadcasts
import ChudMoney.Feeds.Status
import ChudMoney.Controllers.Ws
import ChudMoney.Controllers.WsBooks
import ChudMoney.Lib.Permits
import ChudMoney.Feeds.Summary
import ChudMoney.Controllers.Exports
import ChudMoney.Middleware.Authenticated
import ChudMoney.Controllers.Server
import ChudMoney.Lib.CreateTable
import ChudMoney.Db.Ddl
import ChudMoney.Db.RoundTrip
import ChudMoney.Lib.Backoff
import ChudMoney.Feeds.Reconnect
import ChudMoney.Lib.Rates
import ChudMoney.Feeds.Timers
import ChudMoney.Controllers.Pipeline
import ChudMoney.Model.Documents
import ChudMoney.Controllers.Restart
import ChudMoney.ProcessConfig
import ChudMoney.Controllers.Configured
