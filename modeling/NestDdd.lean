import NestDdd.Theory.Lending
import NestDdd.Theory.Machine
import NestDdd.Database.Identity
import NestDdd.Database.Transaction
import NestDdd.Database.PassThrough
import NestDdd.Database.Attribution
import NestDdd.Database.CallTimeout
import NestDdd.Database.BootPing
import NestDdd.Config.Env
import NestDdd.Scheduler.JobScheduler
import NestDdd.Cluster.Leader
import NestDdd.Cluster.Respawn
import NestDdd.Cluster.RateCap
import NestDdd.Cluster.Farewell
import NestDdd.Lifecycle.Drain
import NestDdd.Common.Semaphore
import NestDdd.Legacy.RequestFraming
import NestDdd.Legacy.Teardown
import NestDdd.Legacy.Prefix
import NestDdd.Http.RequestId
import NestDdd.Common.Tasks
import NestDdd.Legacy.Segments
import NestDdd.Config.Waits
import NestDdd.Http.CsrfGuard
import NestDdd.Http.ReusedId
import NestDdd.Scheduler.JobRuns
import NestDdd.Theory.Matching
import NestDdd.Common.ErrorOrigin
import NestDdd.Common.ProjectRoot
import NestDdd.Http.OrderBy
import NestDdd.Config.LogFiles
import NestDdd.Theory.OrderedMap
import NestDdd.Database.SourceRegistry
import NestDdd.Theory.Fitting
import NestDdd.Database.Truncation
import NestDdd.Theory.Binary64
import NestDdd.Shared.Numeral
import NestDdd.Shared.Utf8
import NestDdd.Shared.Base64
import NestDdd.Json.Syntax
import NestDdd.Json.Lexer
import NestDdd.Json.Stringify
import NestDdd.Json.Objects
import NestDdd.Shared.Cursor
import NestDdd.Domain.ValueObject
import NestDdd.Theory.Calendar
import NestDdd.Shared.IsoDate
import NestDdd.Shared.JsDate
import NestDdd.Shared.LinkField
import NestDdd.Http.DeprecationHeaders
import NestDdd.Lifecycle.Closing
import NestDdd.Cluster.Service
import NestDdd.Database.Health
import NestDdd.Http.Readiness
import NestDdd.Http.Admission
import NestDdd.Http.DatabaseInfo
import NestDdd.Database.Execute
import NestDdd.Http.Pipeline
import NestDdd.Config.Inherited
import NestDdd.Config.Settled
import NestDdd.Config.Slices
import NestDdd.Shared.ToNumber
import NestDdd.Zod.Schema
import NestDdd.Zod.SafeParse
import NestDdd.Zod.Issues
import NestDdd.Zod.Settled
import NestDdd.Config.Schemas
import NestDdd.Config.LoadConfig
