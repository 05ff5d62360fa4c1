import Diagox.Cache.Failover
import Diagox.Cache.Failures
import Diagox.Cache.File
import Diagox.Cache.OnState
import Diagox.Call.Answer
import Diagox.Call.Attempts
import Diagox.Call.Authorizer
import Diagox.Call.Bridge
import Diagox.Call.DefaultRoute
import Diagox.Call.Dial
import Diagox.Call.Fallback
import Diagox.Call.Handler
import Diagox.Call.Legs
import Diagox.Call.Lifetimes
import Diagox.Call.MapOrder
import Diagox.Call.MediaScore
import Diagox.Call.NilLegs
import Diagox.Call.PacketCounters
import Diagox.Call.Records
import Diagox.Call.References
import Diagox.Call.Settled
import Diagox.Call.Targets
import Diagox.Call.Unauthorized
import Diagox.Cdr.Filters
import Diagox.Cdr.History
import Diagox.Cdr.Query
import Diagox.Cdr.Retention
import Diagox.Cdr.Storage
import Diagox.Config.FailedLoad
import Diagox.Config.Load
import Diagox.Config.Types
import Diagox.Config.Yaml
import Diagox.Files
import Diagox.Flow.Alias
import Diagox.Flow.Capacity
import Diagox.Flow.Commands
import Diagox.Flow.Connections
import Diagox.Flow.Delivery
import Diagox.Flow.Dialog
import Diagox.Flow.Directory
import Diagox.Flow.Durations
import Diagox.Flow.Frames
import Diagox.Flow.Guards
import Diagox.Flow.Media
import Diagox.Flow.Messages
import Diagox.Flow.Operations
import Diagox.Flow.ReadLoop
import Diagox.Flow.Recording
import Diagox.Flow.Responses
import Diagox.Flow.Transactions
import Diagox.Lib.Bytes
import Diagox.Lib.Defer
import Diagox.Lib.ExpiringMap
import Diagox.Lib.Fifo
import Diagox.Lib.Float64
import Diagox.Lib.Interleave
import Diagox.Lib.Linear
import Diagox.Lib.Lists
import Diagox.Lib.NetIP
import Diagox.Lib.OrderedScan
import Diagox.Lib.Path
import Diagox.Lib.Refine
import Diagox.Lib.RingScan
import Diagox.Lib.RingStore
import Diagox.Lib.SharedStream
import Diagox.Lib.Slice
import Diagox.Lib.Strings
import Diagox.Limiter.Active
import Diagox.Limiter.Admission
import Diagox.Limiter.Atomic
import Diagox.Limiter.Block
import Diagox.Limiter.Gauge
import Diagox.Limiter.Rate
import Diagox.Limiter.Sequential
import Diagox.Registrar.Answers
import Diagox.Registrar.Auth
import Diagox.Registrar.Bearer
import Diagox.Registrar.Contacts
import Diagox.Registrar.Credentials
import Diagox.Registrar.Deregister
import Diagox.Registrar.Expiry
import Diagox.Registrar.Handler
import Diagox.Registrar.Intervals
import Diagox.Registrar.Overlap
import Diagox.Registrar.Ownership
import Diagox.Registrar.Redaction
import Diagox.Registrar.Resolve
import Diagox.Registrar.Scheme
import Diagox.Registrar.Seconds
import Diagox.Registrar.Statements
import Diagox.Registrar.Wildcard
import Diagox.Registry.Lock
import Diagox.Registry.Memory
import Diagox.Registry.Refinement
import Diagox.Routing.Default
import Diagox.Routing.FullLength
import Diagox.Routing.Index
import Diagox.Routing.References
import Diagox.Routing.Router
import Diagox.Routing.Scan
import Diagox.Sip
import Diagox.Trace.Headers
import Diagox.Trace.Page
import Diagox.Trace.Parse
import Diagox.Trace.Search
import Diagox.Trace.Store
