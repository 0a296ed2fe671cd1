import LogStack.JsValue
import LogStack.FileProgram
import LogStack.Lines
import LogStack.KeyedInsert
import LogStack.Outbox
import LogStack.OutboxFiles
import LogStack.OutboxState
import LogStack.FailedJournal
import LogStack.Quarantine
import LogStack.OutboxOperations
import LogStack.FailingCalls
import LogStack.Simulation
import LogStack.OutboxRuns
import LogStack.CrashSafety
import LogStack.FailedCache
import LogStack.JsText
import LogStack.CompactJson
import LogStack.FailedOperations
import LogStack.EventValidation
import LogStack.Storage
import LogStack.Ingestion
import LogStack.BatchRefinement
import LogStack.ColumnDomains
import LogStack.Receiver
import LogStack.ApiKeyGuard
import LogStack.Sampling
import LogStack.SenderConfig
import LogStack.Ack
import LogStack.Daemon
import LogStack.FixedWindow
import LogStack.RateLimit
import LogStack.Nearest
import LogStack.NearestDoubles
import LogStack.Throttle
import LogStack.SplitPlan
import LogStack.Settlement
import LogStack.RequestBody
import LogStack.SendLoop
import LogStack.AckAgreement
import LogStack.SenderProcess
import LogStack.SenderQueue
import LogStack.SenderPace
import LogStack.OutagePace
import LogStack.Bisection
import LogStack.SharedTable
import LogStack.ConcurrentBatches
import LogStack.Relational
import LogStack.Calendar
import LogStack.MetricsRepository
import LogStack.MetricRows
import LogStack.MetricsService
import LogStack.MetricWindows
import LogStack.MetricCounts
import LogStack.MetricSnapshot
import LogStack.DayLedger
import LogStack.IsoTime
import LogStack.Generator
import LogStack.Attribution
import LogStack.StandardLibraries
import LogStack.PlainEvents
import LogStack.GeneratedTraffic
import LogStack.MetricEvidence
import LogStack.ArrivalOrder
import LogStack.SerialBatches
import LogStack.ArpuFormat
import LogStack.UserBlocks
import LogStack.BlockReaders
import LogStack.GreedyCut
import LogStack.Batching
import LogStack.CommandScript
import LogStack.BlockDevices
import LogStack.DbBootstrap
import LogStack.VolumePolicy
import LogStack.VolumeSafety
import LogStack.Custody
import LogStack.Verdicts
import LogStack.Resolution
import LogStack.Pipeline
import LogStack.EndToEnd
import LogStack.EventLoader
import LogStack.Reactive
import LogStack.ReceiverServer
import LogStack.ReceiverRuns
import LogStack.ReceiverLimits
import LogStack.LinearCongruential
import LogStack.EventScript
import LogStack.ScriptUuids
import LogStack.ScriptVisits
import LogStack.ScriptDataset
import LogStack.ScriptLoading
import LogStack.Recovery
import LogStack.ExactlyOnce
