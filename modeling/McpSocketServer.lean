import McpSocketServer.Misc.Lts
import McpSocketServer.Misc.Census
import McpSocketServer.Python.Value
import McpSocketServer.Proofs.Resolve
import McpSocketServer.Misc.ExceptState
import McpSocketServer.Misc.SegmentedStream
import McpSocketServer.Python.Runtime
import McpSocketServer.Pool
import McpSocketServer.PoolThreads
import McpSocketServer.Proofs.PoolInvariant
import McpSocketServer.Server.RunBatch
import McpSocketServer.Server.Workers
import McpSocketServer.Proofs.WorkersInvariant
import McpSocketServer.Proofs.Exclusion
import McpSocketServer.Proofs.CaptureOwnership
import McpSocketServer.Proofs.Isolation
import McpSocketServer.Proofs.StopReleases
import McpSocketServer.Misc.FileStore
import McpSocketServer.Upgrades
import McpSocketServer.Proofs.ServedBinary
import McpSocketServer.Server.Tools
import McpSocketServer.Proofs.ConnectedClients
import McpSocketServer.Proofs.AnswerReads
import McpSocketServer.Proofs.PairedAnswers
import McpSocketServer.Proofs.CountedResults
import McpSocketServer.Proofs.ErrorAnswers
import McpSocketServer.Proofs.ErrorsCounted
import McpSocketServer.Proofs.Attribution
import McpSocketServer.Proofs.WorkerFrames
import McpSocketServer.Proofs.Containment
import McpSocketServer.Proofs.SelfConflict
import McpSocketServer.Server.Polling
import McpSocketServer.Server.WriteTools
import McpSocketServer.Proofs.AuditRecords
import McpSocketServer.Proofs.RemovalSafety
import McpSocketServer.Proofs.PollingDelays
import McpSocketServer.Misc.ThreadPool
import McpSocketServer.Server.Concurrency
import McpSocketServer.Proofs.ConcurrencyBound
import McpSocketServer.Proofs.LengthPrefixed
import McpSocketServer.Proofs.FetchDecoding
import McpSocketServer.Proofs.PausedAnswers
import McpSocketServer.Server.UpgradeRun
import McpSocketServer.Proofs.CanonicalVersion
import McpSocketServer.Proofs.UpgradeAccounting
import McpSocketServer.Server.ListenRuns
import McpSocketServer.Proofs.LivenessCleared
import McpSocketServer.Misc.Watched
import McpSocketServer.Proofs.IdleEviction
import McpSocketServer.SocketCalls
import McpSocketServer.Proofs.TimeoutsInForce
import McpSocketServer.Misc.Machine
import McpSocketServer.Proofs.HeldLocks
import McpSocketServer.Proofs.TagSelections
import McpSocketServer.Proofs.AddRemove
import McpSocketServer.Proofs.FileAuthority
import McpSocketServer.Misc.Padded
import McpSocketServer.Proofs.VersionGates
import McpSocketServer.Server.VersionCheck
import McpSocketServer.Proofs.BackOff
import McpSocketServer.Config
import McpSocketServer.Proofs.ConfigMerge
import McpSocketServer.Proofs.ConfigDefaults
import McpSocketServer.Proofs.PoolWaiting
import McpSocketServer.Proofs.RegistryCells
import McpSocketServer.Server.AuditTable
import McpSocketServer.Proofs.AuditRetention
import McpSocketServer.Server.DailyCheck
import McpSocketServer.Proofs.Announcements
import McpSocketServer.Proofs.PollingRounds
import McpSocketServer.Misc.Framing
import McpSocketServer.Target.Handler
import McpSocketServer.Proofs.Uploads
import McpSocketServer.Target.FileSession
import McpSocketServer.Proofs.SteadyExchanges
import McpSocketServer.Proofs.FileSessions
import McpSocketServer.Misc.Amortized
import McpSocketServer.Proofs.Recovery
import McpSocketServer.Proofs.ServingTargets
import McpSocketServer.LockThreads
import McpSocketServer.Proofs.LockHistories
import McpSocketServer.PoolDraining
import McpSocketServer.Proofs.OpenSockets
import McpSocketServer.Misc.OnePlace
import McpSocketServer.Proofs.ClosedOnce
import McpSocketServer.Proofs.TargetConnections
import McpSocketServer.Proofs.Interleavings
