import RunnerSwarm.Lib.Run
import RunnerSwarm.Lib.Program
import RunnerSwarm.Lib.Agree
import RunnerSwarm.Lib.Serial
import RunnerSwarm.Lib.Holders
import RunnerSwarm.Config.Pool
import RunnerSwarm.Scaler.Allocation
import RunnerSwarm.Scaler.Cap
import RunnerSwarm.Scaler.CapLedger
import RunnerSwarm.Scaler.GlobalCap
import RunnerSwarm.Scaler.ManualSpawns
import RunnerSwarm.Lib.Log
import RunnerSwarm.Lib.Table
import RunnerSwarm.Lib.LetterCase
import RunnerSwarm.Lib.Text
import RunnerSwarm.Server.Idempotency
import RunnerSwarm.Server.Replay
import RunnerSwarm.Store.Jobs
import RunnerSwarm.Store.Announcements
import RunnerSwarm.GitHub.Scan
import RunnerSwarm.Scaler.JobRecording
import RunnerSwarm.Docker.Client
import RunnerSwarm.Scaler.Inspection
import RunnerSwarm.Scaler.Ownership
import RunnerSwarm.Scaler.FailedObservation
import RunnerSwarm.Config.Resolver
import RunnerSwarm.Config.Fallbacks
import RunnerSwarm.Config.ByName
import RunnerSwarm.Config.Validated
import RunnerSwarm.Config.Loader
import RunnerSwarm.Config.Identity
import RunnerSwarm.Federation.Split
import RunnerSwarm.Federation.Snapshot
import RunnerSwarm.Federation.Validation
import RunnerSwarm.Federation.Agreement
import RunnerSwarm.Federation.FreeSlots
import RunnerSwarm.Store.History
import RunnerSwarm.Server.Deps
import RunnerSwarm.Server.Auth
import RunnerSwarm.Server.BruteForce
import RunnerSwarm.Server.Payloads
import RunnerSwarm.Server.ReadRoutes
import RunnerSwarm.Server.ControlRoutes
import RunnerSwarm.Server.App
import RunnerSwarm.Lib.Knowledge
import RunnerSwarm.Server.Disclosure
import RunnerSwarm.Server.Edits
import RunnerSwarm.Server.Auditing
import RunnerSwarm.Server.Overlay
import RunnerSwarm.Server.AcceptedEdits
import RunnerSwarm.Server.ControlToken
import RunnerSwarm.Server.Removal
import RunnerSwarm.Server.SerialEdits
import RunnerSwarm.GitHub.Client
import RunnerSwarm.GitHub.Requests
import RunnerSwarm.GitHub.Conditional
import RunnerSwarm.GitHub.Pacing
import RunnerSwarm.GitHub.Cooldown
import RunnerSwarm.GitHub.SharedScan
import RunnerSwarm.Scaler.Hosts
import RunnerSwarm.Scaler.HotHost
import RunnerSwarm.Federation.Untrusted
import RunnerSwarm.GitHub.Forges
import RunnerSwarm.Docker.Spawn
import RunnerSwarm.Docker.Entrypoint
import RunnerSwarm.Lib.UrlPath
import RunnerSwarm.Dashboard.Gateway
import RunnerSwarm.Lib.Collation
import RunnerSwarm.Store.Dialects
import RunnerSwarm.Lib.Connection
import RunnerSwarm.Store.Transactions
import RunnerSwarm.Store.LostStatements
import RunnerSwarm.Store.Reconnect
import RunnerSwarm.Store.Leftovers
import RunnerSwarm.GitHub.Provenance
import RunnerSwarm.GitHub.ForgeTraffic
import RunnerSwarm.GitHub.TokenReach
import RunnerSwarm.Lib.Ordered
import RunnerSwarm.Federation.HighestAverages
import RunnerSwarm.Scaler.FairShares
import RunnerSwarm.Scaler.QueueCover
import RunnerSwarm.Scaler.OwnContainer
import RunnerSwarm.GitHub.ScanCount
import RunnerSwarm.Scaler.FederatedQueue
import RunnerSwarm.Scaler.RepeatedTicks
import RunnerSwarm.Scaler.LaneRuns
import RunnerSwarm.Config.LoadConfig
import RunnerSwarm.Server.Export
import RunnerSwarm.Docker.RunningFor
import RunnerSwarm.Docker.AgeLimits
import RunnerSwarm.Server.OldestRunner
import RunnerSwarm.Config.Excluded
import RunnerSwarm.GitHub.Discovery
import RunnerSwarm.GitHub.FirstPages
import RunnerSwarm.Scaler.ListedRunners
import RunnerSwarm.Config.Warnings
import RunnerSwarm.Scaler.PoolOverlap
import RunnerSwarm.Docker.RunnerLabels
import RunnerSwarm.Server.StatedValues
import RunnerSwarm.Scaler.PollSchedule
import RunnerSwarm.GitHub.RetryGate
import RunnerSwarm.GitHub.FreshScans
import RunnerSwarm.Store.EndTimes
import RunnerSwarm.Docker.Images
import RunnerSwarm.Docker.WorkTmpfs
import RunnerSwarm.Docker.CiContainers
import RunnerSwarm.Federation.ParseConfig
import RunnerSwarm.Server.Attribution
import RunnerSwarm.Server.DroppedRepositories
import RunnerSwarm.Lib.Exposition
import RunnerSwarm.Server.Metrics
import RunnerSwarm.Lib.Bounded
import RunnerSwarm.Scaler.RepositoryCache
import RunnerSwarm.Daemon.Loop
import RunnerSwarm.Daemon.Rounds
import RunnerSwarm.Daemon.Controls
import RunnerSwarm.Daemon.Maintenance
import RunnerSwarm.Daemon.Registrations
import RunnerSwarm.Daemon.Removals
import RunnerSwarm.Daemon.Shutdown
import RunnerSwarm.Dashboard.Access
import RunnerSwarm.Docker.Toolcache
import RunnerSwarm.Federation.Cluster
import RunnerSwarm.Federation.SnapshotText
import RunnerSwarm.Federation.Steady
import RunnerSwarm.Store.OverrideTexts
