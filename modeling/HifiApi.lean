import HifiApi.Access.Admission
import HifiApi.Access.Gate
import HifiApi.Access.Guesses
import HifiApi.Access.Sessions
import HifiApi.Accounts.AllOrNothing
import HifiApi.Accounts.Autoheal
import HifiApi.Accounts.Backup
import HifiApi.Accounts.BusySlots
import HifiApi.Accounts.ConcurrentClaims
import HifiApi.Accounts.Edits
import HifiApi.Accounts.EqualTurns
import HifiApi.Accounts.FullChecks
import HifiApi.Accounts.HourlyLimit
import HifiApi.Accounts.ImportedOnce
import HifiApi.Accounts.Imports
import HifiApi.Accounts.LeaseSpec
import HifiApi.Accounts.LeaseWaits
import HifiApi.Accounts.Leases
import HifiApi.Accounts.PacedChecks
import HifiApi.Accounts.PauseLadder
import HifiApi.Accounts.PreviewStreaks
import HifiApi.Accounts.Published
import HifiApi.Accounts.RateLimits
import HifiApi.Accounts.Readiness
import HifiApi.Accounts.RoundTrip
import HifiApi.Accounts.Schema
import HifiApi.Accounts.Secrets
import HifiApi.Accounts.Selection
import HifiApi.Accounts.Shared
import HifiApi.Accounts.SignIns
import HifiApi.Accounts.SoloClaims
import HifiApi.Accounts.Sqlite
import HifiApi.Accounts.State
import HifiApi.Accounts.SwitchRuns
import HifiApi.Accounts.Switches
import HifiApi.ApiKeys.Definitions
import HifiApi.ApiKeys.Quota
import HifiApi.ApiKeys.Reconcile
import HifiApi.ApiKeys.State
import HifiApi.ApiKeys.Usage
import HifiApi.Base.AppError
import HifiApi.Base.Checked
import HifiApi.Base.ClientSecret
import HifiApi.Base.DebugText
import HifiApi.Base.Json
import HifiApi.Base.Numbers
import HifiApi.Base.Response
import HifiApi.Base.Text
import HifiApi.Base.Utf8Lossy
import HifiApi.Cache.Bodies
import HifiApi.Cache.Keys
import HifiApi.Cache.Responses
import HifiApi.Cache.Served
import HifiApi.Cache.ServedSteps
import HifiApi.Cache.Serving
import HifiApi.Cache.Singleflight
import HifiApi.Failover.Bounded
import HifiApi.Failover.Calls
import HifiApi.Failover.Catalog
import HifiApi.Failover.CatalogBounded
import HifiApi.Failover.CatalogJournal
import HifiApi.Failover.Journal
import HifiApi.Failover.PoolRules
import HifiApi.Failover.Presentations
import HifiApi.Failover.Presented
import HifiApi.Failover.PreviewOnly
import HifiApi.Failover.Requests
import HifiApi.Failover.Routes
import HifiApi.Failover.RoutesBounded
import HifiApi.Failover.Settled
import HifiApi.Fleet.Backups
import HifiApi.Fleet.Collection
import HifiApi.Fleet.Convergence
import HifiApi.Fleet.Dated
import HifiApi.Fleet.Deletes
import HifiApi.Fleet.Everywhere
import HifiApi.Fleet.Merging
import HifiApi.Fleet.OwnerOff
import HifiApi.Fleet.Protocol
import HifiApi.Fleet.Pushes
import HifiApi.Fleet.Restore
import HifiApi.Fleet.UnionMerge
import HifiApi.Guards.Answers
import HifiApi.Guards.Eviction
import HifiApi.Guards.PerAddress
import HifiApi.Guards.State
import HifiApi.Lib.Arena
import HifiApi.Lib.Base64
import HifiApi.Lib.Buckets
import HifiApi.Lib.Calls
import HifiApi.Lib.Columns
import HifiApi.Lib.Expiring
import HifiApi.Lib.FormUrlencoded
import HifiApi.Lib.Grounds
import HifiApi.Lib.LockCache
import HifiApi.Lib.Log
import HifiApi.Lib.Migrations
import HifiApi.Lib.OrderStatistics
import HifiApi.Lib.Pacing
import HifiApi.Lib.PercentEncoding
import HifiApi.Lib.Ranks
import HifiApi.Lib.Separated
import HifiApi.Lib.Spans
import HifiApi.Lib.SqlTables
import HifiApi.Lib.Starts
import HifiApi.Lib.System
import HifiApi.Lib.Table
import HifiApi.Lib.Threads
import HifiApi.Lib.Turns
import HifiApi.Lib.UrlPaths
import HifiApi.Lib.Window
import HifiApi.Playback.Answers
import HifiApi.Playback.CacheKey
import HifiApi.Playback.CachedAnswers
import HifiApi.Playback.Lifecycle
import HifiApi.Playback.Polls
import HifiApi.Playback.Positions
import HifiApi.Playback.Queue
import HifiApi.Playback.Requests
import HifiApi.Playback.Results
import HifiApi.Playback.Slots
import HifiApi.Playback.Transitions
import HifiApi.Proxies.Egress
import HifiApi.Proxies.Failures
import HifiApi.Proxies.Followed
import HifiApi.Proxies.Manager
import HifiApi.Proxies.Moves
import HifiApi.Proxies.Passes
import HifiApi.Proxies.Rebalance
import HifiApi.Proxies.Routes
import HifiApi.Proxies.Sharing
import HifiApi.Proxies.Spread
import HifiApi.Proxies.Switches
import HifiApi.RequestLog.Chart
import HifiApi.RequestLog.Latencies
import HifiApi.RequestLog.State
import HifiApi.Routes.Album
import HifiApi.Routes.Lyrics
import HifiApi.Routes.ManifestId
import HifiApi.Routes.Manifests
import HifiApi.Routes.Substitutes
import HifiApi.Routes.Tracks
import HifiApi.Settings.Fleet
import HifiApi.Settings.Loaders
import HifiApi.Settings.State
import HifiApi.Settings.Updates
import HifiApi.Tidal.Refused
import HifiApi.Tidal.Requests
import HifiApi.Tokens.Cooldown
import HifiApi.Tokens.EarnedRotations
import HifiApi.Tokens.FailingSince
import HifiApi.Tokens.LateReports
import HifiApi.Tokens.Manager
import HifiApi.Tokens.Refresh
import HifiApi.Tokens.RefreshLocks
import HifiApi.Tokens.RefreshSteps
import HifiApi.Tokens.RefusalSteps
import HifiApi.Tokens.Refusals
import HifiApi.Tokens.Replaced
import HifiApi.Tokens.Rotation
import HifiApi.Upstash.Commands
import HifiApi.Upstash.Rest
import HifiApi.Uptime.Failures
import HifiApi.Uptime.Restart
import HifiApi.Uptime.State
import HifiApi.Uptime.Timeline
import HifiApi.Uptime.World
