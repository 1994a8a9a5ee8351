import EdgeGuard.Transition
import EdgeGuard.Concurrent
import EdgeGuard.Messaging
import EdgeGuard.Topic
import EdgeGuard.Go.Strings
import EdgeGuard.FileSystem
import EdgeGuard.Go.Encoding
import EdgeGuard.Go.Utf8
import EdgeGuard.Go.Case
import EdgeGuard.Go.Format
import EdgeGuard.Go.Time
import EdgeGuard.Go.URL
import EdgeGuard.Go.NetURL
import EdgeGuard.Go.Escape
import EdgeGuard.Go.NetIP
import EdgeGuard.Go.Cidr
import EdgeGuard.Go.Paths
import EdgeGuard.Go.Filepath
import EdgeGuard.Go.Http
import EdgeGuard.Go.Jwt
import EdgeGuard.Go.Bcrypt
import EdgeGuard.Go.Json
import EdgeGuard.Go.JsonText
import EdgeGuard.Go.JsonRecords
import EdgeGuard.Go.JsonStream
import EdgeGuard.Postgres
import EdgeGuard.ControlPlane.Domain
import EdgeGuard.ControlPlane.Store
import EdgeGuard.Gateway.Routes
import EdgeGuard.Gateway.Snapshot
import EdgeGuard.Publication
import EdgeGuard.Gateway.RouteRepository
import EdgeGuard.Gateway.RouteSource
import EdgeGuard.Auth.APIKeys
import EdgeGuard.Auth.KeyFormat
import EdgeGuard.Auth.Revocation
import EdgeGuard.Auth.LastUsed
import EdgeGuard.Auth.RefreshTokens
import EdgeGuard.Auth.AccessTokens
import EdgeGuard.Auth.Rotation
import EdgeGuard.Auth.Cleanup
import EdgeGuard.Auth.Logout
import EdgeGuard.Auth.Accounts
import EdgeGuard.Auth.KeyManagement
import EdgeGuard.Gateway.Handler
import EdgeGuard.Gateway.AuthClient
import EdgeGuard.Gateway.RateLimit
import EdgeGuard.Gateway.Matching
import EdgeGuard.RouteRefresh
import EdgeGuard.EdgeAccess
import EdgeGuard.Gateway.LongestPrefix
import EdgeGuard.Gateway.Fallback
import EdgeGuard.Gateway.Durations
import EdgeGuard.Gateway.DotSegments
import EdgeGuard.Gateway.Encoding
import EdgeGuard.Gateway.Stripping
import EdgeGuard.Gateway.Isolation
import EdgeGuard.Gateway.ResetTime
import EdgeGuard.Gateway.FailOpen
import EdgeGuard.Gateway.Recording
import EdgeGuard.Analytics.Event
import EdgeGuard.Gateway.AccessEvents
import EdgeGuard.Analytics.Store
import EdgeGuard.Analytics.Aggregates
import EdgeGuard.Analytics.Queries
import EdgeGuard.Analytics.Consumer
import EdgeGuard.Analytics.Retries
import EdgeGuard.Analytics.Storable
import EdgeGuard.Analytics.Offsets
import EdgeGuard.Analytics.EventRecords
import EdgeGuard.EventPipeline
import EdgeGuard.Jobs.Statements
import EdgeGuard.Jobs.Worker
import EdgeGuard.Jobs.Settlement
import EdgeGuard.Jobs.DeliveryCount
import EdgeGuard.Jobs.Snapshots
import EdgeGuard.Jobs.Pipeline
import EdgeGuard.Jobs.Attempts
import EdgeGuard.Jobs.Records
import EdgeGuard.Jobs.Submission
import EdgeGuard.Jobs.Interference
import EdgeGuard.Jobs.Ordering
import EdgeGuard.Jobs.Payloads
import EdgeGuard.Jobs.Messages
import EdgeGuard.Jobs.Agreement
import EdgeGuard.Jobs.Transport
import EdgeGuard.Jobs.Conservation
import EdgeGuard.Jobs.Webhook
import EdgeGuard.Jobs.AddressPolicy
import EdgeGuard.Jobs.Policy
import EdgeGuard.Jobs.ReportRows
import EdgeGuard.Jobs.Generate
import EdgeGuard.Jobs.Reports
import EdgeGuard.EventProgress
