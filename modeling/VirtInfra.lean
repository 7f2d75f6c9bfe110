import VirtInfra.Agent.Chain
import VirtInfra.Consumption.Agreement
import VirtInfra.Agent.ExactlyOnce
import VirtInfra.Agent.Threshold
import VirtInfra.Lib.Lookup
import VirtInfra.Abuse.Evaluation
import VirtInfra.Abuse.Incidents
import VirtInfra.Abuse.Mirror
import VirtInfra.Lib.RowLocks
import VirtInfra.Maintenance.Jobs
import VirtInfra.Maintenance.Dispatch
import VirtInfra.Maintenance.Worker
import VirtInfra.Maintenance.System
import VirtInfra.Maintenance.Effect
import VirtInfra.Maintenance.StateMachine
import VirtInfra.Maintenance.Serial
import VirtInfra.Current.Tables
import VirtInfra.Current.Writers
import VirtInfra.Current.NoRewind
import VirtInfra.Lib.PerKey
import VirtInfra.Inventory.Presence
import VirtInfra.Inventory.View
import VirtInfra.Inventory.SetBased
import VirtInfra.Inventory.Fleet
import VirtInfra.Inventory.Evidence
import VirtInfra.Inventory.Liveness
import VirtInfra.Snapshot.Batches
import VirtInfra.Snapshot.Ready
import VirtInfra.Consumption.Billing
import VirtInfra.Consumption.Clear
import VirtInfra.Abuse.Revision
import VirtInfra.Lib.Batches
import VirtInfra.Retention.Preview
import VirtInfra.Retention.Thinning
import VirtInfra.Consumption.Retention
import VirtInfra.Consumption.RawStats
import VirtInfra.Consumption.Backfill
import VirtInfra.Current.FastRow
import VirtInfra.Current.SameRow
import VirtInfra.Consumption.LegacyUsage
import VirtInfra.Current.Chart
import VirtInfra.Config.Tables
import VirtInfra.Current.StoragePayload
import VirtInfra.Config.Backup
import VirtInfra.Config.Sections
import VirtInfra.Config.RoundTrip
import VirtInfra.Admin.Accounts
import VirtInfra.Admin.Session
import VirtInfra.Admin.Pages
import VirtInfra.Admin.UserPages
import VirtInfra.Config.Nuclear
import VirtInfra.Config.GroupPages
import VirtInfra.Config.Membership
import VirtInfra.Admin.Run
import VirtInfra.Admin.Effect
import VirtInfra.Admin.Cookies
import VirtInfra.Admin.LockOut
import VirtInfra.Admin.Rights
import VirtInfra.Admin.Revocation
import VirtInfra.Admin.Escalation
import VirtInfra.Inventory.MissingCount
import VirtInfra.Inventory.Hidden
import VirtInfra.Inventory.PurgeRequest
import VirtInfra.Current.CopyUpsert
import VirtInfra.Abuse.Refresh
import VirtInfra.Current.MissingMetrics
import VirtInfra.Abuse.Sustained
import VirtInfra.Consumption.PurgeVm
import VirtInfra.Web.PageCache
import VirtInfra.Maintenance.ResetBarrier
import VirtInfra.Maintenance.Offline
import VirtInfra.Lib.Erasure
import VirtInfra.Monitoring.Tables
import VirtInfra.Monitoring.Groups
import VirtInfra.Monitoring.Consumption
import VirtInfra.Monitoring.Vm
import VirtInfra.Monitoring.Invisible
import VirtInfra.Lib.Scan
import VirtInfra.Sql.Lexical
import VirtInfra.Sql.Placeholders
import VirtInfra.Sql.Script
import VirtInfra.Agent.Host
import VirtInfra.Agent.Listed
import VirtInfra.Agent.Odometer
import VirtInfra.Lib.Proration
import VirtInfra.Consumption.Straddle
import VirtInfra.Inventory.Expiry
import VirtInfra.Current.Roles
import VirtInfra.Inventory.NodePurge
import VirtInfra.Agent.Sampler
import VirtInfra.Agent.Windows
import VirtInfra.Backup.Manifest
import VirtInfra.Lib.Paging
import VirtInfra.Monitoring.Paging
import VirtInfra.Monitoring.NodeSnapshot
import VirtInfra.Current.StorageSummaries
import VirtInfra.Lib.Cells
import VirtInfra.Consumption.Coverage
import VirtInfra.Lib.Loop
import VirtInfra.Sql.ScalarMinMax
import VirtInfra.Lib.UniqueRows
import VirtInfra.Sql.InsertOr
import VirtInfra.Abuse.Replay
import VirtInfra.Python.Strings
import VirtInfra.Api.Token
import VirtInfra.Api.RateLimit
import VirtInfra.Api.Keys
import VirtInfra.Api.Access
import VirtInfra.Lib.Records
import VirtInfra.Inventory.MissedHistory
import VirtInfra.Agent.Filesystems
