import OpenHpcWeb.Go.Std
import OpenHpcWeb.Cluster.Types
import OpenHpcWeb.Lib.Run
import OpenHpcWeb.Lib.Loop
import OpenHpcWeb.Lib.Tx
import OpenHpcWeb.Lib.DualWrite
import OpenHpcWeb.Lib.Provenance
import OpenHpcWeb.Lib.Revocation
import OpenHpcWeb.Lib.CheckThenAdd
import OpenHpcWeb.Lib.Checks
import OpenHpcWeb.Slurm.Cache
import OpenHpcWeb.Slurm.CacheFlight
import OpenHpcWeb.Slurm.CacheInvalidation
import OpenHpcWeb.Slurm.Metrics
import OpenHpcWeb.Slurm.SnapshotFlight
import OpenHpcWeb.Slurm.Details
import OpenHpcWeb.Slurm.PartitionAdmin
import OpenHpcWeb.Slurm.Session
import OpenHpcWeb.Slurm.ReadYourWrites
import OpenHpcWeb.Slurm.Alone
import OpenHpcWeb.Platform.Partitions
import OpenHpcWeb.Platform.PartitionTables
import OpenHpcWeb.Platform.PartitionStore
import OpenHpcWeb.Platform.Users
import OpenHpcWeb.Web.Validators
import OpenHpcWeb.Web.Partitions
import OpenHpcWeb.Web.PartitionSpecs
import OpenHpcWeb.Web.RequestCases
import OpenHpcWeb.Web.FailedSync
import OpenHpcWeb.Web.StartupSync
import OpenHpcWeb.Web.SystemPartitions
import OpenHpcWeb.Web.Concurrent
import OpenHpcWeb.Web.StoreAgreement
import OpenHpcWeb.Lib.Ldap
import OpenHpcWeb.Ldap.Client
import OpenHpcWeb.Go.Strconv
import OpenHpcWeb.Go.Path
import OpenHpcWeb.Ldap.Provisioning
import OpenHpcWeb.Web.Sessions
import OpenHpcWeb.Web.AccessGate
import OpenHpcWeb.Web.Login
import OpenHpcWeb.Web.LoginIdentity
import OpenHpcWeb.Web.AccountStatus
import OpenHpcWeb.Web.LoginRevocation
import OpenHpcWeb.Web.Administrators
import OpenHpcWeb.Web.TerminalStore
import OpenHpcWeb.Web.TerminalCalls
import OpenHpcWeb.Web.TerminalInvariant
import OpenHpcWeb.Web.TerminalServer
import OpenHpcWeb.Web.TerminalServerMoves
import OpenHpcWeb.Web.TerminalSurvival
import OpenHpcWeb.Web.View
import OpenHpcWeb.Web.Jobs
import OpenHpcWeb.Web.JobIsolation
import OpenHpcWeb.Go.Duration
import OpenHpcWeb.Go.Net
import OpenHpcWeb.Platform.SettingsMap
import OpenHpcWeb.Server.Integrations
import OpenHpcWeb.Server.Startup
import OpenHpcWeb.Server.StartOptions
import OpenHpcWeb.Web.Settings
import OpenHpcWeb.Web.SettingsStart
import OpenHpcWeb.Go.Sort
import OpenHpcWeb.Lib.Tally
import OpenHpcWeb.Slurm.CoreHours
import OpenHpcWeb.Slurm.CoreHourReport
import OpenHpcWeb.Slurm.CoreHourWindows
import OpenHpcWeb.Slurm.PartitionViews
import OpenHpcWeb.Web.PartitionRows
import OpenHpcWeb.Go.Utf8
import OpenHpcWeb.Slurmconfig.Provider
import OpenHpcWeb.Slurmconfig.Redaction
import OpenHpcWeb.Lib.LastWriter
import OpenHpcWeb.Platform.SettingsTable
import OpenHpcWeb.Lib.Tokens
import OpenHpcWeb.Web.JobOutputServer
import OpenHpcWeb.Web.JobOutputSlots
import OpenHpcWeb.Web.JobOutputAudit
import OpenHpcWeb.Go.Calendar
import OpenHpcWeb.Go.Time
import OpenHpcWeb.Platform.PartitionTexts
import OpenHpcWeb.Platform.PartitionReport
import OpenHpcWeb.Lib.Keyset
import OpenHpcWeb.Platform.Audit
import OpenHpcWeb.Web.AuditLog
import OpenHpcWeb.Go.Bytes
import OpenHpcWeb.Web.LoginRedirect
import OpenHpcWeb.Go.Io
import OpenHpcWeb.Web.JobOutputReader
import OpenHpcWeb.Go.Float64
import OpenHpcWeb.Slurm.MetricsRange
import OpenHpcWeb.Slurm.SstatValues
import OpenHpcWeb.Slurm.ResourceUsage
import OpenHpcWeb.Cluster.Accounting
import OpenHpcWeb.Lib.Unique
import OpenHpcWeb.Slurm.Accounting
import OpenHpcWeb.Go.Url
import OpenHpcWeb.Web.Associations
import OpenHpcWeb.Slurm.CommandRunner
import OpenHpcWeb.Slurmconfig.Listing
import OpenHpcWeb.Go.Decimal
import OpenHpcWeb.Web.Decimals
import OpenHpcWeb.Go.Base64
import OpenHpcWeb.Web.DirectoryKeys
import OpenHpcWeb.Lib.FixedWindow
import OpenHpcWeb.Web.LoginThrottle
import OpenHpcWeb.Lib.Budget
import OpenHpcWeb.Ldap.Search
import OpenHpcWeb.Go.RuneBytes
import OpenHpcWeb.Web.JobOutputTail
import OpenHpcWeb.Web.JobOutputFraming
import OpenHpcWeb.Lib.Handles
import OpenHpcWeb.Web.NoFollow
import OpenHpcWeb.Web.ResourcePolling
import OpenHpcWeb.Lib.Program
import OpenHpcWeb.Lib.Semaphore
import OpenHpcWeb.Web.DirectoryServer
import OpenHpcWeb.Go.Json
import OpenHpcWeb.Lib.Columns
import OpenHpcWeb.Platform.Accounts
import OpenHpcWeb.Platform.Migrations
import OpenHpcWeb.Web.Accounts
import OpenHpcWeb.Web.DirectoryAudit
import OpenHpcWeb.Web.TerminalRelay
import OpenHpcWeb.Go.JsonText
import OpenHpcWeb.Ldap.Calls
import OpenHpcWeb.Ldap.Cancellation
import OpenHpcWeb.Web.ConfirmDialog
import OpenHpcWeb.Web.DirectoryRows
import OpenHpcWeb.Web.FormBody
import OpenHpcWeb.Web.JobOutputPreview
import OpenHpcWeb.Web.NodeActions
import OpenHpcWeb.Web.PartitionEditor
import OpenHpcWeb.Web.TerminalPage
import OpenHpcWeb.Web.TerminalSession
