import Fab.Lib.Table
import Fab.Lib.Prog
import Fab.Lib.Trace
import Fab.Lib.Runs
import Fab.Lib.Interleave
import Fab.Lib.Text
import Fab.Lib.Civil
import Fab.Vocabulary
import Fab.Rows
import Fab.Config
import Fab.Wave
import Fab.Mijngeldzaken
import Fab.Ledger
import Fab.Posting
import Fab.Records
import Fab.Reconciliation
import Fab.Review
import Fab.Processing
import Fab.Routing
import Fab.Exports
import Fab.Effects
import Fab.Refresh
import Fab.Leftovers
import Fab.Walks
import Fab.Keeping
import Fab.EvidenceTables
import Fab.BankImport
import Fab.ExportState
import Fab.Corrected
import Fab.BankRefresh
import Fab.PostingQueue
import Fab.PostedOnce
import Fab.Workers
import Fab.System
import Fab.ResultRaces
import Fab.SinglePosting
import Fab.Settled
import Fab.Separation
import Fab.Direction
import Fab.Freshness
import Fab.Gates
import Fab.Reimport
import Fab.Reconciled
import Fab.Agreement
import Fab.FirstDraft
import Fab.Findings
import Fab.OneMatch
import Fab.Proposals
import Fab.Accounts
import Fab.Reporting
import Fab.Booked
import Fab.Conserved
import Fab.Pairs
import Fab.Fields
import Fab.Lib.Chains
import Fab.Originals
import Fab.Parked
import Fab.Stranded
import Fab.Lib.Paths
import Fab.BackupFormat
import Fab.Packages
import Fab.Archived
import Fab.Identified
import Fab.WorkOrders
import Fab.RecoveryChains
import Fab.EmergencyStop
import Fab.CycleSteps
import Fab.HaiConnector
import Fab.SingleExecution
import Fab.Fetchers
import Fab.CompleteFetch
import Fab.GmailWindow
import Fab.PhotosPicker
import Fab.PickerSessions
import Fab.CloseReadiness
import Fab.CloseEvidence
import Fab.ReportEvidence
import Fab.RuntimeLease
import Fab.Memberships
import Fab.WorkflowExecutors
import Fab.EntitySweeps
import Fab.ReportPeriods
import Fab.SecretKeeping
import Fab.ControlCenterReads
import Fab.WaveFields
import Fab.Amounts
import Fab.Matcher
import Fab.DuplicateDetector
import Fab.DuplicateSearch
import Fab.DuplicateCycles
import Fab.LineItems
import Fab.ComplianceCounts
import Fab.AssessedFindings
import Fab.ExecutionClaims
import Fab.BoundedListings
import Fab.LineIndices
import Fab.ImportRecords
import Fab.Occurrences
import Fab.Mt940
import Fab.RouteGates
import Fab.RouteRepeats
import Fab.Lib.Sweep
import Fab.ProcessedReviews
import Fab.Lib.Sliding
import Fab.RateLimiter
import Fab.Admissions
import Fab.Lib.Groups
import Fab.ReportFigures
import Fab.QualityBlockers
import Fab.Lib.Signs
import Fab.WaveTransactions
import Fab.WaveLines
import Fab.ProjectedExports
import Fab.ExactMatches
import Fab.DueRetries
import Fab.VendorBatches
import Fab.ReviewBatches
import Fab.Lib.Floors
import Fab.DueSlots
import Fab.Registrations
import Fab.Lib.Regex
import Fab.AmountPattern
import Fab.Lib.Pages
import Fab.WorkItemPages
import Fab.EntityCapture
import Fab.FalseRevisions
import Fab.FolderIntake
import Fab.DeliveredContents
import Fab.PendingProbe
import Fab.Redaction
import Fab.RepeatedRequests
import Fab.Lib.Canonical
import Fab.Lib.Percent
import Fab.Lib.Url
import Fab.OperatorTargets
import Fab.StripeWebhook
import Fab.Lib.Json
import Fab.Lib.JsonText
import Fab.Lib.JsonNames
import Fab.OperationIds
import Fab.Lib.StableSort
import Fab.MasterLedger
import Fab.MasterLedgerProjection
import Fab.MijngeldzakenSurface
import Fab.DraftChecksums
import Fab.WaveGate
import Fab.PickerCollection
import Fab.Sanitizer
import Fab.Lib.Since
import Fab.Approvals
