import InstagramArchive.Permalink
import InstagramArchive.Relational.Table
import InstagramArchive.Relational.Transaction
import InstagramArchive.Relational.Execution
import InstagramArchive.Schema
import InstagramArchive.Publishing
import InstagramArchive.Capture
import InstagramArchive.CommandCapture
import InstagramArchive.Resolution
import InstagramArchive.CaptureResolution
import InstagramArchive.Tombstone
import InstagramArchive.AnalysisLinkage
import InstagramArchive.Relay
import InstagramArchive.PrivacyDeletion
import InstagramArchive.Relational.Deduplication
import InstagramArchive.Inbox
import InstagramArchive.System
import InstagramArchive.Reference
import InstagramArchive.Reporting
import InstagramArchive.TerminalAnswers
import InstagramArchive.Provenance
import InstagramArchive.Reopening
import InstagramArchive.Facts
import InstagramArchive.TombstoneFinality
import InstagramArchive.Republishing
import InstagramArchive.Replay
import InstagramArchive.RemovalDelivery
import InstagramArchive.DeliveryOrder
import InstagramArchive.Relational.Integrity
import InstagramArchive.ProviderBudget
import InstagramArchive.Relational.Script
import InstagramArchive.OwnMedia
import InstagramArchive.OwnMediaRefinement
import InstagramArchive.OwnMediaAuthority
import InstagramArchive.OwnMediaCoverage
import InstagramArchive.OwnMediaSteps
import InstagramArchive.OwnMediaCompletion
import InstagramArchive.OwnMediaPublication
import InstagramArchive.Accounts
import InstagramArchive.StaleGeneration
import InstagramArchive.OwnMediaCommit
import InstagramArchive.OwnMediaPages
import InstagramArchive.OwnMediaProgress
import InstagramArchive.OwnMediaSchedule
import InstagramArchive.Relational.Commit
import InstagramArchive.DataExport
import InstagramArchive.DeletionInventory
import InstagramArchive.DataExportParser
import InstagramArchive.EvidenceKeys
import InstagramArchive.DataExportReceipt
import InstagramArchive.ReceiptCalls
import InstagramArchive.ReceiptIdempotence
import InstagramArchive.DataExportWorker
import InstagramArchive.ImportStages
import InstagramArchive.ImportLifecycle
import InstagramArchive.ExportStaging
import InstagramArchive.ImportFrames
import InstagramArchive.ImportIsolation
import InstagramArchive.PermalinkGrammar
import InstagramArchive.ArchivePreflight
import InstagramArchive.ArchiveInspection
import InstagramArchive.ExportParsing
import InstagramArchive.FetchProgress
import InstagramArchive.FetchBound
import InstagramArchive.ConnectionInvariant
import InstagramArchive.AccountLifecycle
import InstagramArchive.RefreshConflict
import InstagramArchive.Relational.Metering
import InstagramArchive.CallAccounting
import InstagramArchive.ProviderCalls
import InstagramArchive.BlobErasure
import InstagramArchive.Relational.Programs
import InstagramArchive.Service
import InstagramArchive.ServiceWrites
import InstagramArchive.RawEvidence
import InstagramArchive.AnalysisLinks
import InstagramArchive.Machine.Unsigned
import InstagramArchive.ReResolution
import InstagramArchive.ReResolutionBudgets
import InstagramArchive.ReResolutionRecheck
import InstagramArchive.BackOff
import InstagramArchive.CredentialEnvelope
import InstagramArchive.Machine.Framing
import InstagramArchive.Reprocessing
import InstagramArchive.ReprocessingPlan
import InstagramArchive.ReprocessingRuns
import InstagramArchive.ReprocessingChunks
import InstagramArchive.DeletionReplay
import InstagramArchive.BlobLedger
import InstagramArchive.TaskReferences
import InstagramArchive.Relational.Pool
import InstagramArchive.MediaRetention
import InstagramArchive.MediaStore
import InstagramArchive.MediaErasure
import InstagramArchive.CommandAnswers
import InstagramArchive.ConnectionDeletion
import InstagramArchive.DeletionAcks
import InstagramArchive.SharedHoldings
