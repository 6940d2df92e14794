import LedgeTopOps.CopyForward
import LedgeTopOps.IncidentAlerts
import LedgeTopOps.SnapshotAccounting
import LedgeTopOps.ReplayProtection
import LedgeTopOps.DeliveryOrder
import LedgeTopOps.QueueRoundTrip
import LedgeTopOps.HydrationProtocol
import LedgeTopOps.CallbackLifecycle
import LedgeTopOps.MeasurementProtocol
import LedgeTopOps.FolderHistory
import LedgeTopOps.PublicationCanonical
import LedgeTopOps.JobBriefConcurrency
import LedgeTopOps.DeliveryReceiptOrder
import LedgeTopOps.DeliveryNoticeHistory
import LedgeTopOps.DownloadIntegrity
import LedgeTopOps.ProjectionConvergence
import LedgeTopOps.StorageJournal
import LedgeTopOps.RequestDraftConcurrency
import LedgeTopOps.PortalBatchAgreement
import LedgeTopOps.WorkspaceManagerRuns
import LedgeTopOps.CloudTransfers
import LedgeTopOps.DropboxImportHistory
import LedgeTopOps.IncomingCustody
import LedgeTopOps.RequestAttachmentRuns
import LedgeTopOps.RendererExclusion
import LedgeTopOps.ThumbnailHandoffRuns
import LedgeTopOps.StoredThumbnailRuns
import LedgeTopOps.TrashPurgeRuns
import LedgeTopOps.ProcessingNoticeRuns
import LedgeTopOps.SopRuns
import LedgeTopOps.ProjectOverlayRuns
import LedgeTopOps.PortalNoticeRuns
import LedgeTopOps.WorkContextAgreement
import LedgeTopOps.AirspaceRuns
import LedgeTopOps.MemoryAttachmentRuns
import LedgeTopOps.ReadyPromotionRuns
import LedgeTopOps.ViewerEventRuns
import LedgeTopOps.InventoryRuns
import LedgeTopOps.CatalogStaging
import LedgeTopOps.LateRequests
import LedgeTopOps.ViewerPayloadAcceptance
import LedgeTopOps.TransferCancellation
import LedgeTopOps.ZipPlan
import LedgeTopOps.ZipNameSeparators
import LedgeTopOps.ContentSupersets
import LedgeTopOps.ImportAdoption
import LedgeTopOps.ProviderSubmission
import LedgeTopOps.ThumbnailBackfill
import LedgeTopOps.DerivativeReservations
import LedgeTopOps.IncomingZip
import LedgeTopOps.ImageLocationExif
import LedgeTopOps.OutboxRotation
import LedgeTopOps.NotificationTurns
import LedgeTopOps.RetainedChunks
import LedgeTopOps.CsvRows
import LedgeTopOps.StoragePaths
