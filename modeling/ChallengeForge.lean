import ChallengeForge.LabelledSystem
import ChallengeForge.KeyedTable
import ChallengeForge.ClaimTickets
import ChallengeForge.DomainModel
import ChallengeForge.EvaluationStore
import ChallengeForge.EvaluationWrites
import ChallengeForge.EvaluationQueue
import ChallengeForge.BypassBound
import ChallengeForge.EvaluationFleet
import ChallengeForge.ExecutionOwnership
import ChallengeForge.ResourceRuntime
import ChallengeForge.QueueProgress
import ChallengeForge.ArtifactStorage
import ChallengeForge.DirectoryTree
import ChallengeForge.FilesystemStorage
import ChallengeForge.Reconciliation
import ChallengeForge.IngestionStore
import ChallengeForge.PythonText
import ChallengeForge.SubmissionRequests
import ChallengeForge.RequestProgress
import ChallengeForge.SubmissionTransitions
import ChallengeForge.SubmissionOutcomes
import ChallengeForge.SubmissionContent
import ChallengeForge.IngestionCoverage
import ChallengeForge.ArtifactReferences
import ChallengeForge.ChallengeLifecycle
import ChallengeForge.CanonicalText
import ChallengeForge.Chunking
import ChallengeForge.DocumentChunks
import ChallengeForge.ArtifactProcessing
import ChallengeForge.IngestionWorkers
import ChallengeForge.IngestionCompleteness
import ChallengeForge.AcceptanceGate
import ChallengeForge.PublishedAcceptance
import ChallengeForge.IdempotentCreation
import ChallengeForge.SpanCover
import ChallengeForge.TextLines
import ChallengeForge.ChunkCover
import ChallengeForge.StagedRuns
import ChallengeForge.ProgressivePolicy
import ChallengeForge.ProgressiveEvaluation
import ChallengeForge.DeferralTransparency
import ChallengeForge.EvaluationWorkers
import ChallengeForge.EvaluationLifecycle
import ChallengeForge.EvaluationStages
import ChallengeForge.AttemptBudget
import ChallengeForge.IngestionLifecycle
import ChallengeForge.HostProcesses
import ChallengeForge.StaleContainment
import ChallengeForge.StageRunners
import ChallengeForge.ModeAgreement
import ChallengeForge.ProgressiveRecords
import ChallengeForge.EvaluationRecords
import ChallengeForge.StageExecution
import ChallengeForge.HeavySlots
import ChallengeForge.StorageMap
import ChallengeForge.OrphanReclaim
import ChallengeForge.ReadAccess
import ChallengeForge.AcceptedMetadata
import ChallengeForge.ChunkRows
import ChallengeForge.LostOwnership
import ChallengeForge.StorageFaults
import ChallengeForge.NameLimits
import ChallengeForge.ArtifactWrites
import ChallengeForge.InteractiveHint
import ChallengeForge.Debouncing
import ChallengeForge.LatencyFeedback
import ChallengeForge.ConcurrencyEnvelope
import ChallengeForge.LoadMonotone
import ChallengeForge.Outline
import ChallengeForge.HeadingChains
import ChallengeForge.ChunkHeadings
import ChallengeForge.CanonicalLaws
import ChallengeForge.LikePattern
import ChallengeForge.LexicalRetrieval
import ChallengeForge.Coalescing
import ChallengeForge.StreamCap
import ChallengeForge.LineProvenance
import ChallengeForge.SlidingWindow
import ChallengeForge.OrderStatistics
import ChallengeForge.DoubleRounding
import ChallengeForge.RollingWindow
import ChallengeForge.TableCounting
import ChallengeForge.QueuePosition
import ChallengeForge.EvaluationViews
import ChallengeForge.EvaluationPlatform
import ChallengeForge.BacklogHealth
import ChallengeForge.RuntimeStateRow
import ChallengeForge.IngestionDrain
import ChallengeForge.RetrievalProvenance
import ChallengeForge.PrefixCodes
import ChallengeForge.JsonText
import ChallengeForge.JsonOrder
import ChallengeForge.JsonNesting
import ChallengeForge.RequestFingerprint
import ChallengeForge.UploadStreaming
import ChallengeForge.StagedPublication
import ChallengeForge.ArtifactUpload
import ChallengeForge.SampledWatch
import ChallengeForge.ExecutionMonitor
