import SharedContext.AgentAdapter.UntrustedPack
import SharedContext.Domain.Artifacts
import SharedContext.Domain.CandidateAnalysis
import SharedContext.Domain.CanonicalJson
import SharedContext.Domain.Confirmation
import SharedContext.Domain.ConfirmationPlan
import SharedContext.Domain.Engineering
import SharedContext.Domain.Hints
import SharedContext.Domain.IdText
import SharedContext.Domain.Ids
import SharedContext.Domain.Json
import SharedContext.Domain.JsonMarks
import SharedContext.Domain.JsonText
import SharedContext.Domain.Model
import SharedContext.Domain.Observations
import SharedContext.Domain.Reservation
import SharedContext.Domain.Task
import SharedContext.Domain.Validation
import SharedContext.Domain.WorkingIntent
import SharedContext.EngineeringGraph.AcceptedDiscoveries
import SharedContext.EngineeringGraph.ArtifactFocus
import SharedContext.EngineeringGraph.BoundedScans
import SharedContext.EngineeringGraph.ContextSnapshots
import SharedContext.EngineeringGraph.ExtractedNames
import SharedContext.EngineeringGraph.Extractors
import SharedContext.EngineeringGraph.GraphBuild
import SharedContext.EngineeringGraph.GraphContexts
import SharedContext.EngineeringGraph.GraphResolution
import SharedContext.EngineeringGraph.GraphSnapshots
import SharedContext.EngineeringGraph.HarmlessSources
import SharedContext.EngineeringGraph.RebuildRuns
import SharedContext.EngineeringGraph.Resolution
import SharedContext.EngineeringGraph.Resolver
import SharedContext.EngineeringGraph.ScanEvidence
import SharedContext.EngineeringGraph.Scanner
import SharedContext.EngineeringGraph.SourceText
import SharedContext.EventSchema.ConfirmationEvents
import SharedContext.EventSchema.EventJson
import SharedContext.EventSchema.Payload
import SharedContext.EventSchema.PlanEvents
import SharedContext.EventSchema.SemanticHash
import SharedContext.GitStore.AppendOnly
import SharedContext.GitStore.Batch
import SharedContext.GitStore.Git
import SharedContext.GitStore.Interleaving
import SharedContext.GitStore.Journal
import SharedContext.GitStore.Recovery
import SharedContext.GitStore.Replay
import SharedContext.GitStore.Resumable
import SharedContext.GitStore.StagedEvents
import SharedContext.GitStore.Writer
import SharedContext.Index.CommitMemo
import SharedContext.Index.SubmissionIndex
import SharedContext.Index.SubmissionIsolation
import SharedContext.Index.SubmissionRows
import SharedContext.Index.TreeDiff
import SharedContext.Installer.CodexTrust
import SharedContext.Installer.DataReset
import SharedContext.Installer.KnowledgeSync
import SharedContext.Installer.ResetRuns
import SharedContext.Installer.ResetSafety
import SharedContext.Installer.SyncRepository
import SharedContext.Installer.SyncRuns
import SharedContext.Installer.SyncSafety
import SharedContext.Installer.TrustSafety
import SharedContext.Library.Ancestry
import SharedContext.Library.BTreeMap
import SharedContext.Library.BigEndian
import SharedContext.Library.BoundedWalk
import SharedContext.Library.Calendar
import SharedContext.Library.CausalGraph
import SharedContext.Library.CommitWalk
import SharedContext.Library.DepthFirst
import SharedContext.Library.DepthSearch
import SharedContext.Library.Destutter
import SharedContext.Library.Edits
import SharedContext.Library.Entries
import SharedContext.Library.Eviction
import SharedContext.Library.FirstFit
import SharedContext.Library.FirstOccurrences
import SharedContext.Library.IndexMap
import SharedContext.Library.Interruptible
import SharedContext.Library.Keyset
import SharedContext.Library.Occurrences
import SharedContext.Library.Positional
import SharedContext.Library.Restriction
import SharedContext.Library.Rounds
import SharedContext.Library.Saturation
import SharedContext.Library.Search
import SharedContext.Library.StreamReader
import SharedContext.Library.Table
import SharedContext.Library.Upsert
import SharedContext.Library.Utf8
import SharedContext.Library.Words
import SharedContext.LocalState.Authorization
import SharedContext.LocalState.Catalog
import SharedContext.LocalState.CatalogDocument
import SharedContext.LocalState.CheckoutOwnership
import SharedContext.LocalState.Credentials
import SharedContext.LocalState.LeaseEviction
import SharedContext.LocalState.LeaseOperations
import SharedContext.LocalState.LeaseRuns
import SharedContext.LocalState.Masking
import SharedContext.LocalState.OwnIdentifiers
import SharedContext.LocalState.Privacy
import SharedContext.LocalState.SessionScope
import SharedContext.LocalState.Stopping
import SharedContext.LogService.Batch
import SharedContext.LogService.Config
import SharedContext.LogService.HookCounts
import SharedContext.LogService.HookDiagnostics
import SharedContext.LogService.HookWindow
import SharedContext.LogService.Initialization
import SharedContext.LogSync.CivilDate
import SharedContext.LogSync.ConfigAgreement
import SharedContext.LogSync.Options
import SharedContext.LogSync.SafePaths
import SharedContext.Mcp.BatchAcceptance
import SharedContext.Mcp.CandidateEvidence
import SharedContext.Mcp.CandidateList
import SharedContext.Mcp.CitedEvidence
import SharedContext.Mcp.ConfirmationBatch
import SharedContext.Mcp.ConflictOpenings
import SharedContext.Mcp.FrameStreams
import SharedContext.Mcp.Framing
import SharedContext.Mcp.TruncatedReviews
import SharedContext.Reducer.Acceptance
import SharedContext.Reducer.Appends
import SharedContext.Reducer.AutoInjection
import SharedContext.Reducer.Composition
import SharedContext.Reducer.Confirmations
import SharedContext.Reducer.Conflicts
import SharedContext.Reducer.Contexts
import SharedContext.Reducer.Dag
import SharedContext.Reducer.DagClassification
import SharedContext.Reducer.Definitions
import SharedContext.Reducer.FactSources
import SharedContext.Reducer.Governance
import SharedContext.Reducer.Independence
import SharedContext.Reducer.Lifecycle
import SharedContext.Reducer.Merging
import SharedContext.Reducer.OrderIndependence
import SharedContext.Reducer.PartProjection
import SharedContext.Reducer.Partition
import SharedContext.Reducer.PlanAcceptance
import SharedContext.Reducer.Preservation
import SharedContext.Reducer.Projection
import SharedContext.Reducer.Quarantine
import SharedContext.Reducer.Reduce
import SharedContext.Reducer.RelationSurvivors
import SharedContext.Reducer.Restriction
import SharedContext.Reducer.Sources
import SharedContext.Reducer.Spaces
import SharedContext.Reducer.Stability
import SharedContext.Search.CandidateAssessments
import SharedContext.Search.CandidateBudget
import SharedContext.Search.CandidateReview
import SharedContext.Search.CandidateTargets
import SharedContext.Search.HopOnlySpaces
import SharedContext.Search.HopOrigins
import SharedContext.Search.LaneB
import SharedContext.Search.LaneBExactness
import SharedContext.Search.RelationHops
import SharedContext.Search.Retrieval
import SharedContext.Search.Trimming
import SharedContext.TaskRuntime.BackfilledPrompts
import SharedContext.TaskRuntime.BuildDecisions
import SharedContext.TaskRuntime.BuildItems
import SharedContext.TaskRuntime.BuildRuns
import SharedContext.TaskRuntime.CandidateBuilds
import SharedContext.TaskRuntime.CandidateReviewPages
import SharedContext.TaskRuntime.CandidateReviews
import SharedContext.TaskRuntime.CandidateTables
import SharedContext.TaskRuntime.ConfirmationInvariant
import SharedContext.TaskRuntime.ConfirmationRuns
import SharedContext.TaskRuntime.ConfirmationSafety
import SharedContext.TaskRuntime.ContextUsage
import SharedContext.TaskRuntime.HintStability
import SharedContext.TaskRuntime.LineageChains
import SharedContext.TaskRuntime.LineageOperations
import SharedContext.TaskRuntime.LineageRetry
import SharedContext.TaskRuntime.LineageRuns
import SharedContext.TaskRuntime.Lineages
import SharedContext.TaskRuntime.PromptRuns
import SharedContext.TaskRuntime.PromptStash
import SharedContext.TaskRuntime.RecordedSpellings
import SharedContext.TaskRuntime.ReferenceDerivation
import SharedContext.TaskRuntime.ReferenceRecords
import SharedContext.TaskRuntime.ReferenceRuns
import SharedContext.TaskRuntime.ReviewChanges
import SharedContext.TaskRuntime.ReviewListings
import SharedContext.TaskRuntime.SpaceGroups
import SharedContext.Telemetry.Event
import SharedContext.Telemetry.FrameLoss
import SharedContext.Telemetry.Stream
import SharedContext.Telemetry.Wire
import SharedContext.Telemetry.WireRoundTrip
