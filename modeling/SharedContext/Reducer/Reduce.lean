import SharedContext.Reducer.Conflicts

/-!
# The reducer

`reduce` turns a finite list of events into the domain projection: collect the
definition tables, run the phases on the facts, and quarantine every event
that a diagnostic names.
-/

namespace SharedContext

variable (events : List ReducerEvent)

/-! ### Diagnostics that name the events of the input directly -/

/-- The Contexts whose ownership an event bears witness to. -/
def ReducerEvent.mentionedContexts (event : ReducerEvent) : List ContextId :=
  match event.payload with
  | .contextRevisionAdded _ contextId _
  | .contextReviewed _ contextId _
  | .contextPublicationChanged _ contextId _ => [contextId]
  | .semanticConflictOpened _ conflict =>
      conflict.participants.map ConflictParticipant.contextId
  | .semanticConflictResolutionAdded _ _ resolution =>
      resolution.results.map ConflictResolutionResult.contextId
  | _ => []

local instance lawfulBEq_mentionedContext : LawfulBEq ContextId := inferInstance

def ambiguousOwnerDiagnostics (contextOwners : BTreeMap ContextId (Finset SpaceId)) :
    Finset ReducerDiagnostic :=
  contextOwners.flatMap fun contextId owners =>
    diagnoseUnless (owners.card ≤ 1)
      ⟨.ambiguousContextOwner, toString contextId,
        ((events.filter fun event => contextId ∈ event.mentionedContexts).map
          ReducerEvent.eventId).toFinset,
        s!"context {contextId} is referenced from multiple spaces"⟩

/-- The Spaces an event needs; a creation brings its own. -/
def ReducerEvent.referencedSpaces (event : ReducerEvent) : Finset SpaceId :=
  match event.payload with
  | .candidateConfirmed confirmation =>
      {confirmation.primarySpaceId} ∪ confirmation.relatedSpaceIds.toFinset ∪
        confirmation.createdSpaceId.toFinset
  | .contextSpaceAssociationChanged association =>
      {association.primarySpaceId} ∪ association.relatedSpaceIds.toFinset
  | .contextCandidateCreated _ | .engineeringReferenceRecorded .. | .spaceCreated .. => ∅
  | .spaceIntentRevisionAdded spaceId _ | .contextRevisionAdded spaceId _ _
  | .contextReviewed spaceId _ _ | .contextPublicationChanged spaceId _ _
  | .semanticConflictOpened spaceId _ | .semanticConflictResolutionAdded spaceId _ _ =>
      {spaceId}

def missingSpaceDiagnostics (valid : Finset SpaceId) : Finset ReducerDiagnostic :=
  collect events fun event =>
    event.referencedSpaces.biUnion fun spaceId =>
      diagnoseUnless (spaceId ∈ valid)
        ⟨.missingSpace, toString spaceId, {event.eventId},
          s!"event references missing or quarantined space {spaceId}"⟩

/-! ### Candidate tables -/

section Candidates

variable (hasher : ContentHasher) (definitions : Definitions)

def candidateConfirmationConflicts : BTreeMap CandidateId CandidateConfirmationConflict :=
  (duplicated definitions.confirmationsByCandidate).filterMap fun candidateId nodes =>
    some ⟨candidateId,
      (nodes.map fun node => node.confirmation.confirmationId).toFinset,
      eventIds nodes CandidateConfirmationNode.eventId⟩

/-- The only Candidate of a submission, unless its event is invalid. -/
def uniqueSubmission? (nodes : List CandidateNode) : Option CandidateNode :=
  match nodes with
  | [node] => if node.eventId ∉ definitions.facts.invalidEventIds then some node else none
  | _ => none

def candidateSubmissions : BTreeMap SubmissionId CandidateSubmissionProjection :=
  definitions.submissions.filterMap fun submissionId nodes =>
    (uniqueSubmission? definitions nodes).map fun node =>
      ⟨submissionId, node.candidate.candidateId, node.eventId, node.candidate.sourceEpisode,
        node.candidate.submissionContentHash hasher⟩

def candidateSubmissionConflicts : BTreeMap SubmissionId CandidateSubmissionConflict :=
  definitions.submissions.filterMap fun submissionId nodes =>
    if (uniqueSubmission? definitions nodes).isSome then none
    else some ⟨submissionId, eventIds nodes CandidateNode.eventId,
      (nodes.map fun node => node.candidate.candidateId).toFinset,
      (nodes.map fun node => node.candidate.submissionContentHash hasher).toFinset⟩

end Candidates

def projectCandidates (facts : Facts) : BTreeMap CandidateId CandidateProjection :=
  (facts.candidates.filter fun _ node => node.eventId ∉ facts.invalidEventIds).map fun node =>
    ⟨node.eventId, node.candidate⟩

/-! ### The projection -/

variable (hasher : ContentHasher)

def reduceDiagnostics : Finset ReducerDiagnostic :=
  let definitions := collectDefinitions events
  let facts := definitions.facts
  definitionDiagnostics definitions ∪
    ambiguousOwnerDiagnostics events definitions.contextOwners ∪
    missingSpaceDiagnostics events (validSpaces facts) ∪
    intentDiagnostics facts ∪
    contextDiagnostics facts ∪
    relationDiagnostics facts ∪
    reviewDiagnostics facts ∪
    publicationDiagnostics facts ∪
    associationDiagnostics facts ∪
    confirmationDiagnostics hasher facts ∪
    referenceDiagnostics facts ∪
    conflictDiagnostics facts ∪
    resolutionDiagnostics facts

/-- Reduces a complete in-memory event multiset without consulting storage or
a clock. -/
def reduce : DomainProjection :=
  let definitions := collectDefinitions events
  let facts := definitions.facts
  let conflicts := semanticConflicts facts
  let diagnostics := reduceDiagnostics events hasher
  { candidates := projectCandidates facts
    candidateSubmissions := SharedContext.candidateSubmissions hasher definitions
    candidateSubmissionConflicts := SharedContext.candidateSubmissionConflicts hasher definitions
    candidateConfirmations := SharedContext.candidateConfirmations hasher facts
    candidateConfirmationConflicts := SharedContext.candidateConfirmationConflicts definitions
    contextSpaceAssociations := SharedContext.contextSpaceAssociations facts
    contextSpaceAssociationHeads := SharedContext.contextSpaceAssociationHeads facts
    contextSpaceAssociationConflicts := SharedContext.contextSpaceAssociationConflicts facts
    spaces := blockSpaces conflicts (projectSpaces facts)
    engineeringReferences := SharedContext.engineeringReferences facts
    semanticConflictCandidates := conflictCandidates (projectSpaces facts)
    semanticConflicts := conflicts
    quarantinedEventIds := blamed diagnostics
    diagnostics := diagnostics }

/-! ### Lookups in the result -/

variable {events hasher}

theorem get?_reduce_spaces {spaceId : SpaceId} {space : ContextSpaceProjection} :
    (reduce events hasher).spaces.get? spaceId = some space ↔
      spaceId ∈ validSpaces (factsOf events) ∧
        { spaceId := spaceId
          intent := projectIntent (factsOf events) spaceId
          contexts := (projectContexts (factsOf events) spaceId).filterMap fun contextId context =>
            some (blockAutoInjection
              (openConflicts (semanticConflicts (factsOf events)) spaceId contextId) context) } =
          space := by
  simp only [reduce, blockSpaces, BTreeMap.get?_filterMap, Option.bind_eq_some_iff,
    get?_projectSpaces, Option.some.injEq]
  constructor
  · rintro ⟨_, ⟨isSpace, rfl⟩, rfl⟩
    exact ⟨isSpace, rfl⟩
  · rintro ⟨isSpace, rfl⟩
    exact ⟨_, ⟨isSpace, rfl⟩, rfl⟩

theorem contextIn?_reduce {spaceId : SpaceId} {contextId : ContextId}
    {context : ContextProjection} :
    contextIn? (reduce events hasher).spaces spaceId contextId = some context ↔
      (spaceId, contextId) ∈ (validContexts (factsOf events)).keys ∧
        blockAutoInjection (openConflicts (semanticConflicts (factsOf events)) spaceId contextId)
          (projectContext (factsOf events) (spaceId, contextId)) = context := by
  simp only [contextIn?, Option.bind_eq_some_iff, get?_reduce_spaces]
  constructor
  · rintro ⟨_, ⟨-, rfl⟩, found⟩
    simp only [BTreeMap.get?_filterMap, Option.bind_eq_some_iff, get?_projectContexts,
      Option.some.injEq] at found
    obtain ⟨_, ⟨valid, rfl⟩, rfl⟩ := found
    exact ⟨valid, rfl⟩
  · rintro ⟨valid, rfl⟩
    refine ⟨_, ⟨mem_validSpaces_of_valid valid, rfl⟩, ?_⟩
    simp only [BTreeMap.get?_filterMap, get?_projectContexts.mpr ⟨valid, rfl⟩, Option.bind_some]

/-! ### A small history -/

/-- A hasher for histories without Candidates, in which nothing is hashed. -/
def sampleHasher : ContentHasher where
  draftToVec _ := []
  submissionToVec _ _ := []
  sha256Hex _ := ""

def sampleIntent (revisionId : RevisionId) (parents : List RevisionId) : IntentRevision where
  revisionId := revisionId
  parentRevisionIds := parents
  intent :=
    { title := "Reports"
      problem := "Reports are slow"
      desiredOutcome := "Reports are fast"
      inScope := ["reports"]
      outOfScope := []
      acceptanceConditions := ["one second"]
      domainTerms := [] }
  provisional := false

def sampleCreation : ReducerEvent where
  eventId := ⟨1⟩
  payload := .spaceCreated ⟨1⟩ (sampleIntent ⟨1⟩ [])

def sampleSuccessor : ReducerEvent where
  eventId := ⟨2⟩
  payload := .spaceIntentRevisionAdded ⟨1⟩ (sampleIntent ⟨2⟩ [⟨1⟩])

def sampleOrphan : ReducerEvent where
  eventId := ⟨3⟩
  payload := .spaceIntentRevisionAdded ⟨2⟩ (sampleIntent ⟨3⟩ [⟨1⟩])

example : (reduce [sampleSuccessor, sampleOrphan, sampleCreation] sampleHasher).quarantinedEventIds =
    {sampleOrphan.eventId} := by
  decide +kernel

end SharedContext
