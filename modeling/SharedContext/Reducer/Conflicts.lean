import SharedContext.Reducer.Confirmations

/-!
# Semantic conflicts

Which pairs of accepted Contexts need review, which declared conflicts refer
to valid publications with one overlapping topic, and whether the heads of a
conflict's resolution graph settle it.  An open conflict blocks the automatic
injection of every participant.
-/

namespace SharedContext

/-! ### Overlap of applicability snapshots -/

def scopeDimensionOverlaps (left right : List String) : Bool :=
  left.isEmpty || right.isEmpty || left.any fun value => right.any fun other => value == other

def applicabilityOverlaps (left right : Applicability) : Bool :=
  scopeDimensionOverlaps left.domains right.domains &&
    scopeDimensionOverlaps left.platforms right.platforms &&
    scopeDimensionOverlaps left.conditions right.conditions

def ContextKind.isGoverned : ContextKind → Bool
  | .decision | .contract => true
  | _ => false

/-! ### Conflict candidates -/

def semanticCandidateParticipant (context : ContextProjection) :
    Option (ConflictParticipant × ContextRevision) :=
  match context.governance with
  | .accepted publicationId revisionId =>
      (context.revisions.get? revisionId).bind fun projection =>
        if projection.revision.kind.isGoverned then
          some (⟨context.contextId, revisionId, publicationId⟩, projection.revision)
        else none
  | _ => none

def conflictCandidate (spaceId : SpaceId) (left right : ContextProjection) :
    Option SemanticConflictCandidate :=
  match semanticCandidateParticipant left, semanticCandidateParticipant right with
  | some (leftParticipant, leftRevision), some (rightParticipant, rightRevision) =>
      match leftRevision.topicKey, rightRevision.topicKey with
      | some leftTopic, some rightTopic =>
          if leftTopic = rightTopic ∧
              applicabilityOverlaps leftRevision.applicability rightRevision.applicability then
            some ⟨spaceId, leftTopic, [leftParticipant, rightParticipant]⟩
          else none
      | _, _ => none
  | _, _ => none

/-- One candidate for every qualifying pair, the lesser Context first. -/
def conflictCandidates (spaces : BTreeMap SpaceId ContextSpaceProjection) :
    Finset SemanticConflictCandidate :=
  spaces.flatMap fun spaceId space =>
    space.contexts.flatMap fun leftId left =>
      space.contexts.flatMap fun rightId right =>
        if leftId < rightId then (conflictCandidate spaceId left right).toFinset else ∅

/-! ### Declared conflicts -/

/-- The revision of a participant whose references are valid. -/
def participantRevision? (spaces : BTreeMap SpaceId ContextSpaceProjection) (spaceId : SpaceId)
    (participant : ConflictParticipant) : Option ContextRevision :=
  (contextIn? spaces spaceId participant.contextId).bind fun context =>
    (context.publications.get? participant.publicationId).bind fun publication =>
      (context.revisions.get? participant.revisionId).bind fun projection =>
        if publication.action = .publish ∧ publication.revisionId = participant.revisionId ∧
            projection.revision.kind.isGoverned then
          some projection.revision
        else none

/-- A traversal succeeds when it does at every item. -/
theorem mapM_eq_some {α β : Type} {step : α → Option β} {items : List α} {results : List β} :
    items.mapM step = some results ↔
      List.Forall₂ (fun item result => step item = some result) items results := by
  induction items generalizing results with
  | nil =>
      rw [List.mapM_nil, List.forall₂_nil_left_iff]
      exact ⟨fun same => (Option.some.inj same).symm, fun same => same ▸ rfl⟩
  | cons item items ih =>
      simp only [List.mapM_cons, Option.bind_eq_bind, Option.bind_eq_some_iff, Option.pure_def,
        Option.some.injEq, List.forall₂_cons_left_iff, ih]
      constructor
      · rintro ⟨first, found, rest, isRest, rfl⟩
        exact ⟨first, rest, found, isRest, rfl⟩
      · rintro ⟨first, rest, found, isRest, rfl⟩
        exact ⟨first, found, rest, isRest, rfl⟩

theorem exists_of_forall₂ {α β : Type} {related : α → β → Prop} {items : List α}
    {results : List β} (all : List.Forall₂ related items results) {item : α}
    (member : item ∈ items) : ∃ result ∈ results, related item result := by
  induction all with
  | nil => cases member
  | cons here _ ih =>
      rcases List.mem_cons.mp member with rfl | inTail
      · exact ⟨_, List.mem_cons_self, here⟩
      · obtain ⟨result, isResult, isRelated⟩ := ih inTail
        exact ⟨result, List.mem_cons_of_mem _ isResult, isRelated⟩

def participantsOverlap (conflict : SemanticConflict) (revisions : List ContextRevision) : Prop :=
  (revisions.Pairwise fun left right => left.topicKey = right.topicKey ∧
    applicabilityOverlaps left.applicability right.applicability) ∧
  ∀ revision ∈ revisions,
    applicabilityOverlaps conflict.applicability revision.applicability

instance (conflict : SemanticConflict) (revisions : List ContextRevision) :
    Decidable (participantsOverlap conflict revisions) :=
  inferInstanceAs (Decidable (_ ∧ _))

def conflictIsValid (spaces : BTreeMap SpaceId ContextSpaceProjection) (node : ConflictNode) :
    Prop :=
  node.spaceId ∈ spaces.keys ∧
    ∃ revisions ∈ node.conflict.participants.mapM (participantRevision? spaces node.spaceId),
      participantsOverlap node.conflict revisions

instance (spaces : BTreeMap SpaceId ContextSpaceProjection) :
    DecidablePred (conflictIsValid spaces) :=
  fun node => inferInstanceAs (Decidable (_ ∧ ∃ revisions ∈
    node.conflict.participants.mapM (participantRevision? spaces node.spaceId), _))

variable (facts : Facts)

def conflictNodes : BTreeMap ConflictId ConflictNode :=
  facts.conflicts.filter fun _ node => node.eventId ∉ facts.invalidEventIds

def validConflicts : BTreeMap ConflictId ConflictNode :=
  (conflictNodes facts).filter fun _ node => conflictIsValid (projectSpaces facts) node

def conflictDiagnostics : Finset ReducerDiagnostic :=
  (conflictNodes facts).flatMap fun conflictId node =>
    diagnoseUnless (conflictIsValid (projectSpaces facts) node)
      ⟨.invalidSemanticConflictReference, toString conflictId, {node.eventId},
        s!"semantic conflict {conflictId} must reference valid same-space publish nodes with one overlapping topic"⟩

/-! ### Resolutions -/

def ResolutionNode.parents (node : ResolutionNode) : List ResolutionId :=
  node.resolution.previousResolutionIds

def resolutionNodes : BTreeMap ResolutionId ResolutionNode :=
  facts.resolutions.filter fun _ node => node.eventId ∉ facts.invalidEventIds

def resolutionConflictIsValid (node : ResolutionNode) : Prop :=
  ∃ conflict ∈ (validConflicts facts).get? node.conflictId, conflict.spaceId = node.spaceId

instance : DecidablePred (resolutionConflictIsValid facts) := fun node =>
  inferInstanceAs (Decidable (∃ conflict ∈ (validConflicts facts).get? node.conflictId, _))

def participantContexts (conflict : SemanticConflict) : Finset ContextId :=
  (conflict.participants.map ConflictParticipant.contextId).toFinset

/-- The Context a valid conflict's participant or resolution result refers to. -/
def conflictContext? (conflictNode : ConflictNode) (contextId : ContextId) :
    Option ContextProjection :=
  contextIn? (projectSpaces facts) conflictNode.spaceId contextId

/-- A resolution covers every participant with valid revisions and names only
publications of the participants. -/
def resolutionIsValid (conflictNode : ConflictNode) (resolution : ConflictResolution) : Prop :=
  ((resolution.results.map ConflictResolutionResult.contextId).toFinset =
      participantContexts conflictNode.conflict ∧
    ∀ result ∈ resolution.results,
      ∃ context ∈ conflictContext? facts conflictNode result.contextId,
        result.revisionId ∈ context.revisions.keys) ∧
  ∀ publicationId ∈ resolution.relatedPublicationIds,
    ∃ contextId ∈ participantContexts conflictNode.conflict,
      ∃ context ∈ conflictContext? facts conflictNode contextId,
        publicationId ∈ context.publications.keys

instance (conflictNode : ConflictNode) : DecidablePred (resolutionIsValid facts conflictNode) :=
  fun resolution => inferInstanceAs (Decidable ((_ ∧ ∀ result ∈ resolution.results,
      ∃ context ∈ conflictContext? facts conflictNode result.contextId, _) ∧
    ∀ publicationId ∈ resolution.relatedPublicationIds,
      ∃ contextId ∈ participantContexts conflictNode.conflict,
        ∃ context ∈ conflictContext? facts conflictNode contextId, _))

def resolutionsOf (conflictId : ConflictId) (conflictNode : ConflictNode) :
    BTreeMap ResolutionId ResolutionNode :=
  (resolutionNodes facts).filter fun _ node =>
    node.conflictId = conflictId ∧ node.spaceId = conflictNode.spaceId

def resolutionCandidates (conflictId : ConflictId) (conflictNode : ConflictNode) :
    BTreeMap ResolutionId ResolutionNode :=
  (resolutionsOf facts conflictId conflictNode).filter fun _ node =>
    resolutionIsValid facts conflictNode node.resolution

def reducedResolutions (conflictId : ConflictId) (conflictNode : ConflictNode) :
    ReducedDag ResolutionId ResolutionNode :=
  reduceDag (resolutionCandidates facts conflictId conflictNode) ResolutionNode.eventId
    ResolutionNode.parents .invalidResolutionReference .resolutionCycle
    "semantic conflict resolution"

def resolutionDiagnostics : Finset ReducerDiagnostic :=
  (resolutionNodes facts).flatMap (fun _ node =>
    diagnoseUnless (resolutionConflictIsValid facts node)
      ⟨.invalidResolutionReference, toString node.resolution.resolutionId, {node.eventId},
        s!"resolution {node.resolution.resolutionId} references a missing, quarantined, or cross-space conflict"⟩) ∪
  (validConflicts facts).flatMap fun conflictId conflictNode =>
    (resolutionsOf facts conflictId conflictNode).flatMap (fun _ node =>
      diagnoseUnless (resolutionIsValid facts conflictNode node.resolution)
        ⟨.invalidResolutionReference, toString node.resolution.resolutionId, {node.eventId},
          s!"resolution {node.resolution.resolutionId} must cover every participant with valid same-conflict revisions and publications"⟩) ∪
    (reducedResolutions facts conflictId conflictNode).diagnostics

/-! ### Status -/

def currentPublicationHeads (conflictNode : ConflictNode) : Finset PublicationId :=
  (participantContexts conflictNode.conflict).biUnion fun contextId =>
    (conflictContext? facts conflictNode contextId).elim ∅ ContextProjection.publicationHeads

def publicationsConverged (conflictNode : ConflictNode) : Prop :=
  ∀ contextId ∈ participantContexts conflictNode.conflict,
    ∃ context ∈ conflictContext? facts conflictNode contextId,
      context.publicationHeads.card = 1

instance : DecidablePred (publicationsConverged facts) := fun conflictNode =>
  inferInstanceAs (Decidable (∀ contextId ∈ participantContexts conflictNode.conflict,
    ∃ context ∈ conflictContext? facts conflictNode contextId, _))

def reasonWhen (holds : Prop) [Decidable holds] (reason : SemanticConflictOpenReason) :
    Finset SemanticConflictOpenReason :=
  if holds then {reason} else ∅

theorem reasonWhen_congr {first second : Prop} [Decidable first] [Decidable second]
    {reason : SemanticConflictOpenReason} (same : first ↔ second) :
    reasonWhen first reason = reasonWhen second reason :=
  if_congr same rfl rfl

/-- The source indexes the resolutions by the only head; heads are always keys. -/
def conflictStatus (conflictNode : ConflictNode)
    (resolutions : BTreeMap ResolutionId ResolutionNode) (resolutionHeads : Finset ResolutionId) :
    SemanticConflictStatus :=
  let diverged := reasonWhen (¬ publicationsConverged facts conflictNode)
    .publicationHeadsNotConverged
  match (sole? resolutionHeads).bind fun resolutionId =>
      (resolutions.get? resolutionId).map fun node => (resolutionId, node.resolution) with
  | some (resolutionId, resolution) =>
      let reasons := diverged ∪
        reasonWhen
          (resolution.relatedPublicationIds.toFinset ≠ currentPublicationHeads facts conflictNode)
          .resolutionDoesNotCoverCurrentPublicationHeads
      if reasons = ∅ then .resolved resolutionId else .open reasons
  | none =>
      .open (reasonWhen (resolutionHeads = ∅) .noResolution ∪
        reasonWhen (resolutionHeads ≠ ∅) .resolutionConflict ∪ diverged)

def projectConflict (conflictId : ConflictId) (conflictNode : ConflictNode) :
    SemanticConflictProjection :=
  let reduced := reducedResolutions facts conflictId conflictNode
  { spaceId := conflictNode.spaceId
    conflict := conflictNode.conflict
    resolutions := reduced.nodes.map ResolutionNode.resolution
    resolutionHeads := reduced.heads
    status := conflictStatus facts conflictNode reduced.nodes reduced.heads }

def semanticConflicts : BTreeMap ConflictId SemanticConflictProjection :=
  (validConflicts facts).filterMap fun conflictId conflictNode =>
    some (projectConflict facts conflictId conflictNode)

/-! ### Blocking automatic injection -/

def SemanticConflictStatus.isOpen : SemanticConflictStatus → Bool
  | .open _ => true
  | .resolved _ => false

/-- The open conflicts of a Space in which a Context participates. -/
def openConflicts (conflicts : BTreeMap ConflictId SemanticConflictProjection)
    (spaceId : SpaceId) (contextId : ContextId) : Finset ConflictId :=
  (conflicts.filter fun _ conflict => conflict.status.isOpen = true ∧
    conflict.spaceId = spaceId ∧ contextId ∈ participantContexts conflict.conflict).keys

def blockAutoInjection (blocking : Finset ConflictId) (context : ContextProjection) :
    ContextProjection :=
  { context with
    autoInjection :=
      { eligible := context.autoInjection.eligible && decide (blocking = ∅)
        blockers := context.autoInjection.blockers ∪
          blocking.image .unresolvedSemanticConflict } }

def blockSpaces (conflicts : BTreeMap ConflictId SemanticConflictProjection)
    (spaces : BTreeMap SpaceId ContextSpaceProjection) :
    BTreeMap SpaceId ContextSpaceProjection :=
  spaces.filterMap fun spaceId space =>
    some { space with
      contexts := space.contexts.filterMap fun contextId context =>
        some (blockAutoInjection (openConflicts conflicts spaceId contextId) context) }

end SharedContext
