import SharedContext.Reducer.Spaces

/-!
# Candidate confirmations and engineering references

A confirmation is kept when its Candidate, revision, publication, association,
Space, engineering references and final content all agree; an engineering
reference when its target revision is projected.
-/

namespace SharedContext

/-! ### Lookups in the Space projection -/

section Lookups

variable (spaces : BTreeMap SpaceId ContextSpaceProjection)

def contextIn? (spaceId : SpaceId) (contextId : ContextId) : Option ContextProjection :=
  (spaces.get? spaceId).bind fun space => space.contexts.get? contextId

def contextHolder? (contextId : ContextId) : Option (SpaceId × ContextProjection) :=
  (first? (spaces.filter fun _ space => contextId ∈ space.contexts.keys).keys).bind
    fun spaceId => (contextIn? spaces spaceId contextId).map fun context => (spaceId, context)

end Lookups

theorem contextIn?_projectSpaces {facts : Facts} {spaceId : SpaceId} {contextId : ContextId}
    {context : ContextProjection} :
    contextIn? (projectSpaces facts) spaceId contextId = some context ↔
      (spaceId, contextId) ∈ (validContexts facts).keys ∧
        projectContext facts (spaceId, contextId) = context := by
  simp only [contextIn?, Option.bind_eq_some_iff, get?_projectSpaces]
  constructor
  · rintro ⟨_, ⟨-, rfl⟩, found⟩
    exact get?_projectContexts.mp found
  · rintro ⟨valid, isContext⟩
    exact ⟨_, ⟨mem_validSpaces_of_valid valid, rfl⟩, get?_projectContexts.mpr ⟨valid, isContext⟩⟩

theorem contextHolder?_projectSpaces {facts : Facts} {spaceId : SpaceId} {contextId : ContextId}
    {context : ContextProjection} :
    contextHolder? (projectSpaces facts) contextId = some (spaceId, context) ↔
      (spaceId, contextId) ∈ (validContexts facts).keys ∧
        projectContext facts (spaceId, contextId) = context := by
  have holders : ∀ holder, holder ∈ ((projectSpaces facts).filter fun _ space =>
      contextId ∈ space.contexts.keys).keys ↔ (holder, contextId) ∈ (validContexts facts).keys := by
    intro holder
    simp only [BTreeMap.mem_keys_iff, BTreeMap.get?_filter_eq_some, get?_projectSpaces]
    constructor
    · rintro ⟨_, ⟨-, rfl⟩, context, found⟩
      exact BTreeMap.mem_keys_iff.mp (get?_projectContexts.mp found).1
    · intro valid
      have isValid := BTreeMap.mem_keys_iff.mpr valid
      exact ⟨_, ⟨mem_validSpaces_of_valid isValid, rfl⟩, _, get?_projectContexts.mpr ⟨isValid, rfl⟩⟩
  simp only [contextHolder?, Option.bind_eq_some_iff, Option.map_eq_some_iff, Prod.mk.injEq]
  constructor
  · rintro ⟨_, -, context, found, rfl, rfl⟩
    exact contextIn?_projectSpaces.mp found
  · rintro ⟨valid, isContext⟩
    have isHolder := (holders spaceId).mpr valid
    obtain ⟨least, isLeast⟩ := Finset.min_of_mem isHolder
    have leastValid := (holders least).mp (Finset.mem_of_min isLeast)
    obtain rfl := validContexts_space_unique leastValid valid
    exact ⟨least, isLeast, context, contextIn?_projectSpaces.mpr ⟨valid, isContext⟩, rfl, rfl⟩

variable (hasher : ContentHasher) (facts : Facts)

/-! ### Candidates -/

def validCandidateNodes : BTreeMap CandidateId CandidateNode :=
  facts.candidates.filter fun candidateId node =>
    node.eventId ∉ facts.invalidEventIds ∧
      ∃ submission ∈ facts.submissions.get? node.candidate.submissionId,
        submission.candidate.candidateId = candidateId

/-! ### Confirmations -/

section Confirmation

variable (confirmation : CandidateConfirmation)

def candidateMatches : Prop :=
  ∃ node ∈ (validCandidateNodes facts).get? confirmation.candidateId,
    node.candidate.submissionId = confirmation.submissionId ∧
      node.candidate.sourceEpisode = confirmation.sourceEpisode

def associationMatches : Prop :=
  ∃ projection ∈ (contextSpaceAssociations facts).get? confirmation.spaceAssociationId,
    projection.eventId = confirmation.causalRefs.spaceAssociationEventId ∧
      projection.association.contextId = confirmation.resultContextId ∧
      projection.association.primarySpaceId = confirmation.primarySpaceId ∧
      projection.association.relatedSpaceIds.toFinset =
        confirmation.relatedSpaceIds.toFinset ∧
      projection.association.origin = .candidateConfirmation confirmation.candidateId

def resultContext? : Option ContextProjection :=
  contextIn? (projectSpaces facts) confirmation.primarySpaceId confirmation.resultContextId

def resultRevision? : Option RevisionProjection :=
  (resultContext? facts confirmation).bind fun context =>
    context.revisions.get? confirmation.resultRevisionId

def resultPublication? : Option Publication :=
  (resultContext? facts confirmation).bind fun context =>
    context.publications.get? confirmation.publicationId

def revisionEventMatches : Prop :=
  ∃ node ∈ facts.contexts.get? confirmation.resultRevisionId,
    node.eventId = confirmation.causalRefs.contextRevisionEventId ∧
      node.spaceId = confirmation.primarySpaceId ∧
      node.contextId = confirmation.resultContextId

def publicationEventMatches : Prop :=
  ∃ node ∈ facts.publications.get? confirmation.publicationId,
    node.eventId = confirmation.causalRefs.publicationEventId ∧
      node.spaceId = confirmation.primarySpaceId ∧
      node.contextId = confirmation.resultContextId

def causalPublicationMatches : Prop :=
  ∃ publication ∈ resultPublication? facts confirmation,
    publication.action = .publish ∧ publication.revisionId = confirmation.resultRevisionId

/-- A confirmation that created its primary Space names the creating event. -/
def createdSpaceMatches : Option SpaceId → Prop
  | some spaceId =>
      ∃ node ∈ facts.spaceCreations.get? spaceId,
        some node.eventId = confirmation.causalRefs.spaceCreatedEventId
  | none => confirmation.causalRefs.spaceCreatedEventId = none

def engineeringReferenceEventsMatch : Prop :=
  ∀ eventId ∈ confirmation.causalRefs.engineeringReferenceEventIds,
    facts.references.Any fun _ node =>
      node.eventId = eventId ∧ node.contextId = confirmation.resultContextId ∧
        node.revisionId = confirmation.resultRevisionId ∧
        node.reference.validate.isOk = true ∧ eventId ∉ facts.invalidEventIds

/-- The edited Candidate and the stored revision both hash to the final content. -/
def contentMatches : Prop :=
  ∃ node ∈ (validCandidateNodes facts).get? confirmation.candidateId,
    ∃ edited ∈ (confirmation.edits.apply node.candidate.content).toOption,
      ∃ revision ∈ resultRevision? facts confirmation,
        contextRevisionContentHash hasher edited = confirmation.finalContentHash ∧
          contextRevisionContentHash hasher (contextRevisionAsDraft revision.revision) =
            confirmation.finalContentHash

def spacesMatch : Prop :=
  confirmation.primarySpaceId ∈ validSpaces facts ∧
    ∀ spaceId ∈ confirmation.relatedSpaceIds, spaceId ∈ validSpaces facts

structure ConfirmationIsValid : Prop where
  candidate : candidateMatches facts confirmation
  association : associationMatches facts confirmation
  revision : (resultRevision? facts confirmation).isSome
  revisionEvent : revisionEventMatches facts confirmation
  causalPublication : causalPublicationMatches facts confirmation
  publicationEvent : publicationEventMatches facts confirmation
  createdSpace : createdSpaceMatches facts confirmation confirmation.createdSpaceId
  engineeringReferences : engineeringReferenceEventsMatch facts confirmation
  content : contentMatches hasher facts confirmation
  spaces : spacesMatch facts confirmation

instance : Decidable (candidateMatches facts confirmation) :=
  inferInstanceAs (Decidable (∃ node ∈ (validCandidateNodes facts).get? _, _ ∧ _))

instance : Decidable (associationMatches facts confirmation) :=
  inferInstanceAs (Decidable (∃ projection ∈ (contextSpaceAssociations facts).get? _,
    _ ∧ _ ∧ _ ∧ _ ∧ _))

instance : Decidable (revisionEventMatches facts confirmation) :=
  inferInstanceAs (Decidable (∃ node ∈ facts.contexts.get? _, _ ∧ _ ∧ _))

instance : Decidable (publicationEventMatches facts confirmation) :=
  inferInstanceAs (Decidable (∃ node ∈ facts.publications.get? _, _ ∧ _ ∧ _))

instance : Decidable (causalPublicationMatches facts confirmation) :=
  inferInstanceAs (Decidable (∃ publication ∈ resultPublication? facts confirmation, _ ∧ _))

instance : DecidablePred (createdSpaceMatches facts confirmation) := fun created =>
  match created with
  | some spaceId =>
      inferInstanceAs (Decidable (∃ node ∈ facts.spaceCreations.get? spaceId,
        some node.eventId = confirmation.causalRefs.spaceCreatedEventId))
  | none =>
      inferInstanceAs (Decidable (confirmation.causalRefs.spaceCreatedEventId = none))

instance : Decidable (engineeringReferenceEventsMatch facts confirmation) :=
  inferInstanceAs (Decidable (∀ eventId ∈ confirmation.causalRefs.engineeringReferenceEventIds,
    facts.references.Any fun _ node => node.eventId = eventId ∧ _ ∧ _ ∧ _ ∧
      eventId ∉ facts.invalidEventIds))

instance : Decidable (contentMatches hasher facts confirmation) :=
  inferInstanceAs (Decidable (∃ node ∈ (validCandidateNodes facts).get? confirmation.candidateId,
    ∃ edited ∈ (confirmation.edits.apply node.candidate.content).toOption,
      ∃ revision ∈ resultRevision? facts confirmation, _ ∧ _))

instance : Decidable (spacesMatch facts confirmation) :=
  inferInstanceAs (Decidable (_ ∧ ∀ spaceId ∈ confirmation.relatedSpaceIds, _))

instance : Decidable (ConfirmationIsValid hasher facts confirmation) :=
  decidable_of_iff
    (candidateMatches facts confirmation ∧ associationMatches facts confirmation ∧
      (resultRevision? facts confirmation).isSome ∧
      revisionEventMatches facts confirmation ∧
      causalPublicationMatches facts confirmation ∧
      publicationEventMatches facts confirmation ∧
      createdSpaceMatches facts confirmation confirmation.createdSpaceId ∧
      engineeringReferenceEventsMatch facts confirmation ∧
      contentMatches hasher facts confirmation ∧ spacesMatch facts confirmation)
    ⟨fun ⟨h1, h2, h3, h4, h5, h6, h7, h8, h9, h10⟩ => ⟨h1, h2, h3, h4, h5, h6, h7, h8, h9, h10⟩,
      fun ⟨h1, h2, h3, h4, h5, h6, h7, h8, h9, h10⟩ => ⟨h1, h2, h3, h4, h5, h6, h7, h8, h9, h10⟩⟩

end Confirmation

/-- The Candidates' only confirmations whose events are not invalid. -/
def confirmationCandidates : BTreeMap CandidateId CandidateConfirmationNode :=
  facts.confirmationsByCandidate.filter fun _ node => node.eventId ∉ facts.invalidEventIds

def candidateConfirmations : BTreeMap ConfirmationId CandidateConfirmationProjection :=
  (((confirmationCandidates facts).filter fun _ node =>
      ConfirmationIsValid hasher facts node.confirmation).rekey
    fun node => node.confirmation.confirmationId).map fun node =>
      ⟨node.eventId, node.confirmation⟩

def confirmationDiagnostics : Finset ReducerDiagnostic :=
  (confirmationCandidates facts).flatMap fun _ node =>
    diagnoseUnless (ConfirmationIsValid hasher facts node.confirmation)
      ⟨.invalidCandidateConfirmation, toString node.confirmation.confirmationId, {node.eventId},
        s!"Candidate Confirmation {node.confirmation.confirmationId} does not match its Candidate, causal association, revision, publication, Space, or final content"⟩

/-! ### Engineering references -/

def referenceCandidates : BTreeMap ReferenceId EngineeringReferenceNode :=
  facts.references.filter fun _ node => node.eventId ∉ facts.invalidEventIds

/-- The projected reference, or the classification and reason of its rejection. -/
def resolveReference (referenceId : ReferenceId) (node : EngineeringReferenceNode) :
    Except (ReducerDiagnosticCode × String) EngineeringReferenceProjection := do
  match node.reference.validate with
  | .error error =>
      throw (.invalidEngineeringReference,
        s!"engineering reference {referenceId} is invalid: {error.message}")
  | .ok () =>
      match contextHolder? (projectSpaces facts) node.contextId with
      | none =>
          throw (.invalidEngineeringReferenceTarget,
            s!"engineering reference {referenceId} targets missing or quarantined context {node.contextId}")
      | some (spaceId, context) =>
          if node.revisionId ∉ context.revisions.keys then
            throw (.invalidEngineeringReferenceTarget,
              s!"engineering reference {referenceId} revision {node.revisionId} does not belong to context {node.contextId}")
          pure ⟨node.eventId, spaceId, node.contextId, node.revisionId, node.reference⟩

def engineeringReferences : BTreeMap ReferenceId EngineeringReferenceProjection :=
  (referenceCandidates facts).filterMap fun referenceId node =>
    (resolveReference facts referenceId node).toOption

def referenceDiagnostics : Finset ReducerDiagnostic :=
  (referenceCandidates facts).flatMap fun referenceId node =>
    match resolveReference facts referenceId node with
    | .ok _ => ∅
    | .error (code, message) => {⟨code, toString referenceId, {node.eventId}, message⟩}

end SharedContext
