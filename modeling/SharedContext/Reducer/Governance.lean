import SharedContext.Reducer.Contexts

/-!
# Reviews, publications and Space associations

The phases over the facts attached to a valid Context.  Each one drops the
facts that reference something invalid and then validates the causal graph of
what is left.
-/

namespace SharedContext

variable (facts : Facts)

/-! ### Reviews -/

def ReviewNode.key (node : ReviewNode) : ContextKey :=
  (node.spaceId, node.contextId)

def reviewTargetIsValid (node : ReviewNode) : Prop :=
  node.review.revisionId ∈ (validRevisions facts node.key).keys

instance : DecidablePred (reviewTargetIsValid facts) :=
  fun node => inferInstanceAs (Decidable (node.review.revisionId ∈ _))

def reviewCandidates : BTreeMap ReviewId ReviewNode :=
  facts.reviews.filter fun _ node => node.eventId ∉ facts.invalidEventIds

def reviewNodes : BTreeMap ReviewId ReviewNode :=
  (reviewCandidates facts).filter fun _ node => reviewTargetIsValid facts node

def reviewDiagnostics : Finset ReducerDiagnostic :=
  (reviewCandidates facts).flatMap fun _ node =>
    diagnoseUnless (reviewTargetIsValid facts node)
      ⟨.invalidReviewReference, toString node.review.reviewId, {node.eventId},
        s!"review {node.review.reviewId} does not reference a valid revision in its context"⟩

/-- The valid reviews of one Context by the event that recorded them. -/
def validReviews (key : ContextKey) : BTreeMap EventId ReviewNode :=
  ((reviewNodes facts).filter fun _ node => node.key = key).rekey ReviewNode.eventId

def reviewByEvent : BTreeMap EventId ReviewNode :=
  (reviewNodes facts).rekey ReviewNode.eventId

/-! ### Publications -/

def PublicationNode.key (node : PublicationNode) : ContextKey :=
  (node.spaceId, node.contextId)

def PublicationNode.parents (node : PublicationNode) : List PublicationId :=
  node.publication.previousPublicationIds

def reviewsAreValid (node : PublicationNode) : Prop :=
  ∀ eventId ∈ node.publication.reviewEventIds,
    ∃ review ∈ (reviewByEvent facts).get? eventId,
      review.key = node.key ∧ review.review.revisionId = node.publication.revisionId

def publicationReferencesAreValid (node : PublicationNode) : Prop :=
  node.publication.revisionId ∈ (validRevisions facts node.key).keys ∧
    reviewsAreValid facts node

instance : DecidablePred (publicationReferencesAreValid facts) :=
  fun node => inferInstanceAs (Decidable (_ ∈ _ ∧
    ∀ eventId ∈ node.publication.reviewEventIds,
      ∃ review ∈ (reviewByEvent facts).get? eventId,
        review.key = node.key ∧ review.review.revisionId = node.publication.revisionId))

def livePublications : BTreeMap PublicationId PublicationNode :=
  facts.publications.filter fun _ node => node.eventId ∉ facts.invalidEventIds

def publicationCandidates (key : ContextKey) : BTreeMap PublicationId PublicationNode :=
  (livePublications facts).filter fun _ node =>
    node.key = key ∧ publicationReferencesAreValid facts node

def reducedPublications (key : ContextKey) : ReducedDag PublicationId PublicationNode :=
  reduceDag (publicationCandidates facts key) PublicationNode.eventId PublicationNode.parents
    .invalidPublicationReference .publicationCycle "publication"

def validPublications (key : ContextKey) : BTreeMap PublicationId PublicationNode :=
  (reducedPublications facts key).nodes

def publicationHeads (key : ContextKey) : Finset PublicationId :=
  (reducedPublications facts key).heads

def publicationDiagnostics : Finset ReducerDiagnostic :=
  (livePublications facts).flatMap (fun _ node =>
    diagnoseUnless (node.key ∈ (validContexts facts).keys)
      ⟨.invalidPublicationReference, toString node.publication.publicationId, {node.eventId},
        s!"publication {node.publication.publicationId} belongs to a missing or quarantined context"⟩) ∪
  (livePublications facts).flatMap (fun _ node =>
    diagnoseUnless (node.key ∈ (validContexts facts).keys →
        publicationReferencesAreValid facts node)
      ⟨.invalidPublicationReference, toString node.publication.publicationId, {node.eventId},
        s!"publication {node.publication.publicationId} does not reference a valid same-context revision/review"⟩) ∪
  (validContexts facts).keys.biUnion fun key => (reducedPublications facts key).diagnostics

/-! ### Context-to-Space associations -/

def ContextSpaceAssociationNode.contextId (node : ContextSpaceAssociationNode) : ContextId :=
  node.association.contextId

def ContextSpaceAssociationNode.parents (node : ContextSpaceAssociationNode) :
    List SpaceAssociationId :=
  node.association.previousAssociationIds

/-- The Space of a Context that is referenced from exactly one. -/
def owner? (contextId : ContextId) : Option SpaceId :=
  (facts.contextOwners.get? contextId).bind sole?

/-- The Candidate an association says it stems from is defined exactly once. -/
def originCandidateExists : ContextSpaceAssociationOrigin → Prop
  | .candidateConfirmation candidateId =>
      ∃ node ∈ facts.candidates.get? candidateId, node.eventId ∉ facts.invalidEventIds ∧
        (facts.submissions.get? node.candidate.submissionId).isSome
  | .correction => True

def ContextSpaceAssociationOrigin.isCandidateConfirmation :
    ContextSpaceAssociationOrigin → Bool
  | .candidateConfirmation _ => true
  | .correction => false

def associationReferencesAreValid (node : ContextSpaceAssociationNode) : Prop :=
  (node.association.primarySpaceId ∈ validSpaces facts ∧
    ∀ spaceId ∈ node.association.relatedSpaceIds, spaceId ∈ validSpaces facts) ∧
  (∃ spaceId ∈ owner? facts node.contextId,
    (spaceId, node.contextId) ∈ (validContexts facts).keys) ∧
  (node.association.origin.isCandidateConfirmation = true →
    owner? facts node.contextId = some node.association.primarySpaceId) ∧
  originCandidateExists facts node.association.origin

instance : DecidablePred (originCandidateExists facts) := fun origin =>
  match origin with
  | .candidateConfirmation candidateId =>
      inferInstanceAs (Decidable (∃ node ∈ facts.candidates.get? candidateId,
        node.eventId ∉ facts.invalidEventIds ∧
          (facts.submissions.get? node.candidate.submissionId).isSome))
  | .correction => inferInstanceAs (Decidable True)

instance : DecidablePred (associationReferencesAreValid facts) := fun _ =>
  inferInstanceAs (Decidable ((_ ∧ _) ∧ _ ∧ (_ → _) ∧ _))

def associationsOf (contextId : ContextId) :
    BTreeMap SpaceAssociationId ContextSpaceAssociationNode :=
  facts.associations.filter fun _ node =>
    node.contextId = contextId ∧ node.eventId ∉ facts.invalidEventIds

def associationCandidates (contextId : ContextId) :
    BTreeMap SpaceAssociationId ContextSpaceAssociationNode :=
  (associationsOf facts contextId).filter fun _ node => associationReferencesAreValid facts node

def reducedAssociations (contextId : ContextId) :
    ReducedDag SpaceAssociationId ContextSpaceAssociationNode :=
  reduceDag (associationCandidates facts contextId) ContextSpaceAssociationNode.eventId
    ContextSpaceAssociationNode.parents .invalidSpaceAssociationReference
    .spaceAssociationCycle "Context Space Association"

/-- An association is among the candidates of its own Context only. -/
def contextSpaceAssociations :
    BTreeMap SpaceAssociationId ContextSpaceAssociationProjection :=
  facts.associations.filterMap fun id node =>
    if id ∈ (reducedAssociations facts node.contextId).nodes.keys then
      some ⟨node.eventId, node.association⟩
    else none

def contextSpaceAssociationHeads : BTreeMap ContextId (Finset SpaceAssociationId) :=
  .ofKeys facts.associationContextIds fun contextId =>
    let heads := (reducedAssociations facts contextId).heads
    if heads = ∅ then none else some heads

def contextSpaceAssociationConflicts : BTreeMap ContextId ContextSpaceAssociationConflict :=
  .ofKeys facts.associationContextIds fun contextId =>
    let heads := (reducedAssociations facts contextId).heads
    if heads.card > 1 then some ⟨contextId, heads⟩ else none

def associationDiagnostics : Finset ReducerDiagnostic :=
  facts.associationContextIds.biUnion fun contextId =>
    (associationsOf facts contextId).flatMap (fun _ node =>
      diagnoseUnless (associationReferencesAreValid facts node)
        ⟨.invalidSpaceAssociationReference, toString node.association.associationId,
          {node.eventId},
          s!"Space Association {node.association.associationId} does not reference valid Spaces and an owned Context"⟩) ∪
    (reducedAssociations facts contextId).diagnostics

end SharedContext
