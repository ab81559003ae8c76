import SharedContext.Reducer.Governance

/-!
# The Space projection

Governance, lifecycle and review summaries of every valid Context, arranged
by Space, and the eligibility for automatic injection before semantic
conflicts are taken into account.
-/

namespace SharedContext

section Governance

variable (publications : BTreeMap PublicationId PublicationNode)
  (heads : Finset PublicationId)

def ContextGovernanceStatus.ofHead (publicationId : PublicationId) (publication : Publication) :
    ContextGovernanceStatus :=
  match publication.action with
  | .publish => .accepted publicationId publication.revisionId
  | .withdraw => .deprecated publicationId publication.revisionId

/-- The source indexes the publications by the head; heads are always keys. -/
def contextGovernance : ContextGovernanceStatus :=
  if heads.card = 0 then .unpublished
  else if heads.card = 1 then
    match (first? heads).bind fun publicationId =>
        (publications.get? publicationId).map fun node =>
          ContextGovernanceStatus.ofHead publicationId node.publication with
    | some governance => governance
    | none => .unpublished
  else .governanceConflict heads

/-- The revisions that a later publication replaced by another revision. -/
def supersededRevisions : Finset RevisionId :=
  publications.flatMap fun _ node =>
    if node.publication.action = .publish then
      collect node.publication.previousPublicationIds fun previousId =>
        (publications.get? previousId).elim ∅ fun previous =>
          if previous.publication.revisionId ≠ node.publication.revisionId then
            {previous.publication.revisionId}
          else ∅
    else ∅

end Governance

def reviewSummary (reviews : BTreeMap EventId ReviewNode) (revisionId : RevisionId) :
    ReviewSummary :=
  let given (verdict : ReviewVerdict) : Bool :=
    reviews.Any fun _ node => node.review.revisionId = revisionId ∧ node.review.verdict = verdict
  match given .approve, given .reject with
  | false, false => .unreviewed
  | true, false => .approved
  | false, true => .rejected
  | true, true => .mixed

def revisionLifecycle (governance : ContextGovernanceStatus) (superseded : Finset RevisionId)
    (revisionId : RevisionId) : RevisionLifecycle :=
  let otherwise : RevisionLifecycle :=
    if revisionId ∈ superseded then .superseded else .candidate
  match governance with
  | .accepted _ current => if current = revisionId then .accepted else otherwise
  | .deprecated _ current => if current = revisionId then .deprecated else otherwise
  | _ => otherwise

def governanceBlockers : ContextGovernanceStatus → Finset AutoInjectionBlocker
  | .accepted .. => ∅
  | .governanceConflict _ => {.governanceConflict}
  | .unpublished | .deprecated .. => {.notAccepted}

variable (facts : Facts)

def projectRevision (key : ContextKey) (governance : ContextGovernanceStatus)
    (revisionId : RevisionId) (node : ContextNode) : RevisionProjection where
  revision := node.revision
  isHead := revisionId ∈ ((contextHeads facts).get? key).getD ∅
  reviewSummary := SharedContext.reviewSummary (validReviews facts key) revisionId
  reviewEventIds :=
    ((validReviews facts key).filter fun _ review => review.review.revisionId = revisionId).keys
  lifecycle :=
    revisionLifecycle governance (supersededRevisions (validPublications facts key)) revisionId

@[simp]
theorem projectRevision_revision (key : ContextKey) (governance : ContextGovernanceStatus)
    (revisionId : RevisionId) (node : ContextNode) :
    (projectRevision facts key governance revisionId node).revision = node.revision :=
  rfl

def projectContext (key : ContextKey) : ContextProjection :=
  let governance := contextGovernance (validPublications facts key) (publicationHeads facts key)
  { contextId := key.2
    revisions := (validRevisions facts key).filterMap fun revisionId node =>
      some (projectRevision facts key governance revisionId node)
    revisionHeads := ((contextHeads facts).get? key).getD ∅
    reviews := (validReviews facts key).map ReviewNode.review
    publications := (validPublications facts key).map PublicationNode.publication
    publicationHeads := publicationHeads facts key
    governance := governance
    autoInjection :=
      { eligible := decide (governanceBlockers governance = ∅)
        blockers := governanceBlockers governance } }

def projectContexts (spaceId : SpaceId) : BTreeMap ContextId ContextProjection :=
  .ofKeys (((validContexts facts).keys.filter fun key => key.1 = spaceId).image Prod.snd)
    fun contextId => some (projectContext facts (spaceId, contextId))

def projectIntent (spaceId : SpaceId) : IntentProjection where
  revisions := (reducedIntents facts spaceId).nodes.map IntentNode.revision
  heads := (reducedIntents facts spaceId).heads

/-- The Spaces before open semantic conflicts block automatic injection. -/
def projectSpaces : BTreeMap SpaceId ContextSpaceProjection :=
  .ofKeys (validSpaces facts) fun spaceId =>
    some ⟨spaceId, projectIntent facts spaceId, projectContexts facts spaceId⟩

/-! ### Lookups in the projection -/

variable {facts}

theorem mem_ownedContexts_of_valid {key : ContextKey} (valid : key ∈ (validContexts facts).keys) :
    key ∈ ownedContexts facts := by
  obtain ⟨revisionId, node, found⟩ := mem_keys_validContexts.mp valid
  exact (get?_validRevisions_eq_some.mp found).1

theorem mem_validSpaces_of_valid {key : ContextKey} (valid : key ∈ (validContexts facts).keys) :
    key.1 ∈ validSpaces facts :=
  (mem_ownedContexts.mp (mem_ownedContexts_of_valid valid)).2

/-- A Context is valid in one Space only. -/
theorem validContexts_space_unique {first second : SpaceId} {contextId : ContextId}
    (firstValid : (first, contextId) ∈ (validContexts facts).keys)
    (secondValid : (second, contextId) ∈ (validContexts facts).keys) : first = second := by
  have firstOwned := (mem_ownedContexts.mp (mem_ownedContexts_of_valid firstValid)).1
  have secondOwned := (mem_ownedContexts.mp (mem_ownedContexts_of_valid secondValid)).1
  have sameOwners := Option.some.inj (firstOwned.symm.trans secondOwned)
  exact Finset.singleton_injective sameOwners

theorem get?_projectContexts {spaceId : SpaceId} {contextId : ContextId}
    {context : ContextProjection} :
    (projectContexts facts spaceId).get? contextId = some context ↔
      (spaceId, contextId) ∈ (validContexts facts).keys ∧
        projectContext facts (spaceId, contextId) = context := by
  simp [projectContexts]

theorem get?_projectSpaces {spaceId : SpaceId} {space : ContextSpaceProjection} :
    (projectSpaces facts).get? spaceId = some space ↔
      spaceId ∈ validSpaces facts ∧
        ⟨spaceId, projectIntent facts spaceId, projectContexts facts spaceId⟩ = space := by
  simp [projectSpaces]

theorem get?_projectContext_revisions {key : ContextKey} {revisionId : RevisionId}
    {projection : RevisionProjection} :
    (projectContext facts key).revisions.get? revisionId = some projection ↔
      ∃ node, (validRevisions facts key).get? revisionId = some node ∧
        projectRevision facts key (projectContext facts key).governance revisionId node =
          projection := by
  simp [projectContext, Option.bind_eq_some_iff]

theorem mem_keys_projectContext_revisions {key : ContextKey} {revisionId : RevisionId} :
    revisionId ∈ (projectContext facts key).revisions.keys ↔
      revisionId ∈ (validRevisions facts key).keys := by
  simp only [BTreeMap.mem_keys_iff, get?_projectContext_revisions]
  constructor
  · rintro ⟨_, node, found, -⟩
    exact ⟨node, found⟩
  · rintro ⟨node, found⟩
    exact ⟨_, node, found, rfl⟩

theorem get?_projectContext_publications {key : ContextKey} {publicationId : PublicationId}
    {publication : Publication} :
    (projectContext facts key).publications.get? publicationId = some publication ↔
      ∃ node, (validPublications facts key).get? publicationId = some node ∧
        node.publication = publication := by
  simp [projectContext]

end SharedContext
