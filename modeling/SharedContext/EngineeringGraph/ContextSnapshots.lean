import SharedContext.EngineeringGraph.Resolver
import SharedContext.Library.DepthSearch
import SharedContext.Reducer.Reduce

/-!
# Context snapshots

A build of the graph captures the Context revisions that references name, and
those that relations between accepted revisions lead to within two steps.
Each snapshot carries the safety decision of the build and the relations to
other snapshots.
-/

namespace SharedContext.EngineeringGraph

structure OwnedContext where
  spaceId : SpaceId
  space : ContextSpaceProjection
  context : ContextProjection

/-- A Space, a Context and a revision, in the order of the source's tuples. -/
abbrev GraphKey := SpaceId ×ₗ ContextId ×ₗ RevisionId

def graphKey (spaceId : SpaceId) (contextId : ContextId) (revisionId : RevisionId) : GraphKey :=
  toLex (spaceId, toLex (contextId, revisionId))

namespace GraphKey

def spaceId (key : GraphKey) : SpaceId :=
  (ofLex key).1

def contextId (key : GraphKey) : ContextId :=
  (ofLex (ofLex key).2).1

def revisionId (key : GraphKey) : RevisionId :=
  (ofLex (ofLex key).2).2

end GraphKey

def maxRelationDepth : Nat :=
  2

/-! ### Status and safety of one revision -/

def graphContextStatus (context : ContextProjection) (lifecycle : RevisionLifecycle) :
    GraphContextStatus :=
  match context.governance with
  | .governanceConflict _ => .governanceConflict
  | _ =>
      match lifecycle with
      | .candidate => .candidate
      | .accepted => .accepted
      | .deprecated => .deprecated
      | .superseded => .superseded

def safetyBlocker : AutoInjectionBlocker → GraphContextSafetyBlocker
  | .notAccepted => .notAccepted
  | .governanceConflict => .governanceConflict
  | .unresolvedSemanticConflict conflictId => .unresolvedSemanticConflict conflictId

def GraphContextSafetyBlocker.conflictId? : GraphContextSafetyBlocker → Option ConflictId
  | .unresolvedSemanticConflict conflictId => some conflictId
  | _ => none

def orderedBlockers (blockers : Finset GraphContextSafetyBlocker) :
    List GraphContextSafetyBlocker :=
  let listed (blocker : GraphContextSafetyBlocker) : List GraphContextSafetyBlocker :=
    if blocker ∈ blockers then [blocker] else []
  listed .notAccepted ++ listed .governanceConflict ++
    (BTreeMap.ordered (blockers.biUnion fun blocker => blocker.conflictId?.toFinset)).map
      .unresolvedSemanticConflict ++
    listed .incompleteEvidence

def graphContextSafety (context : ContextProjection) (revision : ContextRevision)
    (status : GraphContextStatus) : Nat × GraphContextSafety :=
  let evidenceCompleteness := contextEvidenceCompleteness revision
  let blockers := context.autoInjection.blockers.image safetyBlocker ∪
    (if status ≠ .accepted then {.notAccepted} else ∅) ∪
    (if evidenceCompleteness ≠ 1000 ∨ revision.evidence.isEmpty then {.incompleteEvidence} else ∅)
  (evidenceCompleteness,
    { automaticInjectionEligible := status = .accepted && decide (blockers = ∅)
      blockers := orderedBlockers blockers })

def intentTitles (space : ContextSpaceProjection) : Finset String :=
  space.intent.heads.biUnion fun revisionId =>
    ((space.intent.revisions.get? revisionId).map fun revision => revision.intent.title).toFinset

def graphSpaceTitle (space : ContextSpaceProjection) : Result String :=
  if intentTitles space = ∅ then .error (invariantError "Graph Context Space has no Intent title")
  else .ok (" | ".intercalate (BTreeMap.ordered (intentTitles space)))

def relationSet (relations : List GraphContextRelation) : List GraphContextRelation :=
  relations.dedup.insertionSort fun first second => first.rank ≤ second.rank

section Build

variable (projection : DomainProjection)

/-! ### Owners and targets -/

/-- The Contexts of all Spaces, in the order of their keys. -/
def contextEntries : List OwnedContext :=
  (BTreeMap.ordered projection.spaces.keys).flatMap fun spaceId =>
    (projection.spaces.get? spaceId).toList.flatMap fun space =>
      space.contexts.values.map fun context => ⟨spaceId, space, context⟩

/-- The owner of a Context; a later entry replaces an earlier one. -/
def owner? (contextId : ContextId) : Option OwnedContext :=
  (contextEntries projection).reverse.find? fun owned => owned.context.contextId = contextId

def OwnedContext.acceptedKey? (owned : OwnedContext) : Option GraphKey :=
  match owned.context.governance with
  | .accepted _ revisionId => some (graphKey owned.spaceId owned.context.contextId revisionId)
  | _ => none

def acceptedTargets : List GraphKey :=
  (contextEntries projection).filterMap OwnedContext.acceptedKey?

def acceptedTarget? (contextId : ContextId) : Option GraphKey :=
  (acceptedTargets projection).reverse.find? fun key => key.contextId = contextId

/-! ### What the references lead to -/

def graphRoot (reference : ProjectedEngineeringReference) : Result GraphKey :=
  match owner? projection reference.contextId with
  | none =>
      .error (invariantError "projected Engineering Reference Context owner is missing")
  | some owned =>
      if reference.revisionId ∈ owned.context.revisions.keys then
        .ok (graphKey owned.spaceId reference.contextId reference.revisionId)
      else
        .error (invariantError
          "projected Engineering Reference Revision is missing from its Context")

/-- The revision of a key.  Every key has an owner: the source indexes them. -/
def graphRevision (missing : String) (key : GraphKey) :
    Result (OwnedContext × RevisionProjection) :=
  match owner? projection key.contextId with
  | none => .error (invariantError missing)
  | some owned =>
      match owned.context.revisions.get? key.revisionId with
      | none => .error (invariantError missing)
      | some revision => .ok (owned, revision)

/-- The targets that an accepted revision relates to. -/
def followRelations (key : GraphKey) : Result (List GraphKey) := do
  let (owned, revision) ←
    graphRevision projection "Graph relation source Revision disappeared during build" key
  if graphContextStatus owned.context revision.lifecycle ≠ .accepted then pure []
  else
    pure (revision.revision.relations.filterMap fun relation =>
      acceptedTarget? projection relation.targetContextId)

/-! ### One snapshot -/

def graphRelation (included : Finset GraphKey) (relation : ContextRelation) :
    Option GraphContextRelation :=
  match acceptedTarget? projection relation.targetContextId with
  | none => none
  | some target =>
      if target ∈ included then
        some
          { targetSpaceId := target.spaceId
            targetContextId := relation.targetContextId
            targetRevisionId := target.revisionId
            kind := relation.kind
            rationale := relation.rationale
            supports := relation.supports }
      else none

def graphSnapshot (depths : BTreeMap GraphKey Nat) (key : GraphKey) :
    Result GraphContextSnapshot := do
  let (owned, revision) ←
    graphRevision projection "Graph Context Revision disappeared during snapshot build" key
  let status := graphContextStatus owned.context revision.lifecycle
  let (evidenceCompleteness, safety) :=
    graphContextSafety owned.context revision.revision status
  let above := decide (∃ depth ∈ depths.get? key, depth < maxRelationDepth)
  let relations := if status = .accepted && above then
      relationSet (revision.revision.relations.filterMap (graphRelation projection depths.keys))
    else []
  let spaceTitle ← graphSpaceTitle owned.space
  let snapshot : GraphContextSnapshot :=
    { spaceId := key.spaceId
      spaceTitle := spaceTitle
      contextId := key.contextId
      revision := revision.revision
      status := status
      evidenceCompleteness := evidenceCompleteness
      safety := safety
      relations := relations }
  snapshot.validate
  pure snapshot

/-! ### The build -/

/-- The search queues a root once, and an accepted target at most once for
each depth, so the loop of the source ends within this many rounds. -/
def searchFuel (roots : List GraphKey) : Nat :=
  roots.length + (acceptedTargets projection).length * (maxRelationDepth + 1)

/-- Capture Context revisions, build-time safety, and relation target revisions. -/
def buildGraphContextSnapshots (references : List ProjectedEngineeringReference) :
    Result (List GraphContextSnapshot) := do
  let named ← references.mapM (graphRoot projection)
  let roots := BTreeMap.ordered named.toFinset
  let reached ← DepthSearch.search (followRelations projection) maxRelationDepth
    (searchFuel projection roots) (.start roots)
  let snapshots ←
    (BTreeMap.ordered reached.depths.keys).mapM (graphSnapshot projection reached.depths)
  pure (snapshots.insertionSort GraphContextSnapshot.inOrder)

end Build

/-- The projected references of a domain projection, as the rebuild passes them on. -/
def projectedReferences (projection : DomainProjection) : List ProjectedEngineeringReference :=
  projection.engineeringReferences.values.map fun projected =>
    ⟨projected.contextId, projected.revisionId, projected.reference⟩

end SharedContext.EngineeringGraph
