import Mathlib.Data.Rat.Floor
import SharedContext.Search.Retrieval

/-!
# Following relations

Relations are followed two hops deep, from the artifacts of the Engineering
Graph and from the Contexts that answer the query.  What they reach is
aggregated by Space.
-/

namespace SharedContext.Search

open EngineeringGraph

/-! ### Keys -/

structure ContextKey where
  spaceId : SpaceId
  contextId : ContextId
  deriving DecidableEq

instance : LinearOrder ContextKey :=
  LinearOrder.lift' (fun key => toLex (key.spaceId, key.contextId)) <| by
    rintro ⟨space, context⟩ ⟨space', context'⟩ same
    simpa using same

structure GraphContextKey where
  spaceId : SpaceId
  contextId : ContextId
  revisionId : RevisionId
  deriving DecidableEq

instance : LinearOrder GraphContextKey :=
  LinearOrder.lift'
    (fun key => (toLex (key.spaceId, toLex (key.contextId, key.revisionId)) :
      SpaceId ×ₗ ContextId ×ₗ RevisionId)) <| by
    rintro ⟨space, context, revision⟩ ⟨space', context', revision'⟩ same
    simpa using same

structure GraphContextEvidence where
  snapshot : GraphContextSnapshot
  evidence : AcceptedContextEvidence

abbrev Contexts := BTreeMap ContextKey AcceptedContextEvidence
abbrev GraphContexts := BTreeMap GraphContextKey GraphContextEvidence

def graphKey (snapshot : GraphContextSnapshot) : GraphContextKey :=
  ⟨snapshot.spaceId, snapshot.contextId, snapshot.revision.revisionId⟩

def GraphContextEvidence.update (change : AcceptedContextEvidence → AcceptedContextEvidence)
    (context : GraphContextEvidence) : GraphContextEvidence :=
  { context with evidence := change context.evidence }

/-! ### Artifacts of the Engineering Graph -/

def confidenceBasisPoints (confidence : Rat) : Nat :=
  (max 0 (min 10000 ⌊confidence * 10000 + 1 / 2⌋)).toNat

def matchBasisRank : MatchBasis → Nat
  | .exactFilePath => 0
  | .exactModulePath => 1
  | .exactApiLocator => 2
  | .exactSchemaLocator => 3
  | .exactQualifiedSymbolLocator => 4
  | .exactQualifiedTestLocator => 5
  | .repositoryUnavailable => 6

def focusMatchesArtifact (focus : ResolvedFocus) (artifact : ArtifactKey) : Bool :=
  focus.repositoryId = artifact.repositoryId ∧ focus.locator = artifact.locator

def namedArtifacts (resolved : ResolvedReferenceProjection) : List ArtifactKey :=
  resolved.resolution.resolvedArtifact.toList ++ resolved.resolution.candidates

def graphArtifactPath (texts : RetrievalTexts) (graph : EngineeringProjection)
    (focus : ResolvedFocus) (resolved : ResolvedReferenceProjection) (artifact : ArtifactKey)
    (association : ContextArtifactAssociation) (found : CandidateMatchEvidence) :
    GraphArtifactRetrievalPath where
  resolvedFocus := focus
  repositoryId := artifact.repositoryId
  artifactKey := artifact
  artifactKind := artifact.kind
  referenceId := resolved.referenceId
  associationId :=
    texts.associationId resolved.referenceId resolved.contextId resolved.revisionId artifact
  associationKind := association.kind
  matchBasis := found.basis
  resolutionStatus := resolved.resolution.status
  confidenceBasisPoints := confidenceBasisPoints association.confidence
  artifactGeneration := graph.artifactGeneration

def graphDiagnosticPath (graph : EngineeringProjection) (focus : ResolvedFocus)
    (resolved : ResolvedReferenceProjection) : GraphResolutionDiagnosticPath where
  resolvedFocus := focus
  repositoryId := resolved.resolution.repositoryId
  referenceId := resolved.referenceId
  resolutionStatus := resolved.resolution.status
  candidateArtifactKeys := namedArtifacts resolved
  matchBases := ((resolved.evidence.map CandidateMatchEvidence.basis).insertionSort
    fun first second => matchBasisRank first ≤ matchBasisRank second).destutter (· ≠ ·)
  artifactGeneration := graph.artifactGeneration

/-- The Context of a reference to the focus, with the change to its evidence. -/
def referenceEvidence (texts : RetrievalTexts) (graph : EngineeringProjection)
    (focus : ResolvedFocus) (mode : ContextPackMode) (resolved : ResolvedReferenceProjection) :
    Option (GraphContextSnapshot × (AcceptedContextEvidence → AcceptedContextEvidence)) := do
  let artifact ← (namedArtifacts resolved).find? (focusMatchesArtifact focus)
  let snapshot ← graph.contexts.find? fun snapshot =>
    snapshot.contextId = resolved.contextId ∧ snapshot.revision.revisionId = resolved.revisionId
  if mode = .automaticInjection ∧ snapshot.safety.automaticInjectionEligible = false then none
  else if resolved.resolution.status = .resolved then do
    let association ← resolved.association
    let found ← resolved.evidence.find? fun evidence =>
      evidence.artifactKey = some association.artifactKey
    let path := graphArtifactPath texts graph focus resolved artifact association found
    some (snapshot, fun evidence =>
      { evidence with
        matchedArtifacts := insert (texts.focus focus) evidence.matchedArtifacts
        graphPaths := evidence.graphPaths ++ [.engineeringGraph path []] })
  else if mode = .explicit then
    some (snapshot, fun evidence =>
      { evidence with
        graphPaths :=
          evidence.graphPaths ++ [.graphDiagnostic (graphDiagnosticPath graph focus resolved)] })
  else none

def queryGraphContextEvidence (texts : RetrievalTexts) (graph : EngineeringProjection)
    (resolvedFocus : Option ResolvedFocus) (mode : ContextPackMode) : GraphContexts :=
  match resolvedFocus with
  | none => .empty
  | some focus =>
      let found := graph.references.filterMap (referenceEvidence texts graph focus mode)
      let contexts := found.foldl (fun contexts entry =>
        contexts.upsert (graphKey entry.1) ⟨entry.1, .default⟩
          (GraphContextEvidence.update entry.2)) BTreeMap.empty
      contexts.map (GraphContextEvidence.update (AcceptedContextEvidence.sortPaths texts))

/-! ### Relations -/

def defaultContextRelationDepth : Nat := 2

/-- A route under way: where it stands, how it came there, and where it has been. -/
structure Route (κ : Type) where
  current : κ
  hops : List ContextRelationRetrievalPath
  visited : Finset ContextId

/-- The snapshot of a key; the last one is kept where a key repeats. -/
def snapshotAt (graph : EngineeringProjection) (key : GraphContextKey) :
    Option GraphContextSnapshot :=
  graph.contexts.reverse.find? fun snapshot => graphKey snapshot = key

def relationKey (relation : GraphContextRelation) : GraphContextKey :=
  ⟨relation.targetSpaceId, relation.targetContextId, relation.targetRevisionId⟩

def followGraphRelation (graph : EngineeringProjection) (mode : ContextPackMode)
    (graphPath : GraphArtifactRetrievalPath) (route : Route GraphContextKey)
    (current : GraphContextSnapshot) (contexts : GraphContexts)
    (relation : GraphContextRelation) : Result (GraphContexts × List (Route GraphContextKey)) :=
  if relation.targetContextId ∈ route.visited then pure (contexts, [])
  else
    match snapshotAt graph (relationKey relation) with
    | none => throw (EngineeringGraph.invariantError
        "Graph relation traversal lost a frozen target Context snapshot")
    | some target =>
        if mode = .automaticInjection ∧ target.safety.automaticInjectionEligible = false then
          pure (contexts, [])
        else
          let depth := route.hops.length + 1
          let hops := route.hops ++ [⟨current.contextId, current.revision.revisionId,
            target.contextId, target.revision.revisionId, relation.kind, relation.rationale,
            relation.supports, depth⟩]
          pure (contexts.upsert (relationKey relation) ⟨target, .default⟩
              (GraphContextEvidence.update
                (AcceptedContextEvidence.recordHop depth (.engineeringGraph graphPath hops))),
            [⟨relationKey relation, hops, insert target.contextId route.visited⟩])

def followGraphRoute (graph : EngineeringProjection) (mode : ContextPackMode)
    (graphPath : GraphArtifactRetrievalPath) (contexts : GraphContexts)
    (route : Route GraphContextKey) : Result (GraphContexts × List (Route GraphContextKey)) :=
  match snapshotAt graph route.current with
  | none => throw (EngineeringGraph.invariantError
      "Graph relation traversal lost a frozen source Context snapshot")
  | some current =>
      BoundedWalk.gather (followGraphRelation graph mode graphPath route current) contexts
        current.relations

def exactArtifact? : TaskRetrievalPath → Option GraphArtifactRetrievalPath
  | .engineeringGraph path [] => some path
  | _ => none

/-- The exact routes that relations are followed from. -/
def graphSeeds (contexts : GraphContexts) : List (GraphContextKey × GraphArtifactRetrievalPath) :=
  contexts.entries.flatMap fun entry =>
    (entry.2.evidence.graphPaths.filterMap exactArtifact?).map (Prod.mk entry.1)

def expandGraphContextRelationEvidence (texts : RetrievalTexts) (graph : EngineeringProjection)
    (mode : ContextPackMode) (contexts : GraphContexts) : Result GraphContexts :=
  if contexts.keys = ∅ then pure contexts
  else do
    let expanded ← (graphSeeds contexts).foldlM (fun contexts seed =>
      BoundedWalk.walk (followGraphRoute graph mode seed.2) defaultContextRelationDepth contexts
        [⟨seed.1, [], {seed.1.contextId}⟩]) contexts
    pure (expanded.map (GraphContextEvidence.update (AcceptedContextEvidence.sortPaths texts)))

structure IndexedContextRelation where
  sourceContextId : ContextId
  sourceRevisionId : RevisionId
  targetContextId : ContextId
  targetRevisionId : RevisionId
  targetSpaceId : SpaceId
  kind : ContextRelationKind
  rationale : String
  supports : List String

def followEdge (route : Route ContextId) (contexts : Contexts) (edge : IndexedContextRelation) :
    Result (Contexts × List (Route ContextId)) :=
  if edge.targetContextId ∈ route.visited then pure (contexts, [])
  else
    let depth := route.hops.length + 1
    let hops := route.hops ++ [⟨edge.sourceContextId, edge.sourceRevisionId, edge.targetContextId,
      edge.targetRevisionId, edge.kind, edge.rationale, edge.supports, depth⟩]
    pure (contexts.upsert ⟨edge.targetSpaceId, edge.targetContextId⟩ .default
        (AcceptedContextEvidence.recordHop depth (.contextRelation hops)),
      [⟨edge.targetContextId, hops, insert edge.targetContextId route.visited⟩])

def followRoute (edges : List IndexedContextRelation) (contexts : Contexts)
    (route : Route ContextId) : Result (Contexts × List (Route ContextId)) :=
  BoundedWalk.gather (followEdge route) contexts
    (edges.filter fun edge => edge.sourceContextId = route.current)

/-- The Contexts that relations are followed from. -/
def relationSeeds (mode : ContextPackMode) (basis : AutomaticCoverageBasis)
    (contexts : Contexts) : List ContextId :=
  (contexts.entries.filter fun entry =>
    contextIsPositiveSeed entry.2 mode basis.selectedOnly).map fun entry => entry.1.contextId

def expandCurrentContextRelationEvidence (texts : RetrievalTexts) (mode : ContextPackMode)
    (basis : AutomaticCoverageBasis) (edges : List IndexedContextRelation)
    (contexts : Contexts) : Result Contexts :=
  if edges = [] ∨ contexts.keys = ∅ then pure contexts
  else do
    let expanded ← (relationSeeds mode basis contexts).foldlM (fun contexts seed =>
      BoundedWalk.walk (followRoute edges) defaultContextRelationDepth contexts
        [⟨seed, [], {seed}⟩]) contexts
    pure (expanded.map (AcceptedContextEvidence.sortPaths texts))

/-! ### The evidence of a Space -/

inductive SpaceAssociationRole
  | primary
  | related
  deriving DecidableEq

structure EffectiveSpaceRole where
  matchedSpaceId : SpaceId
  role : SpaceAssociationRole
  deriving DecidableEq

structure EffectiveContextSpaces where
  associationId : SpaceAssociationId
  roles : List EffectiveSpaceRole
  deriving DecidableEq

abbrev EffectiveSpaces := BTreeMap ContextId EffectiveContextSpaces

structure AssociationEvidence where
  intentMatched : Bool
  matchedArtifacts : Finset String
  matchedContexts : Finset ContextId
  textualContexts : Finset ContextId
  contextTokens : Finset String
  contextIdentifierTokens : Finset String
  contextPhraseMatch : Bool
  hintText : HintText
  matchedScopes : Finset ScopeEvidence
  graphExactContexts : Finset ContextId
  relationContexts : Finset ContextId
  focusTextFallbackContexts : Finset ContextId
  fusedScoreBasisPoints : Nat

def AssociationEvidence.default : AssociationEvidence where
  intentMatched := false
  matchedArtifacts := ∅
  matchedContexts := ∅
  textualContexts := ∅
  contextTokens := ∅
  contextIdentifierTokens := ∅
  contextPhraseMatch := false
  hintText := .empty
  matchedScopes := ∅
  graphExactContexts := ∅
  relationContexts := ∅
  focusTextFallbackContexts := ∅
  fusedScoreBasisPoints := 0

abbrev SpaceEvidence := BTreeMap SpaceId AssociationEvidence

/-- Merge the hints of a Context into those of its Space, channel by channel. -/
def mergeHints (hints others : HintText) : HintText :=
  BTreeMap.ofKeys (hints.keys ∪ others.keys) fun channel =>
    match hints.get? channel, others.get? channel with
    | some hint, some other => some (hint.merge other)
    | found, none => found
    | none, found => found

/-- Add a Context to one of the sets of its Space. -/
def addWhen (present : Bool) (contextId : ContextId) (contexts : Finset ContextId) :
    Finset ContextId :=
  if present then insert contextId contexts else contexts

def aggregateContextEvidence (contextId : ContextId) (context : AcceptedContextEvidence)
    (aggregate : AssociationEvidence) : AssociationEvidence :=
  { aggregate with
    matchedContexts := insert contextId aggregate.matchedContexts
    textualContexts := addWhen context.textualMatch contextId aggregate.textualContexts
    contextTokens :=
      aggregate.contextTokens ∪ (if context.textualMatch then context.matchedTokens else ∅)
    contextIdentifierTokens :=
      aggregate.contextIdentifierTokens ∪
        (if context.textualMatch then context.identifierMatchedTokens else ∅)
    contextPhraseMatch :=
      aggregate.contextPhraseMatch || (context.textualMatch && context.phraseMatch)
    hintText := mergeHints aggregate.hintText context.hintText
    matchedArtifacts := aggregate.matchedArtifacts ∪ context.matchedArtifacts
    matchedScopes := aggregate.matchedScopes ∪ context.matchedScopes
    graphExactContexts := addWhen (context.graphPaths.any TaskRetrievalPath.isExactArtifact)
      contextId aggregate.graphExactContexts
    relationContexts := addWhen context.relationDepth.isSome contextId aggregate.relationContexts
    focusTextFallbackContexts := addWhen (context.graphPaths.any TaskRetrievalPath.isFocusFallback)
      contextId aggregate.focusTextFallbackContexts }

/-- The Spaces that the evidence of a Context is aggregated into. -/
def effectiveContextSpaceIds (effectiveSpaces : EffectiveSpaces) (fallback : SpaceId)
    (contextId : ContextId) : Finset SpaceId :=
  match effectiveSpaces.get? contextId with
  | none => {fallback}
  | some effective => (effective.roles.map EffectiveSpaceRole.matchedSpaceId).toFinset

def aggregateContextAcrossEffectiveSpaces (effectiveSpaces : EffectiveSpaces) (fallback : SpaceId)
    (contextId : ContextId) (context : AcceptedContextEvidence) (evidence : SpaceEvidence) :
    SpaceEvidence :=
  match effectiveSpaces.get? contextId with
  | some effective =>
      effective.roles.foldl (fun evidence role =>
        evidence.upsert role.matchedSpaceId .default (aggregateContextEvidence contextId context))
        evidence
  | none => evidence.upsert fallback .default (aggregateContextEvidence contextId context)

/-! ### The cap -/

/-- Hops out of some other Space are the whole reason that this Space is here. -/
def spaceReachedOnlyByRelationHops (evidence : AssociationEvidence) : Bool :=
  decide (evidence.relationContexts ≠ ∅) && !evidence.intentMatched &&
    decide (evidence.textualContexts = ∅) && decide (evidence.hintText.keys = ∅) &&
    decide (evidence.matchedScopes = ∅) && decide (evidence.matchedArtifacts = ∅) &&
    decide (evidence.graphExactContexts = ∅) && decide (evidence.focusTextFallbackContexts = ∅)

/-- The first hop of a route over Context relations. -/
def relationSeedHop : TaskRetrievalPath → Option ContextRelationRetrievalPath
  | .contextRelation hops => hops.head?
  | _ => none

def owningSpaces (contexts : Contexts) : BTreeMap ContextId SpaceId :=
  contexts.entries.foldl (fun owning entry => owning.insert entry.1.contextId entry.1.spaceId)
    .empty

def seedSpaces (effectiveSpaces : EffectiveSpaces) (owningSpace : BTreeMap ContextId SpaceId)
    (path : TaskRetrievalPath) : Option (Finset SpaceId) := do
  let seed ← relationSeedHop path
  let seedSpaceId ← owningSpace.get? seed.sourceContextId
  pure (effectiveContextSpaceIds effectiveSpaces seedSpaceId seed.sourceContextId)

/-- What the routes to one Context tell about the Spaces that are reached. -/
def contextOrigins (effectiveSpaces : EffectiveSpaces) (hopOnly : Finset SpaceId)
    (owningSpace : BTreeMap ContextId SpaceId) (entry : ContextKey × AcceptedContextEvidence) :
    List (SpaceId × Finset SpaceId) :=
  let reached :=
    effectiveContextSpaceIds effectiveSpaces entry.1.spaceId entry.1.contextId ∩ hopOnly
  (entry.2.graphPaths.filterMap (seedSpaces effectiveSpaces owningSpace)).flatMap fun spaces =>
    (BTreeMap.ordered reached).map fun target => (target, spaces.erase target)

/-- The least score among the origins, one point of which a Space has to stay behind. -/
def originLimit (before : BTreeMap SpaceId Nat) (origins : Finset SpaceId) : Option Nat :=
  ((BTreeMap.ordered origins).filterMap before.get?).min?

def capScore (limit : Option Nat) (target : AssociationEvidence) : AssociationEvidence :=
  match limit with
  | none => target
  | some limit =>
      { target with fusedScoreBasisPoints := min target.fusedScoreBasisPoints (limit - 1) }

/-- Hold every Space that a hop reached behind the Spaces that the hop started in. -/
def capHopOnlySpaceScores (evidence : SpaceEvidence) (contexts : Contexts)
    (effectiveSpaces : EffectiveSpaces) : SpaceEvidence :=
  let hopOnly := (evidence.filter fun _ value => spaceReachedOnlyByRelationHops value).keys
  if hopOnly = ∅ then evidence
  else
    let owningSpace := owningSpaces contexts
    let origins := BTreeMap.unite
      (contexts.entries.flatMap (contextOrigins effectiveSpaces hopOnly owningSpace))
    let before := evidence.map AssociationEvidence.fusedScoreBasisPoints
    origins.entries.foldl (fun evidence origin =>
      evidence.modify origin.1 (capScore (originLimit before origin.2))) evidence

end SharedContext.Search
