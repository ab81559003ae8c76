import Mathlib.Data.String.Basic
import SharedContext.Domain.CandidateAnalysis
import SharedContext.Domain.WorkingIntent
import SharedContext.Reducer.Projection

/-!
# Targets of a Candidate analysis

Every current revision of every Context is a target.  Eight channels retrieve
targets, each with a rank; a target that some channel retrieved is scored by the
ranks it got.
-/

namespace SharedContext.Search

deriving instance BEq for Value
deriving instance BEq for EvidenceSnapshotDraft
deriving instance BEq for ContextRevisionDraft

/-! ### Text -/

/-- What the analysis of text takes from other crates: the tokenizer of the
index, the identifiers of the hints and the Unicode tables. -/
structure SearchText where
  normalizeSearchText : String → String
  normalizedIdentifiers : List String → Finset String
  toLowercase : String → String
  isAlphanumeric : Char → Bool

section Text

variable (text : SearchText)

def englishNegationMarkers : List String :=
  ["not", "no", "never", "cannot", "without", "fails"]

def chineseNegationMarkers : List String :=
  ["没有", "不会", "不能", "不", "无", "未"]

/-- English markers are whole words, Chinese ones are found anywhere. -/
def negationMarkers (statement : String) : Finset String :=
  let words := ((text.toLowercase statement).toList.splitOnP
    fun character => !text.isAlphanumeric character).map String.ofList
  (englishNegationMarkers.filter fun marker => marker ∈ words).toFinset ∪
    (chineseNegationMarkers.filter fun marker => marker.toList <:+: statement.toList).toFinset

def tokenSet (normalized : String) : Finset String :=
  (splitWhitespace normalized).toFinset

/-- Overlap of two token sets in basis points; an empty set overlaps nothing. -/
def jaccardBasisPoints (left right : Finset String) : Nat :=
  if left = ∅ ∨ right = ∅ then 0
  else (left ∩ right).card * 10000 / (left ∪ right).card

def tokenBigrams (normalized : String) : Finset String :=
  let tokens := splitWhitespace normalized
  ((tokens.zip tokens.tail).map fun (first, second) => first ++ " " ++ second).toFinset

def statementBigramJaccardBasisPoints (left right : String) : Nat :=
  jaccardBasisPoints (tokenBigrams (text.normalizeSearchText left))
    (tokenBigrams (text.normalizeSearchText right))

mutual

def jsonStringLeaves : Value → List String
  | .string text => [text]
  | .array items => jsonStringLeavesOf items
  | .object members => jsonStringLeavesOfMembers members
  | .null | .bool _ | .number _ => []

def jsonStringLeavesOf : List Value → List String
  | [] => []
  | item :: rest => jsonStringLeaves item ++ jsonStringLeavesOf rest

def jsonStringLeavesOfMembers : List (String × Value) → List String
  | [] => []
  | (_, value) :: rest => jsonStringLeaves value ++ jsonStringLeavesOfMembers rest

end

/-- Statement, rationale and every text of the evidence. -/
def draftProse (draft : ContextRevisionDraft) : List String :=
  draft.statement :: draft.rationale :: draft.evidence.flatMap fun evidence =>
    evidence.supports :: evidence.interpretation :: jsonStringLeaves evidence.content

/-- The values of the left list that the right one has too, in order of text. -/
def intersection (left right : List String) : List String :=
  let normalized := right.map text.normalizeSearchText
  BTreeMap.ordered
    (left.filter fun value => text.normalizeSearchText value ∈ normalized).toFinset

def scopeOverlap (left right : Applicability) : Applicability where
  domains := intersection text left.domains right.domains
  platforms := intersection text left.platforms right.platforms
  conditions := intersection text left.conditions right.conditions

end Text

/-! ### What the analysis reads -/

structure ContextRetirement where
  supersededBy : Option ContextId
  acceptedAtUnixSeconds : Option Int

/-- A Context of the engineering graph, with its edges. -/
structure GraphContext where
  context : ContextRevisionRef
  relations : List (ContextRevisionRef × ContextRelationKind)

/-- A reference of the engineering graph, with what it resolved to. -/
structure GraphReference where
  context : ContextRevisionRef
  resolvedArtifact : Option ArtifactRef
  hasAssociation : Bool

structure EngineeringProjectionSnapshot where
  contextTreeOid : Option String
  artifactGeneration : String
  contexts : List GraphContext
  references : List GraphReference

structure SearchResult where
  target : ContextRevisionRef
  matchedTokens : List String

structure TaskSpaceAssociation where
  spaceId : SpaceId
  matchedIntentFields : List String
  reasons : List String

/-- A read of the index, with the generation it was made in. -/
structure QuerySnapshot (α : Type) where
  indexedTreeOid : String
  projectionGeneration : Nat
  data : α

/-- Everything the analysis reads beside its request. -/
structure AnalysisReads where
  snapshot : QuerySnapshot DomainProjection
  graph : Option EngineeringProjectionSnapshot
  bm25 : QuerySnapshot (List SearchResult)
  sourceSpaces : QuerySnapshot (List TaskSpaceAssociation)
  candidateSpaces : QuerySnapshot (List TaskSpaceAssociation)
  retirements : QuerySnapshot (BTreeMap ContextId ContextRetirement)
  /-- Why a Context of a kind, accepted at a time, has outlived its lifetime. -/
  historicalReason : ContextKind → Option Int → Option String

/-! ### Targets -/

inductive Channel
  | canonical
  | explicit
  | graph
  | statement
  | identifier
  | topic
  | scope
  | bm25
  deriving DecidableEq

def Channel.weight : Channel → Nat
  | .canonical => 1000
  | .explicit | .graph => 900
  | .statement => 850
  | .identifier => 800
  | .topic => 700
  | .scope => 400
  | .bm25 => 200

structure TargetState where
  revision : ContextRevision
  safe : Bool
  accepted : Bool
  retirementReason : Option String
  spaceConflicted : Bool
  /-- The channels that retrieved the target, each with its rank. -/
  channels : List (Channel × Nat)
  paths : List CandidateAssessmentPath
  score : Nat
  statementSimilarity : Nat
  negationConflict : Bool
  sharedIdentifiers : List String

abbrev Targets := List (ContextRevisionRef × TargetState)

def TargetState.hasChannel (state : TargetState) (channel : Channel) : Bool :=
  state.channels.any fun entry => entry.1 = channel

def TargetState.addPath (state : TargetState) (path : CandidateAssessmentPath) : TargetState :=
  if path ∈ state.paths then state else { state with paths := state.paths ++ [path] }

/-- A channel keeps the first rank it gives a target. -/
def TargetState.addChannel (state : TargetState) (channel : Channel) (rank : Nat) : TargetState :=
  if state.hasChannel channel then state
  else { state with channels := state.channels ++ [(channel, rank)] }

/-- Change the state of one target, if it is there. -/
def updateTarget (target : ContextRevisionRef) (change : TargetState → TargetState)
    (targets : Targets) : Targets :=
  targets.map fun entry => if entry.1 = target then (entry.1, change entry.2) else entry

def ContextRetirement.reason (reads : AnalysisReads) (retirement : ContextRetirement)
    (kind : ContextKind) : Option String :=
  match retirement.supersededBy with
  | some successor =>
      some s!"Target Context is superseded by {successor}; its conclusion has a successor"
  | none => reads.historicalReason kind retirement.acceptedAtUnixSeconds

/-- The revision governance names, or the heads where it names none. -/
def currentRevisionIds (context : ContextProjection) : Finset RevisionId :=
  match context.governance with
  | .accepted _ revisionId | .deprecated _ revisionId => {revisionId}
  | .unpublished | .governanceConflict _ => context.revisionHeads

def targetState (reads : AnalysisReads) (space : ContextSpaceProjection)
    (context : ContextProjection) (revision : RevisionProjection) : TargetState :=
  let retirement := (reads.retirements.data.get? context.contextId).getD ⟨none, none⟩
  let retirementReason := retirement.reason reads revision.revision.kind
  let accepted := revision.lifecycle = .accepted && retirementReason.isNone
  { revision := revision.revision
    safe := accepted && context.autoInjection.eligible
    accepted := accepted
    retirementReason := retirementReason
    spaceConflicted := 1 < space.intent.heads.card
    channels := []
    paths := []
    score := 0
    statementSimilarity := 0
    negationConflict := false
    sharedIdentifiers := [] }

/-- Insert into a list of targets; a target that is there is replaced. -/
def insertTarget (targets : Targets) (entry : ContextRevisionRef × TargetState) : Targets :=
  (targets.filter fun other => other.1 ≠ entry.1) ++ [entry]

def collectTargets (reads : AnalysisReads) : Targets :=
  let entries := reads.snapshot.data.spaces.values.flatMap fun space =>
    space.contexts.values.flatMap fun context =>
      (BTreeMap.ordered context.revisions.keys).filterMap fun revisionId =>
        if revisionId ∈ currentRevisionIds context then
          (context.revisions.get? revisionId).map fun revision =>
            (⟨context.contextId, revisionId⟩, targetState reads space context revision)
        else none
  (entries.foldl insertTarget []).insertionSort fun first second =>
    first.1.le second.1 = true

/-! ### Channels -/

/-- Give ranks in the order of the list; repeated targets keep their first rank. -/
def addRankedChannel (channel : Channel) (values : List ContextRevisionRef) (targets : Targets) :
    Targets :=
  values.eraseDups.zipIdx.foldl
    (fun targets (target, rank) =>
      updateTarget target (fun state => state.addChannel channel (rank + 1)) targets)
    targets

/-- Ranks of measured targets: equal measurements share one. -/
def measuredRanks : List (Nat × ContextRevisionRef) → Nat → Option Nat →
    List (ContextRevisionRef × Nat)
  | [], _, _ => []
  | (measurement, target) :: rest, rank, previous =>
      let next := if previous = some measurement then rank else rank + 1
      (target, next) :: measuredRanks rest next (some measurement)

/-- Rank targets by the measurement that put each into the channel. -/
def addMeasuredChannel (channel : Channel) (values : List (Nat × ContextRevisionRef))
    (targets : Targets) : Targets :=
  let sorted := values.insertionSort fun left right =>
    right.1 < left.1 ∨ left.1 = right.1 ∧ left.2.le right.2 = true
  let unique := sorted.eraseDupsBy fun left right => left.2 == right.2
  (measuredRanks unique 0 none).foldl
    (fun targets (target, rank) =>
      updateTarget target (fun state => state.addChannel channel rank) targets)
    targets

section Channels

variable (text : SearchText) (candidate : ContextRevisionDraft)

/-- What the exact comparisons find out about one target. -/
structure ExactMatch where
  state : TargetState
  canonical : Option Nat
  statement : Option Nat
  topic : Option Nat
  scope : Option Nat

/-- `STATEMENT_SIMILARITY_STRONG_BASIS_POINTS`. -/
def statementSimilarityStrongBasisPoints : Nat := 8000

/-- Compare the statements; a near-duplicate one is aligned before the drafts are. -/
def matchStatement (state : TargetState) : ExactMatch :=
  let candidateStatement := text.normalizeSearchText candidate.statement
  let targetStatement := text.normalizeSearchText state.revision.statement
  let similarity :=
    if targetStatement = candidateStatement then 10000
    else jaccardBasisPoints (tokenSet candidateStatement) (tokenSet targetStatement)
  let state := { state with statementSimilarity := similarity }
  if statementSimilarityStrongBasisPoints ≤ similarity then
    let negationConflict := decide
      (negationMarkers text state.revision.statement ≠ negationMarkers text candidate.statement)
    let state := { state with negationConflict := negationConflict }
    if negationConflict then ⟨state, none, some similarity, none, none⟩
    else if { contextRevisionAsDraft state.revision with statement := candidate.statement } ==
        candidate then
      ⟨state.addPath .canonicalDraftEquality, some similarity, none, none, none⟩
    else ⟨state.addPath .statementEquality, none, some similarity, none, none⟩
  else ⟨state, none, none, none, none⟩

def matchTopic (found : ExactMatch) : ExactMatch :=
  let candidateTopic :=
    (candidate.topicKey.map text.normalizeSearchText).filter fun value => value ≠ ""
  let targetTopic := found.state.revision.topicKey.map text.normalizeSearchText
  if candidateTopic.isSome && targetTopic = candidateTopic then
    { found with
      state := found.state.addPath
        (.topicEquality (found.state.revision.topicKey.getD ""))
      topic := some 0 }
  else found

def matchScope (found : ExactMatch) : ExactMatch :=
  let overlap := scopeOverlap text candidate.applicability found.state.revision.applicability
  if overlap.domains.isEmpty then found
  else
    { found with
      state := found.state.addPath
        (.scopeOverlap overlap.domains overlap.platforms overlap.conditions)
      scope := some overlap.domains.length }

def addExactChannels (targets : Targets) : Targets :=
  let found := targets.map fun (target, state) =>
    (target, matchScope text candidate (matchTopic text candidate
      (matchStatement text candidate state)))
  let measured (channel : ExactMatch → Option Nat) : List (Nat × ContextRevisionRef) :=
    found.filterMap fun (target, result) =>
      (channel result).map fun measurement => (measurement, target)
  let targets := found.map fun (target, result) => (target, result.state)
  addMeasuredChannel .scope (measured ExactMatch.scope)
    (addMeasuredChannel .topic (measured ExactMatch.topic)
      (addMeasuredChannel .statement (measured ExactMatch.statement)
        (addMeasuredChannel .canonical (measured ExactMatch.canonical) targets)))

/-- `SHARED_IDENTIFIER_STRONG_OVERLAP`. -/
def sharedIdentifierStrongOverlap : Nat := 2

/-- The identifiers a safe target shares with the Candidate, when they are enough. -/
def sharedIdentifiersOf (state : TargetState) : Option (List String) :=
  let candidateIdentifiers := text.normalizedIdentifiers (draftProse candidate)
  let shared := candidateIdentifiers ∩
    text.normalizedIdentifiers (draftProse (contextRevisionAsDraft state.revision))
  if state.safe = true ∧ sharedIdentifierStrongOverlap ≤ shared.card then
    some (BTreeMap.ordered shared)
  else none

def addIdentifierChannel (targets : Targets) : Targets :=
  if (text.normalizedIdentifiers (draftProse candidate)).card < sharedIdentifierStrongOverlap then
    targets
  else
    let ranked := targets.filterMap fun (target, state) =>
      (sharedIdentifiersOf text candidate state).map fun shared => (shared.length, target)
    let targets := targets.map fun (target, state) =>
      match sharedIdentifiersOf text candidate state with
      | none => (target, state)
      | some shared =>
          (target, { state with sharedIdentifiers := shared }.addPath (.sharedIdentifier shared))
    addMeasuredChannel .identifier ranked targets

end Channels

def addExplicitChannel (explicit : List ContextRevisionRef) (targets : Targets) : Targets :=
  let values := (explicit.insertionSort fun left right => left.le right = true).eraseDups
  addRankedChannel .explicit values
    (values.foldl
      (fun targets target =>
        updateTarget target (fun state => state.addPath .explicitRelatedContext) targets)
      targets)

/-- A Context on a walk along relations, with the relation that led there. -/
structure Hop where
  target : ContextRevisionRef
  depth : Nat
  relation : Option ContextRelationKind

/-- One level of a walk: the Contexts not seen before. -/
def walkLevel (level : List Hop) (visited : List ContextRevisionRef) :
    List Hop × List ContextRevisionRef :=
  level.foldl
    (fun (reached, visited) hop =>
      if hop.target ∈ visited then (reached, visited)
      else (reached ++ [hop], visited ++ [hop.target]))
    ([], visited)

/-- The queue of the walk is emptied level by level, at most two hops deep. -/
def walkRelations (contexts : List GraphContext) :
    Nat → List Hop → List ContextRevisionRef → List Hop
  | 0, _, _ => []
  | remaining + 1, level, visited =>
      let (reached, visited) := walkLevel level visited
      let next := reached.flatMap fun hop =>
        ((contexts.reverse.find? fun context => context.context = hop.target).map fun context =>
          context.relations.map fun (target, kind) => ⟨target, hop.depth + 1, some kind⟩).getD []
      reached ++ walkRelations contexts remaining next visited

def TargetState.addHop (artifact : ArtifactRef) (hop : Hop) (state : TargetState) : TargetState :=
  let state := state.addPath (.exactArtifactGraph artifact)
  match hop.relation with
  | none => state
  | some relation => state.addPath (.contextRelationHop relation hop.depth)

/-- The Contexts that an artifact leads to, in the order of the walks. -/
def artifactHops (graph : EngineeringProjectionSnapshot) (artifact : ArtifactRef) : List Hop :=
  (graph.references.filter fun reference =>
      reference.resolvedArtifact = some artifact && reference.hasAssociation).flatMap
    fun reference => walkRelations graph.contexts 3 [⟨reference.context, 0, none⟩] []

def addGraphChannel (graph : Option EngineeringProjectionSnapshot) (artifacts : List ArtifactRef)
    (targets : Targets) : Result Targets :=
  match graph with
  | none => .ok targets
  | some graph => do
      artifacts.forM fun artifact => artifact.locator.validate
      let hops := artifacts.flatMap fun artifact =>
        (artifactHops graph artifact).map fun hop => (artifact, hop)
      let targets := hops.foldl
        (fun targets (artifact, hop) =>
          updateTarget hop.target (TargetState.addHop artifact hop) targets)
        targets
      pure (addRankedChannel .graph
        ((hops.map fun (_, hop) => hop.target).filter fun target =>
          targets.any fun entry => entry.1 = target)
        targets)

def addBm25Channel (results : List SearchResult) (targets : Targets) : Targets :=
  let known := results.filter fun result => targets.any fun entry => entry.1 = result.target
  let targets := known.foldl
    (fun targets result =>
      if result.matchedTokens.isEmpty then targets
      else updateTarget result.target
        (fun state => state.addPath (.contextFullText result.matchedTokens)) targets)
    targets
  addRankedChannel .bm25 (known.map SearchResult.target) targets

def rrf (weight rank : Nat) : Nat :=
  weight * 10000 / (60 + rank)

def TargetState.scored (state : TargetState) : TargetState :=
  { state with
    score := (state.channels.map fun (channel, rank) => rrf channel.weight rank).sum }

end SharedContext.Search
