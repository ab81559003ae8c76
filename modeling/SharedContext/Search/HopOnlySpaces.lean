import SharedContext.Search.HopOrigins

/-!
# Spaces that only hops reach

The cap knows the hops over the relations of the index, and takes one point off
the least score of their origins.  Hops of the Engineering Graph are not among
them, and nothing can be taken off a score of zero.
-/

namespace SharedContext.Search

open EngineeringGraph

/-- The evidence with the fused score of every Space. -/
def withScores (scores : SpaceId → Nat) (evidence : SpaceEvidence) : SpaceEvidence :=
  evidence.filterMap fun spaceId value =>
    some { value with fusedScoreBasisPoints := scores spaceId }

/-- The Space was reached through relation hops and by nothing else. -/
def TaskEvidence.HopOnly (found : TaskEvidence) (spaceId : SpaceId) : Prop :=
  ∃ evidence, found.evidence.get? spaceId = some evidence ∧
    spaceReachedOnlyByRelationHops evidence = true

namespace GraphRetrieval

variable (retrieval : GraphRetrieval)

/-- A route of Context relations that starts in one Space reaches another. -/
def RelationHopFrom (found : TaskEvidence) (origin target : SpaceId) : Prop :=
  ∃ key context path hop, found.contexts.get? key = some context ∧
    target ∈ retrieval.spacesOf key.spaceId key.contextId ∧ path ∈ context.graphPaths ∧
    relationSeedHop path = some hop ∧
    origin ∈ retrieval.spacesOf (retrieval.owner hop.sourceContextId) hop.sourceContextId

/-- A route that starts at an artifact of the Engineering Graph reaches another Space. -/
def GraphHopFrom (found : TaskEvidence) (origin target : SpaceId) : Prop :=
  ∃ key context seedKey seed graphPath hop hops,
    found.graphContexts.get? key = some context ∧
    target ∈ retrieval.spacesOf key.spaceId key.contextId ∧
    .engineeringGraph graphPath (hop :: hops) ∈ context.evidence.graphPaths ∧
    found.graphContexts.get? seedKey = some seed ∧ seedKey.contextId = hop.sourceContextId ∧
    .engineeringGraph graphPath [] ∈ seed.evidence.graphPaths ∧
    origin ∈ retrieval.spacesOf seedKey.spaceId seedKey.contextId

def HopFrom (found : TaskEvidence) (origin target : SpaceId) : Prop :=
  retrieval.RelationHopFrom found origin target ∨ retrieval.GraphHopFrom found origin target

def cappedScore (scores : SpaceId → Nat) (found : TaskEvidence) (spaceId : SpaceId) :
    Option Nat :=
  ((capHopOnlySpaceScores (withScores scores found.evidence) found.contexts
    retrieval.effectiveSpaces).get? spaceId).map AssociationEvidence.fusedScoreBasisPoints

/-- Every Space that only hops reach scores below the Spaces its hops start in, and the
scores of the others are as they were. -/
structure HopsStayBehind (scores : SpaceId → Nat) (found : TaskEvidence) : Prop where
  behind : ∀ target origin, found.HopOnly target → retrieval.HopFrom found origin target →
    ∃ low high, retrieval.cappedScore scores found target = some low ∧
      retrieval.cappedScore scores found origin = some high ∧ low < high
  others : ∀ spaceId, ¬ found.HopOnly spaceId →
    retrieval.cappedScore scores found spaceId =
      (found.evidence.get? spaceId).map fun _ => scores spaceId

/-- Every origin has a score, and an origin that only the Engineering Graph connects is ahead
already, or not behind an origin that the index connects. -/
def OriginsLead (scores : SpaceId → Nat) (found : TaskEvidence) : Prop :=
  ∀ target origin, found.HopOnly target → retrieval.HopFrom found origin target →
    0 < scores origin ∧ (retrieval.RelationHopFrom found origin target ∨
      scores target < scores origin ∨
      ∃ other, retrieval.RelationHopFrom found other target ∧ scores other ≤ scores origin)

variable {retrieval} {found : TaskEvidence}

/-! ### The origins that the cap knows -/

theorem get?_owningSpaces {owner : ContextId → SpaceId} {contexts : Contexts}
    (owned : ∀ key ∈ contexts.keys, key.spaceId = owner key.contextId) {contextId : ContextId}
    (member : ⟨owner contextId, contextId⟩ ∈ contexts.keys) :
    (owningSpaces contexts).get? contextId = some (owner contextId) := by
  have general : ∀ (entries : List (ContextKey × AcceptedContextEvidence))
      (table : BTreeMap ContextId SpaceId),
      (∀ entry ∈ entries, entry.1.spaceId = owner entry.1.contextId) →
      (table.get? contextId = some (owner contextId) ∨
        ∃ entry ∈ entries, entry.1.contextId = contextId) →
      (entries.foldl (fun owning entry => owning.insert entry.1.contextId entry.1.spaceId)
        table).get? contextId = some (owner contextId) := by
    intro entries
    induction entries with
    | nil =>
        intro table _ present
        simpa using present
    | cons entry entries ih =>
        intro table areOwned present
        rw [List.foldl_cons]
        apply ih _ fun other otherMem => areOwned other (List.mem_cons_of_mem _ otherMem)
        rw [BTreeMap.get?_insert]
        by_cases same : contextId = entry.1.contextId
        · left
          rw [if_pos same, areOwned entry List.mem_cons_self, same]
        · rw [if_neg same]
          rcases present with stored | ⟨other, otherMem, otherSame⟩
          · exact Or.inl stored
          · rcases List.mem_cons.mp otherMem with rfl | otherMem
            · exact absurd otherSame.symm same
            · exact Or.inr ⟨other, otherMem, otherSame⟩
  obtain ⟨context, stored⟩ := BTreeMap.mem_keys_iff.mp member
  refine general _ _ ?_ (Or.inr ⟨_, BTreeMap.mem_entries.mpr stored, rfl⟩)
  rintro ⟨key, value⟩ entryMem
  exact owned key (BTreeMap.mem_keys_of_get? (BTreeMap.mem_entries.mp entryMem))

theorem seedSpaces_eq_some (gathered : retrieval.taskEvidence = .ok found) {key : ContextKey}
    {context : AcceptedContextEvidence} (lookup : found.contexts.get? key = some context)
    {path : TaskRetrievalPath} (member : path ∈ context.graphPaths) {spaces : Finset SpaceId} :
    seedSpaces retrieval.effectiveSpaces (owningSpaces found.contexts) path = some spaces ↔
      ∃ hop, relationSeedHop path = some hop ∧
        spaces = retrieval.spacesOf (retrieval.owner hop.sourceContextId) hop.sourceContextId := by
  unfold seedSpaces
  cases isSeed : relationSeedHop path with
  | none => simp
  | some hop =>
      obtain ⟨seed, stored, -⟩ := seed_answers gathered lookup member isSeed
      have owning := get?_owningSpaces (contexts_reached gathered).owned
        (BTreeMap.mem_keys_of_get? stored)
      simp [owning, spacesOf, eq_comm]

theorem mem_contextOrigins {hopOnly : Finset SpaceId} {owning : BTreeMap ContextId SpaceId}
    (entry : ContextKey × AcceptedContextEvidence) {origin target : SpaceId} :
    (∃ set, (target, set) ∈ contextOrigins retrieval.effectiveSpaces hopOnly owning entry ∧
        origin ∈ set) ↔
      target ∈ retrieval.spacesOf entry.1.spaceId entry.1.contextId ∧ target ∈ hopOnly ∧
        origin ≠ target ∧ ∃ path ∈ entry.2.graphPaths, ∃ spaces,
          seedSpaces retrieval.effectiveSpaces owning path = some spaces ∧ origin ∈ spaces := by
  unfold contextOrigins spacesOf
  simp only [List.mem_flatMap, List.mem_filterMap, List.mem_map, BTreeMap.ordered_eq_sort,
    Finset.mem_sort, Finset.mem_inter, Prod.mk.injEq]
  constructor
  · rintro ⟨set, ⟨spaces, ⟨path, pathMem, seeds⟩, other, ⟨reached, isHopOnly⟩, rfl, rfl⟩, member⟩
    rw [Finset.mem_erase] at member
    exact ⟨reached, isHopOnly, member.1, path, pathMem, spaces, seeds, member.2⟩
  · rintro ⟨reached, isHopOnly, different, path, pathMem, spaces, seeds, member⟩
    exact ⟨_, ⟨spaces, ⟨path, pathMem, seeds⟩, target, ⟨reached, isHopOnly⟩, rfl, rfl⟩,
      Finset.mem_erase.mpr ⟨different, member⟩⟩

theorem mem_origins (gathered : retrieval.taskEvidence = .ok found) (hopOnly : Finset SpaceId)
    (origin target : SpaceId) :
    (∃ set, (BTreeMap.unite (found.contexts.entries.flatMap
        (contextOrigins retrieval.effectiveSpaces hopOnly
          (owningSpaces found.contexts)))).get? target = some set ∧ origin ∈ set) ↔
      target ∈ hopOnly ∧ origin ≠ target ∧ retrieval.RelationHopFrom found origin target := by
  rw [BTreeMap.mem_unite]
  simp only [List.mem_flatMap]
  constructor
  · rintro ⟨set, ⟨⟨key, context⟩, entryMem, pairMem⟩, member⟩
    obtain ⟨reached, isHopOnly, different, path, pathMem, spaces, seeds, originMem⟩ :=
      (mem_contextOrigins (key, context)).mp ⟨set, pairMem, member⟩
    rw [BTreeMap.mem_entries] at entryMem
    obtain ⟨hop, isSeed, rfl⟩ := (seedSpaces_eq_some gathered entryMem pathMem).mp seeds
    exact ⟨isHopOnly, different, key, context, path, hop, entryMem, reached, pathMem, isSeed,
      originMem⟩
  · rintro ⟨isHopOnly, different, key, context, path, hop, lookup, reached, pathMem, isSeed,
      originMem⟩
    obtain ⟨set, pairMem, member⟩ := (mem_contextOrigins (key, context)).mpr
      ⟨reached, isHopOnly, different, path, pathMem, _,
        (seedSpaces_eq_some gathered lookup pathMem).mpr ⟨hop, isSeed, rfl⟩, originMem⟩
    exact ⟨set, ⟨(key, context), BTreeMap.mem_entries.mpr lookup, pairMem⟩, member⟩

/-! ### Origins answer -/

theorem origin_answers (gathered : retrieval.taskEvidence = .ok found) {origin target : SpaceId}
    (hopFrom : retrieval.HopFrom found origin target) :
    ∃ evidence, found.evidence.get? origin = some evidence ∧ evidence.Answered := by
  rcases hopFrom with relationHop | graphHop
  · obtain ⟨key, context, path, hop, lookup, -, pathMem, isSeed, originMem⟩ := relationHop
    obtain ⟨seed, stored, direct⟩ := seed_answers gathered lookup pathMem isSeed
    exact context_answers gathered stored direct originMem
  · obtain ⟨key, context, seedKey, seed, graphPath, hop, hops, -, -, -, stored, -, exactMem,
      originMem⟩ := graphHop
    refine graphContext_answers gathered stored ?_ originMem
    have isExact : seed.evidence.graphPaths.any TaskRetrievalPath.isExactArtifact = true :=
      List.any_eq_true.mpr ⟨_, exactMem, rfl⟩
    unfold AcceptedContextEvidence.Direct
    tauto

theorem origin_not_hopOnly (gathered : retrieval.taskEvidence = .ok found)
    {origin target : SpaceId} (hopFrom : retrieval.HopFrom found origin target) :
    ¬ found.HopOnly origin := by
  rintro ⟨evidence, lookup, hopOnly⟩
  obtain ⟨stored, sameLookup, answered⟩ := origin_answers gathered hopFrom
  rw [lookup] at sameLookup
  rw [Option.some.inj sameLookup, not_hopOnly_of_answered answered] at hopOnly
  exact absurd hopOnly (by simp)

/-! ### The scores after the cap -/

theorem get?_withScores (scores : SpaceId → Nat) (evidence : SpaceEvidence) (spaceId : SpaceId) :
    (withScores scores evidence).get? spaceId = (evidence.get? spaceId).map fun value =>
      { value with fusedScoreBasisPoints := scores spaceId } := by
  rw [withScores, BTreeMap.get?_filterMap]
  cases evidence.get? spaceId <;> rfl

theorem mem_hopOnly {scores : SpaceId → Nat} {spaceId : SpaceId} :
    spaceId ∈ ((withScores scores found.evidence).filter
        fun _ value => spaceReachedOnlyByRelationHops value).keys ↔ found.HopOnly spaceId := by
  rw [BTreeMap.mem_keys_iff]
  simp only [BTreeMap.get?_filter_eq_some, get?_withScores, Option.map_eq_some_iff]
  constructor
  · rintro ⟨value, ⟨evidence, lookup, rfl⟩, hopOnly⟩
    exact ⟨evidence, lookup, hopOnly⟩
  · rintro ⟨evidence, lookup, hopOnly⟩
    exact ⟨_, ⟨evidence, lookup, rfl⟩, hopOnly⟩

theorem originLimit_eq_some {before : BTreeMap SpaceId Nat} {origins : Finset SpaceId}
    {limit : Nat} :
    originLimit before origins = some limit ↔
      (∃ origin ∈ origins, before.get? origin = some limit) ∧
        ∀ origin ∈ origins, ∀ score, before.get? origin = some score → limit ≤ score := by
  unfold originLimit
  rw [List.min?_eq_some_iff]
  simp only [List.mem_filterMap, BTreeMap.ordered_eq_sort, Finset.mem_sort]
  exact and_congr_right fun _ =>
    ⟨fun least origin member score found => least score ⟨origin, member, found⟩,
      fun least score ⟨origin, member, found⟩ => least origin member score found⟩

theorem originLimit_eq_none {before : BTreeMap SpaceId Nat} {origins : Finset SpaceId} :
    originLimit before origins = none ↔ ∀ origin ∈ origins, before.get? origin = none := by
  unfold originLimit
  rw [List.min?_eq_none_iff, List.filterMap_eq_nil_iff]
  simp only [BTreeMap.ordered_eq_sort, Finset.mem_sort]

theorem get?_capHopOnlySpaceScores (evidence : SpaceEvidence) (contexts : Contexts)
    (effectiveSpaces : EffectiveSpaces) (spaceId : SpaceId) :
    (capHopOnlySpaceScores evidence contexts effectiveSpaces).get? spaceId =
      let hopOnly := (evidence.filter fun _ value => spaceReachedOnlyByRelationHops value).keys
      if hopOnly = ∅ then evidence.get? spaceId
      else
        match (BTreeMap.unite (contexts.entries.flatMap
            (contextOrigins effectiveSpaces hopOnly (owningSpaces contexts)))).get? spaceId with
        | none => evidence.get? spaceId
        | some origins => (evidence.get? spaceId).map (capScore
            (originLimit (evidence.map AssociationEvidence.fusedScoreBasisPoints) origins)) := by
  unfold capHopOnlySpaceScores
  dsimp only
  split
  · rfl
  · rw [BTreeMap.get?_foldl_entries _ (fun _ origins => capScore
      (originLimit (evidence.map AssociationEvidence.fusedScoreBasisPoints) origins))]
    generalize (BTreeMap.unite (contexts.entries.flatMap (contextOrigins effectiveSpaces
      (evidence.filter fun _ value => spaceReachedOnlyByRelationHops value).keys
      (owningSpaces contexts)))).get? spaceId = origins
    cases origins <;> rfl

/-- A limit that is the least score of the origins the index connects to a Space. -/
def IsLimit (retrieval : GraphRetrieval) (found : TaskEvidence) (scores : SpaceId → Nat)
    (target : SpaceId) (limit : Nat) : Prop :=
  (∃ origin, retrieval.RelationHopFrom found origin target ∧ scores origin = limit) ∧
    ∀ origin, retrieval.RelationHopFrom found origin target → limit ≤ scores origin

theorem cappedScore_cases (gathered : retrieval.taskEvidence = .ok found)
    (scores : SpaceId → Nat) (spaceId : SpaceId) {evidence : AssociationEvidence}
    (lookup : found.evidence.get? spaceId = some evidence) :
    (retrieval.cappedScore scores found spaceId = some (scores spaceId) ∧
      (found.HopOnly spaceId → ∀ origin, ¬ retrieval.RelationHopFrom found origin spaceId)) ∨
    (found.HopOnly spaceId ∧ ∃ limit, IsLimit retrieval found scores spaceId limit ∧
      retrieval.cappedScore scores found spaceId = some (min (scores spaceId) (limit - 1))) := by
  have scored := get?_withScores scores found.evidence spaceId
  rw [lookup, Option.map_some] at scored
  rw [cappedScore, get?_capHopOnlySpaceScores]
  dsimp only
  generalize hopOnlyEq : ((withScores scores found.evidence).filter
    fun _ value => spaceReachedOnlyByRelationHops value).keys = hopOnly
  have isHopOnly : ∀ other, other ∈ hopOnly ↔ found.HopOnly other :=
    fun other => hopOnlyEq ▸ mem_hopOnly
  by_cases empty : hopOnly = ∅
  · left
    rw [if_pos empty, scored]
    refine ⟨rfl, fun only => ?_⟩
    rw [← isHopOnly, empty] at only
    exact absurd only (Finset.notMem_empty _)
  · rw [if_neg empty, scored]
    have beforeEq : ∀ {origin target : SpaceId}, retrieval.RelationHopFrom found origin target →
        ((withScores scores found.evidence).map
          AssociationEvidence.fusedScoreBasisPoints).get? origin = some (scores origin) := by
      intro origin target relationHop
      obtain ⟨value, stored, -⟩ := origin_answers gathered (Or.inl relationHop)
      rw [BTreeMap.get?_map, get?_withScores, stored]
      rfl
    have origins := fun origin => mem_origins gathered hopOnly origin spaceId
    have apart : ∀ origin, found.HopOnly spaceId →
        retrieval.RelationHopFrom found origin spaceId → origin ≠ spaceId := by
      rintro origin only relationHop rfl
      exact origin_not_hopOnly gathered (Or.inl relationHop) only
    cases collected : (BTreeMap.unite (found.contexts.entries.flatMap
        (contextOrigins retrieval.effectiveSpaces hopOnly
          (owningSpaces found.contexts)))).get? spaceId with
    | none =>
        left
        refine ⟨rfl, fun only origin relationHop => ?_⟩
        obtain ⟨set, stored, -⟩ := (origins origin).mpr
          ⟨(isHopOnly spaceId).mpr only, apart origin only relationHop, relationHop⟩
        rw [collected] at stored
        exact absurd stored (by simp)
    | some set =>
        have inSet : ∀ origin, origin ∈ set ↔ spaceId ∈ hopOnly ∧ origin ≠ spaceId ∧
            retrieval.RelationHopFrom found origin spaceId := by
          intro origin
          rw [← origins origin, collected]
          simp
        cases limitEq : originLimit ((withScores scores found.evidence).map
            AssociationEvidence.fusedScoreBasisPoints) set with
        | none =>
            left
            refine ⟨by simp [limitEq, capScore], fun only origin relationHop => ?_⟩
            have member := (inSet origin).mpr
              ⟨(isHopOnly spaceId).mpr only, apart origin only relationHop, relationHop⟩
            have absent := originLimit_eq_none.mp limitEq origin member
            rw [beforeEq relationHop] at absent
            exact absurd absent (by simp)
        | some limit =>
            right
            obtain ⟨⟨origin, member, score⟩, least⟩ := originLimit_eq_some.mp limitEq
            obtain ⟨only, -, relationHop⟩ := (inSet origin).mp member
            rw [beforeEq relationHop, Option.some.injEq] at score
            refine ⟨(isHopOnly spaceId).mp only, limit, ⟨⟨origin, relationHop, score⟩, ?_⟩,
              by simp [limitEq, capScore]⟩
            intro other otherHop
            exact least other ((inSet other).mpr
              ⟨only, apart other ((isHopOnly spaceId).mp only) otherHop, otherHop⟩) _
              (beforeEq otherHop)

theorem cappedScore_other (gathered : retrieval.taskEvidence = .ok found)
    (scores : SpaceId → Nat) {spaceId : SpaceId} (other : ¬ found.HopOnly spaceId) :
    retrieval.cappedScore scores found spaceId =
      (found.evidence.get? spaceId).map fun _ => scores spaceId := by
  cases lookup : found.evidence.get? spaceId with
  | some evidence =>
      rcases cappedScore_cases gathered scores spaceId lookup with ⟨kept, -⟩ | ⟨only, -⟩
      · exact kept
      · exact absurd only other
  | none =>
      have scored := get?_withScores scores found.evidence spaceId
      rw [lookup, Option.map_none] at scored
      rw [cappedScore, get?_capHopOnlySpaceScores, scored]
      dsimp only
      split
      · rfl
      · split <;> rfl

end GraphRetrieval

/-! ### A hop of the Engineering Graph -/

/-- The parser's Context, and the Context of the lexer that it depends on. -/
def hopSnapshot (number : Nat) (relations : List GraphContextRelation) : GraphContextSnapshot where
  spaceId := ⟨BitVec.ofNat 128 number⟩
  spaceTitle := "Parsing"
  contextId := ⟨BitVec.ofNat 128 number⟩
  revision :=
    { revisionId := ⟨BitVec.ofNat 128 number⟩
      parentRevisionIds := []
      kind := .discovery
      topicKey := none
      problemView := none
      statement := "the parser reads tokens"
      rationale := "it was measured"
      applicability := ⟨[], [], []⟩
      assumptions := []
      recheckWhen := []
      hints := []
      relations := []
      evidence := [⟨⟨0⟩, .sourceSnapshot, "the reading", .object [("path", .string "src")],
        "tokens are read", ["one commit"]⟩] }
  status := .accepted
  evidenceCompleteness := 1000
  safety := ⟨true, []⟩
  relations := relations

def parserFile : ArtifactKey := ⟨⟨"parsers"⟩, .file ⟨"src/parser.rs"⟩⟩

def parserResolution : ResolvedReferenceProjection where
  contextId := ⟨1⟩
  revisionId := ⟨1⟩
  referenceId := ⟨7⟩
  locator := some (.file ⟨"src/parser.rs"⟩)
  repositoryGeneration := none
  artifactGeneration := "generation"
  resolution := ⟨⟨7⟩, ⟨"parsers"⟩, .resolved, some parserFile, [parserFile], "exact file"⟩
  association := some ⟨⟨1⟩, ⟨1⟩, parserFile, .implements, [⟨7⟩], 1, "exact file"⟩
  artifacts := [⟨⟨⟨"parsers"⟩, "parsers"⟩, parserFile, "src/parser.rs"⟩]
  evidence := [⟨some parserFile, .exactFilePath, 1, "exact file"⟩]

def hopGraph : EngineeringProjection where
  policyVersion := resolverPolicyVersion
  artifactGeneration := "generation"
  contexts := [hopSnapshot 1 [⟨⟨2⟩, ⟨2⟩, ⟨2⟩, .dependsOn, "tokens", ["the grammar"]⟩],
    hopSnapshot 2 []]
  references := [parserResolution]
  incompleteScans := []

/-- The focus is the file of the parser, and nothing else answers. -/
def hopRetrieval : GraphRetrieval where
  owner contextId := ⟨contextId.uuid⟩
  matched := ⟨.empty, by simp [BTreeMap.empty], by simp, by simp⟩
  relations := ⟨[], by simp⟩
  graph := some hopGraph
  resolvedFocus := some ⟨⟨"parsers"⟩, .file ⟨"src/parser.rs"⟩⟩
  mode := .explicit
  coverageBasis := ⟨[], []⟩
  effectiveSpaces := .empty
  intentEvidence := .empty
  texts := ⟨fun focus => focus.repositoryId.text, fun _ => "", fun _ _ _ _ => "association"⟩

def hopScores (spaceId : SpaceId) : Nat :=
  if spaceId = ⟨1⟩ then 5 else 9

/-- The exact route to the parser's Context. -/
def parserPath : GraphArtifactRetrievalPath where
  resolvedFocus := ⟨⟨"parsers"⟩, .file ⟨"src/parser.rs"⟩⟩
  repositoryId := ⟨"parsers"⟩
  artifactKey := parserFile
  artifactKind := .file
  referenceId := ⟨7⟩
  associationId := "association"
  associationKind := .implements
  matchBasis := .exactFilePath
  resolutionStatus := .resolved
  confidenceBasisPoints := 10000
  artifactGeneration := "generation"

def lexerHop : ContextRelationRetrievalPath :=
  ⟨⟨1⟩, ⟨1⟩, ⟨2⟩, ⟨2⟩, .dependsOn, "tokens", ["the grammar"], 1⟩

theorem hopRetrieval_gathered : ∃ found, hopRetrieval.taskEvidence = .ok found ∧
    (found.evidence.get? ⟨2⟩).map spaceReachedOnlyByRelationHops = some true ∧
    (found.graphContexts.get? ⟨⟨1⟩, ⟨1⟩, ⟨1⟩⟩).map (fun context => context.evidence.graphPaths) =
      some [.engineeringGraph parserPath []] ∧
    (found.graphContexts.get? ⟨⟨2⟩, ⟨2⟩, ⟨2⟩⟩).map (fun context => context.evidence.graphPaths) =
      some [.engineeringGraph parserPath [lexerHop]] ∧
    hopRetrieval.cappedScore hopScores found ⟨1⟩ = some 5 ∧
    hopRetrieval.cappedScore hopScores found ⟨2⟩ = some 9 := by
  have computed : (match hopRetrieval.taskEvidence with
      | .error _ => false
      | .ok found => decide (
        (found.evidence.get? ⟨2⟩).map spaceReachedOnlyByRelationHops = some true ∧
        (found.graphContexts.get? ⟨⟨1⟩, ⟨1⟩, ⟨1⟩⟩).map
          (fun context => context.evidence.graphPaths) =
            some [.engineeringGraph parserPath []] ∧
        (found.graphContexts.get? ⟨⟨2⟩, ⟨2⟩, ⟨2⟩⟩).map
          (fun context => context.evidence.graphPaths) =
            some [.engineeringGraph parserPath [lexerHop]] ∧
        hopRetrieval.cappedScore hopScores found ⟨1⟩ = some 5 ∧
        hopRetrieval.cappedScore hopScores found ⟨2⟩ = some 9)) = true := by
    decide +kernel
  cases gathered : hopRetrieval.taskEvidence with
  | error error =>
      rw [gathered] at computed
      exact absurd computed (by simp)
  | ok found =>
      rw [gathered] at computed
      exact ⟨found, rfl, of_decide_eq_true computed⟩

/-! ### When hops stay behind -/

open GraphRetrieval in
/-- Hops stay behind the Spaces they start in exactly when every origin has a score, and an
origin that only the Engineering Graph connects is ahead already, or not behind an origin
that the index connects. -/
theorem hops_stay_behind_iff (retrieval : GraphRetrieval) (scores : SpaceId → Nat)
    {found : TaskEvidence} (gathered : retrieval.taskEvidence = .ok found) :
    retrieval.HopsStayBehind scores found ↔ retrieval.OriginsLead scores found := by
  have originScore : ∀ {origin target : SpaceId}, retrieval.HopFrom found origin target →
      retrieval.cappedScore scores found origin = some (scores origin) := by
    intro origin target hopFrom
    obtain ⟨evidence, lookup, -⟩ := origin_answers gathered hopFrom
    rw [cappedScore_other gathered scores (origin_not_hopOnly gathered hopFrom), lookup]
    rfl
  constructor
  · intro stays target origin only hopFrom
    obtain ⟨low, high, lowEq, highEq, below⟩ := stays.behind target origin only hopFrom
    rw [originScore hopFrom, Option.some.injEq] at highEq
    subst highEq
    refine ⟨by omega, ?_⟩
    obtain ⟨evidence, lookup, -⟩ := only
    rcases cappedScore_cases gathered scores target lookup with
      ⟨kept, -⟩ | ⟨-, limit, ⟨⟨other, relationHop, isLimit⟩, -⟩, capped⟩
    · rw [kept, Option.some.injEq] at lowEq
      right
      left
      omega
    · rw [capped, Option.some.injEq] at lowEq
      right
      by_cases ahead : scores target < scores origin
      · exact Or.inl ahead
      · right
        exact ⟨other, relationHop, by omega⟩
  · intro lead
    refine ⟨?_, fun spaceId other => cappedScore_other gathered scores other⟩
    intro target origin only hopFrom
    obtain ⟨positive, cases⟩ := lead target origin only hopFrom
    have isOnly := only
    obtain ⟨evidence, lookup, -⟩ := isOnly
    rcases cappedScore_cases gathered scores target lookup with
      ⟨kept, unreached⟩ | ⟨-, limit, ⟨-, least⟩, capped⟩
    · refine ⟨_, _, kept, originScore hopFrom, ?_⟩
      rcases cases with relationHop | ahead | ⟨other, relationHop, -⟩
      · exact absurd relationHop (unreached only origin)
      · exact ahead
      · exact absurd relationHop (unreached only other)
    · refine ⟨_, _, capped, originScore hopFrom, ?_⟩
      rcases cases with relationHop | ahead | ⟨other, relationHop, behind⟩
      · have atLeast := least origin relationHop
        omega
      · omega
      · have atLeast := least other relationHop
        omega

theorem hops_stay_behind_iff_hopRetrieval : ∃ found, hopRetrieval.taskEvidence = .ok found ∧
    (hopRetrieval.HopsStayBehind hopScores found ↔ hopRetrieval.OriginsLead hopScores found) := by
  obtain ⟨found, gathered, -⟩ := hopRetrieval_gathered
  exact ⟨found, gathered, hops_stay_behind_iff hopRetrieval hopScores gathered⟩

/-- The lexer's Space is reached by a hop of the Engineering Graph alone, and keeps its lead
over the Space the hop starts in. -/
theorem graph_hop_leads : hopGraph.validate = .ok () ∧
    ∃ found, hopRetrieval.taskEvidence = .ok found ∧
      ¬ hopRetrieval.HopsStayBehind hopScores found := by
  refine ⟨by decide, ?_⟩
  obtain ⟨found, gathered, only, seedPaths, hopPaths, origin, target⟩ := hopRetrieval_gathered
  refine ⟨found, gathered, fun stays => ?_⟩
  obtain ⟨evidence, stored, isOnly⟩ := Option.map_eq_some_iff.mp only
  obtain ⟨seed, seedStored, seedEq⟩ := Option.map_eq_some_iff.mp seedPaths
  obtain ⟨context, contextStored, contextEq⟩ := Option.map_eq_some_iff.mp hopPaths
  have hopFrom : hopRetrieval.HopFrom found ⟨1⟩ ⟨2⟩ := by
    refine Or.inr ⟨⟨⟨2⟩, ⟨2⟩, ⟨2⟩⟩, context, ⟨⟨1⟩, ⟨1⟩, ⟨1⟩⟩, seed, parserPath, lexerHop, [],
      contextStored, by decide, ?_, seedStored, rfl, ?_, by decide⟩
    · rw [contextEq]
      exact List.mem_singleton_self _
    · rw [seedEq]
      exact List.mem_singleton_self _
  obtain ⟨low, high, lowEq, highEq, below⟩ := stays.behind ⟨2⟩ ⟨1⟩ ⟨evidence, stored, isOnly⟩ hopFrom
  rw [target, Option.some.injEq] at lowEq
  rw [origin, Option.some.injEq] at highEq
  omega

end SharedContext.Search
