import SharedContext.Search.RelationHops

/-!
# Where hops start

Relations are followed only from Contexts that answer the query themselves, so
the Spaces that hops start in are never reached by hops alone.
-/

namespace SharedContext.Search

open EngineeringGraph

/-! ### The whole retrieval -/

/-- What the queries for text, scopes, hints and the focus text have found. -/
structure MatchedContexts (owner : ContextId → SpaceId) where
  contexts : Contexts
  owned : ∀ key ∈ contexts.keys, key.spaceId = owner key.contextId
  unhopped : ∀ key context, contexts.get? key = some context →
    ∀ path ∈ context.graphPaths, path.isFocusFallback = true
  answered : ∀ key context, contexts.get? key = some context →
    context.matchedTokens ≠ ∅ ∨ context.phraseMatch = true →
      context.textualMatch = true ∨ context.graphPaths ≠ []

/-- The active relations, each to the Space that owns its target. -/
structure RelationIndex (owner : ContextId → SpaceId) where
  edges : List IndexedContextRelation
  owned : ∀ edge ∈ edges, edge.targetSpaceId = owner edge.targetContextId

structure GraphRetrieval where
  owner : ContextId → SpaceId
  matched : MatchedContexts owner
  relations : RelationIndex owner
  graph : Option EngineeringProjection
  resolvedFocus : Option ResolvedFocus
  mode : ContextPackMode
  coverageBasis : AutomaticCoverageBasis
  effectiveSpaces : EffectiveSpaces
  intentEvidence : SpaceEvidence
  texts : RetrievalTexts

/-- The evidence of a retrieval before its Spaces are scored. -/
structure TaskEvidence where
  evidence : SpaceEvidence
  contexts : Contexts
  graphContexts : GraphContexts

namespace GraphRetrieval

variable (retrieval : GraphRetrieval)

def graphEvidence : Result GraphContexts :=
  match retrieval.graph with
  | none => pure .empty
  | some graph =>
      expandGraphContextRelationEvidence retrieval.texts graph retrieval.mode
        (queryGraphContextEvidence retrieval.texts graph retrieval.resolvedFocus retrieval.mode)

def relationEvidence : Result Contexts :=
  expandCurrentContextRelationEvidence retrieval.texts retrieval.mode retrieval.coverageBasis
    retrieval.relations.edges retrieval.matched.contexts

def spacesOf (fallback : SpaceId) (contextId : ContextId) : Finset SpaceId :=
  effectiveContextSpaceIds retrieval.effectiveSpaces fallback contextId

def aggregateContexts (contexts : Contexts) (evidence : SpaceEvidence) : SpaceEvidence :=
  contexts.entries.foldl (fun evidence entry =>
    aggregateContextAcrossEffectiveSpaces retrieval.effectiveSpaces entry.1.spaceId
      entry.1.contextId entry.2 evidence) evidence

def aggregateGraphContexts (contexts : GraphContexts) (evidence : SpaceEvidence) :
    SpaceEvidence :=
  contexts.entries.foldl (fun evidence entry =>
    aggregateContextAcrossEffectiveSpaces retrieval.effectiveSpaces entry.1.spaceId
      entry.1.contextId entry.2.evidence evidence) evidence

def taskEvidence : Result TaskEvidence := do
  let graphContexts ← retrieval.graphEvidence
  let contexts ← retrieval.relationEvidence
  pure {
    evidence := retrieval.aggregateGraphContexts graphContexts
      (retrieval.aggregateContexts contexts retrieval.intentEvidence)
    contexts := contexts
    graphContexts := graphContexts }

end GraphRetrieval

/-! ### Contexts and Spaces that answer -/

/-- The Context itself matches text, a hint, a scope, an artifact or the focus. -/
def AcceptedContextEvidence.Direct (context : AcceptedContextEvidence) : Prop :=
  context.textualMatch = true ∨ context.hintText.keys ≠ ∅ ∨ context.matchedScopes ≠ ∅ ∨
    context.matchedArtifacts ≠ ∅ ∨
    context.graphPaths.any TaskRetrievalPath.isExactArtifact = true ∨
    context.graphPaths.any TaskRetrievalPath.isFocusFallback = true

def AcceptedContextEvidence.Richer (before after : AcceptedContextEvidence) : Prop :=
  (before.Direct → after.Direct) ∧ ∀ path ∈ before.graphPaths, path ∈ after.graphPaths

namespace AcceptedContextEvidence

theorem Richer.refl (context : AcceptedContextEvidence) : context.Richer context :=
  ⟨id, fun _ member => member⟩

theorem Richer.trans {first second third : AcceptedContextEvidence}
    (start : first.Richer second) (rest : second.Richer third) : first.Richer third :=
  ⟨fun direct => rest.1 (start.1 direct), fun path member => rest.2 path (start.2 path member)⟩

theorem richer_of_paths {before after : AcceptedContextEvidence}
    (textual : after.textualMatch = before.textualMatch)
    (hints : after.hintText = before.hintText) (scopes : after.matchedScopes = before.matchedScopes)
    (artifacts : after.matchedArtifacts = before.matchedArtifacts)
    (paths : ∀ path ∈ before.graphPaths, path ∈ after.graphPaths) : before.Richer after := by
  refine ⟨?_, paths⟩
  have anyKept : ∀ test : TaskRetrievalPath → Bool,
      before.graphPaths.any test = true → after.graphPaths.any test = true := by
    intro test found
    obtain ⟨path, member, passes⟩ := List.any_eq_true.mp found
    exact List.any_eq_true.mpr ⟨path, paths path member, passes⟩
  unfold Direct
  rw [textual, hints, scopes, artifacts]
  have exactKept := anyKept TaskRetrievalPath.isExactArtifact
  have fallbackKept := anyKept TaskRetrievalPath.isFocusFallback
  tauto

theorem richer_recordHop (depth : Nat) (path : TaskRetrievalPath)
    (context : AcceptedContextEvidence) : context.Richer (context.recordHop depth path) :=
  richer_of_paths rfl rfl rfl rfl fun _ member => List.mem_append_left _ member

theorem richer_sortPaths (texts : RetrievalTexts) (context : AcceptedContextEvidence) :
    context.Richer (context.sortPaths texts) :=
  richer_of_paths rfl rfl rfl rfl fun _ member => mem_sortDedupPaths.mpr member

end AcceptedContextEvidence

/-- A Space that the query answers by something other than hops. -/
def AssociationEvidence.Answered (evidence : AssociationEvidence) : Prop :=
  evidence.intentMatched = true ∨ evidence.textualContexts ≠ ∅ ∨ evidence.hintText.keys ≠ ∅ ∨
    evidence.matchedScopes ≠ ∅ ∨ evidence.matchedArtifacts ≠ ∅ ∨
    evidence.graphExactContexts ≠ ∅ ∨ evidence.focusTextFallbackContexts ≠ ∅

theorem not_hopOnly_of_answered {evidence : AssociationEvidence} (answered : evidence.Answered) :
    spaceReachedOnlyByRelationHops evidence = false := by
  unfold AssociationEvidence.Answered at answered
  unfold spaceReachedOnlyByRelationHops
  rcases answered with h | h | h | h | h | h | h <;> simp [h]

theorem addWhen_ne_empty {present : Bool} {contextId : ContextId} {contexts : Finset ContextId}
    (added : present = true ∨ contexts ≠ ∅) : addWhen present contextId contexts ≠ ∅ := by
  cases present with
  | true => exact Finset.insert_ne_empty _ _
  | false => simpa [addWhen] using added

theorem union_ne_empty {α : Type} [DecidableEq α] {first second : Finset α}
    (nonempty : first ≠ ∅ ∨ second ≠ ∅) : first ∪ second ≠ ∅ := by
  intro both
  rw [Finset.union_eq_empty] at both
  exact nonempty.elim (absurd both.1) (absurd both.2)

theorem keys_mergeHints (hints others : HintText) :
    (mergeHints hints others).keys = hints.keys ∪ others.keys := by
  ext channel
  rw [BTreeMap.mem_keys, mergeHints, BTreeMap.get?_ofKeys]
  split
  · rename_i member
    refine ⟨fun _ => member, fun _ => ?_⟩
    rw [Finset.mem_union, BTreeMap.mem_keys, BTreeMap.mem_keys] at member
    cases first : hints.get? channel <;> cases second : others.get? channel <;> simp_all
  · rename_i absent
    exact ⟨fun found => absurd found (by simp), fun member => absurd member absent⟩

theorem AssociationEvidence.Answered.aggregate {aggregate : AssociationEvidence}
    (answered : aggregate.Answered) (contextId : ContextId) (context : AcceptedContextEvidence) :
    (aggregateContextEvidence contextId context aggregate).Answered := by
  unfold AssociationEvidence.Answered
  simp only [aggregateContextEvidence, keys_mergeHints]
  rcases answered with intent | textual | hints | scopes | artifacts | exactly | fallback
  · exact Or.inl intent
  · exact Or.inr (Or.inl (addWhen_ne_empty (Or.inr textual)))
  · exact Or.inr (Or.inr (Or.inl (union_ne_empty (Or.inl hints))))
  · exact Or.inr (Or.inr (Or.inr (Or.inl (union_ne_empty (Or.inl scopes)))))
  · exact Or.inr (Or.inr (Or.inr (Or.inr (Or.inl (union_ne_empty (Or.inl artifacts))))))
  · exact Or.inr (Or.inr (Or.inr (Or.inr (Or.inr (Or.inl (addWhen_ne_empty (Or.inr exactly)))))))
  · exact Or.inr (Or.inr (Or.inr (Or.inr (Or.inr (Or.inr (addWhen_ne_empty (Or.inr fallback)))))))

theorem AcceptedContextEvidence.Direct.aggregate {context : AcceptedContextEvidence}
    (direct : context.Direct) (contextId : ContextId) (aggregate : AssociationEvidence) :
    (aggregateContextEvidence contextId context aggregate).Answered := by
  unfold AssociationEvidence.Answered
  simp only [aggregateContextEvidence, keys_mergeHints]
  rcases direct with textual | hints | scopes | artifacts | exactly | fallback
  · exact Or.inr (Or.inl (addWhen_ne_empty (Or.inl textual)))
  · exact Or.inr (Or.inr (Or.inl (union_ne_empty (Or.inr hints))))
  · exact Or.inr (Or.inr (Or.inr (Or.inl (union_ne_empty (Or.inr scopes)))))
  · exact Or.inr (Or.inr (Or.inr (Or.inr (Or.inl (union_ne_empty (Or.inr artifacts))))))
  · exact Or.inr (Or.inr (Or.inr (Or.inr (Or.inr (Or.inl (addWhen_ne_empty (Or.inl exactly)))))))
  · exact Or.inr (Or.inr (Or.inr (Or.inr (Or.inr (Or.inr (addWhen_ne_empty (Or.inl fallback)))))))

theorem direct_of_positive {context : AcceptedContextEvidence} {mode : ContextPackMode}
    {basis : AutomaticCoverageBasis}
    (answered : context.matchedTokens ≠ ∅ ∨ context.phraseMatch = true →
      context.textualMatch = true ∨
        context.graphPaths.any TaskRetrievalPath.isFocusFallback = true)
    (positive : contextIsPositiveSeed context mode basis = true) : context.Direct := by
  unfold contextIsPositiveSeed at positive
  unfold AcceptedContextEvidence.Direct
  split at positive
  · rename_i exactOrArtifact
    simp only [Bool.or_eq_true, decide_eq_true_eq] at exactOrArtifact
    tauto
  · split at positive
    · simp only [Bool.or_eq_true, decide_eq_true_eq] at positive
      tauto
    · unfold automaticDirectContextTextEligible at positive
      split at positive
      · rename_i phrase
        simp only [Bool.or_eq_true, decide_eq_true_eq] at phrase
        rcases phrase with phrase | hinted
        · have := answered (Or.inr phrase)
          tauto
        · obtain ⟨channel, hint, found, -⟩ := BTreeMap.any_iff.mp hinted
          exact Or.inr (Or.inl
            (Finset.ne_empty_of_mem (BTreeMap.mem_keys_of_get? found)))
      · by_cases hints : context.hintText.keys = ∅
        · have noCoverage : hintCoverage context.hintText = 0 := by
            rw [hintCoverage, hints, Finset.sup_empty]
            rfl
          by_cases textual : context.textualMatch = true
          · exact Or.inl textual
          · by_cases tokens : context.matchedTokens = ∅
            · simp [automaticCoveragePasses, noCoverage, identifierWeightedCoverageBasisPoints,
                tokenCoverageBasisPoints, tokens, automaticMinIdentifierQueryTokens,
                automaticTextCoverageThresholdBasisPoints, hints, textual] at positive
            · have := answered (Or.inl tokens)
              tauto
        · exact Or.inr (Or.inl hints)

/-! ### Routes over Context relations -/

/-- The hops of a route start at a seed. -/
def HopsFrom (seeds : ContextId → Prop) (hops : List ContextRelationRetrievalPath) : Prop :=
  ∀ hop, hops.head? = some hop → seeds hop.sourceContextId

/-- A route starts at a seed, where it stands as long as it has no hops. -/
def Route.StartsAt {κ : Type} (route : Route κ) (seeds : ContextId → Prop)
    (contextOf : κ → ContextId) : Prop :=
  HopsFrom seeds route.hops ∧ (route.hops = [] → seeds (contextOf route.current))

theorem Route.StartsAt.hop {κ : Type} {route : Route κ} {seeds : ContextId → Prop}
    {contextOf : κ → ContextId} (starts : route.StartsAt seeds contextOf)
    (hop : ContextRelationRetrievalPath) (source : hop.sourceContextId = contextOf route.current) :
    HopsFrom seeds (route.hops ++ [hop]) := by
  intro first isFirst
  rcases hopsEq : route.hops with _ | ⟨head, rest⟩
  · rw [hopsEq, List.nil_append, List.head?_cons, Option.some.injEq] at isFirst
    rw [← isFirst, source]
    exact starts.2 hopsEq
  · apply starts.1
    rw [hopsEq] at isFirst ⊢
    exact isFirst

/-- What following relations keeps of the Contexts it started with. -/
structure RelationReached (owner : ContextId → SpaceId) (start : Contexts)
    (seeds : ContextId → Prop) (contexts : Contexts) : Prop where
  grows : BTreeMap.Grows AcceptedContextEvidence.Richer start contexts
  owned : ∀ key ∈ contexts.keys, key.spaceId = owner key.contextId
  fromSeeds : ∀ key context, contexts.get? key = some context → ∀ path ∈ context.graphPaths,
    ∀ hop, relationSeedHop path = some hop → seeds hop.sourceContextId

theorem RelationReached.start {owner : ContextId → SpaceId} (matched : MatchedContexts owner)
    (seeds : ContextId → Prop) :
    RelationReached owner matched.contexts seeds matched.contexts where
  grows := .refl AcceptedContextEvidence.Richer.refl _
  owned := matched.owned
  fromSeeds key context found path member hop isSeed := by
    have fallback := matched.unhopped key context found path member
    cases path <;> simp [TaskRetrievalPath.isFocusFallback, relationSeedHop] at fallback isSeed

theorem followEdge_keeps {owner : ContextId → SpaceId} {start : Contexts}
    {seeds : ContextId → Prop} {route : Route ContextId} {contexts next : Contexts}
    {edge : IndexedContextRelation} {found : List (Route ContextId)}
    (owned : edge.targetSpaceId = owner edge.targetContextId)
    (source : edge.sourceContextId = route.current) (starts : route.StartsAt seeds id)
    (reached : RelationReached owner start seeds contexts)
    (followed : followEdge route contexts edge = .ok (next, found)) :
    RelationReached owner start seeds next ∧ ∀ other ∈ found, other.StartsAt seeds id := by
  unfold followEdge at followed
  split at followed
  · rw [Result.pure_eq_ok] at followed
    obtain ⟨rfl, rfl⟩ := Prod.mk.inj followed
    exact ⟨reached, by simp⟩
  · rw [Result.pure_eq_ok] at followed
    obtain ⟨rfl, rfl⟩ := Prod.mk.inj followed
    have hopsFrom := starts.hop ⟨edge.sourceContextId, edge.sourceRevisionId,
      edge.targetContextId, edge.targetRevisionId, edge.kind, edge.rationale, edge.supports,
      route.hops.length + 1⟩ source
    refine ⟨⟨?_, ?_, ?_⟩, ?_⟩
    · exact reached.grows.trans AcceptedContextEvidence.Richer.trans
        (.upsert AcceptedContextEvidence.Richer.refl _ _ _
          fun context => AcceptedContextEvidence.richer_recordHop _ _ context)
    · intro key member
      obtain ⟨context, lookup⟩ := BTreeMap.mem_keys_iff.mp member
      rw [BTreeMap.get?_upsert] at lookup
      split at lookup
      · rename_i same
        rw [same]
        exact owned
      · exact reached.owned key (BTreeMap.mem_keys_of_get? lookup)
    · intro key context lookup path member hop isSeed
      rw [BTreeMap.get?_upsert] at lookup
      split at lookup
      · rw [Option.some.injEq] at lookup
        subst lookup
        rcases List.mem_append.mp member with old | new
        · cases stored : contexts.get? ⟨edge.targetSpaceId, edge.targetContextId⟩ with
          | none => simp [stored, AcceptedContextEvidence.default] at old
          | some context =>
              rw [stored, Option.getD_some] at old
              exact reached.fromSeeds _ context stored path old hop isSeed
        · rw [List.mem_singleton] at new
          subst new
          exact hopsFrom hop isSeed
      · exact reached.fromSeeds key context lookup path member hop isSeed
    · intro other member
      rw [List.mem_singleton] at member
      subst member
      exact ⟨hopsFrom, fun none => absurd none (by simp)⟩

theorem relationEvidence_reached {retrieval : GraphRetrieval} {contexts : Contexts}
    (expanded : retrieval.relationEvidence = .ok contexts) :
    RelationReached retrieval.owner retrieval.matched.contexts
      (· ∈ relationSeeds retrieval.mode retrieval.coverageBasis retrieval.matched.contexts)
      contexts := by
  unfold GraphRetrieval.relationEvidence expandCurrentContextRelationEvidence at expanded
  split at expanded
  · rw [Result.pure_eq_ok] at expanded
    exact expanded ▸ .start retrieval.matched _
  · obtain ⟨walked, folded, sorted⟩ := Result.bind_eq_ok.mp expanded
    rw [Result.pure_eq_ok] at sorted
    generalize seedsEq : relationSeeds retrieval.mode retrieval.coverageBasis
      retrieval.matched.contexts = seeds at folded ⊢
    have reached : RelationReached retrieval.owner retrieval.matched.contexts (· ∈ seeds) walked := by
      refine BoundedWalk.foldlM_keeps ?_ (.start retrieval.matched _) folded
      intro state seed isSeed next stateReached stepped
      refine BoundedWalk.walk_keeps (fun route => route.StartsAt (· ∈ seeds) id)
        ?_ stateReached ?_ stepped
      · intro state route next found stateReached starts followed
        unfold followRoute at followed
        refine BoundedWalk.gather_keeps ?_ stateReached followed
        intro inner edge member next found innerReached edgeFollowed
        rw [List.mem_filter, decide_eq_true_eq] at member
        exact followEdge_keeps (retrieval.relations.owned edge member.1) member.2 starts
          innerReached edgeFollowed
      · intro route member
        rw [List.mem_singleton] at member
        subst member
        exact ⟨fun hop isFirst => absurd isFirst (by simp), fun _ => isSeed⟩
    subst sorted
    refine ⟨?_, ?_, ?_⟩
    · exact reached.grows.trans AcceptedContextEvidence.Richer.trans
        (.map _ fun context => AcceptedContextEvidence.richer_sortPaths _ context)
    · intro key member
      rw [BTreeMap.keys_map] at member
      exact reached.owned key member
    · intro key context lookup path member hop isSeed
      rw [BTreeMap.get?_map, Option.map_eq_some_iff] at lookup
      obtain ⟨unsorted, lookup, rfl⟩ := lookup
      exact reached.fromSeeds key unsorted lookup path (mem_sortDedupPaths.mp member) hop isSeed

/-! ### The Spaces of an answering Context -/

def StayAnswered (before after : AssociationEvidence) : Prop :=
  before.Answered → after.Answered

theorem StayAnswered.refl (evidence : AssociationEvidence) : StayAnswered evidence evidence :=
  id

theorem StayAnswered.trans {first second third : AssociationEvidence}
    (start : StayAnswered first second) (rest : StayAnswered second third) :
    StayAnswered first third :=
  fun answered => rest (start answered)

theorem grows_aggregateAcross (effectiveSpaces : EffectiveSpaces) (fallback : SpaceId)
    (contextId : ContextId) (context : AcceptedContextEvidence) (evidence : SpaceEvidence) :
    BTreeMap.Grows StayAnswered evidence
      (aggregateContextAcrossEffectiveSpaces effectiveSpaces fallback contextId context
        evidence) := by
  unfold aggregateContextAcrossEffectiveSpaces
  split
  · exact .foldl StayAnswered.refl StayAnswered.trans _ _ fun evidence role _ =>
      .upsert StayAnswered.refl _ _ _ fun _ answered => answered.aggregate contextId context
  · exact .upsert StayAnswered.refl _ _ _ fun _ answered => answered.aggregate contextId context

theorem upsert_answers {context : AcceptedContextEvidence} (direct : context.Direct)
    (contextId : ContextId) (spaceId : SpaceId) (evidence : SpaceEvidence) :
    ∃ found, (evidence.upsert spaceId .default
      (aggregateContextEvidence contextId context)).get? spaceId = some found ∧ found.Answered := by
  rw [BTreeMap.get?_upsert, if_pos rfl]
  exact ⟨_, rfl, direct.aggregate contextId _⟩

theorem aggregateAcross_answers {effectiveSpaces : EffectiveSpaces} {fallback : SpaceId}
    {contextId : ContextId} {context : AcceptedContextEvidence} {spaceId : SpaceId}
    (direct : context.Direct)
    (member : spaceId ∈ effectiveContextSpaceIds effectiveSpaces fallback contextId)
    (evidence : SpaceEvidence) :
    ∃ found, (aggregateContextAcrossEffectiveSpaces effectiveSpaces fallback contextId context
      evidence).get? spaceId = some found ∧ found.Answered := by
  unfold effectiveContextSpaceIds at member
  unfold aggregateContextAcrossEffectiveSpaces
  split at member
  · rename_i none
    rw [none]
    rw [Finset.mem_singleton] at member
    subst member
    exact upsert_answers direct contextId _ evidence
  · rename_i effective found
    rw [found]
    rw [List.mem_toFinset, List.mem_map] at member
    obtain ⟨role, roleMem, rfl⟩ := member
    refine BTreeMap.foldl_reaches StayAnswered.refl StayAnswered.trans roleMem ?_
      (fun stays answered => stays answered) ?_ evidence
    · intro evidence other _
      exact .upsert StayAnswered.refl _ _ _ fun _ answered => answered.aggregate contextId context
    · exact upsert_answers direct contextId role.matchedSpaceId

namespace GraphRetrieval

variable {retrieval : GraphRetrieval}

theorem grows_aggregateGraphContexts (contexts : GraphContexts) (evidence : SpaceEvidence) :
    BTreeMap.Grows StayAnswered evidence (retrieval.aggregateGraphContexts contexts evidence) :=
  .foldl StayAnswered.refl StayAnswered.trans _ _ fun evidence _ _ =>
    grows_aggregateAcross _ _ _ _ evidence

theorem context_answers {found : TaskEvidence} (gathered : retrieval.taskEvidence = .ok found)
    {key : ContextKey} {context : AcceptedContextEvidence}
    (lookup : found.contexts.get? key = some context) (direct : context.Direct)
    {spaceId : SpaceId} (member : spaceId ∈ retrieval.spacesOf key.spaceId key.contextId) :
    ∃ evidence, found.evidence.get? spaceId = some evidence ∧ evidence.Answered := by
  obtain ⟨graphContexts, -, rest⟩ := Result.bind_eq_ok.mp gathered
  obtain ⟨contexts, -, same⟩ := Result.bind_eq_ok.mp rest
  rw [Result.pure_eq_ok] at same
  subst same
  obtain ⟨evidence, stored, answered⟩ := BTreeMap.foldl_reaches StayAnswered.refl
    StayAnswered.trans (BTreeMap.mem_entries.mpr lookup)
    (fun evidence entry _ => grows_aggregateAcross retrieval.effectiveSpaces entry.1.spaceId
      entry.1.contextId entry.2 evidence)
    (fun stays answered => stays answered)
    (fun evidence => aggregateAcross_answers direct member evidence) retrieval.intentEvidence
  obtain ⟨grown, kept, stays⟩ := grows_aggregateGraphContexts graphContexts _ spaceId evidence stored
  exact ⟨grown, kept, stays answered⟩

theorem graphContext_answers {found : TaskEvidence} (gathered : retrieval.taskEvidence = .ok found)
    {key : GraphContextKey} {context : GraphContextEvidence}
    (lookup : found.graphContexts.get? key = some context) (direct : context.evidence.Direct)
    {spaceId : SpaceId} (member : spaceId ∈ retrieval.spacesOf key.spaceId key.contextId) :
    ∃ evidence, found.evidence.get? spaceId = some evidence ∧ evidence.Answered := by
  obtain ⟨graphContexts, -, rest⟩ := Result.bind_eq_ok.mp gathered
  obtain ⟨contexts, -, same⟩ := Result.bind_eq_ok.mp rest
  rw [Result.pure_eq_ok] at same
  subst same
  exact BTreeMap.foldl_reaches StayAnswered.refl
    StayAnswered.trans (BTreeMap.mem_entries.mpr lookup)
    (fun evidence entry _ => grows_aggregateAcross retrieval.effectiveSpaces entry.1.spaceId
      entry.1.contextId entry.2.evidence evidence)
    (fun stays answered => stays answered)
    (fun evidence => aggregateAcross_answers direct member evidence) _

theorem contexts_reached {found : TaskEvidence} (gathered : retrieval.taskEvidence = .ok found) :
    RelationReached retrieval.owner retrieval.matched.contexts
      (· ∈ relationSeeds retrieval.mode retrieval.coverageBasis retrieval.matched.contexts)
      found.contexts := by
  obtain ⟨graphContexts, -, rest⟩ := Result.bind_eq_ok.mp gathered
  obtain ⟨contexts, expanded, same⟩ := Result.bind_eq_ok.mp rest
  rw [Result.pure_eq_ok] at same
  subst same
  exact relationEvidence_reached expanded

theorem seed_answers {found : TaskEvidence} (gathered : retrieval.taskEvidence = .ok found)
    {key : ContextKey} {context : AcceptedContextEvidence}
    (lookup : found.contexts.get? key = some context) {path : TaskRetrievalPath}
    (member : path ∈ context.graphPaths) {hop : ContextRelationRetrievalPath}
    (isSeed : relationSeedHop path = some hop) :
    ∃ seed, found.contexts.get? ⟨retrieval.owner hop.sourceContextId, hop.sourceContextId⟩ =
      some seed ∧ seed.Direct := by
  have reached := contexts_reached gathered
  obtain ⟨⟨seedKey, seed⟩, seedMem, sourceEq⟩ :=
    List.mem_map.mp (reached.fromSeeds key context lookup path member hop isSeed)
  obtain ⟨stored, positive⟩ := List.mem_filter.mp seedMem
  rw [BTreeMap.mem_entries] at stored
  have owned := retrieval.matched.owned seedKey (BTreeMap.mem_keys_of_get? stored)
  have direct : seed.Direct := by
    refine direct_of_positive ?_ positive
    intro matched
    rcases retrieval.matched.answered seedKey seed stored matched with textual | hasPath
    · exact Or.inl textual
    · obtain ⟨path, pathMem⟩ := List.exists_mem_of_ne_nil _ hasPath
      exact Or.inr (List.any_eq_true.mpr
        ⟨path, pathMem, retrieval.matched.unhopped seedKey seed stored path pathMem⟩)
  obtain ⟨grown, kept, richer⟩ := reached.grows seedKey seed stored
  have keyEq : seedKey = ⟨retrieval.owner hop.sourceContextId, hop.sourceContextId⟩ := by
    cases seedKey
    simp only at sourceEq owned
    rw [owned, sourceEq]
  exact ⟨grown, keyEq ▸ kept, richer.1 direct⟩

end GraphRetrieval

end SharedContext.Search
