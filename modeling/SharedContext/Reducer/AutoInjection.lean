import SharedContext.Reducer.Partition

/-!
# Safety of automatic injection

A Context is eligible exactly when one publication head publishes one of its
valid revisions and no open conflict names it.  A conflict is resolved only
by a single resolution head that covers the current publication heads of all
its participants.
-/

namespace SharedContext

/-! ### Governance -/

section Governance

variable {publications : BTreeMap PublicationId PublicationNode} {heads : Finset PublicationId}

theorem governanceBlockers_eq_empty
    (known : ∀ publicationId ∈ heads, publicationId ∈ publications.keys) :
    governanceBlockers (contextGovernance publications heads) = ∅ ↔
      ∃ publicationId node, heads = {publicationId} ∧
        publications.get? publicationId = some node ∧ node.publication.action = .publish := by
  unfold contextGovernance
  by_cases noHead : heads.card = 0
  · simp only [noHead, if_true, governanceBlockers, Finset.singleton_ne_empty, false_iff]
    rintro ⟨publicationId, node, rfl, -⟩
    rw [Finset.card_singleton] at noHead
    omega
  by_cases oneHead : heads.card = 1
  · obtain ⟨head, rfl⟩ := Finset.card_eq_one.mp oneHead
    obtain ⟨node, found⟩ := BTreeMap.mem_keys_iff.mp (known head (Finset.mem_singleton_self head))
    have isFirst : first? {head} = some head := Finset.min_singleton
    simp only [oneHead, if_true, isFirst, Option.bind_some, found, Option.map_some,
      ContextGovernanceStatus.ofHead, Finset.singleton_inj]
    constructor
    · intro noBlocker
      refine ⟨head, node, rfl, found, ?_⟩
      cases action : node.publication.action with
      | publish => rfl
      | withdraw => simp [action, governanceBlockers] at noBlocker
    · rintro ⟨_, other, rfl, isOther, publishes⟩
      obtain rfl := Option.some.inj (found.symm.trans isOther)
      simp [publishes, governanceBlockers]
  · simp only [noHead, oneHead, if_false, governanceBlockers, Finset.singleton_ne_empty,
      false_iff]
    rintro ⟨publicationId, node, rfl, -⟩
    exact oneHead (Finset.card_singleton publicationId)

end Governance

variable {facts : Facts}

theorem mem_keys_of_publicationHead {key : ContextKey} {publicationId : PublicationId}
    (isHead : publicationId ∈ publicationHeads facts key) :
    publicationId ∈ (validPublications facts key).keys :=
  BTreeMap.mem_keys_iff.mpr (mem_heads_of_nodes.mp isHead).1

/-! ### Open conflicts -/

theorem blockAutoInjection_eligible {blocking : Finset ConflictId}
    {context : ContextProjection} :
    (blockAutoInjection blocking context).autoInjection.eligible = true ↔
      context.autoInjection.eligible = true ∧ blocking = ∅ := by
  rw [blockAutoInjection, Bool.and_eq_true, decide_eq_true_eq]

theorem conflictContext_of_participant {conflictId : ConflictId} {conflictNode : ConflictNode}
    (isConflict : (validConflicts facts).get? conflictId = some conflictNode)
    {contextId : ContextId} (member : contextId ∈ participantContexts conflictNode.conflict) :
    (conflictNode.spaceId, contextId) ∈ (validContexts facts).keys ∧
      conflictContext? facts conflictNode contextId =
        some (projectContext facts (conflictNode.spaceId, contextId)) := by
  have isValid := participant_valid (validConflicts_agrees isConflict).2.2 member
  exact ⟨isValid, contextIn?_projectSpaces.mpr ⟨isValid, rfl⟩⟩

/-- Whatever Space a conflict names, its participants are blocked: a Context
is valid in one Space only. -/
theorem openConflicts_eq_empty {spaceId : SpaceId} {contextId : ContextId}
    (valid : (spaceId, contextId) ∈ (validContexts facts).keys) :
    openConflicts (semanticConflicts facts) spaceId contextId = ∅ ↔
      ∀ conflictId conflict, (semanticConflicts facts).get? conflictId = some conflict →
        conflict.status.isOpen = true → contextId ∉ participantContexts conflict.conflict := by
  rw [Finset.eq_empty_iff_forall_notMem]
  simp only [openConflicts, BTreeMap.mem_keys_iff, BTreeMap.get?_filter_eq_some, not_exists,
    not_and]
  constructor
  · intro notBlocking conflictId conflict found isOpen member
    obtain ⟨node, isConflict, rfl⟩ := get?_semanticConflicts.mp found
    have participates := (conflictContext_of_participant isConflict member).1
    exact notBlocking conflictId _ found isOpen
      (validContexts_space_unique participates valid) member
  · exact fun noParticipant conflictId conflict found isOpen _ member =>
      noParticipant conflictId conflict found isOpen member

/-! ### Resolved conflicts -/

theorem reasonWhen_eq_empty {holds : Prop} [Decidable holds]
    {reason : SemanticConflictOpenReason} : reasonWhen holds reason = ∅ ↔ ¬ holds := by
  rw [reasonWhen]
  split <;> simp [*]

theorem conflictStatus_eq_resolved {conflictNode : ConflictNode}
    {resolutions : BTreeMap ResolutionId ResolutionNode} {resolutionHeads : Finset ResolutionId}
    {resolutionId : ResolutionId} :
    conflictStatus facts conflictNode resolutions resolutionHeads = .resolved resolutionId ↔
      resolutionHeads = {resolutionId} ∧
        ∃ node, resolutions.get? resolutionId = some node ∧
          publicationsConverged facts conflictNode ∧
          node.resolution.relatedPublicationIds.toFinset =
            currentPublicationHeads facts conflictNode := by
  rw [conflictStatus]
  split
  · rename_i head resolution selected
    obtain ⟨other, isSole, selected⟩ := Option.bind_eq_some_iff.mp selected
    obtain ⟨node, found, isHead⟩ := Option.map_eq_some_iff.mp selected
    rw [sole?_eq_some] at isSole
    subst isSole
    obtain ⟨rfl, rfl⟩ := Prod.mk.inj isHead
    simp only [Finset.union_eq_empty, reasonWhen_eq_empty, not_not, Finset.singleton_inj]
    split
    · rename_i covers
      rw [SemanticConflictStatus.resolved.injEq]
      constructor
      · rintro rfl
        exact ⟨rfl, node, found, covers⟩
      · exact And.left
    · rename_i uncovered
      refine iff_of_false (fun impossible => by cases impossible) ?_
      rintro ⟨rfl, same, isSame, covers⟩
      rw [← Option.some.inj (found.symm.trans isSame)] at covers
      exact uncovered covers
  · rename_i notSelected
    constructor
    · exact fun impossible => by cases impossible
    · rintro ⟨rfl, node, found, -⟩
      have isSole : sole? {resolutionId} = some resolutionId := sole?_eq_some.mpr rfl
      rw [isSole, Option.bind_some, found] at notSelected
      cases notSelected

/-! ### The two guarantees -/

variable {events : List ReducerEvent} {hasher : ContentHasher}

/-- A projected Context is eligible exactly when its only publication head
publishes one of its valid revisions and no open conflict names it. -/
theorem eligible_iff {spaceId : SpaceId} {contextId : ContextId} {context : ContextProjection}
    (found : contextIn? (reduce events hasher).spaces spaceId contextId = some context) :
    context.autoInjection.eligible = true ↔
      (∃ publicationId publication, context.publicationHeads = {publicationId} ∧
        context.publications.get? publicationId = some publication ∧
        publication.action = .publish ∧ publication.revisionId ∈ context.revisions.keys) ∧
      ∀ conflictId conflict,
        (reduce events hasher).semanticConflicts.get? conflictId = some conflict →
        conflict.status.isOpen = true → contextId ∉ participantContexts conflict.conflict := by
  obtain ⟨valid, rfl⟩ := contextIn?_reduce.mp found
  rw [blockAutoInjection_eligible, openConflicts_eq_empty valid]
  refine and_congr_left fun _ => ?_
  change decide (governanceBlockers (contextGovernance _ _) = ∅) = true ↔ _
  rw [decide_eq_true_eq, governanceBlockers_eq_empty fun _ => mem_keys_of_publicationHead]
  constructor
  · rintro ⟨publicationId, node, isHead, isNode, publishes⟩
    refine ⟨publicationId, node.publication, isHead,
      get?_projectContext_publications.mpr ⟨node, isNode, rfl⟩, publishes, ?_⟩
    obtain ⟨-, -, sameKey, isRevision, -⟩ := validPublications_agrees isNode
    rw [sameKey] at isRevision
    exact mem_keys_projectContext_revisions.mpr isRevision
  · rintro ⟨publicationId, publication, isHead, isPublication, publishes, -⟩
    obtain ⟨node, isNode, rfl⟩ := get?_projectContext_publications.mp isPublication
    exact ⟨publicationId, node, isHead, isNode, publishes⟩

theorem resolved_covers {conflictId : ConflictId} {conflict : SemanticConflictProjection}
    {resolutionId : ResolutionId}
    (found : (reduce events hasher).semanticConflicts.get? conflictId = some conflict)
    (resolved : conflict.status = .resolved resolutionId) :
    conflict.resolutionHeads = {resolutionId} ∧
      (∀ contextId ∈ participantContexts conflict.conflict, ∃ context,
        contextIn? (reduce events hasher).spaces conflict.spaceId contextId = some context ∧
          context.publicationHeads.card = 1) ∧
      ∃ resolution, conflict.resolutions.get? resolutionId = some resolution ∧
        ∀ publicationId, publicationId ∈ resolution.relatedPublicationIds ↔
          ∃ contextId ∈ participantContexts conflict.conflict, ∃ context,
            contextIn? (reduce events hasher).spaces conflict.spaceId contextId = some context ∧
              publicationId ∈ context.publicationHeads := by
  obtain ⟨conflictNode, isConflict, rfl⟩ := get?_semanticConflicts.mp found
  obtain ⟨isHead, node, isResolution, converged, covers⟩ :=
    conflictStatus_eq_resolved.mp resolved
  have projected : ∀ contextId ∈ participantContexts conflictNode.conflict, ∃ context,
      contextIn? (reduce events hasher).spaces conflictNode.spaceId contextId = some context ∧
        context.publicationHeads =
          publicationHeads (factsOf events) (conflictNode.spaceId, contextId) := by
    intro contextId member
    have valid := (conflictContext_of_participant isConflict member).1
    exact ⟨_, contextIn?_reduce.mpr ⟨valid, rfl⟩, rfl⟩
  refine ⟨isHead, ?_, node.resolution,
    get?_projectConflict_resolutions.mpr ⟨node, isResolution, rfl⟩, ?_⟩
  · intro contextId member
    obtain ⟨context, isProjected, sameHeads⟩ := projected contextId member
    obtain ⟨before, isBefore, oneHead⟩ := converged contextId member
    obtain rfl := Option.some.inj
      ((conflictContext_of_participant isConflict member).2.symm.trans isBefore)
    exact ⟨context, isProjected, sameHeads ▸ oneHead⟩
  · intro publicationId
    rw [← List.mem_toFinset, covers, currentPublicationHeads, Finset.mem_biUnion]
    refine exists_congr fun contextId => and_congr_right fun member => ?_
    obtain ⟨context, isProjected, sameHeads⟩ := projected contextId member
    rw [(conflictContext_of_participant isConflict member).2, Option.elim_some]
    constructor
    · exact fun isCurrent => ⟨context, isProjected, sameHeads ▸ isCurrent⟩
    · rintro ⟨other, isOther, isCurrent⟩
      rw [← Option.some.inj (isProjected.symm.trans isOther), sameHeads] at isCurrent
      exact isCurrent

/-- Eligibility and resolution mean what they promise, for every list of events. -/
theorem reduce_autoInjection (events : List ReducerEvent) (hasher : ContentHasher) :
    (∀ spaceId contextId context,
      contextIn? (reduce events hasher).spaces spaceId contextId = some context →
      (context.autoInjection.eligible = true ↔
        (∃ publicationId publication, context.publicationHeads = {publicationId} ∧
          context.publications.get? publicationId = some publication ∧
          publication.action = .publish ∧
          publication.revisionId ∈ context.revisions.keys) ∧
        ∀ conflictId conflict,
          (reduce events hasher).semanticConflicts.get? conflictId = some conflict →
          conflict.status.isOpen = true →
          contextId ∉ participantContexts conflict.conflict)) ∧
    ∀ conflictId conflict resolutionId,
      (reduce events hasher).semanticConflicts.get? conflictId = some conflict →
      conflict.status = .resolved resolutionId →
      conflict.resolutionHeads = {resolutionId} ∧
        (∀ contextId ∈ participantContexts conflict.conflict, ∃ context,
          contextIn? (reduce events hasher).spaces conflict.spaceId contextId = some context ∧
            context.publicationHeads.card = 1) ∧
        ∃ resolution, conflict.resolutions.get? resolutionId = some resolution ∧
          ∀ publicationId, publicationId ∈ resolution.relatedPublicationIds ↔
            ∃ contextId ∈ participantContexts conflict.conflict, ∃ context,
              contextIn? (reduce events hasher).spaces conflict.spaceId contextId =
                some context ∧
              publicationId ∈ context.publicationHeads :=
  ⟨fun _ _ _ found => eligible_iff found, fun _ _ _ found resolved => resolved_covers found resolved⟩

end SharedContext
