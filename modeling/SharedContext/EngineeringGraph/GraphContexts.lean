import SharedContext.EngineeringGraph.ContextSnapshots
import SharedContext.Reducer.Lifecycle

/-!
# The Contexts a build reads

Every projected Context has one owner, its accepted revision is one of its
revisions, and the status of a revision is accepted exactly when governance
settles on it.  Every Space has a title.
-/

namespace SharedContext

theorem find?_eq_some_of_unique {α : Type} {items : List α} {matching : α → Bool}
    (unique : ∀ first ∈ items, ∀ second ∈ items, matching first = true → matching second = true →
      first = second) {item : α} :
    items.find? matching = some item ↔ item ∈ items ∧ matching item = true := by
  constructor
  · intro found
    exact ⟨List.mem_of_find?_eq_some found, List.find?_some found⟩
  · rintro ⟨member, isMatch⟩
    cases found : items.find? matching with
    | none => exact absurd isMatch (List.find?_eq_none.mp found item member)
    | some other =>
        have same := unique other (List.mem_of_find?_eq_some found) item member
          (List.find?_some found) isMatch
        rw [same]

theorem BTreeMap.mem_ordered {κ : Type} [LinearOrder κ] {set : Finset κ} {key : κ} :
    key ∈ BTreeMap.ordered set ↔ key ∈ set := by
  rw [BTreeMap.ordered_eq_sort, Finset.mem_sort]

namespace EngineeringGraph

theorem GraphKey.ext {first second : GraphKey} (space : first.spaceId = second.spaceId)
    (context : first.contextId = second.contextId)
    (revision : first.revisionId = second.revisionId) : first = second := by
  obtain ⟨firstSpace, firstContext, firstRevision⟩ := first
  obtain ⟨secondSpace, secondContext, secondRevision⟩ := second
  change firstSpace = secondSpace at space
  change firstContext = secondContext at context
  change firstRevision = secondRevision at revision
  rw [space, context, revision]

theorem mem_contextEntries {projection : DomainProjection} {owned : OwnedContext} :
    owned ∈ contextEntries projection ↔
      projection.spaces.get? owned.spaceId = some owned.space ∧
        ∃ contextId, owned.space.contexts.get? contextId = some owned.context := by
  simp only [contextEntries, List.mem_flatMap, BTreeMap.mem_ordered, Option.mem_toList,
    List.mem_map, BTreeMap.mem_values]
  constructor
  · rintro ⟨spaceId, -, space, found, context, isContext, rfl⟩
    exact ⟨found, isContext⟩
  · rintro ⟨found, isContext⟩
    exact ⟨owned.spaceId, BTreeMap.mem_keys_of_get? found, owned.space, found, owned.context,
      isContext, rfl⟩

/-! ### The Contexts of a reduced projection -/

section Reduced

variable {events : List ReducerEvent} {hasher : ContentHasher}

theorem contextId_of_contextIn? {spaceId : SpaceId} {contextId : ContextId}
    {context : ContextProjection}
    (found : contextIn? (reduce events hasher).spaces spaceId contextId = some context) :
    context.contextId = contextId := by
  obtain ⟨-, rfl⟩ := contextIn?_reduce.mp found
  rfl

theorem mem_contextEntries_reduce {owned : OwnedContext} :
    owned ∈ contextEntries (reduce events hasher) ↔
      (reduce events hasher).spaces.get? owned.spaceId = some owned.space ∧
        contextIn? (reduce events hasher).spaces owned.spaceId owned.context.contextId =
          some owned.context := by
  rw [mem_contextEntries]
  refine and_congr_right fun isSpace => ?_
  simp only [contextIn?, isSpace, Option.bind_some]
  constructor
  · rintro ⟨contextId, found⟩
    have isContext : contextIn? (reduce events hasher).spaces owned.spaceId contextId =
        some owned.context := by
      simp only [contextIn?, isSpace, Option.bind_some, found]
    rw [contextId_of_contextIn? isContext]
    exact found
  · exact fun found => ⟨_, found⟩

theorem exists_contextEntry {spaceId : SpaceId} {contextId : ContextId}
    {context : ContextProjection}
    (found : contextIn? (reduce events hasher).spaces spaceId contextId = some context) :
    ∃ owned ∈ contextEntries (reduce events hasher),
      owned.spaceId = spaceId ∧ owned.context = context := by
  have sameId := contextId_of_contextIn? found
  obtain ⟨space, isSpace, isContext⟩ := Option.bind_eq_some_iff.mp found
  exact ⟨⟨spaceId, space, context⟩, mem_contextEntries.mpr ⟨isSpace, contextId, isContext⟩,
    rfl, rfl⟩

theorem contextEntry_unique {first second : OwnedContext}
    (isFirst : first ∈ contextEntries (reduce events hasher))
    (isSecond : second ∈ contextEntries (reduce events hasher))
    (sameId : first.context.contextId = second.context.contextId) : first = second := by
  obtain ⟨firstSpace, firstContext⟩ := mem_contextEntries_reduce.mp isFirst
  obtain ⟨secondSpace, secondContext⟩ := mem_contextEntries_reduce.mp isSecond
  obtain ⟨spaceId, space, context⟩ := first
  obtain ⟨otherId, otherSpace, otherContext⟩ := second
  dsimp only at sameId firstSpace firstContext secondSpace secondContext
  rw [sameId] at firstContext
  obtain rfl := validContexts_space_unique (contextIn?_reduce.mp firstContext).1
    (contextIn?_reduce.mp secondContext).1
  obtain rfl := Option.some.inj (firstSpace.symm.trans secondSpace)
  obtain rfl := Option.some.inj (firstContext.symm.trans secondContext)
  rfl

theorem owner?_reduce {contextId : ContextId} {owned : OwnedContext} :
    owner? (reduce events hasher) contextId = some owned ↔
      owned ∈ contextEntries (reduce events hasher) ∧ owned.context.contextId = contextId := by
  rw [owner?, find?_eq_some_of_unique, List.mem_reverse, decide_eq_true_eq]
  intro first isFirst second isSecond firstMatches secondMatches
  rw [List.mem_reverse] at isFirst isSecond
  rw [decide_eq_true_eq] at firstMatches secondMatches
  exact contextEntry_unique isFirst isSecond (firstMatches.trans secondMatches.symm)

theorem acceptedKey?_eq_some {owned : OwnedContext} {key : GraphKey} :
    owned.acceptedKey? = some key ↔ ∃ publicationId,
      owned.context.governance = .accepted publicationId key.revisionId ∧
        key.spaceId = owned.spaceId ∧ key.contextId = owned.context.contextId := by
  unfold OwnedContext.acceptedKey?
  split
  · rename_i publicationId revisionId settled
    rw [Option.some.injEq]
    constructor
    · rintro rfl
      exact ⟨publicationId, settled, rfl, rfl⟩
    · rintro ⟨other, same, isSpace, isContext⟩
      rw [settled] at same
      obtain ⟨-, isRevision⟩ := ContextGovernanceStatus.accepted.inj same
      exact GraphKey.ext isSpace.symm isContext.symm isRevision
  · rename_i unsettled
    refine iff_of_false (fun impossible => by cases impossible) ?_
    rintro ⟨publicationId, settled, -⟩
    exact unsettled _ _ settled

theorem mem_acceptedTargets {projection : DomainProjection} {key : GraphKey} :
    key ∈ acceptedTargets projection ↔
      ∃ owned ∈ contextEntries projection, owned.acceptedKey? = some key :=
  List.mem_filterMap

theorem acceptedTarget?_reduce {contextId : ContextId} {key : GraphKey} :
    acceptedTarget? (reduce events hasher) contextId = some key ↔
      ∃ owned publicationId, owner? (reduce events hasher) contextId = some owned ∧
        owned.context.governance = .accepted publicationId key.revisionId ∧
        key.spaceId = owned.spaceId ∧ key.contextId = contextId := by
  rw [acceptedTarget?, find?_eq_some_of_unique, List.mem_reverse, decide_eq_true_eq,
    mem_acceptedTargets]
  · constructor
    · rintro ⟨⟨owned, isEntry, accepted⟩, rfl⟩
      obtain ⟨publicationId, settled, isSpace, isContext⟩ := acceptedKey?_eq_some.mp accepted
      exact ⟨owned, publicationId, owner?_reduce.mpr ⟨isEntry, isContext.symm⟩, settled, isSpace,
        rfl⟩
    · rintro ⟨owned, publicationId, isOwner, settled, isSpace, rfl⟩
      obtain ⟨isEntry, isContext⟩ := owner?_reduce.mp isOwner
      exact ⟨⟨owned, isEntry, acceptedKey?_eq_some.mpr
        ⟨publicationId, settled, isSpace, isContext.symm⟩⟩, rfl⟩
  · intro first isFirst second isSecond firstMatches secondMatches
    rw [List.mem_reverse] at isFirst isSecond
    rw [decide_eq_true_eq] at firstMatches secondMatches
    obtain ⟨firstOwner, firstEntry, firstAccepted⟩ := mem_acceptedTargets.mp isFirst
    obtain ⟨secondOwner, secondEntry, secondAccepted⟩ := mem_acceptedTargets.mp isSecond
    obtain ⟨-, -, -, firstContext⟩ := acceptedKey?_eq_some.mp firstAccepted
    obtain ⟨-, -, -, secondContext⟩ := acceptedKey?_eq_some.mp secondAccepted
    have sameId : firstOwner.context.contextId = secondOwner.context.contextId := by
      rw [← firstContext, ← secondContext, firstMatches, secondMatches]
    obtain rfl := contextEntry_unique firstEntry secondEntry sameId
    exact Option.some.inj (firstAccepted.symm.trans secondAccepted)

/-! ### Revisions -/

theorem contextGovernance_eq_accepted {publications : BTreeMap PublicationId PublicationNode}
    {heads : Finset PublicationId} {publicationId : PublicationId} {revisionId : RevisionId} :
    contextGovernance publications heads = .accepted publicationId revisionId ↔
      heads = {publicationId} ∧ ∃ node, publications.get? publicationId = some node ∧
        node.publication.action = .publish ∧ node.publication.revisionId = revisionId := by
  unfold contextGovernance
  by_cases noHead : heads.card = 0
  · simp only [noHead, if_true, reduceCtorEq, false_iff]
    rintro ⟨rfl, -⟩
    rw [Finset.card_singleton] at noHead
    omega
  by_cases oneHead : heads.card = 1
  · obtain ⟨head, rfl⟩ := Finset.card_eq_one.mp oneHead
    have isFirst : first? {head} = some head := Finset.min_singleton
    simp only [Finset.card_singleton, one_ne_zero, if_false, if_true, isFirst, Option.bind_some,
      Finset.singleton_inj]
    cases found : publications.get? head with
    | none =>
        simp only [Option.map_none, reduceCtorEq, false_iff]
        rintro ⟨rfl, node, isNode, -⟩
        rw [found] at isNode
        cases isNode
    | some node =>
        simp only [Option.map_some, ContextGovernanceStatus.ofHead]
        cases action : node.publication.action with
        | publish =>
            simp only [ContextGovernanceStatus.accepted.injEq]
            constructor
            · rintro ⟨rfl, rfl⟩
              exact ⟨rfl, node, found, action, rfl⟩
            · rintro ⟨rfl, other, isOther, -, rfl⟩
              obtain rfl := Option.some.inj (found.symm.trans isOther)
              exact ⟨rfl, rfl⟩
        | withdraw =>
            simp only [reduceCtorEq, false_iff]
            rintro ⟨rfl, other, isOther, publishes, -⟩
            obtain rfl := Option.some.inj (found.symm.trans isOther)
            rw [action] at publishes
            cases publishes
  · simp only [noHead, oneHead, if_false, reduceCtorEq, false_iff]
    rintro ⟨rfl, -⟩
    exact oneHead (Finset.card_singleton publicationId)

theorem accepted_revision {owned : OwnedContext} {publicationId : PublicationId}
    {revisionId : RevisionId} (isEntry : owned ∈ contextEntries (reduce events hasher))
    (settled : owned.context.governance = .accepted publicationId revisionId) :
    owned.context.publicationHeads = {publicationId} ∧
      ∃ revision, owned.context.revisions.get? revisionId = some revision := by
  obtain ⟨-, found⟩ := mem_contextEntries_reduce.mp isEntry
  obtain ⟨-, isContext⟩ := contextIn?_reduce.mp found
  rw [← isContext] at settled ⊢
  obtain ⟨onlyHead, node, isNode, -, rfl⟩ := contextGovernance_eq_accepted.mp settled
  obtain ⟨-, -, sameKey, isRevision, -⟩ := validPublications_agrees isNode
  rw [sameKey] at isRevision
  exact ⟨onlyHead, BTreeMap.mem_keys_iff.mp (mem_keys_projectContext_revisions.mpr isRevision)⟩

theorem revisionLifecycle_eq_accepted {governance : ContextGovernanceStatus}
    {superseded : Finset RevisionId} {revisionId : RevisionId} :
    revisionLifecycle governance superseded revisionId = .accepted ↔
      ∃ publicationId, governance = .accepted publicationId revisionId := by
  by_cases isCurrent : governance.current? = some revisionId
  · cases governance with
    | accepted publicationId current =>
        obtain rfl : current = revisionId := Option.some.inj isCurrent
        simp [revisionLifecycle]
    | deprecated publicationId current =>
        obtain rfl : current = revisionId := Option.some.inj isCurrent
        simp [revisionLifecycle]
    | unpublished => cases isCurrent
    | governanceConflict heads => cases isCurrent
  · rw [revisionLifecycle_of_not_current isCurrent]
    constructor
    · intro accepted
      split at accepted <;> cases accepted
    · rintro ⟨publicationId, rfl⟩
      exact absurd rfl isCurrent

theorem lifecycle_eq_accepted {owned : OwnedContext} {revisionId : RevisionId}
    {revision : RevisionProjection} (isEntry : owned ∈ contextEntries (reduce events hasher))
    (found : owned.context.revisions.get? revisionId = some revision) :
    revision.lifecycle = .accepted ↔
      ∃ publicationId, owned.context.governance = .accepted publicationId revisionId := by
  obtain ⟨-, isContext⟩ := contextIn?_reduce.mp (mem_contextEntries_reduce.mp isEntry).2
  rw [← isContext] at found ⊢
  obtain ⟨node, -, rfl⟩ := get?_projectContext_revisions.mp found
  exact revisionLifecycle_eq_accepted

theorem status_eq_accepted {owned : OwnedContext} {revisionId : RevisionId}
    {revision : RevisionProjection} (isEntry : owned ∈ contextEntries (reduce events hasher))
    (found : owned.context.revisions.get? revisionId = some revision) :
    graphContextStatus owned.context revision.lifecycle = .accepted ↔
      revision.lifecycle = .accepted := by
  unfold graphContextStatus
  split
  · rename_i heads conflict
    rw [lifecycle_eq_accepted isEntry found]
    simp [conflict]
  · cases revision.lifecycle <;> simp

theorem revision_wellFormed (schemaValid : ∀ event ∈ events, event.SchemaValid)
    {owned : OwnedContext} {revisionId : RevisionId} {revision : RevisionProjection}
    (isEntry : owned ∈ contextEntries (reduce events hasher))
    (found : owned.context.revisions.get? revisionId = some revision) :
    revision.revision.revisionId = revisionId ∧ revision.revision.validate = .ok () := by
  obtain ⟨-, isContext⟩ := contextIn?_reduce.mp (mem_contextEntries_reduce.mp isEntry).2
  rw [← isContext] at found
  obtain ⟨node, isNode, rfl⟩ := get?_projectContext_revisions.mp found
  obtain ⟨-, candidate, -, -⟩ := get?_validRevisions_eq_some.mp isNode
  obtain ⟨isDefined, -, -, valid⟩ := BTreeMap.get?_filter_eq_some.mp candidate
  obtain ⟨isKey, isEvent⟩ := (contexts_iff valid).mp isDefined
  exact ⟨isKey.symm, schemaValid _ isEvent⟩

/-! ### Titles -/

theorem intent_title (schemaValid : ∀ event ∈ events, event.SchemaValid) {spaceId : SpaceId}
    {revisionId : RevisionId} {node : IntentNode}
    (found : (intentCandidates (factsOf events) spaceId).get? revisionId = some node) :
    isBlank node.revision.intent.title = false := by
  obtain ⟨isDefined, -, valid⟩ := BTreeMap.get?_filter_eq_some.mp found
  have passes : node.revision.validate = .ok () := by
    obtain ⟨-, isEvent | isEvent⟩ := (intents_iff valid).mp isDefined
    · have passes := schemaValid _ isEvent
      simp only [ReducerEvent.SchemaValid, IntentNode.creation, EventPayload.validate] at passes
      split at passes
      · simp at passes
      · exact passes
    · have passes := schemaValid _ isEvent
      simp only [ReducerEvent.SchemaValid, IntentNode.addition, EventPayload.validate] at passes
      split at passes
      · simp at passes
      · exact passes
  simp only [IntentRevision.validate, IntentSnapshot.validate, Result.seq_eq_ok,
    requireText_eq_ok] at passes
  exact passes.2.1

theorem creation_grounded (schemaValid : ∀ event ∈ events, event.SchemaValid) {spaceId : SpaceId}
    (valid : spaceId ∈ validSpaces (factsOf events)) :
    ∃ revisionId node, (reducedIntents (factsOf events) spaceId).nodes.get? revisionId =
      some node := by
  obtain ⟨node, found, isValid⟩ := mem_validSpaces.mp valid
  obtain ⟨rfl, isEvent, -⟩ := spaceCreations_iff.mp found
  have candidate : (intentCandidates (factsOf events) node.spaceId).get?
      node.revision.revisionId = some node :=
    BTreeMap.get?_filter_eq_some.mpr
      ⟨(intents_iff isValid).mpr ⟨rfl, .inl isEvent⟩, rfl, isValid⟩
  have parentless : node.parents = [] := by
    have passes := schemaValid _ isEvent
    simp only [ReducerEvent.SchemaValid, IntentNode.creation, EventPayload.validate] at passes
    split at passes
    · simp at passes
    · rename_i empty
      change node.revision.parentRevisionIds = []
      simpa using empty
  exact ⟨_, node, get?_reducedIntents.mpr ⟨candidate, .of_no_parents candidate parentless⟩⟩

theorem mem_intercalate {α : Type} {separator item : List α} {items : List (List α)} {element : α}
    (isItem : item ∈ items) (isElement : element ∈ item) :
    element ∈ separator.intercalate items := by
  induction items with
  | nil => cases isItem
  | cons first rest ih =>
      cases rest with
      | nil =>
          obtain rfl := List.mem_singleton.mp isItem
          simpa using isElement
      | cons second rest =>
          rw [List.intercalate_cons_cons, List.mem_append, List.mem_append]
          rcases List.mem_cons.mp isItem with rfl | isOther
          · exact .inl (.inl isElement)
          · exact .inr (ih isOther)

theorem isBlank_intercalate {separator title : String} {titles : List String}
    (isTitle : title ∈ titles) (notBlank : isBlank title = false) :
    isBlank (separator.intercalate titles) = false := by
  simp only [isBlank, List.all_eq_false] at notBlank ⊢
  obtain ⟨character, inTitle, notSpace⟩ := notBlank
  refine ⟨character, ?_, notSpace⟩
  rw [String.toList_intercalate]
  exact mem_intercalate (List.mem_map.mpr ⟨title, isTitle, rfl⟩) inTitle

theorem mem_intentTitles {space : ContextSpaceProjection} {title : String} :
    title ∈ intentTitles space ↔ ∃ revisionId ∈ space.intent.heads, ∃ revision,
      space.intent.revisions.get? revisionId = some revision ∧ revision.intent.title = title := by
  simp [intentTitles]

theorem graphSpaceTitle_reduce (schemaValid : ∀ event ∈ events, event.SchemaValid)
    {spaceId : SpaceId} {space : ContextSpaceProjection}
    (found : (reduce events hasher).spaces.get? spaceId = some space) :
    ∃ title, graphSpaceTitle space = .ok title ∧ isBlank title = false := by
  obtain ⟨valid, rfl⟩ := get?_reduce_spaces.mp found
  obtain ⟨revisionId, node, isNode⟩ := creation_grounded schemaValid valid
  obtain ⟨headId, isHead⟩ := exists_mem_reduceDag_heads isNode
  obtain ⟨⟨head, isKept⟩, -⟩ := mem_heads_of_nodes.mp isHead
  let intent := projectIntent (factsOf events) spaceId
  have isTitle : ∀ contexts, head.revision.intent.title ∈
      intentTitles ⟨spaceId, intent, contexts⟩ := by
    intro contexts
    refine mem_intentTitles.mpr ⟨headId, isHead, head.revision, ?_, rfl⟩
    change ((reducedIntents (factsOf events) spaceId).nodes.map IntentNode.revision).get? headId =
      some head.revision
    have kept : (reducedIntents (factsOf events) spaceId).nodes.get? headId = some head := isKept
    simp [kept]
  have notBlank := intent_title schemaValid (get?_reducedIntents.mp isKept).1
  refine ⟨_, if_neg ?_, ?_⟩
  · exact Finset.nonempty_iff_ne_empty.mp ⟨_, isTitle _⟩
  · exact isBlank_intercalate (BTreeMap.mem_ordered.mpr (isTitle _)) notBlank

end Reduced

end EngineeringGraph

end SharedContext
