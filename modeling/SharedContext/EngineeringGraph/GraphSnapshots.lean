import SharedContext.EngineeringGraph.GraphBuild

/-!
# What a build returns

Every snapshot of a build passes its own check, and its relations lead to
snapshots of the same build.
-/

namespace SharedContext.EngineeringGraph

/-! ### Order -/

theorem windowsAny_eq_false {α : Type} {breaks : α → α → Bool} {items : List α}
    (inOrder : items.Pairwise fun first second => breaks first second = false) :
    windowsAny breaks items = false := by
  induction items with
  | nil => rfl
  | cons first rest ih =>
      obtain ⟨before, others⟩ := List.pairwise_cons.mp inOrder
      have tail := ih others
      cases rest with
      | nil => rfl
      | cons second rest =>
          simp only [windowsAny, List.tail_cons, List.zip_cons_cons, List.any_cons,
            Bool.or_eq_false_iff] at tail ⊢
          exact ⟨before second List.mem_cons_self, tail⟩

theorem relationKindRank_injective : Function.Injective relationKindRank := by
  intro first second same
  cases first <;> cases second <;> first | rfl | cases same

theorem rank_injective : Function.Injective GraphContextRelation.rank := by
  intro first second same
  obtain ⟨firstSpace, firstContext, firstRevision, firstKind, firstRationale, firstSupports⟩ := first
  obtain ⟨secondSpace, secondContext, secondRevision, secondKind, secondRationale,
    secondSupports⟩ := second
  simp only [GraphContextRelation.rank, toLex_inj, Prod.mk.injEq] at same
  obtain ⟨rfl, rfl, rfl, sameKind, rfl, rfl⟩ := same
  rw [relationKindRank_injective sameKind]

theorem mem_relationSet {relations : List GraphContextRelation} {relation : GraphContextRelation} :
    relation ∈ relationSet relations ↔ relation ∈ relations := by
  rw [relationSet, List.mem_insertionSort, List.mem_dedup]

theorem relationSet_ascends (relations : List GraphContextRelation) :
    (relationSet relations).Pairwise fun first second => first.rank < second.rank := by
  have sorted : (relationSet relations).Pairwise fun first second => first.rank ≤ second.rank :=
    List.pairwise_insertionSort _ _
  have distinct : (relationSet relations).Nodup :=
    (List.perm_insertionSort _ _).nodup_iff.mpr (List.nodup_dedup _)
  refine (sorted.and distinct).imp ?_
  rintro first second ⟨before, different⟩
  exact lt_of_le_of_ne before fun same => different (rank_injective same)

theorem mem_orderedBlockers {blockers : Finset GraphContextSafetyBlocker}
    {blocker : GraphContextSafetyBlocker} :
    blocker ∈ orderedBlockers blockers ↔ blocker ∈ blockers := by
  have listed : ∀ other : GraphContextSafetyBlocker,
      blocker ∈ (if other ∈ blockers then [other] else []) ↔ blocker = other ∧ other ∈ blockers := by
    intro other
    split <;> simp [*]
  have conflicts : blocker ∈ (BTreeMap.ordered
        (blockers.biUnion fun blocker => blocker.conflictId?.toFinset)).map
          GraphContextSafetyBlocker.unresolvedSemanticConflict ↔
      ∃ conflictId, blocker = .unresolvedSemanticConflict conflictId ∧ blocker ∈ blockers := by
    simp only [List.mem_map, BTreeMap.mem_ordered, Finset.mem_biUnion, Option.mem_toFinset,
      Option.mem_def]
    constructor
    · rintro ⟨conflictId, ⟨other, member, isConflict⟩, rfl⟩
      cases other <;> simp_all [GraphContextSafetyBlocker.conflictId?]
    · rintro ⟨conflictId, rfl, member⟩
      exact ⟨conflictId, ⟨_, member, rfl⟩, rfl⟩
  simp only [orderedBlockers, List.mem_append, listed, conflicts]
  cases blocker <;> simp

theorem orderedBlockers_eq_nil {blockers : Finset GraphContextSafetyBlocker} :
    orderedBlockers blockers = [] ↔ blockers = ∅ := by
  simp only [List.eq_nil_iff_forall_not_mem, mem_orderedBlockers,
    Finset.eq_empty_iff_forall_notMem]

/-! ### The safety decision -/

section Safety

variable {context : ContextProjection} {revision : ContextRevision} {status : GraphContextStatus}

/-- Whether every statement of the evidence is filled in. -/
def evidenceIsComplete (revision : ContextRevision) : Prop :=
  contextEvidenceCompleteness revision = 1000 ∧ revision.evidence.isEmpty = false

theorem eligible_iff :
    (graphContextSafety context revision status).2.automaticInjectionEligible = true ↔
      status = .accepted ∧ context.autoInjection.blockers = ∅ ∧ evidenceIsComplete revision := by
  simp only [graphContextSafety, Bool.and_eq_true, decide_eq_true_eq, Finset.union_eq_empty,
    Finset.image_eq_empty, evidenceIsComplete]
  refine and_congr_right fun accepted => ?_
  simp only [accepted, ne_eq, not_true_eq_false, if_false, true_and, and_true]
  refine and_congr_right fun _ => ?_
  split
  · rename_i incomplete
    simp only [Finset.singleton_ne_empty, false_iff, not_and]
    intro complete
    simp_all
  · rename_i complete
    simp_all

theorem blockers_eq_nil :
    (graphContextSafety context revision status).2.blockers = [] ↔
      (graphContextSafety context revision status).2.automaticInjectionEligible = true := by
  simp only [graphContextSafety, orderedBlockers_eq_nil, Bool.and_eq_true, decide_eq_true_eq]
  constructor
  · intro free
    refine ⟨?_, free⟩
    by_contra notAccepted
    simp [notAccepted] at free
  · exact And.right

end Safety

theorem GraphContextSnapshot.validate_eq_ok {snapshot : GraphContextSnapshot} :
    snapshot.validate = .ok () ↔ isBlank snapshot.spaceTitle = false ∧
      snapshot.revision.validate = .ok () ∧
      snapshot.evidenceCompleteness = contextEvidenceCompleteness snapshot.revision ∧
      (snapshot.safety.automaticInjectionEligible = true ↔ snapshot.status = .accepted ∧
        evidenceIsComplete snapshot.revision ∧ snapshot.safety.blockers = []) ∧
      (snapshot.safety.automaticInjectionEligible = true ∨ snapshot.safety.blockers ≠ []) ∧
      windowsAny (fun first second => decide (second.rank ≤ first.rank)) snapshot.relations =
        false := by
  let expectedEligible := snapshot.status = .accepted &&
    contextEvidenceCompleteness snapshot.revision = 1000 &&
    !snapshot.revision.evidence.isEmpty && snapshot.safety.blockers.isEmpty
  have expected : expectedEligible = true ↔ snapshot.status = .accepted ∧
      evidenceIsComplete snapshot.revision ∧ snapshot.safety.blockers = [] := by
    simp [expectedEligible, evidenceIsComplete, and_assoc]
  have agrees : snapshot.safety.automaticInjectionEligible = expectedEligible ↔
      (snapshot.safety.automaticInjectionEligible = true ↔ snapshot.status = .accepted ∧
        evidenceIsComplete snapshot.revision ∧ snapshot.safety.blockers = []) := by
    rw [Bool.eq_iff_iff, expected]
  simp only [GraphContextSnapshot.validate, Result.seq_eq_ok, Result.require_eq_ok,
    Bool.not_eq_true']
  refine and_congr_right fun _ => and_congr_right fun _ => and_congr_right fun _ => ?_
  change snapshot.safety.automaticInjectionEligible = expectedEligible ∧
    (expectedEligible = true ∨ _) ∧ _ ↔ _
  rw [agrees, expected]
  refine and_congr_right fun same => ?_
  rw [same]

/-! ### One snapshot -/

section Reduced

variable {events : List ReducerEvent} {hasher : ContentHasher}

/-- The revision of a snapshot is the only accepted one of its Context, nothing
blocks the Context, and the evidence is complete. -/
structure SafeToInject (projection : DomainProjection) (snapshot : GraphContextSnapshot)
    (context : ContextProjection) : Prop where
  isContext : contextIn? projection.spaces snapshot.spaceId snapshot.contextId = some context
  current : ∃ publicationId, context.publicationHeads = {publicationId} ∧
    context.governance = .accepted publicationId snapshot.revision.revisionId
  onlyAccepted : ∀ revisionId revision, context.revisions.get? revisionId = some revision →
    (revision.lifecycle = .accepted ↔ revisionId = snapshot.revision.revisionId)
  captured : (context.revisions.get? snapshot.revision.revisionId).map
    RevisionProjection.revision = some snapshot.revision
  unblocked : context.autoInjection.blockers = ∅
  complete : contextEvidenceCompleteness snapshot.revision = 1000

/-- What a snapshot says about its key. -/
structure Captures (projection : DomainProjection) (included : Finset GraphKey) (key : GraphKey)
    (snapshot : GraphContextSnapshot) : Prop where
  space : snapshot.spaceId = key.spaceId
  context : snapshot.contextId = key.contextId
  revision : snapshot.revision.revisionId = key.revisionId
  valid : snapshot.validate = .ok ()
  relations : ∀ relation ∈ snapshot.relations, ∃ target ∈ included,
    target.spaceId = relation.targetSpaceId ∧ target.contextId = relation.targetContextId ∧
      target.revisionId = relation.targetRevisionId
  eligible : snapshot.safety.automaticInjectionEligible = true →
    ∃ context, SafeToInject projection snapshot context

theorem graphRelation_eq_some {included : Finset GraphKey} {relation : ContextRelation}
    {kept : GraphContextRelation}
    (found : graphRelation (reduce events hasher) included relation = some kept) :
    ∃ target ∈ included, target.spaceId = kept.targetSpaceId ∧
      target.contextId = kept.targetContextId ∧ target.revisionId = kept.targetRevisionId := by
  unfold graphRelation at found
  split at found
  · cases found
  · rename_i target isTarget
    split at found
    · rename_i isIncluded
      obtain rfl := Option.some.inj found
      exact ⟨target, isIncluded, rfl, (acceptedTarget?_placed isTarget).1, rfl⟩
    · cases found

theorem Placed.safeToInject {key : GraphKey} {owned : OwnedContext} {revision : RevisionProjection}
    (placed : Placed (reduce events hasher) key owned revision) {snapshot : GraphContextSnapshot}
    (isSpace : snapshot.spaceId = key.spaceId) (isContext : snapshot.contextId = key.contextId)
    (isRevision : snapshot.revision = revision.revision)
    (sameId : revision.revision.revisionId = key.revisionId)
    (status : graphContextStatus owned.context revision.lifecycle = .accepted)
    (unblocked : owned.context.autoInjection.blockers = ∅)
    (complete : evidenceIsComplete revision.revision) :
    SafeToInject (reduce events hasher) snapshot owned.context := by
  have accepts := (status_eq_accepted placed.entry placed.found).mp status
  obtain ⟨publicationId, settled⟩ := (lifecycle_eq_accepted placed.entry placed.found).mp accepts
  obtain ⟨onlyHead, -⟩ := accepted_revision placed.entry settled
  have isId : snapshot.revision.revisionId = key.revisionId := by
    rw [isRevision, sameId]
  refine ⟨?_, ⟨publicationId, onlyHead, isId ▸ settled⟩, ?_, ?_, unblocked, ?_⟩
  · obtain ⟨-, found⟩ := mem_contextEntries_reduce.mp placed.entry
    rw [isSpace, isContext, placed.space, ← (owner?_reduce.mp placed.owner).2]
    exact found
  · intro revisionId other isOther
    rw [lifecycle_eq_accepted placed.entry isOther, isId, settled]
    simp [eq_comm]
  · rw [isId, placed.found, isRevision]
    rfl
  · rw [isRevision]
    exact complete.1

theorem Placed.snapshot (schemaValid : ∀ event ∈ events, event.SchemaValid) {key : GraphKey}
    {owned : OwnedContext} {revision : RevisionProjection} (depths : BTreeMap GraphKey Nat)
    (placed : Placed (reduce events hasher) key owned revision) :
    ∃ snapshot, graphSnapshot (reduce events hasher) depths key = .ok snapshot ∧
      Captures (reduce events hasher) depths.keys key snapshot := by
  obtain ⟨isSpace, -⟩ := mem_contextEntries_reduce.mp placed.entry
  obtain ⟨title, hasTitle, notBlank⟩ := graphSpaceTitle_reduce schemaValid isSpace
  obtain ⟨sameId, wellFormed⟩ := revision_wellFormed schemaValid placed.entry placed.found
  let status := graphContextStatus owned.context revision.lifecycle
  let safety := (graphContextSafety owned.context revision.revision status).2
  let above := decide (∃ depth ∈ depths.get? key, depth < maxRelationDepth)
  let snapshot : GraphContextSnapshot :=
    { spaceId := key.spaceId
      spaceTitle := title
      contextId := key.contextId
      revision := revision.revision
      status := status
      evidenceCompleteness := contextEvidenceCompleteness revision.revision
      safety := safety
      relations := if status = .accepted && above then
          relationSet (revision.revision.relations.filterMap
            (graphRelation (reduce events hasher) depths.keys))
        else [] }
  have valid : snapshot.validate = .ok () := by
    refine GraphContextSnapshot.validate_eq_ok.mpr
      ⟨notBlank, wellFormed, rfl, ?_, ?_, windowsAny_eq_false ?_⟩
    · change safety.automaticInjectionEligible = true ↔
        status = .accepted ∧ evidenceIsComplete revision.revision ∧ safety.blockers = []
      rw [blockers_eq_nil]
      constructor
      · intro eligible
        obtain ⟨accepted, -, complete⟩ := eligible_iff.mp eligible
        exact ⟨accepted, complete, eligible⟩
      · exact fun safe => safe.2.2
    · by_cases eligible : safety.automaticInjectionEligible = true
      · exact .inl eligible
      · exact .inr (mt blockers_eq_nil.mp eligible)
    · change (if status = .accepted && above then _ else []).Pairwise _
      split
      · exact (relationSet_ascends _).imp fun before => by simpa using before
      · exact .nil
  refine ⟨snapshot, ?_, rfl, rfl, sameId, valid, ?_, ?_⟩
  · rw [graphSnapshot, Result.bind_eq_ok]
    refine ⟨_, placed.revision_eq, Result.bind_eq_ok.mpr ⟨title, hasTitle, ?_⟩⟩
    exact Result.seq_eq_ok.mpr ⟨valid, rfl⟩
  · intro relation member
    change relation ∈ (if status = .accepted && above then _ else []) at member
    split at member
    · obtain ⟨other, -, found⟩ := List.mem_filterMap.mp (mem_relationSet.mp member)
      exact graphRelation_eq_some found
    · cases member
  · intro eligible
    obtain ⟨accepted, unblocked, complete⟩ := eligible_iff.mp eligible
    exact ⟨owned.context, placed.safeToInject rfl rfl rfl sameId accepted unblocked complete⟩

/-! ### The whole build -/

theorem mapM_total {ε α β : Type} {step : α → Except ε β} {each : α → β → Prop} {items : List α}
    (total : ∀ item ∈ items, ∃ result, step item = .ok result ∧ each item result) :
    ∃ results, items.mapM step = .ok results ∧ List.Forall₂ each items results := by
  induction items with
  | nil => exact ⟨[], rfl, .nil⟩
  | cons item items ih =>
      obtain ⟨result, stepped, holds⟩ := total item List.mem_cons_self
      obtain ⟨results, traversed, all⟩ := ih fun other member =>
        total other (List.mem_cons_of_mem _ member)
      refine ⟨result :: results, ?_, .cons holds all⟩
      rw [List.mapM_cons, Result.bind_eq_ok]
      exact ⟨result, stepped, Result.bind_eq_ok.mpr ⟨results, traversed, rfl⟩⟩

theorem map_eq_of_forall₂ {α β γ : Type} {each : α → β → Prop} {first : α → γ} {second : β → γ}
    {items : List α} {results : List β} (agree : ∀ item result, each item result →
      first item = second result) (all : List.Forall₂ each items results) :
    items.map first = results.map second := by
  induction all with
  | nil => rfl
  | cons holds _ ih => rw [List.map_cons, List.map_cons, agree _ _ holds, ih]

/-- What a build promises about its snapshots. -/
structure GraphBuild (projection : DomainProjection)
    (references : List ProjectedEngineeringReference) (snapshots : List GraphContextSnapshot) :
    Prop where
  valid : ∀ snapshot ∈ snapshots, snapshot.validate = .ok ()
  once : (snapshots.map GraphContextSnapshot.key).Nodup
  covers : ∀ contextId revisionId,
    (contextId, revisionId) ∈ snapshots.map GraphContextSnapshot.key ↔
      ∃ steps ≤ 2, Included projection references steps contextId revisionId
  closed : ∀ snapshot ∈ snapshots, ∀ relation ∈ snapshot.relations, ∃ target ∈ snapshots,
    target.spaceId = relation.targetSpaceId ∧
      target.key = (relation.targetContextId, relation.targetRevisionId)
  safe : ∀ snapshot ∈ snapshots, snapshot.safety.automaticInjectionEligible = true →
    ∃ context, SafeToInject projection snapshot context

variable {references : List ProjectedEngineeringReference}

theorem graphRoots_spec (anchored : Anchored (reduce events hasher) references) :
    ∃ named, references.mapM (graphRoot (reduce events hasher)) = .ok named ∧
      ∀ key, key ∈ named ↔ ∃ reference ∈ references, ∃ owned revision,
        Placed (reduce events hasher) key owned revision ∧
          key.contextId = reference.contextId ∧ key.revisionId = reference.revisionId := by
  have total : ∀ reference ∈ references, ∃ key,
      graphRoot (reduce events hasher) reference = .ok key ∧ True := by
    intro reference asked
    obtain ⟨key, owned, revision, placed, isContext, isRevision⟩ := anchored reference asked
    exact ⟨key, graphRoot_placed placed isContext isRevision, trivial⟩
  obtain ⟨named, traversed, -⟩ := mapM_total total
  obtain ⟨forward, backward⟩ := Result.mapM_members traversed
  refine ⟨named, traversed, fun key => ⟨?_, ?_⟩⟩
  · intro isNamed
    obtain ⟨reference, asked, isRoot⟩ := backward key isNamed
    obtain ⟨other, owned, revision, placed, isContext, isRevision⟩ := anchored reference asked
    have isOther := graphRoot_placed placed isContext isRevision
    obtain rfl := Except.ok.inj (isRoot.symm.trans isOther)
    exact ⟨reference, asked, owned, revision, placed, isContext, isRevision⟩
  · rintro ⟨reference, asked, owned, revision, placed, isContext, isRevision⟩
    obtain ⟨other, isNamed, isRoot⟩ := forward reference asked
    have isOther := graphRoot_placed placed isContext isRevision
    obtain rfl := Except.ok.inj (isOther.symm.trans isRoot)
    exact isNamed

theorem mem_acceptedTargets_of_target {projection : DomainProjection} {contextId : ContextId}
    {key : GraphKey} (isTarget : acceptedTarget? projection contextId = some key) :
    key ∈ acceptedTargets projection :=
  List.mem_reverse.mp (List.mem_of_find?_eq_some isTarget)

theorem graphSearch_spec (anchored : Anchored (reduce events hasher) references)
    {roots : List GraphKey}
    (rooted : ∀ key, key ∈ roots ↔ ∃ reference ∈ references, ∃ owned revision,
      Placed (reduce events hasher) key owned revision ∧
        key.contextId = reference.contextId ∧ key.revisionId = reference.revisionId) :
    ∃ reached, DepthSearch.search (followRelations (reduce events hasher)) maxRelationDepth
        (searchFuel (reduce events hasher) roots) (.start roots) = .ok reached ∧
      (∀ key ∈ reached.depths.keys, ∃ owned revision,
        Placed (reduce events hasher) key owned revision) ∧
      ∀ contextId revisionId, (∃ key ∈ reached.depths.keys,
          key.contextId = contextId ∧ key.revisionId = revisionId) ↔
        ∃ steps ≤ 2, Included (reduce events hasher) references steps contextId revisionId := by
  let projection := reduce events hasher
  have allPlaced : ∀ key ∈ roots, ∃ owned revision, Placed projection key owned revision := by
    intro key isRoot
    obtain ⟨-, -, owned, revision, placed, -⟩ := (rooted key).mp isRoot
    exact ⟨owned, revision, placed⟩
  have total : ∀ depth key, depth < maxRelationDepth →
      DepthSearch.Path (followRelations projection) roots depth key →
      ∃ found, followRelations projection key = .ok found ∧
        ∀ other ∈ found, other ∈ (acceptedTargets projection).toFinset := by
    intro depth key _ path
    obtain ⟨owned, revision, placed⟩ := path_placed allPlaced path
    obtain ⟨found, followed, targets⟩ := placed.follow
    refine ⟨found, followed, fun other isFound => ?_⟩
    obtain ⟨-, relation, -, isTarget⟩ := (targets other).mp isFound
    exact List.mem_toFinset.mpr (mem_acceptedTargets_of_target isTarget)
  have enough : roots.length + (acceptedTargets projection).toFinset.card * (maxRelationDepth + 1) ≤
      searchFuel projection roots := by
    have few := List.toFinset_card_le (acceptedTargets projection)
    unfold searchFuel
    gcongr
  obtain ⟨reached, searched, -, members⟩ := DepthSearch.search_reaches total enough
  refine ⟨reached, searched, ?_, fun contextId revisionId => ⟨?_, ?_⟩⟩
  · intro key isReached
    obtain ⟨steps, -, path⟩ := (members key).mp isReached
    exact path_placed allPlaced path
  · rintro ⟨key, isReached, isContext, isRevision⟩
    obtain ⟨steps, within, path⟩ := (members key).mp isReached
    exact ⟨steps, within, (path_iff_included anchored rooted).mp ⟨key, path, isContext, isRevision⟩⟩
  · rintro ⟨steps, within, included⟩
    obtain ⟨key, path, isContext, isRevision⟩ := (path_iff_included anchored rooted).mpr included
    exact ⟨key, (members key).mpr ⟨steps, within, path⟩, isContext, isRevision⟩

theorem buildGraphContextSnapshots_spec (schemaValid : ∀ event ∈ events, event.SchemaValid)
    (anchored : Anchored (reduce events hasher) references) :
    ∃ snapshots, buildGraphContextSnapshots (reduce events hasher) references = .ok snapshots ∧
      GraphBuild (reduce events hasher) references snapshots := by
  obtain ⟨named, traversed, isNamed⟩ := graphRoots_spec anchored
  have rooted : ∀ key, key ∈ BTreeMap.ordered named.toFinset ↔ _ := fun key => by
    rw [BTreeMap.mem_ordered, List.mem_toFinset, isNamed key]
  obtain ⟨reached, searched, allPlaced, covers⟩ := graphSearch_spec anchored rooted
  let keys := BTreeMap.ordered reached.depths.keys
  have total : ∀ key ∈ keys, ∃ snapshot,
      graphSnapshot (reduce events hasher) reached.depths key = .ok snapshot ∧
        Captures (reduce events hasher) reached.depths.keys key snapshot := by
    intro key isKey
    obtain ⟨owned, revision, placed⟩ := allPlaced key (BTreeMap.mem_ordered.mp isKey)
    exact placed.snapshot schemaValid reached.depths
  obtain ⟨captured, collected, captures⟩ := mapM_total total
  have sorted : (captured.insertionSort GraphContextSnapshot.inOrder).Perm captured :=
    List.perm_insertionSort _ _
  have sameKeys : keys.map (fun key => (key.contextId, key.revisionId)) =
      captured.map GraphContextSnapshot.key :=
    map_eq_of_forall₂ (fun key snapshot captured =>
      (Prod.ext captured.context captured.revision).symm) captures
  obtain ⟨forward, backward⟩ := Result.mapM_members collected
  have ofKey : ∀ key ∈ reached.depths.keys, ∃ snapshot ∈ captured,
      Captures (reduce events hasher) reached.depths.keys key snapshot := by
    intro key isReached
    have isKey := BTreeMap.mem_ordered.mpr isReached
    obtain ⟨snapshot, isCaptured, built⟩ := forward key isKey
    obtain ⟨other, builtToo, captures⟩ := total key isKey
    obtain rfl := Except.ok.inj (built.symm.trans builtToo)
    exact ⟨snapshot, isCaptured, captures⟩
  have ofSnapshot : ∀ snapshot ∈ captured, ∃ key,
      Captures (reduce events hasher) reached.depths.keys key snapshot := by
    intro snapshot isCaptured
    obtain ⟨key, isKey, built⟩ := backward snapshot isCaptured
    obtain ⟨other, builtToo, captures⟩ := total key isKey
    obtain rfl := Except.ok.inj (built.symm.trans builtToo)
    exact ⟨key, captures⟩
  refine ⟨captured.insertionSort GraphContextSnapshot.inOrder, ?_, ?_, ?_, ?_, ?_, ?_⟩
  · refine Result.bind_eq_ok.mpr ⟨named, traversed, Result.bind_eq_ok.mpr ⟨reached, searched, ?_⟩⟩
    exact Result.bind_eq_ok.mpr ⟨captured, collected, rfl⟩
  · intro snapshot member
    obtain ⟨key, captures⟩ := ofSnapshot snapshot (sorted.mem_iff.mp member)
    exact captures.valid
  · rw [(sorted.map _).nodup_iff, ← sameKeys]
    refine List.Nodup.map_on ?_ ?_
    · intro first isFirst second isSecond same
      obtain ⟨_, _, firstPlaced⟩ := allPlaced first (BTreeMap.mem_ordered.mp isFirst)
      obtain ⟨_, _, secondPlaced⟩ := allPlaced second (BTreeMap.mem_ordered.mp isSecond)
      obtain ⟨sameContext, sameRevision⟩ := Prod.mk.inj same
      exact firstPlaced.ext secondPlaced sameContext sameRevision
    · change (BTreeMap.ordered reached.depths.keys).Nodup
      rw [BTreeMap.ordered_eq_sort]
      exact Finset.sort_nodup _ _
  · intro contextId revisionId
    rw [← covers, (sorted.map _).mem_iff, ← sameKeys, List.mem_map]
    simp only [Prod.mk.injEq]
    exact exists_congr fun key => and_congr_left fun _ => BTreeMap.mem_ordered
  · intro snapshot member relation isRelation
    obtain ⟨key, captures⟩ := ofSnapshot snapshot (sorted.mem_iff.mp member)
    obtain ⟨target, isIncluded, isSpace, isContext, isRevision⟩ :=
      captures.relations relation isRelation
    obtain ⟨other, isCaptured, targetCaptures⟩ := ofKey target isIncluded
    refine ⟨other, sorted.mem_iff.mpr isCaptured, targetCaptures.space.trans isSpace, ?_⟩
    exact Prod.ext (targetCaptures.context.trans isContext)
      (targetCaptures.revision.trans isRevision)
  · intro snapshot member eligible
    obtain ⟨key, captures⟩ := ofSnapshot snapshot (sorted.mem_iff.mp member)
    exact captures.eligible eligible

end Reduced

end SharedContext.EngineeringGraph
