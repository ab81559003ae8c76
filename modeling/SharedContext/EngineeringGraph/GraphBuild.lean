import SharedContext.EngineeringGraph.GraphContexts

/-!
# What a build captures

The search of a build follows exactly the relations between accepted
revisions, so its keys are the revisions within two steps of a reference.
-/

namespace SharedContext.EngineeringGraph

/-! ### The revisions to capture -/

def AcceptedRevision (projection : DomainProjection) (contextId : ContextId)
    (revisionId : RevisionId) (revision : RevisionProjection) : Prop :=
  ∃ spaceId context, contextIn? projection.spaces spaceId contextId = some context ∧
    context.revisions.get? revisionId = some revision ∧ revision.lifecycle = .accepted

/-- A revision that references name, or that so many relations lead to from
one through accepted revisions. -/
inductive Included (projection : DomainProjection)
    (references : List ProjectedEngineeringReference) : Nat → ContextId → RevisionId → Prop
  | referenced {reference : ProjectedEngineeringReference} (asked : reference ∈ references) :
      Included projection references 0 reference.contextId reference.revisionId
  | related {steps : Nat} {contextId : ContextId} {revisionId targetId : RevisionId}
      {revision target : RevisionProjection} {relation : ContextRelation}
      (before : Included projection references steps contextId revisionId)
      (accepted : AcceptedRevision projection contextId revisionId revision)
      (relates : relation ∈ revision.revision.relations)
      (targetAccepted : AcceptedRevision projection relation.targetContextId targetId target) :
      Included projection references (steps + 1) relation.targetContextId targetId

section Reduced

variable {events : List ReducerEvent} {hasher : ContentHasher}

/-- A key whose Space owns its Context, which has its revision. -/
structure Placed (projection : DomainProjection) (key : GraphKey) (owned : OwnedContext)
    (revision : RevisionProjection) : Prop where
  owner : owner? projection key.contextId = some owned
  space : key.spaceId = owned.spaceId
  found : owned.context.revisions.get? key.revisionId = some revision

theorem Placed.entry {key : GraphKey} {owned : OwnedContext} {revision : RevisionProjection}
    (placed : Placed (reduce events hasher) key owned revision) :
    owned ∈ contextEntries (reduce events hasher) :=
  (owner?_reduce.mp placed.owner).1

theorem Placed.revision_eq {key : GraphKey} {message : String} {owned : OwnedContext}
    {revision : RevisionProjection} (placed : Placed (reduce events hasher) key owned revision) :
    graphRevision (reduce events hasher) message key = .ok (owned, revision) := by
  simp only [graphRevision, placed.owner, placed.found]

theorem Placed.ext {first second : GraphKey} {owned other : OwnedContext}
    {revision otherRevision : RevisionProjection}
    (isFirst : Placed (reduce events hasher) first owned revision)
    (isSecond : Placed (reduce events hasher) second other otherRevision)
    (sameContext : first.contextId = second.contextId)
    (sameRevision : first.revisionId = second.revisionId) : first = second := by
  have sameOwner := isFirst.owner
  rw [sameContext, isSecond.owner] at sameOwner
  obtain rfl := Option.some.inj sameOwner
  exact GraphKey.ext (isFirst.space.trans isSecond.space.symm) sameContext sameRevision

theorem Placed.accepted {key : GraphKey} {owned : OwnedContext} {revision : RevisionProjection}
    (placed : Placed (reduce events hasher) key owned revision)
    (accepts : revision.lifecycle = .accepted) :
    AcceptedRevision (reduce events hasher) key.contextId key.revisionId revision := by
  obtain ⟨isEntry, sameId⟩ := owner?_reduce.mp placed.owner
  obtain ⟨-, found⟩ := mem_contextEntries_reduce.mp isEntry
  rw [sameId] at found
  exact ⟨owned.spaceId, owned.context, found, placed.found, accepts⟩

theorem AcceptedRevision.placed {contextId : ContextId} {revisionId : RevisionId}
    {revision : RevisionProjection}
    (accepted : AcceptedRevision (reduce events hasher) contextId revisionId revision) :
    ∃ key owned, key.contextId = contextId ∧ key.revisionId = revisionId ∧
      Placed (reduce events hasher) key owned revision ∧
      acceptedTarget? (reduce events hasher) contextId = some key := by
  obtain ⟨spaceId, context, found, isRevision, accepts⟩ := accepted
  obtain ⟨owned, isEntry, rfl, rfl⟩ := exists_contextEntry found
  have isOwner : owner? (reduce events hasher) contextId = some owned :=
    owner?_reduce.mpr ⟨isEntry, contextId_of_contextIn? found⟩
  obtain ⟨publicationId, settled⟩ := (lifecycle_eq_accepted isEntry isRevision).mp accepts
  refine ⟨graphKey owned.spaceId contextId revisionId, owned, rfl, rfl, ⟨isOwner, rfl, isRevision⟩,
    ?_⟩
  exact acceptedTarget?_reduce.mpr ⟨owned, publicationId, isOwner, settled, rfl, rfl⟩

theorem acceptedTarget?_placed {contextId : ContextId} {key : GraphKey}
    (isTarget : acceptedTarget? (reduce events hasher) contextId = some key) :
    key.contextId = contextId ∧ ∃ owned revision,
      Placed (reduce events hasher) key owned revision ∧ revision.lifecycle = .accepted := by
  obtain ⟨owned, publicationId, isOwner, settled, isSpace, isContext⟩ :=
    acceptedTarget?_reduce.mp isTarget
  obtain ⟨isEntry, -⟩ := owner?_reduce.mp isOwner
  obtain ⟨-, revision, found⟩ := accepted_revision isEntry settled
  refine ⟨isContext, owned, revision, ⟨isContext ▸ isOwner, isSpace, found⟩, ?_⟩
  exact (lifecycle_eq_accepted isEntry found).mpr ⟨publicationId, settled⟩

/-! ### Following relations -/

theorem Placed.follow {key : GraphKey} {owned : OwnedContext} {revision : RevisionProjection}
    (placed : Placed (reduce events hasher) key owned revision) :
    ∃ found, followRelations (reduce events hasher) key = .ok found ∧
      ∀ target, target ∈ found ↔ revision.lifecycle = .accepted ∧
        ∃ relation ∈ revision.revision.relations,
          acceptedTarget? (reduce events hasher) relation.targetContextId = some target := by
  have status := status_eq_accepted placed.entry placed.found
  by_cases accepts : revision.lifecycle = .accepted
  · refine ⟨revision.revision.relations.filterMap fun relation =>
      acceptedTarget? (reduce events hasher) relation.targetContextId, ?_, fun target => ?_⟩
    · rw [followRelations, Result.bind_eq_ok]
      exact ⟨_, placed.revision_eq, by simp [status.mpr accepts]⟩
    · simp [accepts]
  · refine ⟨[], ?_, by simp [accepts]⟩
    rw [followRelations, Result.bind_eq_ok]
    exact ⟨_, placed.revision_eq, by simp [mt status.mp accepts]⟩

variable {references : List ProjectedEngineeringReference}

/-- References to revisions of the projection. -/
def Anchored (projection : DomainProjection) (references : List ProjectedEngineeringReference) :
    Prop :=
  ∀ reference ∈ references, ∃ key owned revision, Placed projection key owned revision ∧
    key.contextId = reference.contextId ∧ key.revisionId = reference.revisionId

theorem graphRoot_placed {reference : ProjectedEngineeringReference} {key : GraphKey}
    {owned : OwnedContext} {revision : RevisionProjection}
    (placed : Placed (reduce events hasher) key owned revision)
    (isContext : key.contextId = reference.contextId)
    (isRevision : key.revisionId = reference.revisionId) :
    graphRoot (reduce events hasher) reference = .ok key := by
  have isOwner := isContext ▸ placed.owner
  have member := BTreeMap.mem_keys_of_get? (isRevision ▸ placed.found)
  simp only [graphRoot, isOwner, member, if_true, Except.ok.injEq]
  exact GraphKey.ext placed.space.symm isContext.symm isRevision.symm

theorem projectedReferences_anchored (events : List ReducerEvent) (hasher : ContentHasher) :
    Anchored (reduce events hasher) (projectedReferences (reduce events hasher)) := by
  intro reference asked
  obtain ⟨projected, isProjected, rfl⟩ := List.mem_map.mp asked
  obtain ⟨referenceId, found⟩ := BTreeMap.mem_values.mp isProjected
  obtain ⟨node, -, resolved⟩ := engineeringReferences_eq_some.mp found
  obtain ⟨-, spaceId, valid, isRevision, rfl⟩ :=
    SharedContext.resolveReference_eq_ok.mp resolved
  have isContext : contextIn? (reduce events hasher).spaces spaceId node.contextId = some _ :=
    contextIn?_reduce.mpr ⟨valid, rfl⟩
  obtain ⟨owned, isEntry, rfl, sameContext⟩ := exists_contextEntry isContext
  obtain ⟨revision, isFound⟩ :=
    BTreeMap.mem_keys_iff.mp (mem_keys_projectContext_revisions.mpr isRevision)
  have sameId : owned.context.contextId = node.contextId := by
    rw [sameContext]
    rfl
  refine ⟨graphKey owned.spaceId node.contextId node.revisionId, owned, revision,
    ⟨owner?_reduce.mpr ⟨isEntry, sameId⟩, rfl, ?_⟩, rfl, rfl⟩
  rw [sameContext]
  exact isFound

/-! ### The keys a build reaches -/

section Paths

variable {roots : List GraphKey}

theorem path_placed
    (rooted : ∀ key ∈ roots, ∃ owned revision, Placed (reduce events hasher) key owned revision)
    {steps : Nat} {key : GraphKey}
    (path : DepthSearch.Path (followRelations (reduce events hasher)) roots steps key) :
    ∃ owned revision, Placed (reduce events hasher) key owned revision := by
  induction path with
  | start isStart => exact rooted _ isStart
  | step path followed isFound ih =>
      obtain ⟨owned, revision, placed⟩ := ih
      obtain ⟨found, followedToo, targets⟩ := placed.follow
      obtain rfl := Except.ok.inj (followed.symm.trans followedToo)
      obtain ⟨-, relation, -, isTarget⟩ := (targets _).mp isFound
      obtain ⟨-, other, target, isPlaced, -⟩ := acceptedTarget?_placed isTarget
      exact ⟨other, target, isPlaced⟩

theorem path_iff_included (anchored : Anchored (reduce events hasher) references)
    (rooted : ∀ key, key ∈ roots ↔ ∃ reference ∈ references, ∃ owned revision,
      Placed (reduce events hasher) key owned revision ∧
        key.contextId = reference.contextId ∧ key.revisionId = reference.revisionId)
    {steps : Nat} {contextId : ContextId} {revisionId : RevisionId} :
    (∃ key, DepthSearch.Path (followRelations (reduce events hasher)) roots steps key ∧
      key.contextId = contextId ∧ key.revisionId = revisionId) ↔
      Included (reduce events hasher) references steps contextId revisionId := by
  have allPlaced : ∀ key ∈ roots, ∃ owned revision,
      Placed (reduce events hasher) key owned revision := by
    intro key isRoot
    obtain ⟨-, -, owned, revision, placed, -⟩ := (rooted key).mp isRoot
    exact ⟨owned, revision, placed⟩
  constructor
  · rintro ⟨key, path, rfl, rfl⟩
    induction path with
    | start isStart =>
        obtain ⟨reference, asked, -, -, -, isContext, isRevision⟩ := (rooted _).mp isStart
        rw [isContext, isRevision]
        exact .referenced asked
    | step path followed isFound ih =>
        obtain ⟨owned, revision, placed⟩ := path_placed allPlaced path
        obtain ⟨found, followedToo, targets⟩ := placed.follow
        obtain rfl := Except.ok.inj (followed.symm.trans followedToo)
        obtain ⟨accepts, relation, relates, isTarget⟩ := (targets _).mp isFound
        obtain ⟨isContext, other, target, isPlaced, targetAccepts⟩ := acceptedTarget?_placed isTarget
        have targetAccepted := isPlaced.accepted targetAccepts
        rw [isContext] at targetAccepted ⊢
        exact ih.related (placed.accepted accepts) relates targetAccepted
  · intro included
    induction included with
    | referenced asked =>
        obtain ⟨key, owned, revision, placed, isContext, isRevision⟩ := anchored _ asked
        refine ⟨key, .start ((rooted key).mpr ?_), isContext, isRevision⟩
        exact ⟨_, asked, owned, revision, placed, isContext, isRevision⟩
    | related before accepted relates targetAccepted ih =>
        obtain ⟨key, path, rfl, rfl⟩ := ih
        obtain ⟨same, owned, isContext, isRevision, placed, -⟩ := accepted.placed
        obtain ⟨first, firstRevision, isFirst⟩ := path_placed allPlaced path
        obtain rfl := placed.ext isFirst isContext isRevision
        obtain ⟨target, other, targetContext, targetRevision, targetPlaced, isTarget⟩ :=
          targetAccepted.placed
        obtain ⟨found, followed, targets⟩ := placed.follow
        obtain ⟨-, -, -, -, accepts⟩ := accepted
        refine ⟨target, path.step followed ((targets target).mpr ?_), targetContext, targetRevision⟩
        exact ⟨accepts, _, relates, isTarget⟩

end Paths

end Reduced

end SharedContext.EngineeringGraph
