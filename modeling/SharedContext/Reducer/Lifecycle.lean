import SharedContext.Reducer.AutoInjection

/-!
# Revision lifecycle

Governance follows the publication heads, superseded revisions follow the
publication edges.  The two agree unless several heads are current and one of
them publishes a revision that another branch has replaced.
-/

namespace SharedContext

/-- A later publication on some branch replaced the revision by another one. -/
def Replaced (publications : BTreeMap PublicationId PublicationNode) (revisionId : RevisionId) :
    Prop :=
  ∃ laterId later, publications.get? laterId = some later ∧
    later.publication.action = .publish ∧ later.publication.revisionId ≠ revisionId ∧
    ∃ previousId ∈ later.publication.previousPublicationIds, ∃ previous,
      publications.get? previousId = some previous ∧ previous.publication.revisionId = revisionId

theorem mem_supersededRevisions {publications : BTreeMap PublicationId PublicationNode}
    {revisionId : RevisionId} :
    revisionId ∈ supersededRevisions publications ↔ Replaced publications revisionId := by
  rw [supersededRevisions, BTreeMap.mem_flatMap]
  refine exists_congr fun laterId => exists_congr fun later => and_congr_right fun _ => ?_
  split
  · rename_i publishes
    simp only [publishes, true_and, mem_collect]
    constructor
    · rintro ⟨previousId, isPrevious, member⟩
      cases found : publications.get? previousId with
      | none => simp [found] at member
      | some previous =>
          rw [found, Option.elim_some] at member
          split at member
          · rename_i different
            obtain rfl := Finset.mem_singleton.mp member
            exact ⟨Ne.symm different, previousId, isPrevious, previous, found, rfl⟩
          · cases member
    · rintro ⟨different, previousId, isPrevious, previous, found, rfl⟩
      refine ⟨previousId, isPrevious, ?_⟩
      rw [found, Option.elim_some, if_pos (Ne.symm different)]
      exact Finset.mem_singleton_self _
  · rename_i withdraws
    simp [withdraws]

section Lifecycle

variable {governance : ContextGovernanceStatus} {superseded : Finset RevisionId}
  {revisionId : RevisionId}

def ContextGovernanceStatus.current? : ContextGovernanceStatus → Option RevisionId
  | .accepted _ revisionId | .deprecated _ revisionId => some revisionId
  | _ => none

theorem revisionLifecycle_of_current (isCurrent : governance.current? = some revisionId) :
    revisionLifecycle governance superseded revisionId = .accepted ∨
      revisionLifecycle governance superseded revisionId = .deprecated := by
  cases governance with
  | accepted _ current => exact .inl (if_pos (Option.some.inj isCurrent))
  | deprecated _ current => exact .inr (if_pos (Option.some.inj isCurrent))
  | unpublished => cases isCurrent
  | governanceConflict _ => cases isCurrent

theorem revisionLifecycle_of_not_current (notCurrent : governance.current? ≠ some revisionId) :
    revisionLifecycle governance superseded revisionId =
      if revisionId ∈ superseded then .superseded else .candidate := by
  cases governance with
  | accepted _ current => exact if_neg fun same => notCurrent (congrArg some same)
  | deprecated _ current => exact if_neg fun same => notCurrent (congrArg some same)
  | unpublished => rfl
  | governanceConflict _ => rfl

theorem current?_of_settled
    (settled : revisionLifecycle governance superseded revisionId = .accepted ∨
      revisionLifecycle governance superseded revisionId = .deprecated) :
    governance.current? = some revisionId := by
  by_contra notCurrent
  rw [revisionLifecycle_of_not_current notCurrent] at settled
  split at settled <;> simp at settled

theorem revisionLifecycle_eq_superseded :
    revisionLifecycle governance superseded revisionId = .superseded ↔
      revisionId ∈ superseded ∧ governance.current? ≠ some revisionId := by
  by_cases isCurrent : governance.current? = some revisionId
  · have current : revisionLifecycle governance superseded revisionId = .accepted ∨
        revisionLifecycle governance superseded revisionId = .deprecated :=
      revisionLifecycle_of_current isCurrent
    rcases current with same | same
    · simp [same, isCurrent]
    · simp [same, isCurrent]
  · rw [revisionLifecycle_of_not_current isCurrent]
    by_cases member : revisionId ∈ superseded
    · simp [member, isCurrent]
    · simp [member]

end Lifecycle

/-! ### Heads -/

section Heads

variable {facts : Facts} {key : ContextKey}

theorem current?_of_head {headId : PublicationId} {head : PublicationNode}
    (found : (validPublications facts key).get? headId = some head)
    (onlyHead : publicationHeads facts key = {headId}) :
    (contextGovernance (validPublications facts key) (publicationHeads facts key)).current? =
      some head.publication.revisionId := by
  have isFirst : first? ({headId} : Finset PublicationId) = some headId := Finset.min_singleton
  simp only [contextGovernance, onlyHead, Finset.card_singleton, one_ne_zero, if_false, if_true,
    isFirst, Option.bind_some, found, Option.map_some]
  rw [ContextGovernanceStatus.ofHead]
  split <;> rfl

theorem current?_of_heads {headId : PublicationId} (isHead : headId ∈ publicationHeads facts key)
    (otherHead : publicationHeads facts key ≠ {headId}) :
    (contextGovernance (validPublications facts key) (publicationHeads facts key)).current? =
      none := by
  have notNone : (publicationHeads facts key).card ≠ 0 := Finset.card_ne_zero_of_mem isHead
  have notOne : (publicationHeads facts key).card ≠ 1 := by
    intro isOne
    obtain ⟨only, isOnly⟩ := Finset.card_eq_one.mp isOne
    rw [isOnly, Finset.mem_singleton] at isHead
    exact otherHead (isHead ▸ isOnly)
  rw [contextGovernance, if_neg notNone, if_neg notOne]
  rfl

end Heads

/-- Several heads are current, and one of them publishes a revision that
another branch has replaced. -/
def RepublishedBeside (facts : Facts) (key : ContextKey) : Prop :=
  ∃ headId ∈ publicationHeads facts key, ∃ head,
    (validPublications facts key).get? headId = some head ∧
      head.publication.action = .publish ∧ publicationHeads facts key ≠ {headId} ∧
      Replaced (validPublications facts key) head.publication.revisionId

/-- At most one revision of a Context is accepted or deprecated, and the
revision of a current publishing head is never superseded. -/
def ContextProjection.FollowsHeads (context : ContextProjection) : Prop :=
  (∀ first second firstRevision secondRevision,
    context.revisions.get? first = some firstRevision →
    context.revisions.get? second = some secondRevision →
    (firstRevision.lifecycle = .accepted ∨ firstRevision.lifecycle = .deprecated) →
    (secondRevision.lifecycle = .accepted ∨ secondRevision.lifecycle = .deprecated) →
    first = second) ∧
  ∀ headId ∈ context.publicationHeads, ∀ publication,
    context.publications.get? headId = some publication → publication.action = .publish →
    ∀ revision, context.revisions.get? publication.revisionId = some revision →
      revision.lifecycle ≠ .superseded

/-- For every list of events, the lifecycles of a projected Context follow its
current publications exactly when no current head beside others publishes a
revision that was replaced. -/
theorem lifecycle_followsHeads_iff (events : List ReducerEvent) (hasher : ContentHasher)
    {spaceId : SpaceId} {contextId : ContextId} {context : ContextProjection}
    (found : contextIn? (reduce events hasher).spaces spaceId contextId = some context) :
    context.FollowsHeads ↔ ¬ RepublishedBeside (factsOf events) (spaceId, contextId) := by
  obtain ⟨valid, rfl⟩ := contextIn?_reduce.mp found
  let key : ContextKey := (spaceId, contextId)
  let facts := factsOf events
  let governance := contextGovernance (validPublications facts key) (publicationHeads facts key)
  have lifecycleOf : ∀ {revisionId revision},
      (projectContext facts key).revisions.get? revisionId = some revision →
      revision.lifecycle = revisionLifecycle governance
        (supersededRevisions (validPublications facts key)) revisionId := by
    intro revisionId revision isRevision
    obtain ⟨node, -, rfl⟩ := get?_projectContext_revisions.mp isRevision
    rfl
  constructor
  · rintro ⟨-, neverSuperseded⟩ ⟨headId, isHead, head, isNode, publishes, otherHead, replaced⟩
    obtain ⟨-, -, sameKey, isValid, -⟩ := validPublications_agrees isNode
    rw [sameKey] at isValid
    obtain ⟨revision, isRevision⟩ :=
      BTreeMap.mem_keys_iff.mp (mem_keys_projectContext_revisions.mpr isValid)
    refine neverSuperseded headId isHead head.publication
      (get?_projectContext_publications.mpr ⟨head, isNode, rfl⟩) publishes revision isRevision ?_
    rw [lifecycleOf isRevision, revisionLifecycle_eq_superseded, mem_supersededRevisions]
    refine ⟨replaced, ?_⟩
    rw [current?_of_heads isHead otherHead]
    exact (Option.some_ne_none _).symm
  · intro notBeside
    refine ⟨?_, ?_⟩
    · intro first second firstRevision secondRevision isFirst isSecond firstSettled secondSettled
      rw [lifecycleOf isFirst] at firstSettled
      rw [lifecycleOf isSecond] at secondSettled
      exact Option.some.inj
        ((current?_of_settled firstSettled).symm.trans (current?_of_settled secondSettled))
    · intro headId isHead publication isPublication publishes revision isRevision isSuperseded
      obtain ⟨head, isNode, rfl⟩ := get?_projectContext_publications.mp isPublication
      rw [lifecycleOf isRevision, revisionLifecycle_eq_superseded, mem_supersededRevisions]
        at isSuperseded
      obtain ⟨replaced, notCurrent⟩ := isSuperseded
      refine notBeside ⟨headId, isHead, head, isNode, publishes, fun onlyHead => ?_, replaced⟩
      exact notCurrent (current?_of_head isNode onlyHead)

/-! ### A republished revision -/

def sampleRevision (revisionId : RevisionId) (parents : List RevisionId) (evidenceId : EvidenceId) :
    ContextRevision where
  revisionId := revisionId
  parentRevisionIds := parents
  kind := .decision
  topicKey := none
  problemView := none
  statement := "Reports are cached"
  rationale := "Reports are slow"
  applicability := ⟨[], [], []⟩
  assumptions := []
  recheckWhen := []
  hints := []
  relations := []
  evidence :=
    [⟨evidenceId, .sourceSnapshot, "statement", .object [("path", .string "report.rs")],
      "The report is computed twice", []⟩]

def samplePublication (eventId : EventId) (publicationId : PublicationId)
    (previous : List PublicationId) (revisionId : RevisionId) : ReducerEvent where
  eventId := eventId
  payload := .contextPublicationChanged ⟨1⟩ ⟨1⟩ ⟨publicationId, previous, .publish, revisionId, []⟩

/-- Revision 1 is published, then replaced on one branch and republished on another. -/
def sampleRepublication : List ReducerEvent :=
  [sampleCreation,
    ⟨⟨2⟩, .contextRevisionAdded ⟨1⟩ ⟨1⟩ (sampleRevision ⟨11⟩ [] ⟨1⟩)⟩,
    ⟨⟨3⟩, .contextRevisionAdded ⟨1⟩ ⟨1⟩ (sampleRevision ⟨12⟩ [⟨11⟩] ⟨2⟩)⟩,
    samplePublication ⟨4⟩ ⟨1⟩ [] ⟨11⟩,
    samplePublication ⟨5⟩ ⟨2⟩ [⟨1⟩] ⟨12⟩,
    samplePublication ⟨6⟩ ⟨3⟩ [⟨1⟩] ⟨11⟩]

/-- The republished revision is the subject of a current head and superseded. -/
theorem lifecycle_superseded_head :
    (∀ event ∈ sampleRepublication, event.SchemaValid) ∧
      ∃ context,
        contextIn? (reduce sampleRepublication sampleHasher).spaces ⟨1⟩ ⟨1⟩ = some context ∧
        (⟨3⟩ : PublicationId) ∈ context.publicationHeads ∧
        context.publications.get? ⟨3⟩ = some ⟨⟨3⟩, [⟨1⟩], .publish, ⟨11⟩, []⟩ ∧
        (context.revisions.get? ⟨11⟩).map RevisionProjection.lifecycle = some .superseded := by
  refine ⟨by decide, ?_⟩
  have isThere : (contextIn? (reduce sampleRepublication sampleHasher).spaces ⟨1⟩ ⟨1⟩).isSome := by
    decide +kernel
  refine ⟨_, (Option.some_get isThere).symm, ?_⟩
  decide +kernel +revert

/-- A Context with one publication. -/
theorem lifecycle_followsHeads_sample :
    ∃ context, contextIn?
        (reduce (sampleRepublication.take 4) sampleHasher).spaces ⟨1⟩ ⟨1⟩ = some context ∧
      (context.FollowsHeads ↔
        ¬ RepublishedBeside (factsOf (sampleRepublication.take 4)) (⟨1⟩, ⟨1⟩)) := by
  have isThere :
      (contextIn? (reduce (sampleRepublication.take 4) sampleHasher).spaces ⟨1⟩ ⟨1⟩).isSome := by
    decide +kernel
  have found := (Option.some_get isThere).symm
  exact ⟨_, found, lifecycle_followsHeads_iff _ _ found⟩

end SharedContext
