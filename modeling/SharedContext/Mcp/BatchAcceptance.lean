import SharedContext.Mcp.ConfirmationBatch

/-!
# Accepting a batch of confirmations

Every plan of a batch lands in the extended history: what it refers to is
valid in the snapshot, the snapshot stays valid, and the other plans mention
only their own Contexts and Contexts of the snapshot.
-/

namespace SharedContext

variable {hasher : PlanHasher} {history : List ReducerEvent}

/-! ### A prepared plan -/

/-- A plan that one admissible input prepares from the snapshot. -/
structure Prepared (hasher : PlanHasher) (history : List ReducerEvent) (input : ConfirmationInput)
    (plan : CandidateConfirmationPlan) : Prop where
  prepared : input.prepare hasher (reduce history hasher.toContentHasher) = .ok plan
  admissible : input.Admissible (reduce history hasher.toContentHasher)

theorem reserve_operation {ids : ReservedIds} {candidate : ContextCandidate}
    {operation : CandidateConfirmationOperation} {selection : CandidatePrimarySelection}
    {references : List EngineeringReferenceDraft}
    {openings : List SemanticConflictOpeningDraft} {plan : CandidateConfirmationPlan}
    (reserved : CandidateConfirmationPlan.reserve hasher ids candidate operation selection
      references openings = .ok plan) :
    plan.confirmation.relatedSpaceIds = operation.relatedSpaceIds ∧
      plan.confirmation.edits = operation.edits := by
  simp only [CandidateConfirmationPlan.reserve, Result.bind_eq_ok, Result.exists_unit,
    Result.require_eq_ok, Result.pure_eq_ok] at reserved
  obtain ⟨-, -, -, _, -, _, -, -, _, -, -, -, _, -, -, -, rfl⟩ := reserved
  exact ⟨rfl, rfl⟩

namespace Prepared

variable {input : ConfirmationInput} {plan : CandidateConfirmationPlan}
  (prepared : Prepared hasher history input plan)
include prepared

/-- The plan is reserved for its Candidate, with the openings of its own draft. -/
theorem reservedFor : ∃ openings,
    plan.ReservedFor hasher input.candidate input.selection openings ∧
      openings = Mcp.contradictionConflictOpenings (reduce history hasher.toContentHasher)
        hasher.toContentHasher (contextRevisionAsDraft plan.resultRevision)
        input.selection.spaceId?
        (contextRevisionContentHash hasher.toContentHasher
          (contextRevisionAsDraft plan.resultRevision)) := by
  obtain ⟨finalDraft, applied, reserved⟩ := Result.bind_eq_ok.mp prepared.prepared
  have isReserved := CandidateConfirmationPlan.reservedFor hasher reserved
  have content := isReserved.content
  rw [(reserve_operation reserved).2, applied] at content
  cases content
  exact ⟨_, isReserved, rfl⟩

theorem relatedSpaceIds :
    plan.confirmation.relatedSpaceIds = input.operation.relatedSpaceIds := by
  obtain ⟨_, -, reserved⟩ := Result.bind_eq_ok.mp prepared.prepared
  exact (reserve_operation reserved).1

theorem targets_alive {relation : ContextRelation}
    (member : relation ∈ plan.resultRevision.relations) :
    ContextAlive (factsOf history) relation.targetContextId := by
  obtain ⟨finalDraft, applied, reserved⟩ := Result.bind_eq_ok.mp prepared.prepared
  have content := (CandidateConfirmationPlan.reservedFor hasher reserved).content
  rw [(reserve_operation reserved).2, applied] at content
  cases content
  have isDraft : contextRevisionAsDraft plan.resultRevision ∈
      (input.operation.edits.apply input.candidate.content).toOption := by
    rw [applied]
    rfl
  obtain ⟨spaceId, holds⟩ := prepared.admissible.relations _ isDraft relation member
  obtain ⟨context, found⟩ := Option.isSome_iff_exists.mp holds
  exact ⟨spaceId, (contextIn?_reduce.mp found).1⟩

theorem candidate_found : ∃ node,
    (validCandidateNodes (factsOf history)).get? input.candidate.candidateId = some node ∧
      node.candidate = input.candidate := by
  obtain ⟨projected, found, sameCandidate⟩ := prepared.admissible.candidate
  obtain ⟨node, isValid, rfl⟩ := get?_projectCandidates.mp found
  have accepted := (validCandidates_iff hasher.toContentHasher).mp isValid
  exact ⟨node, (validCandidateNodes_iff hasher.toContentHasher).mpr accepted, sameCandidate⟩

omit prepared in
theorem opening_found {openings : List SemanticConflictOpeningDraft}
    (reserved : plan.ReservedFor hasher input.candidate input.selection openings)
    (sameOpenings : openings = Mcp.contradictionConflictOpenings
      (reduce history hasher.toContentHasher) hasher.toContentHasher
      (contextRevisionAsDraft plan.resultRevision) input.selection.spaceId?
      (contextRevisionContentHash hasher.toContentHasher
        (contextRevisionAsDraft plan.resultRevision)))
    {opening : SemanticConflictOpeningDraft} (member : opening ∈ openings) :
    ∃ revision,
      participantRevision? (projectSpaces (factsOf history)) plan.confirmation.primarySpaceId
        opening.target = some revision ∧
      revision.topicKey = plan.resultRevision.topicKey ∧
      applicabilityOverlaps plan.resultRevision.applicability revision.applicability = true ∧
      plan.resultRevision.kind.isGoverned = true := by
  rw [sameOpenings] at member
  obtain ⟨relation, -, projectable⟩ := Mcp.mem_contradictionConflictOpenings _ _ member
  obtain ⟨governed, spaceId, revision, isPrimary, found, sameTopic, overlaps⟩ :=
    opening_valid projectable
  rw [(reserved.primary spaceId isPrimary).1]
  exact ⟨revision, found, sameTopic, overlaps, governed⟩

/-- An event of the plan mentions its new Context, or a Context that is valid in
its primary Space already. -/
theorem mentions {event : ReducerEvent} (member : event ∈ plan.events) {contextId : ContextId}
    (mentioned : contextId ∈ event.mentionedContexts) :
    contextId = plan.resultContextId ∨
      (plan.confirmation.primarySpaceId, contextId) ∈ (validContexts (factsOf history)).keys ∧
        event.referencedSpaces = {plan.confirmation.primarySpaceId} := by
  obtain ⟨openings, reserved, sameOpenings⟩ := prepared.reservedFor
  rcases plan.mem_events.mp member with isSpace | rfl | rfl | rfl | ⟨eventId, reference, -, rfl⟩ |
    ⟨eventId, opening, isPair, rfl⟩ | rfl
  · obtain ⟨newSpace, eventId, -, -, rfl⟩ := plan.mem_spaceEvents.mp isSpace
    cases mentioned
  · exact .inl (List.mem_singleton.mp mentioned)
  · cases mentioned
  · exact .inl (List.mem_singleton.mp mentioned)
  · cases mentioned
  · obtain ⟨draft, isDraft, sameSpace, sameConflict⟩ :=
      exists_of_forall₂ reserved.conflicts (List.of_mem_zip isPair).2
    obtain ⟨participant, isParticipant, rfl⟩ := List.mem_map.mp mentioned
    change participant ∈ opening.conflict.participants at isParticipant
    rw [sameConflict] at isParticipant
    rcases List.mem_pair.mp isParticipant with rfl | rfl
    · exact .inl rfl
    · obtain ⟨revision, found, -⟩ := opening_found reserved sameOpenings isDraft
      refine .inr ⟨(participantRevision?_eq_some.mp found).1, ?_⟩
      rw [← sameSpace]
      rfl
  · cases mentioned

end Prepared

/-! ### A batch of prepared plans -/

section Batch

variable {plans : List CandidateConfirmationPlan}
  (prepared : ∀ plan ∈ plans, ∃ input, Prepared hasher history input plan)
include prepared

theorem plans_reserved : ∀ plan ∈ plans, ∃ candidate selection openings,
    plan.ReservedFor hasher candidate selection openings := by
  intro plan member
  obtain ⟨input, isPrepared⟩ := prepared plan member
  obtain ⟨openings, reserved, -⟩ := isPrepared.reservedFor
  exact ⟨_, _, openings, reserved⟩

variable (fresh : FreshPlans history plans)
include fresh

omit prepared in
theorem context_fresh {plan : CandidateConfirmationPlan} (isPlan : plan ∈ plans)
    {event : ReducerEvent} (isEvent : event ∈ history) :
    plan.resultContextId ∉ event.mentionedContexts := by
  intro mentions
  have isReserved : plan.resultContextId.any ∈ plan.reservedIds :=
    List.mem_append_left _ (List.mem_append_left _ (List.mem_append_left _
      (List.mem_append_left _ (List.mem_append_left _ List.mem_cons_self))))
  apply fresh.absent plan isPlan _ isReserved
  exact List.mem_flatMap.mpr
    ⟨event, isEvent, List.mem_cons_of_mem _ (mentionedContext_mentioned mentions)⟩

omit prepared in
theorem context_not_new {plan : CandidateConfirmationPlan} (isPlan : plan ∈ plans)
    {spaceId : SpaceId} {contextId : ContextId}
    (isContext : (spaceId, contextId) ∈ (validContexts (factsOf history)).keys) :
    contextId ≠ plan.resultContextId := by
  rintro rfl
  obtain ⟨revisionId, node, found⟩ := mem_keys_validContexts.mp isContext
  obtain ⟨isNode, sameKey, valid⟩ := contextCandidates_agrees found
  obtain ⟨-, isDefiner⟩ := (contexts_iff valid).mp isNode
  have sameContext : node.contextId = plan.resultContextId := congrArg Prod.snd sameKey
  exact context_fresh fresh isPlan isDefiner (sameContext ▸ List.mem_singleton_self _)

omit prepared in
theorem plan_of_context {first second : CandidateConfirmationPlan} (isFirst : first ∈ plans)
    (isSecond : second ∈ plans) (sameContext : first.resultContextId = second.resultContextId) :
    first = second := by
  by_contra different
  have apart := (List.nodup_flatMap.mp fresh.distinct).2
  have isReserved : ∀ plan : CandidateConfirmationPlan,
      plan.resultContextId.any ∈ plan.reservedIds := fun plan =>
    List.mem_append_left _ (List.mem_append_left _ (List.mem_append_left _
      (List.mem_append_left _ (List.mem_append_left _ List.mem_cons_self))))
  have disjoint : List.Disjoint first.reservedIds second.reservedIds := by
    have symmetric : Std.Symm (fun left right : CandidateConfirmationPlan =>
        List.Disjoint left.reservedIds right.reservedIds) := ⟨fun _ _ => List.Disjoint.symm⟩
    exact apart.forall isFirst isSecond different
  exact disjoint (isReserved first) (sameContext ▸ isReserved second)

variable (distinct : (plans.map fun plan => plan.confirmation.candidateId).Nodup)
  (unconfirmed : ∀ plan ∈ plans, ∀ event ∈ history,
    event.confirms? ≠ some plan.confirmation.candidateId)

omit distinct unconfirmed in
theorem batch_owner {other : ReducerEvent}
    (isOther : other ∈ plans.flatMap CandidateConfirmationPlan.events) {spaceId : SpaceId}
    {contextId : ContextId}
    (isContext : (spaceId, contextId) ∈ (validContexts (factsOf history)).keys)
    (otherMentions : contextId ∈ other.mentionedContexts) {owner : SpaceId}
    (otherReferences : owner ∈ other.referencedSpaces) : owner = spaceId := by
  obtain ⟨plan, isPlan, member⟩ := List.mem_flatMap.mp isOther
  obtain ⟨input, isPrepared⟩ := prepared plan isPlan
  rcases isPrepared.mentions member otherMentions with isNew | ⟨inPrimary, spaces⟩
  · exact absurd isNew (context_not_new fresh isPlan isContext)
  · rw [spaces, Finset.mem_singleton] at otherReferences
    exact otherReferences.trans (validContexts_space_unique inPrimary isContext)

include unconfirmed

omit distinct in
theorem keeps_batch : Keeps hasher.toContentHasher history
    (history ++ plans.flatMap CandidateConfirmationPlan.events) := by
  apply keeps_of_sameOwners
  · exact fun event isEvent => List.mem_append_left _ isEvent
  · intro event isEvent unique
    exact uniqueIn_history (plans_reserved prepared) fresh unconfirmed unique
  · intro event isEvent accepted contextId mentioned spaceId referenced other isOther
      otherMentions owner otherReferences
    rcases List.mem_append.mp isOther with inHistory | inBatch
    · exact owner_of_accepted isEvent accepted mentioned referenced inHistory otherMentions
        otherReferences
    · obtain ⟨shared, isShared, isContext⟩ := contexts_of_accepted isEvent accepted mentioned
      rw [referencedSpace_unique mentioned referenced isShared]
      exact batch_owner prepared fresh inBatch isContext otherMentions otherReferences

include distinct

theorem landing_of_batch {plan : CandidateConfirmationPlan} (isPlan : plan ∈ plans) :
    ∃ candidate selection openings,
      Landing hasher history (history ++ plans.flatMap CandidateConfirmationPlan.events)
        candidate selection openings plan := by
  obtain ⟨input, isPrepared⟩ := prepared plan isPlan
  obtain ⟨openings, reserved, sameOpenings⟩ := isPrepared.reservedFor
  refine ⟨input.candidate, input.selection, openings, reserved,
    keeps_batch prepared fresh unconfirmed, ?_, ?_, ?_, isPrepared.candidate_found,
    ?_, ?_, ?_, ?_⟩
  · intro event member
    have inBatch : event ∈ plans.flatMap CandidateConfirmationPlan.events :=
      List.mem_flatMap.mpr ⟨plan, isPlan, member⟩
    exact ⟨List.mem_append_right _ inBatch,
      uniqueIn_batch (plans_reserved prepared) fresh distinct unconfirmed inBatch⟩
  · exact fun event isEvent => context_fresh fresh isPlan isEvent
  · intro event isEvent mentioned
    rcases List.mem_append.mp isEvent with inHistory | inBatch
    · exact absurd mentioned (context_fresh fresh isPlan inHistory)
    · obtain ⟨other, isOther, member⟩ := List.mem_flatMap.mp inBatch
      obtain ⟨otherInput, otherPrepared⟩ := prepared other isOther
      rcases otherPrepared.mentions member mentioned with sameContext | ⟨isContext, -⟩
      · rwa [plan_of_context fresh isPlan isOther sameContext]
      · exact absurd rfl (context_not_new fresh isPlan isContext)
  · intro spaceId isExisting
    exact mem_keys_reduce_spaces.mp (isPrepared.admissible.primary spaceId isExisting)
  · intro spaceId member
    rw [isPrepared.relatedSpaceIds] at member
    exact mem_keys_reduce_spaces.mp (isPrepared.admissible.related spaceId member)
  · exact fun relation member => isPrepared.targets_alive member
  · exact fun opening member => Prepared.opening_found reserved sameOpenings member

end Batch

/-! ### What the projection shows -/

/-- A confirmed plan in a projection: its confirmation, its Context with one
publication head, its conflicts and its references. -/
structure Confirmed (projection : DomainProjection) (plan : CandidateConfirmationPlan) : Prop where
  confirmation : projection.candidateConfirmations.get? plan.confirmation.confirmationId =
    some ⟨plan.eventIds.confirmationEventId, plan.confirmation⟩
  context : ∃ context, contextIn? projection.spaces plan.confirmation.primarySpaceId
      plan.resultContextId = some context ∧
    context.governance =
      .accepted plan.publication.publicationId plan.resultRevision.revisionId ∧
    context.publicationHeads = {plan.publication.publicationId}
  conflicts : ∀ opening ∈ plan.openedConflicts, ∃ conflict,
    projection.semanticConflicts.get? opening.conflict.conflictId = some conflict ∧
      conflict.spaceId = opening.spaceId ∧ conflict.conflict = opening.conflict
  references : ∀ reference ∈ plan.engineeringReferences, ∃ projected,
    projection.engineeringReferences.get? reference.referenceId = some projected ∧
      projected.contextId = plan.resultContextId ∧ projected.reference = reference

theorem exists_zip_of_mem {α β : Type} {items : List α} {others : List β}
    (sameLength : items.length = others.length) {other : β} (member : other ∈ others) :
    ∃ item, (item, other) ∈ items.zip others := by
  rw [← List.map_snd_zip (Nat.le_of_eq sameLength.symm)] at member
  obtain ⟨⟨item, second⟩, isPair, rfl⟩ := List.mem_map.mp member
  exact ⟨item, isPair⟩

theorem Landing.confirmed {events : List ReducerEvent} {plan : CandidateConfirmationPlan}
    {candidate : ContextCandidate} {selection : CandidatePrimarySelection}
    {openings : List SemanticConflictOpeningDraft}
    (landing : Landing hasher history events candidate selection openings plan) :
    Confirmed (reduce events hasher.toContentHasher) plan := by
  obtain ⟨-, -, -, -, -, -, -, -, -, -, -, referenceCount, conflictCount, -⟩ :=
    landing.sound.identities
  constructor
  · obtain ⟨isEvent, valid⟩ := landing.valid plan.confirmation_member
    exact (candidateConfirmations_iff hasher.toContentHasher).mpr
      ⟨plan.confirmationNode, isEvent, valid, landing.confirmationIsValid, rfl, rfl⟩
  · exact ⟨_, contextIn?_reduce.mpr ⟨landing.context_valid, rfl⟩, landing.governance_eq,
      landing.publicationHeads_eq⟩
  · intro opening member
    obtain ⟨eventId, isPair⟩ := exists_zip_of_mem conflictCount member
    exact ⟨_, get?_semanticConflicts.mpr ⟨_, landing.conflict_found isPair, rfl⟩, rfl, rfl⟩
  · intro reference member
    obtain ⟨eventId, isPair⟩ := exists_zip_of_mem referenceCount member
    exact ⟨_, landing.reference_found isPair, rfl, rfl⟩

theorem builds_batch {plans : List CandidateConfirmationPlan}
    (reserved : ∀ plan ∈ plans, ∃ candidate selection openings,
      plan.ReservedFor hasher candidate selection openings)
    {writerBatchId : String} (canonical : validBatchId writerBatchId = true) :
    (plans.mapM fun plan => fromCandidateConfirmationPlan hasher plan writerBatchId) =
      .ok (plans.map CandidateConfirmationPlan.events) := by
  induction plans with
  | nil => rfl
  | cons plan plans ih =>
      obtain ⟨candidate, selection, openings, isReserved⟩ := reserved plan List.mem_cons_self
      rw [List.mapM_cons, isReserved.builds canonical,
        ih fun other member => reserved other (List.mem_cons_of_mem _ member)]
      rfl

/-- A batch of plans prepared against one history for unconfirmed Candidates
builds, is accepted as a whole and leaves the accepted history as it is. -/
theorem reserved_batch_accepted (hasher : PlanHasher) (history : List ReducerEvent)
    (plans : List CandidateConfirmationPlan) (writerBatchId : String)
    (canonical : validBatchId writerBatchId = true)
    (prepared : ∀ plan ∈ plans, ∃ input, Prepared hasher history input plan)
    (distinct : (plans.map fun plan => plan.confirmation.candidateId).Nodup)
    (fresh : FreshPlans history plans)
    (unconfirmed : ∀ plan ∈ plans, ∀ event ∈ history,
      event.confirms? ≠ some plan.confirmation.candidateId) :
    ∃ batches,
      (plans.mapM fun plan => fromCandidateConfirmationPlan hasher plan writerBatchId) =
        .ok batches ∧
      (∀ plan ∈ plans,
        Confirmed (reduce (history ++ batches.flatten) hasher.toContentHasher) plan) ∧
      (∀ event ∈ batches.flatten, event.eventId ∉
        (reduce (history ++ batches.flatten) hasher.toContentHasher).quarantinedEventIds) ∧
      (reduce (history ++ batches.flatten) hasher.toContentHasher).quarantinedEventIds ⊆
        (reduce history hasher.toContentHasher).quarantinedEventIds := by
  refine ⟨_, builds_batch (plans_reserved prepared) canonical, ?_⟩
  rw [← List.flatMap_def]
  have accepted : ∀ event ∈ plans.flatMap CandidateConfirmationPlan.events,
      event.Accepted hasher.toContentHasher
        (factsOf (history ++ plans.flatMap CandidateConfirmationPlan.events)) := by
    intro event isEvent
    obtain ⟨plan, isPlan, member⟩ := List.mem_flatMap.mp isEvent
    obtain ⟨_, _, _, landing⟩ := landing_of_batch prepared fresh distinct unconfirmed isPlan
    exact landing.accepted member
  refine ⟨fun plan isPlan => ?_, fun event isEvent => ?_, quarantined_subset_of_accepted accepted⟩
  · obtain ⟨_, _, _, landing⟩ := landing_of_batch prepared fresh distinct unconfirmed isPlan
    exact landing.confirmed
  · rw [quarantined_iff (List.mem_append_right _ isEvent), not_not]
    exact accepted event isEvent

/-! ### The sample Candidate -/

/-- The sample confirmation, as it is prepared from a snapshot. -/
def sampleInput (ids : ReservedIds) : ConfirmationInput where
  candidate := sampleCandidate
  operation := sampleOperation
  selection := .existing ⟨1⟩
  references := []
  ids := ids

theorem Result.eq_ok_of_toOption {α : Type} {result : Result α} {value : α}
    (isSome : result.toOption = some value) : result = .ok value := by
  cases result with
  | ok other => exact congrArg Except.ok (Option.some.inj isSome)
  | error error => cases isSome

theorem sampleDraft_unedited : noEdits.apply sampleDraft = .ok sampleDraft := by
  have valid : sampleDraft.validate = .ok () := Result.eq_ok_of_toOption (by decide)
  change (sampleDraft.validate >>= fun _ => pure sampleDraft) = _
  rw [valid]
  rfl

theorem sampleInput_prepares {history : List ReducerEvent} {ids : ReservedIds}
    {plan : CandidateConfirmationPlan} (isPlan : reservedPlan ids = .ok plan)
    (isEvent : sampleSubmission ∈ history)
    (valid : sampleSubmission.eventId ∉ (factsOf history).invalidEventIds)
    (primary : ⟨1⟩ ∈ (reduce history planHasher.toContentHasher).spaces.keys) :
    Prepared planHasher history (sampleInput ids) plan where
  prepared := by
    have noOpenings : ∀ primarySpaceId finalContentHash,
        Mcp.contradictionConflictOpenings (reduce history planHasher.toContentHasher)
          planHasher.toContentHasher sampleDraft primarySpaceId finalContentHash = [] :=
      fun _ _ => rfl
    refine Result.bind_eq_ok.mpr ⟨sampleDraft, sampleDraft_unedited, ?_⟩
    rw [noOpenings]
    exact isPlan
  admissible :=
    { candidate := by
        refine ⟨⟨⟨5⟩, sampleCandidate⟩, get?_projectCandidates.mpr ⟨⟨⟨5⟩, sampleCandidate⟩, ?_, rfl⟩,
          rfl⟩
        exact (validCandidates_iff planHasher.toContentHasher).mpr ⟨rfl, isEvent, valid, trivial⟩
      primary := by
        intro spaceId isExisting
        cases isExisting
        exact primary
      related := fun spaceId member => absurd member List.not_mem_nil
      relations := by
        intro finalDraft isDraft relation member
        change finalDraft ∈ (noEdits.apply sampleDraft).toOption at isDraft
        rw [sampleDraft_unedited] at isDraft
        cases isDraft
        exact absurd member List.not_mem_nil }

theorem reservedPlan_of_isSome {ids : ReservedIds}
    (isSome : (reservedPlan ids).toOption.isSome = true) :
    ∃ plan, reservedPlan ids = .ok plan := by
  obtain ⟨plan, isPlan⟩ := Option.isSome_iff_exists.mp isSome
  exact ⟨plan, Result.eq_ok_of_toOption isPlan⟩

theorem freshPlans_singleton {history : List ReducerEvent} {ids : ReservedIds}
    {plan : CandidateConfirmationPlan} (isPlan : reservedPlan ids = .ok plan)
    (fresh : ∀ reserved ∈ (reservedPlan ids).toOption, reserved.reservedIds.Nodup ∧
      ∀ id ∈ reserved.reservedIds, id ∉ mentioned history) : FreshPlans history [plan] := by
  rw [isPlan] at fresh
  obtain ⟨distinct, absent⟩ := fresh plan rfl
  constructor
  · rwa [List.flatMap_singleton]
  · intro other member
    rw [List.mem_singleton.mp member]
    exact absent

theorem sampleConfirmation_eq {ids : ReservedIds} {plan : CandidateConfirmationPlan}
    (isPlan : reservedPlan ids = .ok plan) : sampleConfirmation ids = plan.events := by
  have canonical : validBatchId sampleBatchId = true := by decide
  have built := (CandidateConfirmationPlan.reservedFor planHasher isPlan).builds canonical
  rw [sampleConfirmation, isPlan]
  change (fromCandidateConfirmationPlan planHasher plan sampleBatchId).toOption.getD [] = _
  rw [built]
  rfl

/-- The sample Candidate is confirmed in the shared history. -/
theorem reserved_batch_accepted_sample :
    ∃ plan batches, reservedPlan (freshIds 16) = .ok plan ∧
      ([plan].mapM fun plan => fromCandidateConfirmationPlan planHasher plan sampleBatchId) =
        .ok batches ∧
      Confirmed (reduce (sharedHistory ++ batches.flatten) planHasher.toContentHasher) plan := by
  have isSome : (reservedPlan (freshIds 16)).toOption.isSome = true := by decide
  obtain ⟨plan, isPlan⟩ := reservedPlan_of_isSome isSome
  have sameCandidate : plan.confirmation.candidateId = ⟨1⟩ :=
    (CandidateConfirmationPlan.reservedFor planHasher isPlan).candidateId
  obtain ⟨batches, built, confirmed, -⟩ := reserved_batch_accepted planHasher sharedHistory [plan]
    sampleBatchId (by decide)
    (List.forall_mem_singleton.mpr
      ⟨_, sampleInput_prepares isPlan (by simp [sharedHistory]) (by decide)
        (by decide)⟩)
    (List.nodup_singleton _) (freshPlans_singleton isPlan (by decide))
    (fun other member event isEvent => by
      rw [List.mem_singleton.mp member, sameCandidate]
      revert event
      decide)
  exact ⟨plan, batches, isPlan, built, confirmed plan List.mem_cons_self⟩

/-- A Candidate that the history confirms already cannot be confirmed again. -/
theorem second_confirmation_rejected :
    ¬ ∀ (hasher : PlanHasher) (history : List ReducerEvent)
      (plans : List CandidateConfirmationPlan) (writerBatchId : String),
      validBatchId writerBatchId = true →
      (∀ plan ∈ plans, ∃ input, Prepared hasher history input plan) →
      (plans.map fun plan => plan.confirmation.candidateId).Nodup →
      FreshPlans history plans →
      ∀ batches,
        (plans.mapM fun plan => fromCandidateConfirmationPlan hasher plan writerBatchId) =
          .ok batches →
        (∀ plan ∈ plans,
          Confirmed (reduce (history ++ batches.flatten) hasher.toContentHasher) plan) ∧
        (∀ event ∈ batches.flatten, event.eventId ∉
          (reduce (history ++ batches.flatten) hasher.toContentHasher).quarantinedEventIds) ∧
        (reduce (history ++ batches.flatten) hasher.toContentHasher).quarantinedEventIds ⊆
          (reduce history hasher.toContentHasher).quarantinedEventIds := by
  intro accepted
  have isSome : (reservedPlan (freshIds 32)).toOption.isSome = true := by decide
  obtain ⟨plan, isPlan⟩ := reservedPlan_of_isSome isSome
  have canonical : validBatchId sampleBatchId = true := by decide
  have reserved := CandidateConfirmationPlan.reservedFor planHasher isPlan
  obtain ⟨-, -, contained⟩ := accepted planHasher (sharedHistory ++ firstConfirmation) [plan]
    sampleBatchId canonical
    (List.forall_mem_singleton.mpr
      ⟨_, sampleInput_prepares isPlan (by simp [sharedHistory]) (by decide)
        (by decide)⟩)
    (List.nodup_singleton _) (freshPlans_singleton isPlan (by decide)) _
    (builds_batch (List.forall_mem_singleton.mpr ⟨_, _, _, reserved⟩) canonical)
  have sameBatch : ([plan].map CandidateConfirmationPlan.events).flatten = secondConfirmation := by
    rw [secondConfirmation, sampleConfirmation_eq isPlan]
    exact List.append_nil _
  rw [sameBatch, firstConfirmation_clean] at contained
  have twice : ConfirmedTwice firstConfirmation secondConfirmation ⟨1⟩ := by
    constructor <;> decide
  exact confirmedTwice_quarantined twice (Finset.subset_empty.mp contained)

end SharedContext
