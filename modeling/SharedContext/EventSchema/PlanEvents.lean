import SharedContext.EventSchema.ConfirmationEvents

/-!
# What a valid plan writes

A validated plan builds all its events, and each of its facts passes its own
payload check.
-/

namespace SharedContext

variable {hasher : PlanHasher}

def factEvent (fact : EventId × EventPayload) : ReducerEvent :=
  ⟨fact.1, fact.2⟩

namespace CandidateConfirmationPlan

variable (plan : CandidateConfirmationPlan)

def spaceEvents : List ReducerEvent :=
  match plan.newSpace, plan.eventIds.spaceCreatedEventId with
  | some newSpace, some eventId =>
      [⟨eventId, .spaceCreated newSpace.spaceId newSpace.intentRevision⟩]
  | _, _ => []

/-- The events of a plan, whether or not its checks pass. -/
def events : List ReducerEvent :=
  plan.spaceEvents ++
    (plan.contextFacts ++ plan.referenceFacts ++ plan.conflictFacts ++
      [plan.confirmationFact]).map factEvent

end CandidateConfirmationPlan

theorem validatePlanReferences_eq_ok {before references : List EngineeringReference}
    (passes : validatePlanReferences before references = .ok ()) :
    ∀ reference ∈ references, reference.validate = .ok () := by
  induction references generalizing before with
  | nil => exact fun reference member => absurd member List.not_mem_nil
  | cons reference rest ih =>
      simp only [validatePlanReferences, Result.bind_eq_ok, Result.exists_unit] at passes
      exact List.forall_mem_cons.mpr ⟨passes.1, ih passes.2.2⟩

theorem validateOpenings_eq_ok {plan : CandidateConfirmationPlan} {conflictIds : List ConflictId}
    {targets : List ContextId} {openings : List SemanticConflictOpening}
    (passes : plan.validateOpenings conflictIds targets openings = .ok ()) :
    ∀ opening ∈ openings, opening.conflict.validate = .ok () := by
  induction openings generalizing conflictIds targets with
  | nil => exact fun opening member => absurd member List.not_mem_nil
  | cons opening rest ih =>
      simp only [CandidateConfirmationPlan.validateOpenings, Result.bind_eq_ok,
        Result.exists_unit] at passes
      obtain ⟨here, -, continued⟩ := passes
      split at continued
      · exact absurd continued Result.throw_ne_ok
      · simp only [Result.bind_eq_ok, Result.exists_unit] at continued
        obtain ⟨-, -, later, -, others⟩ := continued
        exact List.forall_mem_cons.mpr ⟨here, ih others⟩

/-- What the checks of a plan guarantee. -/
structure CandidateConfirmationPlan.Sound (hasher : PlanHasher)
    (plan : CandidateConfirmationPlan) : Prop where
  identities : plan.identitiesConsistent hasher
  revision : plan.resultRevision.validate = .ok ()
  association : plan.spaceAssociation.validate = .ok ()
  publication : plan.publication.validate = .ok ()
  references : ∀ reference ∈ plan.engineeringReferences, reference.validate = .ok ()
  conflicts : ∀ opening ∈ plan.openedConflicts, opening.conflict.validate = .ok ()
  confirmation : plan.confirmation.validate = .ok ()
  causal : plan.eventIds.spaceCreatedEventId = plan.confirmation.causalRefs.spaceCreatedEventId ∧
    plan.eventIds.contextRevisionEventId =
      plan.confirmation.causalRefs.contextRevisionEventId ∧
    plan.eventIds.spaceAssociationEventId =
      plan.confirmation.causalRefs.spaceAssociationEventId ∧
    plan.eventIds.publicationEventId = plan.confirmation.causalRefs.publicationEventId
  intent : ∀ newSpace ∈ plan.newSpace, newSpace.intentRevision.validate = .ok ()

theorem CandidateConfirmationPlan.sound {plan : CandidateConfirmationPlan}
    (validated : plan.validate hasher = .ok ()) : plan.Sound hasher := by
  simp only [CandidateConfirmationPlan.validate, Result.bind_eq_ok, Result.exists_unit,
    Result.require_eq_ok] at validated
  obtain ⟨-, identities, revision, association, publication, references, conflicts,
    confirmation, causal, spaces⟩ := validated
  refine ⟨identities, revision, association, publication,
    validatePlanReferences_eq_ok references, validateOpenings_eq_ok conflicts, confirmation,
    causal, ?_⟩
  intro newSpace isNew
  rw [isNew] at spaces
  split at spaces
  case h_1 space created sameSpace isCreated =>
    cases sameSpace
    simp only [Result.bind_eq_ok, Result.exists_unit] at spaces
    exact spaces.2.1
  case h_2 noSpace notCreated => cases noSpace
  case h_3 =>
    obtain ⟨_, thrown, -⟩ := Result.bind_eq_ok.mp spaces
    exact absurd thrown Result.throw_ne_ok

section Reserved

variable {plan : CandidateConfirmationPlan} {candidate : ContextCandidate}
  {selection : CandidatePrimarySelection} {openings : List SemanticConflictOpeningDraft}
  (reserved : plan.ReservedFor hasher candidate selection openings)
include reserved

theorem CandidateConfirmationPlan.ReservedFor.newSpace_parents
    {newSpace : CandidateConfirmationNewSpace} (isNew : plan.newSpace = some newSpace) :
    newSpace.intentRevision.parentRevisionIds = [] ∧ selection.spaceId? = none ∧
      plan.confirmation.primarySpaceId = newSpace.spaceId := by
  cases selected : selection.spaceId? with
  | some spaceId =>
      obtain ⟨-, noSpace⟩ := reserved.primary spaceId selected
      rw [noSpace] at isNew
      cases isNew
  | none =>
      obtain ⟨other, isOther, samePrimary, noParents⟩ := reserved.creates selected
      obtain rfl := Option.some.inj (isNew.symm.trans isOther)
      exact ⟨noParents, rfl, samePrimary⟩

theorem CandidateConfirmationPlan.ReservedFor.spaceFacts :
    ∃ facts, plan.spaceFacts = .ok facts ∧ facts.map factEvent = plan.spaceEvents ∧
      ∀ fact ∈ facts, fact.2.validate = .ok () := by
  have sound := CandidateConfirmationPlan.sound reserved.validated
  have creation := reserved.creation
  unfold CandidateConfirmationPlan.spaceFacts CandidateConfirmationPlan.spaceEvents
  cases isNew : plan.newSpace with
  | none =>
      exact ⟨[], rfl, rfl, fun fact member => absurd member List.not_mem_nil⟩
  | some newSpace =>
      rw [isNew] at creation
      obtain ⟨eventId, isCreation⟩ := Option.isSome_iff_exists.mp creation
      rw [isCreation]
      obtain ⟨noParents, -, -⟩ := reserved.newSpace_parents isNew
      refine ⟨_, rfl, rfl, fun fact member => ?_⟩
      obtain rfl := List.mem_singleton.mp member
      simp only [EventPayload.validate, noParents, List.isEmpty_nil, Bool.not_true,
        Bool.false_eq_true, if_false]
      exact sound.intent newSpace isNew

theorem CandidateConfirmationPlan.ReservedFor.builds {writerBatchId : String}
    (canonical : validBatchId writerBatchId = true) :
    fromCandidateConfirmationPlan hasher plan writerBatchId = .ok plan.events := by
  have sound := CandidateConfirmationPlan.sound reserved.validated
  obtain ⟨spaceFacts, isSpace, sameEvents, spacesPass⟩ := reserved.spaceFacts
  simp only [fromCandidateConfirmationPlan, Result.bind_eq_ok, Result.exists_unit,
    Result.require_eq_ok]
  refine ⟨reserved.validated, canonical, spaceFacts, isSpace, exactEvents_eq_ok.mpr ⟨?_, ?_⟩⟩
  · intro fact member
    simp only [List.append_assoc, List.mem_append, List.mem_singleton] at member
    rcases member with isSpaceFact | isContextFact | isReference | isConflict | rfl
    · exact spacesPass fact isSpaceFact
    · simp only [CandidateConfirmationPlan.contextFacts, List.mem_cons, List.not_mem_nil,
        or_false] at isContextFact
      rcases isContextFact with rfl | rfl | rfl
      · exact sound.revision
      · exact sound.association
      · exact sound.publication
    · obtain ⟨pair, isPair, rfl⟩ := List.mem_map.mp isReference
      exact sound.references pair.2 (List.of_mem_zip isPair).2
    · obtain ⟨pair, isPair, rfl⟩ := List.mem_map.mp isConflict
      exact sound.conflicts pair.2 (List.of_mem_zip isPair).2
    · exact sound.confirmation
  · simp only [CandidateConfirmationPlan.events, ← sameEvents, List.append_assoc,
      List.map_append]
    rfl

end Reserved

end SharedContext
