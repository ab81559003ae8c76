import SharedContext.Reducer.Appends

/-!
# Stability of the projection

The projected facts are a function of the accepted events.  Removing the
quarantined events of a schema-valid history keeps the accepted ones accepted,
so it changes no projected fact, and nothing is left to diagnose.
-/

namespace SharedContext

/-! ### Every diagnostic names an event -/

/-- Diagnostics that each name at least one event. -/
def Blaming (diagnostics : Finset ReducerDiagnostic) : Prop :=
  ∀ diagnostic ∈ diagnostics, diagnostic.eventIds.Nonempty

section Blaming

variable {first second : Finset ReducerDiagnostic}

theorem Blaming.union (left : Blaming first) (right : Blaming second) :
    Blaming (first ∪ second) := by
  intro diagnostic member
  exact (Finset.mem_union.mp member).elim (left diagnostic) (right diagnostic)

theorem Blaming.eq_empty (blaming : Blaming first) (nobody : blamed first = ∅) : first = ∅ := by
  apply Finset.eq_empty_of_forall_notMem
  intro diagnostic member
  obtain ⟨eventId, named⟩ := blaming diagnostic member
  have isBlamed := mem_blamed.mpr ⟨diagnostic, member, named⟩
  rw [nobody] at isBlamed
  exact Finset.notMem_empty eventId isBlamed

theorem blaming_flatMap {κ ν : Type*} {table : BTreeMap κ ν}
    {each : κ → ν → Finset ReducerDiagnostic}
    (all : ∀ key value, table.get? key = some value → Blaming (each key value)) :
    Blaming (table.flatMap each) := by
  intro diagnostic member
  obtain ⟨key, value, found, inEach⟩ := BTreeMap.mem_flatMap.mp member
  exact all key value found diagnostic inEach

theorem blaming_biUnion {α : Type*} {items : Finset α} {each : α → Finset ReducerDiagnostic}
    (all : ∀ item ∈ items, Blaming (each item)) : Blaming (items.biUnion each) := by
  intro diagnostic member
  obtain ⟨item, isItem, inEach⟩ := Finset.mem_biUnion.mp member
  exact all item isItem diagnostic inEach

theorem blaming_singleton {diagnostic : ReducerDiagnostic}
    (named : diagnostic.eventIds.Nonempty) : Blaming {diagnostic} := by
  intro other member
  rw [Finset.mem_singleton.mp member]
  exact named

theorem blaming_diagnoseUnless {passes : Prop} [Decidable passes]
    {diagnostic : ReducerDiagnostic} (named : ¬ passes → diagnostic.eventIds.Nonempty) :
    Blaming (diagnoseUnless passes diagnostic) := by
  rw [diagnoseUnless]
  split
  · exact fun other member => absurd member (Finset.notMem_empty other)
  · rename_i fails
    exact blaming_singleton (named fails)

theorem blaming_duplicateDiagnostics {kind : IdKind} {ν : Type} (code : ReducerDiagnosticCode)
    (message : OpaqueId kind → String) (table : BTreeMap (OpaqueId kind) (List ν))
    (get : ν → EventId) : Blaming (duplicateDiagnostics code message table get) := by
  apply blaming_flatMap
  intro key values found
  have several := (BTreeMap.get?_filter_eq_some.mp found).2
  obtain ⟨value, member⟩ := List.exists_mem_of_length_pos (by omega : 0 < values.length)
  exact blaming_singleton ⟨get value, List.mem_toFinset.mpr (List.mem_map_of_mem member)⟩

theorem blaming_reduceDag {κ ν : Type} [DecidableEq κ] [ToString κ] {candidates : BTreeMap κ ν}
    {eventId : ν → EventId} {parents : ν → List κ}
    {invalidReferenceCode cycleCode : ReducerDiagnosticCode} {entityName : String} :
    Blaming (reduceDag candidates eventId parents invalidReferenceCode cycleCode
      entityName).diagnostics := by
  apply Blaming.union
  · intro diagnostic member
    obtain ⟨id, node, -, -, rfl⟩ := CausalGraph.exists_node_of_mem_labels member
    exact Finset.singleton_nonempty _
  · apply blaming_flatMap
    intro id node found
    exact blaming_diagnoseUnless fun _ => Finset.singleton_nonempty _

end Blaming

variable {hasher : ContentHasher} {events others : List ReducerEvent}

theorem blaming_definitionDiagnostics :
    Blaming (definitionDiagnostics (collectDefinitions events)) := by
  have crossKind : Blaming ((crossKindRevisions (collectDefinitions events)).flatMap fun id ids =>
      {⟨.duplicateRevisionId, toString id, ids,
        s!"revision ID {id} is defined by multiple aggregate kinds"⟩}) := by
    apply blaming_flatMap
    intro key ids found
    simp only [crossKindRevisions, BTreeMap.get?_filterMap, Option.bind_eq_some_iff,
      Option.map_eq_some_iff] at found
    obtain ⟨intents, isIntents, contexts, -, rfl⟩ := found
    rw [collectDefinitions_eq] at isIntents
    obtain ⟨notNil, -⟩ := BTreeMap.get?_group_eq_some.mp isIntents
    obtain ⟨node, member⟩ := List.exists_mem_of_ne_nil _ notNil
    apply blaming_singleton
    exact ⟨node.eventId, Finset.mem_union_left _
      (List.mem_toFinset.mpr (List.mem_map_of_mem member))⟩
  have duplicatedEvents : Blaming ((duplicated (collectDefinitions events).eventsById).flatMap
      fun id _ => {⟨.duplicateEventId, toString id, {id},
        s!"event ID {id} has multiple definitions"⟩}) :=
    blaming_flatMap fun key values _ => blaming_singleton (Finset.singleton_nonempty _)
  unfold definitionDiagnostics
  repeat' apply Blaming.union
  all_goals first
    | exact crossKind
    | exact duplicatedEvents
    | exact blaming_duplicateDiagnostics _ _ _ _

theorem blaming_ambiguousOwnerDiagnostics :
    Blaming (ambiguousOwnerDiagnostics events (factsOf events).contextOwners) := by
  apply blaming_flatMap
  intro contextId owners found
  apply blaming_diagnoseUnless
  intro several
  obtain ⟨⟨owner, isOwner⟩, members⟩ := contextOwners_iff.mp found
  obtain ⟨event, isEvent, mentioned, -⟩ := (members owner).mp isOwner
  refine ⟨event.eventId, List.mem_toFinset.mpr (List.mem_map_of_mem ?_)⟩
  exact List.mem_filter.mpr ⟨isEvent, decide_eq_true mentioned⟩

theorem blaming_missingSpaceDiagnostics (valid : Finset SpaceId) :
    Blaming (missingSpaceDiagnostics events valid) := by
  intro diagnostic member
  obtain ⟨event, isEvent, inEvent⟩ := mem_collect.mp member
  refine blaming_biUnion (fun spaceId _ => ?_) diagnostic inEvent
  exact blaming_diagnoseUnless fun _ => Finset.singleton_nonempty _

theorem blaming_relationDiagnostics {facts : Facts} : Blaming (relationDiagnostics facts) := by
  intro diagnostic member
  obtain ⟨stage, -, item, -, -, -, labelled⟩ :=
    Saturation.exists_stage_of_mem_labels ∅ ∅ member (Finset.notMem_empty _)
  obtain ⟨node, -, -, eventIdsEq⟩ := relationDiagnostic_eq_some labelled
  rw [eventIdsEq]
  exact Finset.singleton_nonempty _

theorem blaming_referenceDiagnostics {facts : Facts} : Blaming (referenceDiagnostics facts) := by
  apply blaming_flatMap
  intro key node found
  cases resolveReference facts key node with
  | ok projection => exact fun diagnostic member => absurd member (Finset.notMem_empty _)
  | error reason => exact blaming_singleton (Finset.singleton_nonempty _)

theorem blaming_checks {κ ν : Type*} {table : BTreeMap κ ν} {passes : κ → ν → Prop}
    [∀ key value, Decidable (passes key value)] {diagnostic : κ → ν → ReducerDiagnostic}
    (named : ∀ key value, (diagnostic key value).eventIds.Nonempty) :
    Blaming (table.flatMap fun key value =>
      diagnoseUnless (passes key value) (diagnostic key value)) :=
  blaming_flatMap fun key value _ => blaming_diagnoseUnless fun _ => named key value

theorem blaming_reduceDiagnostics : Blaming (reduceDiagnostics events hasher) := by
  unfold reduceDiagnostics
  refine .union (.union (.union (.union (.union (.union (.union (.union (.union (.union (.union
    (.union blaming_definitionDiagnostics blaming_ambiguousOwnerDiagnostics)
    (blaming_missingSpaceDiagnostics _)) ?intents) ?contexts) blaming_relationDiagnostics)
    ?reviews) ?publications) ?associations) ?confirmations) blaming_referenceDiagnostics)
    ?conflicts) ?resolutions
  case intents => exact blaming_biUnion fun _ _ => blaming_reduceDag
  case contexts => exact blaming_biUnion fun _ _ => blaming_reduceDag
  case reviews => exact blaming_checks fun _ _ => Finset.singleton_nonempty _
  case publications =>
    refine .union (.union ?_ ?_) (blaming_biUnion fun _ _ => blaming_reduceDag)
    · exact blaming_checks fun _ _ => Finset.singleton_nonempty _
    · exact blaming_checks fun _ _ => Finset.singleton_nonempty _
  case associations =>
    exact blaming_biUnion fun _ _ => .union
      (blaming_checks fun _ _ => Finset.singleton_nonempty _) blaming_reduceDag
  case confirmations => exact blaming_checks fun _ _ => Finset.singleton_nonempty _
  case conflicts => exact blaming_checks fun _ _ => Finset.singleton_nonempty _
  case resolutions =>
    refine .union (blaming_checks fun _ _ => Finset.singleton_nonempty _)
      (blaming_flatMap fun _ _ _ => .union ?_ blaming_reduceDag)
    exact blaming_checks fun _ _ => Finset.singleton_nonempty _

/-! ### The projection is a function of the accepted events -/

theorem validContexts_eq_some {facts : Facts} {key : ContextKey}
    {revisions : BTreeMap RevisionId ContextNode} :
    (validContexts facts).get? key = some revisions ↔
      validRevisions facts key = revisions ∧ key ∈ (validContexts facts).keys := by
  rw [validRevisions, BTreeMap.mem_keys_iff]
  constructor
  · intro found
    rw [found]
    exact ⟨rfl, revisions, rfl⟩
  · rintro ⟨isRevisions, other, found⟩
    rw [found] at isRevisions ⊢
    exact congrArg some isRevisions

/-- Two lists that accept the same events and have the same Spaces. -/
structure SameAccepted (hasher : ContentHasher) (events others : List ReducerEvent) : Prop where
  accepted : ∀ event, (event ∈ events ∧ event.Accepted hasher (factsOf events)) ↔
    (event ∈ others ∧ event.Accepted hasher (factsOf others))
  spaces : validSpaces (factsOf events) = validSpaces (factsOf others)

section Determined

variable (same : SameAccepted hasher events others)
include same

theorem SameAccepted.intents {spaceId : SpaceId}
    (isSpace : spaceId ∈ validSpaces (factsOf events)) :
    (reducedIntents (factsOf events) spaceId).nodes =
      (reducedIntents (factsOf others) spaceId).nodes := by
  ext1 key
  apply Option.ext
  intro node
  rw [reducedIntents_iff hasher isSpace,
    reducedIntents_iff hasher (same.spaces ▸ isSpace), same.accepted, same.accepted]

theorem SameAccepted.revisions (key : ContextKey) :
    validRevisions (factsOf events) key = validRevisions (factsOf others) key := by
  ext1 revisionId
  apply Option.ext
  intro node
  rw [validRevisions_iff hasher, validRevisions_iff hasher,
    same.accepted]

theorem SameAccepted.contexts :
    validContexts (factsOf events) = validContexts (factsOf others) := by
  ext1 key
  apply Option.ext
  intro revisions
  rw [validContexts_eq_some, validContexts_eq_some, mem_keys_validContexts,
    mem_keys_validContexts, same.revisions key]

theorem SameAccepted.reviews :
    reviewNodes (factsOf events) = reviewNodes (factsOf others) := by
  ext1 key
  apply Option.ext
  intro node
  rw [reviewNodes_iff hasher, reviewNodes_iff hasher, same.accepted]

theorem SameAccepted.publications {key : ContextKey}
    (isContext : key ∈ (validContexts (factsOf events)).keys) :
    validPublications (factsOf events) key = validPublications (factsOf others) key := by
  have isOther : key ∈ (validContexts (factsOf others)).keys := same.contexts ▸ isContext
  ext1 publicationId
  apply Option.ext
  intro node
  constructor
  · intro found
    have accepted := (validPublications_iff hasher).mp ⟨isContext, found⟩
    rw [same.accepted] at accepted
    exact ((validPublications_iff hasher).mpr accepted).2
  · intro found
    have accepted := (validPublications_iff hasher).mp ⟨isOther, found⟩
    rw [← same.accepted] at accepted
    exact ((validPublications_iff hasher).mpr accepted).2

theorem SameAccepted.publicationHeads {key : ContextKey}
    (isContext : key ∈ (validContexts (factsOf events)).keys) :
    publicationHeads (factsOf events) key = SharedContext.publicationHeads (factsOf others) key :=
  heads_eq_of_nodes_eq (same.publications isContext)

theorem SameAccepted.contextHeads :
    contextHeads (factsOf events) = SharedContext.contextHeads (factsOf others) := by
  have retained : ∀ facts, SharedContext.contextHeads facts = (validContexts facts).map
      fun revisions => heads (dagOf revisions ContextNode.eventId ContextNode.parents)
        revisions.keys := fun _ => rfl
  rw [retained, retained, same.contexts]

theorem SameAccepted.projectContext {key : ContextKey}
    (isContext : key ∈ (validContexts (factsOf events)).keys) :
    projectContext (factsOf events) key = SharedContext.projectContext (factsOf others) key := by
  have sameReviews : validReviews (factsOf events) key = validReviews (factsOf others) key := by
    rw [validReviews, validReviews, same.reviews]
  have sameRevision : projectRevision (factsOf events) key =
      projectRevision (factsOf others) key := by
    funext governance revisionId node
    simp only [projectRevision]
    rw [same.contextHeads, sameReviews, same.publications isContext]
  simp only [SharedContext.projectContext]
  rw [same.publications isContext, same.publicationHeads isContext, same.revisions key,
    same.contextHeads, sameReviews, sameRevision]

theorem SameAccepted.projectSpaces :
    projectSpaces (factsOf events) = SharedContext.projectSpaces (factsOf others) := by
  ext1 spaceId
  apply Option.ext
  intro space
  rw [get?_projectSpaces, get?_projectSpaces, same.spaces]
  refine and_congr_right fun isSpace => ?_
  have isSpaceHere : spaceId ∈ validSpaces (factsOf events) := same.spaces ▸ isSpace
  have sameNodes := same.intents isSpaceHere
  have sameHeads : (reducedIntents (factsOf events) spaceId).heads =
      (reducedIntents (factsOf others) spaceId).heads := heads_eq_of_nodes_eq sameNodes
  have sameIntent : projectIntent (factsOf events) spaceId =
      projectIntent (factsOf others) spaceId := by
    rw [projectIntent, projectIntent, sameNodes, sameHeads]
  have sameContexts : projectContexts (factsOf events) spaceId =
      projectContexts (factsOf others) spaceId := by
    ext1 contextId
    apply Option.ext
    intro context
    rw [get?_projectContexts, get?_projectContexts, ← same.contexts]
    exact and_congr_right fun isContext => by rw [same.projectContext isContext]
  rw [sameIntent, sameContexts]

theorem SameAccepted.associationNodes (contextId : ContextId) :
    (reducedAssociations (factsOf events) contextId).nodes =
      (reducedAssociations (factsOf others) contextId).nodes := by
  ext1 associationId
  apply Option.ext
  intro node
  rw [reducedAssociations_iff hasher, reducedAssociations_iff hasher,
    same.accepted]

theorem SameAccepted.associations :
    contextSpaceAssociations (factsOf events) = contextSpaceAssociations (factsOf others) := by
  ext1 associationId
  apply Option.ext
  intro projection
  rw [contextSpaceAssociations_eq_some, contextSpaceAssociations_eq_some]
  refine exists_congr fun node => ?_
  rw [same.associationNodes]

theorem SameAccepted.associationHeads (contextId : ContextId) :
    (reducedAssociations (factsOf events) contextId).heads =
      (reducedAssociations (factsOf others) contextId).heads :=
  heads_eq_of_nodes_eq (same.associationNodes contextId)

theorem SameAccepted.conflicts :
    validConflicts (factsOf events) = validConflicts (factsOf others) := by
  ext1 conflictId
  apply Option.ext
  intro node
  rw [validConflicts_iff hasher, validConflicts_iff hasher, same.accepted]

theorem SameAccepted.resolutions {conflictId : ConflictId} {conflictNode : ConflictNode}
    (isConflict : (validConflicts (factsOf events)).get? conflictId = some conflictNode) :
    (reducedResolutions (factsOf events) conflictId conflictNode).nodes =
      (reducedResolutions (factsOf others) conflictId conflictNode).nodes := by
  ext1 resolutionId
  apply Option.ext
  intro node
  rw [reducedResolutions_iff hasher isConflict,
    reducedResolutions_iff hasher (same.conflicts ▸ isConflict), same.accepted]

theorem SameAccepted.projectConflict {conflictId : ConflictId} {conflictNode : ConflictNode}
    (isConflict : (validConflicts (factsOf events)).get? conflictId = some conflictNode) :
    projectConflict (factsOf events) conflictId conflictNode =
      SharedContext.projectConflict (factsOf others) conflictId conflictNode := by
  have sameNodes := same.resolutions isConflict
  have sameHeads : (reducedResolutions (factsOf events) conflictId conflictNode).heads =
      (reducedResolutions (factsOf others) conflictId conflictNode).heads :=
    heads_eq_of_nodes_eq sameNodes
  have sameContext : conflictContext? (factsOf events) conflictNode =
      conflictContext? (factsOf others) conflictNode := by
    funext contextId
    rw [conflictContext?, conflictContext?, same.projectSpaces]
  have sameStatus : conflictStatus (factsOf events) conflictNode =
      conflictStatus (factsOf others) conflictNode := by
    funext resolutions resolutionHeads
    have sameDiverged : reasonWhen (¬ publicationsConverged (factsOf events) conflictNode)
          .publicationHeadsNotConverged =
        reasonWhen (¬ publicationsConverged (factsOf others) conflictNode)
          .publicationHeadsNotConverged := by
      apply reasonWhen_congr
      rw [publicationsConverged, publicationsConverged, sameContext]
    have sameCurrent : currentPublicationHeads (factsOf events) conflictNode =
        currentPublicationHeads (factsOf others) conflictNode := by
      rw [currentPublicationHeads, currentPublicationHeads, sameContext]
    simp only [conflictStatus, sameDiverged, sameCurrent]
  simp only [SharedContext.projectConflict]
  rw [sameNodes, sameHeads, sameStatus]

theorem SameAccepted.semanticConflicts :
    semanticConflicts (factsOf events) = SharedContext.semanticConflicts (factsOf others) := by
  ext1 conflictId
  apply Option.ext
  intro projection
  rw [get?_semanticConflicts, get?_semanticConflicts, ← same.conflicts]
  exact exists_congr fun node => and_congr_right fun found => by rw [same.projectConflict found]

theorem SameAccepted.references :
    engineeringReferences (factsOf events) = engineeringReferences (factsOf others) := by
  ext1 referenceId
  apply Option.ext
  intro projection
  rw [engineeringReferences_iff hasher, engineeringReferences_iff hasher]
  refine exists_congr fun node => and_congr_right fun _ => ?_
  rw [← and_assoc, ← and_assoc, same.accepted]
  refine and_congr_right fun _ => ?_
  rw [resolveReference, resolveReference, same.projectSpaces]

theorem SameAccepted.candidates :
    projectCandidates (factsOf events) = projectCandidates (factsOf others) := by
  ext1 candidateId
  apply Option.ext
  intro projection
  rw [get?_projectCandidates, get?_projectCandidates]
  refine exists_congr fun node => ?_
  rw [validCandidates_iff hasher, validCandidates_iff hasher,
    same.accepted]

end Determined

theorem candidateConfirmations_iff_accepted
    (schemaValid : ∀ event ∈ events, event.SchemaValid) {confirmationId : ConfirmationId}
    {projection : CandidateConfirmationProjection} :
    (candidateConfirmations hasher (factsOf events)).get? confirmationId = some projection ↔
      ∃ node : CandidateConfirmationNode,
        (node.event ∈ events ∧ node.event.Accepted hasher (factsOf events)) ∧
        node.confirmation.confirmationId = confirmationId ∧
        ⟨node.eventId, node.confirmation⟩ = projection := by
  rw [candidateConfirmations_iff]
  refine exists_congr fun node => ?_
  constructor
  · rintro ⟨isEvent, valid, isValid, isProjection⟩
    refine ⟨⟨isEvent, valid, fun spaceId created => ?_, isValid⟩, isProjection⟩
    rw [created_eq_primary (schemaValid node.event isEvent) created]
    exact isValid.spaces.1
  · rintro ⟨⟨isEvent, accepted⟩, isProjection⟩
    exact ⟨isEvent, accepted.valid, accepted.holds.2, isProjection⟩

theorem mem_associationContextIds_of_head {contextId : ContextId}
    {associationId : SpaceAssociationId}
    (isHead : associationId ∈ (reducedAssociations (factsOf events) contextId).heads) :
    contextId ∈ (factsOf events).associationContextIds := by
  obtain ⟨⟨node, found⟩, -⟩ := mem_heads_of_nodes.mp isHead
  obtain ⟨isAssociation, sameContext, valid, -⟩ := reducedAssociations_agrees found
  exact mem_associationContextIds.mpr
    ⟨node, ((associations_iff valid).mp isAssociation).2, sameContext⟩

theorem get?_contextSpaceAssociationHeads {contextId : ContextId} :
    (contextSpaceAssociationHeads (factsOf events)).get? contextId =
      if (reducedAssociations (factsOf events) contextId).heads = ∅ then none
      else some (reducedAssociations (factsOf events) contextId).heads := by
  rw [contextSpaceAssociationHeads, BTreeMap.get?_ofKeys]
  split
  · rfl
  · rename_i absent
    rw [if_pos]
    apply Finset.eq_empty_of_forall_notMem
    exact fun associationId isHead => absent (mem_associationContextIds_of_head isHead)

theorem get?_contextSpaceAssociationConflicts {contextId : ContextId} :
    (contextSpaceAssociationConflicts (factsOf events)).get? contextId =
      if (reducedAssociations (factsOf events) contextId).heads.card > 1 then
        some ⟨contextId, (reducedAssociations (factsOf events) contextId).heads⟩
      else none := by
  rw [contextSpaceAssociationConflicts, BTreeMap.get?_ofKeys]
  split
  · rfl
  · rename_i absent
    have noHeads : (reducedAssociations (factsOf events) contextId).heads = ∅ :=
      Finset.eq_empty_of_forall_notMem fun associationId isHead =>
        absent (mem_associationContextIds_of_head isHead)
    rw [noHeads]
    rfl

/-! ### Removing the quarantined events -/

/-- The events whose IDs the reducer does not quarantine. -/
def unquarantined (hasher : ContentHasher) (events : List ReducerEvent) : List ReducerEvent :=
  events.filter fun event => event.eventId ∉ (reduce events hasher).quarantinedEventIds

theorem mem_unquarantined {event : ReducerEvent} :
    event ∈ unquarantined hasher events ↔
      event ∈ events ∧ event.Accepted hasher (factsOf events) := by
  rw [unquarantined, List.mem_filter]
  refine and_congr_right fun isEvent => ?_
  rw [decide_eq_true_eq, quarantined_iff isEvent, not_not]

theorem uniqueIn_unquarantined {event : ReducerEvent}
    (isEvent : event ∈ unquarantined hasher events) (unique : event.UniqueIn events) :
    event.UniqueIn (unquarantined hasher events) := by
  intro identity member
  have atLeast := definitionCount_pos.mpr ⟨event, isEvent, member⟩
  have sublist : (unquarantined hasher events).Sublist events := List.filter_sublist
  have atMost := definitionCount_le_of_sublist sublist identity
  have once := unique identity member
  omega

section Removal

variable (hasher)
variable (schemaValid : ∀ event ∈ events, event.SchemaValid)
include schemaValid

theorem accepted_of_creation {node : IntentNode} (isEvent : node.creation ∈ events)
    (isSpace : node.spaceId ∈ validSpaces (factsOf events)) :
    node.creation.Accepted hasher (factsOf events) :=
  accepted_of_fact isEvent (schemaValid _ isEvent) List.mem_cons_self
    (BTreeMap.mem_keys_of_get? (get?_reduce_spaces.mpr ⟨isSpace, rfl⟩))

theorem keeps_unquarantined : Keeps hasher events (unquarantined hasher events) where
  accepted event isEvent accepted := by
    have kept := mem_unquarantined.mpr ⟨isEvent, accepted⟩
    exact ⟨kept, uniqueIn_unquarantined kept (unique_of_accepted isEvent accepted)⟩
  creations node isEvent valid isSpace := by
    have accepted := accepted_of_creation hasher schemaValid isEvent isSpace
    have kept := mem_unquarantined.mpr ⟨isEvent, accepted⟩
    exact ⟨kept, uniqueIn_unquarantined kept (unique_of_accepted isEvent accepted)⟩
  owners event isEvent accepted contextId mentioned spaceId referenced := by
    have owner := owners_of_accepted isEvent accepted mentioned referenced
    apply contextOwners_iff.mpr
    refine ⟨Finset.singleton_nonempty spaceId, fun other => ?_⟩
    rw [(contextOwners_iff.mp owner).2 other]
    constructor
    · intro isOwner
      have sameOwner := Finset.mem_singleton.mp (((contextOwners_iff.mp owner).2 other).mpr isOwner)
      exact ⟨event, mem_unquarantined.mpr ⟨isEvent, accepted⟩, mentioned, sameOwner ▸ referenced⟩
    · rintro ⟨witness, isWitness, rest⟩
      exact ⟨witness, (mem_unquarantined.mp isWitness).1, rest⟩

theorem sameAccepted_unquarantined : SameAccepted hasher events (unquarantined hasher events) where
  accepted event := by
    constructor
    · rintro ⟨isEvent, accepted⟩
      exact ⟨mem_unquarantined.mpr ⟨isEvent, accepted⟩,
        (keeps_unquarantined hasher schemaValid).accepts isEvent accepted⟩
    · rintro ⟨kept, -⟩
      exact mem_unquarantined.mp kept
  spaces := by
    ext spaceId
    constructor
    · exact (keeps_unquarantined hasher schemaValid).spaces
    · intro isSpace
      obtain ⟨node, found, -⟩ := mem_validSpaces.mp isSpace
      obtain ⟨rfl, kept, -⟩ := spaceCreations_iff.mp found
      exact (mem_unquarantined.mp kept).2.holds.1

theorem quarantined_unquarantined :
    (reduce (unquarantined hasher events) hasher).quarantinedEventIds = ∅ := by
  apply Finset.eq_empty_of_forall_notMem
  intro id member
  obtain ⟨event, kept, -, rejected⟩ := mem_quarantinedEventIds.mp member
  obtain ⟨isEvent, accepted⟩ := mem_unquarantined.mp kept
  exact rejected ((keeps_unquarantined hasher schemaValid).accepts isEvent accepted)

theorem candidateConfirmations_unquarantined :
    candidateConfirmations hasher (factsOf (unquarantined hasher events)) =
      candidateConfirmations hasher (factsOf events) := by
  have keptValid : ∀ event ∈ unquarantined hasher events, event.SchemaValid :=
    fun event kept => schemaValid event (mem_unquarantined.mp kept).1
  ext1 confirmationId
  apply Option.ext
  intro projection
  rw [candidateConfirmations_iff_accepted schemaValid,
    candidateConfirmations_iff_accepted keptValid]
  refine exists_congr fun node => ?_
  rw [(sameAccepted_unquarantined hasher schemaValid).accepted]

/-- Removing the quarantined events leaves nothing to diagnose and changes no
projected fact. -/
theorem reduce_unquarantined :
    (reduce (unquarantined hasher events) hasher).diagnostics = ∅ ∧
    (reduce (unquarantined hasher events) hasher).quarantinedEventIds = ∅ ∧
    (reduce (unquarantined hasher events) hasher).spaces = (reduce events hasher).spaces ∧
    (reduce (unquarantined hasher events) hasher).contextSpaceAssociations =
      (reduce events hasher).contextSpaceAssociations ∧
    (reduce (unquarantined hasher events) hasher).contextSpaceAssociationHeads =
      (reduce events hasher).contextSpaceAssociationHeads ∧
    (reduce (unquarantined hasher events) hasher).contextSpaceAssociationConflicts =
      (reduce events hasher).contextSpaceAssociationConflicts ∧
    (reduce (unquarantined hasher events) hasher).candidateConfirmations =
      (reduce events hasher).candidateConfirmations ∧
    (reduce (unquarantined hasher events) hasher).engineeringReferences =
      (reduce events hasher).engineeringReferences ∧
    (reduce (unquarantined hasher events) hasher).semanticConflictCandidates =
      (reduce events hasher).semanticConflictCandidates ∧
    (reduce (unquarantined hasher events) hasher).semanticConflicts =
      (reduce events hasher).semanticConflicts ∧
    (reduce (unquarantined hasher events) hasher).candidates =
      (reduce events hasher).candidates := by
  have same := sameAccepted_unquarantined hasher schemaValid
  have nobody := quarantined_unquarantined hasher schemaValid
  refine ⟨blaming_reduceDiagnostics.eq_empty nobody, nobody, ?_, same.associations.symm, ?_, ?_,
    candidateConfirmations_unquarantined hasher schemaValid, same.references.symm, ?_,
    same.semanticConflicts.symm, same.candidates.symm⟩
  · change blockSpaces (semanticConflicts (factsOf (unquarantined hasher events)))
      (projectSpaces (factsOf (unquarantined hasher events))) =
      blockSpaces (semanticConflicts (factsOf events)) (projectSpaces (factsOf events))
    rw [same.semanticConflicts, same.projectSpaces]
  · ext1 contextId
    change (contextSpaceAssociationHeads (factsOf _)).get? contextId =
      (contextSpaceAssociationHeads (factsOf events)).get? contextId
    rw [get?_contextSpaceAssociationHeads, get?_contextSpaceAssociationHeads,
      same.associationHeads]
  · ext1 contextId
    change (contextSpaceAssociationConflicts (factsOf _)).get? contextId =
      (contextSpaceAssociationConflicts (factsOf events)).get? contextId
    rw [get?_contextSpaceAssociationConflicts, get?_contextSpaceAssociationConflicts,
      same.associationHeads]
  · change conflictCandidates (projectSpaces (factsOf (unquarantined hasher events))) =
      conflictCandidates (projectSpaces (factsOf events))
    rw [same.projectSpaces]

end Removal

theorem reduce_unquarantined_sample :
    (reduce (unquarantined sampleHasher [sampleSuccessor, sampleOrphan, sampleCreation])
        sampleHasher).diagnostics = ∅ ∧
    (reduce (unquarantined sampleHasher [sampleSuccessor, sampleOrphan, sampleCreation])
        sampleHasher).spaces =
      (reduce [sampleSuccessor, sampleOrphan, sampleCreation] sampleHasher).spaces := by
  have schemaValid : ∀ event ∈ [sampleSuccessor, sampleOrphan, sampleCreation],
      event.SchemaValid := by
    decide
  obtain ⟨clean, -, sameSpaces, -⟩ := reduce_unquarantined sampleHasher schemaValid
  exact ⟨clean, sameSpaces⟩

end SharedContext
