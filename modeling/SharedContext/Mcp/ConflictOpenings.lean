import SharedContext.Domain.Reservation
import SharedContext.Reducer.Reduce

/-!
# Conflict openings of a contradiction

Every `contradicts` relation of a confirming revision opens a semantic
conflict, unless the reducer would reject it or an open conflict already
covers the pair.  The filter repeats the reducer's rule by hand.
-/

namespace SharedContext.Mcp

/-- Only settled `decision` and `contract` statements can conflict. -/
def conflictableKind : ContextKind → Bool
  | .decision | .contract => true
  | _ => false

/-- An omitted dimension is unrestricted, otherwise an exact match. -/
def dimensionOverlaps (left right : List String) : Bool :=
  left.isEmpty || right.isEmpty || left.any fun value => right.contains value

def applicabilityOverlaps (left right : Applicability) : Bool :=
  dimensionOverlaps left.domains right.domains &&
    dimensionOverlaps left.platforms right.platforms &&
    dimensionOverlaps left.conditions right.conditions

theorem conflictableKind_eq (kind : ContextKind) : conflictableKind kind = kind.isGoverned := by
  cases kind <;> rfl

theorem applicabilityOverlaps_eq (left right : Applicability) :
    applicabilityOverlaps left right = SharedContext.applicabilityOverlaps left right := by
  have sameDimension : ∀ first second : List String,
      dimensionOverlaps first second = scopeDimensionOverlaps first second := by
    intro first second
    simp only [dimensionOverlaps, scopeDimensionOverlaps]
    congr 2
    funext value
    rw [Bool.eq_iff_iff, List.contains_iff_mem, List.any_eq_true]
    simp
  simp only [applicabilityOverlaps, SharedContext.applicabilityOverlaps, sameDimension]

variable (projection : DomainProjection)

/-- The other conflict side, but only when the reducer would admit the conflict. -/
def projectableConflictParticipant (finalDraft : ContextRevisionDraft)
    (primarySpaceId : Option SpaceId) (relation : ContextRelation) :
    Option ConflictParticipant :=
  if conflictableKind finalDraft.kind then
    match contextHolder? projection.spaces relation.targetContextId with
    | none => none
    | some (spaceId, context) =>
        if primarySpaceId ≠ some spaceId then none
        else
          match context.governance with
          | .accepted publicationId revisionId =>
              match context.revisions.get? revisionId with
              | none => none
              | some target =>
                  if ¬ conflictableKind target.revision.kind ∨
                      target.revision.topicKey ≠ finalDraft.topicKey ∨
                      ¬ applicabilityOverlaps finalDraft.applicability
                        target.revision.applicability then
                    none
                  else some ⟨relation.targetContextId, revisionId, publicationId⟩
          | _ => none
  else none

variable (hasher : ContentHasher)

def acceptedContentHash (contextId : ContextId) : Option String :=
  match contextHolder? projection.spaces contextId with
  | none => none
  | some (_, context) =>
      match context.governance with
      | .accepted _ revisionId =>
          (context.revisions.get? revisionId).map fun revision =>
            contextRevisionContentHash hasher (contextRevisionAsDraft revision.revision)
      | _ => none

/-- Whether an unresolved conflict already pairs a Context with this content. -/
def conflictAlreadyOpen (targetContextId : ContextId) (finalContentHash : String) : Bool :=
  projection.semanticConflicts.Any fun _ conflict =>
    conflict.status.isOpen = true ∧
      (∃ participant ∈ conflict.conflict.participants,
        participant.contextId = targetContextId) ∧
      ∃ participant ∈ conflict.conflict.participants,
        acceptedContentHash projection hasher participant.contextId = some finalContentHash

def contradictionConflictOpenings (finalDraft : ContextRevisionDraft)
    (primarySpaceId : Option SpaceId) (finalContentHash : String) :
    List SemanticConflictOpeningDraft :=
  (finalDraft.relations.filter fun relation => relation.kind = .contradicts).filterMap
    fun relation =>
      match projectableConflictParticipant projection finalDraft primarySpaceId relation with
      | none => none
      | some target =>
          if conflictAlreadyOpen projection hasher relation.targetContextId finalContentHash then
            none
          else some ⟨target, relation.rationale⟩

theorem projectableConflictParticipant_eq_some {finalDraft : ContextRevisionDraft}
    {primarySpaceId : Option SpaceId} {relation : ContextRelation}
    {participant : ConflictParticipant}
    (projectable : projectableConflictParticipant projection finalDraft primarySpaceId relation =
      some participant) :
    finalDraft.kind.isGoverned = true ∧ ∃ spaceId context target,
      primarySpaceId = some spaceId ∧
        contextHolder? projection.spaces participant.contextId = some (spaceId, context) ∧
        context.governance = .accepted participant.publicationId participant.revisionId ∧
        context.revisions.get? participant.revisionId = some target ∧
        target.revision.kind.isGoverned = true ∧
        target.revision.topicKey = finalDraft.topicKey ∧
        SharedContext.applicabilityOverlaps finalDraft.applicability
          target.revision.applicability = true := by
  simp only [projectableConflictParticipant, conflictableKind_eq, applicabilityOverlaps_eq]
    at projectable
  split at projectable
  case isFalse => cases projectable
  case isTrue governed =>
  split at projectable
  case h_1 => cases projectable
  case h_2 spaceId context holder =>
  split at projectable
  case isTrue => cases projectable
  case isFalse inPrimary =>
  split at projectable
  case h_2 => cases projectable
  case h_1 publicationId revisionId isAccepted =>
  split at projectable
  case h_1 => cases projectable
  case h_2 target found =>
  split at projectable
  case isTrue => cases projectable
  case isFalse admitted =>
  cases projectable
  simp only [not_or, not_not] at admitted inPrimary
  exact ⟨governed, spaceId, context, target, inPrimary, holder, isAccepted, found, admitted⟩

theorem mem_contradictionConflictOpenings {finalDraft : ContextRevisionDraft}
    {primarySpaceId : Option SpaceId} {finalContentHash : String}
    {opening : SemanticConflictOpeningDraft}
    (member : opening ∈ contradictionConflictOpenings projection hasher finalDraft primarySpaceId
      finalContentHash) :
    ∃ relation ∈ finalDraft.relations,
      projectableConflictParticipant projection finalDraft primarySpaceId relation =
        some opening.target := by
  obtain ⟨relation, isRelation, isOpening⟩ := List.mem_filterMap.mp member
  refine ⟨relation, List.mem_of_mem_filter isRelation, ?_⟩
  split at isOpening
  case h_1 => cases isOpening
  case h_2 target projectable =>
  split at isOpening
  case isTrue => cases isOpening
  case isFalse =>
  cases isOpening
  exact projectable

end SharedContext.Mcp
