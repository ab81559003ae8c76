import SharedContext.Reducer.Reduce

/-!
# Order independence

Permuting the events permutes every definition list and nothing else.  The
phases read a definition list only through its length, its only element or the
set of its event IDs, so the whole projection is unchanged.
-/

namespace SharedContext

/-- Definition tables whose lists are permutations of each other. -/
structure Definitions.Same (first second : Definitions) : Prop where
  eventsById : first.eventsById.SameGroups second.eventsById
  candidates : first.candidates.SameGroups second.candidates
  submissions : first.submissions.SameGroups second.submissions
  confirmations : first.confirmations.SameGroups second.confirmations
  confirmationsByCandidate :
    first.confirmationsByCandidate.SameGroups second.confirmationsByCandidate
  associations : first.associations.SameGroups second.associations
  spaceCreations : first.spaceCreations.SameGroups second.spaceCreations
  intents : first.intents.SameGroups second.intents
  contexts : first.contexts.SameGroups second.contexts
  reviews : first.reviews.SameGroups second.reviews
  publications : first.publications.SameGroups second.publications
  conflicts : first.conflicts.SameGroups second.conflicts
  resolutions : first.resolutions.SameGroups second.resolutions
  references : first.references.SameGroups second.references
  evidence : first.evidence.SameGroups second.evidence
  contextOwners : first.contextOwners = second.contextOwners

theorem collectDefinitions_same {events others : List ReducerEvent}
    (permuted : events.Perm others) :
    (collectDefinitions events).Same (collectDefinitions others) where
  eventsById := BTreeMap.sameGroups_group (permuted.map _)
  candidates := BTreeMap.sameGroups_group (permuted.filterMap _)
  submissions := BTreeMap.sameGroups_group (permuted.filterMap _)
  confirmations := BTreeMap.sameGroups_group (permuted.filterMap _)
  confirmationsByCandidate := BTreeMap.sameGroups_group (permuted.filterMap _)
  associations := BTreeMap.sameGroups_group (permuted.filterMap _)
  spaceCreations := BTreeMap.sameGroups_group (permuted.filterMap _)
  intents := BTreeMap.sameGroups_group (permuted.filterMap _)
  contexts := BTreeMap.sameGroups_group (permuted.filterMap _)
  reviews := BTreeMap.sameGroups_group (permuted.filterMap _)
  publications := BTreeMap.sameGroups_group (permuted.filterMap _)
  conflicts := BTreeMap.sameGroups_group (permuted.filterMap _)
  resolutions := BTreeMap.sameGroups_group (permuted.filterMap _)
  references := BTreeMap.sameGroups_group (permuted.filterMap _)
  evidence := BTreeMap.sameGroups_group (permuted.flatMap_right _)
  contextOwners := by
    apply (BTreeMap.sameGroups_group (permuted.flatMap_right _)).map_eq
    intro values others samePerm
    exact List.toFinset_eq_of_perm _ _ samePerm

section Duplicates

variable {kind : IdKind} {ν : Type} {first second : BTreeMap (OpaqueId kind) (List ν)}

theorem eventIds_perm {values others : List ν} (permuted : values.Perm others)
    (get : ν → EventId) : eventIds values get = eventIds others get :=
  List.toFinset_eq_of_perm _ _ (permuted.map get)

theorem duplicated_same (same : first.SameGroups second) :
    (duplicated first).SameGroups (duplicated second) := by
  apply same.filter
  intro key values others permuted
  rw [permuted.length_eq]

theorem duplicateEventIds_same (same : first.SameGroups second) (get : ν → EventId) :
    duplicateEventIds first get = duplicateEventIds second get := by
  apply (duplicated_same same).flatMap_eq
  intro key values others permuted
  exact eventIds_perm permuted get

theorem duplicateDiagnostics_same (same : first.SameGroups second)
    (code : ReducerDiagnosticCode) (message : OpaqueId kind → String) (get : ν → EventId) :
    duplicateDiagnostics code message first get =
      duplicateDiagnostics code message second get := by
  apply (duplicated_same same).flatMap_eq
  intro key values others permuted
  rw [eventIds_perm permuted get]

end Duplicates

variable {first second : Definitions}

theorem crossKindRevisions_same (same : first.Same second) :
    crossKindRevisions first = crossKindRevisions second := by
  ext1 revisionId
  simp only [crossKindRevisions, BTreeMap.get?_filterMap]
  have intentsSame := same.intents revisionId
  have contextsSame := same.contexts revisionId
  revert intentsSame contextsSame
  cases first.intents.get? revisionId <;> cases second.intents.get? revisionId <;>
    intro intentsSame <;> cases intentsSame
  · simp
  · rename_i intentsPerm
    cases first.contexts.get? revisionId <;> cases second.contexts.get? revisionId <;>
      intro contextsSame <;> cases contextsSame
    · rfl
    · rename_i contextsPerm
      simp only [Option.bind_some, Option.map_some]
      rw [eventIds_perm intentsPerm, eventIds_perm contextsPerm]

theorem invalidEventIds_same (same : first.Same second) :
    invalidEventIds first = invalidEventIds second := by
  simp only [invalidEventIds]
  rw [(duplicated_same same.eventsById).keys_eq, duplicateEventIds_same same.intents,
    duplicateEventIds_same same.candidates, duplicateEventIds_same same.submissions,
    duplicateEventIds_same same.confirmations,
    duplicateEventIds_same same.confirmationsByCandidate,
    duplicateEventIds_same same.associations, duplicateEventIds_same same.contexts,
    crossKindRevisions_same same, duplicateEventIds_same same.reviews,
    duplicateEventIds_same same.publications, duplicateEventIds_same same.evidence,
    duplicateEventIds_same same.conflicts, duplicateEventIds_same same.resolutions]

theorem definitionDiagnostics_same (same : first.Same second) :
    definitionDiagnostics first = definitionDiagnostics second := by
  simp only [definitionDiagnostics]
  rw [(duplicated_same same.eventsById).flatMap_eq (fun _ _ _ _ => rfl),
    duplicateDiagnostics_same same.intents, duplicateDiagnostics_same same.candidates,
    duplicateDiagnostics_same same.submissions, duplicateDiagnostics_same same.confirmations,
    duplicateDiagnostics_same same.confirmationsByCandidate,
    duplicateDiagnostics_same same.associations, duplicateDiagnostics_same same.contexts,
    crossKindRevisions_same same, duplicateDiagnostics_same same.reviews,
    duplicateDiagnostics_same same.publications, duplicateDiagnostics_same same.evidence,
    duplicateDiagnostics_same same.conflicts, duplicateDiagnostics_same same.resolutions,
    duplicateDiagnostics_same same.references, duplicateDiagnostics_same same.spaceCreations]

theorem facts_same (same : first.Same second) : first.facts = second.facts := by
  simp only [Definitions.facts]
  rw [invalidEventIds_same same, same.contextOwners, same.candidates.unique_eq,
    same.submissions.unique_eq, same.confirmationsByCandidate.unique_eq,
    same.associations.unique_eq, same.spaceCreations.unique_eq, same.intents.unique_eq,
    same.contexts.unique_eq, same.reviews.unique_eq, same.publications.unique_eq,
    same.conflicts.unique_eq, same.resolutions.unique_eq, same.references.unique_eq]
  rw [same.associations.flatMap_eq]
  intro associationId nodes others permuted
  exact List.toFinset_eq_of_perm _ _ (permuted.map _)

theorem uniqueSubmission?_same (same : first.Same second) {nodes others : List CandidateNode}
    (permuted : nodes.Perm others) :
    uniqueSubmission? first nodes = uniqueSubmission? second others := by
  simp only [uniqueSubmission?, facts_same same]
  have lengthEq := permuted.length_eq
  match nodes, others with
  | [], [] => rfl
  | [node], [other] =>
      rw [List.perm_singleton.mp permuted.symm]
  | _ :: _ :: _, _ :: _ :: _ => rfl
  | [], _ :: _ => simp at lengthEq
  | _ :: _, [] => simp at lengthEq
  | [_], _ :: _ :: _ => simp at lengthEq
  | _ :: _ :: _, [_] => simp at lengthEq

theorem candidateSubmissions_same (hasher : ContentHasher) (same : first.Same second) :
    candidateSubmissions hasher first = candidateSubmissions hasher second := by
  simp only [candidateSubmissions]
  have onSecond : (fun (submissionId : SubmissionId) nodes =>
      (uniqueSubmission? first nodes).map fun node =>
        (⟨submissionId, node.candidate.candidateId, node.eventId, node.candidate.sourceEpisode,
          node.candidate.submissionContentHash hasher⟩ : CandidateSubmissionProjection)) =
      fun submissionId nodes => (uniqueSubmission? second nodes).map fun node =>
        ⟨submissionId, node.candidate.candidateId, node.eventId, node.candidate.sourceEpisode,
          node.candidate.submissionContentHash hasher⟩ := by
    funext submissionId nodes
    rw [uniqueSubmission?_same same (List.Perm.refl nodes)]
  rw [onSecond]
  apply same.submissions.filterMap_eq
  intro submissionId nodes others permuted
  rw [← uniqueSubmission?_same same (List.Perm.refl nodes), uniqueSubmission?_same same permuted]

theorem candidateSubmissionConflicts_same (hasher : ContentHasher) (same : first.Same second) :
    candidateSubmissionConflicts hasher first = candidateSubmissionConflicts hasher second := by
  ext1 submissionId
  simp only [candidateSubmissionConflicts, BTreeMap.get?_filterMap]
  have related := same.submissions submissionId
  revert related
  cases first.submissions.get? submissionId <;> cases second.submissions.get? submissionId <;>
    intro related <;> cases related
  · rfl
  · rename_i permuted
    simp only [Option.bind_some]
    rw [uniqueSubmission?_same same permuted, eventIds_perm permuted,
      List.toFinset_eq_of_perm _ _ (permuted.map fun node => node.candidate.candidateId),
      List.toFinset_eq_of_perm _ _
        (permuted.map fun node => node.candidate.submissionContentHash hasher)]

theorem candidateConfirmationConflicts_same (same : first.Same second) :
    candidateConfirmationConflicts first = candidateConfirmationConflicts second := by
  apply (duplicated_same same.confirmationsByCandidate).filterMap_eq
  intro candidateId nodes others permuted
  rw [eventIds_perm permuted, List.toFinset_eq_of_perm _ _
    (permuted.map fun node => node.confirmation.confirmationId)]

variable {events others : List ReducerEvent}

theorem ambiguousOwnerDiagnostics_perm (permuted : events.Perm others)
    (contextOwners : BTreeMap ContextId (Finset SpaceId)) :
    ambiguousOwnerDiagnostics events contextOwners =
      ambiguousOwnerDiagnostics others contextOwners := by
  simp only [ambiguousOwnerDiagnostics]
  congr
  funext contextId owners
  rw [List.toFinset_eq_of_perm _ _ ((permuted.filter _).map ReducerEvent.eventId)]

theorem missingSpaceDiagnostics_perm (permuted : events.Perm others) (valid : Finset SpaceId) :
    missingSpaceDiagnostics events valid = missingSpaceDiagnostics others valid := by
  ext diagnostic
  simp only [missingSpaceDiagnostics, mem_collect, permuted.mem_iff]

theorem reduceDiagnostics_perm (hasher : ContentHasher) (permuted : events.Perm others) :
    reduceDiagnostics events hasher = reduceDiagnostics others hasher := by
  have same := collectDefinitions_same permuted
  simp only [reduceDiagnostics]
  rw [definitionDiagnostics_same same, same.contextOwners, facts_same same,
    ambiguousOwnerDiagnostics_perm permuted, missingSpaceDiagnostics_perm permuted]

/-- The projection does not depend on the order of the events. -/
theorem reduce_perm (hasher : ContentHasher) (permuted : events.Perm others) :
    reduce events hasher = reduce others hasher := by
  have same := collectDefinitions_same permuted
  simp only [reduce]
  rw [facts_same same, reduceDiagnostics_perm hasher permuted,
    candidateSubmissions_same hasher same, candidateSubmissionConflicts_same hasher same,
    candidateConfirmationConflicts_same same]

/-- A successor may precede the creation of its Space. -/
theorem reduce_perm_sample :
    reduce [sampleSuccessor, sampleOrphan, sampleCreation] sampleHasher =
      reduce [sampleCreation, sampleSuccessor, sampleOrphan] sampleHasher :=
  reduce_perm sampleHasher (by
    exact (List.Perm.cons sampleSuccessor (List.Perm.swap _ _ [])).trans (List.Perm.swap _ _ _))

end SharedContext
