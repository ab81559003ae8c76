import SharedContext.Mcp.CandidateEvidence

/-!
# What a Claim's evidence is

The evidence of a Claim consists of the snapshots of everything that it cites,
directly or through Validations, whatever order the citations are in.
-/

namespace SharedContext.Mcp

open Episode DepthFirst

section Citing

variable (normalizedJson : NormalizedWorkObservation → Value) (sources : EvidenceSources)
  (claim : CheckpointClaim)

/-- A reference that the Claim or a Validation reached from it has. -/
inductive Cited : CheckpointEvidenceRef → Prop
  | byClaim {reference : CheckpointEvidenceRef} (member : reference ∈ claim.evidenceRefs) :
      Cited reference
  | byValidation {observationId : Uuid} {observation : WorkObservation} {conclusion : String}
      {evidenceRefs : List CheckpointEvidenceRef} {reference : CheckpointEvidenceRef}
      (cited : Cited (.observation observationId))
      (found : sources.findObservation observationId = some observation)
      (isValidation : observation.observation = .validation conclusion evidenceRefs)
      (member : reference ∈ evidenceRefs) : Cited reference

/-- A reference that cannot be resolved, belongs to another Task, or is no
evidence. -/
inductive NotEvidence : CheckpointEvidenceRef → Prop
  | observationMissing {observationId : Uuid}
      (missing : ∀ observation ∈ sources.episode.observations,
        observation.observationId ≠ observationId) :
      NotEvidence (.observation observationId)
  | unresolvedQuestion {observationId : Uuid} {observation : WorkObservation} {question : String}
      (found : sources.findObservation observationId = some observation)
      (isQuestion : observation.observation = .unresolvedQuestion question) :
      NotEvidence (.observation observationId)
  | signalMissing {signalId : Uuid} (missing : ∀ record ∈ sources.signals, record.signalId ≠ signalId) :
      NotEvidence (.taskSignal signalId)
  | signalOfOtherTask {signalId : Uuid} {record : TaskSignalRecord}
      (found : sources.findSignal signalId = some record)
      (otherTask : record.taskSessionId ≠ sources.episode.taskSessionId ∨
        record.taskId ≠ sources.episode.taskId) :
      NotEvidence (.taskSignal signalId)
  | signalKind {signalId : Uuid} {record : TaskSignalRecord}
      (found : sources.findSignal signalId = some record)
      (kind : record.signal.kind = .prompt ∨ record.signal.kind = .workspace) :
      NotEvidence (.taskSignal signalId)
  | contextMissing {contextId : ContextId} {revisionId : RevisionId} {evidenceId : EvidenceId}
      (missing : sources.findContextEvidence contextId revisionId evidenceId = none) :
      NotEvidence (.contextEvidence contextId revisionId evidenceId)

/-- What an Observation refers to, and its snapshot. -/
def observationContents (observation : WorkObservation) :
    Except String (List CheckpointEvidenceRef × EvidenceSnapshotDraft) :=
  match observation.observation with
  | .inlineValidation inline => .ok ([], inline)
  | .unresolvedQuestion _ => .error "unresolved_question_not_evidence"
  | .validation conclusion evidenceRefs =>
      .ok (evidenceRefs, validationSnapshot claim observation conclusion)
  | .testOutcome _ _ _ =>
      .ok ([], normalizedSnapshot normalizedJson claim .experimentRecord observation)
  | .diff _ _ | .artifact _ _ _ | .interface _ _ =>
      .ok ([], normalizedSnapshot normalizedJson claim .artifactSnapshot observation)
  | .contextUse _ _ _ =>
      .ok ([], normalizedSnapshot normalizedJson claim .sourceSnapshot observation)

/-- The one snapshot of what a reference cites. -/
def snapshotOf : CheckpointEvidenceRef → Option EvidenceSnapshotDraft
  | .observation observationId => do
      let observation ← sources.findObservation observationId
      let contents ← (observationContents normalizedJson claim observation).toOption
      some contents.2
  | .taskSignal signalId => (signalEvidence sources claim signalId).toOption
  | .contextEvidence contextId revisionId evidenceId =>
      (contextEvidence sources contextId revisionId evidenceId).toOption

def citations : Graph Uuid CheckpointEvidenceRef EvidenceSnapshotDraft String where
  resolve
    | .observation observationId =>
        if (sources.findObservation observationId).isSome then .ok (.inl observationId)
        else .error "observation_not_found"
    | .taskSignal signalId => (signalEvidence sources claim signalId).map .inr
    | .contextEvidence contextId revisionId evidenceId =>
        (contextEvidence sources contextId revisionId evidenceId).map .inr
  expand observationId :=
    match sources.findObservation observationId with
    | none => .error "observation_not_found"
    | some observation => observationContents normalizedJson claim observation

variable {normalizedJson sources claim}

theorem EvidenceSources.findObservation_id {observationId : Uuid} {observation : WorkObservation}
    (found : sources.findObservation observationId = some observation) :
    observation.observationId = observationId := by
  simpa using List.find?_some found

section Resolving

variable (normalizedJson sources claim)

theorem resolve_observation (observationId : Uuid) :
    (citations normalizedJson sources claim).resolve (.observation observationId) =
      if (sources.findObservation observationId).isSome then .ok (.inl observationId)
      else .error "observation_not_found" :=
  rfl

theorem resolve_taskSignal (signalId : Uuid) :
    (citations normalizedJson sources claim).resolve (.taskSignal signalId) =
      (signalEvidence sources claim signalId).map .inr :=
  rfl

theorem resolve_contextEvidence (contextId : ContextId) (revisionId : RevisionId)
    (evidenceId : EvidenceId) :
    (citations normalizedJson sources claim).resolve
        (.contextEvidence contextId revisionId evidenceId) =
      (contextEvidence sources contextId revisionId evidenceId).map .inr :=
  rfl

theorem expand_citations {observationId : Uuid} {observation : WorkObservation}
    (found : sources.findObservation observationId = some observation) :
    (citations normalizedJson sources claim).expand observationId =
      observationContents normalizedJson claim observation := by
  simp [citations, found]

end Resolving

/-! ### Collecting is a depth-first search -/

theorem collectReferences_eq {fuel : Nat}
    (same : ∀ observationId observation state,
      sources.findObservation observationId = some observation →
        collectObservationEvidence normalizedJson sources claim fuel observation state =
          visit (citations normalizedJson sources claim) fuel observationId state)
    (references : List CheckpointEvidenceRef) (state : Collected) :
    collectReferences sources claim (collectObservationEvidence normalizedJson sources claim fuel)
        references state =
      followAll (citations normalizedJson sources claim)
        (visit (citations normalizedJson sources claim) fuel) references state := by
  induction references generalizing state with
  | nil => rfl
  | cons reference rest ih =>
      have first : collectCandidateEvidence sources claim
          (collectObservationEvidence normalizedJson sources claim fuel) reference state =
          follow (citations normalizedJson sources claim)
            (visit (citations normalizedJson sources claim) fuel) reference state := by
        cases reference with
        | observation observationId =>
            rw [collectCandidateEvidence, follow, resolve_observation]
            cases found : sources.findObservation observationId with
            | none => rfl
            | some observation => exact same observationId observation state found
        | taskSignal signalId =>
            rw [collectCandidateEvidence, follow, resolve_taskSignal, pushEvidence.eq_def]
            cases signalEvidence sources claim signalId <;> rfl
        | contextEvidence contextId revisionId evidenceId =>
            rw [collectCandidateEvidence, follow, resolve_contextEvidence, pushEvidence.eq_def]
            cases contextEvidence sources contextId revisionId evidenceId <;> rfl
      rw [collectReferences, followAll, first]
      cases follow (citations normalizedJson sources claim)
          (visit (citations normalizedJson sources claim) fuel) reference state with
      | error stop => rfl
      | ok after => exact ih after

theorem collectObservationEvidence_eq (fuel : Nat) {observationId : Uuid}
    {observation : WorkObservation} (state : Collected)
    (found : sources.findObservation observationId = some observation) :
    collectObservationEvidence normalizedJson sources claim fuel observation state =
      visit (citations normalizedJson sources claim) fuel observationId state := by
  induction fuel generalizing observationId observation state with
  | zero => rfl
  | succ fuel ih =>
      have idEq := EvidenceSources.findObservation_id found
      rw [collectObservationEvidence, visit, idEq, expand_citations normalizedJson sources claim found]
      by_cases visited : observationId ∈ state.visited
      · rw [if_pos visited, if_pos visited]
      · rw [if_neg visited, if_neg visited]
        cases kind : observation.observation with
        | validation conclusion evidenceRefs =>
            simp only [observationContents, kind]
            rw [collectReferences_eq fun id other state otherFound => ih state otherFound]
            generalize followAll _ _ _ _ = result
            cases result <;> rfl
        | _ => simp [observationContents, kind, followAll]

theorem collectReferences_citations (fuel : Nat) :
    collectReferences sources claim (collectObservationEvidence normalizedJson sources claim fuel)
        claim.evidenceRefs .start =
      search (citations normalizedJson sources claim) fuel claim.evidenceRefs :=
  collectReferences_eq (fun _ _ state found => collectObservationEvidence_eq fuel state found)
    claim.evidenceRefs .start

/-! ### What the search follows is what is cited -/

theorem resolve_node {reference : CheckpointEvidenceRef} {observationId : Uuid}
    (resolves : (citations normalizedJson sources claim).resolve reference =
      .ok (.inl observationId)) :
    reference = .observation observationId ∧
      ∃ observation, sources.findObservation observationId = some observation := by
  cases reference with
  | observation other =>
      rw [resolve_observation] at resolves
      split at resolves
      · rename_i isFound
        obtain rfl := Sum.inl.inj (Except.ok.inj resolves)
        exact ⟨rfl, Option.isSome_iff_exists.mp isFound⟩
      · cases resolves
  | taskSignal signalId =>
      rw [resolve_taskSignal] at resolves
      cases signal : signalEvidence sources claim signalId <;> rw [signal] at resolves <;>
        cases resolves
  | contextEvidence contextId revisionId evidenceId =>
      rw [resolve_contextEvidence] at resolves
      cases context : contextEvidence sources contextId revisionId evidenceId <;>
        rw [context] at resolves <;> cases resolves

theorem resolve_found {observationId : Uuid} {observation : WorkObservation}
    (found : sources.findObservation observationId = some observation) :
    (citations normalizedJson sources claim).resolve (.observation observationId) =
      .ok (.inl observationId) := by
  rw [resolve_observation, found]
  rfl

theorem leads_iff_cited {reference : CheckpointEvidenceRef} :
    Leads (citations normalizedJson sources claim) claim.evidenceRefs reference ↔
      Cited sources claim reference := by
  constructor
  · intro leads
    induction leads with
    | start isStart => exact .byClaim isStart
    | @step reference other node references piece _ resolves expands isNext ih =>
        obtain ⟨rfl, observation, found⟩ := resolve_node resolves
        rw [expand_citations normalizedJson sources claim found] at expands
        cases kind : observation.observation with
        | validation conclusion evidenceRefs =>
            simp only [observationContents, kind, Except.ok.injEq, Prod.mk.injEq] at expands
            obtain ⟨rfl, _⟩ := expands
            exact .byValidation ih found kind isNext
        | unresolvedQuestion question =>
            simp only [observationContents, kind] at expands
            cases expands
        | _ =>
            simp only [observationContents, kind, Except.ok.injEq, Prod.mk.injEq] at expands
            obtain ⟨rfl, _⟩ := expands
            exact absurd isNext List.not_mem_nil
  · intro cited
    induction cited with
    | byClaim member => exact .start member
    | @byValidation observationId observation conclusion evidenceRefs reference _ found kind member
        ih =>
        have expands : (citations normalizedJson sources claim).expand observationId =
            .ok (evidenceRefs, validationSnapshot claim observation conclusion) := by
          rw [expand_citations normalizedJson sources claim found]
          simp only [observationContents, kind]
        exact .step ih (resolve_found found) expands member

theorem signalEvidence_error_iff (signalId : Uuid) :
    (∃ error, signalEvidence sources claim signalId = .error error) ↔
      NotEvidence sources (.taskSignal signalId) := by
  constructor
  · rintro ⟨error, failed⟩
    rw [signalEvidence] at failed
    cases found : sources.findSignal signalId with
    | none =>
        refine .signalMissing fun record member => ?_
        have := List.find?_eq_none.mp found record member
        simpa using this
    | some record =>
        simp only [found] at failed
        split at failed
        · rename_i otherTask
          exact .signalOfOtherTask found otherTask
        · cases kind : record.signal.kind with
          | prompt => exact .signalKind found (.inl kind)
          | workspace => exact .signalKind found (.inr kind)
          | diff => simp [kind] at failed
          | testOutcome => simp [kind] at failed
  · intro notEvidence
    cases notEvidence with
    | signalMissing missing =>
        have notFound : sources.findSignal signalId = none := by
          rw [EvidenceSources.findSignal, List.find?_eq_none]
          intro record member
          simpa using missing record member
        exact ⟨_, by rw [signalEvidence, notFound]⟩
    | signalOfOtherTask found otherTask =>
        exact ⟨_, by rw [signalEvidence, found]; exact if_pos otherTask⟩
    | @signalKind _ record found kind =>
        rw [signalEvidence, found]
        dsimp only
        split
        · exact ⟨_, rfl⟩
        · rcases kind with prompt | workspace
          · rw [prompt]
            exact ⟨_, rfl⟩
          · rw [workspace]
            exact ⟨_, rfl⟩

theorem contextEvidence_error_iff (contextId : ContextId) (revisionId : RevisionId)
    (evidenceId : EvidenceId) :
    (∃ error, contextEvidence sources contextId revisionId evidenceId = .error error) ↔
      NotEvidence sources (.contextEvidence contextId revisionId evidenceId) := by
  rw [contextEvidence]
  cases found : sources.findContextEvidence contextId revisionId evidenceId with
  | none => exact ⟨fun _ => .contextMissing found, fun _ => ⟨_, rfl⟩⟩
  | some source =>
      constructor
      · rintro ⟨error, failed⟩
        cases failed
      · intro notEvidence
        cases notEvidence with
        | contextMissing missing =>
            rw [found] at missing
            cases missing

theorem map_error_iff {α β ε : Type} (result : Except ε α) (f : α → β) (error : ε) :
    result.map f = .error error ↔ result = .error error := by
  cases result <;> simp [Except.map]

theorem refuses_iff_notEvidence {reference : CheckpointEvidenceRef} :
    (∃ error, Refuses (citations normalizedJson sources claim) reference error) ↔
      NotEvidence sources reference := by
  cases reference with
  | taskSignal signalId =>
      rw [← @signalEvidence_error_iff sources claim]
      refine exists_congr fun error => ?_
      rw [Refuses, resolve_taskSignal, map_error_iff]
      refine ⟨fun refuses => refuses.resolve_right ?_, .inl⟩
      rintro ⟨node, resolves, _⟩
      cases signal : signalEvidence sources claim signalId <;> rw [signal] at resolves <;>
        cases resolves
  | contextEvidence contextId revisionId evidenceId =>
      rw [← contextEvidence_error_iff]
      refine exists_congr fun error => ?_
      rw [Refuses, resolve_contextEvidence, map_error_iff]
      refine ⟨fun refuses => refuses.resolve_right ?_, .inl⟩
      rintro ⟨node, resolves, _⟩
      cases context : contextEvidence sources contextId revisionId evidenceId <;>
        rw [context] at resolves <;> cases resolves
  | observation observationId =>
      cases found : sources.findObservation observationId with
      | none =>
          have refused : (citations normalizedJson sources claim).resolve
              (.observation observationId) = .error "observation_not_found" := by
            rw [resolve_observation, found]
            rfl
          refine ⟨fun _ => .observationMissing fun observation member => ?_,
            fun _ => ⟨_, .inl refused⟩⟩
          have := List.find?_eq_none.mp found observation member
          simpa using this
      | some observation =>
          have resolves := @resolve_found normalizedJson sources claim _ _ found
          have expands := expand_citations normalizedJson sources claim found
          constructor
          · rintro ⟨error, refused | ⟨node, nodeResolves, refused⟩⟩
            · rw [resolves] at refused
              cases refused
            · rw [resolves] at nodeResolves
              obtain rfl := Sum.inl.inj (Except.ok.inj nodeResolves)
              rw [expands] at refused
              cases kind : observation.observation with
              | unresolvedQuestion question => exact .unresolvedQuestion found kind
              | _ => simp [observationContents, kind] at refused
          · intro notEvidence
            cases notEvidence with
            | observationMissing missing =>
                exact absurd (EvidenceSources.findObservation_id found)
                  (missing observation (List.mem_of_find?_eq_some found))
            | @unresolvedQuestion _ other question otherFound isQuestion =>
                rw [found] at otherFound
                obtain rfl := Option.some.inj otherFound
                have refused : observationContents normalizedJson claim observation =
                    .error "unresolved_question_not_evidence" := by
                  rw [observationContents, isQuestion]
                exact ⟨_, .inr ⟨observationId, resolves, expands.trans refused⟩⟩

theorem toOption_eq_some_iff {α ε : Type} (result : Except ε α) (value : α) :
    result.toOption = some value ↔ result = .ok value := by
  cases result <;> simp [Except.toOption]

theorem map_ok_iff {α β ε : Type} (result : Except ε α) (f : α → β) (value : β) :
    result.map f = .ok value ↔ ∃ before, result = .ok before ∧ f before = value := by
  cases result <;> simp [Except.map]

theorem snapshotOf_observation {observationId : Uuid} {observation : WorkObservation}
    (found : sources.findObservation observationId = some observation)
    (snapshot : EvidenceSnapshotDraft) :
    snapshotOf normalizedJson sources claim (.observation observationId) = some snapshot ↔
      ∃ references, observationContents normalizedJson claim observation =
        .ok (references, snapshot) := by
  cases contents : observationContents normalizedJson claim observation with
  | error error => simp [snapshotOf, found, contents, Except.toOption]
  | ok both =>
      obtain ⟨references, own⟩ := both
      simp [snapshotOf, found, contents, Except.toOption]

theorem notEvidence_or_snapshot (reference : CheckpointEvidenceRef) :
    NotEvidence sources reference ∨
      ∃ snapshot, snapshotOf normalizedJson sources claim reference = some snapshot := by
  cases reference with
  | taskSignal signalId =>
      cases signal : signalEvidence sources claim signalId with
      | error error => exact .inl ((@signalEvidence_error_iff sources claim signalId).mp ⟨error, signal⟩)
      | ok snapshot => exact .inr ⟨snapshot, (toOption_eq_some_iff _ _).mpr signal⟩
  | contextEvidence contextId revisionId evidenceId =>
      cases context : contextEvidence sources contextId revisionId evidenceId with
      | error error => exact .inl ((contextEvidence_error_iff _ _ _).mp ⟨error, context⟩)
      | ok snapshot => exact .inr ⟨snapshot, (toOption_eq_some_iff _ _).mpr context⟩
  | observation observationId =>
      rw [← @refuses_iff_notEvidence normalizedJson sources claim]
      cases found : sources.findObservation observationId with
      | none =>
          refine .inl ⟨"observation_not_found", .inl ?_⟩
          rw [resolve_observation, found]
          rfl
      | some observation =>
          cases contents : observationContents normalizedJson claim observation with
          | error error =>
              exact .inl ⟨error, .inr ⟨observationId, resolve_found found,
                (expand_citations normalizedJson sources claim found).trans contents⟩⟩
          | ok both =>
              exact .inr ⟨both.2, (snapshotOf_observation found both.2).mpr ⟨both.1, contents⟩⟩

/-- What the search emits is the snapshots of what is cited. -/
theorem emits_iff_snapshot {snapshot : EvidenceSnapshotDraft} :
    Emits (citations normalizedJson sources claim) claim.evidenceRefs snapshot ↔
      ∃ reference, Cited sources claim reference ∧
        snapshotOf normalizedJson sources claim reference = some snapshot := by
  constructor
  · rintro (⟨reference, leads, resolves⟩ | ⟨observationId, references, ⟨reference, leads, resolves⟩,
      expands⟩)
    · refine ⟨reference, leads_iff_cited.mp leads, ?_⟩
      cases reference with
      | observation observationId =>
          rw [resolve_observation] at resolves
          split at resolves <;> cases resolves
      | taskSignal signalId =>
          rw [resolve_taskSignal, map_ok_iff] at resolves
          obtain ⟨draft, signal, same⟩ := resolves
          obtain rfl := Sum.inr.inj same
          exact (toOption_eq_some_iff _ _).mpr signal
      | contextEvidence contextId revisionId evidenceId =>
          rw [resolve_contextEvidence, map_ok_iff] at resolves
          obtain ⟨draft, context, same⟩ := resolves
          obtain rfl := Sum.inr.inj same
          exact (toOption_eq_some_iff _ _).mpr context
    · obtain ⟨rfl, observation, found⟩ := resolve_node resolves
      rw [expand_citations normalizedJson sources claim found] at expands
      exact ⟨_, leads_iff_cited.mp leads, (snapshotOf_observation found snapshot).mpr
        ⟨references, expands⟩⟩
  · rintro ⟨reference, cited, isSnapshot⟩
    have leads : Leads (citations normalizedJson sources claim) claim.evidenceRefs reference :=
      leads_iff_cited.mpr cited
    cases reference with
    | observation observationId =>
        cases found : sources.findObservation observationId with
        | none => simp [snapshotOf, found] at isSnapshot
        | some observation =>
            obtain ⟨references, contents⟩ := (snapshotOf_observation found snapshot).mp isSnapshot
            exact .inr ⟨observationId, references, ⟨_, leads, resolve_found found⟩,
              (expand_citations normalizedJson sources claim found).trans contents⟩
    | taskSignal signalId =>
        have signal := (toOption_eq_some_iff _ _).mp isSnapshot
        exact .inl ⟨_, leads, by rw [resolve_taskSignal, signal]; rfl⟩
    | contextEvidence contextId revisionId evidenceId =>
        have context := (toOption_eq_some_iff _ _).mp isSnapshot
        exact .inl ⟨_, leads, by rw [resolve_contextEvidence, context]; rfl⟩

/-! ### Duplicates -/

theorem retainUnseen_sublist (seen : List (List Char)) (evidence : List EvidenceSnapshotDraft) :
    (retainUnseen seen evidence).Sublist evidence := by
  induction evidence generalizing seen with
  | nil => exact .slnil
  | cons snapshot rest ih =>
      rw [retainUnseen]
      split
      · exact (ih seen).cons snapshot
      · exact (ih _).cons_cons snapshot

theorem mem_map_retainUnseen (seen : List (List Char)) (evidence : List EvidenceSnapshotDraft)
    (text : List Char) :
    text ∈ (retainUnseen seen evidence).map draftText ↔
      text ∈ evidence.map draftText ∧ text ∉ seen := by
  induction evidence generalizing seen with
  | nil => simp [retainUnseen]
  | cons snapshot rest ih =>
      rw [retainUnseen, List.map_cons, List.mem_cons]
      by_cases old : draftText snapshot ∈ seen
      · rw [if_pos old, ih]
        constructor
        · rintro ⟨member, new⟩
          exact ⟨.inr member, new⟩
        · rintro ⟨rfl | member, new⟩
          · exact absurd old new
          · exact ⟨member, new⟩
      · rw [if_neg old, List.map_cons, List.mem_cons, ih, List.mem_cons]
        constructor
        · rintro (rfl | ⟨member, new⟩)
          · exact ⟨.inl rfl, old⟩
          · exact ⟨.inr member, fun inSeen => new (.inr inSeen)⟩
        · rintro ⟨rfl | member, new⟩
          · exact .inl rfl
          · by_cases same : text = draftText snapshot
            · exact .inl same
            · exact .inr ⟨member, fun inside => inside.elim same new⟩

theorem nodup_map_retainUnseen (seen : List (List Char)) (evidence : List EvidenceSnapshotDraft) :
    ((retainUnseen seen evidence).map draftText).Nodup := by
  induction evidence generalizing seen with
  | nil => exact List.nodup_nil
  | cons snapshot rest ih =>
      rw [retainUnseen]
      split
      · exact ih seen
      · rw [List.map_cons, List.nodup_cons, mem_map_retainUnseen]
        exact ⟨fun inside => inside.2 List.mem_cons_self, ih _⟩

/-! ### The order of the references -/

/-- The same Observation, except for the order of its references. -/
def ReorderedObservation (first second : WorkObservation) : Prop :=
  first.observationId = second.observationId ∧
    (first.observation = second.observation ∨
      ∃ conclusion references others, first.observation = .validation conclusion references ∧
        second.observation = .validation conclusion others ∧ references.Perm others)

theorem ReorderedObservation.symm {first second : WorkObservation}
    (reordered : ReorderedObservation first second) : ReorderedObservation second first := by
  obtain ⟨sameId, same | ⟨conclusion, references, others, isFirst, isSecond, perm⟩⟩ := reordered
  · exact ⟨sameId.symm, .inl same.symm⟩
  · exact ⟨sameId.symm, .inr ⟨conclusion, others, references, isSecond, isFirst, perm.symm⟩⟩

/-- The same sources, except for the order of the references of Observations. -/
structure Reordered (first second : EvidenceSources) : Prop where
  taskSessionId : first.episode.taskSessionId = second.episode.taskSessionId
  taskId : first.episode.taskId = second.episode.taskId
  signals : first.signals = second.signals
  projection : first.projection = second.projection
  observations : List.Forall₂ ReorderedObservation first.episode.observations
    second.episode.observations

theorem find?_reordered {first second : List WorkObservation}
    (reordered : List.Forall₂ ReorderedObservation first second) (observationId : Uuid) :
    (first.find? fun observation => observation.observationId = observationId) = none ∧
        (second.find? fun observation => observation.observationId = observationId) = none ∨
      ∃ one other, (first.find? fun observation => observation.observationId = observationId) =
          some one ∧
        (second.find? fun observation => observation.observationId = observationId) = some other ∧
        ReorderedObservation one other := by
  induction reordered with
  | nil => exact .inl ⟨rfl, rfl⟩
  | @cons one other rest more related _ ih =>
      have sameId := related.1
      by_cases isIt : one.observationId = observationId
      · refine .inr ⟨one, other, ?_, ?_, related⟩
        · rw [List.find?_cons_of_pos (by simpa using isIt)]
        · rw [List.find?_cons_of_pos (by simpa using sameId ▸ isIt)]
      · rw [List.find?_cons_of_neg (by simpa using isIt),
          List.find?_cons_of_neg (by simpa using sameId ▸ isIt)]
        exact ih

namespace Reordered

variable {first second : EvidenceSources}

theorem symm (reordered : Reordered first second) : Reordered second first where
  taskSessionId := reordered.taskSessionId.symm
  taskId := reordered.taskId.symm
  signals := reordered.signals.symm
  projection := reordered.projection.symm
  observations := (reordered.observations.imp fun _ _ => ReorderedObservation.symm).flip

theorem signalEvidence_eq (reordered : Reordered first second) (refs : List CheckpointEvidenceRef)
    (signalId : Uuid) :
    signalEvidence first claim signalId =
      signalEvidence second { claim with evidenceRefs := refs } signalId := by
  rw [signalEvidence, signalEvidence, EvidenceSources.findSignal, EvidenceSources.findSignal,
    reordered.signals, reordered.taskSessionId, reordered.taskId]
  rfl

theorem contextEvidence_eq (reordered : Reordered first second) (contextId : ContextId)
    (revisionId : RevisionId) (evidenceId : EvidenceId) :
    contextEvidence first contextId revisionId evidenceId =
      contextEvidence second contextId revisionId evidenceId := by
  rw [contextEvidence, contextEvidence, EvidenceSources.findContextEvidence,
    EvidenceSources.findContextEvidence, EvidenceSources.findContext, EvidenceSources.findContext,
    reordered.projection]

theorem observationContents_eq {one other : WorkObservation}
    (related : ReorderedObservation one other) (refs : List CheckpointEvidenceRef) :
    (∃ error, observationContents normalizedJson claim one = .error error ∧
        observationContents normalizedJson { claim with evidenceRefs := refs } other =
          .error error) ∨
      ∃ references others snapshot,
        observationContents normalizedJson claim one = .ok (references, snapshot) ∧
        observationContents normalizedJson { claim with evidenceRefs := refs } other =
          .ok (others, snapshot) ∧ references.Perm others := by
  obtain ⟨oneId, oneKind⟩ := one
  obtain ⟨otherId, otherKind⟩ := other
  obtain ⟨sameId, same | ⟨conclusion, references, others, isOne, isOther, perm⟩⟩ := related
  · dsimp only at sameId same
    subst sameId same
    cases oneKind with
    | unresolvedQuestion question => exact .inl ⟨_, rfl, rfl⟩
    | _ => exact .inr ⟨_, _, _, rfl, rfl, .refl _⟩
  · dsimp only at sameId isOne isOther
    subst sameId isOne isOther
    exact .inr ⟨references, others, _, rfl, rfl, perm⟩

theorem sameUpToOrder (reordered : Reordered first second) (refs : List CheckpointEvidenceRef) :
    SameUpToOrder (citations normalizedJson first claim)
      (citations normalizedJson second { claim with evidenceRefs := refs }) where
  resolve
    | .observation observationId => by
        rw [resolve_observation, resolve_observation]
        rcases find?_reordered reordered.observations observationId with
          ⟨noFirst, noSecond⟩ | ⟨one, other, isFirst, isSecond, _⟩
        · rw [EvidenceSources.findObservation, EvidenceSources.findObservation, noFirst, noSecond]
        · rw [EvidenceSources.findObservation, EvidenceSources.findObservation, isFirst, isSecond]
          rfl
    | .taskSignal signalId => by
        rw [resolve_taskSignal, resolve_taskSignal, reordered.signalEvidence_eq refs]
    | .contextEvidence contextId revisionId evidenceId => by
        rw [resolve_contextEvidence, resolve_contextEvidence, reordered.contextEvidence_eq]
  error observationId error := by
    rcases find?_reordered reordered.observations observationId with
      ⟨noFirst, noSecond⟩ | ⟨one, other, isFirst, isSecond, related⟩
    · simp [citations, EvidenceSources.findObservation, noFirst, noSecond]
    · rw [expand_citations normalizedJson first claim isFirst,
        expand_citations normalizedJson second _ isSecond]
      rcases @observationContents_eq normalizedJson claim one other related refs with
        ⟨code, firstError, secondError⟩ | ⟨references, others, snapshot, firstOk, secondOk, _⟩
      · rw [firstError, secondError]
      · rw [firstOk, secondOk]
        simp
  forward observationId references snapshot expands := by
    rcases find?_reordered reordered.observations observationId with
      ⟨noFirst, noSecond⟩ | ⟨one, other, isFirst, isSecond, related⟩
    · simp [citations, EvidenceSources.findObservation, noFirst] at expands
    · rw [expand_citations normalizedJson first claim isFirst] at expands
      rw [expand_citations normalizedJson second _ isSecond]
      rcases @observationContents_eq normalizedJson claim one other related refs with
        ⟨code, firstError, _⟩ | ⟨firstRefs, others, own, firstOk, secondOk, perm⟩
      · rw [firstError] at expands
        cases expands
      · rw [firstOk] at expands
        obtain ⟨rfl, rfl⟩ := Prod.mk.inj (Except.ok.inj expands)
        exact ⟨others, secondOk, perm.subset⟩

end Reordered

/-! ### The evidence of a Claim -/

section Evidence

variable (normalizedJson sources claim)

/-- What the builder collects: no more nodes can be entered than there are Observations. -/
def candidateEvidence : Except (DepthFirst.Stop String) (List Uuid × List EvidenceSnapshotDraft) :=
  collectClaimEvidence normalizedJson sources claim (sources.episode.observations.length + 1)

def observationIds : Finset Uuid :=
  (sources.episode.observations.map WorkObservation.observationId).toFinset

theorem card_observationIds_le :
    (observationIds sources).card ≤ sources.episode.observations.length := by
  have bound := List.toFinset_card_le (sources.episode.observations.map WorkObservation.observationId)
  rwa [List.length_map] at bound

theorem within_observationIds :
    Within (citations normalizedJson sources claim) (observationIds sources) := by
  intro reference observationId resolves
  obtain ⟨_, observation, found⟩ := resolve_node resolves
  rw [observationIds, List.mem_toFinset]
  exact List.mem_map.mpr ⟨observation, List.mem_of_find?_eq_some found,
    EvidenceSources.findObservation_id found⟩

end Evidence

theorem collectClaimEvidence_ok {fuel : Nat} {ids : List Uuid}
    {evidence : List EvidenceSnapshotDraft}
    (collected : collectClaimEvidence normalizedJson sources claim fuel = .ok (ids, evidence)) :
    ∃ after, search (citations normalizedJson sources claim) fuel claim.evidenceRefs = .ok after ∧
      after.listed = ids ∧ deduplicateCandidateEvidence after.emitted = evidence := by
  rw [collectClaimEvidence, collectReferences_citations] at collected
  cases found : search (citations normalizedJson sources claim) fuel claim.evidenceRefs with
  | error stop => simp [found] at collected
  | ok after =>
      simp only [found, Except.ok.injEq, Prod.mk.injEq] at collected
      exact ⟨after, rfl, collected.1, collected.2⟩

theorem collectClaimEvidence_error {fuel : Nat} {stop : DepthFirst.Stop String} :
    collectClaimEvidence normalizedJson sources claim fuel = .error stop ↔
      search (citations normalizedJson sources claim) fuel claim.evidenceRefs = .error stop := by
  rw [collectClaimEvidence, collectReferences_citations]
  cases search (citations normalizedJson sources claim) fuel claim.evidenceRefs <;> simp

theorem candidateEvidence_lasts {fuel : Nat}
    (enough : sources.episode.observations.length < fuel) :
    collectClaimEvidence normalizedJson sources claim fuel =
        candidateEvidence normalizedJson sources claim ∧
      candidateEvidence normalizedJson sources claim ≠ .error .outOfFuel := by
  have lasts : ∀ fuel, sources.episode.observations.length < fuel →
      search (citations normalizedJson sources claim) fuel claim.evidenceRefs ≠
        .error .outOfFuel := fun fuel enough =>
    search_lasts (within_observationIds normalizedJson sources claim)
      (Nat.lt_of_le_of_lt (card_observationIds_le sources) enough)
  refine ⟨?_, fun stopped => lasts _ (Nat.lt_succ_self _) (collectClaimEvidence_error.mp stopped)⟩
  obtain ⟨extra, rfl⟩ := Nat.exists_eq_add_of_lt enough
  rw [candidateEvidence]
  induction extra with
  | zero => rfl
  | succ extra ih =>
      rw [← ih (by omega), collectClaimEvidence, collectClaimEvidence, collectReferences_citations,
        collectReferences_citations]
      have more : search (citations normalizedJson sources claim)
          (sources.episode.observations.length + (extra + 1) + 1) claim.evidenceRefs =
          search (citations normalizedJson sources claim)
            (sources.episode.observations.length + extra + 1) claim.evidenceRefs :=
        followAll_more_fuel _ claim.evidenceRefs .start (lasts _ (by omega))
      rw [more]

theorem candidateEvidence_refused_iff :
    (∃ code, candidateEvidence normalizedJson sources claim = .error (.refused code)) ↔
      ∃ reference, Cited sources claim reference ∧ NotEvidence sources reference := by
  have refuses := @search_refuses_iff _ _ _ _ _ (citations normalizedJson sources claim)
    claim.evidenceRefs _ _ (within_observationIds normalizedJson sources claim)
    (Nat.lt_succ_of_le (card_observationIds_le sources))
  simp only [candidateEvidence, collectClaimEvidence_error]
  rw [refuses]
  exact exists_congr fun reference => and_congr leads_iff_cited refuses_iff_notEvidence

theorem candidateEvidence_finds {ids : List Uuid} {evidence : List EvidenceSnapshotDraft}
    (collected : candidateEvidence normalizedJson sources claim = .ok (ids, evidence)) :
    ids.Nodup ∧
      (∀ observationId, observationId ∈ ids ↔ Cited sources claim (.observation observationId)) ∧
      (evidence.map draftText).Nodup ∧
      (∀ snapshot ∈ evidence, ∃ reference, Cited sources claim reference ∧
        snapshotOf normalizedJson sources claim reference = some snapshot) ∧
      ∀ reference, Cited sources claim reference →
        ∃ snapshot, snapshotOf normalizedJson sources claim reference = some snapshot ∧
          draftText snapshot ∈ evidence.map draftText := by
  have noneRefused : ∀ reference, Cited sources claim reference → ¬ NotEvidence sources reference := by
    intro reference cited notEvidence
    obtain ⟨code, failed⟩ :=
      (@candidateEvidence_refused_iff normalizedJson sources claim).mpr ⟨reference, cited, notEvidence⟩
    rw [collected] at failed
    cases failed
  obtain ⟨after, found, rfl, rfl⟩ := collectClaimEvidence_ok collected
  obtain ⟨nodup, listed, emitted⟩ := search_finds
    (within_observationIds normalizedJson sources claim)
    (Nat.lt_succ_of_le (card_observationIds_le sources)) found
  refine ⟨nodup, ?_, nodup_map_retainUnseen [] _, ?_, ?_⟩
  · intro observationId
    rw [listed]
    constructor
    · rintro ⟨reference, leads, resolves⟩
      obtain ⟨rfl, _⟩ := resolve_node resolves
      exact leads_iff_cited.mp leads
    · intro cited
      refine ⟨_, leads_iff_cited.mpr cited, ?_⟩
      cases isFound : sources.findObservation observationId with
      | some observation => exact resolve_found isFound
      | none =>
          refine absurd (NotEvidence.observationMissing fun observation member => ?_)
            (noneRefused _ cited)
          have := List.find?_eq_none.mp isFound observation member
          simpa using this
  · intro snapshot member
    have inEmitted := (retainUnseen_sublist [] after.emitted).subset member
    exact emits_iff_snapshot.mp ((emitted snapshot).mp inEmitted)
  · intro reference cited
    obtain ⟨snapshot, isSnapshot⟩ :=
      (@notEvidence_or_snapshot normalizedJson sources claim reference).resolve_left
        (noneRefused reference cited)
    have inEmitted := (emitted snapshot).mpr (emits_iff_snapshot.mpr ⟨reference, cited, isSnapshot⟩)
    refine ⟨snapshot, isSnapshot, ?_⟩
    rw [deduplicateCandidateEvidence, mem_map_retainUnseen]
    exact ⟨List.mem_map_of_mem inEmitted, List.not_mem_nil⟩

section Reordering

variable {others : EvidenceSources} {evidenceRefs : List CheckpointEvidenceRef}
  {reference : CheckpointEvidenceRef}

/-- What is cited does not depend on the order of references. -/
theorem Cited.reordered (cited : Cited sources claim reference)
    (reordered : Reordered sources others) (perm : claim.evidenceRefs.Perm evidenceRefs) :
    Cited others { claim with evidenceRefs } reference := by
  have same := @Reordered.sameUpToOrder (fun _ => .null) claim sources others reordered evidenceRefs
  exact leads_iff_cited.mp ((leads_iff_cited.mpr cited).transfer same (List.Perm.subset perm))

theorem NotEvidence.reordered (notEvidence : NotEvidence sources reference)
    (reordered : Reordered sources others) : NotEvidence others reference := by
  have same := @Reordered.sameUpToOrder (fun _ => .null) ⟨"", []⟩ sources others reordered []
  obtain ⟨error, refuses⟩ := refuses_iff_notEvidence.mpr notEvidence
  exact refuses_iff_notEvidence.mp ⟨error, refuses.transfer same⟩

theorem snapshotOf_reordered {snapshot : EvidenceSnapshotDraft}
    (reordered : Reordered sources others) (perm : claim.evidenceRefs.Perm evidenceRefs)
    (cited : Cited sources claim reference)
    (isSnapshot : snapshotOf normalizedJson sources claim reference = some snapshot) :
    ∃ other, Cited others { claim with evidenceRefs } other ∧
      snapshotOf normalizedJson others { claim with evidenceRefs } other = some snapshot := by
  have same := @Reordered.sameUpToOrder normalizedJson claim sources others reordered evidenceRefs
  exact emits_iff_snapshot.mp
    ((emits_iff_snapshot.mpr ⟨reference, cited, isSnapshot⟩).transfer same (List.Perm.subset perm))

end Reordering

theorem candidateEvidence_ok_iff :
    (∃ found, candidateEvidence normalizedJson sources claim = .ok found) ↔
      ∀ reference, Cited sources claim reference → ¬ NotEvidence sources reference := by
  have refused := @candidateEvidence_refused_iff normalizedJson sources claim
  have lasts := (@candidateEvidence_lasts normalizedJson sources claim _ (Nat.lt_succ_self _)).2
  constructor
  · rintro ⟨found, collected⟩ reference cited notEvidence
    obtain ⟨code, failed⟩ := refused.mpr ⟨reference, cited, notEvidence⟩
    rw [collected] at failed
    cases failed
  · intro fine
    match collected : candidateEvidence normalizedJson sources claim with
    | .ok found => exact ⟨found, rfl⟩
    | .error .outOfFuel => exact absurd collected lasts
    | .error (.refused code) =>
        obtain ⟨reference, cited, notEvidence⟩ := refused.mp ⟨code, collected⟩
        exact absurd notEvidence (fine reference cited)

theorem candidateEvidence_included {others : EvidenceSources}
    {evidenceRefs : List CheckpointEvidenceRef} {ids : List Uuid}
    {evidence : List EvidenceSnapshotDraft} {otherIds : List Uuid}
    {otherEvidence : List EvidenceSnapshotDraft} (reordered : Reordered sources others)
    (perm : claim.evidenceRefs.Perm evidenceRefs)
    (collected : candidateEvidence normalizedJson sources claim = .ok (ids, evidence))
    (otherCollected : candidateEvidence normalizedJson others { claim with evidenceRefs } =
      .ok (otherIds, otherEvidence)) :
    (∀ observationId, observationId ∈ ids → observationId ∈ otherIds) ∧
      ∀ text, text ∈ evidence.map draftText → text ∈ otherEvidence.map draftText := by
  obtain ⟨_, listed, _, sound, _⟩ := candidateEvidence_finds collected
  obtain ⟨_, otherListed, _, _, complete⟩ := candidateEvidence_finds otherCollected
  constructor
  · intro observationId member
    have cited := (listed observationId).mp member
    exact (otherListed observationId).mpr (cited.reordered reordered perm)
  · intro text member
    obtain ⟨snapshot, snapshotMem, rfl⟩ := List.mem_map.mp member
    obtain ⟨reference, cited, isSnapshot⟩ := sound snapshot snapshotMem
    obtain ⟨other, otherCited, otherSnapshot⟩ :=
      snapshotOf_reordered reordered perm cited isSnapshot
    obtain ⟨found, isFound, inOther⟩ := complete other otherCited
    rw [otherSnapshot] at isFound
    rwa [Option.some.inj isFound]

end Citing

/-- The evidence of a Claim is what its references lead to. -/
theorem candidate_evidence_is_reachable (normalizedJson : NormalizedWorkObservation → Value)
    (sources : EvidenceSources) (claim : CheckpointClaim) :
    (∀ fuel, sources.episode.observations.length < fuel →
      collectClaimEvidence normalizedJson sources claim fuel =
          candidateEvidence normalizedJson sources claim ∧
        candidateEvidence normalizedJson sources claim ≠ .error .outOfFuel) ∧
    ((∃ code, candidateEvidence normalizedJson sources claim = .error (.refused code)) ↔
      ∃ reference, Cited sources claim reference ∧ NotEvidence sources reference) ∧
    (∀ ids evidence, candidateEvidence normalizedJson sources claim = .ok (ids, evidence) →
      ids.Nodup ∧
      (∀ observationId, observationId ∈ ids ↔ Cited sources claim (.observation observationId)) ∧
      (evidence.map draftText).Nodup ∧
      (∀ snapshot ∈ evidence, ∃ reference, Cited sources claim reference ∧
        snapshotOf normalizedJson sources claim reference = some snapshot) ∧
      ∀ reference, Cited sources claim reference →
        ∃ snapshot, snapshotOf normalizedJson sources claim reference = some snapshot ∧
          draftText snapshot ∈ evidence.map draftText) ∧
    ∀ others evidenceRefs, Reordered sources others → claim.evidenceRefs.Perm evidenceRefs →
      ((∃ found, candidateEvidence normalizedJson sources claim = .ok found) ↔
        ∃ found, candidateEvidence normalizedJson others { claim with evidenceRefs } = .ok found) ∧
      ∀ ids evidence otherIds otherEvidence,
        candidateEvidence normalizedJson sources claim = .ok (ids, evidence) →
        candidateEvidence normalizedJson others { claim with evidenceRefs } =
          .ok (otherIds, otherEvidence) →
        (∀ observationId, observationId ∈ ids ↔ observationId ∈ otherIds) ∧
        (∀ text, text ∈ evidence.map draftText ↔ text ∈ otherEvidence.map draftText) ∧
        ((∀ snapshot ∈ evidence ++ otherEvidence, snapshot.content.WellFormed) →
          ∀ snapshot, snapshot ∈ evidence ↔ snapshot ∈ otherEvidence) := by
  refine ⟨fun fuel enough => candidateEvidence_lasts enough, candidateEvidence_refused_iff,
    fun ids evidence collected => candidateEvidence_finds collected, ?_⟩
  intro others evidenceRefs reordered perm
  refine ⟨?_, ?_⟩
  · rw [candidateEvidence_ok_iff, candidateEvidence_ok_iff]
    constructor
    · intro fine reference cited notEvidence
      exact fine reference (cited.reordered reordered.symm perm.symm)
        (notEvidence.reordered reordered.symm)
    · intro fine reference cited notEvidence
      exact fine reference (cited.reordered reordered perm) (notEvidence.reordered reordered)
  · intro ids evidence otherIds otherEvidence collected otherCollected
    have forth := candidateEvidence_included reordered perm collected otherCollected
    have back := @candidateEvidence_included normalizedJson others { claim with evidenceRefs }
      sources claim.evidenceRefs otherIds otherEvidence ids evidence reordered.symm perm.symm
      otherCollected collected
    refine ⟨fun observationId => ⟨forth.1 observationId, back.1 observationId⟩,
      fun text => ⟨forth.2 text, back.2 text⟩, fun wellFormed snapshot => ?_⟩
    have sameText : ∀ first ∈ evidence ++ otherEvidence, ∀ second ∈ evidence ++ otherEvidence,
        draftText first = draftText second → first = second :=
      fun first firstMem second secondMem =>
        draftText_injective (wellFormed first firstMem) (wellFormed second secondMem)
    constructor
    · intro member
      obtain ⟨other, otherMem, same⟩ :=
        List.mem_map.mp (forth.2 _ (List.mem_map_of_mem member))
      rwa [sameText snapshot (List.mem_append_left _ member) other
        (List.mem_append_right _ otherMem) same.symm]
    · intro member
      obtain ⟨other, otherMem, same⟩ :=
        List.mem_map.mp (back.2 _ (List.mem_map_of_mem member))
      rwa [sameText snapshot (List.mem_append_right _ member) other
        (List.mem_append_left _ otherMem) same.symm]

end SharedContext.Mcp
