import SharedContext.Index.SubmissionRows

/-!
# Isolated submissions

What is wrong with one Candidate event stays with the submissions that share
an identity with it.  A hint is merged under its own submission only, and a
second definition only reaches the events whose identities it repeats.
-/

namespace SharedContext

/-! ### The metadata of Candidate events -/

section Metadata

variable {blobs : List EventBlob}

theorem mem_event? {event : ReducerEvent} :
    event ∈ blobs.filterMap EventBlob.event? ↔
      ∃ parsed, .known parsed ∈ blobs ∧ parsed.event = event := by
  rw [List.mem_filterMap]
  constructor
  · rintro ⟨blob, member, isEvent⟩
    cases blob with
    | known parsed => exact ⟨parsed, member, Option.some.inj isEvent⟩
    | unknownSchema path => cases isEvent
    | malformed path hint => cases isEvent
  · rintro ⟨parsed, member, rfl⟩
    exact ⟨.known parsed, member, rfl⟩

theorem mem_known? {parsed : KnownEvent} :
    parsed ∈ blobs.filterMap EventBlob.known? ↔ .known parsed ∈ blobs := by
  rw [List.mem_filterMap]
  constructor
  · rintro ⟨blob, member, isKnown⟩
    cases blob with
    | known other => exact Option.some.inj isKnown ▸ member
    | unknownSchema path => cases isKnown
    | malformed path hint => cases isKnown
  · intro member
    exact ⟨.known parsed, member, rfl⟩

theorem candidateEventMetadata_eq_some {parsed : KnownEvent} {eventId : EventId}
    {metadata : CandidateEventMetadata} :
    candidateEventMetadata parsed = some (eventId, metadata) ↔
      ∃ node : CandidateNode, parsed.event = node.event ∧ node.eventId = eventId ∧
        ⟨node.candidate.submissionId, node.candidate.candidateId, parsed.path,
          parsed.writerBatchId, none⟩ = metadata := by
  obtain ⟨path, ⟨id, payload⟩, writerBatchId, batched⟩ := parsed
  cases payload with
  | contextCandidateCreated candidate =>
      simp only [candidateEventMetadata, Option.some.injEq, Prod.mk.injEq]
      constructor
      · rintro ⟨rfl, rfl⟩
        exact ⟨⟨id, candidate⟩, rfl, rfl, rfl⟩
      · rintro ⟨⟨_, _⟩, same, rfl, rfl⟩
        obtain ⟨rfl, samePayload⟩ := ReducerEvent.mk.inj same
        obtain rfl := EventPayload.contextCandidateCreated.inj samePayload
        exact ⟨rfl, rfl⟩
  | _ =>
      simp only [candidateEventMetadata, reduceCtorEq, false_iff, not_exists, not_and]
      intro node same
      exact absurd (congrArg ReducerEvent.payload same) (by simp [CandidateNode.event])

/-- The pairs that the metadata table is filled with. -/
def metadataPairs (blobs : List EventBlob) : List (EventId × CandidateEventMetadata) :=
  (blobs.filterMap EventBlob.known?).filterMap candidateEventMetadata

theorem get?_collectCandidateEvents (eventId : EventId) :
    (collectCandidateEvents blobs).get? eventId =
      (BTreeMap.listed (metadataPairs blobs) eventId).getLast? := by
  rw [collectCandidateEvents, ← metadataPairs, BTreeMap.get?_foldl_insert, BTreeMap.get?_empty,
    Option.or_none]

theorem mem_metadataPairs {eventId : EventId} {metadata : CandidateEventMetadata} :
    (eventId, metadata) ∈ metadataPairs blobs ↔
      ∃ parsed, .known parsed ∈ blobs ∧
        candidateEventMetadata parsed = some (eventId, metadata) := by
  simp only [metadataPairs, List.mem_filterMap (f := candidateEventMetadata), mem_known?]

theorem exists_known_of_metadata {eventId : EventId} {metadata : CandidateEventMetadata}
    (found : (collectCandidateEvents blobs).get? eventId = some metadata) :
    ∃ parsed, .known parsed ∈ blobs ∧
      candidateEventMetadata parsed = some (eventId, metadata) := by
  rw [get?_collectCandidateEvents] at found
  have member := List.mem_of_getLast? found
  rw [BTreeMap.listed, List.mem_map] at member
  obtain ⟨⟨other, _⟩, listed, rfl⟩ := member
  obtain ⟨isPair, same⟩ := List.mem_filter.mp listed
  obtain rfl : other = eventId := by simpa using same
  exact mem_metadataPairs.mp isPair

theorem get?_collectCandidateEvents_insert {before after : List EventBlob} {blob : EventBlob}
    {eventId : EventId} (other : ∀ event ∈ blob.event?, event.eventId ≠ eventId) :
    (collectCandidateEvents (before ++ blob :: after)).get? eventId =
      (collectCandidateEvents (before ++ after)).get? eventId := by
  have noPair : BTreeMap.listed (metadataPairs [blob]) eventId = [] := by
    rw [List.eq_nil_iff_forall_not_mem]
    intro metadata listed
    rw [BTreeMap.listed, List.mem_map] at listed
    obtain ⟨⟨found, _⟩, filtered, rfl⟩ := listed
    obtain ⟨isPair, same⟩ := List.mem_filter.mp filtered
    obtain rfl : found = eventId := by simpa using same
    obtain ⟨parsed, member, isMetadata⟩ := mem_metadataPairs.mp isPair
    obtain rfl := List.mem_singleton.mp member
    obtain ⟨node, isNode, sameId, -⟩ := candidateEventMetadata_eq_some.mp isMetadata
    exact other parsed.event rfl ((congrArg ReducerEvent.eventId isNode).trans sameId)
  have split : metadataPairs (before ++ blob :: after) =
      metadataPairs before ++ metadataPairs [blob] ++ metadataPairs after := by
    simp only [metadataPairs, List.filterMap_append, List.filterMap_cons, List.filterMap_nil,
      List.append_assoc]
    cases blob.known? with
    | none => simp
    | some parsed => cases made : candidateEventMetadata parsed <;> simp [made]
  have joined : metadataPairs (before ++ after) = metadataPairs before ++ metadataPairs after := by
    simp [metadataPairs]
  rw [get?_collectCandidateEvents, get?_collectCandidateEvents, split, joined]
  simp only [BTreeMap.listed, List.filter_append, List.map_append] at noPair ⊢
  rw [noPair, List.append_nil]

end Metadata

/-! ### The reduced projection of one submission -/

section Reduced

variable {before after : List ReducerEvent} {duplicate node : CandidateNode}

/-- Two Candidates share no identity. -/
structure CandidateNode.Apart (node duplicate : CandidateNode) : Prop where
  eventId : node.eventId ≠ duplicate.eventId
  candidateId : node.candidate.candidateId ≠ duplicate.candidate.candidateId
  submissionId : node.candidate.submissionId ≠ duplicate.candidate.submissionId

theorem definitionCount_insert (event : ReducerEvent) (identity : Identity) :
    definitionCount (before ++ event :: after) identity =
      definitionCount (before ++ after) identity + event.identities.count identity := by
  rw [definitionCount_append, DefinitionTable.definitionCount_cons, definitionCount_append]
  omega

theorem CandidateNode.Apart.not_mem_identities (apart : node.Apart duplicate)
    {identity : Identity} (member : identity ∈ node.event.identities) :
    identity ∉ duplicate.event.identities := by
  simp only [CandidateNode.event, ReducerEvent.identities, ReducerEvent.entityIdentities,
    List.mem_cons, List.not_mem_nil, or_false] at member ⊢
  rcases member with rfl | rfl | rfl
  · simpa using apart.eventId
  · simpa using apart.candidateId
  · simpa using apart.submissionId

theorem invalid_insert_iff (isEvent : node.event ∈ before ++ after)
    (apart : node.Apart duplicate) :
    node.eventId ∈ (factsOf (before ++ duplicate.event :: after)).invalidEventIds ↔
      node.eventId ∈ (factsOf (before ++ after)).invalidEventIds := by
  by_cases invalid : node.eventId ∈ (factsOf (before ++ after)).invalidEventIds
  · refine ⟨fun _ => invalid, fun _ => ?_⟩
    obtain ⟨event, member, sameId, identity, isIdentity, invalidates, several⟩ :=
      mem_invalidEventIds.mp invalid
    refine mem_invalidEventIds.mpr ⟨event, ?_, sameId, identity, isIdentity, invalidates, ?_⟩
    · rcases List.mem_append.mp member with early | late
      · exact List.mem_append_left _ early
      · exact List.mem_append_right _ (List.mem_cons_of_mem _ late)
    · rw [definitionCount_insert]
      omega
  · refine ⟨fun invalidLater => ?_, fun stillInvalid => absurd stillInvalid invalid⟩
    obtain ⟨event, member, sameId, identity, isIdentity, invalidates, several⟩ :=
      mem_invalidEventIds.mp invalidLater
    have older : event ∈ before ++ after := by
      rw [List.mem_append, List.mem_cons] at member
      rcases member with early | rfl | late
      · exact List.mem_append_left _ early
      · exact absurd sameId.symm apart.eventId
      · exact List.mem_append_right _ late
    obtain rfl : node.event = event := event_eq_of_valid isEvent older sameId.symm invalid
    rw [definitionCount_insert, List.count_eq_zero_of_not_mem (apart.not_mem_identities isIdentity),
      Nat.add_zero] at several
    exact absurd (mem_invalidEventIds.mpr
      ⟨node.event, isEvent, rfl, identity, isIdentity, invalidates, several⟩) invalid

theorem get?_submissions_insert {submissionId : SubmissionId}
    (other : duplicate.candidate.submissionId ≠ submissionId) :
    (collectDefinitions (before ++ duplicate.event :: after)).submissions.get? submissionId =
      (collectDefinitions (before ++ after)).submissions.get? submissionId := by
  apply BTreeMap.get?_group_congr
  have skipped : submissionEntry duplicate.event =
      some (duplicate.candidate.submissionId, duplicate) := rfl
  simp [BTreeMap.listed, skipped, other]

variable {submissionId : SubmissionId}

/-- The Candidates of a submission share no identity with a duplicate. -/
def ApartFrom (events : List ReducerEvent) (submissionId : SubmissionId)
    (duplicate : CandidateNode) : Prop :=
  ∀ node : CandidateNode, node.event ∈ events → node.candidate.submissionId = submissionId →
    node.eventId ≠ duplicate.eventId ∧
      node.candidate.candidateId ≠ duplicate.candidate.candidateId

theorem uniqueSubmission?_insert (other : duplicate.candidate.submissionId ≠ submissionId)
    (apart : ApartFrom (before ++ after) submissionId duplicate) {nodes : List CandidateNode}
    (found : (collectDefinitions (before ++ after)).submissions.get? submissionId = some nodes) :
    uniqueSubmission? (collectDefinitions (before ++ duplicate.event :: after)) nodes =
      uniqueSubmission? (collectDefinitions (before ++ after)) nodes := by
  ext node
  rw [uniqueSubmission?_eq_some, uniqueSubmission?_eq_some]
  apply and_congr_right
  rintro rfl
  have isFact : (factsOf (before ++ after)).submissions.get? submissionId = some node :=
    BTreeMap.get?_unique_eq_some.mpr found
  rw [factsOf_submissions] at isFact
  obtain ⟨event, isEvent, isEntry⟩ := submissionTable.exists_event isFact
  obtain ⟨rfl, rfl⟩ := mem_submissionTable.mp isEntry
  obtain ⟨differentEvent, differentCandidate⟩ := apart node isEvent rfl
  rw [invalid_insert_iff isEvent ⟨differentEvent, differentCandidate, Ne.symm other⟩]

theorem candidateSubmissions_insert (hasher : ContentHasher)
    (other : duplicate.candidate.submissionId ≠ submissionId)
    (apart : ApartFrom (before ++ after) submissionId duplicate) :
    (candidateSubmissions hasher (collectDefinitions (before ++ duplicate.event :: after))).get?
        submissionId =
      (candidateSubmissions hasher (collectDefinitions (before ++ after))).get? submissionId := by
  rw [candidateSubmissions, candidateSubmissions, BTreeMap.get?_filterMap,
    BTreeMap.get?_filterMap, get?_submissions_insert other]
  cases found : (collectDefinitions (before ++ after)).submissions.get? submissionId with
  | none => rw [Option.bind_none, Option.bind_none]
  | some nodes => rw [Option.bind_some, Option.bind_some, uniqueSubmission?_insert other apart found]

theorem candidateSubmissionConflicts_insert (hasher : ContentHasher)
    (other : duplicate.candidate.submissionId ≠ submissionId)
    (apart : ApartFrom (before ++ after) submissionId duplicate) :
    (candidateSubmissionConflicts hasher
        (collectDefinitions (before ++ duplicate.event :: after))).get? submissionId =
      (candidateSubmissionConflicts hasher (collectDefinitions (before ++ after))).get?
        submissionId := by
  rw [candidateSubmissionConflicts, candidateSubmissionConflicts, BTreeMap.get?_filterMap,
    BTreeMap.get?_filterMap, get?_submissions_insert other]
  cases found : (collectDefinitions (before ++ after)).submissions.get? submissionId with
  | none => rw [Option.bind_none, Option.bind_none]
  | some nodes => rw [Option.bind_some, Option.bind_some, uniqueSubmission?_insert other apart found]

end Reduced

/-! ### The index of a tree -/

section Trees

variable {hasher : ContentHasher} {additions : EventAdditions} {blobs : List EventBlob}

theorem build_consistent (hasher : ContentHasher) (additions : EventAdditions)
    (blobs : List EventBlob) : ((build hasher blobs).withCommits additions).Consistent where
  submitted := by
    intro candidateId projection found
    simp only [BuildInput.withCommits, build, mergeMalformedCandidateHints_candidates,
      mergeMalformedCandidateHints_submissions] at found ⊢
    obtain ⟨node, lives, rfl, rfl⟩ := get?_reduce_candidates.mp found
    exact ⟨node.submission hasher, get?_reduce_submissions.mpr ⟨node, lives, rfl, rfl⟩, rfl, rfl,
      rfl⟩
  created := by
    intro submissionId submission found
    simp only [BuildInput.withCommits, build, mergeMalformedCandidateHints_candidates,
      mergeMalformedCandidateHints_submissions] at found ⊢
    obtain ⟨node, lives, rfl, rfl⟩ := get?_reduce_submissions.mp found
    exact ⟨_, get?_reduce_candidates.mpr ⟨node, lives, rfl, rfl⟩, rfl⟩

theorem writeTables_eq_ok {tables : SubmissionTables} :
    writeTables hasher additions blobs = .ok tables ↔
      (∀ pair ∈ (collectCandidateEvents blobs).entries,
        ∃ oid, introducingCommitOid additions pair.2.eventPath = .ok oid) ∧
      ∃ rows, writeSubmissions ((build hasher blobs).withCommits additions)
          ((build hasher blobs).projection.candidates.entries.map Prod.snd) [] = .ok rows ∧
        ⟨rows, (build hasher blobs).projection.candidateSubmissionConflicts⟩ = tables := by
  simp only [writeTables, buildInput, Result.bind_eq_ok, Result.pure_eq_ok]
  constructor
  · rintro ⟨_, ⟨_, passed, rfl⟩, rows, written, rfl⟩
    refine ⟨fun pair member => ?_, rows, written, rfl⟩
    have checked := Result.forM_eq_ok.mp passed pair member
    simp only [Result.bind_eq_ok] at checked
    obtain ⟨oid, isIntroduced, -⟩ := checked
    exact ⟨oid, isIntroduced⟩
  · rintro ⟨introduced, rows, written, rfl⟩
    refine ⟨_, ⟨(), Result.forM_eq_ok.mpr fun pair member => ?_, rfl⟩, rows, written, rfl⟩
    obtain ⟨oid, isIntroduced⟩ := introduced pair member
    rw [isIntroduced]
    rfl

theorem lookupSubmission_eq_answer {tables : SubmissionTables}
    (written : writeTables hasher additions blobs = .ok tables) (submissionId : SubmissionId) :
    lookupSubmission hasher additions blobs submissionId =
      ((build hasher blobs).withCommits additions).answer submissionId := by
  have isWritten := written
  obtain ⟨-, rows, isRows, rfl⟩ := writeTables_eq_ok.mp written
  rw [lookupSubmission, isWritten]
  exact (build_consistent hasher additions blobs).lookup_eq isRows submissionId

theorem lookupSubmission_of_hint {path : String} {hint : CandidateSubmissionHint}
    (isBlob : .malformed path (some hint) ∈ blobs) {answer : CandidateSubmissionLookup}
    (answered : lookupSubmission hasher additions blobs hint.submissionId = .ok answer) :
    ∃ eventIds candidateIds contentHashes,
      answer = .conflict hint.submissionId eventIds candidateIds contentHashes := by
  rw [lookupSubmission, Result.bind_eq_ok] at answered
  obtain ⟨tables, written, isAnswer⟩ := answered
  obtain ⟨-, rows, -, rfl⟩ := writeTables_eq_ok.mp written
  have isHint : hint ∈ blobs.filterMap EventBlob.hint? :=
    List.mem_filterMap.mpr ⟨_, isBlob, rfl⟩
  have present : ((build hasher blobs).projection.candidateSubmissionConflicts.get?
      hint.submissionId).isSome = true := isSome_get?_merge isHint
  obtain ⟨conflict, foundIn⟩ := Option.isSome_iff_exists.mp present
  simp only [SubmissionTables.lookup, foundIn, Result.pure_eq_ok] at isAnswer
  exact ⟨_, _, _, isAnswer.symm⟩

theorem lookupSubmission_eq (submissionId : SubmissionId) :
    lookupSubmission hasher additions blobs submissionId = (do
      (collectCandidateEvents blobs).entries.forM fun entry => do
        let _ ← introducingCommitOid additions entry.2.eventPath
      let rows ← writeSubmissions ((build hasher blobs).withCommits additions)
        ((build hasher blobs).projection.candidates.entries.map Prod.snd) []
      SubmissionTables.lookup ⟨rows, (build hasher blobs).projection.candidateSubmissionConflicts⟩
        submissionId) := by
  simp only [lookupSubmission, writeTables, buildInput, bind_assoc, pure_bind]
  rfl

theorem lookupSubmission_malformed {before after : List EventBlob} {path : String}
    {hint : Option CandidateSubmissionHint} {submissionId : SubmissionId}
    (other : ∀ named ∈ hint, named.submissionId ≠ submissionId) :
    lookupSubmission hasher additions (before ++ .malformed path hint :: after) submissionId =
      lookupSubmission hasher additions (before ++ after) submissionId := by
  have sameEvents : (before ++ .malformed path hint :: after).filterMap EventBlob.event? =
      (before ++ after).filterMap EventBlob.event? := by
    rw [List.filterMap_append, List.filterMap_cons_none rfl, List.filterMap_append]
  have sameMetadata : collectCandidateEvents (before ++ .malformed path hint :: after) =
      collectCandidateEvents (before ++ after) := by
    rw [collectCandidateEvents, List.filterMap_append, List.filterMap_cons_none rfl,
      ← List.filterMap_append, ← collectCandidateEvents]
  have sameHints : ((before ++ .malformed path hint :: after).filterMap EventBlob.hint?).filter
        (fun named => named.submissionId = submissionId) =
      ((before ++ after).filterMap EventBlob.hint?).filter
        (fun named => named.submissionId = submissionId) := by
    cases hint with
    | none => rw [List.filterMap_append, List.filterMap_cons_none rfl, List.filterMap_append]
    | some named =>
        rw [List.filterMap_append,
          List.filterMap_cons_some (f := EventBlob.hint?) rfl, List.filterMap_append,
          List.filter_append, List.filter_append,
          List.filter_cons_of_neg (by simpa using other named rfl)]
  have sameConflict :
      (build hasher (before ++ .malformed path hint :: after)).projection.candidateSubmissionConflicts.get?
          submissionId =
        (build hasher (before ++ after)).projection.candidateSubmissionConflicts.get?
          submissionId := by
    rw [build, build, sameEvents, get?_merge_congr rfl rfl, sameHints, ← get?_merge_congr rfl rfl]
  have sameCandidates :
      (build hasher (before ++ .malformed path hint :: after)).projection.candidates =
        (build hasher (before ++ after)).projection.candidates := by
    rw [build, build, mergeMalformedCandidateHints_candidates,
      mergeMalformedCandidateHints_candidates, sameEvents]
  have sameRows : ∀ projections rows,
      writeSubmissions ((build hasher (before ++ .malformed path hint :: after)).withCommits
        additions) projections rows =
      writeSubmissions ((build hasher (before ++ after)).withCommits additions) projections
        rows := by
    apply writeSubmissions_congr
    · simp only [BuildInput.withCommits, build, mergeMalformedCandidateHints_submissions,
        sameEvents]
    · simp only [BuildInput.withCommits, build, sameMetadata]
  rw [lookupSubmission_eq, lookupSubmission_eq, sameMetadata, sameCandidates, sameRows]
  simp only [SubmissionTables.lookup, sameConflict]

theorem lookupSubmission_duplicate {before after : List EventBlob} {parsed : KnownEvent}
    {duplicate : CandidateNode} (isDuplicate : parsed.event = duplicate.event)
    {submissionId : SubmissionId} (other : duplicate.candidate.submissionId ≠ submissionId)
    (apart : ApartFrom ((before ++ after).filterMap EventBlob.event?) submissionId duplicate)
    {tables smaller : SubmissionTables}
    (written : writeTables hasher additions (before ++ .known parsed :: after) = .ok tables)
    (writtenWithout : writeTables hasher additions (before ++ after) = .ok smaller) :
    lookupSubmission hasher additions (before ++ .known parsed :: after) submissionId =
      lookupSubmission hasher additions (before ++ after) submissionId := by
  have events : (before ++ .known parsed :: after).filterMap EventBlob.event? =
      before.filterMap EventBlob.event? ++ duplicate.event ::
        after.filterMap EventBlob.event? := by
    rw [List.filterMap_append, List.filterMap_cons_some (f := EventBlob.event?) rfl]
    exact congrArg (fun event => before.filterMap EventBlob.event? ++ event ::
      after.filterMap EventBlob.event?) isDuplicate
  have sameHints : (before ++ .known parsed :: after).filterMap EventBlob.hint? =
      (before ++ after).filterMap EventBlob.hint? := by
    rw [List.filterMap_append, List.filterMap_cons_none rfl, List.filterMap_append]
  rw [List.filterMap_append] at apart
  rw [lookupSubmission_eq_answer written, lookupSubmission_eq_answer writtenWithout]
  apply BuildInput.answer_congr
  · simp only [BuildInput.withCommits, build, events, sameHints]
    rw [List.filterMap_append (f := EventBlob.event?)]
    exact (get?_merge_congr (candidateSubmissions_insert hasher other apart)
      (candidateSubmissionConflicts_insert hasher other apart)).trans
      (get?_merge_congr rfl rfl).symm
  · simp only [BuildInput.withCommits, build, mergeMalformedCandidateHints_submissions, events,
      List.filterMap_append]
    exact candidateSubmissions_insert hasher other apart
  · intro submission found
    simp only [BuildInput.withCommits, build, mergeMalformedCandidateHints_submissions] at found
    obtain ⟨node, lives, rfl, rfl⟩ := get?_reduce_submissions.mp found
    rw [List.filterMap_append] at lives
    simp only [BuildInput.withCommits, build, BTreeMap.get?_map]
    rw [get?_collectCandidateEvents_insert]
    intro event isEvent
    obtain rfl := Option.some.inj isEvent
    rw [isDuplicate]
    exact Ne.symm (apart node lives.1 rfl).1

/-- The paths of a tree are distinct, and one commit introduced each Candidate event. -/
structure IntroducedOnce (additions : EventAdditions) (blobs : List EventBlob) : Prop where
  distinctPaths : (blobs.map EventBlob.path).Nodup
  introduced : ∀ parsed, .known parsed ∈ blobs → ∀ node : CandidateNode,
    parsed.event = node.event → ∃ oid, introducingCommitOid additions parsed.path = .ok oid

theorem IntroducedOnce.sublist {fewer : List EventBlob}
    (introduced : IntroducedOnce additions blobs) (sublist : fewer.Sublist blobs) :
    IntroducedOnce additions fewer where
  distinctPaths := introduced.distinctPaths.sublist (sublist.map _)
  introduced := fun parsed member => introduced.introduced parsed (sublist.subset member)

theorem IntroducedOnce.row_of_lives (introduced : IntroducedOnce additions blobs)
    {node : CandidateNode} (lives : node.Lives (blobs.filterMap EventBlob.event?)) :
    ∃ parsed batchId oid, .known parsed ∈ blobs ∧ parsed.event = node.event ∧
      ((build hasher blobs).withCommits additions).submissionRow ⟨node.eventId, node.candidate⟩ =
        .ok ⟨node.candidate.submissionId, node.candidate.candidateId, node.eventId,
          node.candidate.sourceEpisode, node.candidate.submissionContentHash hasher, batchId, oid,
          parsed.path⟩ := by
  obtain ⟨writer, isWriter, writes⟩ := mem_event?.mp lives.1
  have isPair := mem_metadataPairs.mpr
    ⟨writer, isWriter, candidateEventMetadata_eq_some.mpr ⟨node, writes, rfl, rfl⟩⟩
  have present : ((collectCandidateEvents blobs).get? node.eventId).isSome = true := by
    rw [get?_collectCandidateEvents, List.getLast?_isSome]
    apply List.ne_nil_of_mem
    exact List.mem_map_of_mem (List.mem_filter.mpr ⟨isPair, decide_eq_true rfl⟩)
  obtain ⟨metadata, found⟩ := Option.isSome_iff_exists.mp present
  obtain ⟨parsed, isKnown, made⟩ := exists_known_of_metadata found
  obtain ⟨other, isOther, sameId, rfl⟩ := candidateEventMetadata_eq_some.mp made
  obtain rfl : other = node :=
    lives.eq_of_eventId (mem_event?.mpr ⟨parsed, isKnown, isOther⟩) sameId
  obtain ⟨oid, isIntroduced⟩ := introduced.introduced parsed isKnown other isOther
  obtain ⟨batchId, isBatch⟩ : ∃ batchId, parsed.writerBatchId = some batchId := by
    have batched := parsed.batched (by rw [isOther]; rfl)
    cases given : parsed.writerBatchId with
    | none =>
        rw [given] at batched
        cases batched
    | some batchId => exact ⟨batchId, rfl⟩
  refine ⟨parsed, batchId, oid, isKnown, isOther, BuildInput.submissionRow_eq_ok.mpr
    ⟨other.submission hasher, ⟨other.candidate.submissionId, other.candidate.candidateId,
      parsed.path, parsed.writerBatchId, some oid⟩, ?_, ?_, rfl, rfl, ?_⟩⟩
  · simp only [BuildInput.withCommits, build, mergeMalformedCandidateHints_submissions]
    exact get?_reduce_submissions.mpr ⟨other, lives, rfl, rfl⟩
  · simp only [BuildInput.withCommits, build, BTreeMap.get?_map, found, Option.map_some,
      isIntroduced, Except.toOption]
  · simp only [CandidateSubmissionProjection.row?, isBatch, Option.bind_some, Option.map_some]
    rfl

theorem IntroducedOnce.eq_of_clashes (introduced : IntroducedOnce additions blobs)
    {first second : CandidateNode} (firstLives : first.Lives (blobs.filterMap EventBlob.event?))
    (secondLives : second.Lives (blobs.filterMap EventBlob.event?))
    {row other : CandidateSubmissionRow}
    (isOther : ((build hasher blobs).withCommits additions).submissionRow
      ⟨first.eventId, first.candidate⟩ = .ok other)
    (isRow : ((build hasher blobs).withCommits additions).submissionRow
      ⟨second.eventId, second.candidate⟩ = .ok row)
    (clashes : row.Clashes other) : first = second := by
  obtain ⟨firstKnown, _, _, isFirst, firstEvent, firstRow⟩ :=
    introduced.row_of_lives firstLives
  obtain ⟨secondKnown, _, _, isSecond, secondEvent, secondRow⟩ :=
    introduced.row_of_lives secondLives
  obtain rfl := Except.ok.inj (isOther.symm.trans firstRow)
  obtain rfl := Except.ok.inj (isRow.symm.trans secondRow)
  rcases clashes with same | same | same | same
  · have isFact := (submissions_iff firstLives.2).mpr ⟨rfl, firstLives.1⟩
    have isOtherFact := (submissions_iff secondLives.2).mpr ⟨same.symm, secondLives.1⟩
    exact Option.some.inj (isFact.symm.trans isOtherFact)
  · have isFact := (candidates_iff firstLives.2).mpr ⟨rfl, firstLives.1⟩
    have isOtherFact := (candidates_iff secondLives.2).mpr ⟨same.symm, secondLives.1⟩
    exact Option.some.inj (isFact.symm.trans isOtherFact)
  · exact secondLives.eq_of_eventId firstLives.1 same.symm
  · have samePath : EventBlob.path (.known firstKnown) = EventBlob.path (.known secondKnown) :=
      same.symm
    have sameBlob := List.inj_on_of_nodup_map introduced.distinctPaths isFirst isSecond samePath
    obtain rfl := EventBlob.known.inj sameBlob
    have sameEvent : second.event = first.event := secondEvent.symm.trans firstEvent
    apply secondLives.eq_of_eventId firstLives.1
    exact congrArg ReducerEvent.eventId sameEvent.symm

theorem IntroducedOnce.exists_tables (introduced : IntroducedOnce additions blobs)
    (hasher : ContentHasher) : ∃ tables, writeTables hasher additions blobs = .ok tables := by
  have ofEntry : ∀ entry ∈ (build hasher blobs).projection.candidates.entries,
      ∃ node : CandidateNode, node.Lives (blobs.filterMap EventBlob.event?) ∧
        node.candidate.candidateId = entry.1 ∧ ⟨node.eventId, node.candidate⟩ = entry.2 := by
    rintro ⟨candidateId, projection⟩ isEntry
    have found := BTreeMap.mem_entries.mp isEntry
    simp only [build, mergeMalformedCandidateHints_candidates] at found
    exact get?_reduce_candidates.mp found
  obtain ⟨rows, written⟩ : ∃ rows, writeSubmissions ((build hasher blobs).withCommits additions)
      ((build hasher blobs).projection.candidates.entries.map Prod.snd) [] = .ok rows := by
    apply exists_writeSubmissions
    · intro projection member
      obtain ⟨entry, isEntry, rfl⟩ := List.mem_map.mp member
      obtain ⟨node, lives, -, same⟩ := ofEntry entry isEntry
      obtain ⟨_, _, _, -, -, isRow⟩ := introduced.row_of_lives lives
      exact ⟨_, same ▸ isRow⟩
    · rw [List.pairwise_map]
      have distinct := List.pairwise_map.mp (BTreeMap.nodup_keys_entries
        (build hasher blobs).projection.candidates)
      apply distinct.imp_of_mem
      intro earlier later isEarlier isLater differ row other isOther isRow clashes
      obtain ⟨first, firstLives, firstKey, firstSame⟩ := ofEntry earlier isEarlier
      obtain ⟨second, secondLives, secondKey, secondSame⟩ := ofEntry later isLater
      refine differ ?_
      rw [← firstKey, ← secondKey, introduced.eq_of_clashes firstLives secondLives
        (firstSame ▸ isOther) (secondSame ▸ isRow) clashes]
    · exact fun other member => absurd member List.not_mem_nil
  refine ⟨_, writeTables_eq_ok.mpr ⟨?_, rows, written, rfl⟩⟩
  rintro ⟨eventId, metadata⟩ member
  obtain ⟨parsed, isKnown, made⟩ := exists_known_of_metadata (BTreeMap.mem_entries.mp member)
  obtain ⟨node, isNode, -, rfl⟩ := candidateEventMetadata_eq_some.mp made
  exact introduced.introduced parsed isKnown node isNode

end Trees

/-- In every tree, a malformed blob changes what is found under the submission
it hints at and under no other, and a hinted submission never resolves to a
Candidate.  A further Candidate event changes what is found under its own
submission, and under no submission whose Candidate events share neither its
event ID nor its Candidate ID. -/
theorem submissions_isolated (hasher : ContentHasher) (additions : EventAdditions)
    (before after : List EventBlob) :
    (∀ path hint submissionId,
      (∀ named ∈ hint, CandidateSubmissionHint.submissionId named ≠ submissionId) →
      lookupSubmission hasher additions (before ++ .malformed path hint :: after) submissionId =
        lookupSubmission hasher additions (before ++ after) submissionId) ∧
    (∀ path hint answer,
      lookupSubmission hasher additions (before ++ .malformed path (some hint) :: after)
        hint.submissionId = .ok answer →
      ∃ eventIds candidateIds contentHashes,
        answer = .conflict hint.submissionId eventIds candidateIds contentHashes) ∧
    ∀ parsed duplicate, parsed.event = CandidateNode.event duplicate →
      IntroducedOnce additions (before ++ .known parsed :: after) →
      ∀ submissionId, duplicate.candidate.submissionId ≠ submissionId →
        ApartFrom ((before ++ after).filterMap EventBlob.event?) submissionId duplicate →
        lookupSubmission hasher additions (before ++ .known parsed :: after) submissionId =
          lookupSubmission hasher additions (before ++ after) submissionId := by
  refine ⟨?_, ?_, ?_⟩
  · intro path hint submissionId other
    exact lookupSubmission_malformed other
  · intro path hint answer answered
    exact lookupSubmission_of_hint
      (List.mem_append_right before List.mem_cons_self) answered
  · intro parsed duplicate isDuplicate introduced submissionId other apart
    obtain ⟨tables, written⟩ := introduced.exists_tables hasher
    have fewer : (before ++ after).Sublist (before ++ .known parsed :: after) :=
      (List.sublist_cons_self _ _).append_left before
    obtain ⟨smaller, writtenWithout⟩ := (introduced.sublist fewer).exists_tables hasher
    exact lookupSubmission_duplicate isDuplicate other apart written writtenWithout

/-! ### Two submissions and a duplicate -/

def indexedCandidate (eventId : EventId) (candidateId : CandidateId)
    (submissionId : SubmissionId) : CandidateNode :=
  ⟨eventId, { sampleCandidate with candidateId := candidateId, submissionId := submissionId }⟩

def indexedEvent (path : String) (node : CandidateNode) : KnownEvent where
  path := path
  event := node.event
  writerBatchId := some sampleBatchId
  batched := fun _ => by decide

def indexedBlobs : List EventBlob :=
  [.known (indexedEvent "events/1" (indexedCandidate ⟨1⟩ ⟨1⟩ ⟨1⟩)),
    .known (indexedEvent "events/2" (indexedCandidate ⟨2⟩ ⟨2⟩ ⟨2⟩))]

def indexedAdditions : EventAdditions :=
  ((BTreeMap.empty.insert "events/1" [⟨"c1", 1⟩]).insert "events/2" [⟨"c2", 2⟩]).insert "events/3"
    [⟨"c3", 3⟩]

theorem indexed_introduced (node : CandidateNode) :
    IntroducedOnce indexedAdditions
      (indexedBlobs ++ [.known (indexedEvent "events/3" node)]) where
  distinctPaths := by
    simp only [indexedBlobs, List.cons_append, List.nil_append, List.map_cons, List.map_nil,
      EventBlob.path, indexedEvent]
    decide
  introduced := by
    intro parsed member _ _
    simp only [indexedBlobs, List.cons_append, List.nil_append, List.mem_cons,
      List.not_mem_nil, or_false, EventBlob.known.injEq] at member
    rcases member with rfl | rfl | rfl
    · exact ⟨"c1", by decide⟩
    · exact ⟨"c2", by decide⟩
    · have third : introducingCommitOid indexedAdditions "events/3" = .ok "c3" := by
        decide
      exact ⟨"c3", third⟩

/-- Of two submissions, the second keeps its answer beside a malformed or a
second definition of the first. -/
theorem submissions_isolated_two :
    lookupSubmission sampleHasher indexedAdditions
        (indexedBlobs ++ [.malformed "events/3" (some ⟨⟨1⟩, none, none⟩)]) ⟨2⟩ =
      lookupSubmission sampleHasher indexedAdditions (indexedBlobs ++ []) ⟨2⟩ ∧
    lookupSubmission sampleHasher indexedAdditions
        (indexedBlobs ++ [.known (indexedEvent "events/3" (indexedCandidate ⟨3⟩ ⟨3⟩ ⟨1⟩))]) ⟨2⟩ =
      lookupSubmission sampleHasher indexedAdditions (indexedBlobs ++ []) ⟨2⟩ := by
  obtain ⟨ofHint, -, ofDuplicate⟩ :=
    submissions_isolated sampleHasher indexedAdditions indexedBlobs []
  constructor
  · apply ofHint
    rintro named ⟨⟩
    decide
  · refine ofDuplicate _ (indexedCandidate ⟨3⟩ ⟨3⟩ ⟨1⟩) rfl (indexed_introduced _) _ (by decide) ?_
    intro node isEvent isSecond
    obtain ⟨parsed, member, same⟩ := mem_event?.mp isEvent
    simp only [indexedBlobs, List.append_nil, List.mem_cons, List.not_mem_nil, or_false,
      EventBlob.known.injEq] at member
    obtain ⟨eventId, candidate⟩ := node
    rcases member with rfl | rfl
    · cases same
      exact absurd isSecond (by decide)
    · cases same
      exact ⟨by decide, by decide⟩

def CandidateSubmissionLookup.isFound : CandidateSubmissionLookup → Bool
  | .found _ => true
  | _ => false

/-- A duplicate of the first submission that reuses the Candidate ID of the
second makes the second a conflict, too. -/
theorem duplicate_reaches_second_submission :
    (lookupSubmission sampleHasher indexedAdditions indexedBlobs ⟨2⟩).toOption.any
        CandidateSubmissionLookup.isFound = true ∧
      (lookupSubmission sampleHasher indexedAdditions (indexedBlobs ++
          [.known (indexedEvent "events/3" (indexedCandidate ⟨3⟩ ⟨2⟩ ⟨1⟩))]) ⟨2⟩).toOption.any
        CandidateSubmissionLookup.isFound = false := by
  decide

end SharedContext
