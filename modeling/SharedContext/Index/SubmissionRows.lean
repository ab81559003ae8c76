import SharedContext.Index.SubmissionIndex
import SharedContext.Reducer.Acceptance

/-!
# What a lookup of a submission reads

Hints only change the conflict of their own submission, and the rows of the
table are those of the reduced submissions.  A lookup is therefore told from
the projection and from the metadata of the events.
-/

namespace SharedContext

/-! ### Merging hints -/

section Merging

variable {projection : DomainProjection} {hints : List CandidateSubmissionHint}

theorem mergeMalformedCandidateHints_keeps :
    (mergeMalformedCandidateHints projection hints).candidates = projection.candidates ∧
      (mergeMalformedCandidateHints projection hints).candidateSubmissions =
        projection.candidateSubmissions := by
  induction hints generalizing projection with
  | nil => exact ⟨rfl, rfl⟩
  | cons hint hints ih => exact @ih (mergeHint projection hint)

@[simp]
theorem mergeMalformedCandidateHints_candidates :
    (mergeMalformedCandidateHints projection hints).candidates = projection.candidates :=
  mergeMalformedCandidateHints_keeps.1

@[simp]
theorem mergeMalformedCandidateHints_submissions :
    (mergeMalformedCandidateHints projection hints).candidateSubmissions =
      projection.candidateSubmissions :=
  mergeMalformedCandidateHints_keeps.2

theorem get?_mergeHint (hint : CandidateSubmissionHint) (submissionId : SubmissionId) :
    (mergeHint projection hint).candidateSubmissionConflicts.get? submissionId =
      if submissionId = hint.submissionId then
        some (.extend (projection.candidateSubmissions.get? hint.submissionId) hint
          ((projection.candidateSubmissionConflicts.get? hint.submissionId).getD
            (.vacant hint.submissionId)))
      else projection.candidateSubmissionConflicts.get? submissionId := by
  rw [mergeHint, BTreeMap.get?_upsert]

/-- What the merge makes of a submission depends on the projection of that
submission and on its own hints. -/
theorem get?_merge_congr {first second : DomainProjection} {submissionId : SubmissionId}
    (sameSubmission : first.candidateSubmissions.get? submissionId =
      second.candidateSubmissions.get? submissionId)
    (sameConflict : first.candidateSubmissionConflicts.get? submissionId =
      second.candidateSubmissionConflicts.get? submissionId) :
    (mergeMalformedCandidateHints first hints).candidateSubmissionConflicts.get? submissionId =
      (mergeMalformedCandidateHints second (hints.filter fun hint =>
        hint.submissionId = submissionId)).candidateSubmissionConflicts.get? submissionId := by
  induction hints generalizing first second with
  | nil => exact sameConflict
  | cons hint hints ih =>
      by_cases same : hint.submissionId = submissionId
      · rw [List.filter_cons_of_pos (by simpa using same)]
        apply @ih (mergeHint first hint) (mergeHint second hint) sameSubmission
        rw [get?_mergeHint, get?_mergeHint, same, sameSubmission, sameConflict]
      · rw [List.filter_cons_of_neg (by simpa using same)]
        apply @ih (mergeHint first hint) second sameSubmission
        rw [get?_mergeHint, if_neg (Ne.symm same), sameConflict]

theorem isSome_get?_merge {hint : CandidateSubmissionHint} (isHint : hint ∈ hints) :
    ((mergeMalformedCandidateHints projection hints).candidateSubmissionConflicts.get?
      hint.submissionId).isSome = true := by
  have kept : ∀ (hints : List CandidateSubmissionHint) (projection : DomainProjection),
      (projection.candidateSubmissionConflicts.get? hint.submissionId).isSome = true →
      ((mergeMalformedCandidateHints projection hints).candidateSubmissionConflicts.get?
        hint.submissionId).isSome = true := by
    intro hints
    induction hints with
    | nil => exact fun _ present => present
    | cons other hints ih =>
        intro projection present
        apply ih (mergeHint projection other)
        rw [get?_mergeHint]
        by_cases same : hint.submissionId = other.submissionId
        · rw [if_pos same]
          rfl
        · rw [if_neg same]
          exact present
  obtain ⟨before, after, rfl⟩ := List.append_of_mem isHint
  rw [mergeMalformedCandidateHints, List.foldl_append, List.foldl_cons]
  apply kept
  rw [get?_mergeHint, if_pos rfl]
  rfl

end Merging

/-! ### Candidates and submissions of the reducer -/

section Reduced

variable {hasher : ContentHasher} {events : List ReducerEvent}

/-- A Candidate event that repeats no identity. -/
def CandidateNode.Lives (node : CandidateNode) (events : List ReducerEvent) : Prop :=
  node.event ∈ events ∧ node.eventId ∉ (factsOf events).invalidEventIds

def CandidateNode.submission (hasher : ContentHasher) (node : CandidateNode) :
    CandidateSubmissionProjection :=
  ⟨node.candidate.submissionId, node.candidate.candidateId, node.eventId,
    node.candidate.sourceEpisode, node.candidate.submissionContentHash hasher⟩

theorem get?_reduce_candidates {candidateId : CandidateId} {projection : CandidateProjection} :
    (reduce events hasher).candidates.get? candidateId = some projection ↔
      ∃ node : CandidateNode, node.Lives events ∧ node.candidate.candidateId = candidateId ∧
        ⟨node.eventId, node.candidate⟩ = projection := by
  simp only [reduce, projectCandidates, BTreeMap.get?_map, Option.map_eq_some_iff,
    BTreeMap.get?_filter_eq_some, CandidateNode.Lives]
  constructor
  · rintro ⟨node, ⟨found, valid⟩, rfl⟩
    obtain ⟨rfl, isEvent⟩ := (candidates_iff valid).mp found
    exact ⟨node, ⟨isEvent, valid⟩, rfl, rfl⟩
  · rintro ⟨node, ⟨isEvent, valid⟩, rfl, rfl⟩
    exact ⟨node, ⟨(candidates_iff valid).mpr ⟨rfl, isEvent⟩, valid⟩, rfl⟩

theorem uniqueSubmission?_eq_some {nodes : List CandidateNode} {node : CandidateNode} :
    uniqueSubmission? (collectDefinitions events) nodes = some node ↔
      nodes = [node] ∧ node.eventId ∉ (factsOf events).invalidEventIds := by
  unfold uniqueSubmission?
  split
  · rename_i only
    split
    · rename_i valid
      constructor
      · rintro found
        cases found
        exact ⟨rfl, valid⟩
      · rintro ⟨same, -⟩
        rw [List.singleton_inj.mp same]
    · rename_i invalid
      constructor
      · rintro ⟨⟩
      · rintro ⟨same, valid⟩
        rw [List.singleton_inj] at same
        exact absurd (same ▸ valid) invalid
  · rename_i notSingleton
    constructor
    · rintro ⟨⟩
    · rintro ⟨same, -⟩
      exact absurd same (notSingleton node)

theorem get?_reduce_submissions {submissionId : SubmissionId}
    {submission : CandidateSubmissionProjection} :
    (reduce events hasher).candidateSubmissions.get? submissionId = some submission ↔
      ∃ node : CandidateNode, node.Lives events ∧ node.candidate.submissionId = submissionId ∧
        node.submission hasher = submission := by
  have unique : ∀ {node : CandidateNode}, (∃ nodes,
      (collectDefinitions events).submissions.get? submissionId = some nodes ∧
        uniqueSubmission? (collectDefinitions events) nodes = some node) ↔
      node.Lives events ∧ node.candidate.submissionId = submissionId := by
    intro node
    constructor
    · rintro ⟨nodes, found, isUnique⟩
      obtain ⟨rfl, valid⟩ := uniqueSubmission?_eq_some.mp isUnique
      have isFact : (factsOf events).submissions.get? submissionId = some node :=
        BTreeMap.get?_unique_eq_some.mpr found
      obtain ⟨rfl, isEvent⟩ := (submissions_iff valid).mp isFact
      exact ⟨⟨isEvent, valid⟩, rfl⟩
    · rintro ⟨⟨isEvent, valid⟩, rfl⟩
      have isFact := (submissions_iff valid).mpr ⟨rfl, isEvent⟩
      exact ⟨[node], BTreeMap.get?_unique_eq_some.mp isFact,
        uniqueSubmission?_eq_some.mpr ⟨rfl, valid⟩⟩
  simp only [reduce, candidateSubmissions, BTreeMap.get?_filterMap, Option.bind_eq_some_iff,
    Option.map_eq_some_iff]
  constructor
  · rintro ⟨nodes, found, node, isUnique, rfl⟩
    obtain ⟨lives, rfl⟩ := unique.mp ⟨nodes, found, isUnique⟩
    exact ⟨node, lives, rfl, rfl⟩
  · rintro ⟨node, lives, rfl, rfl⟩
    obtain ⟨nodes, found, isUnique⟩ := unique.mpr ⟨lives, rfl⟩
    exact ⟨nodes, found, node, isUnique, rfl⟩

theorem CandidateNode.Lives.eq_of_eventId {node other : CandidateNode} (lives : node.Lives events)
    (isEvent : other.event ∈ events) (same : other.eventId = node.eventId) : other = node := by
  have sameEvent := event_eq_of_valid lives.1 isEvent same.symm lives.2
  simp only [CandidateNode.event, ReducerEvent.mk.injEq,
    EventPayload.contextCandidateCreated.injEq] at sameEvent
  cases node
  cases other
  simp_all

end Reduced

/-! ### The rows of the table -/

section Rows

variable {hasher : ContentHasher}

/-- The row that a submission and the metadata of its event make. -/
def CandidateSubmissionProjection.row? (submission : CandidateSubmissionProjection)
    (metadata : CandidateEventMetadata) : Option CandidateSubmissionRow :=
  metadata.batchId.bind fun batchId => metadata.commitOid.map fun commitOid =>
    ⟨submission.submissionId, submission.candidateId, submission.eventId,
      submission.sourceEpisode, submission.contentHash, batchId, commitOid, metadata.eventPath⟩

/-- The row of the Candidate that created a submission. -/
def BuildInput.row? (input : BuildInput) (submission : CandidateSubmissionProjection) :
    Option CandidateSubmissionRow :=
  (input.candidateEvents.get? submission.eventId).bind submission.row?

theorem BuildInput.submissionRow_eq_ok {input : BuildInput} {projection : CandidateProjection}
    {row : CandidateSubmissionRow} :
    input.submissionRow projection = .ok row ↔
      ∃ submission metadata,
        input.projection.candidateSubmissions.get? projection.candidate.submissionId =
          some submission ∧
        input.candidateEvents.get? projection.eventId = some metadata ∧
        metadata.submissionId = submission.submissionId ∧
        metadata.candidateId = submission.candidateId ∧ submission.row? metadata = some row := by
  unfold BuildInput.submissionRow
  cases input.projection.candidateSubmissions.get? projection.candidate.submissionId with
  | none => simp
  | some submission =>
      cases input.candidateEvents.get? projection.eventId with
      | none => simp
      | some metadata =>
          obtain ⟨submissionId, candidateId, eventPath, batchId, commitOid⟩ := metadata
          simp only [Option.some.injEq]
          by_cases mismatch : submissionId ≠ submission.submissionId ∨
              candidateId ≠ submission.candidateId
          · rw [if_pos mismatch]
            constructor
            · rintro ⟨⟩
            · rintro ⟨_, _, rfl, rfl, sameSubmission, sameCandidate, -⟩
              rcases mismatch with differs | differs
              · exact absurd sameSubmission differs
              · exact absurd sameCandidate differs
          · rw [if_neg mismatch]
            obtain ⟨sameSubmission, sameCandidate⟩ : submissionId = submission.submissionId ∧
                candidateId = submission.candidateId := by
              simpa only [not_or, not_not] using mismatch
            cases batchId with
            | none => simp [CandidateSubmissionProjection.row?]
            | some batchId =>
                cases commitOid with
                | none => simp [CandidateSubmissionProjection.row?]
                | some commitOid =>
                    simp [CandidateSubmissionProjection.row?, sameSubmission, sameCandidate]

theorem writeSubmissions_eq_ok {input : BuildInput} {projections : List CandidateProjection}
    {rows written : List CandidateSubmissionRow}
    (isWritten : writeSubmissions input projections rows = .ok written) :
    ∃ added, projections.mapM input.submissionRow = .ok added ∧ written = rows ++ added := by
  induction projections generalizing rows with
  | nil =>
      rw [writeSubmissions, Result.pure_eq_ok] at isWritten
      exact ⟨[], rfl, by rw [List.append_nil, isWritten]⟩
  | cons projection rest ih =>
      simp only [writeSubmissions, Result.bind_eq_ok] at isWritten
      obtain ⟨row, isRow, -, -, isWritten⟩ := isWritten
      obtain ⟨added, areRows, rfl⟩ := ih isWritten
      refine ⟨row :: added, ?_, by simp⟩
      rw [List.mapM_cons, isRow, areRows]
      rfl

theorem exists_writeSubmissions {input : BuildInput} {projections : List CandidateProjection}
    {rows : List CandidateSubmissionRow}
    (makes : ∀ projection ∈ projections, ∃ row, input.submissionRow projection = .ok row)
    (apart : projections.Pairwise fun earlier later => ∀ row other,
      input.submissionRow earlier = .ok other → input.submissionRow later = .ok row →
      ¬ row.Clashes other)
    (fresh : ∀ other ∈ rows, ∀ projection ∈ projections, ∀ row,
      input.submissionRow projection = .ok row → ¬ row.Clashes other) :
    ∃ written, writeSubmissions input projections rows = .ok written := by
  induction projections generalizing rows with
  | nil => exact ⟨rows, rfl⟩
  | cons projection rest ih =>
      obtain ⟨row, isRow⟩ := makes projection List.mem_cons_self
      rw [List.pairwise_cons] at apart
      have freshRow : ∀ other ∈ rows, ¬ row.Clashes other := fun other member =>
        fresh other member projection List.mem_cons_self row isRow
      obtain ⟨written, isWritten⟩ : ∃ written,
          writeSubmissions input rest (rows ++ [row]) = .ok written := by
        apply ih (fun later member => makes later (List.mem_cons_of_mem _ member)) apart.2
        intro other member later isLater made isMade
        rcases List.mem_append.mp member with old | new
        · exact fresh other old later (List.mem_cons_of_mem _ isLater) made isMade
        · obtain rfl := List.mem_singleton.mp new
          exact apart.1 later isLater made other isRow isMade
      refine ⟨written, ?_⟩
      rw [writeSubmissions, isRow]
      change (Result.require _ _ >>= fun _ => writeSubmissions input rest (rows ++ [row])) = _
      rw [Result.require_eq_ok.mpr freshRow]
      exact isWritten

/-- Every Candidate has a submission that names it, and no submission is without
its Candidate. -/
structure BuildInput.Consistent (input : BuildInput) : Prop where
  submitted : ∀ {candidateId projection},
    input.projection.candidates.get? candidateId = some projection →
    ∃ submission, input.projection.candidateSubmissions.get? projection.candidate.submissionId =
        some submission ∧ submission.submissionId = projection.candidate.submissionId ∧
      submission.candidateId = candidateId ∧ submission.eventId = projection.eventId
  created : ∀ {submissionId submission},
    input.projection.candidateSubmissions.get? submissionId = some submission →
    ∃ projection, input.projection.candidates.get? submission.candidateId = some projection ∧
      projection.candidate.submissionId = submissionId

theorem BuildInput.Consistent.row?_of_row {input : BuildInput} (consistent : input.Consistent)
    {candidateId : CandidateId} {projection : CandidateProjection} {row : CandidateSubmissionRow}
    (found : input.projection.candidates.get? candidateId = some projection)
    (isRow : input.submissionRow projection = .ok row) :
    row.submissionId = projection.candidate.submissionId ∧
      (input.projection.candidateSubmissions.get? row.submissionId).bind input.row? =
        some row := by
  obtain ⟨submission, metadata, isSubmission, isMetadata, -, -, makes⟩ :=
    submissionRow_eq_ok.mp isRow
  obtain ⟨other, isOther, sameId, -, sameEvent⟩ := consistent.submitted found
  obtain rfl : submission = other := Option.some.inj (isSubmission.symm.trans isOther)
  have sameRow : row.submissionId = submission.submissionId := by
    simp only [CandidateSubmissionProjection.row?, Option.bind_eq_some_iff,
      Option.map_eq_some_iff] at makes
    obtain ⟨_, -, _, -, rfl⟩ := makes
    rfl
  refine ⟨sameRow.trans sameId, ?_⟩
  rw [sameRow, sameId, isSubmission, Option.bind_some, BuildInput.row?, sameEvent, isMetadata,
    Option.bind_some, makes]

theorem BuildInput.Consistent.find?_rows {input : BuildInput} (consistent : input.Consistent)
    {rows : List CandidateSubmissionRow}
    (written : writeSubmissions input (input.projection.candidates.entries.map Prod.snd) [] =
      .ok rows) (submissionId : SubmissionId) :
    (rows.find? fun row => row.submissionId = submissionId) =
      (input.projection.candidateSubmissions.get? submissionId).bind input.row? := by
  obtain ⟨added, areRows, same⟩ := writeSubmissions_eq_ok written
  obtain rfl : rows = added := same
  obtain ⟨everyCandidate, everyRow⟩ := Result.mapM_members areRows
  have ofRow : ∀ row ∈ rows,
      (input.projection.candidateSubmissions.get? row.submissionId).bind input.row? =
        some row := by
    intro row member
    obtain ⟨projection, listed, isRow⟩ := everyRow row member
    obtain ⟨⟨candidateId, _⟩, isEntry, rfl⟩ := List.mem_map.mp listed
    exact (consistent.row?_of_row (BTreeMap.mem_entries.mp isEntry) isRow).2
  cases found : input.projection.candidateSubmissions.get? submissionId with
  | none =>
      rw [Option.bind_none, List.find?_eq_none]
      intro row member
      rw [decide_eq_true_eq]
      rintro rfl
      have made := ofRow row member
      rw [found] at made
      cases made
  | some submission =>
      obtain ⟨projection, isCandidate, rfl⟩ := consistent.created found
      obtain ⟨row, member, isRow⟩ := everyCandidate projection
        (List.mem_map_of_mem (BTreeMap.mem_entries.mpr isCandidate))
      have sameId := (consistent.row?_of_row isCandidate isRow).1
      cases searched : rows.find? fun row =>
          row.submissionId = projection.candidate.submissionId with
      | none =>
          rw [List.find?_eq_none] at searched
          exact absurd (decide_eq_true sameId) (searched row member)
      | some other =>
          have isOther : other.submissionId = projection.candidate.submissionId := by
            simpa using List.find?_some searched
          rw [← found, ← isOther, ofRow other (List.mem_of_find?_eq_some searched)]

/-- What a lookup answers, told from the projection and the metadata of the events. -/
def BuildInput.answer (input : BuildInput) (submissionId : SubmissionId) :
    Result CandidateSubmissionLookup :=
  match input.projection.candidateSubmissionConflicts.get? submissionId with
  | some conflict =>
      pure (.conflict submissionId conflict.eventIds conflict.candidateIds conflict.contentHashes)
  | none =>
      match (input.projection.candidateSubmissions.get? submissionId).bind input.row? with
      | none => pure .notFound
      | some row => do
          let record ← row.record
          pure (.found record)

theorem BuildInput.answer_congr {first second : BuildInput} {submissionId : SubmissionId}
    (sameConflict : first.projection.candidateSubmissionConflicts.get? submissionId =
      second.projection.candidateSubmissionConflicts.get? submissionId)
    (sameSubmission : first.projection.candidateSubmissions.get? submissionId =
      second.projection.candidateSubmissions.get? submissionId)
    (sameMetadata : ∀ submission,
      second.projection.candidateSubmissions.get? submissionId = some submission →
      first.candidateEvents.get? submission.eventId =
        second.candidateEvents.get? submission.eventId) :
    first.answer submissionId = second.answer submissionId := by
  have sameRow : (first.projection.candidateSubmissions.get? submissionId).bind first.row? =
      (second.projection.candidateSubmissions.get? submissionId).bind second.row? := by
    rw [sameSubmission]
    cases found : second.projection.candidateSubmissions.get? submissionId with
    | none => rw [Option.bind_none, Option.bind_none]
    | some submission =>
        rw [Option.bind_some, Option.bind_some, row?, row?, sameMetadata submission found]
  rw [answer, answer, sameConflict, sameRow]

theorem writeSubmissions_congr {first second : BuildInput}
    (sameSubmissions : first.projection.candidateSubmissions =
      second.projection.candidateSubmissions)
    (sameMetadata : first.candidateEvents = second.candidateEvents)
    (projections : List CandidateProjection) (rows : List CandidateSubmissionRow) :
    writeSubmissions first projections rows = writeSubmissions second projections rows := by
  have sameRow : first.submissionRow = second.submissionRow := by
    funext projection
    rw [BuildInput.submissionRow, BuildInput.submissionRow, sameSubmissions, sameMetadata]
  induction projections generalizing rows with
  | nil => rfl
  | cons projection rest ih => simp only [writeSubmissions, sameRow, ih]

theorem BuildInput.Consistent.lookup_eq {input : BuildInput} (consistent : input.Consistent)
    {rows : List CandidateSubmissionRow}
    (written : writeSubmissions input (input.projection.candidates.entries.map Prod.snd) [] =
      .ok rows) (submissionId : SubmissionId) :
    SubmissionTables.lookup ⟨rows, input.projection.candidateSubmissionConflicts⟩ submissionId =
      input.answer submissionId := by
  have found := consistent.find?_rows written submissionId
  rw [SubmissionTables.lookup, BuildInput.answer]
  cases input.projection.candidateSubmissionConflicts.get? submissionId with
  | none =>
      cases stored : (input.projection.candidateSubmissions.get? submissionId).bind input.row? with
      | none =>
          rw [stored] at found
          simp only [found]
      | some row =>
          rw [stored] at found
          simp only [found]
  | some conflict => rfl

end Rows

end SharedContext
