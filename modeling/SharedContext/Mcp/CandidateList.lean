import SharedContext.LocalState.SessionScope
import SharedContext.TaskRuntime.LineageRuns
import SharedContext.TaskRuntime.ReviewListings

/-!
# The list of Candidate Reviews

One response shows the Reviews of a page as long as they fit its token budget,
and counts the others as omitted.
-/

namespace SharedContext.Mcp

open LocalState (usizeMax saturatingAdd)

def minCandidateReviewTokenBudget : Nat := 512

def maxCandidateReviewTokenBudget : Nat := 32768

structure CandidateListInput where
  agentKind : String
  externalSessionId : String
  status : CandidateReviewStatus
  scope : CandidateReviewScope
  limit : Nat
  cursor : Option String
  tokenBudget : Nat

inductive ContextPackDetailLevel
  | full
  | compact
  deriving DecidableEq, Repr

inductive CandidateReviewOmittedReason
  | tokenBudget
  | payloadUnavailable
  deriving DecidableEq, Repr

structure CandidateReviewOmitted where
  candidateId : CandidateId
  reason : CandidateReviewOmittedReason
  estimatedTokens : Nat
  deriving DecidableEq, Repr

/-- What a response reads of the snapshot: which Candidates have a payload, the
summary of a Review and its compact form, and what each of them costs. -/
structure ReviewViews (Summary Compact : Type) where
  hasPayload : CandidateId → Bool
  summary : CandidateReviewRecord → Result Summary
  compact : Summary → Option TaskId → Compact
  fullTokens : Summary → Result Nat
  compactTokens : Compact → Result Nat

structure CandidateListRows (Summary Compact : Type) where
  reviews : List Summary
  compactReviews : List Compact
  omitted : List CandidateReviewOmitted
  estimatedTokens : Nat

structure CandidateListResponse (Summary Compact Recovery : Type) where
  reviews : List Summary
  detailLevel : ContextPackDetailLevel
  compactReviews : List Compact
  omitted : List CandidateReviewOmitted
  nextCursor : Option String
  estimatedTokens : Nat
  tokenBudget : Nat
  recovery : Recovery

section CandidateList

variable {Summary Compact Recovery : Type} (views : ReviewViews Summary Compact)
  (input : CandidateListInput) (detailLevel : ContextPackDetailLevel)

def reviewTokens (summary : Summary) (compact : Compact) : Result Nat :=
  match detailLevel with
  | .full => views.fullTokens summary
  | .compact => views.compactTokens compact

/-- Shows one Review, or counts it as omitted. -/
def listReview (rows : CandidateListRows Summary Compact) (record : CandidateReviewRecord) :
    Result (CandidateListRows Summary Compact) :=
  if views.hasPayload record.candidateId then do
    let summary ← views.summary record
    let sourceTaskId :=
      if input.scope = .session then some record.sourceEpisode.taskId else none
    let compact := views.compact summary sourceTaskId
    let tokens ← reviewTokens views detailLevel summary compact
    if saturatingAdd rows.estimatedTokens tokens > input.tokenBudget then
      pure { rows with omitted := rows.omitted ++ [⟨record.candidateId, .tokenBudget, tokens⟩] }
    else
      pure { rows with
        reviews := rows.reviews ++ [summary]
        compactReviews := rows.compactReviews ++ [compact]
        estimatedTokens := saturatingAdd rows.estimatedTokens tokens }
  else
    pure { rows with omitted := rows.omitted ++ [⟨record.candidateId, .payloadUnavailable, 0⟩] }

def listReviews (records : List CandidateReviewRecord) :
    Result (CandidateListRows Summary Compact) :=
  records.foldlM (listReview views input detailLevel) ⟨[], [], [], 0⟩

/-- The list of the Reviews of one page, after builds left behind are recovered. -/
def candidateListWithDetail (text : IntentText) (clock : Int)
    (recoverCandidateBuilds : ExternalSessionLocator →
      Result (RuntimeDatabase × CandidateTables × Recovery)) :
    Result (CandidateListResponse Summary Compact Recovery) := do
  Result.require (¬ (input.tokenBudget < minCandidateReviewTokenBudget ∨
      input.tokenBudget > maxCandidateReviewTokenBudget))
    (invalid "Candidate Review token budget is outside the safe bound")
  let locator : ExternalSessionLocator := ⟨input.agentKind, input.externalSessionId⟩
  locator.validate
  let (runtime, tables, recovery) ← recoverCandidateBuilds locator
  let page ← (listCandidateReviewsInScope text runtime tables clock locator input.scope
    input.status input.limit input.cursor).2
  let rows ← listReviews views input detailLevel page.records
  pure
    { reviews := rows.reviews
      detailLevel
      compactReviews := if detailLevel = .full then [] else rows.compactReviews
      omitted := rows.omitted
      nextCursor := page.nextCursor
      estimatedTokens := rows.estimatedTokens
      tokenBudget := input.tokenBudget
      recovery }

/-- The records split into those whose summaries are shown and those counted as
omitted. -/
structure Accounted (records : List CandidateReviewRecord) (reviews : List Summary)
    (omitted : List CandidateReviewOmitted) : Prop where
  splits : ∃ kept dropped : List CandidateReviewRecord,
    (kept ++ dropped).Perm records ∧ kept.Sublist records ∧ dropped.Sublist records ∧
      List.Forall₂ (fun record summary => views.summary record = .ok summary) kept reviews ∧
      omitted.map (·.candidateId) = dropped.map (·.candidateId)

variable {views input detailLevel}

theorem Accounted.nil : Accounted views [] [] [] where
  splits := ⟨[], [], by simp⟩

theorem Accounted.show {records : List CandidateReviewRecord} {reviews : List Summary}
    {omitted : List CandidateReviewOmitted} (accounted : Accounted views records reviews omitted)
    {record : CandidateReviewRecord} {summary : Summary}
    (viewed : views.summary record = .ok summary) :
    Accounted views (records ++ [record]) (reviews ++ [summary]) omitted := by
  obtain ⟨kept, dropped, perm, keptPart, droppedPart, sameReviews, sameOmitted⟩ := accounted.splits
  refine ⟨kept ++ [record], dropped, ?_, keptPart.append_right _,
    droppedPart.trans (List.sublist_append_left _ _),
    List.rel_append sameReviews (.cons viewed .nil), sameOmitted⟩
  have moved : ([record] ++ dropped).Perm (dropped ++ [record]) := List.perm_append_comm
  have keptMoved := moved.append_left kept
  rw [← List.append_assoc, ← List.append_assoc] at keptMoved
  exact keptMoved.trans (perm.append_right _)

theorem Accounted.omit {records : List CandidateReviewRecord} {reviews : List Summary}
    {omitted : List CandidateReviewOmitted} (accounted : Accounted views records reviews omitted)
    (record : CandidateReviewRecord) (reason : CandidateReviewOmittedReason) (tokens : Nat) :
    Accounted views (records ++ [record]) reviews
      (omitted ++ [⟨record.candidateId, reason, tokens⟩]) := by
  obtain ⟨kept, dropped, perm, keptPart, droppedPart, sameReviews, sameOmitted⟩ := accounted.splits
  refine ⟨kept, dropped ++ [record], ?_, keptPart.trans (List.sublist_append_left _ _),
    droppedPart.append_right _, sameReviews, by simp [sameOmitted]⟩
  rw [← List.append_assoc]
  exact perm.append_right _

structure ListedRows (views : ReviewViews Summary Compact) (input : CandidateListInput)
    (records : List CandidateReviewRecord) (rows : CandidateListRows Summary Compact) : Prop where
  accounted : Accounted views records rows.reviews rows.omitted
  compactLength : rows.compactReviews.length = rows.reviews.length
  withinBudget : rows.estimatedTokens ≤ input.tokenBudget

theorem listReview_listed {records : List CandidateReviewRecord}
    {rows after : CandidateListRows Summary Compact} {record : CandidateReviewRecord}
    (listed : ListedRows views input records rows)
    (ran : listReview views input detailLevel rows record = .ok after) :
    ListedRows views input (records ++ [record]) after := by
  by_cases hasPayload : views.hasPayload record.candidateId = true
  · simp only [listReview, hasPayload, if_true, Result.bind_eq_ok] at ran
    obtain ⟨summary, viewed, tokens, _, ran⟩ := ran
    by_cases exceeds : saturatingAdd rows.estimatedTokens tokens > input.tokenBudget
    · rw [if_pos exceeds] at ran
      cases ran
      exact ⟨listed.accounted.omit record _ _, listed.compactLength, listed.withinBudget⟩
    · rw [if_neg exceeds] at ran
      cases ran
      refine ⟨listed.accounted.show viewed, ?_, Nat.le_of_not_gt exceeds⟩
      simp [listed.compactLength]
  · simp only [listReview, hasPayload] at ran
    cases ran
    exact ⟨listed.accounted.omit record _ _, listed.compactLength, listed.withinBudget⟩

theorem listReviews_listed {records : List CandidateReviewRecord}
    {rows : CandidateListRows Summary Compact}
    (ran : listReviews views input detailLevel records = .ok rows) :
    ListedRows views input records rows := by
  have run : ∀ (rest done : List CandidateReviewRecord)
      (before after : CandidateListRows Summary Compact), ListedRows views input done before →
      rest.foldlM (listReview views input detailLevel) before = .ok after →
      ListedRows views input (done ++ rest) after := by
    intro rest
    induction rest with
    | nil =>
        intro done before after listed ran
        cases ran
        simpa using listed
    | cons record rest ih =>
        intro done before after listed ran
        rw [List.foldlM_cons, Result.bind_eq_ok] at ran
        obtain ⟨middle, first, ran⟩ := ran
        have := ih _ _ _ (listReview_listed listed first) ran
        simpa using this
  exact run records [] _ _ ⟨.nil, rfl, Nat.zero_le _⟩ ran

theorem candidateListWithDetail_listed {text : IntentText} {clock : Int}
    {recoverCandidateBuilds : ExternalSessionLocator →
      Result (RuntimeDatabase × CandidateTables × Recovery)}
    {response : CandidateListResponse Summary Compact Recovery}
    (ran : candidateListWithDetail views input detailLevel text clock recoverCandidateBuilds =
      .ok response) :
    ∃ runtime tables recovery page,
      recoverCandidateBuilds ⟨input.agentKind, input.externalSessionId⟩ =
        .ok (runtime, tables, recovery) ∧
      (listCandidateReviewsInScope text runtime tables clock
        ⟨input.agentKind, input.externalSessionId⟩ input.scope input.status input.limit
        input.cursor).2 = .ok page ∧
      response.nextCursor = page.nextCursor ∧
      Accounted views page.records response.reviews response.omitted ∧
      (detailLevel = .compact → response.compactReviews.length = response.reviews.length) ∧
      response.estimatedTokens ≤ input.tokenBudget := by
  simp only [candidateListWithDetail, Result.bind_eq_ok, Result.exists_unit] at ran
  obtain ⟨_, _, ⟨runtime, tables, recovery⟩, recovered, page, paged, rows, filled, made⟩ := ran
  have listed := listReviews_listed filled
  cases made
  refine ⟨runtime, tables, recovery, page, recovered, paged, rfl, listed.accounted, ?_,
    listed.withinBudget⟩
  intro isCompact
  simp [isCompact, listed.compactLength]

end CandidateList

/-- Listings that follow the cursors show every Review of the status in scope
exactly once, in order; cursors read back as their positions; and a response
shows or counts each Review of its page exactly once. -/
theorem candidate_reviews_listed (text : IntentText) :
    (∀ (locator : ExternalSessionLocator) (scope : CandidateReviewScope)
      (status : CandidateReviewStatus) (listings : List ReviewListing),
      (∀ listing ∈ listings, listing.Runs text locator scope status) →
      ∃ pages, followCursors text locator scope status none listings = .ok pages ∧
        ShowsReviews text locator scope status listings pages ∧
        ∀ reviews, listings ≠ [] →
          (∀ listing ∈ listings, listing.reviews text locator scope status = reviews) →
          shownReviews pages = (reviews.insertionSort fun first second =>
              first.position ≤ second.position).take (listings.map (·.limit)).sum ∧
            (ListingEnded pages ↔ reviews.length ≤ (listings.map (·.limit)).sum)) ∧
    (∀ (createdAtUnixSeconds : Nat) (candidateId : CandidateId),
      createdAtUnixSeconds < 2 ^ 64 → candidateId.uuid.IsRandom →
      parseCandidateReviewCursor (candidateReviewPosition createdAtUnixSeconds candidateId) =
        .ok (createdAtUnixSeconds, candidateId)) ∧
    (∀ (Summary Compact Recovery : Type) (views : ReviewViews Summary Compact)
      (input : CandidateListInput) (detailLevel : ContextPackDetailLevel) (clock : Int)
      (recoverCandidateBuilds : ExternalSessionLocator →
        Result (RuntimeDatabase × CandidateTables × Recovery))
      (response : CandidateListResponse Summary Compact Recovery),
      candidateListWithDetail views input detailLevel text clock recoverCandidateBuilds =
        .ok response →
      ∃ runtime tables recovery page,
        recoverCandidateBuilds ⟨input.agentKind, input.externalSessionId⟩ =
          .ok (runtime, tables, recovery) ∧
        (listCandidateReviewsInScope text runtime tables clock
          ⟨input.agentKind, input.externalSessionId⟩ input.scope input.status input.limit
          input.cursor).2 = .ok page ∧
        response.nextCursor = page.nextCursor ∧
        Accounted views page.records response.reviews response.omitted ∧
        (detailLevel = .compact → response.compactReviews.length = response.reviews.length) ∧
        response.estimatedTokens ≤ input.tokenBudget) := by
  refine ⟨?_, ?_, ?_⟩
  · intro locator scope status listings run
    obtain ⟨pages, followed, shows⟩ := shows_followed run
    exact ⟨pages, followed, shows, fun reviews asked same =>
      shown_of_same run same followed asked⟩
  · intro createdAtUnixSeconds candidateId small random
    exact parseCandidateReviewCursor_position small random
  · intro Summary Compact Recovery views input detailLevel clock recoverCandidateBuilds response ran
    exact candidateListWithDetail_listed ran

def randomUuid (number : Nat) : Uuid :=
  .ofNat _ (0x40008000000000000000 + number)

/-- A Pending Review of the active Task, created at one second like the other. -/
def pendingReview (number : Nat) : CandidateReviewRecord where
  candidateId := ⟨randomUuid number⟩
  submissionId := ⟨.ofNat _ number⟩
  sourceEpisode := ⟨⟨.ofNat _ 1⟩, ⟨.ofNat _ 1⟩, ⟨.ofNat _ 1⟩⟩
  buildId := ⟨.ofNat _ number⟩
  finalCheckpointId := ⟨.ofNat _ 1⟩
  checkpointId := ⟨.ofNat _ 1⟩
  claimId := ⟨.ofNat _ number⟩
  reviewVersion := 1
  decision := .pending
  createdAtUnixSeconds := 1000
  expiresAtUnixSeconds := 9000
  decisionSource := none

def twoReviews : CandidateTables :=
  { CandidateTables.empty with
    candidateReview := ⟨[pendingReview 2, pendingReview 1], by decide⟩ }

def oneByOne : List ReviewListing :=
  [⟨sampleDatabase, twoReviews, 2000, 1⟩, ⟨sampleDatabase, twoReviews, 2000, 1⟩]

theorem oneByOne_run : ∀ listing ∈ oneByOne,
    listing.Runs sampleIntentText sampleLocator .session .pending := by
  have selects : ∃ reviews, (⟨sampleDatabase, twoReviews, 2000, 1⟩ : ReviewListing).selected
      sampleIntentText sampleLocator .session .pending = .ok reviews := by
    refine ⟨[pendingReview 2, pendingReview 1], ?_⟩
    decide
  have stored : ∀ record ∈ twoReviews.candidateReview, record.Stored := by
    intro record member
    rcases List.mem_pair.mp member with rfl | rfl
    · exact ⟨by decide, by decide⟩
    · exact ⟨by decide, by decide⟩
  intro listing member
  rcases List.mem_pair.mp member with rfl | rfl
  · exact ⟨stored, selects⟩
  · exact ⟨stored, selects⟩

/-- Two Reviews created at one second, listed one by one. -/
theorem candidate_reviews_listed_oneByOne :
    ∃ pages, followCursors sampleIntentText sampleLocator .session .pending none oneByOne =
        .ok pages ∧ ListingEnded pages ∧
      (shownReviews pages).map (·.candidateId) = [⟨randomUuid 1⟩, ⟨randomUuid 2⟩] := by
  obtain ⟨pages, followed, _, fixed⟩ := (candidate_reviews_listed sampleIntentText).1
    sampleLocator .session .pending oneByOne oneByOne_run
  have same : ∀ listing ∈ oneByOne, listing.reviews sampleIntentText sampleLocator .session
      .pending = [pendingReview 2, pendingReview 1] := by
    intro listing member
    rcases List.mem_pair.mp member with rfl | rfl <;> decide
  obtain ⟨shownEq, ended⟩ := fixed _ (by simp [oneByOne]) same
  refine ⟨pages, followed, ended.mpr (by decide), ?_⟩
  rw [shownEq]
  decide

end SharedContext.Mcp
