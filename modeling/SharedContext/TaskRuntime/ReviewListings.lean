import SharedContext.TaskRuntime.CandidateReviewPages

/-!
# Listings of Candidate Reviews followed to their end

Each listing of a sequence runs on a database and a time of its own, and takes
the cursor of the page before.  Its page is a page of keys, so the pages show
what a walk over positions shows.
-/

namespace SharedContext

open CandidateReviewRecord (position)

section Listings

variable (text : IntentText) (locator : ExternalSessionLocator) (scope : CandidateReviewScope)
  (status : CandidateReviewStatus)

/-- One listing: the database and the time it runs at, and its limit. -/
structure ReviewListing where
  runtime : RuntimeDatabase
  tables : CandidateTables
  clock : Int
  limit : Nat

namespace ReviewListing

def answer (listing : ReviewListing) (cursor : Option String) : Result CandidateReviewPage :=
  (listCandidateReviewsInScope text listing.runtime listing.tables listing.clock locator scope
    status listing.limit cursor).2

/-- All Reviews a listing is about, or the error it fails with at any cursor. -/
def selected (listing : ReviewListing) : Result (List CandidateReviewRecord) := do
  let now ← startListing listing.clock locator listing.limit
  let (swept, _) ← cleanupExpiredCandidateReviewsAt listing.tables now
  selectCandidateReviews text listing.runtime swept locator scope status

def reviews (listing : ReviewListing) : List CandidateReviewRecord :=
  (listing.selected text locator scope status).toOption.getD []

/-- Its rows are as the source stores them, and it runs without a cursor. -/
structure Runs (listing : ReviewListing) : Prop where
  stored : ∀ record ∈ listing.tables.candidateReview, record.Stored
  selects : ∃ reviews, listing.selected text locator scope status = .ok reviews

end ReviewListing

/-- The pages of listings each of which takes the cursor of the one before, up
to the page without a cursor. -/
def followCursors (cursor : Option String) : List ReviewListing → Result (List CandidateReviewPage)
  | [] => pure []
  | listing :: rest => do
      let page ← listing.answer text locator scope status cursor
      match page.nextCursor with
      | none => pure [page]
      | some next =>
          let pages ← followCursors (some next) rest
          pure (page :: pages)

def shownReviews (pages : List CandidateReviewPage) : List CandidateReviewRecord :=
  pages.flatMap (·.records)

def ListingEnded (pages : List CandidateReviewPage) : Prop :=
  ∃ page ∈ pages.getLast?, page.nextCursor = none

variable {text locator scope status}

/-! ### One listing -/

theorem cleanup_stored {tables after : CandidateTables} {now : Nat}
    {report : CandidateReviewCleanup}
    (ran : cleanupExpiredCandidateReviewsAt tables now = .ok (after, report))
    (stored : ∀ record ∈ tables.candidateReview, record.Stored) :
    ∀ record ∈ after.candidateReview, record.Stored := by
  simp only [cleanupExpiredCandidateReviewsAt, Result.bind_eq_ok, Result.exists_unit,
    Result.pure_eq_ok] at ran
  obtain ⟨_, made⟩ := ran
  cases made
  intro new newMem
  obtain ⟨old, oldMem, newEq⟩ := List.mem_map.mp newMem
  have oldStored := stored old oldMem
  subst newEq
  by_cases expired : old.isExpired now = true
  · simp only [expired, if_true]
    exact ⟨oldStored.created, oldStored.random⟩
  · simp only [expired, if_false]
    exact oldStored

namespace ReviewListing

variable {listing : ReviewListing}

theorem Runs.selected_eq (runs : listing.Runs text locator scope status) :
    listing.selected text locator scope status =
      .ok (listing.reviews text locator scope status) := by
  obtain ⟨reviews, isSelected⟩ := runs.selects
  rw [ReviewListing.reviews, isSelected]
  rfl

theorem Runs.reviews_sublist (runs : listing.Runs text locator scope status) :
    ∃ swept : CandidateTables, (∀ record ∈ swept.candidateReview, record.Stored) ∧
      List.Sublist (listing.reviews text locator scope status) swept.candidateReview.rows := by
  have isSelected := runs.selected_eq
  simp only [selected, Result.bind_eq_ok] at isSelected
  obtain ⟨now, _, ⟨swept, report⟩, cleaned, isSelected⟩ := isSelected
  refine ⟨swept, cleanup_stored cleaned runs.stored, ?_⟩
  unfold selectCandidateReviews at isSelected
  split at isSelected
  · cases isSelected
  · simp only [Result.bind_eq_ok, Result.pure_eq_ok] at isSelected
    obtain ⟨task, _, filtered⟩ := isSelected
    rw [← filtered]
    exact List.filter_sublist

theorem Runs.positions_nodup (runs : listing.Runs text locator scope status) :
    ((listing.reviews text locator scope status).map position).Nodup := by
  obtain ⟨swept, _, part⟩ := runs.reviews_sublist
  have candidates : ((listing.reviews text locator scope status).map
      (·.candidateId)).Nodup := swept.candidateReview.keysNodup.sublist (part.map _)
  rw [List.Nodup, List.pairwise_map] at candidates ⊢
  exact candidates.imp fun differ same => differ (candidateId_of_position same)

theorem Runs.review_stored (runs : listing.Runs text locator scope status)
    {record : CandidateReviewRecord}
    (member : record ∈ listing.reviews text locator scope status) : record.Stored := by
  obtain ⟨swept, stored, part⟩ := runs.reviews_sublist
  exact stored record (part.subset member)

theorem Runs.limit_pos (runs : listing.Runs text locator scope status) : 0 < listing.limit := by
  have isSelected := runs.selected_eq
  simp only [selected, startListing, Result.bind_eq_ok, Result.exists_unit,
    Result.require_eq_ok] at isSelected
  obtain ⟨_, ⟨_, bounds, _⟩, _⟩ := isSelected
  exact Nat.pos_of_ne_zero bounds.1

theorem Runs.answer_eq (runs : listing.Runs text locator scope status) {cursor : Option String}
    {position : Nat ×ₗ String} (parsed : cursorPosition cursor = .ok position) :
    listing.answer text locator scope status cursor =
      .ok (readCandidateReviewPage (listing.reviews text locator scope status) position
        listing.limit) := by
  have isSelected := runs.selected_eq
  simp only [selected, Result.bind_eq_ok] at isSelected
  obtain ⟨now, started, ⟨swept, report⟩, cleaned, isSelected⟩ := isSelected
  have ran : (do
      let reviews ← selectCandidateReviews text listing.runtime swept locator scope status
      let position ← cursorPosition cursor
      pure (swept, readCandidateReviewPage reviews position listing.limit) :
        Result (CandidateTables × CandidateReviewPage)) =
      .ok (swept, readCandidateReviewPage (listing.reviews text locator scope status) position
        listing.limit) :=
    Result.bind_eq_ok.mpr ⟨_, isSelected, Result.bind_eq_ok.mpr ⟨_, parsed, rfl⟩⟩
  simp only [answer, listCandidateReviewsInScope, started, afterCleanup, cleaned, ran]

end ReviewListing

/-! ### Pages followed -/

/-- The rows a listing is about, and its limit. -/
def keysetRequests (text : IntentText) (locator : ExternalSessionLocator)
    (scope : CandidateReviewScope) (status : CandidateReviewStatus)
    (listings : List ReviewListing) : List (List CandidateReviewRecord × Nat) :=
  listings.map fun listing => (listing.reviews text locator scope status, listing.limit)

theorem keysetRequests_readable {listings : List ReviewListing}
    (run : ∀ listing ∈ listings, listing.Runs text locator scope status) :
    Keyset.Readable position (keysetRequests text locator scope status listings) where
  distinct := by
    intro request member
    obtain ⟨listing, listed, rfl⟩ := List.mem_map.mp member
    exact (run listing listed).positions_nodup
  positive := by
    intro request member
    obtain ⟨listing, listed, rfl⟩ := List.mem_map.mp member
    exact (run listing listed).limit_pos

/-- The pages show what the pages of keys show, and end when they do. -/
def PagesAgree (pages : List CandidateReviewPage)
    (keys : List (Keyset.Page CandidateReviewRecord (Nat ×ₗ String))) : Prop :=
  List.Forall₂ (fun page keys => page.records = keys.rows ∧
    (page.nextCursor = none ↔ keys.next = none)) pages keys

theorem PagesAgree.shown {pages : List CandidateReviewPage}
    {keys : List (Keyset.Page CandidateReviewRecord (Nat ×ₗ String))}
    (agree : PagesAgree pages keys) : shownReviews pages = Keyset.shown keys := by
  induction agree with
  | nil => rfl
  | cons same _ ih =>
      simp only [shownReviews, Keyset.shown, List.flatMap_cons] at ih ⊢
      rw [ih, same.1]

theorem PagesAgree.ended {pages : List CandidateReviewPage}
    {keys : List (Keyset.Page CandidateReviewRecord (Nat ×ₗ String))}
    (agree : PagesAgree pages keys) : ListingEnded pages ↔ Keyset.Ended keys := by
  induction agree with
  | nil => simp [ListingEnded, Keyset.Ended]
  | cons same agreeRest ih =>
      cases agreeRest with
      | nil => simpa [ListingEnded, Keyset.Ended] using same.2
      | cons sameNext agreeMore =>
          simp only [ListingEnded, Keyset.Ended, List.getLast?_cons_cons] at ih ⊢
          exact ih

theorem followCursors_eq {listings : List ReviewListing}
    (run : ∀ listing ∈ listings, listing.Runs text locator scope status)
    {cursor : Option String} {start : Nat ×ₗ String}
    (parsed : cursorPosition cursor = .ok start) :
    ∃ pages, followCursors text locator scope status cursor listings = .ok pages ∧
      PagesAgree pages (Keyset.walk position (some start)
        (keysetRequests text locator scope status listings)) := by
  induction listings generalizing cursor start with
  | nil => exact ⟨[], rfl, .nil⟩
  | cons listing rest ih =>
      have runsHere := run listing List.mem_cons_self
      have restRun := fun other member => run other (List.mem_cons_of_mem listing member)
      have answered := runsHere.answer_eq parsed
      have same := readCandidateReviewPage_same (listing.reviews text locator scope status) start
        listing.limit
      generalize readCandidateReviewPage (listing.reviews text locator scope status) start
        listing.limit = page at answered same
      rw [keysetRequests, List.map_cons, Keyset.walk_cons]
      cases hasCursor : page.nextCursor with
      | none =>
          have noNext := same.ends.mp hasCursor
          rw [noNext]
          refine ⟨[page], ?_, .cons ⟨same.records, same.ends⟩ .nil⟩
          refine Result.bind_eq_ok.mpr ⟨page, answered, ?_⟩
          rw [hasCursor]
          rfl
      | some next =>
          obtain ⟨last, lastMem, nextEq, keysNext⟩ := same.goesOn next hasCursor
          have parsedNext : cursorPosition (some next) = .ok last.position := by
            rw [nextEq]
            exact cursorPosition_cursor (runsHere.review_stored lastMem)
          obtain ⟨pages, followed, agree⟩ := ih restRun parsedNext
          rw [keysNext]
          refine ⟨page :: pages, ?_, .cons ⟨same.records, same.ends⟩ agree⟩
          refine Result.bind_eq_ok.mpr ⟨page, answered, ?_⟩
          rw [hasCursor]
          exact Result.bind_eq_ok.mpr ⟨pages, followed, rfl⟩

/-- What pages followed from the first show of the Reviews there were. -/
structure ShowsReviews (text : IntentText) (locator : ExternalSessionLocator)
    (scope : CandidateReviewScope) (status : CandidateReviewStatus)
    (listings : List ReviewListing) (pages : List CandidateReviewPage) : Prop where
  inOrder : (shownReviews pages).Pairwise fun first second => first.position < second.position
  selected : ∀ record ∈ shownReviews pages, ∃ listing ∈ listings,
    record ∈ listing.reviews text locator scope status
  complete : ListingEnded pages → ∀ record,
    (∀ listing ∈ listings, record ∈ listing.reviews text locator scope status) →
      record ∈ shownReviews pages

private theorem parsed_without_cursor : cursorPosition none = .ok (toLex (0, "")) :=
  rfl

theorem shows_followed {listings : List ReviewListing}
    (run : ∀ listing ∈ listings, listing.Runs text locator scope status) :
    ∃ pages, followCursors text locator scope status none listings = .ok pages ∧
      ShowsReviews text locator scope status listings pages := by
  have readable := keysetRequests_readable run
  obtain ⟨pages, followed, agree⟩ := followCursors_eq run parsed_without_cursor
  refine ⟨pages, followed, ?_, ?_, ?_⟩
  · rw [agree.shown]
    exact (Keyset.walk_increasing readable _).1
  · intro record member
    rw [agree.shown] at member
    obtain ⟨request, requested, member⟩ := Keyset.mem_of_shown member
    obtain ⟨listing, listed, rfl⟩ := List.mem_map.mp requested
    exact ⟨listing, listed, member⟩
  · intro ended record always
    rw [agree.shown]
    refine Keyset.shown_of_ended readable (agree.ended.mp ended) ?_
      (Keyset.behind_some.mpr (first_lt_position record))
    intro request requested
    obtain ⟨listing, listed, rfl⟩ := List.mem_map.mp requested
    exact always listing listed

theorem shown_of_same {listings : List ReviewListing}
    (run : ∀ listing ∈ listings, listing.Runs text locator scope status)
    {reviews : List CandidateReviewRecord}
    (same : ∀ listing ∈ listings, listing.reviews text locator scope status = reviews)
    {pages : List CandidateReviewPage}
    (followed : followCursors text locator scope status none listings = .ok pages)
    (asked : listings ≠ []) :
    shownReviews pages = (reviews.insertionSort fun first second =>
        first.position ≤ second.position).take (listings.map (·.limit)).sum ∧
      (ListingEnded pages ↔ reviews.length ≤ (listings.map (·.limit)).sum) := by
  obtain ⟨pagesToo, followedToo, agree⟩ := followCursors_eq run parsed_without_cursor
  rw [followed] at followedToo
  cases followedToo
  have requestsEq : keysetRequests text locator scope status listings =
      (listings.map (·.limit)).map fun limit => (reviews, limit) := by
    rw [keysetRequests, List.map_map]
    exact List.map_congr_left fun listing listed => by simp [same listing listed]
  obtain ⟨first, firstListed⟩ := List.exists_mem_of_ne_nil _ asked
  have distinct : (reviews.map position).Nodup := by
    rw [← same first firstListed]
    exact (run first firstListed).positions_nodup
  have positive : ∀ limit ∈ listings.map (·.limit), 0 < limit := by
    intro limit member
    obtain ⟨listing, listed, rfl⟩ := List.mem_map.mp member
    exact (run listing listed).limit_pos
  have everyReview : reviews.filter (Keyset.behind position (some (toLex (0, "")))) = reviews := by
    rw [List.filter_eq_self]
    exact fun record _ => Keyset.behind_some.mpr (first_lt_position record)
  rw [requestsEq] at agree
  rw [agree.shown, agree.ended, Keyset.shown_fixed distinct positive,
    Keyset.ended_fixed distinct positive _ (by simpa using asked), Keyset.ordered, everyReview,
    List.length_insertionSort]
  exact ⟨rfl, Iff.rfl⟩

end Listings

end SharedContext
