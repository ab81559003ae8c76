import Mathlib.Data.Prod.Lex
import Mathlib.Data.String.Basic
import SharedContext.Domain.IdText
import SharedContext.Library.Keyset
import SharedContext.Library.Utf8
import SharedContext.TaskRuntime.CandidateReviews
import SharedContext.TaskRuntime.PromptStash

/-!
# Pages of Candidate Reviews

A page lists the Reviews of one status in the scope of a Session's active Task,
by creation time and Candidate id.  Its cursor is the text of the position of
its last Review.  The rows of the database hold identifiers as text, and compare
them as text.
-/

namespace SharedContext

/-- Whether a listing covers the active Task or all Tasks of its Session. -/
inductive CandidateReviewScope
  | task
  | session
  deriving DecidableEq, Repr

def maxCandidateReviewListLimit : Nat := 100

structure CandidateReviewPage where
  records : List CandidateReviewRecord
  nextCursor : Option String
  deriving DecidableEq, Repr

/-! ### Cursors -/

/-- A number in decimal, padded with zeros. -/
def zeroPadded (width number : Nat) : List Char :=
  (Positional.fixedDigits 10 width number).map Nat.digitChar

def candidateReviewPosition (createdAtUnixSeconds : Nat) (candidateId : CandidateId) : String :=
  "crv1:" ++ String.ofList (zeroPadded 20 createdAtUnixSeconds) ++ ":" ++ toString candidateId

def candidateReviewCursor (record : CandidateReviewRecord) : String :=
  candidateReviewPosition record.createdAtUnixSeconds record.candidateId

def decimalValue (character : Char) : Option Nat :=
  if character.isDigit then some (character.toNat - 48) else none

def dropPlus : List Char → List Char
  | '+' :: rest => rest
  | text => text

/-- `value.parse::<u64>()`. -/
def parseU64 (text : List Char) : Option Nat :=
  if dropPlus text = [] then none
  else do
    let digits ← (dropPlus text).mapM decimalValue
    if Positional.value 10 digits < 2 ^ 64 then some (Positional.value 10 digits) else none

/-- What stands before the first colon, and what behind it. -/
def splitColon (text : List Char) : Option (List Char × List Char) :=
  match text.dropWhile (· ≠ ':') with
  | [] => none
  | _ :: rest => some (text.takeWhile (· ≠ ':'), rest)

def malformedCursor : Error := invalid "Candidate Review cursor is malformed"

def parseCandidateReviewCursor (value : String) : Result (Nat × CandidateId) :=
  match splitColon value.toList with
  | none => .error malformedCursor
  | some (version, rest) =>
      match splitColon rest with
      | none => .error malformedCursor
      | some (createdAt, candidateId) => do
          Result.require (version = "crv1".toList ∧ (String.ofList createdAt).utf8ByteSize = 20)
            malformedCursor
          match parseU64 createdAt with
          | none => .error (invalid "Candidate Review cursor timestamp is invalid")
          | some createdAt =>
              match OpaqueId.parse .candidate (String.ofList candidateId) with
              | .error error =>
                  .error (invariantViolation
                    ("persisted Candidate Review cursor CandidateId is invalid: " ++ error))
              | .ok candidateId => .ok (createdAt, candidateId)

/-! ### Listing -/

section Listing

variable (text : IntentText)

def CandidateReviewRecord.position (record : CandidateReviewRecord) : Nat ×ₗ String :=
  toLex (record.createdAtUnixSeconds, toString record.candidateId)

/-- Whether a Review belongs to the Task, or to a Task of the same Session. -/
def CandidateReviewRecord.inScope (lineages : Lineages) (scope : CandidateReviewScope)
    (task : TaskSessionSnapshot) (record : CandidateReviewRecord) : Bool :=
  match scope with
  | .task =>
      record.sourceEpisode.taskSessionId = task.taskSessionId ∧
        record.sourceEpisode.taskId = task.taskId
  | .session =>
      lineages.taskSession.rows.any fun sibling =>
        sibling.taskSessionId = record.sourceEpisode.taskSessionId ∧
          (lineages.taskSession.find? task.taskSessionId).map (·.externalSessionId) =
            some sibling.externalSessionId

/-- The Reviews of a status in the scope of the active Task. -/
def selectCandidateReviews (runtime : RuntimeDatabase) (tables : CandidateTables)
    (locator : ExternalSessionLocator) (scope : CandidateReviewScope)
    (status : CandidateReviewStatus) : Result (List CandidateReviewRecord) :=
  match findActiveTaskByLocator runtime.lineages locator with
  | none => .error (invalid "ExternalSession has no ActiveTask")
  | some taskSessionId => do
      let task ← requireSnapshot text runtime taskSessionId
      pure (tables.candidateReview.rows.filter fun record =>
        record.inScope runtime.lineages scope task && decide (record.status = status))

/-- The position a cursor stands for; without one it is before all Reviews. -/
def cursorPosition : Option String → Result (Nat ×ₗ String)
  | none => pure (toLex (0, ""))
  | some cursor => do
      let (createdAt, candidateId) ← parseCandidateReviewCursor cursor
      Result.require (createdAt < ordinalBound)
        (invalid "Candidate Review cursor exceeds SQLite range")
      pure (toLex (createdAt, toString candidateId))

/-- The query for one row more than a page holds, and the page made of it. -/
def readCandidateReviewPage (reviews : List CandidateReviewRecord) (position : Nat ×ₗ String)
    (limit : Nat) : CandidateReviewPage :=
  let records := ((reviews.filter fun record => position < record.position).insertionSort
    fun first second => first.position ≤ second.position).take (limit + 1)
  let hasMore := limit < records.length
  let records := records.take limit
  { records
    nextCursor := if hasMore then records.getLast?.map candidateReviewCursor else none }

/-- The bounds of a listing, and the time of its sweep. -/
def startListing (clock : Int) (locator : ExternalSessionLocator) (limit : Nat) :
    Result Nat := do
  locator.validate
  Result.require (limit ≠ 0 ∧ limit ≤ maxCandidateReviewListLimit)
    (invalid "Candidate Review list limit is outside the safe bound")
  unixSeconds clock

/-- Lists one stable bounded page of Reviews at the requested scope, after a
sweep of the expired ones. -/
def listCandidateReviewsInScope (runtime : RuntimeDatabase) (tables : CandidateTables)
    (clock : Int) (locator : ExternalSessionLocator) (scope : CandidateReviewScope)
    (status : CandidateReviewStatus) (limit : Nat) (cursor : Option String) :
    CandidateTables × Result CandidateReviewPage :=
  match startListing clock locator limit with
  | .error error => (tables, .error error)
  | .ok now =>
      afterCleanup tables now fun swept => do
        let reviews ← selectCandidateReviews text runtime swept locator scope status
        let position ← cursorPosition cursor
        pure (swept, readCandidateReviewPage reviews position limit)

end Listing

/-! ### Cursors read back -/

theorem splitColon_append {before : List Char} (plain : ':' ∉ before) (rest : List Char) :
    splitColon (before ++ ':' :: rest) = some (before, rest) := by
  have keep : ∀ character ∈ before, decide (character ≠ ':') = true := by
    intro character member
    rw [decide_eq_true_eq]
    rintro rfl
    exact plain member
  rw [splitColon, List.dropWhile_append_of_pos keep, List.takeWhile_append_of_pos keep]
  simp

theorem decimalValue_digitChar {digit : Nat} (small : digit < 10) :
    decimalValue (Nat.digitChar digit) = some digit := by
  have all : ∀ digit < 10, decimalValue (Nat.digitChar digit) = some digit := by decide
  exact all digit small

theorem zeroPadded_plain {character : Char} (strange : character.isDigit = false)
    (width number : Nat) : character ∉ zeroPadded width number := by
  intro member
  obtain ⟨digit, digitMem, rfl⟩ := List.mem_map.mp member
  have small := Positional.digit_lt_of_mem (by decide) digitMem
  rw [Nat.isDigit_digitChar, decide_eq_false_iff_not] at strange
  exact strange small

theorem dropPlus_eq {text : List Char} (unsigned : '+' ∉ text) : dropPlus text = text := by
  unfold dropPlus
  split
  · exact absurd List.mem_cons_self unsigned
  · rfl

theorem parseU64_zeroPadded {number : Nat} (small : number < 2 ^ 64) :
    parseU64 (zeroPadded 20 number) = some number := by
  have digits : (zeroPadded 20 number).mapM decimalValue =
      some (Positional.fixedDigits 10 20 number) :=
    Positional.mapM_written fun digit member =>
      decimalValue_digitChar (Positional.digit_lt_of_mem (by decide) member)
  have inRange : number < 10 ^ 20 := by omega
  have noSign : '+' ∉ zeroPadded 20 number := zeroPadded_plain (by decide) 20 number
  have nonempty : zeroPadded 20 number ≠ [] := by
    intro empty
    have := congrArg List.length empty
    simp [zeroPadded] at this
  rw [parseU64, dropPlus_eq noSign, if_neg nonempty, digits]
  change (if Positional.value 10 _ < 2 ^ 64 then _ else _) = _
  rw [Positional.value_fixedDigits inRange, if_pos small]

theorem value_digits {text : List Char} (digits : ∀ character ∈ text, character.isDigit = true)
    (number : Nat) :
    text.mapM decimalValue = some (text.map fun character => character.toNat - 48) ∧
      (text.map fun character => character.toNat - 48).foldl
        (fun number digit => number * 10 + digit) number = Nat.ofDigitChars 10 text number := by
  induction text generalizing number with
  | nil => exact ⟨rfl, by simp⟩
  | cons character text ih =>
      have restDigits : ∀ other ∈ text, other.isDigit = true :=
        fun other member => digits other (List.mem_cons_of_mem _ member)
      have first : decimalValue character = some (character.toNat - 48) := by
        rw [decimalValue, if_pos (digits character List.mem_cons_self)]
      obtain ⟨read, folded⟩ := ih restDigits (number * 10 + (character.toNat - 48))
      constructor
      · rw [List.mapM_cons, first, read]
        rfl
      · rw [List.map_cons, List.foldl_cons, folded, Nat.ofDigitChars_cons, Nat.mul_comm]
        rfl

theorem parseU64_toString {number : Nat} (small : number < 2 ^ 64) :
    parseU64 (toString number).toList = some number := by
  have textEq : (toString number).toList = Nat.toDigits 10 number := by
    rw [Nat.toString_eq_repr, Nat.toList_repr]
  have digits : ∀ character ∈ Nat.toDigits 10 number, character.isDigit = true :=
    fun character member => Nat.isDigit_of_mem_toDigits (by decide) (by decide) member
  have unsigned : '+' ∉ Nat.toDigits 10 number := fun member =>
    absurd (digits '+' member) (by decide)
  obtain ⟨read, folded⟩ := value_digits digits 0
  rw [Nat.ofDigitChars_toDigits (by decide) (by decide)] at folded
  rw [textEq, parseU64, dropPlus_eq unsigned, if_neg Nat.toDigits_ne_nil, read]
  change (if Positional.value 10 _ < 2 ^ 64 then some (Positional.value 10 _) else none) = _
  rw [Positional.value, folded, if_pos small]

theorem utf8ByteSize_zeroPadded (width number : Nat) :
    (String.ofList (zeroPadded width number)).utf8ByteSize = width := by
  have oneByte : ∀ character ∈ zeroPadded width number, character.utf8Size = 1 := by
    intro character member
    obtain ⟨digit, digitMem, rfl⟩ := List.mem_map.mp member
    have size : ∀ digit < 10, (Nat.digitChar digit).utf8Size = 1 := by decide
    exact size digit (Positional.digit_lt_of_mem (by decide) digitMem)
  rw [Utf8.utf8ByteSize_ofList oneByte, zeroPadded, List.length_map, Positional.length_fixedDigits]

theorem parseCandidateReviewCursor_position {createdAtUnixSeconds : Nat}
    {candidateId : CandidateId} (small : createdAtUnixSeconds < 2 ^ 64)
    (random : candidateId.uuid.IsRandom) :
    parseCandidateReviewCursor (candidateReviewPosition createdAtUnixSeconds candidateId) =
      .ok (createdAtUnixSeconds, candidateId) := by
  have textEq : (candidateReviewPosition createdAtUnixSeconds candidateId).toList =
      "crv1".toList ++ ':' :: (zeroPadded 20 createdAtUnixSeconds ++
        ':' :: (toString candidateId).toList) := by
    simp [candidateReviewPosition]
  have noColon : ':' ∉ zeroPadded 20 createdAtUnixSeconds :=
    zeroPadded_plain (by decide) 20 createdAtUnixSeconds
  rw [parseCandidateReviewCursor, textEq, splitColon_append (by decide)]
  simp only [splitColon_append noColon]
  refine Result.seq_eq_ok.mpr ⟨Result.require_eq_ok.mpr ⟨by simp, utf8ByteSize_zeroPadded 20 _⟩, ?_⟩
  simp only [parseU64_zeroPadded small, String.ofList_toList, OpaqueId.parse_toString random]

/-! ### Pages of one listing -/

/-- What the columns and the source's own identifiers guarantee of a Review. -/
structure CandidateReviewRecord.Stored (record : CandidateReviewRecord) : Prop where
  created : record.createdAtUnixSeconds < ordinalBound
  random : record.candidateId.uuid.IsRandom

theorem cursorPosition_cursor {record : CandidateReviewRecord} (stored : record.Stored) :
    cursorPosition (some (candidateReviewCursor record)) = .ok record.position := by
  have small : record.createdAtUnixSeconds < 2 ^ 64 := by
    have := stored.created
    unfold ordinalBound at this
    omega
  exact Result.bind_eq_ok.mpr
    ⟨_, parseCandidateReviewCursor_position small stored.random,
      Result.seq_eq_ok.mpr ⟨Result.require_eq_ok.mpr stored.created, rfl⟩⟩

theorem candidateId_of_position {first second : CandidateReviewRecord}
    (same : first.position = second.position) : first.candidateId = second.candidateId := by
  have equal : (first.createdAtUnixSeconds, toString first.candidateId) =
      (second.createdAtUnixSeconds, toString second.candidateId) := toLex.injective same
  exact OpaqueId.toString_injective (Prod.mk.inj equal).2

theorem first_lt_position (record : CandidateReviewRecord) :
    (toLex (0, "") : Nat ×ₗ String) < record.position := by
  have nonempty : "" < toString record.candidateId := by
    rw [String.lt_iff_toList_lt, OpaqueId.toString_toList]
    exact List.nil_lt_cons _ _
  rw [CandidateReviewRecord.position, Prod.Lex.toLex_lt_toLex]
  rcases Nat.eq_zero_or_pos record.createdAtUnixSeconds with zero | positive
  · exact Or.inr ⟨zero.symm, nonempty⟩
  · exact Or.inl positive

/-- A page of Reviews is a page of keys, whose position its cursor stands for. -/
structure SamePage (reviews : List CandidateReviewRecord) (page : CandidateReviewPage)
    (keys : Keyset.Page CandidateReviewRecord (Nat ×ₗ String)) : Prop where
  records : page.records = keys.rows
  ends : page.nextCursor = none ↔ keys.next = none
  goesOn : ∀ cursor, page.nextCursor = some cursor → ∃ last ∈ reviews,
    cursor = candidateReviewCursor last ∧ keys.next = some last.position

private theorem samePage_of_found {reviews found : List CandidateReviewRecord}
    (fromReviews : ∀ record ∈ found, record ∈ reviews) (limit : Nat) :
    SamePage reviews
      { records := found.take limit
        nextCursor := if limit < found.length then
          (found.take limit).getLast?.map candidateReviewCursor else none }
      { rows := found.take limit
        next := if limit < found.length then
          (found.take limit).getLast?.map CandidateReviewRecord.position else none } := by
  refine ⟨rfl, ?_, ?_⟩
  · by_cases more : limit < found.length <;> simp [more]
  · intro cursor hasCursor
    by_cases more : limit < found.length
    · rw [if_pos more] at hasCursor
      obtain ⟨last, isLast, cursorEq⟩ := Option.map_eq_some_iff.mp hasCursor
      have member := List.mem_of_mem_take (List.mem_of_getLast? isLast)
      refine ⟨last, fromReviews last member, cursorEq.symm, ?_⟩
      simp only [more, if_true]
      exact Option.map_eq_some_iff.mpr ⟨last, isLast, rfl⟩
    · rw [if_neg more] at hasCursor
      cases hasCursor

theorem readCandidateReviewPage_same (reviews : List CandidateReviewRecord)
    (position : Nat ×ₗ String) (limit : Nat) :
    SamePage reviews (readCandidateReviewPage reviews position limit)
      (Keyset.readPage CandidateReviewRecord.position reviews (some position) limit) := by
  have fromReviews : ∀ record ∈ ((reviews.filter
      (Keyset.behind CandidateReviewRecord.position (some position))).insertionSort
        fun first second => first.position ≤ second.position).take (limit + 1),
      record ∈ reviews := by
    intro record member
    have sorted := (List.mem_insertionSort _).mp (List.mem_of_mem_take member)
    exact List.mem_of_mem_filter sorted
  exact samePage_of_found fromReviews limit

end SharedContext
