import Mathlib

/-!
# Words

The runs of a list between separators.  Cutting separators off the ends keeps
the words; cutting marks off the end drops a last word of marks, or shortens
the last word.
-/

namespace SharedContext.Words

variable {α : Type}

/-- The maximal runs without a separator. -/
def words (isSeparator : α → Bool) (value : List α) : List (List α) :=
  (value.splitOnP isSeparator).filter fun run => !run.isEmpty

/-- Cut the separators off both ends. -/
def trim (isSeparator : α → Bool) (value : List α) : List α :=
  (value.dropWhile isSeparator).rdropWhile isSeparator

/-- Cut marks off the front of a list, but never its last element. -/
def cutMarksFront [DecidableEq α] (mark : α) : List α → List α
  | first :: second :: rest =>
      if first = mark then cutMarksFront mark (second :: rest) else first :: second :: rest
  | value => value

/-- Cut marks off the end of a list, but never its first element. -/
def cutMarks [DecidableEq α] (mark : α) (value : List α) : List α :=
  (cutMarksFront mark value.reverse).reverse

section Words

variable {isSeparator : α → Bool}

@[simp]
theorem words_nil : words isSeparator ([] : List α) = [] := by
  simp [words]

theorem words_append_separator {separator : α} (before after : List α)
    (separates : isSeparator separator = true) :
    words isSeparator (before ++ separator :: after) =
      words isSeparator before ++ words isSeparator after := by
  simp [words, List.splitOnP_append_cons before after separates]

@[simp]
theorem words_separator_cons {separator : α} (after : List α)
    (separates : isSeparator separator = true) :
    words isSeparator (separator :: after) = words isSeparator after := by
  simpa using words_append_separator [] after separates

theorem words_append_separators {separators : List α} (value : List α)
    (separate : ∀ element ∈ separators, isSeparator element = true) :
    words isSeparator (value ++ separators) = words isSeparator value := by
  induction separators generalizing value with
  | nil => simp
  | cons separator rest ih =>
      rw [words_append_separator value rest (separate separator (by simp))]
      have restWords : words isSeparator rest = [] := by
        simpa using ih [] fun element member => separate element (by simp [member])
      simp [restWords]

theorem words_dropWhile (value : List α) :
    words isSeparator (value.dropWhile isSeparator) = words isSeparator value := by
  induction value with
  | nil => rfl
  | cons first rest ih =>
      cases separates : isSeparator first with
      | true => simpa [List.dropWhile, separates] using ih
      | false => simp [List.dropWhile, separates]

theorem words_rdropWhile (value : List α) :
    words isSeparator (value.rdropWhile isSeparator) = words isSeparator value := by
  have dropped : ∀ element ∈ value.rtakeWhile isSeparator, isSeparator element = true :=
    fun element member => List.mem_rtakeWhile_imp member
  have cut := words_append_separators (value.rdropWhile isSeparator) dropped
  rw [List.rdropWhile_append_rtakeWhile] at cut
  exact cut.symm

@[simp]
theorem words_trim (value : List α) :
    words isSeparator (trim isSeparator value) = words isSeparator value := by
  rw [trim, words_rdropWhile, words_dropWhile]

/-- A list without a separator is one word. -/
theorem words_eq_singleton {value : List α} (nonempty : value ≠ [])
    (plain : ∀ element ∈ value, isSeparator element = false) :
    words isSeparator value = [value] := by
  simp [words, List.splitOnP_eq_singleton plain, nonempty]

/-- A run after a separator is the last word. -/
theorem words_append_run {separator : α} {run : List α} (before : List α)
    (separates : isSeparator separator = true) (nonempty : run ≠ [])
    (plain : ∀ element ∈ run, isSeparator element = false) :
    words isSeparator (before ++ separator :: run) = words isSeparator before ++ [run] := by
  rw [words_append_separator before run separates, words_eq_singleton nonempty plain]

theorem split_last_separator (isSeparator : α → Bool) (value : List α) :
    (∀ element ∈ value, isSeparator element = false) ∨
      ∃ before separator run, value = before ++ separator :: run ∧
        isSeparator separator = true ∧ ∀ element ∈ run, isSeparator element = false := by
  induction value with
  | nil => simp
  | cons first rest ih =>
      rcases ih with plain | ⟨before, separator, run, rfl, separates, plain⟩
      · cases separates : isSeparator first with
        | true => exact Or.inr ⟨[], first, rest, rfl, separates, plain⟩
        | false => exact Or.inl (by simpa [separates] using plain)
      · exact Or.inr ⟨first :: before, separator, run, rfl, separates, plain⟩

theorem words_cons_ne_nil {first : α} (rest : List α) (plain : isSeparator first = false) :
    words isSeparator (first :: rest) ≠ [] := by
  obtain ⟨run, runs, split⟩ :=
    List.exists_cons_of_ne_nil (List.splitOnP_ne_nil isSeparator rest)
  simp [words, List.splitOnP_cons_eq_if_modifyHead, plain, split]

theorem words_eq_nil_iff {value : List α} :
    words isSeparator value = [] ↔ ∀ element ∈ value, isSeparator element = true := by
  induction value with
  | nil => simp
  | cons first rest ih =>
      cases separates : isSeparator first with
      | true => simpa [separates] using ih
      | false => simp [separates, words_cons_ne_nil rest separates]

theorem ne_nil_of_mem_words {value word : List α} (member : word ∈ words isSeparator value) :
    word ≠ [] := by
  intro empty
  simp [words, empty] at member

theorem plain_of_mem_splitOnP {value run : List α} (member : run ∈ value.splitOnP isSeparator) :
    ∀ element ∈ run, isSeparator element = false := by
  induction value generalizing run with
  | nil => simp_all
  | cons first rest ih =>
      obtain ⟨head, tail, split⟩ :=
        List.exists_cons_of_ne_nil (List.splitOnP_ne_nil isSeparator rest)
      cases separates : isSeparator first with
      | true =>
          simp only [List.splitOnP_cons_eq_if_modifyHead, separates, if_true,
            List.mem_cons] at member
          rcases member with rfl | member
          · simp
          · exact ih member
      | false =>
          simp only [List.splitOnP_cons_eq_if_modifyHead, separates, split,
            List.modifyHead_cons, Bool.false_eq_true, if_false, List.mem_cons] at member
          rcases member with rfl | member
          · have headMember : head ∈ rest.splitOnP isSeparator := by simp [split]
            have headPlain := ih headMember
            simpa [separates] using headPlain
          · exact ih (by simp [split, member])

theorem plain_of_mem_words {value word : List α} (member : word ∈ words isSeparator value) :
    ∀ element ∈ word, isSeparator element = false :=
  plain_of_mem_splitOnP (List.mem_of_mem_filter member)

/-- A list with words trims to one that begins and ends with no separator. -/
theorem trim_ends {value : List α} (someWord : words isSeparator value ≠ []) :
    ∃ trimmed : trim isSeparator value ≠ [],
      isSeparator ((trim isSeparator value).head trimmed) = false ∧
      isSeparator ((trim isSeparator value).getLast trimmed) = false ∧
      (value.dropWhile isSeparator).head? = some ((trim isSeparator value).head trimmed) := by
  have trimmed : trim isSeparator value ≠ [] := by
    intro empty
    rw [← words_trim, empty] at someWord
    exact someWord words_nil
  have dropped : value.dropWhile isSeparator ≠ [] := by
    intro empty
    simp [trim, empty] at trimmed
  have sameHead : (trim isSeparator value).head trimmed =
      (value.dropWhile isSeparator).head dropped :=
    (List.rdropWhile_prefix isSeparator _).head trimmed
  refine ⟨trimmed, ?_, ?_, ?_⟩
  · rw [sameHead]
    exact List.head_dropWhile_not isSeparator dropped
  · exact Bool.eq_false_iff.mpr (List.rdropWhile_last_not isSeparator _ trimmed)
  · rw [sameHead]
    exact List.head?_eq_some_head dropped

theorem head_trim {value rest : List α} {first : α}
    (trimmed : trim isSeparator value = first :: rest) : isSeparator first = false := by
  obtain ⟨more, isPrefix⟩ := List.rdropWhile_prefix isSeparator (value.dropWhile isSeparator)
  change trim isSeparator value ++ more = _ at isPrefix
  rw [trimmed] at isPrefix
  have nonempty : value.dropWhile isSeparator ≠ [] := by
    rw [← isPrefix]
    exact List.cons_ne_nil _ _
  have headPlain := List.head_dropWhile_not isSeparator nonempty
  simpa [← isPrefix] using headPlain

@[simp]
theorem trim_nil : trim isSeparator ([] : List α) = [] := by
  simp [trim]

theorem trim_trim (isSeparator : α → Bool) (value : List α) :
    trim isSeparator (trim isSeparator value) = trim isSeparator value := by
  by_cases noWords : words isSeparator value = []
  · have empty : trim isSeparator value = [] := by
      have same := @words_trim _ isSeparator value
      rw [noWords, words_eq_nil_iff] at same
      by_contra nonempty
      have last := List.rdropWhile_last_not isSeparator _ nonempty
      exact last (same _ (List.getLast_mem nonempty))
    rw [empty, trim_nil]
  · obtain ⟨trimmed, headPlain, lastPlain, _⟩ := trim_ends noWords
    generalize trim isSeparator value = result at trimmed headPlain lastPlain ⊢
    have front : result.dropWhile isSeparator = result := by
      cases result with
      | nil => exact absurd rfl trimmed
      | cons first rest => exact List.dropWhile_cons_of_neg (by simpa using headPlain)
    rw [trim, front, List.rdropWhile_eq_self_iff]
    exact fun nonempty => by simpa using lastPlain

end Words

/-! ### Marks at the end -/

section Marks

variable {isSeparator : α → Bool} [DecidableEq α] {mark : α}

theorem cutMarksFront_marks (marks : List α) (rest : List α) {first : α}
    (allMarks : ∀ element ∈ marks, element = mark) (unmarked : first ≠ mark) :
    cutMarksFront mark (marks ++ first :: rest) = first :: rest := by
  induction marks with
  | nil => cases rest <;> simp [cutMarksFront, unmarked]
  | cons next marks ih =>
      have nextMark : next = mark := allMarks next (by simp)
      have restCut := ih fun element member => allMarks element (by simp [member])
      cases marks with
      | nil => simpa [cutMarksFront, nextMark] using restCut
      | cons another marks => simpa [cutMarksFront, nextMark] using restCut

theorem cutMarksFront_suffix (value : List α) : cutMarksFront mark value <:+ value := by
  induction value with
  | nil => simp [cutMarksFront]
  | cons first rest ih =>
      cases rest with
      | nil => simp [cutMarksFront]
      | cons second rest =>
          by_cases isMark : first = mark
          · simpa [cutMarksFront, isMark] using ih.trans (List.suffix_cons first _)
          · simp [cutMarksFront, isMark]

theorem cutMarksFront_ne_nil (mark : α) {value : List α} (nonempty : value ≠ []) :
    cutMarksFront mark value ≠ [] := by
  induction value with
  | nil => exact absurd rfl nonempty
  | cons first rest ih =>
      cases rest with
      | nil => simp [cutMarksFront]
      | cons second rest =>
          by_cases isMark : first = mark
          · simpa [cutMarksFront, isMark] using ih (by simp)
          · simp [cutMarksFront, isMark]

theorem cutMarks_isPrefix (value : List α) : cutMarks mark value <+: value := by
  rw [← List.reverse_suffix, cutMarks, List.reverse_reverse]
  exact cutMarksFront_suffix value.reverse

theorem cutMarks_ne_nil (mark : α) {value : List α} (nonempty : value ≠ []) :
    cutMarks mark value ≠ [] := by
  have reversed : value.reverse ≠ [] := by simpa using nonempty
  simpa [cutMarks] using cutMarksFront_ne_nil mark reversed

theorem cutMarks_append_marks (before marks : List α) {last : α}
    (allMarks : ∀ element ∈ marks, element = mark) (unmarked : last ≠ mark) :
    cutMarks mark (before ++ last :: marks) = before ++ [last] := by
  have reversed : (before ++ last :: marks).reverse =
      marks.reverse ++ last :: before.reverse := by simp
  rw [cutMarks, reversed, cutMarksFront_marks _ _ (by simpa using allMarks) unmarked]
  simp

end Marks

/-! ### One word -/

/-- One word, followed by at most so many words that consist of marks. -/
def OneWord (isSeparator : α → Bool) (mark : α) (room : Nat) (value : List α) : Prop :=
  words isSeparator value ≠ [] ∧ (words isSeparator value).tail.length ≤ room ∧
    ∀ other ∈ (words isSeparator value).tail, ∀ element ∈ other, element = mark

section OneWord

variable {isSeparator : α → Bool} {mark : α} {room : Nat}

theorem oneWord_zero_iff {value : List α} :
    OneWord isSeparator mark 0 value ↔ (words isSeparator value).length = 1 := by
  cases split : words isSeparator value with
  | nil => simp [OneWord, split]
  | cons word rest => cases rest <;> simp [OneWord, split]

theorem oneWord_of_singleton {value word : List α}
    (split : words isSeparator value = [word]) : OneWord isSeparator mark room value := by
  simp [OneWord, split]

theorem oneWord_append_run_iff {before value run : List α}
    (someWord : words isSeparator before ≠ [])
    (split : words isSeparator value = words isSeparator before ++ [run]) :
    OneWord isSeparator mark (room + 1) value ↔
      OneWord isSeparator mark room before ∧ ∀ element ∈ run, element = mark := by
  obtain ⟨word, rest, first⟩ := List.exists_cons_of_ne_nil someWord
  simp only [OneWord, split, first, List.cons_append, List.tail_cons, List.length_append,
    List.length_singleton, List.mem_append, List.mem_singleton]
  grind

theorem not_oneWord_append_run {before value run : List α} {odd : α}
    (someWord : words isSeparator before ≠ [])
    (split : words isSeparator value = words isSeparator before ++ [run])
    (member : odd ∈ run) (unmarked : odd ≠ mark) : ¬ OneWord isSeparator mark room value := by
  obtain ⟨word, rest, first⟩ := List.exists_cons_of_ne_nil someWord
  rintro ⟨-, -, allMarks⟩
  simp only [split, first, List.cons_append, List.tail_cons, List.mem_append,
    List.mem_singleton] at allMarks
  exact unmarked (allMarks run (Or.inr rfl) odd member)

/-- Trimming and cutting marks leaves one word exactly when one word, followed
by one more word of marks at most, was there. -/
theorem oneWord_cut_iff [DecidableEq α] (plainMark : isSeparator mark = false)
    (value : List α) :
    OneWord isSeparator mark room (cutMarks mark (trim isSeparator value)) ↔
      OneWord isSeparator mark (room + 1) value := by
  by_cases someWord : words isSeparator value = []
  · have empty : trim isSeparator value = [] := by
      simp [trim, List.dropWhile_eq_nil_iff.mpr (words_eq_nil_iff.mp someWord)]
    simp [OneWord, someWord, empty, cutMarks, cutMarksFront]
  · obtain ⟨trimmed, headPlain, lastPlain, -⟩ := trim_ends someWord
    have sameWords : OneWord isSeparator mark (room + 1) value ↔
        OneWord isSeparator mark (room + 1) (trim isSeparator value) := by
      simp [OneWord]
    rw [sameWords]
    generalize trim isSeparator value = cut at *
    rcases split_last_separator isSeparator cut with
      plain | ⟨before, separator, run, rfl, separates, plain⟩
    · -- a single word stays one, since its first element is kept
      have kept := words_eq_singleton (cutMarks_ne_nil mark trimmed)
        fun element member => plain element ((cutMarks_isPrefix cut).subset member)
      exact iff_of_true (oneWord_of_singleton kept)
        (oneWord_of_singleton (words_eq_singleton trimmed plain))
    · have runs : run ≠ [] := by
        rintro rfl
        simp [separates] at lastPlain
      have wordsBefore : words isSeparator before ≠ [] := by
        cases before with
        | nil => simp [separates] at headPlain
        | cons first rest => exact words_cons_ne_nil rest (by simpa using headPlain)
      have split := words_append_run before separates runs plain
      have notMark : separator ≠ mark := by
        rintro rfl
        simp [separates] at plainMark
      by_cases allMarks : ∀ element ∈ run, element = mark
      · rw [cutMarks_append_marks before run allMarks notMark,
          oneWord_append_run_iff wordsBefore split]
        have sameWords : words isSeparator (before ++ [separator]) =
            words isSeparator before := words_append_separators before (by simpa using separates)
        rw [and_iff_left allMarks]
        simp [OneWord, sameWords]
      · push Not at allMarks
        obtain ⟨odd, member, unmarked⟩ := allMarks
        rcases split_last_separator (fun element => decide (element ≠ mark)) run with
          onlyMarks | ⟨kept, last, marks, rfl, lastUnmarked, restMarks⟩
        · exact absurd (by simpa using onlyMarks odd member) unmarked
        · have isCut : cutMarks mark (before ++ separator :: (kept ++ last :: marks)) =
              before ++ separator :: (kept ++ [last]) := by
            simpa using cutMarks_append_marks (before ++ separator :: kept) marks
              (by simpa using restMarks) (by simpa using lastUnmarked)
          have keptSplit : words isSeparator (before ++ separator :: (kept ++ [last])) =
              words isSeparator before ++ [kept ++ [last]] :=
            words_append_run before separates (by simp) fun element kept =>
              plain element (by grind)
          have lastMember : last ∈ kept ++ [last] := by simp
          rw [isCut]
          exact iff_of_false
            (not_oneWord_append_run wordsBefore keptSplit lastMember
              (by simpa using lastUnmarked))
            (not_oneWord_append_run wordsBefore split member unmarked)

end OneWord

end SharedContext.Words
