import SharedContext.Library.FirstOccurrences
import SharedContext.Library.Words

/-!
# Coordinates in prose

A text is split into runs of the characters that paths are written with.  A run
with the extension of a source file is a path; the segments of any other run may
be identifiers.  Texts are lists of characters.
-/

namespace SharedContext

def pathExtensions : List String :=
  ["kt", "java", "rs", "ts", "tsx", "js", "py", "go", "swift", "m", "mm", "kts", "gradle", "yaml",
    "yml", "toml", "json", "proto", "xml", "md", "lepus", "ttml", "ttss", "scss", "cjs"]

def identifierStopWords : List String :=
  ["head", "readme", "license", "todo", "fixme", "changelog", "makefile", "dockerfile", "gitignore"]

def minCamelCaseLength : Nat := 4

def minSnakeCaseLength : Nat := 6

/-- A spelling that looks like the path of a file. -/
structure PathCandidate where
  path : List Char
  basename : List Char
  hasDirectory : Bool
  absolute : Bool
  lineSpan : Option (List Char)
  deriving DecidableEq, Repr

/-- The spelling as it is preserved in retrieval text, line span included. -/
def PathCandidate.hintText (candidate : PathCandidate) : List Char :=
  candidate.path ++ candidate.lineSpan.getD []

structure TextScan where
  paths : List PathCandidate
  identifiers : List (List Char)
  deriving DecidableEq, Repr

def TextScan.absorb (scan other : TextScan) : TextScan :=
  ⟨scan.paths ++ other.paths, scan.identifiers ++ other.identifiers⟩

def isRunCharacter (character : Char) : Bool :=
  character.isAlphanum || character == '_' || character == '.' || character == '/' ||
    character == '-'

/-- A trailing `:120` or `:120-140`. -/
def readLineSpan : List Char → Option (List Char)
  | ':' :: rest =>
      let digits := rest.takeWhile Char.isDigit
      if digits = [] then none
      else
        match rest.dropWhile Char.isDigit with
        | '-' :: tail =>
            let more := tail.takeWhile Char.isDigit
            if more = [] then some (':' :: digits) else some (':' :: digits ++ '-' :: more)
        | _ => some (':' :: digits)
  | _ => none

/-- What stands behind the last of a mark; all if there is none. -/
def behindLast (mark : Char) (value : List Char) : List Char :=
  value.rtakeWhile (· ≠ mark)

def lowerAscii (value : List Char) : List Char :=
  value.map Char.toLower

def isPath (value : List Char) : Bool :=
  let basename := behindLast '/' value
  decide ('.' ∈ value) &&
    (pathExtensions.any fun allowed =>
      lowerAscii (behindLast '.' value) == lowerAscii allowed.toList) &&
    decide (basename ≠ [] ∧ basename.head? ≠ some '.')

def pathCandidate (value : List Char) (absolute : Bool) (lineSpan : Option (List Char)) :
    Option PathCandidate :=
  if isPath value then
    some
      { path := value
        basename := behindLast '/' value
        hasDirectory := decide ('/' ∈ value)
        absolute
        lineSpan }
  else none

/-- The segments that start behind a character, as `ILiveEntryService` splits into
`I`, `Live`, `Entry` and `Service`. -/
def laterSegments (previous : Char) : List Char → Nat
  | [] => 0
  | current :: rest =>
      (if current.isUpper && (!previous.isUpper || rest.head?.any Char.isLower) then 1 else 0) +
        laterSegments current rest

def camelCaseSegments : List Char → Nat
  | [] => 1
  | first :: rest => 1 + laterSegments first rest

def isIdentifierCharacter (character : Char) : Bool :=
  character.isAlphanum || character == '_'

def identifierCandidate (segment : List Char) : Option (List Char) :=
  if segment = [] ∨ segment.all isIdentifierCharacter = false then none
  else if (segment.all fun character =>
      character.isUpper || character.isDigit || character == '_') = true then none
  else if String.ofList (lowerAscii segment) ∈ identifierStopWords then none
  else if '_' ∈ segment then
    if minSnakeCaseLength ≤ segment.length then some segment else none
  else if segment.length < minCamelCaseLength ∨ segment.head?.any Char.isAlpha = false then none
  else if 2 ≤ camelCaseSegments segment then some segment
  else none

/-- Whether an identifier reads as the name of a type. -/
def isSymbolMention (identifier : List Char) : Bool :=
  decide ('_' ∉ identifier) && identifier.head?.any Char.isUpper &&
    decide (2 ≤ camelCaseSegments identifier)

def isRunEdge (character : Char) : Bool :=
  character == '.' || character == '-' || character == '/'

def classifyRun (run : List Char) (lineSpan : Option (List Char)) : TextScan :=
  let absolute := decide (run.head? = some '/')
  let trimmed := Words.trim isRunEdge run
  if trimmed = [] then ⟨[], []⟩
  else
    match pathCandidate trimmed absolute lineSpan with
    | some candidate => ⟨[candidate], []⟩
    | none => ⟨[], (trimmed.splitOnP isRunEdge).filterMap identifierCandidate⟩

/-- What follows a run and its line span. -/
def behindRun (start : List Char) : List Char :=
  let after := start.dropWhile isRunCharacter
  after.drop ((readLineSpan after).getD []).length

theorem behindRun_length {start : List Char} {first : Char} {rest : List Char}
    (starts : start = first :: rest) (isRun : isRunCharacter first = true) :
    (behindRun start).length < start.length := by
  have shorter : (rest.dropWhile isRunCharacter).length ≤ rest.length :=
    (List.dropWhile_sublist _).length_le
  rw [behindRun, List.length_drop, starts, List.dropWhile_cons_of_pos isRun, List.length_cons]
  omega

def scanText (text : List Char) : TextScan :=
  match _starts : text.dropWhile (fun character => !isRunCharacter character) with
  | [] => ⟨[], []⟩
  | first :: rest =>
      (classifyRun ((first :: rest).takeWhile isRunCharacter)
        (readLineSpan ((first :: rest).dropWhile isRunCharacter))).absorb
          (scanText (behindRun (first :: rest)))
termination_by text.length
decreasing_by
  have isRun : isRunCharacter first = true := by
    have head := List.head_dropWhile_not (fun character => !isRunCharacter character)
      (l := text) (by rw [_starts]; exact List.cons_ne_nil _ _)
    simpa [_starts] using head
  have shorter := (List.dropWhile_sublist (fun character => !isRunCharacter character)
    (l := text)).length_le
  have behind := behindRun_length (Eq.refl (first :: rest)) isRun
  rw [_starts] at shorter
  omega

def scanTexts (texts : List (List Char)) : TextScan :=
  texts.foldl (fun scan text => scan.absorb (scanText text)) ⟨[], []⟩

/-- The type names of a body of prose, in the order they are written. -/
def symbolMentions (texts : List (List Char)) : List (List Char) :=
  appendNew [] ((scanTexts texts).identifiers.filter isSymbolMention)

/-! ### What a scan finds -/

/-- A path as it is scanned: a run that trimming leaves alone, and a line span
that begins with a colon. -/
structure PathCandidate.IsScanned (candidate : PathCandidate) : Prop where
  reads : pathCandidate candidate.path candidate.absolute candidate.lineSpan = some candidate
  run : ∀ character ∈ candidate.path, isRunCharacter character = true
  trimmed : Words.trim isRunEdge candidate.path = candidate.path
  span : ∀ span ∈ candidate.lineSpan, span.head? = some ':'

theorem pathCandidate_eq_some {value : List Char} {absolute : Bool} {lineSpan : Option (List Char)}
    {candidate : PathCandidate} (found : pathCandidate value absolute lineSpan = some candidate) :
    '.' ∈ value ∧ candidate.path = value ∧ candidate.absolute = absolute ∧
      candidate.lineSpan = lineSpan ∧ candidate.basename = behindLast '/' value := by
  unfold pathCandidate at found
  split at found
  · rename_i isPathValue
    cases found
    simp only [isPath, Bool.and_eq_true, decide_eq_true_eq] at isPathValue
    exact ⟨isPathValue.1.1, rfl, rfl, rfl, rfl⟩
  · cases found

theorem pathCandidate_span {value : List Char} {absolute : Bool} {lineSpan : Option (List Char)}
    {candidate : PathCandidate} (found : pathCandidate value absolute lineSpan = some candidate)
    (other : Option (List Char)) :
    pathCandidate value absolute other = some { candidate with lineSpan := other } := by
  unfold pathCandidate at found ⊢
  split at found
  · rename_i isPathValue
    cases found
    rw [if_pos isPathValue]
  · cases found

theorem readLineSpan_head {after span : List Char} (read : readLineSpan after = some span) :
    span.head? = some ':' := by
  unfold readLineSpan at read
  split at read
  · simp only at read
    split at read
    · cases read
    · split at read
      · split at read
        · cases read
          rfl
        · cases read
          rfl
      · cases read
        rfl
  · cases read

theorem trim_subset {run : List Char} {character : Char}
    (member : character ∈ Words.trim isRunEdge run) : character ∈ run :=
  (List.dropWhile_sublist _).subset ((List.rdropWhile_prefix _ _).subset member)

theorem classifyRun_paths {run : List Char} {lineSpan : Option (List Char)}
    (isRun : ∀ character ∈ run, isRunCharacter character = true)
    (colon : ∀ span ∈ lineSpan, span.head? = some ':') {candidate : PathCandidate}
    (member : candidate ∈ (classifyRun run lineSpan).paths) : candidate.IsScanned := by
  unfold classifyRun at member
  simp only at member
  split at member
  · exact absurd member List.not_mem_nil
  · split at member
    · rename_i other found
      obtain rfl := List.mem_singleton.mp member
      obtain ⟨_, pathEq, absoluteEq, spanEq, _⟩ := pathCandidate_eq_some found
      refine ⟨?_, ?_, ?_, ?_⟩
      · rw [pathEq, absoluteEq, spanEq]
        exact found
      · rw [pathEq]
        exact fun character member => isRun character (trim_subset member)
      · rw [pathEq]
        exact Words.trim_trim isRunEdge run
      · rw [spanEq]
        exact colon
    · exact absurd member List.not_mem_nil

theorem identifierCandidate_plain {segment identifier : List Char}
    (found : identifierCandidate segment = some identifier) : '.' ∉ identifier := by
  have same : segment = identifier ∧ segment.all isIdentifierCharacter = true := by
    unfold identifierCandidate at found
    split_ifs at found with blank <;>
      exact ⟨Option.some.inj found, by simpa using (not_or.mp blank).2⟩
  obtain ⟨rfl, plain⟩ := same
  intro member
  have := List.all_eq_true.mp plain '.' member
  exact absurd this (by decide)

theorem classifyRun_identifiers {run : List Char} {lineSpan : Option (List Char)}
    {identifier : List Char} (member : identifier ∈ (classifyRun run lineSpan).identifiers) :
    '.' ∉ identifier := by
  unfold classifyRun at member
  simp only at member
  split at member
  · exact absurd member List.not_mem_nil
  · split at member
    · exact absurd member List.not_mem_nil
    · obtain ⟨segment, _, found⟩ := List.mem_filterMap.mp member
      exact identifierCandidate_plain found

theorem scanText_paths {text : List Char} {candidate : PathCandidate}
    (member : candidate ∈ (scanText text).paths) : candidate.IsScanned := by
  induction text using scanText.induct with
  | case1 text none =>
      rw [scanText, none] at member
      exact absurd member List.not_mem_nil
  | case2 text first rest starts ih =>
      rw [scanText, starts] at member
      rcases List.mem_append.mp member with here | later
      · exact classifyRun_paths (fun character => List.mem_takeWhile_imp)
          (fun span => readLineSpan_head) here
      · exact ih later

theorem scanText_identifiers {text identifier : List Char}
    (member : identifier ∈ (scanText text).identifiers) : '.' ∉ identifier := by
  induction text using scanText.induct with
  | case1 text none =>
      rw [scanText, none] at member
      exact absurd member List.not_mem_nil
  | case2 text first rest starts ih =>
      rw [scanText, starts] at member
      rcases List.mem_append.mp member with here | later
      · exact classifyRun_identifiers here
      · exact ih later

theorem scanText_run {run : List Char} (nonempty : run ≠ [])
    (isRun : ∀ character ∈ run, isRunCharacter character = true) :
    scanText run = classifyRun run none := by
  cases run with
  | nil => exact absurd rfl nonempty
  | cons first rest =>
      have firstRun := isRun first List.mem_cons_self
      have starts : (first :: rest).dropWhile (fun character => !isRunCharacter character) =
          first :: rest := List.dropWhile_cons_of_neg (by simp [firstRun])
      have allRun : (first :: rest).dropWhile isRunCharacter = [] :=
        List.dropWhile_eq_nil_iff.mpr isRun
      have whole : (first :: rest).takeWhile isRunCharacter = first :: rest :=
        List.takeWhile_eq_self_iff.mpr isRun
      have nothingBehind : scanText (behindRun (first :: rest)) = ⟨[], []⟩ := by
        rw [behindRun, allRun, List.drop_nil, scanText]
        rfl
      rw [scanText]
      split
      · rename_i none
        rw [starts] at none
        cases none
      · rename_i other more startsToo
        rw [starts] at startsToo
        cases startsToo
        rw [nothingBehind, whole, allRun]
        simp [TextScan.absorb, readLineSpan]

/-- The spelling of a path, with the separator it began with. -/
def PathCandidate.spelling (candidate : PathCandidate) : List Char :=
  if candidate.absolute then '/' :: candidate.path else candidate.path

theorem scanText_spelling {candidate : PathCandidate} (scanned : candidate.IsScanned) :
    scanText candidate.spelling = ⟨[{ candidate with lineSpan := none }], []⟩ := by
  have dotted := (pathCandidate_eq_some scanned.reads).1
  have nonempty : candidate.path ≠ [] := List.ne_nil_of_mem dotted
  have found := pathCandidate_span scanned.reads none
  have trimmedSpelling : Words.trim isRunEdge candidate.spelling = candidate.path := by
    rw [PathCandidate.spelling]
    split
    · rw [Words.trim, List.dropWhile_cons_of_pos rfl]
      exact scanned.trimmed
    · exact scanned.trimmed
  have startsAbsolute : decide (candidate.spelling.head? = some '/') = candidate.absolute := by
    cases isAbsolute : candidate.absolute with
    | true => simp [PathCandidate.spelling, isAbsolute]
    | false =>
        rw [PathCandidate.spelling, isAbsolute, if_neg Bool.false_ne_true, decide_eq_false_iff_not]
        intro startsWith
        obtain ⟨rest, pathEq⟩ := List.head?_eq_some_iff.mp startsWith
        have plainHead := Words.head_trim (scanned.trimmed.trans pathEq)
        exact absurd plainHead (by decide)
  have nonemptySpelling : candidate.spelling ≠ [] := by
    rw [PathCandidate.spelling]
    split
    · exact List.cons_ne_nil _ _
    · exact nonempty
  have isRun : ∀ character ∈ candidate.spelling, isRunCharacter character = true := by
    rw [PathCandidate.spelling]
    split
    · intro character member
      rcases List.mem_cons.mp member with rfl | member
      · rfl
      · exact scanned.run character member
    · exact scanned.run
  rw [scanText_run nonemptySpelling isRun, classifyRun]
  simp only [trimmedSpelling, startsAbsolute, nonempty, found, if_false]

end SharedContext
