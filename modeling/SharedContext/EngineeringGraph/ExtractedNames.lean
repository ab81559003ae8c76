import SharedContext.EngineeringGraph.Extractors
import SharedContext.EngineeringGraph.ScanEvidence

/-!
# Extracted names

What the extractors cut out of a line can name an artifact: declarations have
names and signatures, whatever the line, but for a Java method shape that
begins with a brace or an equals sign.
-/

namespace SharedContext.EngineeringGraph

open SharedContext.Words

/-! ### Blank text -/

theorem isBlank_ofList (characters : List Char) :
    isBlank (String.ofList characters) = false ↔ words isWhiteSpace characters ≠ [] := by
  rw [Ne, words_eq_nil_iff]
  simp [isBlank]

theorem isBlank_eq_false_iff {value : String} :
    isBlank value = false ↔ words isWhiteSpace value.toList ≠ [] := by
  simpa using isBlank_ofList value.toList

theorem splitWhitespaceCount_ofList (characters : List Char) :
    splitWhitespaceCount (String.ofList characters) = (words isWhiteSpace characters).length := by
  simp [splitWhitespaceCount, words]

theorem isBlank_append_right {first second : String} (notBlank : isBlank second = false) :
    isBlank (first ++ second) = false := by
  simp_all [isBlank]

/-! ### Names -/

/-- A name without white space. -/
def IsName (name : List Char) : Prop :=
  name ≠ [] ∧ ∀ character ∈ name, isWhiteSpace character = false

theorem IsName.words {name : List Char} (named : IsName name) :
    Words.words isWhiteSpace name = [name] :=
  words_eq_singleton named.1 named.2

theorem IsName.notBlank {name : List Char} (named : IsName name) :
    isBlank (String.ofList name) = false := by
  rw [isBlank_ofList, named.words]
  simp

section Declarations

variable {classes : CharacterClasses}

theorem isIdentifierPart_plain {character : Char}
    (part : isIdentifierPart classes character = true) : isWhiteSpace character = false := by
  simp only [isIdentifierPart, Bool.or_eq_true, decide_eq_true_eq] at part
  rcases part with alphanumeric | rfl
  · exact classes.alphanumericPlain character alphanumeric
  · rfl

theorem isName_of_identifier {value name : List Char}
    (identified : identifier classes value = some name) : IsName name := by
  simp only [identifier, ite_eq_iff, reduceCtorEq, and_false, Option.some.injEq, false_or]
    at identified
  obtain ⟨nonempty, rfl⟩ := identified
  exact ⟨nonempty, fun character member =>
    isIdentifierPart_plain (List.mem_takeWhile_imp member)⟩

theorem mem_declarationTokens {line name : List Char} {kind : ArtifactKind}
    {patterns : List (String × ArtifactKind)}
    (declared : (kind, name) ∈ declarationTokens classes line patterns) :
    IsName name ∧ ∃ start, (start, kind) ∈ patterns ∧ start.toList <+: line := by
  obtain found | ⟨-, isNil⟩ :=
    Option.getD_eq_iff.mp (Eq.refl (declarationTokens classes line patterns))
  · obtain ⟨⟨start, startKind⟩, listed, token⟩ := List.exists_of_findSome?_eq_some found
    simp only [Option.map_eq_some_iff, Option.bind_eq_some_iff, stripPrefix] at token
    obtain ⟨identified, ⟨tail, stripped, named⟩, tokensEq⟩ := token
    rw [← tokensEq, List.mem_singleton, Prod.mk.injEq] at declared
    obtain ⟨rfl, rfl⟩ := declared
    split at stripped
    · exact ⟨isName_of_identifier named, start, listed, by assumption⟩
    · simp at stripped
  · rw [← isNil] at declared
    simp at declared

end Declarations

/-! ### Prefixes -/

theorem stripPrefixes_cases (prefixes : List String) (line : List Char) :
    stripPrefixes prefixes line = line ∨ ∃ start ∈ prefixes, start.toList <+: line := by
  unfold stripPrefixes
  cases line with
  | nil => exact Or.inl rfl
  | cons first rest =>
      simp only [List.length_cons, stripPrefixesWithin]
      cases found : prefixes.find? fun start => start.toList <+: first :: rest with
      | none => exact Or.inl rfl
      | some start =>
          exact Or.inr ⟨start, List.mem_of_find?_eq_some found,
            by simpa using List.find?_some found⟩

/-! ### Signatures -/

/-- A trimmed line that begins with no brace and no equals sign. -/
def startsSignature (trimmed : List Char) : Bool :=
  trimmed.head?.any fun character => !endsSignature character

theorem startsSignature_of_prefix {start : String} {line : List Char}
    (starts : startsSignature start.toList = true) (isPrefix : start.toList <+: line) :
    startsSignature line = true := by
  obtain ⟨rest, rfl⟩ := isPrefix
  cases split : start.toList with
  | nil => simp [split, startsSignature] at starts
  | cons first others => simpa [split, startsSignature] using starts

/-! ### Lines -/

theorem dropReturn_subset (line : List Char) : dropReturn line ⊆ line := by
  unfold dropReturn
  split
  · exact List.dropLast_subset line
  · exact List.Subset.refl line

theorem newline_notMem_lines {text line : List Char} (member : line ∈ lines text) :
    '\n' ∉ line := by
  have singlePieces : ∀ piece ∈ text.splitOn '\n', '\n' ∉ piece := by
    intro piece listed newline
    rw [List.splitOn_eq_splitOnP] at listed
    simpa using plain_of_mem_splitOnP listed '\n' newline
  simp only [lines, List.mem_append, List.mem_map, List.mem_filter, Option.mem_toList]
    at member
  rcases member with ⟨piece, listed, rfl⟩ | ⟨last, -⟩
  · exact fun newline => singlePieces piece (List.mem_of_mem_dropLast listed)
      (dropReturn_subset piece newline)
  · exact singlePieces line (List.mem_of_getLast? last)

theorem head?_lines {line rest : List Char} (single : '\n' ∉ line) :
    (lines (line ++ '\n' :: rest)).head? = some (dropReturn line) := by
  have split : (line ++ '\n' :: rest).splitOn '\n' = line :: rest.splitOn '\n' := by
    rw [List.splitOn_eq_splitOnP, List.splitOn_eq_splitOnP]
    refine List.splitOnP_append_cons_of_forall_mem ?_ '\n' (by simp) rest
    intro character member
    rw [beq_eq_false_iff_ne]
    rintro rfl
    exact single member
  obtain ⟨next, others, restSplit⟩ :=
    List.exists_cons_of_ne_nil (List.splitOn_ne_nil '\n' rest)
  simp [lines, split, restSplit]

theorem head?_declarationSource {line : List Char} (rest : List (List Char))
    (single : '\n' ∉ line) :
    (lines (declarationSource (line :: rest))).head? = some (dropReturn line) :=
  head?_lines single

theorem head?_trimLine (line : List Char) :
    (trimLine line).head? = (line.dropWhile isWhiteSpace).head? := by
  by_cases someWord : words isWhiteSpace line = []
  · have dropped : line.dropWhile isWhiteSpace = [] :=
      List.dropWhile_eq_nil_iff.mpr (words_eq_nil_iff.mp someWord)
    simp [trimLine, trim, dropped]
  · obtain ⟨trimmed, -, -, sameHead⟩ := trim_ends someWord
    rw [sameHead]
    exact List.head?_eq_some_head trimmed

theorem head?_dropWhile_dropReturn (line : List Char) :
    ((dropReturn line).dropWhile isWhiteSpace).head? =
      (line.dropWhile isWhiteSpace).head? := by
  unfold dropReturn
  split
  · rename_i returned
    obtain ⟨kept, rfl⟩ := List.getLast?_eq_some_iff.mp returned
    have returnSpace : isWhiteSpace '\r' = true := by decide
    rw [List.dropLast_concat, List.dropWhile_append]
    cases dropped : kept.dropWhile isWhiteSpace <;> simp [returnSpace]
  · rfl

theorem words_takeWhile_iff (line : List Char) :
    words isWhiteSpace (line.takeWhile fun character => !endsSignature character) ≠ [] ↔
      startsSignature (line.dropWhile isWhiteSpace) = true := by
  induction line with
  | nil => simp [startsSignature]
  | cons first rest ih =>
      cases space : isWhiteSpace first with
      | true =>
          have within : endsSignature first = false := by
            by_contra ends
            simp only [endsSignature, Bool.not_eq_false, Bool.or_eq_true,
              decide_eq_true_eq] at ends
            rcases ends with rfl | rfl <;> revert space <;> decide
          simpa [within, space] using ih
      | false =>
          cases ends : endsSignature first with
          | true => simp [ends, space, startsSignature]
          | false => simp [ends, space, startsSignature, words_cons_ne_nil _ space]

theorem words_intercalate_iff {runs : List (List Char)} (named : ∀ run ∈ runs, IsName run) :
    words isWhiteSpace (List.intercalate [' '] runs) ≠ [] ↔ runs ≠ [] := by
  cases runs with
  | nil => simp
  | cons run others =>
      obtain ⟨first, rest, split⟩ := List.exists_cons_of_ne_nil (named run (by simp)).1
      have plain := (named run (by simp)).2 first (by simp [split])
      cases others with
      | nil => simpa [split] using words_cons_ne_nil rest plain
      | cons next others => simpa [split, List.intercalate] using words_cons_ne_nil _ plain

theorem signature_notBlank_iff {line : List Char} (rest : List (List Char))
    (single : '\n' ∉ line) :
    isBlank (normalizeSignature (String.ofList (declarationSource (line :: rest)))) = false ↔
      startsSignature (trimLine line) = true := by
  have sameStart : startsSignature (trimLine line) =
      startsSignature ((dropReturn line).dropWhile isWhiteSpace) := by
    simp only [startsSignature, head?_trimLine, head?_dropWhile_dropReturn]
  rw [sameStart, ← words_takeWhile_iff, ← words_intercalate_iff, ← isBlank_ofList]
  · simp [normalizeSignature, head?_declarationSource rest single]
  · exact fun run member => ⟨ne_nil_of_mem_words member, plain_of_mem_words member⟩

/-! ### Declarations -/

section Parsers

variable {classes : CharacterClasses} {line name : List Char} {kind : ArtifactKind}

/-- A line with the shape of a Java method, and of nothing with a keyword. -/
def declaresJavaMethod (classes : CharacterClasses) (line : List Char) : Bool :=
  let line := stripPrefixes javaPrefixes line
  (declarationTokens classes line javaPatterns).isEmpty && (javaMethodName classes line).isSome

/-- Patterns that begin a signature and declare no API. -/
def PlainPatterns (patterns : List (String × ArtifactKind)) : Prop :=
  ∀ pattern ∈ patterns, startsSignature pattern.1.toList = true ∧ pattern.2 ≠ .api

def PlainPrefixes (prefixes : List String) : Prop :=
  ∀ start ∈ prefixes, startsSignature start.toList = true

instance (patterns : List (String × ArtifactKind)) : Decidable (PlainPatterns patterns) :=
  inferInstanceAs (Decidable (∀ pattern ∈ patterns, _))

instance (prefixes : List String) : Decidable (PlainPrefixes prefixes) :=
  inferInstanceAs (Decidable (∀ start ∈ prefixes, _))

theorem declarationTokens_plain {prefixes : List String}
    {patterns : List (String × ArtifactKind)} (plainPrefixes : PlainPrefixes prefixes)
    (plainPatterns : PlainPatterns patterns)
    (declared : (kind, name) ∈
      declarationTokens classes (stripPrefixes prefixes line) patterns) :
    IsName name ∧ kind ≠ .api ∧ startsSignature line = true := by
  obtain ⟨named, start, listed, isPrefix⟩ := mem_declarationTokens declared
  refine ⟨named, (plainPatterns _ listed).2, ?_⟩
  rcases stripPrefixes_cases prefixes line with unstripped | ⟨first, firstListed, isFirst⟩
  · rw [unstripped] at isPrefix
    exact startsSignature_of_prefix (plainPatterns _ listed).1 isPrefix
  · exact startsSignature_of_prefix (plainPrefixes first firstListed) isFirst

theorem isName_of_javaMethodName (found : javaMethodName classes line = some name) :
    IsName name := by
  simp only [javaMethodName, ite_eq_iff, reduceCtorEq, and_false, false_or] at found
  obtain ⟨-, -, found⟩ := found
  split at found
  · simp at found
  · simp only [ite_eq_iff, reduceCtorEq, and_false, false_or, or_false,
      Option.some.injEq] at found
    obtain ⟨-, ⟨identified, -⟩, rfl⟩ := found
    exact isName_of_identifier identified

theorem plainRustPatterns (isTest : Bool) : PlainPatterns (rustPatterns isTest) := by
  cases isTest <;> decide

theorem plainKotlinPatterns (isTest : Bool) : PlainPatterns (kotlinPatterns isTest) := by
  cases isTest <;> decide

theorem declared_plain {language : SourceLanguage} {isTest : Bool}
    (declared : (kind, name) ∈ declarationParser classes language line isTest) :
    IsName name ∧ kind ≠ .api ∧ (startsSignature line = true ∨
      language = .java ∧ declaresJavaMethod classes line = true ∧
        kind = testOr isTest .symbol) := by
  cases language with
  | rust =>
      have plainPrefixes : PlainPrefixes rustPrefixes := by decide
      obtain ⟨named, notApi, starts⟩ :=
        declarationTokens_plain plainPrefixes (plainRustPatterns isTest) declared
      exact ⟨named, notApi, Or.inl starts⟩
  | typeScriptJavaScript =>
      have plainPrefixes : PlainPrefixes typescriptPrefixes := by decide
      have plainPatterns : PlainPatterns typescriptPatterns := by decide
      obtain ⟨named, notApi, starts⟩ :=
        declarationTokens_plain plainPrefixes plainPatterns declared
      exact ⟨named, notApi, Or.inl starts⟩
  | swift =>
      have plainPrefixes : PlainPrefixes swiftPrefixes := by decide
      have plainPatterns : PlainPatterns swiftPatterns := by decide
      simp only [declarationParser, swiftDeclaration, List.mem_map, Prod.mk.injEq,
        Prod.exists] at declared
      obtain ⟨token, name, declared, renamed, rfl⟩ := declared
      obtain ⟨named, notApi, starts⟩ :=
        declarationTokens_plain plainPrefixes plainPatterns declared
      refine ⟨named, ?_, Or.inl starts⟩
      rw [← renamed]
      split
      · simp
      · exact notApi
  | kotlin =>
      have plainPrefixes : PlainPrefixes kotlinPrefixes := by decide
      obtain ⟨named, notApi, starts⟩ :=
        declarationTokens_plain plainPrefixes (plainKotlinPatterns isTest) declared
      exact ⟨named, notApi, Or.inl starts⟩
  | java =>
      have plainPrefixes : PlainPrefixes javaPrefixes := by decide
      have plainPatterns : PlainPatterns javaPatterns := by decide
      simp only [declarationParser, javaDeclaration] at declared
      split at declared
      · rename_i noKeyword
        simp only [List.mem_map, Option.mem_toList, Prod.mk.injEq] at declared
        obtain ⟨name, found, rfl, rfl⟩ := declared
        refine ⟨isName_of_javaMethodName found, ?_, Or.inr ⟨rfl, ?_, rfl⟩⟩
        · cases isTest <;> simp [testOr]
        · simp [declaresJavaMethod, noKeyword, found]
      · obtain ⟨named, notApi, starts⟩ :=
          declarationTokens_plain plainPrefixes plainPatterns declared
        exact ⟨named, notApi, Or.inl starts⟩
  | json => simp [declarationParser] at declared
  | yaml => simp [declarationParser] at declared
  | proto => simp [declarationParser] at declared
  | xml => simp [declarationParser] at declared

theorem javaDeclaration_method (isTest : Bool) (shaped : declaresJavaMethod classes line = true) :
    ∃ name, (testOr isTest .symbol, name) ∈ javaDeclaration classes line isTest := by
  simp only [declaresJavaMethod, Bool.and_eq_true, List.isEmpty_iff,
    Option.isSome_iff_exists] at shaped
  obtain ⟨noKeyword, name, found⟩ := shaped
  exact ⟨name, by simp [javaDeclaration, noKeyword, found]⟩

end Parsers

end SharedContext.EngineeringGraph
