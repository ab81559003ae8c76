import SharedContext.TaskRuntime.ReferenceDerivation

/-!
# Hints across rebuilds

A derivation keeps a path as a hint when its resolver does not place it.  A
rebuild only has the placed References, and keeps the paths whose basename none
of them has.  Both keep the same hints exactly when the paths that are placed
are those named like a placed file.
-/

namespace SharedContext

variable {resolver : ClaimResolver} {paths : List PathCandidate} {symbols : List (List Char)}

/-! ### Files a resolver answers with -/

def MentionResolution.file? : MentionResolution → Option (String × String)
  | .placed reference => some reference.key
  | .ambiguous _ | .unplaced => none

/-- The files answered for the paths of a Claim, or if there are none, the first
ones answered for its type names. -/
def answeredFiles (resolver : ClaimResolver) (paths : List PathCandidate)
    (symbols : List (List Char)) : List (String × String) :=
  let byPath := paths.filterMap fun candidate => (resolver.resolvePath candidate).file?
  if byPath = [] then
    (appendNew [] (symbols.filterMap fun symbol => (resolver.resolveSymbol symbol).file?)).take
      maxSymbolDerivedReferencesPerClaim
  else byPath

private theorem filterMap_cons_toList {α β : Type} (answer : α → Option β) (first : α)
    (rest : List α) :
    (first :: rest).filterMap answer = (answer first).toList ++ rest.filterMap answer := by
  cases found : answer first with
  | none => simp [found]
  | some value => simp [found]

def placedKeys (placed : List ResolvedMentions) : List (String × String) :=
  placed.map fun entry => entry.reference.key

theorem placedKeys_absorbReference (placed : List ResolvedMentions)
    (reference : ResolvedReference) (order : Nat) :
    placedKeys (absorbReference placed reference order) =
      appendNew (placedKeys placed) [reference.key] := by
  rw [appendNew_cons, appendNew_nil, absorbReference]
  change (placedKeys (if reference.key ∈ placedKeys placed then _ else _)) = _
  by_cases known : reference.key ∈ placedKeys placed
  · rw [if_pos known, if_pos known, placedKeys, placedKeys, List.map_map]
    refine List.map_congr_left fun entry _ => ?_
    simp only [Function.comp_apply]
    split
    · rfl
    · rfl
  · rw [if_neg known, if_neg known]
    simp [placedKeys]

theorem placedKeys_readPathMention (read : ReadMentions) (candidate : PathCandidate)
    (order : Nat) :
    placedKeys (readPathMention resolver read candidate order).placed =
      appendNew (placedKeys read.placed) (resolver.resolvePath candidate).file?.toList := by
  unfold readPathMention
  cases resolver.resolvePath candidate with
  | placed reference => exact placedKeys_absorbReference _ _ _
  | ambiguous matchCount => rfl
  | unplaced => rfl

theorem readPathMentions_cons (entry : PathCandidate × Nat) (rest : List (PathCandidate × Nat))
    (read : ReadMentions) :
    readPathMentions resolver (entry :: rest) read =
      readPathMentions resolver rest (readPathMention resolver read entry.1 entry.2) :=
  rfl

theorem placedKeys_readPaths (entries : List (PathCandidate × Nat)) (read : ReadMentions) :
    placedKeys (readPathMentions resolver entries read).placed =
      appendNew (placedKeys read.placed)
        (entries.filterMap fun entry => (resolver.resolvePath entry.1).file?) := by
  induction entries generalizing read with
  | nil => rfl
  | cons entry rest ih =>
      rw [readPathMentions_cons, ih, placedKeys_readPathMention, ← appendNew_append,
        filterMap_cons_toList]

theorem mem_hints_readPaths {entries : List (PathCandidate × Nat)} {read : ReadMentions}
    {hint : List Char} :
    hint ∈ (readPathMentions resolver entries read).hints ↔ hint ∈ read.hints ∨
      ∃ entry ∈ entries, (resolver.resolvePath entry.1).file? = none ∧
        entry.1.hintText = hint := by
  induction entries generalizing read with
  | nil => simp [readPathMentions]
  | cons entry rest ih =>
      rw [readPathMentions_cons, ih, readPathMention]
      cases answer : resolver.resolvePath entry.1 with
      | placed reference => simp [answer, MentionResolution.file?]
      | ambiguous matchCount =>
          simp [answer, MentionResolution.file?, eq_comm, or_comm, or_assoc]
      | unplaced =>
          simp [answer, MentionResolution.file?, eq_comm, or_comm, or_assoc]

theorem hints_readSymbolMentions (symbols : List (List Char)) (order : Nat)
    (read : ReadMentions) :
    (readSymbolMentions resolver symbols order read).hints = read.hints := by
  induction symbols generalizing order read with
  | nil => rfl
  | cons symbol rest ih =>
      rw [readSymbolMentions]
      split
      · rfl
      · rw [ih, readSymbolMention]
        cases resolver.resolveSymbol symbol with
        | placed reference => rfl
        | ambiguous matchCount => rfl
        | unplaced => rfl

theorem placedKeys_readSymbolMention (read : ReadMentions) (symbol : List Char) (order : Nat) :
    placedKeys (readSymbolMention resolver read symbol order).placed =
      appendNew (placedKeys read.placed) (resolver.resolveSymbol symbol).file?.toList := by
  unfold readSymbolMention
  cases resolver.resolveSymbol symbol with
  | placed reference => exact placedKeys_absorbReference _ _ _
  | ambiguous matchCount => rfl
  | unplaced => rfl

theorem placedKeys_readSymbolMentions (symbols : List (List Char)) (order : Nat)
    {read : ReadMentions} (bounded : read.placed.length ≤ maxSymbolDerivedReferencesPerClaim) :
    placedKeys (readSymbolMentions resolver symbols order read).placed =
      (appendNew (placedKeys read.placed)
        (symbols.filterMap fun symbol => (resolver.resolveSymbol symbol).file?)).take
          maxSymbolDerivedReferencesPerClaim := by
  have keysLength (placed : List ResolvedMentions) :
      (placedKeys placed).length = placed.length := List.length_map _
  induction symbols generalizing order read with
  | nil =>
      rw [readSymbolMentions, List.filterMap_nil, appendNew_nil, List.take_of_length_le]
      rw [keysLength]
      exact bounded
  | cons symbol rest ih =>
      rw [readSymbolMentions]
      split
      · rename_i full
        obtain ⟨new, newEq, _⟩ := exists_appendNew_eq (placedKeys read.placed)
          ((symbol :: rest).filterMap fun symbol => (resolver.resolveSymbol symbol).file?)
        rw [newEq, List.take_append_of_le_length, List.take_of_length_le]
        · rw [keysLength]
          exact bounded
        · rw [keysLength, full]
      · rename_i notFull
        have keys := @placedKeys_readSymbolMention resolver read symbol order
        have stillBounded : (readSymbolMention resolver read symbol order).placed.length ≤
            maxSymbolDerivedReferencesPerClaim := by
          have lengthEq := congrArg List.length keys
          rw [keysLength] at lengthEq
          have oneMore : (appendNew (placedKeys read.placed)
              (resolver.resolveSymbol symbol).file?.toList).length ≤ read.placed.length + 1 := by
            cases (resolver.resolveSymbol symbol).file? with
            | none => simp [keysLength]
            | some key =>
                rw [Option.toList_some, appendNew_cons, appendNew_nil]
                split <;> simp [keysLength]
          omega
        rw [ih _ stillBounded, keys, ← appendNew_append, filterMap_cons_toList]

theorem mem_placedKeys_readMentions {key : String × String} :
    key ∈ placedKeys (readMentions resolver paths symbols).placed ↔
      key ∈ answeredFiles resolver paths symbols := by
  have pathKeys := @placedKeys_readPaths resolver paths.zipIdx ⟨[], ∅, ∅⟩
  have sameAnswers : (paths.zipIdx.filterMap fun entry => (resolver.resolvePath entry.1).file?) =
      paths.filterMap fun candidate => (resolver.resolvePath candidate).file? := by
    conv_rhs => rw [← List.zipIdx_map_fst 0 paths, List.filterMap_map]
    rfl
  rw [sameAnswers] at pathKeys
  change _ = appendNew [] _ at pathKeys
  rw [readMentions, answeredFiles]
  by_cases nonePlaced : (readPathMentions resolver paths.zipIdx ⟨[], ∅, ∅⟩).placed = []
  · have noAnswers : (paths.filterMap fun candidate =>
        (resolver.resolvePath candidate).file?) = [] := by
      rw [nonePlaced] at pathKeys
      by_contra someAnswer
      obtain ⟨answer, member⟩ := List.exists_mem_of_ne_nil _ someAnswer
      have isPlaced : answer ∈ appendNew [] _ := mem_appendNew.mpr (Or.inr member)
      rw [← pathKeys] at isPlaced
      exact absurd isPlaced List.not_mem_nil
    simp only [nonePlaced, noAnswers, if_true]
    rw [placedKeys_readSymbolMentions _ _ (by simp [nonePlaced]), nonePlaced]
    rfl
  · have someAnswer : (paths.filterMap fun candidate =>
        (resolver.resolvePath candidate).file?) ≠ [] := by
      intro noAnswers
      rw [noAnswers, appendNew_nil] at pathKeys
      exact nonePlaced (List.map_eq_nil_iff.mp pathKeys)
    simp only [nonePlaced, someAnswer, if_false]
    rw [pathKeys, mem_appendNew]
    simp

/-! ### Both hint sets -/

theorem basename_of_hintText {first second : PathCandidate} (firstScanned : first.IsScanned)
    (secondScanned : second.IsScanned) (same : first.hintText = second.hintText) :
    first.basename = second.basename := by
  have pathOf : ∀ {candidate : PathCandidate}, candidate.IsScanned →
      candidate.hintText.takeWhile (· ≠ ':') = candidate.path := by
    intro candidate scanned
    have noColon : ∀ character ∈ candidate.path, decide (character ≠ ':') = true := by
      intro character member
      have isRun := scanned.run character member
      rw [decide_eq_true_eq]
      rintro rfl
      exact absurd isRun (by decide)
    rw [PathCandidate.hintText, List.takeWhile_append_of_pos noColon]
    cases hasSpan : candidate.lineSpan with
    | none => simp
    | some span =>
        obtain ⟨rest, rfl⟩ := List.head?_eq_some_iff.mp (scanned.span span hasSpan)
        simp
  have samePath : first.path = second.path := by
    rw [← pathOf firstScanned, same, pathOf secondScanned]
  rw [(pathCandidate_eq_some firstScanned.reads).2.2.2.2,
    (pathCandidate_eq_some secondScanned.reads).2.2.2.2, samePath]

section Claim

variable (kind : ContextKind) (statement rationale : String) (evidenceSummaries : List String)

theorem claimPathCandidates_scanned {candidate : PathCandidate}
    (member : candidate ∈ claimPathCandidates statement rationale evidenceSummaries) :
    candidate.IsScanned := by
  obtain ⟨text, _, found⟩ := List.mem_flatMap.mp member
  exact scanText_paths found

theorem hintText_not_identifier {candidate : PathCandidate} (scanned : candidate.IsScanned) :
    candidate.hintText ∉ claimIdentifiers statement rationale evidenceSummaries := by
  intro member
  obtain ⟨text, _, found⟩ := List.mem_flatMap.mp member
  have dotted := (pathCandidate_eq_some scanned.reads).1
  exact scanText_identifiers found (List.mem_append_left _ dotted)

variable {statement rationale evidenceSummaries}

theorem mem_unresolvedHints {hint : List Char} :
    hint ∈ (deriveClaimReferences kind statement rationale evidenceSummaries
        resolver).unresolvedHints ↔
      (∃ candidate ∈ claimPathCandidates statement rationale evidenceSummaries,
        (resolver.resolvePath candidate).file? = none ∧ candidate.hintText = hint) ∨
      hint ∈ claimIdentifiers statement rationale evidenceSummaries := by
  have fromPaths (paths : List PathCandidate) (symbols : List (List Char)) :
      hint ∈ (readMentions resolver paths symbols).hints ↔ ∃ candidate ∈ paths,
        (resolver.resolvePath candidate).file? = none ∧ candidate.hintText = hint := by
    have sameHints : (readMentions resolver paths symbols).hints =
        (readPathMentions resolver paths.zipIdx ⟨[], ∅, ∅⟩).hints := by
      rw [readMentions]
      split
      · exact hints_readSymbolMentions _ _ _
      · rfl
    rw [sameHints, mem_hints_readPaths]
    constructor
    · rintro (absent | ⟨⟨candidate, order⟩, member, unplaced, same⟩)
      · exact absurd absent (Finset.notMem_empty _)
      · have inPaths := List.mem_map_of_mem (f := Prod.fst) member
        rw [List.zipIdx_map_fst] at inPaths
        exact ⟨candidate, inPaths, unplaced, same⟩
    · rintro ⟨candidate, member, unplaced, same⟩
      rw [← List.zipIdx_map_fst 0 paths] at member
      obtain ⟨entry, entryMem, rfl⟩ := List.mem_map.mp member
      exact Or.inr ⟨entry, entryMem, unplaced, same⟩
  rw [deriveClaimReferences]
  simp only [Finset.mem_union, List.mem_toFinset, fromPaths]

theorem mem_claimHints {resolved : List EngineeringReferenceDraft} {hint : List Char} :
    hint ∈ claimHints statement rationale evidenceSummaries resolved ↔
      (∃ candidate ∈ claimPathCandidates statement rationale evidenceSummaries,
        (∀ reference ∈ resolved,
          behindLast '/' reference.locator.path.text.toList ≠ candidate.basename) ∧
        candidate.hintText = hint) ∨
      hint ∈ claimIdentifiers statement rationale evidenceSummaries := by
  rw [claimHints]
  simp only [List.toFinset_append, Finset.mem_union, List.mem_toFinset, List.mem_map,
    List.mem_filter, decide_eq_true_eq, not_exists, not_and, and_assoc]

/-- A path is named like one of the files that are placed. -/
def NamedLikeAnswer (resolver : ClaimResolver) (statement rationale : String)
    (evidenceSummaries : List String) (candidate : PathCandidate) : Prop :=
  ∃ file ∈ answeredFiles resolver (claimPathCandidates statement rationale evidenceSummaries)
      (claimSymbolMentions statement rationale evidenceSummaries),
    behindLast '/' file.2.toList = candidate.basename

/-- A path is placed, in all its spellings with one hint text. -/
def PlacedThroughout (resolver : ClaimResolver) (statement rationale : String)
    (evidenceSummaries : List String) (candidate : PathCandidate) : Prop :=
  ∀ other ∈ claimPathCandidates statement rationale evidenceSummaries,
    other.hintText = candidate.hintText → (resolver.resolvePath other).file? ≠ none

theorem named_iff_reference {candidate : PathCandidate} :
    NamedLikeAnswer resolver statement rationale evidenceSummaries candidate ↔
      ∃ reference ∈ (deriveClaimReferences kind statement rationale evidenceSummaries
          resolver).engineeringReferences,
        behindLast '/' reference.locator.path.text.toList = candidate.basename := by
  have sameKeys : ∀ file, file ∈ answeredFiles resolver
      (claimPathCandidates statement rationale evidenceSummaries)
      (claimSymbolMentions statement rationale evidenceSummaries) ↔
      ∃ reference ∈ (deriveClaimReferences kind statement rationale evidenceSummaries
        resolver).engineeringReferences,
        (reference.repositoryId.text, reference.locator.path.text) = file := by
    intro file
    rw [← mem_placedKeys_readMentions, placedKeys, List.mem_map]
    simp only [deriveClaimReferences, orderedMentions, List.mem_map, List.mem_insertionSort]
    constructor
    · rintro ⟨entry, member, rfl⟩
      exact ⟨_, ⟨entry, member, rfl⟩, rfl⟩
    · rintro ⟨_, ⟨entry, member, rfl⟩, rfl⟩
      exact ⟨entry, member, rfl⟩
  constructor
  · rintro ⟨file, answered, named⟩
    obtain ⟨reference, member, rfl⟩ := (sameKeys file).mp answered
    exact ⟨reference, member, named⟩
  · rintro ⟨reference, member, named⟩
    exact ⟨_, (sameKeys _).mpr ⟨reference, member, rfl⟩, named⟩

/-- A rebuild keeps the hints of the derivation exactly when the paths that are
placed are those named like a placed file. -/
theorem claimHints_stable_iff :
    claimHints statement rationale evidenceSummaries
        (deriveClaimReferences kind statement rationale evidenceSummaries
          resolver).engineeringReferences =
      (deriveClaimReferences kind statement rationale evidenceSummaries
        resolver).unresolvedHints ↔
    ∀ candidate ∈ claimPathCandidates statement rationale evidenceSummaries,
      NamedLikeAnswer resolver statement rationale evidenceSummaries candidate ↔
        PlacedThroughout resolver statement rationale evidenceSummaries candidate := by
  have inClaimHints : ∀ candidate ∈ claimPathCandidates statement rationale evidenceSummaries,
      candidate.hintText ∈ claimHints statement rationale evidenceSummaries
        (deriveClaimReferences kind statement rationale evidenceSummaries
          resolver).engineeringReferences ↔
      ¬ NamedLikeAnswer resolver statement rationale evidenceSummaries candidate := by
    intro candidate member
    have scanned := claimPathCandidates_scanned _ _ _ member
    rw [mem_claimHints, or_iff_left (hintText_not_identifier _ _ _ scanned),
      named_iff_reference kind]
    push Not
    constructor
    · rintro ⟨other, otherMem, unnamed, sameHint⟩
      rw [← basename_of_hintText (claimPathCandidates_scanned _ _ _ otherMem) scanned sameHint]
      exact unnamed
    · intro unnamed
      exact ⟨candidate, member, unnamed, rfl⟩
  have inUnresolved : ∀ candidate ∈ claimPathCandidates statement rationale evidenceSummaries,
      candidate.hintText ∈ (deriveClaimReferences kind statement rationale evidenceSummaries
        resolver).unresolvedHints ↔
      ¬ PlacedThroughout resolver statement rationale evidenceSummaries candidate := by
    intro candidate member
    have scanned := claimPathCandidates_scanned _ _ _ member
    rw [mem_unresolvedHints, or_iff_left (hintText_not_identifier _ _ _ scanned),
      PlacedThroughout]
    push Not
    constructor
    · rintro ⟨other, otherMem, unplaced, sameHint⟩
      exact ⟨other, otherMem, sameHint, unplaced⟩
    · rintro ⟨other, otherMem, sameHint, unplaced⟩
      exact ⟨other, otherMem, unplaced, sameHint⟩
  constructor
  · intro same candidate member
    have unnamed := inClaimHints candidate member
    rw [same, inUnresolved candidate member] at unnamed
    exact (not_iff_not.mp unnamed).symm
  · intro agree
    ext hint
    have isPath : ∀ candidate ∈ claimPathCandidates statement rationale evidenceSummaries,
        candidate.hintText = hint →
        (hint ∈ claimHints statement rationale evidenceSummaries
            (deriveClaimReferences kind statement rationale evidenceSummaries
              resolver).engineeringReferences ↔
          hint ∈ (deriveClaimReferences kind statement rationale evidenceSummaries
            resolver).unresolvedHints) := by
      rintro candidate member rfl
      rw [inClaimHints candidate member, inUnresolved candidate member, agree candidate member]
    constructor
    · intro inHints
      rcases mem_claimHints.mp inHints with ⟨candidate, member, _, sameHint⟩ | identifier
      · exact (isPath candidate member sameHint).mp inHints
      · exact (mem_unresolvedHints kind).mpr (Or.inr identifier)
    · intro inUnresolvedHints
      rcases (mem_unresolvedHints kind).mp inUnresolvedHints with
        ⟨candidate, member, _, sameHint⟩ | identifier
      · exact (isPath candidate member sameHint).mpr inUnresolvedHints
      · exact mem_claimHints.mpr (Or.inr identifier)

end Claim

/-- A checkout that tracks `src/a/Foo.kt` alone. -/
def oneFileResolver : ClaimResolver where
  resolvePath candidate :=
    if candidate.path = "src/a/Foo.kt".toList then
      .placed ⟨⟨"repository"⟩, ⟨"src/a/Foo.kt"⟩, false, false⟩
    else .unplaced
  resolveSymbol _ := .unplaced

/-- A file that is not tracked, named like one that is, is no hint any more when
the derivation is rebuilt. -/
theorem namesake_hint_lost :
    ¬ (claimHints "src/a/Foo.kt replaces src/b/Foo.kt" "" []
        (deriveClaimReferences .progress "src/a/Foo.kt replaces src/b/Foo.kt" "" []
          oneFileResolver).engineeringReferences =
      (deriveClaimReferences .progress "src/a/Foo.kt replaces src/b/Foo.kt" "" []
        oneFileResolver).unresolvedHints) := by
  decide +kernel

end SharedContext
