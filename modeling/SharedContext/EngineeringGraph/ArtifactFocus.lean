import SharedContext.EngineeringGraph.Resolver
import SharedContext.Library.BTreeMap
import SharedContext.Library.FirstOccurrences

/-!
# The Contexts of a file

A reminder asks which accepted Contexts the projection associates with one file.
The limit is set on the pairs of Contexts and revisions that are read, before it
is known which of them may be shown.
-/

namespace SharedContext.EngineeringGraph

/-- One accepted Context associated with the file. -/
structure ArtifactFocusHit where
  contextId : ContextId
  statement : String
  deriving DecidableEq, Repr

inductive ArtifactFocusOutcome
  | completed
  | projectionAbsent
  | budgetExceeded
  deriving DecidableEq, Repr

structure ArtifactFocusLookup where
  hits : List ArtifactFocusHit
  outcome : ArtifactFocusOutcome
  deriving DecidableEq, Repr

section Lookup

variable (projection : EngineeringProjection) (artifact : ArtifactKey)

/-- The Context revisions with a reference to an artifact, in order. -/
def focusPairs : List (ContextId ×ₗ RevisionId) :=
  BTreeMap.ordered ((projection.references.filter fun reference =>
    reference.association.any fun association => association.artifactKey = artifact).map
      fun reference => toLex (reference.contextId, reference.revisionId)).toFinset

/-- The statement of a Context revision that is accepted and may be injected. -/
def acceptedStatement (pair : ContextId ×ₗ RevisionId) : Option String :=
  (projection.contexts.find? fun snapshot => toLex snapshot.key = pair ∧
    snapshot.status = .accepted ∧ snapshot.safety.automaticInjectionEligible = true).map
      fun snapshot => snapshot.revision.statement

local instance lawfulBEq_hitContext : LawfulBEq ContextId := inferInstance

def pushHit (hits : List ArtifactFocusHit) (pair : ContextId ×ₗ RevisionId) :
    List ArtifactFocusHit :=
  match acceptedStatement projection pair with
  | some statement =>
      if (ofLex pair).1 ∈ hits.map ArtifactFocusHit.contextId then hits
      else hits ++ [⟨(ofLex pair).1, statement⟩]
  | none => hits

def collectHits (pairs : List (ContextId ×ₗ RevisionId)) : List ArtifactFocusHit :=
  pairs.foldl (pushHit projection) []

def maxSqlLimit : Nat := 2 ^ 63 - 1

def readPairs (limit : Nat) : List (ContextId ×ₗ RevisionId) :=
  (focusPairs projection artifact).take (min limit maxSqlLimit)

end Lookup

/-- Accepted Contexts associated with one file.  The clock is read before each row
and before each snapshot. -/
def acceptedContextsForFile (projection : Option EngineeringProjection)
    (repositoryId : RepositoryId) (relativePath : RepoRelativePath) (limit : Nat)
    (expired : Nat → Bool) : ArtifactFocusLookup :=
  if limit = 0 then ⟨[], .completed⟩
  else
    match projection with
    | none => ⟨[], .projectionAbsent⟩
    | some projection =>
        let pairs := readPairs projection ⟨repositoryId, .file relativePath⟩ limit
        if (List.range (pairs.length + pairs.length)).any expired then ⟨[], .budgetExceeded⟩
        else ⟨(collectHits projection pairs).take limit, .completed⟩

/-! ### What is asked for -/

section Answers

variable (projection : EngineeringProjection) (artifact : ArtifactKey)

/-- The Contexts with a resolved reference to the artifact from a revision that is
accepted and may be injected. -/
def focusContexts : Finset ContextId :=
  ((projection.references.filter fun reference =>
    decide (reference.association.any fun association => association.artifactKey = artifact) &&
      projection.contexts.any fun snapshot =>
        decide (snapshot.key = (reference.contextId, reference.revisionId) ∧
          snapshot.status = .accepted ∧ snapshot.safety.automaticInjectionEligible = true)).map
    fun reference => reference.contextId).toFinset

/-- Whether the revision of a pair may be shown. -/
def IsShown (pair : ContextId ×ₗ RevisionId) : Prop :=
  ∃ snapshot ∈ projection.contexts, toLex snapshot.key = pair ∧
    snapshot.status = .accepted ∧ snapshot.safety.automaticInjectionEligible = true

instance : DecidablePred (IsShown projection) :=
  fun _ => inferInstanceAs (Decidable (∃ snapshot ∈ projection.contexts, _))

/-- The pairs read are all of different Contexts that may be shown, as many as asked
for; or no Context is shown for a pair that is not read alone. -/
def ReadsEnough (limit : Nat) : Prop :=
  ((readPairs projection artifact limit).length = limit ∧
    (∀ pair ∈ readPairs projection artifact limit, IsShown projection pair) ∧
    ((readPairs projection artifact limit).map fun pair => (ofLex pair).1).Nodup) ∨
  ∀ pair ∈ focusPairs projection artifact, IsShown projection pair →
    ∃ other ∈ readPairs projection artifact limit,
      IsShown projection other ∧ (ofLex other).1 = (ofLex pair).1

end Answers

/-! ### What is collected -/

section Collecting

variable {projection : EngineeringProjection} {artifact : ArtifactKey}

theorem acceptedStatement_isSome {pair : ContextId ×ₗ RevisionId} :
    (acceptedStatement projection pair).isSome ↔ IsShown projection pair := by
  simp [acceptedStatement, IsShown]

def shownContexts (projection : EngineeringProjection)
    (pairs : List (ContextId ×ₗ RevisionId)) : List ContextId :=
  (pairs.filter fun pair => IsShown projection pair).map fun pair => (ofLex pair).1

theorem contexts_foldl_pushHit (pairs : List (ContextId ×ₗ RevisionId))
    (hits : List ArtifactFocusHit) :
    (pairs.foldl (pushHit projection) hits).map ArtifactFocusHit.contextId =
      appendNew (hits.map ArtifactFocusHit.contextId) (shownContexts projection pairs) := by
  induction pairs generalizing hits with
  | nil => rfl
  | cons pair rest ih =>
      rw [List.foldl_cons, ih]
      cases shown : acceptedStatement projection pair with
      | none =>
          have notShown : ¬ IsShown projection pair := by
            rw [← acceptedStatement_isSome, shown]
            exact Bool.false_ne_true
          simp [pushHit, shown, shownContexts, notShown]
      | some statement =>
          have isShown : IsShown projection pair := by
            rw [← acceptedStatement_isSome, shown]
            rfl
          have firstShown : shownContexts projection (pair :: rest) =
              (ofLex pair).1 :: shownContexts projection rest := by
            simp [shownContexts, isShown]
          rw [firstShown, appendNew_cons]
          simp only [pushHit, shown]
          split
          · rfl
          · rw [List.map_append]
            rfl

theorem contexts_collectHits (pairs : List (ContextId ×ₗ RevisionId)) :
    (collectHits projection pairs).map ArtifactFocusHit.contextId =
      appendNew [] (shownContexts projection pairs) :=
  contexts_foldl_pushHit pairs []

theorem pairwise_appendNew {values : List ContextId}
    (sorted : values.Pairwise fun first second => first ≤ second) :
    (appendNew [] values).Pairwise fun first second => first < second := by
  obtain ⟨new, newEq, sublist⟩ := exists_appendNew_eq [] values
  have nodup := nodup_appendNew List.nodup_nil values
  rw [newEq, List.nil_append] at nodup ⊢
  refine ((sorted.sublist sublist).and nodup).imp ?_
  intro first second both
  exact lt_of_le_of_ne both.1 both.2

theorem pairwise_focusPairs :
    (focusPairs projection artifact).Pairwise fun first second => first ≤ second := by
  rw [focusPairs, BTreeMap.ordered_eq_sort]
  exact Finset.pairwise_sort _ _

theorem mem_focusPairs {pair : ContextId ×ₗ RevisionId} :
    pair ∈ focusPairs projection artifact ↔ ∃ reference ∈ projection.references,
      (reference.association.any fun association => association.artifactKey = artifact) = true ∧
        toLex (reference.contextId, reference.revisionId) = pair := by
  rw [focusPairs, BTreeMap.ordered_eq_sort]
  simp [and_assoc]

theorem pairwise_shownContexts {pairs : List (ContextId ×ₗ RevisionId)}
    (sorted : pairs.Pairwise fun first second => first ≤ second) :
    (shownContexts projection pairs).Pairwise fun first second => first ≤ second := by
  rw [shownContexts, List.pairwise_map]
  refine (sorted.sublist List.filter_sublist).imp ?_
  intro first second below
  exact Prod.Lex.monotone_fst_ofLex below

theorem mem_shownContexts {pairs : List (ContextId ×ₗ RevisionId)} {contextId : ContextId} :
    contextId ∈ shownContexts projection pairs ↔
      ∃ pair ∈ pairs, IsShown projection pair ∧ (ofLex pair).1 = contextId := by
  simp [shownContexts, and_assoc]

theorem mem_focusContexts {contextId : ContextId} :
    contextId ∈ focusContexts projection artifact ↔
      contextId ∈ shownContexts projection (focusPairs projection artifact) := by
  rw [mem_shownContexts]
  simp only [focusContexts, List.mem_toFinset, List.mem_map, List.mem_filter, Bool.and_eq_true,
    decide_eq_true_eq, List.any_eq_true, mem_focusPairs]
  constructor
  · rintro ⟨reference, ⟨member, associated, snapshot, known, keyEq, accepted, eligible⟩, rfl⟩
    exact ⟨toLex (reference.contextId, reference.revisionId),
      ⟨reference, member, associated, rfl⟩,
      ⟨snapshot, known, congrArg toLex keyEq, accepted, eligible⟩, rfl⟩
  · rintro ⟨pair, ⟨reference, member, associated, rfl⟩,
      ⟨snapshot, known, keyEq, accepted, eligible⟩, rfl⟩
    exact ⟨reference, ⟨member, associated, snapshot, known, toLex.injective keyEq, accepted,
      eligible⟩, rfl⟩

theorem appendNew_focusPairs :
    appendNew [] (shownContexts projection (focusPairs projection artifact)) =
      BTreeMap.ordered (focusContexts projection artifact) := by
  generalize allEq : appendNew [] (shownContexts projection (focusPairs projection artifact)) = all
  have strict : all.Pairwise fun first second => first < second := by
    rw [← allEq]
    exact pairwise_appendNew (pairwise_shownContexts pairwise_focusPairs)
  have nodup : all.Nodup := strict.imp fun below => below.ne
  have sameMembers : focusContexts projection artifact = all.toFinset := by
    ext contextId
    rw [mem_focusContexts, List.mem_toFinset, ← allEq, mem_appendNew]
    simp
  rw [sameMembers, BTreeMap.ordered_eq_sort]
  exact ((List.toFinset_sort _ nodup).mpr (strict.imp fun below => below.le)).symm

theorem shownContexts_append (first second : List (ContextId ×ₗ RevisionId)) :
    shownContexts projection (first ++ second) =
      shownContexts projection first ++ shownContexts projection second := by
  rw [shownContexts, List.filter_append, List.map_append]
  rfl

theorem appendNew_readPairs (limit : Nat) :
    appendNew [] (shownContexts projection (readPairs projection artifact limit)) <+:
      BTreeMap.ordered (focusContexts projection artifact) := by
  have split : focusPairs projection artifact = readPairs projection artifact limit ++
      (focusPairs projection artifact).drop (min limit maxSqlLimit) :=
    (List.take_append_drop _ _).symm
  rw [← appendNew_focusPairs, split, shownContexts_append, appendNew_append]
  obtain ⟨new, newEq, _⟩ := exists_appendNew_eq
    (appendNew [] (shownContexts projection (readPairs projection artifact limit)))
    (shownContexts projection ((focusPairs projection artifact).drop (min limit maxSqlLimit)))
  exact ⟨new, newEq.symm⟩

theorem readPairs_length (limit : Nat) : (readPairs projection artifact limit).length ≤ limit := by
  rw [readPairs, List.length_take]
  omega

theorem appendNew_length_le (values : List ContextId) :
    (appendNew [] values).length ≤ values.length := by
  obtain ⟨new, newEq, sublist⟩ := exists_appendNew_eq [] values
  rw [newEq, List.nil_append]
  exact sublist.length_le

theorem shownContexts_length_le (pairs : List (ContextId ×ₗ RevisionId)) :
    (shownContexts projection pairs).length ≤ pairs.length := by
  rw [shownContexts, List.length_map]
  exact List.filter_sublist.length_le

theorem appendNew_shownContexts_length (pairs : List (ContextId ×ₗ RevisionId)) :
    (appendNew [] (shownContexts projection pairs)).length = pairs.length ↔
      (∀ pair ∈ pairs, IsShown projection pair) ∧
        (pairs.map fun pair => (ofLex pair).1).Nodup := by
  have shownLength := @shownContexts_length_le projection pairs
  have newLength := appendNew_length_le (shownContexts projection pairs)
  constructor
  · intro full
    have allShown : pairs.filter (fun pair => IsShown projection pair) = pairs := by
      have filterLength : (shownContexts projection pairs).length =
          (pairs.filter fun pair => IsShown projection pair).length := List.length_map _
      exact List.filter_sublist.eq_of_length (by omega)
    have everyPair : ∀ pair ∈ pairs, IsShown projection pair := by
      intro pair member
      rw [← allShown] at member
      exact of_decide_eq_true (List.mem_filter.mp member).2
    have contexts : shownContexts projection pairs = pairs.map fun pair => (ofLex pair).1 := by
      rw [shownContexts, allShown]
    refine ⟨everyPair, ?_⟩
    obtain ⟨new, newEq, sublist⟩ := exists_appendNew_eq [] (shownContexts projection pairs)
    have nodup := nodup_appendNew List.nodup_nil (shownContexts projection pairs)
    rw [newEq, List.nil_append] at nodup full
    have whole := sublist.eq_of_length (by rw [contexts, List.length_map] at *; omega)
    rw [← contexts, ← whole]
    exact nodup
  · rintro ⟨everyPair, nodup⟩
    have allShown : pairs.filter (fun pair => IsShown projection pair) = pairs :=
      List.filter_eq_self.mpr fun pair member => decide_eq_true (everyPair pair member)
    rw [shownContexts, allShown, appendNew_of_nodup nodup]
    simp

end Collecting

/-! ### When a lookup is exact -/

section Exact

variable {projection : EngineeringProjection} {artifact : ArtifactKey}

theorem readsEnough_iff (limit : Nat) :
    ReadsEnough projection artifact limit ↔
      (appendNew [] (shownContexts projection (readPairs projection artifact limit))).length =
        min limit (BTreeMap.ordered (focusContexts projection artifact)).length := by
  have isPrefix := @appendNew_readPairs projection artifact limit
  have full := @appendNew_shownContexts_length projection
    (readPairs projection artifact limit)
  have readLength := @readPairs_length projection artifact limit
  have shownLength := @shownContexts_length_le projection
    (readPairs projection artifact limit)
  have foundLength := appendNew_length_le
    (shownContexts projection (readPairs projection artifact limit))
  have prefixLength := isPrefix.length_le
  have allFound : (∀ pair ∈ focusPairs projection artifact, IsShown projection pair →
      ∃ other ∈ readPairs projection artifact limit,
        IsShown projection other ∧ (ofLex other).1 = (ofLex pair).1) ↔
      (appendNew [] (shownContexts projection (readPairs projection artifact limit))).length =
        (BTreeMap.ordered (focusContexts projection artifact)).length := by
    constructor
    · intro found
      have subset : BTreeMap.ordered (focusContexts projection artifact) ⊆
          appendNew [] (shownContexts projection (readPairs projection artifact limit)) := by
        intro contextId member
        rw [BTreeMap.ordered_eq_sort, Finset.mem_sort, mem_focusContexts,
          mem_shownContexts] at member
        obtain ⟨pair, inPairs, shown, rfl⟩ := member
        rw [mem_appendNew, mem_shownContexts]
        exact Or.inr (found pair inPairs shown)
      have nodup : (BTreeMap.ordered (focusContexts projection artifact)).Nodup := by
        rw [BTreeMap.ordered_eq_sort]
        exact Finset.sort_nodup _ _
      have := (nodup.subperm subset).length_le
      omega
    · intro sameLength pair inPairs shown
      have same := isPrefix.eq_of_length sameLength
      have member : (ofLex pair).1 ∈ BTreeMap.ordered (focusContexts projection artifact) := by
        rw [BTreeMap.ordered_eq_sort, Finset.mem_sort, mem_focusContexts, mem_shownContexts]
        exact ⟨pair, inPairs, shown, rfl⟩
      rw [← same, mem_appendNew, mem_shownContexts] at member
      exact member.resolve_left List.not_mem_nil
  rw [ReadsEnough, allFound, ← full]
  omega

end Exact

/-- A lookup that completes finds the first Contexts asked for exactly when it reads
enough. -/
theorem focus_lookup_exact_iff (projection : EngineeringProjection)
    (repositoryId : RepositoryId) (relativePath : RepoRelativePath) (limit : Nat)
    (positive : 0 < limit) (expired : Nat → Bool)
    (completed : (acceptedContextsForFile (some projection) repositoryId relativePath limit
      expired).outcome = .completed) :
    (acceptedContextsForFile (some projection) repositoryId relativePath limit
        expired).hits.map ArtifactFocusHit.contextId =
      (BTreeMap.ordered (focusContexts projection ⟨repositoryId, .file relativePath⟩)).take limit ↔
    ReadsEnough projection ⟨repositoryId, .file relativePath⟩ limit := by
  unfold acceptedContextsForFile at completed ⊢
  rw [if_neg positive.ne'] at completed ⊢
  simp only at completed ⊢
  split at completed
  · cases completed
  · rename_i inTime
    rw [if_neg inTime, readsEnough_iff, List.map_take, contexts_collectHits]
    generalize (⟨repositoryId, .file relativePath⟩ : ArtifactKey) = artifact
    have isPrefix := @appendNew_readPairs projection artifact limit
    have prefixLength := isPrefix.length_le
    have foundLength := appendNew_length_le
      (shownContexts projection (readPairs projection artifact limit))
    have shownLength := @shownContexts_length_le projection
      (readPairs projection artifact limit)
    have readLength := @readPairs_length projection artifact limit
    rw [List.take_of_length_le (by omega)]
    constructor
    · intro same
      rw [same, List.length_take]
    · intro sameLength
      rw [List.prefix_iff_eq_take.mp isPrefix, sameLength]
      exact (List.take_eq_take_min).symm

private def focusRevision (number : Uuid) : ContextRevision where
  revisionId := ⟨number⟩
  parentRevisionIds := []
  kind := .decision
  topicKey := none
  problemView := none
  statement := "Prices are cached"
  rationale := "Measured"
  applicability := ⟨[], [], []⟩
  assumptions := []
  recheckWhen := []
  hints := []
  relations := []
  evidence :=
    [{ evidenceId := ⟨number⟩
       kind := .experimentRecord
       supports := "Latency"
       content := .object [("milliseconds", .number "12")]
       interpretation := "Fast enough"
       limitations := ["One machine"] }]

private def focusSnapshot (number : Uuid) (accepted : Bool) : GraphContextSnapshot where
  spaceId := ⟨1#128⟩
  spaceTitle := "Pricing"
  contextId := ⟨number⟩
  revision := focusRevision number
  status := if accepted then .accepted else .candidate
  evidenceCompleteness := 1000
  safety := ⟨accepted, if accepted then [] else [.notAccepted]⟩
  relations := []

private def focusArtifact : ArtifactKey :=
  ⟨⟨"shop"⟩, .file ⟨"src/price.rs"⟩⟩

private def focusReference (number : Uuid) : ResolvedReferenceProjection where
  contextId := ⟨number⟩
  revisionId := ⟨number⟩
  referenceId := ⟨number⟩
  locator := some focusArtifact.locator
  repositoryGeneration := none
  artifactGeneration := "generation"
  resolution := ⟨⟨number⟩, ⟨"shop"⟩, .resolved, some focusArtifact, [focusArtifact], "exact"⟩
  association := some ⟨⟨number⟩, ⟨number⟩, focusArtifact, .implements, [⟨number⟩], 1, "exact"⟩
  artifacts := [⟨⟨⟨"shop"⟩, "shop"⟩, focusArtifact, "price.rs"⟩]
  evidence := []

/-- A Context that is not accepted, and behind it one that is. -/
private def focusProjection : EngineeringProjection where
  policyVersion := resolverPolicyVersion
  artifactGeneration := "generation"
  contexts := [focusSnapshot 1#128 false, focusSnapshot 2#128 true]
  references := [focusReference 1#128, focusReference 2#128]
  incompleteScans := []

/-- A lookup that may read two pairs finds the accepted Context. -/
theorem focus_lookup_exact_iff_two :
    (acceptedContextsForFile (some focusProjection) ⟨"shop"⟩ ⟨"src/price.rs"⟩ 2
        fun _ => false).hits.map ArtifactFocusHit.contextId =
      (BTreeMap.ordered (focusContexts focusProjection focusArtifact)).take 2 ↔
    ReadsEnough focusProjection focusArtifact 2 :=
  focus_lookup_exact_iff focusProjection ⟨"shop"⟩ ⟨"src/price.rs"⟩ 2 (by decide) (fun _ => false)
    (by decide)

/-- With a limit of one, the pair that is not accepted hides it. -/
theorem focus_lookup_misses :
    ¬ ((acceptedContextsForFile (some focusProjection) ⟨"shop"⟩ ⟨"src/price.rs"⟩ 1
          fun _ => false).outcome = .completed →
      (acceptedContextsForFile (some focusProjection) ⟨"shop"⟩ ⟨"src/price.rs"⟩ 1
          fun _ => false).hits.map ArtifactFocusHit.contextId =
        (BTreeMap.ordered (focusContexts focusProjection focusArtifact)).take 1) := by
  decide

end SharedContext.EngineeringGraph
