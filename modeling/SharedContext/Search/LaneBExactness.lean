import SharedContext.Search.LaneB

/-!
# What the second hop admits

The second hop reports every candidate once: as admitted by its best score, as
refused, or as skipped.  What it admits does not depend on the order in which
seeds and rows arrive.
-/

namespace SharedContext.Search

variable {Component : Type} {similarity : List Component → List Component → Nat}
  {vectors : BTreeMap RevisionId (List Component)} {floorBasisPoints : Nat}

/-! ### What admission means -/

/-- The row is one of the seeds. -/
def IsSeed (seeds : List (ContextId × RevisionId)) (context : Hop2Context) : Prop :=
  (context.contextId, context.revisionId) ∈ seeds

instance (seeds : List (ContextId × RevisionId)) (context : Hop2Context) :
    Decidable (IsSeed seeds context) :=
  inferInstanceAs (Decidable ((context.contextId, context.revisionId) ∈ seeds))

/-- The vectors of two Contexts can be compared, with this score. -/
def Compared (similarity : List Component → List Component → Nat)
    (vectors : BTreeMap RevisionId (List Component)) (seed candidate : Hop2Context)
    (score : Nat) : Prop :=
  ∃ seedVector candidateVector, vectors.get? seed.revisionId = some seedVector ∧
    seedVector ≠ [] ∧ vectors.get? candidate.revisionId = some candidateVector ∧
    seedVector.length = candidateVector.length ∧
    score = similarity seedVector candidateVector

/-- The best score that a seed of the corpus gives the candidate. -/
def IsBestScore (similarity : List Component → List Component → Nat)
    (vectors : BTreeMap RevisionId (List Component)) (corpus : List Hop2Context)
    (seeds : List (ContextId × RevisionId)) (candidate : Hop2Context) (score : Nat) : Prop :=
  (∃ seed ∈ corpus, IsSeed seeds seed ∧ Compared similarity vectors seed candidate score) ∧
    ∀ seed ∈ corpus, IsSeed seeds seed → ∀ other, Compared similarity vectors seed candidate other →
      other ≤ score

namespace Hop2Admission

def Admits (admission : Hop2Admission) (candidate : Hop2Context) : Prop :=
  ∃ hit ∈ admission.hits, hit.contextId = candidate.contextId ∧
    hit.revisionId = candidate.revisionId ∧ hit.spaceId = candidate.spaceId

/-- The candidate was compared, and no seed admitted it. -/
def Refuses (admission : Hop2Admission) (candidate : Hop2Context) : Prop :=
  (∃ sample ∈ admission.samples, sample.candidateRevisionId = candidate.revisionId) ∧
    ∀ sample ∈ admission.samples, sample.candidateRevisionId = candidate.revisionId →
      sample.admitted = false

/-- The candidate was compared with no seed. -/
def Skips (admission : Hop2Admission) (candidate : Hop2Context) : Prop :=
  candidate.revisionId ∉ admission.samples.map Hop2AdmissionSample.candidateRevisionId

instance (admission : Hop2Admission) (candidate : Hop2Context) :
    Decidable (admission.Skips candidate) :=
  instDecidableNot

end Hop2Admission

/-- The admission is exact, and reports every candidate once. -/
structure ExactAdmission (similarity : List Component → List Component → Nat)
    (vectors : BTreeMap RevisionId (List Component)) (floorBasisPoints : Nat)
    (corpus : List Hop2Context) (seeds : List (ContextId × RevisionId))
    (admission : Hop2Admission) : Prop where
  hits_exact : ∀ candidate ∈ corpus, (admission.Admits candidate ↔
    ¬ IsSeed seeds candidate ∧ ∃ score, floorBasisPoints ≤ score ∧
      IsBestScore similarity vectors corpus seeds candidate score)
  hits_best : ∀ hit ∈ admission.hits, ∃ candidate ∈ corpus,
    hit.contextId = candidate.contextId ∧ hit.revisionId = candidate.revisionId ∧
      hit.spaceId = candidate.spaceId ∧
      IsBestScore similarity vectors corpus seeds candidate hit.seed.scoreBasisPoints
  hits_once : (admission.hits.map LaneBHit.contextId).Nodup
  reported_once : ∀ candidate ∈ corpus, ¬ IsSeed seeds candidate →
    (admission.Admits candidate ∧ ¬ admission.Refuses candidate ∧ ¬ admission.Skips candidate) ∨
    (¬ admission.Admits candidate ∧ admission.Refuses candidate ∧ ¬ admission.Skips candidate) ∨
    (¬ admission.Admits candidate ∧ ¬ admission.Refuses candidate ∧ admission.Skips candidate)
  skipped_counted : admission.skippedMissingVector =
    (corpus.filter fun candidate => ¬ IsSeed seeds candidate ∧ admission.Skips candidate).length

/-! ### One candidate -/

/-- The seeds a candidate is compared with, and their scores. -/
def judgedFor (similarity : List Component → List Component → Nat)
    (vectors : BTreeMap RevisionId (List Component)) (seeds : List Hop2Context)
    (candidate : Hop2Context) : List (Hop2Context × Nat) :=
  match vectors.get? candidate.revisionId with
  | none => []
  | some candidateVector =>
      seeds.filterMap (judgeSeed similarity vectors candidate candidateVector)

/-- The seeds that admit a candidate, strongest first. -/
def matchedFor (similarity : List Component → List Component → Nat)
    (vectors : BTreeMap RevisionId (List Component)) (floorBasisPoints : Nat)
    (seeds : List Hop2Context) (candidate : Hop2Context) : List SeedMatch :=
  ((judgedFor similarity vectors seeds candidate).filterMap
    (matchOf floorBasisPoints candidate)).insertionSort fun left right => left.order ≤ right.order

def hitFor (similarity : List Component → List Component → Nat)
    (vectors : BTreeMap RevisionId (List Component)) (floorBasisPoints : Nat)
    (seeds : List Hop2Context) (candidate : Hop2Context) : Option LaneBHit :=
  match matchedFor similarity vectors floorBasisPoints seeds candidate with
  | [] => none
  | seed :: alsoAdmittedBy =>
      some ⟨candidate.contextId, candidate.revisionId, candidate.spaceId, seed, alsoAdmittedBy⟩

theorem judgeCandidate_eq (seeds : List Hop2Context) (admission : Hop2Admission)
    (candidate : Hop2Context) :
    judgeCandidate similarity vectors floorBasisPoints seeds admission candidate =
      ⟨admission.hits ++ (hitFor similarity vectors floorBasisPoints seeds candidate).toList,
        admission.skippedMissingVector +
          (if judgedFor similarity vectors seeds candidate = [] then 1 else 0),
        admission.seedsMissingVector,
        admission.samples ++ (judgedFor similarity vectors seeds candidate).map
          (sampleOf floorBasisPoints candidate)⟩ := by
  unfold judgeCandidate hitFor matchedFor judgedFor
  cases found : vectors.get? candidate.revisionId with
  | none => simp
  | some candidateVector =>
      simp only
      split
      · rename_i judged
        simp [judged]
      · rename_i first others judged
        split
        · rename_i matched
          simp [judged, matched]
        · rename_i seed also matched
          simp [judged, matched]

theorem foldl_judgeCandidate (seeds : List Hop2Context) (candidates : List Hop2Context)
    (admission : Hop2Admission) :
    candidates.foldl (judgeCandidate similarity vectors floorBasisPoints seeds) admission =
      ⟨admission.hits ++
          candidates.filterMap (hitFor similarity vectors floorBasisPoints seeds),
        admission.skippedMissingVector + (candidates.filter fun candidate =>
          judgedFor similarity vectors seeds candidate = []).length,
        admission.seedsMissingVector,
        admission.samples ++ candidates.flatMap fun candidate =>
          (judgedFor similarity vectors seeds candidate).map
            (sampleOf floorBasisPoints candidate)⟩ := by
  induction candidates generalizing admission with
  | nil => simp
  | cons candidate candidates ih =>
      rw [List.foldl_cons, judgeCandidate_eq, ih]
      cases hit : hitFor similarity vectors floorBasisPoints seeds candidate <;>
        by_cases uncompared : judgedFor similarity vectors seeds candidate = [] <;>
        simp [hit, uncompared, Nat.add_assoc, Nat.add_comm 1]

/-! ### Sorting by a key -/

section Sorting

variable {Item Key : Type} [LinearOrder Key] (key : Item → Key)

instance isTrans_key : IsTrans Item fun first second => key first ≤ key second :=
  ⟨fun _ _ _ => le_trans⟩

instance total_key : Std.Total fun first second : Item => key first ≤ key second :=
  ⟨fun _ _ => le_total _ _⟩

theorem insertionSort_eq_of_perm {items others : List Item} (permuted : items.Perm others)
    (distinct : ∀ first ∈ items, ∀ second ∈ items, key first = key second → first = second) :
    items.insertionSort (fun first second => key first ≤ key second) =
      others.insertionSort (fun first second => key first ≤ key second) := by
  refine List.Perm.eq_of_pairwise ?_ (List.pairwise_insertionSort _ _)
    (List.pairwise_insertionSort _ _)
    (((List.perm_insertionSort _ _).trans permuted).trans (List.perm_insertionSort _ _).symm)
  intro first second firstMem secondMem le ge
  rw [List.mem_insertionSort] at firstMem secondMem
  exact distinct first firstMem second (permuted.mem_iff.mpr secondMem) (le_antisymm le ge)

theorem key_le_of_insertionSort {items : List Item} {first : Item} {others : List Item}
    (sorted : items.insertionSort (fun first second => key first ≤ key second) = first :: others)
    {item : Item} (listed : item ∈ items) : key first ≤ key item := by
  have ordered := List.pairwise_insertionSort
    (fun first second : Item => key first ≤ key second) items
  have isMem := (List.mem_insertionSort (fun first second => key first ≤ key second)).mpr listed
  rw [sorted] at ordered isMem
  rcases List.mem_cons.mp isMem with rfl | later
  · exact le_refl _
  · exact (List.pairwise_cons.mp ordered).1 item later

end Sorting

/-! ### Seeds and scores -/

theorem seedVector_eq_some {seed : Hop2Context} {vector : List Component} :
    seedVector vectors seed = some vector ↔
      vectors.get? seed.revisionId = some vector ∧ vector ≠ [] := by
  unfold seedVector
  split
  · rename_i found
    simp [found]
  · rename_i found
    constructor
    · intro same
      refine ⟨same, fun empty => ?_⟩
      subst empty
      exact found same
    · exact And.left

theorem judgeSeed_eq_some {candidate seed judgedSeed : Hop2Context}
    {candidateVector : List Component} {score : Nat}
    (found : vectors.get? candidate.revisionId = some candidateVector) :
    judgeSeed similarity vectors candidate candidateVector seed = some (judgedSeed, score) ↔
      seed = judgedSeed ∧ Compared similarity vectors seed candidate score := by
  unfold judgeSeed Compared
  cases own : seedVector vectors seed with
  | none =>
      simp only [reduceCtorEq, false_iff, not_and, not_exists]
      intro _ vector _ stored nonempty
      rw [seedVector_eq_some.mpr ⟨stored, nonempty⟩] at own
      cases own
  | some vector =>
      obtain ⟨stored, nonempty⟩ := seedVector_eq_some.mp own
      simp only
      split
      · rename_i different
        simp only [reduceCtorEq, false_iff, not_and, not_exists]
        rintro _ other otherCandidate otherStored _ otherFound lengths
        rw [stored] at otherStored
        rw [found] at otherFound
        cases otherStored
        cases otherFound
        exact absurd lengths different
      · rename_i lengths
        rw [not_not] at lengths
        simp only [Option.some.injEq, Prod.mk.injEq]
        constructor
        · rintro ⟨rfl, rfl⟩
          exact ⟨rfl, vector, candidateVector, stored, nonempty, found, lengths, rfl⟩
        · rintro ⟨rfl, other, otherCandidate, otherStored, _, otherFound, _, rfl⟩
          rw [stored] at otherStored
          rw [found] at otherFound
          cases otherStored
          cases otherFound
          exact ⟨rfl, rfl⟩

theorem mem_judgedFor {seeds : List Hop2Context} {candidate seed : Hop2Context} {score : Nat} :
    (seed, score) ∈ judgedFor similarity vectors seeds candidate ↔
      seed ∈ seeds ∧ Compared similarity vectors seed candidate score := by
  unfold judgedFor
  cases found : vectors.get? candidate.revisionId with
  | none =>
      simp only [List.not_mem_nil, false_iff, not_and]
      rintro _ ⟨_, _, _, _, stored, _⟩
      rw [found] at stored
      cases stored
  | some candidateVector =>
      simp only [List.mem_filterMap, judgeSeed_eq_some found]
      constructor
      · rintro ⟨other, listed, rfl, compared⟩
        exact ⟨listed, compared⟩
      · rintro ⟨listed, compared⟩
        exact ⟨seed, listed, rfl, compared⟩

theorem mem_matchedFor {seeds : List Hop2Context} {candidate : Hop2Context} {found : SeedMatch} :
    found ∈ matchedFor similarity vectors floorBasisPoints seeds candidate ↔
      ∃ seed score, (seed, score) ∈ judgedFor similarity vectors seeds candidate ∧
        floorBasisPoints ≤ score ∧
        found = ⟨seed.contextId, seed.revisionId, score,
          BTreeMap.ordered (seed.identifiers ∩ candidate.identifiers)⟩ := by
  unfold matchedFor
  rw [List.mem_insertionSort, List.mem_filterMap]
  constructor
  · rintro ⟨⟨seed, score⟩, judged, matched⟩
    unfold matchOf at matched
    split at matched
    · rename_i reaches
      cases matched
      exact ⟨seed, score, judged, reaches, rfl⟩
    · cases matched
  · rintro ⟨seed, score, judged, reaches, rfl⟩
    exact ⟨(seed, score), judged, if_pos reaches⟩

theorem hitFor_eq_none {seeds : List Hop2Context} {candidate : Hop2Context} :
    hitFor similarity vectors floorBasisPoints seeds candidate = none ↔
      ∀ seed score, (seed, score) ∈ judgedFor similarity vectors seeds candidate →
        score < floorBasisPoints := by
  unfold hitFor
  split
  · rename_i unmatched
    simp only [true_iff]
    intro seed score judged
    by_contra reaches
    have matched : _ ∈ matchedFor similarity vectors floorBasisPoints seeds candidate :=
      mem_matchedFor.mpr ⟨seed, score, judged, Nat.le_of_not_lt reaches, rfl⟩
    rw [unmatched] at matched
    cases matched
  · rename_i first others matched
    simp only [reduceCtorEq, false_iff, not_forall, Nat.not_lt]
    have isMem : first ∈ matchedFor similarity vectors floorBasisPoints seeds candidate := by
      rw [matched]
      exact List.mem_cons_self
    obtain ⟨seed, score, judged, reaches, _⟩ := mem_matchedFor.mp isMem
    exact ⟨seed, score, judged, reaches⟩

theorem hitFor_eq_some {seeds : List Hop2Context} {candidate : Hop2Context} {hit : LaneBHit}
    (found : hitFor similarity vectors floorBasisPoints seeds candidate = some hit) :
    hit.contextId = candidate.contextId ∧ hit.revisionId = candidate.revisionId ∧
      hit.spaceId = candidate.spaceId ∧ floorBasisPoints ≤ hit.seed.scoreBasisPoints ∧
      (∃ seed, (seed, hit.seed.scoreBasisPoints) ∈
        judgedFor similarity vectors seeds candidate) ∧
      ∀ seed score, (seed, score) ∈ judgedFor similarity vectors seeds candidate →
        score ≤ hit.seed.scoreBasisPoints := by
  unfold hitFor at found
  split at found
  · cases found
  · rename_i first others matched
    cases found
    have isMem : first ∈ matchedFor similarity vectors floorBasisPoints seeds candidate := by
      rw [matched]
      exact List.mem_cons_self
    obtain ⟨best, score, judged, reaches, rfl⟩ := mem_matchedFor.mp isMem
    refine ⟨rfl, rfl, rfl, reaches, ⟨best, judged⟩, fun seed other otherJudged => ?_⟩
    rcases Nat.lt_or_ge other floorBasisPoints with below | above
    · exact (Nat.le_of_lt below).trans reaches
    · have otherMatched := mem_matchedFor.mpr ⟨seed, other, otherJudged, above, rfl⟩
      unfold matchedFor at matched otherMatched
      rw [List.mem_insertionSort] at otherMatched
      have least := key_le_of_insertionSort SeedMatch.order matched otherMatched
      unfold SeedMatch.order at least
      rw [Prod.Lex.toLex_le_toLex] at least
      rcases least with less | ⟨same, _⟩
      · exact Nat.le_of_lt (OrderDual.toDual_lt_toDual.mp less)
      · exact Nat.le_of_eq (OrderDual.toDual_inj.mp same).symm

/-! ### The corpus -/

def rowsOfItem (normalizedIdentifiers : List String → Finset String) (tables : Hop2Tables)
    (item : ContextItemRow) : List Hop2Context :=
  (tables.contextRevision.rows.filter fun revision =>
    revision.contextId = item.contextId ∧
      SafeAcceptedContext tables.evidence item revision).map fun revision =>
    ⟨item.contextId, revision.revisionId, item.spaceId,
      normalizedIdentifiers [revision.statement, revision.rationale, revision.problemView.getD ""]⟩

theorem mem_rowsOfItem {normalizedIdentifiers : List String → Finset String}
    {tables : Hop2Tables} {item : ContextItemRow} {row : Hop2Context}
    (listed : row ∈ rowsOfItem normalizedIdentifiers tables item) :
    row.contextId = item.contextId ∧ item.acceptedRevisionId = some row.revisionId ∧
      ∃ revision ∈ tables.contextRevision.rows, revision.revisionId = row.revisionId ∧
        revision.contextId = item.contextId := by
  obtain ⟨revision, kept, rfl⟩ := List.mem_map.mp listed
  rw [List.mem_filter, decide_eq_true_eq] at kept
  obtain ⟨stored, ofItem, safe⟩ := kept
  exact ⟨rfl, safe.2.1, revision, stored, rfl, ofItem⟩

theorem nodup_rowsOfItem {normalizedIdentifiers : List String → Finset String}
    {tables : Hop2Tables} (item : ContextItemRow) :
    ((rowsOfItem normalizedIdentifiers tables item).map Hop2Context.revisionId).Nodup := by
  unfold rowsOfItem
  rw [List.map_map]
  exact tables.contextRevision.keysNodup.sublist (List.filter_sublist.map _)

theorem nodup_readHop2Corpus (normalizedIdentifiers : List String → Finset String)
    (tables : Hop2Tables) :
    ((readHop2Corpus normalizedIdentifiers tables).map Hop2Context.contextId).Nodup ∧
      ((readHop2Corpus normalizedIdentifiers tables).map Hop2Context.revisionId).Nodup := by
  have permuted : (readHop2Corpus normalizedIdentifiers tables).Perm
      (tables.contextItem.rows.flatMap (rowsOfItem normalizedIdentifiers tables)) :=
    List.perm_insertionSort _ _
  have items := tables.contextItem.keysNodup
  rw [(permuted.map _).nodup_iff, (permuted.map _).nodup_iff, List.map_flatMap, List.map_flatMap,
    List.nodup_flatMap, List.nodup_flatMap]
  rw [List.Nodup, List.pairwise_map] at items
  refine ⟨⟨fun item _ => ?_, items.imp ?_⟩, ⟨fun item _ => nodup_rowsOfItem item, items.imp ?_⟩⟩
  · have revisions : ((rowsOfItem normalizedIdentifiers tables item).map
        Hop2Context.revisionId).Nodup := nodup_rowsOfItem item
    rw [List.Nodup, List.pairwise_map] at revisions ⊢
    refine revisions.imp_of_mem fun firstMem secondMem separate => ?_
    obtain ⟨_, firstAccepted, _⟩ := mem_rowsOfItem firstMem
    obtain ⟨_, secondAccepted, _⟩ := mem_rowsOfItem secondMem
    rw [firstAccepted] at secondAccepted
    exact absurd (Option.some.inj secondAccepted) separate
  · intro first second different contextId inFirst inSecond
    obtain ⟨row, rowMem, rfl⟩ := List.mem_map.mp inFirst
    obtain ⟨other, otherMem, same⟩ := List.mem_map.mp inSecond
    have ofFirst := (mem_rowsOfItem rowMem).1
    have ofSecond := (mem_rowsOfItem otherMem).1
    exact different (ofFirst.symm.trans (same.symm.trans ofSecond))
  · intro first second different revisionId inFirst inSecond
    obtain ⟨row, rowMem, rfl⟩ := List.mem_map.mp inFirst
    obtain ⟨other, otherMem, same⟩ := List.mem_map.mp inSecond
    obtain ⟨_, _, revision, stored, revisionEq, ofFirst⟩ := mem_rowsOfItem rowMem
    obtain ⟨_, _, otherRevision, otherStored, otherEq, ofSecond⟩ := mem_rowsOfItem otherMem
    have equal : otherRevision = revision := Table.eq_of_key otherStored stored
      (otherEq.trans (same.trans revisionEq.symm))
    rw [equal, ofFirst] at ofSecond
    exact different ofSecond

/-! ### All candidates -/

/-- The seeds that candidates are compared with. -/
def scoredSeeds (vectors : BTreeMap RevisionId (List Component)) (corpus : List Hop2Context)
    (seeds : List (ContextId × RevisionId)) : List Hop2Context :=
  (corpus.filter fun context => IsSeed seeds context).filter fun seed =>
    (seedVector vectors seed).isSome

def candidatesOf (corpus : List Hop2Context) (seeds : List (ContextId × RevisionId)) :
    List Hop2Context :=
  corpus.filter fun context => ¬ IsSeed seeds context

theorem laneBHits_eq {corpus : List Hop2Context} {seeds : List (ContextId × RevisionId)}
    (seeded : seeds ≠ []) :
    laneBHits similarity vectors floorBasisPoints corpus seeds =
      ⟨((candidatesOf corpus seeds).filterMap (hitFor similarity vectors floorBasisPoints
          (scoredSeeds vectors corpus seeds))).insertionSort fun left right =>
            left.order ≤ right.order,
        ((candidatesOf corpus seeds).filter fun candidate =>
          judgedFor similarity vectors (scoredSeeds vectors corpus seeds) candidate = []).length,
        ((corpus.filter fun context => IsSeed seeds context).filter fun seed =>
          (seedVector vectors seed).isNone).length,
        (candidatesOf corpus seeds).flatMap fun candidate =>
          (judgedFor similarity vectors (scoredSeeds vectors corpus seeds) candidate).map
            (sampleOf floorBasisPoints candidate)⟩ := by
  unfold laneBHits
  rw [if_neg seeded]
  dsimp only
  rw [foldl_judgeCandidate]
  simp only [Hop2Admission.default, List.nil_append, Nat.zero_add]
  rfl

theorem mem_judgedFor_scoredSeeds {corpus : List Hop2Context}
    {seeds : List (ContextId × RevisionId)} {candidate seed : Hop2Context} {score : Nat} :
    (seed, score) ∈ judgedFor similarity vectors (scoredSeeds vectors corpus seeds) candidate ↔
      seed ∈ corpus ∧ IsSeed seeds seed ∧ Compared similarity vectors seed candidate score := by
  rw [mem_judgedFor]
  unfold scoredSeeds
  rw [List.mem_filter, List.mem_filter, decide_eq_true_eq, and_assoc, and_assoc]
  refine and_congr_right fun _ => and_congr_right fun _ => and_iff_right_of_imp ?_
  rintro ⟨vector, _, stored, nonempty, _⟩
  rw [seedVector_eq_some.mpr ⟨stored, nonempty⟩]
  rfl

section Exactness

variable {corpus : List Hop2Context} {seeds : List (ContextId × RevisionId)}

theorem mem_candidatesOf {candidate : Hop2Context} :
    candidate ∈ candidatesOf corpus seeds ↔ candidate ∈ corpus ∧ ¬ IsSeed seeds candidate := by
  simp [candidatesOf]

theorem admits_iff (seeded : seeds ≠ [])
    (contexts : (corpus.map Hop2Context.contextId).Nodup) {candidate : Hop2Context}
    (listed : candidate ∈ corpus) :
    (laneBHits similarity vectors floorBasisPoints corpus seeds).Admits candidate ↔
      ¬ IsSeed seeds candidate ∧
        hitFor similarity vectors floorBasisPoints (scoredSeeds vectors corpus seeds)
          candidate ≠ none := by
  rw [laneBHits_eq seeded]
  unfold Hop2Admission.Admits
  simp only [List.mem_insertionSort, List.mem_filterMap]
  constructor
  · rintro ⟨hit, ⟨other, isCandidate, found⟩, sameContext, _⟩
    obtain ⟨otherListed, notSeed⟩ := mem_candidatesOf.mp isCandidate
    have ofOther := (hitFor_eq_some found).1
    have same : other = candidate := List.inj_on_of_nodup_map contexts otherListed listed
      (ofOther.symm.trans sameContext)
    subst same
    exact ⟨notSeed, by rw [found]; nofun⟩
  · rintro ⟨notSeed, isHit⟩
    obtain ⟨hit, found⟩ := Option.ne_none_iff_exists'.mp isHit
    obtain ⟨sameContext, sameRevision, sameSpace, _⟩ := hitFor_eq_some found
    exact ⟨hit, ⟨candidate, mem_candidatesOf.mpr ⟨listed, notSeed⟩, found⟩, sameContext,
      sameRevision, sameSpace⟩

theorem mem_samples_iff (seeded : seeds ≠ [])
    (revisions : (corpus.map Hop2Context.revisionId).Nodup) {candidate : Hop2Context}
    (listed : candidate ∈ corpus) (notSeed : ¬ IsSeed seeds candidate)
    {sample : Hop2AdmissionSample} (ofCandidate : sample.candidateRevisionId =
      candidate.revisionId) :
    sample ∈ (laneBHits similarity vectors floorBasisPoints corpus seeds).samples ↔
      ∃ judged ∈ judgedFor similarity vectors (scoredSeeds vectors corpus seeds) candidate,
        sampleOf floorBasisPoints candidate judged = sample := by
  rw [laneBHits_eq seeded]
  simp only [List.mem_flatMap, List.mem_map]
  constructor
  · rintro ⟨other, isCandidate, judged, isJudged, rfl⟩
    obtain ⟨otherListed, _⟩ := mem_candidatesOf.mp isCandidate
    have same : other = candidate :=
      List.inj_on_of_nodup_map revisions otherListed listed ofCandidate
    subst same
    exact ⟨judged, isJudged, rfl⟩
  · rintro ⟨judged, isJudged, rfl⟩
    exact ⟨candidate, mem_candidatesOf.mpr ⟨listed, notSeed⟩, judged, isJudged, rfl⟩

theorem skips_iff (seeded : seeds ≠ [])
    (revisions : (corpus.map Hop2Context.revisionId).Nodup) {candidate : Hop2Context}
    (listed : candidate ∈ corpus) (notSeed : ¬ IsSeed seeds candidate) :
    (laneBHits similarity vectors floorBasisPoints corpus seeds).Skips candidate ↔
      judgedFor similarity vectors (scoredSeeds vectors corpus seeds) candidate = [] := by
  unfold Hop2Admission.Skips
  rw [List.mem_map, List.eq_nil_iff_forall_not_mem]
  constructor
  · intro unsampled judged isJudged
    exact unsampled ⟨_, (mem_samples_iff seeded revisions listed notSeed rfl).mpr
      ⟨judged, isJudged, rfl⟩, rfl⟩
  · rintro uncompared ⟨sample, sampled, ofCandidate⟩
    obtain ⟨judged, isJudged, _⟩ :=
      (mem_samples_iff seeded revisions listed notSeed ofCandidate).mp sampled
    exact uncompared judged isJudged

theorem refuses_iff (seeded : seeds ≠ [])
    (revisions : (corpus.map Hop2Context.revisionId).Nodup) {candidate : Hop2Context}
    (listed : candidate ∈ corpus) (notSeed : ¬ IsSeed seeds candidate) :
    (laneBHits similarity vectors floorBasisPoints corpus seeds).Refuses candidate ↔
      judgedFor similarity vectors (scoredSeeds vectors corpus seeds) candidate ≠ [] ∧
        hitFor similarity vectors floorBasisPoints (scoredSeeds vectors corpus seeds)
          candidate = none := by
  unfold Hop2Admission.Refuses
  rw [hitFor_eq_none]
  constructor
  · rintro ⟨⟨sample, sampled, ofCandidate⟩, refused⟩
    obtain ⟨judged, isJudged, _⟩ :=
      (mem_samples_iff seeded revisions listed notSeed ofCandidate).mp sampled
    refine ⟨List.ne_nil_of_mem isJudged, fun seed score scored => ?_⟩
    have unadmitted := refused _ ((mem_samples_iff seeded revisions listed notSeed rfl).mpr
      ⟨(seed, score), scored, rfl⟩) rfl
    exact Nat.lt_of_not_le (decide_eq_false_iff_not.mp unadmitted)
  · rintro ⟨compared, below⟩
    obtain ⟨judged, isJudged⟩ := List.exists_mem_of_ne_nil _ compared
    refine ⟨⟨_, (mem_samples_iff seeded revisions listed notSeed rfl).mpr
      ⟨judged, isJudged, rfl⟩, rfl⟩, fun sample sampled ofCandidate => ?_⟩
    obtain ⟨⟨seed, score⟩, scored, rfl⟩ :=
      (mem_samples_iff seeded revisions listed notSeed ofCandidate).mp sampled
    exact decide_eq_false_iff_not.mpr (Nat.not_le_of_lt (below seed score scored))

theorem isBestScore_of_hit {candidate : Hop2Context} {hit : LaneBHit}
    (found : hitFor similarity vectors floorBasisPoints (scoredSeeds vectors corpus seeds)
      candidate = some hit) :
    floorBasisPoints ≤ hit.seed.scoreBasisPoints ∧
      IsBestScore similarity vectors corpus seeds candidate hit.seed.scoreBasisPoints := by
  obtain ⟨_, _, _, reaches, ⟨best, scored⟩, greatest⟩ := hitFor_eq_some found
  obtain ⟨bestListed, bestSeed, compared⟩ := mem_judgedFor_scoredSeeds.mp scored
  refine ⟨reaches, ⟨best, bestListed, bestSeed, compared⟩, ?_⟩
  intro seed seedListed isSeed other otherCompared
  exact greatest seed other (mem_judgedFor_scoredSeeds.mpr ⟨seedListed, isSeed, otherCompared⟩)

theorem exactAdmission_laneBHits (seeded : seeds ≠ [])
    (contexts : (corpus.map Hop2Context.contextId).Nodup)
    (revisions : (corpus.map Hop2Context.revisionId).Nodup) :
    ExactAdmission similarity vectors floorBasisPoints corpus seeds
      (laneBHits similarity vectors floorBasisPoints corpus seeds) where
  hits_exact := by
    intro candidate listed
    rw [admits_iff seeded contexts listed]
    refine and_congr_right fun _ => ?_
    rw [Option.ne_none_iff_exists']
    constructor
    · rintro ⟨hit, found⟩
      exact ⟨_, isBestScore_of_hit found⟩
    · rintro ⟨score, reaches, ⟨seed, seedListed, isSeed, compared⟩, _⟩
      rw [← Option.ne_none_iff_exists']
      intro none
      have below := hitFor_eq_none.mp none seed score
        (mem_judgedFor_scoredSeeds.mpr ⟨seedListed, isSeed, compared⟩)
      omega
  hits_best := by
    intro hit admitted
    rw [laneBHits_eq seeded] at admitted
    simp only [List.mem_insertionSort, List.mem_filterMap] at admitted
    obtain ⟨candidate, isCandidate, found⟩ := admitted
    obtain ⟨sameContext, sameRevision, sameSpace, _⟩ := hitFor_eq_some found
    exact ⟨candidate, (mem_candidatesOf.mp isCandidate).1, sameContext, sameRevision, sameSpace,
      (isBestScore_of_hit found).2⟩
  hits_once := by
    rw [laneBHits_eq seeded]
    rw [((List.perm_insertionSort _ _).map _).nodup_iff]
    rw [List.Nodup, List.pairwise_map, List.pairwise_filterMap]
    rw [List.Nodup, List.pairwise_map] at contexts
    refine (contexts.sublist List.filter_sublist).imp fun different hit found other otherFound => ?_
    rw [(hitFor_eq_some found).1, (hitFor_eq_some otherFound).1]
    exact different
  reported_once := by
    intro candidate listed notSeed
    rw [admits_iff seeded contexts listed, refuses_iff seeded revisions listed notSeed,
      skips_iff seeded revisions listed notSeed]
    by_cases uncompared : judgedFor similarity vectors (scoredSeeds vectors corpus seeds)
      candidate = []
    · have none : hitFor similarity vectors floorBasisPoints (scoredSeeds vectors corpus seeds)
          candidate = none := by
        rw [hitFor_eq_none, uncompared]
        nofun
      simp [uncompared, none]
    · by_cases none : hitFor similarity vectors floorBasisPoints (scoredSeeds vectors corpus seeds)
        candidate = none
      · simp [uncompared, none]
      · simp [uncompared, none, notSeed]
  skipped_counted := by
    have counted : ∀ candidate ∈ corpus, (decide (¬ IsSeed seeds candidate ∧
        (laneBHits similarity vectors floorBasisPoints corpus seeds).Skips candidate)) =
        decide (judgedFor similarity vectors (scoredSeeds vectors corpus seeds) candidate = [] ∧
          ¬ IsSeed seeds candidate) := by
      intro candidate listed
      by_cases isSeed : IsSeed seeds candidate
      · simp [isSeed]
      · simp [isSeed, skips_iff seeded revisions listed isSeed]
    rw [List.filter_congr counted, laneBHits_eq seeded, candidatesOf]
    simp [List.filter_filter]

end Exactness

/-! ### Orders of seeds and rows -/

theorem nodup_judgedFor_contexts {seeds : List Hop2Context}
    (contexts : (seeds.map Hop2Context.contextId).Nodup) {candidate : Hop2Context}
    {first second : Hop2Context × Nat}
    (firstMem : first ∈ judgedFor similarity vectors seeds candidate)
    (secondMem : second ∈ judgedFor similarity vectors seeds candidate)
    (same : first.1.contextId = second.1.contextId) : first.1 = second.1 := by
  obtain ⟨firstSeed, firstScore⟩ := first
  obtain ⟨secondSeed, secondScore⟩ := second
  obtain ⟨firstListed, _⟩ := mem_judgedFor.mp firstMem
  obtain ⟨secondListed, _⟩ := mem_judgedFor.mp secondMem
  exact List.inj_on_of_nodup_map contexts firstListed secondListed same

theorem hitFor_perm {seeds others : List Hop2Context} (permuted : seeds.Perm others)
    (contexts : (seeds.map Hop2Context.contextId).Nodup) (candidate : Hop2Context) :
    hitFor similarity vectors floorBasisPoints seeds candidate =
      hitFor similarity vectors floorBasisPoints others candidate := by
  have judged : (judgedFor similarity vectors seeds candidate).Perm
      (judgedFor similarity vectors others candidate) := by
    unfold judgedFor
    cases vectors.get? candidate.revisionId with
    | none => exact .refl _
    | some candidateVector => exact permuted.filterMap _
  have matched : matchedFor similarity vectors floorBasisPoints seeds candidate =
      matchedFor similarity vectors floorBasisPoints others candidate := by
    refine insertionSort_eq_of_perm SeedMatch.order (judged.filterMap _) ?_
    intro first firstMem second secondMem same
    obtain ⟨firstJudged, firstListed, firstEq⟩ := List.mem_filterMap.mp firstMem
    obtain ⟨secondJudged, secondListed, secondEq⟩ := List.mem_filterMap.mp secondMem
    unfold matchOf at firstEq secondEq
    split at firstEq
    · split at secondEq
      · cases firstEq
        cases secondEq
        unfold SeedMatch.order at same
        obtain ⟨score, context⟩ := Prod.mk.inj (toLex_inj.mp same)
        have scoreEq : firstJudged.2 = secondJudged.2 := OrderDual.toDual_inj.mp score
        have seedEq := nodup_judgedFor_contexts contexts firstListed secondListed context
        rw [seedEq, scoreEq]
      · cases secondEq
    · cases firstEq
  unfold hitFor
  rw [matched]

theorem hits_laneBHits_perm {corpus otherCorpus : List Hop2Context}
    {seeds otherSeeds : List (ContextId × RevisionId)} (permuted : otherCorpus.Perm corpus)
    (contexts : (corpus.map Hop2Context.contextId).Nodup)
    (sameSeeds : ∀ pair, pair ∈ otherSeeds ↔ pair ∈ seeds) :
    (laneBHits similarity vectors floorBasisPoints otherCorpus otherSeeds).hits =
      (laneBHits similarity vectors floorBasisPoints corpus seeds).hits := by
  by_cases seeded : seeds = []
  · have otherSeeded : otherSeeds = [] :=
      List.eq_nil_iff_forall_not_mem.mpr fun pair listed => by
        rw [sameSeeds, seeded] at listed
        cases listed
    unfold laneBHits
    rw [if_pos seeded, if_pos otherSeeded]
  · have otherSeeded : otherSeeds ≠ [] := by
      intro empty
      refine seeded (List.eq_nil_iff_forall_not_mem.mpr fun pair listed => ?_)
      rw [← sameSeeds, empty] at listed
      cases listed
    have sameTest : ∀ context, IsSeed otherSeeds context ↔ IsSeed seeds context :=
      fun context => sameSeeds _
    have scored : (scoredSeeds vectors otherCorpus otherSeeds).Perm
        (scoredSeeds vectors corpus seeds) := by
      unfold scoredSeeds
      simp only [sameTest]
      exact (permuted.filter _).filter _
    have candidates : (candidatesOf otherCorpus otherSeeds).Perm (candidatesOf corpus seeds) := by
      unfold candidatesOf
      simp only [sameTest]
      exact permuted.filter _
    have otherContexts : ((scoredSeeds vectors otherCorpus otherSeeds).map
        Hop2Context.contextId).Nodup := by
      rw [(scored.map _).nodup_iff]
      exact contexts.sublist ((List.filter_sublist.trans List.filter_sublist).map _)
    rw [laneBHits_eq seeded, laneBHits_eq otherSeeded]
    simp only [hitFor_perm scored otherContexts]
    refine insertionSort_eq_of_perm LaneBHit.order (candidates.filterMap _) ?_
    intro first firstMem second secondMem same
    obtain ⟨firstCandidate, firstListed, firstFound⟩ := List.mem_filterMap.mp firstMem
    obtain ⟨secondCandidate, secondListed, secondFound⟩ := List.mem_filterMap.mp secondMem
    unfold LaneBHit.order at same
    obtain ⟨_, rest⟩ := Prod.mk.inj (toLex_inj.mp same)
    obtain ⟨_, context⟩ := Prod.mk.inj (toLex_inj.mp rest)
    rw [(hitFor_eq_some firstFound).1, (hitFor_eq_some secondFound).1] at context
    have candidateEq : firstCandidate = secondCandidate := List.inj_on_of_nodup_map contexts
      (permuted.subset (List.mem_of_mem_filter firstListed))
      (permuted.subset (List.mem_of_mem_filter secondListed)) context
    subst candidateEq
    rw [firstFound] at secondFound
    exact Option.some.inj secondFound

/-- With a seed, the second hop is exact over the corpus, in whatever order
rows and seeds arrive. -/
theorem lane_b_exact (normalizedIdentifiers : List String → Finset String) (tables : Hop2Tables)
    (similarity : List Component → List Component → Nat)
    (vectors : BTreeMap RevisionId (List Component)) (floorBasisPoints : Nat)
    (seeds : List (ContextId × RevisionId)) (corpus : List Hop2Context) (seeded : seeds ≠ [])
    (rows : corpus.Perm (readHop2Corpus normalizedIdentifiers tables)) :
    ExactAdmission similarity vectors floorBasisPoints corpus seeds
        (laneBHits similarity vectors floorBasisPoints corpus seeds) ∧
      ∀ otherCorpus otherSeeds, otherCorpus.Perm corpus →
        (∀ pair, pair ∈ otherSeeds ↔ pair ∈ seeds) →
          (laneBHits similarity vectors floorBasisPoints otherCorpus otherSeeds).hits =
            (laneBHits similarity vectors floorBasisPoints corpus seeds).hits := by
  obtain ⟨contexts, revisions⟩ := nodup_readHop2Corpus normalizedIdentifiers tables
  rw [← (rows.map _).nodup_iff] at contexts revisions
  exact ⟨exactAdmission_laneBHits seeded contexts revisions,
    fun otherCorpus otherSeeds permuted sameSeeds =>
      hits_laneBHits_perm permuted contexts sameSeeds⟩

/-! ### A corpus of two Contexts -/

def sampleItem (number : Nat) : ContextItemRow :=
  ⟨⟨BitVec.ofNat 128 number⟩, ⟨1⟩, "accepted", some ⟨BitVec.ofNat 128 number⟩, true, none⟩

def sampleRevision (number : Nat) : ContextRevisionRow :=
  ⟨⟨BitVec.ofNat 128 number⟩, ⟨BitVec.ofNat 128 number⟩, none, "statement", "rationale",
    "accepted", 1000⟩

def sampleHop2Tables : Hop2Tables where
  contextItem := ⟨[sampleItem 1, sampleItem 2], by decide⟩
  contextRevision := ⟨[sampleRevision 1, sampleRevision 2], by decide⟩
  evidence := [⟨⟨1⟩, "claim", "reading", "[]"⟩, ⟨⟨2⟩, "claim", "reading", "[]"⟩]

def sampleHop2Corpus : List Hop2Context :=
  readHop2Corpus (fun _ => ∅) sampleHop2Tables

/-- Vectors of one component; the score is their sum. -/
def sampleVectors : BTreeMap RevisionId (List Nat) :=
  (BTreeMap.empty.insert ⟨1⟩ [5000]).insert ⟨2⟩ [4000]

def sampleSimilarity (first second : List Nat) : Nat :=
  first.sum + second.sum

theorem lane_b_exact_two :
    ExactAdmission sampleSimilarity sampleVectors 8000 sampleHop2Corpus [(⟨1⟩, ⟨1⟩)]
        (laneBHits sampleSimilarity sampleVectors 8000 sampleHop2Corpus [(⟨1⟩, ⟨1⟩)]) ∧
      (laneBHits sampleSimilarity sampleVectors 8000 sampleHop2Corpus [(⟨1⟩, ⟨1⟩)]).hits =
        [⟨⟨2⟩, ⟨2⟩, ⟨1⟩, ⟨⟨1⟩, ⟨1⟩, 9000, []⟩, []⟩] :=
  ⟨(lane_b_exact (fun _ => ∅) sampleHop2Tables sampleSimilarity sampleVectors 8000 [(⟨1⟩, ⟨1⟩)]
    sampleHop2Corpus (by decide) (.refl _)).1, by decide⟩

/-- Without a seed no candidate is reported, not even as skipped. -/
theorem unseeded_reports_nothing :
    ¬ ExactAdmission sampleSimilarity sampleVectors 8000 sampleHop2Corpus []
      (laneBHits sampleSimilarity sampleVectors 8000 sampleHop2Corpus []) := by
  intro exact
  have counted := exact.skipped_counted
  revert counted
  decide

end SharedContext.Search
