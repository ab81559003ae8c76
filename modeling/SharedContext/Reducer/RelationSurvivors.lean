import SharedContext.Library.Ancestry
import SharedContext.Library.Rounds
import SharedContext.Reducer.Contexts

/-!
# Survivors of the relation closure

The revisions that the relation closure keeps are the largest set whose
relations and parents stay inside it, whatever the order of removal.
-/

namespace SharedContext

open CausalGraph

section Survivors

variable (contexts : ContextRevisions)

/-- Every history is complete within its Context and free of cycles. -/
def DagValid : Prop :=
  ∀ key revisions, contexts.get? key = some revisions →
    ∀ revisionId node, revisions.get? revisionId = some node →
      Grounded revisions ContextNode.parents revisionId

/-- Revisions whose parents are among them, and each of whose relations is well
formed and targets another Context that has one of them. -/
structure ConsistentRevisions (kept : Finset (ContextKey × RevisionId)) : Prop where
  stored : kept ⊆ revisionKeys contexts
  parents : ∀ item ∈ kept, ∀ node, revision? contexts item.1 item.2 = some node →
    ∀ parent ∈ node.parents, (item.1, parent) ∈ kept
  relations : ∀ item ∈ kept, ∀ node, revision? contexts item.1 item.2 = some node →
    ∀ relation ∈ node.revision.relations, relation.validate = .ok () ∧
      relation.targetContextId ≠ item.1.2 ∧
      ∃ spaceId revisionId, ((spaceId, relation.targetContextId), revisionId) ∈ kept

def survivors : Finset (ContextKey × RevisionId) :=
  revisionKeys (validateContextRelations contexts).1

/-- A revision of a Context is a parent of another one. -/
def RevisionParent (key : ContextKey) (parent child : RevisionId) : Prop :=
  ∃ node, revision? contexts key child = some node ∧ parent ∈ node.parents

variable {contexts}

theorem mem_survivors {item : ContextKey × RevisionId} :
    item ∈ survivors contexts ↔
      item ∈ revisionKeys contexts ∧ item ∉ (relationClosure contexts).1 := by
  rw [survivors, mem_revisionKeys, mem_revisionKeys]
  simp only [revision?_validateContextRelations]
  constructor
  · rintro ⟨node, found, outside⟩
    exact ⟨⟨node, found⟩, outside⟩
  · rintro ⟨⟨node, found⟩, outside⟩
    exact ⟨node, found, outside⟩

theorem survivors_eq : survivors contexts = revisionKeys contexts \ (relationClosure contexts).1 := by
  ext item
  rw [mem_survivors, Finset.mem_sdiff]

theorem survivors_consistent (valid : DagValid contexts) :
    ConsistentRevisions contexts (survivors contexts) where
  stored item member := (mem_survivors.mp member).1
  parents item member node found parent isParent := by
    obtain ⟨-, outside⟩ := mem_survivors.mp member
    have sound := relationFault_eq_none.mp (relationFault_of_survives found outside)
    refine mem_survivors.mpr ⟨mem_revisionKeys.mpr ?_, sound.2 parent isParent⟩
    obtain ⟨revisions, atKey, lookup⟩ := revision?_eq_some.mp found
    have grounded := valid item.1 revisions atKey item.2 node lookup
    obtain ⟨parentNode, parentFound⟩ := (grounded.parent lookup isParent).found
    exact ⟨parentNode, revision?_eq_some.mpr ⟨revisions, atKey, parentFound⟩⟩
  relations item member node found relation isRelation := by
    obtain ⟨-, outside⟩ := mem_survivors.mp member
    have sound := relationFault_eq_none.mp (relationFault_of_survives found outside)
    obtain ⟨wellFormed, notSelf, alive⟩ := sound.1 relation isRelation
    obtain ⟨spaceId, revisionId, target, lookup, survives⟩ := mem_existingContexts.mp alive
    exact ⟨wellFormed, notSelf, spaceId, revisionId,
      mem_survivors.mpr ⟨mem_revisionKeys.mpr ⟨target, lookup⟩, survives⟩⟩

theorem ConsistentRevisions.subset_survivors {kept : Finset (ContextKey × RevisionId)}
    (consistent : ConsistentRevisions contexts kept) : kept ⊆ survivors contexts := by
  intro item member
  refine mem_survivors.mpr ⟨consistent.stored member, ?_⟩
  refine survives_of_sound (fun key revisionId => (key, revisionId) ∈ kept) ?_ member
  intro key revisionId isKept
  obtain ⟨node, found⟩ := mem_revisionKeys.mp (consistent.stored isKept)
  exact ⟨node, found, consistent.relations _ isKept node found,
    consistent.parents _ isKept node found⟩

theorem survivors_of_stuck {removed : Finset (ContextKey × RevisionId)}
    (reached : Saturation.Admits (revisionKeys contexts) (relationDiagnostic contexts) ∅ removed)
    (stuck : Saturation.newly (revisionKeys contexts) (relationDiagnostic contexts) removed = ∅) :
    revisionKeys contexts \ removed = survivors contexts := by
  rw [survivors_eq, relationClosure]
  rw [reached.eq_saturate (relationDiagnostic_monotone contexts) stuck ∅]

theorem mem_recomputedHeads {key : ContextKey} {revisionId : RevisionId} :
    (∃ top, (validateContextRelations contexts).2.1.get? key = some top ∧ revisionId ∈ top) ↔
      (key, revisionId) ∈ survivors contexts ∧
        ∀ child, (key, child) ∈ survivors contexts →
          ¬ RevisionParent contexts key revisionId child := by
  have isHead (revisions : BTreeMap RevisionId ContextNode) :
      revisionId ∈ SharedContext.heads (dagOf revisions ContextNode.eventId ContextNode.parents)
        revisions.keys ↔
      revisionId ∈ revisions.keys ∧ ∀ child node, revisions.get? child = some node →
        revisionId ∉ node.parents := by
    rw [SharedContext.heads, CausalGraph.mem_heads]
    refine and_congr_right fun _ => ?_
    constructor
    · intro unreferenced child node found
      exact unreferenced child (BTreeMap.mem_keys_of_get? found) _
        (get?_dagOf_eq_some.mpr ⟨node, found, rfl⟩)
    · intro unreferenced child _ dagNode lookup
      obtain ⟨node, found, rfl⟩ := get?_dagOf_eq_some.mp lookup
      exact unreferenced child node found
  have retained : (validateContextRelations contexts).2.1 =
      (validateContextRelations contexts).1.map fun revisions =>
        SharedContext.heads (dagOf revisions ContextNode.eventId ContextNode.parents)
          revisions.keys := rfl
  have survives (other : RevisionId) : (key, other) ∈ survivors contexts ↔
      ∃ revisions node, (validateContextRelations contexts).1.get? key = some revisions ∧
        revisions.get? other = some node := by
    rw [survivors, mem_revisionKeys]
    simp only [revision?_eq_some]
    exact exists_comm.trans (by simp only [exists_and_left])
  have original (other : RevisionId) (node : ContextNode)
      (revisions : BTreeMap RevisionId ContextNode)
      (atKey : (validateContextRelations contexts).1.get? key = some revisions)
      (found : revisions.get? other = some node) :
      revision? contexts key other = some node :=
    (revision?_validateContextRelations.mp
      (revision?_eq_some.mpr ⟨revisions, atKey, found⟩)).1
  simp only [retained, BTreeMap.get?_map, Option.map_eq_some_iff]
  constructor
  · rintro ⟨_, ⟨revisions, atKey, rfl⟩, member⟩
    obtain ⟨inKeys, unreferenced⟩ := (isHead revisions).mp member
    obtain ⟨node, found⟩ := BTreeMap.mem_keys_iff.mp inKeys
    refine ⟨(survives revisionId).mpr ⟨revisions, node, atKey, found⟩, ?_⟩
    rintro child childSurvives ⟨childNode, childFound, isParent⟩
    obtain ⟨others, kept, otherKey, keptFound⟩ := (survives child).mp childSurvives
    obtain rfl := Option.some.inj (atKey.symm.trans otherKey)
    have same := original child kept revisions atKey keptFound
    obtain rfl := Option.some.inj (same.symm.trans childFound)
    exact unreferenced child kept keptFound isParent
  · rintro ⟨member, unreferenced⟩
    obtain ⟨revisions, node, atKey, found⟩ := (survives revisionId).mp member
    refine ⟨_, ⟨revisions, atKey, rfl⟩, (isHead revisions).mpr
      ⟨BTreeMap.mem_keys_of_get? found, ?_⟩⟩
    intro child childNode childFound isParent
    exact unreferenced child ((survives child).mpr ⟨revisions, childNode, atKey, childFound⟩)
      ⟨childNode, original child childNode revisions atKey childFound, isParent⟩

theorem mem_recomputedHeads_iff_maximal (valid : DagValid contexts) {key : ContextKey}
    {revisionId : RevisionId} :
    (∃ top, (validateContextRelations contexts).2.1.get? key = some top ∧ revisionId ∈ top) ↔
      (key, revisionId) ∈ survivors contexts ∧
        ∀ other, (key, other) ∈ survivors contexts →
          ¬ Relation.TransGen (RevisionParent contexts key) revisionId other := by
  rw [mem_recomputedHeads]
  refine and_congr_right fun _ => ?_
  constructor
  · intro unreferenced other survives derives
    obtain ⟨child, isParent, above⟩ := Relation.TransGen.head'_iff.mp derives
    have childSurvives : (key, child) ∈ survivors contexts := by
      clear isParent derives
      induction above using Relation.ReflTransGen.head_induction_on with
      | refl => exact survives
      | head step _ ih =>
          obtain ⟨node, found, member⟩ := step
          exact (survivors_consistent valid).parents _ ih node found _ member
    exact unreferenced child childSurvives isParent
  · exact fun maximal child survives isParent => maximal child survives (.single isParent)

/-- The closure ends after at most one round for each revision, and leaves the
largest consistent set of revisions, whatever the order of removal; the heads of
each Context are its maximal survivors. -/
theorem validateContextRelations_greatest (valid : DagValid contexts) :
    (∃ count ≤ (revisionKeys contexts).card,
      Saturation.newly (revisionKeys contexts) (relationDiagnostic contexts)
        (Saturation.rounds (revisionKeys contexts) (relationDiagnostic contexts) ∅ count) = ∅) ∧
    ConsistentRevisions contexts (survivors contexts) ∧
    (∀ kept, ConsistentRevisions contexts kept → kept ⊆ survivors contexts) ∧
    (∀ removed,
      Saturation.Admits (revisionKeys contexts) (relationDiagnostic contexts) ∅ removed →
      Saturation.newly (revisionKeys contexts) (relationDiagnostic contexts) removed = ∅ →
      revisionKeys contexts \ removed = survivors contexts) ∧
    (∀ key revisionId node,
      revision? (validateContextRelations contexts).1 key revisionId = some node ↔
        revision? contexts key revisionId = some node ∧ (key, revisionId) ∈ survivors contexts) ∧
    ∀ key revisionId,
      (∃ top, (validateContextRelations contexts).2.1.get? key = some top ∧
        revisionId ∈ top) ↔
      (key, revisionId) ∈ survivors contexts ∧
        ∀ other, (key, other) ∈ survivors contexts →
          ¬ Relation.TransGen (RevisionParent contexts key) revisionId other := by
  refine ⟨?_, survivors_consistent valid, fun kept consistent => consistent.subset_survivors,
    fun removed reached stuck => survivors_of_stuck reached stuck, ?_,
    fun key revisionId => mem_recomputedHeads_iff_maximal valid⟩
  · obtain ⟨count, bounded, -, stuck⟩ := Saturation.exists_rounds_stuck (revisionKeys contexts)
      (relationDiagnostic contexts) ∅ ∅
    exact ⟨count, by simpa using bounded, stuck⟩
  · intro key revisionId node
    rw [revision?_validateContextRelations]
    refine and_congr_right fun found => ?_
    rw [mem_survivors, and_iff_right (mem_revisionKeys.mpr ⟨node, found⟩)]

end Survivors

/-! ### Two Contexts, one of which depends on the other -/

def plainRevision (revisionId : RevisionId) (relations : List ContextRelation) :
    ContextRevision where
  revisionId := revisionId
  parentRevisionIds := []
  kind := .decision
  topicKey := none
  problemView := none
  statement := "Retry the upload"
  rationale := "The link drops"
  applicability := ⟨[], [], []⟩
  assumptions := []
  recheckWhen := []
  hints := []
  relations := relations
  evidence := []

def dependency (rationale : String) : ContextRelation :=
  ⟨⟨11⟩, .dependsOn, rationale, ["The upload is retried"]⟩

def firstNode (rationale : String) : ContextNode :=
  ⟨⟨20⟩, ⟨1⟩, ⟨10⟩, plainRevision ⟨30⟩ [dependency rationale]⟩

def secondNode : ContextNode :=
  ⟨⟨21⟩, ⟨1⟩, ⟨11⟩, plainRevision ⟨31⟩ []⟩

def firstKey : ContextKey :=
  (⟨1⟩, ⟨10⟩)

def secondKey : ContextKey :=
  (⟨1⟩, ⟨11⟩)

theorem firstKey_ne_secondKey : firstKey ≠ secondKey := by
  decide

theorem dependency_elsewhere (rationale : String) :
    (dependency rationale).targetContextId ≠ firstKey.2 := by
  simp [dependency, firstKey]

/-- A Context that depends on another one, for a reason. -/
def twoContexts (rationale : String) : ContextRevisions :=
  (BTreeMap.empty.insert firstKey (BTreeMap.empty.insert ⟨30⟩ (firstNode rationale))).insert
    secondKey (BTreeMap.empty.insert ⟨31⟩ secondNode)

theorem revision?_twoContexts {rationale : String} {key : ContextKey} {revisionId : RevisionId}
    {node : ContextNode} :
    revision? (twoContexts rationale) key revisionId = some node ↔
      (key = firstKey ∧ revisionId = ⟨30⟩ ∧ firstNode rationale = node) ∨
        (key = secondKey ∧ revisionId = ⟨31⟩ ∧ secondNode = node) := by
  have apart := firstKey_ne_secondKey
  rw [revision?_eq_some]
  simp only [twoContexts, BTreeMap.get?_insert, BTreeMap.get?_empty]
  by_cases first : key = firstKey
  · subst first
    simp [apart, BTreeMap.get?_insert, ite_eq_iff]
  · by_cases second : key = secondKey
    · subst second
      simp [apart.symm, BTreeMap.get?_insert, ite_eq_iff]
    · simp [first, second]

theorem twoContexts_valid (rationale : String) : DagValid (twoContexts rationale) := by
  intro key revisions atKey revisionId node found
  have stored := revision?_twoContexts.mp (revision?_eq_some.mpr ⟨revisions, atKey, found⟩)
  refine Grounded.of_no_parents found ?_
  rcases stored with ⟨-, -, rfl⟩ | ⟨-, -, rfl⟩ <;> rfl

theorem mem_twoContexts {rationale : String} {item : ContextKey × RevisionId} :
    item ∈ revisionKeys (twoContexts rationale) ↔
      item = (firstKey, ⟨30⟩) ∨ item = (secondKey, ⟨31⟩) := by
  rw [mem_revisionKeys]
  simp only [revision?_twoContexts]
  constructor
  · rintro ⟨node, ⟨key, revision, -⟩ | ⟨key, revision, -⟩⟩
    · exact Or.inl (Prod.ext key revision)
    · exact Or.inr (Prod.ext key revision)
  · rintro (rfl | rfl)
    · exact ⟨_, Or.inl ⟨rfl, rfl, rfl⟩⟩
    · exact ⟨_, Or.inr ⟨rfl, rfl, rfl⟩⟩

/-- Every revision has its parents and targets another stored Context, but a
relation without a rationale removes its revision. -/
theorem malformed_relation_removed :
    DagValid (twoContexts " ") ∧
    (∀ item ∈ revisionKeys (twoContexts " "), ∀ node,
      revision? (twoContexts " ") item.1 item.2 = some node →
        (∀ parent ∈ node.parents, (item.1, parent) ∈ revisionKeys (twoContexts " ")) ∧
        ∀ relation ∈ node.revision.relations, relation.targetContextId ≠ item.1.2 ∧
          ∃ spaceId revisionId,
            ((spaceId, relation.targetContextId), revisionId) ∈ revisionKeys (twoContexts " ")) ∧
    (firstKey, ⟨30⟩) ∈ revisionKeys (twoContexts " ") ∧
    (firstKey, ⟨30⟩) ∉ survivors (twoContexts " ") := by
  refine ⟨twoContexts_valid " ", ?_, mem_twoContexts.mpr (Or.inl rfl), ?_⟩
  · rintro ⟨key, revisionId⟩ - node found
    rcases revision?_twoContexts.mp found with ⟨rfl, -, rfl⟩ | ⟨rfl, -, rfl⟩
    · refine ⟨fun _ isParent => absurd isParent List.not_mem_nil, ?_⟩
      intro relation isRelation
      obtain rfl := List.mem_singleton.mp isRelation
      exact ⟨dependency_elsewhere _, ⟨1⟩, ⟨31⟩, mem_twoContexts.mpr (Or.inr rfl)⟩
    · exact ⟨fun _ isParent => absurd isParent List.not_mem_nil,
        fun _ isRelation => absurd isRelation List.not_mem_nil⟩
  · intro survives
    have consistent := survivors_consistent (twoContexts_valid " ")
    have found : revision? (twoContexts " ") firstKey ⟨30⟩ = some (firstNode " ") :=
      revision?_twoContexts.mpr (Or.inl ⟨rfl, rfl, rfl⟩)
    have wellFormed := (consistent.relations _ survives _ found (dependency " ")
      (List.mem_singleton.mpr rfl)).1
    exact absurd wellFormed (by decide)

/-- With a rationale, both revisions survive. -/
theorem validateContextRelations_greatest_two :
    survivors (twoContexts "The upload needs it") =
      revisionKeys (twoContexts "The upload needs it") := by
  obtain ⟨-, consistent, greatest, -⟩ :=
    validateContextRelations_greatest (twoContexts_valid "The upload needs it")
  refine Finset.Subset.antisymm consistent.stored (greatest _ ⟨subset_rfl, ?_, ?_⟩)
  · rintro ⟨key, revisionId⟩ - node found
    rcases revision?_twoContexts.mp found with ⟨rfl, -, rfl⟩ | ⟨rfl, -, rfl⟩
    · exact fun _ isParent => absurd isParent List.not_mem_nil
    · exact fun _ isParent => absurd isParent List.not_mem_nil
  · rintro ⟨key, revisionId⟩ - node found relation isRelation
    rcases revision?_twoContexts.mp found with ⟨rfl, -, rfl⟩ | ⟨rfl, -, rfl⟩
    · obtain rfl := List.mem_singleton.mp isRelation
      exact ⟨by decide, dependency_elsewhere _, ⟨1⟩, ⟨31⟩, mem_twoContexts.mpr (Or.inr rfl)⟩
    · exact absurd isRelation List.not_mem_nil

end SharedContext
