import SharedContext.Reducer.Dag
import SharedContext.Reducer.Definitions

/-!
# Spaces, Intents and Context revisions

The phases that decide which Spaces exist, which Intent and Context revisions
have a complete history, and which of the latter survive the relation closure:
a revision with a relation to a Context without surviving revisions is removed,
which may in turn empty another Context.
-/

namespace SharedContext

variable (facts : Facts)

/-! ### Spaces and Intents -/

def validSpaces : Finset SpaceId :=
  (facts.spaceCreations.filter fun _ node => node.eventId ∉ facts.invalidEventIds).keys

theorem mem_validSpaces {facts : Facts} {spaceId : SpaceId} :
    spaceId ∈ validSpaces facts ↔
      ∃ node, facts.spaceCreations.get? spaceId = some node ∧
        node.eventId ∉ facts.invalidEventIds := by
  simp only [validSpaces, BTreeMap.mem_keys_iff, BTreeMap.get?_filter_eq_some]

def intentCandidates (spaceId : SpaceId) : BTreeMap RevisionId IntentNode :=
  facts.intents.filter fun _ node =>
    node.spaceId = spaceId ∧ node.eventId ∉ facts.invalidEventIds

def IntentNode.parents (node : IntentNode) : List RevisionId :=
  node.revision.parentRevisionIds

def reducedIntents (spaceId : SpaceId) : ReducedDag RevisionId IntentNode :=
  reduceDag (intentCandidates facts spaceId) IntentNode.eventId IntentNode.parents
    .invalidRevisionReference .revisionCycle "intent revision"

theorem get?_reducedIntents {facts : Facts} {spaceId : SpaceId} {revisionId : RevisionId}
    {node : IntentNode} :
    (reducedIntents facts spaceId).nodes.get? revisionId = some node ↔
      (intentCandidates facts spaceId).get? revisionId = some node ∧
        CausalGraph.Grounded (intentCandidates facts spaceId) IntentNode.parents revisionId :=
  get?_reduceDag_eq_some

def intentDiagnostics : Finset ReducerDiagnostic :=
  (validSpaces facts).biUnion fun spaceId => (reducedIntents facts spaceId).diagnostics

/-! ### Context revisions with a complete history -/

abbrev ContextKey := SpaceId × ContextId

/-- The Contexts referenced from exactly one Space, where that Space is valid. -/
def ownedContexts : Finset ContextKey :=
  facts.contextOwners.flatMap fun contextId owners =>
    ((sole? owners).toFinset.filter fun spaceId => spaceId ∈ validSpaces facts).image
      fun spaceId => (spaceId, contextId)

theorem mem_ownedContexts {facts : Facts} {key : ContextKey} :
    key ∈ ownedContexts facts ↔
      facts.contextOwners.get? key.2 = some {key.1} ∧ key.1 ∈ validSpaces facts := by
  obtain ⟨spaceId, contextId⟩ := key
  simp only [ownedContexts, BTreeMap.mem_flatMap, Finset.mem_image, Finset.mem_filter,
    Option.mem_toFinset, Option.mem_def, sole?_eq_some, Prod.mk.injEq]
  constructor
  · rintro ⟨_, owners, found, _, ⟨rfl, isValid⟩, rfl, rfl⟩
    exact ⟨found, isValid⟩
  · rintro ⟨found, isValid⟩
    exact ⟨contextId, _, found, spaceId, ⟨rfl, isValid⟩, rfl, rfl⟩

def contextCandidates (key : ContextKey) : BTreeMap RevisionId ContextNode :=
  facts.contexts.filter fun _ node =>
    node.spaceId = key.1 ∧ node.contextId = key.2 ∧ node.eventId ∉ facts.invalidEventIds

def ContextNode.parents (node : ContextNode) : List RevisionId :=
  node.revision.parentRevisionIds

def reducedRevisions (key : ContextKey) : ReducedDag RevisionId ContextNode :=
  reduceDag (contextCandidates facts key) ContextNode.eventId ContextNode.parents
    .invalidRevisionReference .revisionCycle "context revision"

theorem get?_reducedRevisions {facts : Facts} {key : ContextKey} {revisionId : RevisionId}
    {node : ContextNode} :
    (reducedRevisions facts key).nodes.get? revisionId = some node ↔
      (contextCandidates facts key).get? revisionId = some node ∧
        CausalGraph.Grounded (contextCandidates facts key) ContextNode.parents revisionId :=
  get?_reduceDag_eq_some

abbrev ContextRevisions := BTreeMap ContextKey (BTreeMap RevisionId ContextNode)

def reducedContexts : ContextRevisions :=
  .ofKeys (ownedContexts facts) fun key => (reducedRevisions facts key).nodes.nonempty?

/-- The revision a table of Contexts stores under a Context and a revision ID. -/
def revision? (contexts : ContextRevisions) (key : ContextKey) (revisionId : RevisionId) :
    Option ContextNode :=
  (contexts.get? key).bind fun revisions => revisions.get? revisionId

theorem revision?_eq_some {contexts : ContextRevisions} {key : ContextKey}
    {revisionId : RevisionId} {node : ContextNode} :
    revision? contexts key revisionId = some node ↔
      ∃ revisions, contexts.get? key = some revisions ∧
        revisions.get? revisionId = some node :=
  Option.bind_eq_some_iff

/-- A revision reaches the relation closure when its Context has one valid
owner and its own history is complete. -/
theorem revision?_reducedContexts {facts : Facts} {key : ContextKey}
    {revisionId : RevisionId} {node : ContextNode} :
    revision? (reducedContexts facts) key revisionId = some node ↔
      key ∈ ownedContexts facts ∧
        (contextCandidates facts key).get? revisionId = some node ∧
        CausalGraph.Grounded (contextCandidates facts key) ContextNode.parents revisionId := by
  simp only [revision?_eq_some, reducedContexts, BTreeMap.get?_ofKeys_eq_some,
    BTreeMap.nonempty?_eq_some]
  constructor
  · rintro ⟨_, ⟨owned, rfl, -⟩, found⟩
    exact ⟨owned, get?_reducedRevisions.mp found⟩
  · rintro ⟨owned, found⟩
    have kept := get?_reducedRevisions.mpr found
    exact ⟨(reducedRevisions facts key).nodes, ⟨owned, rfl, revisionId, node, kept⟩, kept⟩

def contextDiagnostics : Finset ReducerDiagnostic :=
  (ownedContexts facts).biUnion fun key => (reducedRevisions facts key).diagnostics

/-! ### The relation closure -/

section Relations

variable (contexts : ContextRevisions) (invalid : Finset (ContextKey × RevisionId))

def revisionKeys : Finset (ContextKey × RevisionId) :=
  contexts.flatMap fun key revisions => revisions.keys.image fun revisionId => (key, revisionId)

/-- The Contexts that still have a revision outside `invalid`. -/
def existingContexts : Finset ContextId :=
  contexts.flatMap fun key revisions =>
    if ∃ revisionId ∈ revisions.keys, (key, revisionId) ∉ invalid then {key.2} else ∅

theorem mem_revisionKeys {contexts : ContextRevisions} {item : ContextKey × RevisionId} :
    item ∈ revisionKeys contexts ↔ ∃ node, revision? contexts item.1 item.2 = some node := by
  simp only [revisionKeys, BTreeMap.mem_flatMap, Finset.mem_image, revision?_eq_some,
    BTreeMap.mem_keys_iff]
  constructor
  · rintro ⟨key, revisions, found, revisionId, ⟨node, lookup⟩, rfl⟩
    exact ⟨node, revisions, found, lookup⟩
  · rintro ⟨node, revisions, found, lookup⟩
    exact ⟨item.1, revisions, found, item.2, ⟨node, lookup⟩, rfl⟩

theorem mem_existingContexts {contexts : ContextRevisions}
    {invalid : Finset (ContextKey × RevisionId)} {contextId : ContextId} :
    contextId ∈ existingContexts contexts invalid ↔
      ∃ spaceId revisionId node,
        revision? contexts (spaceId, contextId) revisionId = some node ∧
          ((spaceId, contextId), revisionId) ∉ invalid := by
  simp only [existingContexts, BTreeMap.mem_flatMap, revision?_eq_some]
  constructor
  · rintro ⟨⟨spaceId, contextId⟩, revisions, found, member⟩
    split at member
    · rename_i survivor
      obtain ⟨revisionId, isKey, outside⟩ := survivor
      obtain ⟨node, lookup⟩ := BTreeMap.mem_keys_iff.mp isKey
      obtain rfl := Finset.mem_singleton.mp member
      exact ⟨spaceId, revisionId, node, ⟨revisions, found, lookup⟩, outside⟩
    · exact absurd member (Finset.notMem_empty _)
  · rintro ⟨spaceId, revisionId, node, ⟨revisions, found, lookup⟩, outside⟩
    refine ⟨(spaceId, contextId), revisions, found, ?_⟩
    rw [if_pos ⟨revisionId, BTreeMap.mem_keys_of_get? lookup, outside⟩]
    exact Finset.mem_singleton_self contextId

def invalidRelation (existing : Finset ContextId) (contextId : ContextId)
    (relations : List ContextRelation) : Option (ReducerDiagnosticCode × String) :=
  relations.findSome? fun relation =>
    match relation.validate with
    | .error error => some (.invalidContextRelation, error.message)
    | .ok () =>
        if relation.targetContextId = contextId ∨ relation.targetContextId ∉ existing then
          some (.invalidContextRelationTarget,
            s!"target Context {relation.targetContextId} is self-referential, missing, or quarantined")
        else none

/-- Why a revision leaves in a round that starts with `invalid` already out. -/
def relationFault (key : ContextKey) (node : ContextNode) :
    Option (ReducerDiagnosticCode × String) :=
  match invalidRelation (existingContexts contexts invalid) key.2 node.revision.relations with
  | some fault => some fault
  | none =>
      if ∃ parent ∈ node.parents, (key, parent) ∈ invalid then
        some (.invalidRevisionReference, "revision depends on a relation-quarantined parent")
      else none

/-- Every relation of a revision is well formed and targets another Context
that is alive. -/
def RelationsHold (alive : ContextId → Prop) (contextId : ContextId) (node : ContextNode) :
    Prop :=
  ∀ relation ∈ node.revision.relations, relation.validate = .ok () ∧
    relation.targetContextId ≠ contextId ∧ alive relation.targetContextId

theorem relationFault_eq_none {contexts : ContextRevisions}
    {invalid : Finset (ContextKey × RevisionId)} {key : ContextKey} {node : ContextNode} :
    relationFault contexts invalid key node = none ↔
      RelationsHold (fun target => target ∈ existingContexts contexts invalid) key.2 node ∧
        ∀ parent ∈ node.parents, (key, parent) ∉ invalid := by
  have relationsPass :
      invalidRelation (existingContexts contexts invalid) key.2 node.revision.relations = none ↔
        RelationsHold (fun target => target ∈ existingContexts contexts invalid) key.2 node := by
    simp only [invalidRelation, List.findSome?_eq_none_iff, RelationsHold]
    refine forall₂_congr fun relation _ => ?_
    cases relation.validate with
    | error error => simp
    | ok passed => simp [not_or]
  rw [← relationsPass, relationFault]
  cases invalidRelation (existingContexts contexts invalid) key.2 node.revision.relations with
  | some fault => simp
  | none => simp

def relationDiagnostic (item : ContextKey × RevisionId) : Option ReducerDiagnostic :=
  (contexts.get? item.1).bind fun revisions =>
    (revisions.get? item.2).bind fun node =>
      (relationFault contexts invalid item.1 node).map fun (code, reason) =>
        ⟨code, toString item.2, {node.eventId},
          s!"context revision {item.2} has an invalid relation: {reason}"⟩

theorem relationDiagnostic_eq_some {contexts : ContextRevisions}
    {invalid : Finset (ContextKey × RevisionId)} {item : ContextKey × RevisionId}
    {diagnostic : ReducerDiagnostic}
    (labelled : relationDiagnostic contexts invalid item = some diagnostic) :
    ∃ node, revision? contexts item.1 item.2 = some node ∧
      relationFault contexts invalid item.1 node ≠ none ∧
      diagnostic.eventIds = {node.eventId} := by
  simp only [relationDiagnostic, Option.bind_eq_some_iff, Option.map_eq_some_iff] at labelled
  obtain ⟨revisions, found, node, lookup, fault, isFault, rfl⟩ := labelled
  refine ⟨node, revision?_eq_some.mpr ⟨revisions, found, lookup⟩, ?_, rfl⟩
  simp [isFault]

theorem relationDiagnostic_isSome {contexts : ContextRevisions}
    {invalid : Finset (ContextKey × RevisionId)} {item : ContextKey × RevisionId}
    {node : ContextNode} (found : revision? contexts item.1 item.2 = some node) :
    (relationDiagnostic contexts invalid item).isSome ↔
      relationFault contexts invalid item.1 node ≠ none := by
  obtain ⟨revisions, atKey, lookup⟩ := revision?_eq_some.mp found
  simp [relationDiagnostic, atKey, lookup, Option.isSome_iff_ne_none]

theorem relationDiagnostic_monotone (contexts : ContextRevisions) :
    Saturation.Monotone (relationDiagnostic contexts) := by
  intro smaller larger subset item admitted
  obtain ⟨diagnostic, labelled⟩ := Option.isSome_iff_exists.mp admitted
  obtain ⟨node, found, faulty, -⟩ := relationDiagnostic_eq_some labelled
  rw [relationDiagnostic_isSome found]
  intro sound
  apply faulty
  obtain ⟨relations, parents⟩ := relationFault_eq_none.mp sound
  apply relationFault_eq_none.mpr
  constructor
  · intro relation member
    obtain ⟨wellFormed, notSelf, alive⟩ := relations relation member
    obtain ⟨spaceId, revisionId, target, lookup, outside⟩ := mem_existingContexts.mp alive
    refine ⟨wellFormed, notSelf, mem_existingContexts.mpr ?_⟩
    exact ⟨spaceId, revisionId, target, lookup, fun inside => outside (subset inside)⟩
  · exact fun parent member inside => parents parent member (subset inside)

/-- The revisions the relation closure removes, with their diagnostics. -/
def relationClosure : Finset (ContextKey × RevisionId) × Finset ReducerDiagnostic :=
  Saturation.saturate (revisionKeys contexts) (relationDiagnostic contexts) ∅ ∅

/-- The Contexts with the revisions the closure keeps, the heads recomputed
among those, and the diagnostics of the others. -/
def validateContextRelations :
    ContextRevisions × BTreeMap ContextKey (Finset RevisionId) × Finset ReducerDiagnostic :=
  let closure := relationClosure contexts
  let retained := contexts.filterMap fun key revisions =>
    (revisions.filter fun revisionId _ => (key, revisionId) ∉ closure.1).nonempty?
  (retained,
    retained.map fun revisions =>
      heads (dagOf revisions ContextNode.eventId ContextNode.parents) revisions.keys,
    closure.2)

end Relations

theorem revision?_validateContextRelations {contexts : ContextRevisions} {key : ContextKey}
    {revisionId : RevisionId} {node : ContextNode} :
    revision? (validateContextRelations contexts).1 key revisionId = some node ↔
      revision? contexts key revisionId = some node ∧
        (key, revisionId) ∉ (relationClosure contexts).1 := by
  simp only [validateContextRelations, revision?_eq_some, BTreeMap.get?_filterMap,
    Option.bind_eq_some_iff, BTreeMap.nonempty?_eq_some]
  constructor
  · rintro ⟨_, ⟨revisions, found, rfl, -⟩, lookup⟩
    obtain ⟨lookup, outside⟩ := BTreeMap.get?_filter_eq_some.mp lookup
    exact ⟨⟨revisions, found, lookup⟩, outside⟩
  · rintro ⟨⟨revisions, found, lookup⟩, outside⟩
    have kept : (revisions.filter fun other _ =>
        (key, other) ∉ (relationClosure contexts).1).get? revisionId = some node :=
      BTreeMap.get?_filter_eq_some.mpr ⟨lookup, outside⟩
    exact ⟨_, ⟨revisions, found, rfl, revisionId, node, kept⟩, kept⟩

/-- What survives the closure has sound relations and surviving parents. -/
theorem relationFault_of_survives {contexts : ContextRevisions} {key : ContextKey}
    {revisionId : RevisionId} {node : ContextNode}
    (found : revision? contexts key revisionId = some node)
    (survives : (key, revisionId) ∉ (relationClosure contexts).1) :
    relationFault contexts (relationClosure contexts).1 key node = none := by
  by_contra faulty
  apply survives
  apply Saturation.mem_saturate_of_admitted
  · exact mem_revisionKeys.mpr ⟨node, found⟩
  · exact (relationDiagnostic_isSome found).mpr faulty

theorem survives_of_sound {contexts : ContextRevisions}
    (keep : ContextKey → RevisionId → Prop)
    (sound : ∀ key revisionId, keep key revisionId → ∃ node,
      revision? contexts key revisionId = some node ∧
        RelationsHold (fun target => ∃ spaceId other, keep (spaceId, target) other) key.2 node ∧
        ∀ parent ∈ node.parents, keep key parent)
    {key : ContextKey} {revisionId : RevisionId} (kept : keep key revisionId) :
    (key, revisionId) ∉ (relationClosure contexts).1 := by
  classical
  let outside := (revisionKeys contexts).filter fun item => ¬ keep item.1 item.2
  have within : (relationClosure contexts).1 ⊆ outside := by
    apply Saturation.saturate_subset_of_closed (relationDiagnostic_monotone contexts)
    · exact Finset.empty_subset _
    · intro item member admitted
      refine Finset.mem_filter.mpr ⟨member, fun isKept => ?_⟩
      obtain ⟨node, found, relations, parents⟩ := sound _ _ isKept
      apply (relationDiagnostic_isSome found).mp admitted
      apply relationFault_eq_none.mpr
      constructor
      · intro relation isRelation
        obtain ⟨wellFormed, notSelf, spaceId, other, alive⟩ := relations relation isRelation
        obtain ⟨target, lookup, -⟩ := sound _ _ alive
        refine ⟨wellFormed, notSelf, mem_existingContexts.mpr ⟨spaceId, other, target, lookup, ?_⟩⟩
        exact fun isOutside => (Finset.mem_filter.mp isOutside).2 alive
      · intro parent isParent isOutside
        exact (Finset.mem_filter.mp isOutside).2 (parents parent isParent)
  exact fun removed => (Finset.mem_filter.mp (within removed)).2 kept

theorem mem_blamed_relationClosure {contexts : ContextRevisions} {eventId : EventId} :
    eventId ∈ blamed (relationClosure contexts).2 ↔
      ∃ key revisionId node, revision? contexts key revisionId = some node ∧
        (key, revisionId) ∈ (relationClosure contexts).1 ∧ node.eventId = eventId := by
  constructor
  · intro isBlamed
    obtain ⟨diagnostic, member, named⟩ := mem_blamed.mp isBlamed
    obtain ⟨stage, -, item, taken, -, -, labelled⟩ :=
      Saturation.exists_stage_of_mem_labels ∅ ∅ member (Finset.notMem_empty _)
    obtain ⟨node, found, -, eventIdsEq⟩ := relationDiagnostic_eq_some labelled
    rw [eventIdsEq, Finset.mem_singleton] at named
    exact ⟨item.1, item.2, node, found, taken, named.symm⟩
  · rintro ⟨key, revisionId, node, found, removed, rfl⟩
    obtain ⟨stage, -, -, -, diagnostic, recorded, labelled⟩ :=
      Saturation.exists_stage_of_mem_saturate ∅ ∅ removed (Finset.notMem_empty _)
    obtain ⟨other, lookup, -, eventIdsEq⟩ := relationDiagnostic_eq_some labelled
    have sameNode := Option.some.inj (lookup.symm.trans found)
    refine mem_blamed.mpr ⟨diagnostic, recorded, ?_⟩
    rw [eventIdsEq, sameNode]
    exact Finset.mem_singleton_self _

def validContexts : ContextRevisions :=
  (validateContextRelations (reducedContexts facts)).1

def contextHeads : BTreeMap ContextKey (Finset RevisionId) :=
  (validateContextRelations (reducedContexts facts)).2.1

def relationDiagnostics : Finset ReducerDiagnostic :=
  (validateContextRelations (reducedContexts facts)).2.2

/-- The revisions of one Context that survive, none if the Context does not. -/
def validRevisions (key : ContextKey) : BTreeMap RevisionId ContextNode :=
  ((validContexts facts).get? key).getD .empty

theorem get?_validRevisions {facts : Facts} {key : ContextKey} {revisionId : RevisionId} :
    (validRevisions facts key).get? revisionId =
      revision? (validContexts facts) key revisionId := by
  rw [validRevisions, revision?]
  cases (validContexts facts).get? key <;> rfl

theorem mem_keys_validContexts {facts : Facts} {key : ContextKey} :
    key ∈ (validContexts facts).keys ↔
      ∃ revisionId node, (validRevisions facts key).get? revisionId = some node := by
  simp only [get?_validRevisions, revision?_eq_some, BTreeMap.mem_keys_iff]
  constructor
  · rintro ⟨revisions, found⟩
    have filtered := found
    simp only [validContexts, validateContextRelations, BTreeMap.get?_filterMap,
      Option.bind_eq_some_iff, BTreeMap.nonempty?_eq_some] at filtered
    obtain ⟨all, -, rfl, revisionId, node, lookup⟩ := filtered
    exact ⟨revisionId, node, _, found, lookup⟩
  · rintro ⟨revisionId, node, revisions, found, -⟩
    exact ⟨revisions, found⟩

/-- A valid revision: one valid owner, complete history, kept by the closure. -/
theorem get?_validRevisions_eq_some {facts : Facts} {key : ContextKey}
    {revisionId : RevisionId} {node : ContextNode} :
    (validRevisions facts key).get? revisionId = some node ↔
      key ∈ ownedContexts facts ∧
        (contextCandidates facts key).get? revisionId = some node ∧
        CausalGraph.Grounded (contextCandidates facts key) ContextNode.parents revisionId ∧
        (key, revisionId) ∉ (relationClosure (reducedContexts facts)).1 := by
  rw [get?_validRevisions, validContexts, revision?_validateContextRelations,
    revision?_reducedContexts]
  simp only [and_assoc]

/-- A Context with a valid revision, in whichever Space. -/
def ContextAlive (facts : Facts) (contextId : ContextId) : Prop :=
  ∃ spaceId, (spaceId, contextId) ∈ (validContexts facts).keys

theorem relationsHold_of_valid {facts : Facts} {key : ContextKey} {revisionId : RevisionId}
    {node : ContextNode} (found : (validRevisions facts key).get? revisionId = some node) :
    RelationsHold (ContextAlive facts) key.2 node := by
  rw [get?_validRevisions, validContexts, revision?_validateContextRelations] at found
  obtain ⟨relations, -⟩ := relationFault_eq_none.mp (relationFault_of_survives found.1 found.2)
  intro relation member
  obtain ⟨wellFormed, notSelf, alive⟩ := relations relation member
  obtain ⟨spaceId, other, target, lookup, outside⟩ := mem_existingContexts.mp alive
  refine ⟨wellFormed, notSelf, spaceId, mem_keys_validContexts.mpr ⟨other, target, ?_⟩⟩
  rw [get?_validRevisions, validContexts, revision?_validateContextRelations]
  exact ⟨lookup, outside⟩

theorem parents_valid_of_valid {facts : Facts} {key : ContextKey} {revisionId : RevisionId}
    {node : ContextNode} (found : (validRevisions facts key).get? revisionId = some node)
    {parent : RevisionId} (member : parent ∈ node.parents) :
    ∃ parentNode, (validRevisions facts key).get? parent = some parentNode := by
  have valid := found
  rw [get?_validRevisions, validContexts, revision?_validateContextRelations] at valid
  obtain ⟨-, parents⟩ := relationFault_eq_none.mp (relationFault_of_survives valid.1 valid.2)
  obtain ⟨owned, candidate, grounded, -⟩ := get?_validRevisions_eq_some.mp found
  have parentGrounded := grounded.parent candidate member
  obtain ⟨parentNode, lookup⟩ := parentGrounded.found
  refine ⟨parentNode, get?_validRevisions_eq_some.mpr ⟨owned, lookup, parentGrounded, ?_⟩⟩
  exact parents parent member

/-- A set of revisions with one valid owner each, closed under parents and
with all relations leading back into the set, is valid. -/
theorem get?_validRevisions_of_sound {facts : Facts}
    (keep : ContextKey → RevisionId → Prop)
    (sound : ∀ key revisionId, keep key revisionId → ∃ node,
      key ∈ ownedContexts facts ∧
        (contextCandidates facts key).get? revisionId = some node ∧
        CausalGraph.Grounded (contextCandidates facts key) ContextNode.parents revisionId ∧
        RelationsHold (fun target => ∃ spaceId other, keep (spaceId, target) other) key.2 node ∧
        ∀ parent ∈ node.parents, keep key parent)
    {key : ContextKey} {revisionId : RevisionId} (kept : keep key revisionId) :
    ∃ node, (validRevisions facts key).get? revisionId = some node := by
  obtain ⟨node, owned, found, grounded, -⟩ := sound key revisionId kept
  refine ⟨node, get?_validRevisions_eq_some.mpr ⟨owned, found, grounded, ?_⟩⟩
  apply survives_of_sound keep _ kept
  intro otherKey other isKept
  obtain ⟨otherNode, otherOwned, lookup, otherGrounded, relations, parents⟩ :=
    sound otherKey other isKept
  refine ⟨otherNode, revision?_reducedContexts.mpr ⟨otherOwned, lookup, otherGrounded⟩, ?_⟩
  exact ⟨relations, parents⟩

end SharedContext
