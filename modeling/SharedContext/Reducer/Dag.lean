import SharedContext.Library.CausalGraph
import SharedContext.Reducer.Projection

/-!
# Validated causal graphs

`validateDag` separates the nodes of one aggregate's causal graph whose
history is complete from those with a missing parent and those on or above a
cycle, with one diagnostic for every node it rejects.
-/

namespace SharedContext

def blamed (diagnostics : Finset ReducerDiagnostic) : Finset EventId :=
  diagnostics.biUnion ReducerDiagnostic.eventIds

theorem mem_blamed {diagnostics : Finset ReducerDiagnostic} {eventId : EventId} :
    eventId ∈ blamed diagnostics ↔
      ∃ diagnostic ∈ diagnostics, eventId ∈ diagnostic.eventIds :=
  Finset.mem_biUnion

@[simp]
theorem blamed_union (first second : Finset ReducerDiagnostic) :
    blamed (first ∪ second) = blamed first ∪ blamed second :=
  Finset.union_biUnion

@[simp]
theorem blamed_singleton (diagnostic : ReducerDiagnostic) :
    blamed {diagnostic} = diagnostic.eventIds :=
  Finset.singleton_biUnion

theorem mem_blamed_flatMap {κ ν : Type*} {table : BTreeMap κ ν}
    {each : κ → ν → Finset ReducerDiagnostic} {eventId : EventId} :
    eventId ∈ blamed (table.flatMap each) ↔
      ∃ key value, table.get? key = some value ∧ eventId ∈ blamed (each key value) := by
  simp only [mem_blamed, BTreeMap.mem_flatMap]
  constructor
  · rintro ⟨diagnostic, ⟨key, value, found, member⟩, named⟩
    exact ⟨key, value, found, diagnostic, member, named⟩
  · rintro ⟨key, value, found, diagnostic, member, named⟩
    exact ⟨diagnostic, ⟨key, value, found, member⟩, named⟩

theorem mem_blamed_biUnion {α : Type*} {items : Finset α}
    {each : α → Finset ReducerDiagnostic} {eventId : EventId} :
    eventId ∈ blamed (items.biUnion each) ↔ ∃ item ∈ items, eventId ∈ blamed (each item) := by
  simp only [mem_blamed, Finset.mem_biUnion]
  constructor
  · rintro ⟨diagnostic, ⟨item, member, isDiagnostic⟩, named⟩
    exact ⟨item, member, diagnostic, isDiagnostic, named⟩
  · rintro ⟨item, member, diagnostic, isDiagnostic, named⟩
    exact ⟨diagnostic, ⟨item, member, isDiagnostic⟩, named⟩

theorem mem_blamed_collect {α : Type*} {items : List α}
    {each : α → Finset ReducerDiagnostic} {eventId : EventId} :
    eventId ∈ blamed (collect items each) ↔ ∃ item ∈ items, eventId ∈ blamed (each item) := by
  simp only [mem_blamed, mem_collect]
  constructor
  · rintro ⟨diagnostic, ⟨item, member, isDiagnostic⟩, named⟩
    exact ⟨item, member, diagnostic, isDiagnostic, named⟩
  · rintro ⟨item, member, diagnostic, isDiagnostic, named⟩
    exact ⟨diagnostic, ⟨item, member, isDiagnostic⟩, named⟩

/-- The diagnostic set of one check: one diagnostic where the check fails. -/
def diagnoseUnless (passes : Prop) [Decidable passes] (diagnostic : ReducerDiagnostic) :
    Finset ReducerDiagnostic :=
  if passes then ∅ else {diagnostic}

@[simp]
theorem mem_blamed_diagnoseUnless {passes : Prop} [Decidable passes]
    {diagnostic : ReducerDiagnostic} {eventId : EventId} :
    eventId ∈ blamed (diagnoseUnless passes diagnostic) ↔
      ¬ passes ∧ eventId ∈ diagnostic.eventIds := by
  rw [diagnoseUnless]
  split <;> simp [blamed, *]

structure DagNode (κ : Type) where
  eventId : EventId
  parents : List κ

section Dag

variable {κ : Type} [DecidableEq κ] [ToString κ]

/-- The valid nodes of a causal graph and the diagnostics of the others. -/
def validateDag (nodes : BTreeMap κ (DagNode κ))
    (invalidReferenceCode cycleCode : ReducerDiagnosticCode) (entityName : String) :
    Finset κ × Finset ReducerDiagnostic :=
  let invalid := CausalGraph.danglingClosure nodes DagNode.parents fun id node =>
    (⟨invalidReferenceCode, toString id, {node.eventId},
      s!"{entityName} {id} has a missing, quarantined, or cross-aggregate parent"⟩ :
      ReducerDiagnostic)
  let valid := CausalGraph.orderable nodes DagNode.parents invalid.1
  (valid, invalid.2 ∪ nodes.flatMap fun id node =>
    diagnoseUnless (id ∈ invalid.1 ∨ id ∈ valid)
      ⟨cycleCode, toString id, {node.eventId},
        s!"{entityName} {id} is cyclic or depends on a cycle"⟩)

def heads (nodes : BTreeMap κ (DagNode κ)) (valid : Finset κ) : Finset κ :=
  CausalGraph.heads nodes DagNode.parents valid

variable {nodes : BTreeMap κ (DagNode κ)}
  {invalidReferenceCode cycleCode : ReducerDiagnosticCode} {entityName : String}

theorem mem_validateDag {id : κ} :
    id ∈ (validateDag nodes invalidReferenceCode cycleCode entityName).1 ↔
      CausalGraph.Grounded nodes DagNode.parents id :=
  CausalGraph.mem_orderable

theorem mem_blamed_validateDag {eventId : EventId} :
    eventId ∈ blamed (validateDag nodes invalidReferenceCode cycleCode entityName).2 ↔
      ∃ id node, nodes.get? id = some node ∧
        ¬ CausalGraph.Grounded nodes DagNode.parents id ∧ node.eventId = eventId := by
  rw [validateDag, blamed_union, Finset.mem_union, mem_blamed_flatMap]
  constructor
  · rintro (danglingBlame | ⟨id, node, found, cyclic⟩)
    · obtain ⟨diagnostic, member, named⟩ := mem_blamed.mp danglingBlame
      obtain ⟨id, node, found, ungrounded, rfl⟩ :=
        CausalGraph.exists_node_of_mem_labels member
      exact ⟨id, node, found, ungrounded, (Finset.mem_singleton.mp named).symm⟩
    · obtain ⟨neither, named⟩ := mem_blamed_diagnoseUnless.mp cyclic
      refine ⟨id, node, found, fun grounded => ?_, (Finset.mem_singleton.mp named).symm⟩
      exact neither (Or.inr (CausalGraph.mem_orderable.mpr grounded))
  · rintro ⟨id, node, found, ungrounded, rfl⟩
    by_cases dangles : id ∈ (CausalGraph.danglingClosure nodes DagNode.parents fun id node =>
        (⟨invalidReferenceCode, toString id, {node.eventId},
          s!"{entityName} {id} has a missing, quarantined, or cross-aggregate parent"⟩ :
          ReducerDiagnostic)).1
    · left
      apply mem_blamed.mpr
      exact ⟨_, CausalGraph.label_mem_of_mem_danglingClosure dangles found,
        Finset.mem_singleton_self _⟩
    · right
      refine ⟨id, node, found, mem_blamed_diagnoseUnless.mpr ⟨?_, Finset.mem_singleton_self _⟩⟩
      rintro (inClosure | ordered)
      · exact dangles inClosure
      · exact ungrounded (CausalGraph.mem_orderable.mp ordered)

end Dag

section Aggregates

variable {κ ν : Type} [DecidableEq κ] [ToString κ]

/-- One aggregate's causal graph after validation. -/
structure ReducedDag (κ ν : Type) where
  nodes : BTreeMap κ ν
  heads : Finset κ
  diagnostics : Finset ReducerDiagnostic

/-- The graph that `validateDag` reads from a table of candidate nodes. -/
def dagOf (candidates : BTreeMap κ ν) (eventId : ν → EventId) (parents : ν → List κ) :
    BTreeMap κ (DagNode κ) :=
  candidates.map fun node => ⟨eventId node, parents node⟩

/-- Validate the causal graph of the candidates and keep the valid ones. -/
def reduceDag (candidates : BTreeMap κ ν) (eventId : ν → EventId) (parents : ν → List κ)
    (invalidReferenceCode cycleCode : ReducerDiagnosticCode) (entityName : String) :
    ReducedDag κ ν :=
  let dag := dagOf candidates eventId parents
  let checked := validateDag dag invalidReferenceCode cycleCode entityName
  { nodes := candidates.filter fun id _ => id ∈ checked.1
    heads := heads dag checked.1
    diagnostics := checked.2 }

variable {candidates : BTreeMap κ ν} {eventId : ν → EventId} {parents : ν → List κ}
  {invalidReferenceCode cycleCode : ReducerDiagnosticCode} {entityName : String}

omit [ToString κ] in
theorem get?_dagOf_eq_some {id : κ} {node : DagNode κ} :
    (dagOf candidates eventId parents).get? id = some node ↔
      ∃ candidate, candidates.get? id = some candidate ∧
        ⟨eventId candidate, parents candidate⟩ = node := by
  simp [dagOf]

omit [ToString κ] in
theorem grounded_dagOf {id : κ} :
    CausalGraph.Grounded (dagOf candidates eventId parents) DagNode.parents id ↔
      CausalGraph.Grounded candidates parents id := by
  constructor
  · intro grounded
    induction grounded with
    | intro found above ih =>
        obtain ⟨candidate, lookup, rfl⟩ := get?_dagOf_eq_some.mp found
        exact .intro lookup ih
  · intro grounded
    induction grounded with
    | intro found above ih =>
        exact .intro (get?_dagOf_eq_some.mpr ⟨_, found, rfl⟩) ih

@[simp]
theorem get?_reduceDag_eq_some {id : κ} {node : ν} :
    (reduceDag candidates eventId parents invalidReferenceCode cycleCode
        entityName).nodes.get? id = some node ↔
      candidates.get? id = some node ∧ CausalGraph.Grounded candidates parents id := by
  simp only [reduceDag, BTreeMap.get?_filter_eq_some, mem_validateDag, grounded_dagOf]

theorem mem_reduceDag_heads {id : κ} :
    id ∈ (reduceDag candidates eventId parents invalidReferenceCode cycleCode
        entityName).heads ↔
      CausalGraph.Grounded candidates parents id ∧
        ∀ child node, CausalGraph.Grounded candidates parents child →
          candidates.get? child = some node → id ∉ parents node := by
  simp only [reduceDag, heads, CausalGraph.mem_heads, mem_validateDag, grounded_dagOf,
    get?_dagOf_eq_some]
  refine and_congr_right fun _ => ?_
  constructor
  · intro unreferenced child node grounded found
    exact unreferenced child grounded _ ⟨node, found, rfl⟩
  · rintro unreferenced child grounded node ⟨candidate, found, rfl⟩
    exact unreferenced child candidate grounded found

/-- The heads are the valid nodes that no valid node names as a parent. -/
theorem mem_heads_of_nodes {id : κ} :
    id ∈ (reduceDag candidates eventId parents invalidReferenceCode cycleCode entityName).heads ↔
      (∃ node, (reduceDag candidates eventId parents invalidReferenceCode cycleCode
        entityName).nodes.get? id = some node) ∧
      ∀ child node, (reduceDag candidates eventId parents invalidReferenceCode cycleCode
        entityName).nodes.get? child = some node → id ∉ parents node := by
  simp only [mem_reduceDag_heads, get?_reduceDag_eq_some]
  constructor
  · rintro ⟨grounded, unreferenced⟩
    obtain ⟨node, found⟩ := grounded.found
    exact ⟨⟨node, found, grounded⟩, fun child other isNode =>
      unreferenced child other isNode.2 isNode.1⟩
  · rintro ⟨⟨node, -, grounded⟩, unreferenced⟩
    exact ⟨grounded, fun child other isGrounded found =>
      unreferenced child other ⟨found, isGrounded⟩⟩

theorem exists_mem_reduceDag_heads {id : κ} {node : ν}
    (found : (reduceDag candidates eventId parents invalidReferenceCode cycleCode
        entityName).nodes.get? id = some node) :
    ∃ head, head ∈ (reduceDag candidates eventId parents invalidReferenceCode cycleCode
        entityName).heads := by
  apply CausalGraph.exists_mem_heads
  · exact fun other isValid => mem_validateDag.mp isValid
  · have grounded := (get?_reduceDag_eq_some.mp found).2
    exact ⟨id, mem_validateDag.mpr (grounded_dagOf.mpr grounded)⟩

theorem heads_eq_of_nodes_eq {others : BTreeMap κ ν}
    (sameNodes : (reduceDag candidates eventId parents invalidReferenceCode cycleCode
        entityName).nodes =
      (reduceDag others eventId parents invalidReferenceCode cycleCode entityName).nodes) :
    (reduceDag candidates eventId parents invalidReferenceCode cycleCode entityName).heads =
      (reduceDag others eventId parents invalidReferenceCode cycleCode entityName).heads := by
  ext id
  rw [mem_heads_of_nodes, mem_heads_of_nodes, sameNodes]

theorem mem_blamed_reduceDag {blamedId : EventId} :
    blamedId ∈ blamed (reduceDag candidates eventId parents invalidReferenceCode cycleCode
        entityName).diagnostics ↔
      ∃ id node, candidates.get? id = some node ∧
        ¬ CausalGraph.Grounded candidates parents id ∧ eventId node = blamedId := by
  simp only [reduceDag, mem_blamed_validateDag, grounded_dagOf, get?_dagOf_eq_some]
  constructor
  · rintro ⟨id, node, ⟨candidate, found, rfl⟩, ungrounded, named⟩
    exact ⟨id, candidate, found, ungrounded, named⟩
  · rintro ⟨id, candidate, found, ungrounded, named⟩
    exact ⟨id, _, ⟨candidate, found, rfl⟩, ungrounded, named⟩

end Aggregates

end SharedContext
