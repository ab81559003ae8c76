import SharedContext.Library.Ancestry
import SharedContext.Library.Rounds
import SharedContext.Reducer.Dag

/-!
# Classification of causal nodes

Every node of a causal graph is valid, has an invalid reference or is cyclic,
and is exactly one of these.  The heads of the valid nodes are unrelated, and
every valid node derives into one of them.
-/

namespace SharedContext

open CausalGraph

section Classification

variable {κ : Type} [DecidableEq κ] [ToString κ]

/-- The diagnostic of a node that misses an ancestor. -/
def referenceDiagnostic (code : ReducerDiagnosticCode) (entityName : String) (id : κ)
    (node : DagNode κ) : ReducerDiagnostic :=
  ⟨code, toString id, {node.eventId},
    s!"{entityName} {id} has a missing, quarantined, or cross-aggregate parent"⟩

/-- The diagnostic of a node that depends on a cycle. -/
def cycleDiagnostic (code : ReducerDiagnosticCode) (entityName : String) (id : κ)
    (node : DagNode κ) : ReducerDiagnostic :=
  ⟨code, toString id, {node.eventId}, s!"{entityName} {id} is cyclic or depends on a cycle"⟩

variable (nodes : BTreeMap κ (DagNode κ)) (invalidReferenceCode cycleCode : ReducerDiagnosticCode)
  (entityName : String)

def invalidReferences : Finset κ :=
  (danglingClosure nodes DagNode.parents
    (referenceDiagnostic invalidReferenceCode entityName)).1

def cyclicNodes : Finset κ :=
  (nodes.keys \ invalidReferences nodes invalidReferenceCode entityName) \
    (validateDag nodes invalidReferenceCode cycleCode entityName).1

variable {nodes invalidReferenceCode cycleCode entityName}

theorem mem_invalidReferences {id : κ} :
    id ∈ invalidReferences nodes invalidReferenceCode entityName ↔
      id ∈ nodes.keys ∧ MissesAncestor nodes DagNode.parents id :=
  mem_danglingClosure_iff

theorem mem_validNodes {id : κ} :
    id ∈ (validateDag nodes invalidReferenceCode cycleCode entityName).1 ↔
      ¬ MissesAncestor nodes DagNode.parents id ∧ ¬ MeetsCycle nodes DagNode.parents id :=
  mem_validateDag.trans grounded_iff

theorem mem_cyclicNodes {id : κ} :
    id ∈ cyclicNodes nodes invalidReferenceCode cycleCode entityName ↔
      id ∈ nodes.keys ∧ ¬ MissesAncestor nodes DagNode.parents id ∧
        MeetsCycle nodes DagNode.parents id := by
  rw [cyclicNodes, Finset.mem_sdiff, Finset.mem_sdiff, mem_invalidReferences, mem_validNodes]
  by_cases inKeys : id ∈ nodes.keys
  · by_cases misses : MissesAncestor nodes DagNode.parents id <;> simp [inKeys, misses]
  · simp [inKeys]

theorem validNodes_subset :
    (validateDag nodes invalidReferenceCode cycleCode entityName).1 ⊆ nodes.keys := by
  intro id member
  obtain ⟨node, found⟩ := (mem_validateDag.mp member).found
  exact BTreeMap.mem_keys_of_get? found

theorem mem_diagnostics {diagnostic : ReducerDiagnostic} :
    diagnostic ∈ (validateDag nodes invalidReferenceCode cycleCode entityName).2 ↔
      (∃ id ∈ invalidReferences nodes invalidReferenceCode entityName, ∃ node,
        nodes.get? id = some node ∧
          referenceDiagnostic invalidReferenceCode entityName id node = diagnostic) ∨
      ∃ id ∈ cyclicNodes nodes invalidReferenceCode cycleCode entityName, ∃ node,
        nodes.get? id = some node ∧ cycleDiagnostic cycleCode entityName id node = diagnostic := by
  have references : diagnostic ∈ (danglingClosure nodes DagNode.parents
        (referenceDiagnostic invalidReferenceCode entityName)).2 ↔
      ∃ id ∈ invalidReferences nodes invalidReferenceCode entityName, ∃ node,
        nodes.get? id = some node ∧
          referenceDiagnostic invalidReferenceCode entityName id node = diagnostic := by
    constructor
    · intro member
      obtain ⟨stage, -, id, taken, -, -, labelled⟩ :=
        Saturation.exists_stage_of_mem_labels ∅ ∅ member (Finset.notMem_empty diagnostic)
      obtain ⟨node, found, -, same⟩ := dangling_eq_some.mp labelled
      exact ⟨id, taken, node, found, same⟩
    · rintro ⟨id, taken, node, found, rfl⟩
      exact label_mem_of_mem_danglingClosure taken found
  rw [← references, validateDag, Finset.mem_union]
  refine or_congr Iff.rfl ?_
  rw [BTreeMap.mem_flatMap]
  constructor
  · rintro ⟨id, node, found, member⟩
    rw [diagnoseUnless] at member
    split at member
    · exact absurd member (Finset.notMem_empty _)
    · rename_i neither
      refine ⟨id, ?_, node, found, (Finset.mem_singleton.mp member).symm⟩
      rw [cyclicNodes, Finset.mem_sdiff, Finset.mem_sdiff]
      exact ⟨⟨BTreeMap.mem_keys_of_get? found, fun taken => neither (Or.inl taken)⟩,
        fun ordered => neither (Or.inr ordered)⟩
  · rintro ⟨id, member, node, found, rfl⟩
    rw [cyclicNodes, Finset.mem_sdiff, Finset.mem_sdiff] at member
    refine ⟨id, node, found, ?_⟩
    change cycleDiagnostic cycleCode entityName id node ∈
      if id ∈ invalidReferences nodes invalidReferenceCode entityName ∨
          id ∈ (validateDag nodes invalidReferenceCode cycleCode entityName).1 then ∅
      else {cycleDiagnostic cycleCode entityName id node}
    rw [if_neg (not_or.mpr ⟨member.1.2, member.2⟩)]
    exact Finset.mem_singleton_self _

theorem exactly_one_class {id : κ} (inKeys : id ∈ nodes.keys) :
    (id ∈ (validateDag nodes invalidReferenceCode cycleCode entityName).1 ∧
      id ∉ invalidReferences nodes invalidReferenceCode entityName ∧
      id ∉ cyclicNodes nodes invalidReferenceCode cycleCode entityName) ∨
    (id ∉ (validateDag nodes invalidReferenceCode cycleCode entityName).1 ∧
      id ∈ invalidReferences nodes invalidReferenceCode entityName ∧
      id ∉ cyclicNodes nodes invalidReferenceCode cycleCode entityName) ∨
    (id ∉ (validateDag nodes invalidReferenceCode cycleCode entityName).1 ∧
      id ∉ invalidReferences nodes invalidReferenceCode entityName ∧
      id ∈ cyclicNodes nodes invalidReferenceCode cycleCode entityName) := by
  rw [mem_validNodes, mem_invalidReferences, mem_cyclicNodes]
  by_cases misses : MissesAncestor nodes DagNode.parents id
  · exact Or.inr (Or.inl ⟨fun valid => valid.1 misses, ⟨inKeys, misses⟩,
      fun cyclic => cyclic.2.1 misses⟩)
  · by_cases meets : MeetsCycle nodes DagNode.parents id
    · exact Or.inr (Or.inr ⟨fun valid => valid.2 meets, fun invalid => misses invalid.2,
        inKeys, misses, meets⟩)
    · exact Or.inl ⟨⟨misses, meets⟩, fun invalid => misses invalid.2,
        fun cyclic => meets cyclic.2.2⟩

variable (nodes invalidReferenceCode cycleCode entityName)

/-- What the three classes and their diagnostics are. -/
structure Classifies (valid invalid cyclic : Finset κ) (diagnostics : Finset ReducerDiagnostic) :
    Prop where
  within : valid ⊆ nodes.keys ∧ invalid ⊆ nodes.keys ∧ cyclic ⊆ nodes.keys
  once : ∀ id ∈ nodes.keys, (id ∈ valid ∧ id ∉ invalid ∧ id ∉ cyclic) ∨
    (id ∉ valid ∧ id ∈ invalid ∧ id ∉ cyclic) ∨ (id ∉ valid ∧ id ∉ invalid ∧ id ∈ cyclic)
  valid_iff : ∀ id ∈ nodes.keys, id ∈ valid ↔
    (∀ ancestor, Ancestor nodes DagNode.parents ancestor id → ancestor ∈ nodes.keys) ∧
      ¬ MeetsCycle nodes DagNode.parents id
  diagnosed : ∀ diagnostic, diagnostic ∈ diagnostics ↔
    (∃ id ∈ invalid, ∃ node, nodes.get? id = some node ∧
      referenceDiagnostic invalidReferenceCode entityName id node = diagnostic) ∨
    ∃ id ∈ cyclic, ∃ node, nodes.get? id = some node ∧
      cycleDiagnostic cycleCode entityName id node = diagnostic

/-- The heads of a set: unrelated, and above everything in it. -/
structure HeadsAbove (valid top : Finset κ) : Prop where
  within : top ⊆ valid
  nonempty : valid.Nonempty → top.Nonempty
  antichain : ∀ first ∈ top, ∀ second ∈ top,
    ¬ ProperAncestor nodes DagNode.parents first second
  covers : ∀ id ∈ valid, ∃ head ∈ top, Ancestor nodes DagNode.parents id head

/-- Each loop ends after at most as many rounds as there are nodes. -/
def LoopsEnd : Prop :=
  (∃ count ≤ nodes.keys.card, Saturation.newly nodes.keys
    (dangling nodes DagNode.parents (referenceDiagnostic invalidReferenceCode entityName))
    (Saturation.rounds nodes.keys
      (dangling nodes DagNode.parents (referenceDiagnostic invalidReferenceCode entityName))
      ∅ count) = ∅) ∧
  ∃ count ≤ nodes.keys.card, Saturation.newly
    (nodes.keys \ invalidReferences nodes invalidReferenceCode entityName)
    (ready nodes DagNode.parents)
    (Saturation.rounds (nodes.keys \ invalidReferences nodes invalidReferenceCode entityName)
      (ready nodes DagNode.parents) ∅ count) = ∅

theorem heads_above :
    HeadsAbove nodes (validateDag nodes invalidReferenceCode cycleCode entityName).1
      (SharedContext.heads nodes
        (validateDag nodes invalidReferenceCode cycleCode entityName).1) := by
  have grounded : ∀ id ∈ (validateDag nodes invalidReferenceCode cycleCode entityName).1,
      Grounded nodes DagNode.parents id := fun id member => mem_validateDag.mp member
  have above : ∀ id ∈ (validateDag nodes invalidReferenceCode cycleCode entityName).1,
      ∃ head ∈ SharedContext.heads nodes
        (validateDag nodes invalidReferenceCode cycleCode entityName).1,
      Ancestor nodes DagNode.parents id head := fun id member => exists_head_above grounded member
  have within : SharedContext.heads nodes
      (validateDag nodes invalidReferenceCode cycleCode entityName).1 ⊆
        (validateDag nodes invalidReferenceCode cycleCode entityName).1 :=
    fun id isHead => (mem_heads.mp isHead).1
  refine ⟨within, ?_, ?_, above⟩
  · rintro ⟨id, member⟩
    obtain ⟨head, isHead, -⟩ := above id member
    exact ⟨head, isHead⟩
  · intro first isHead second isHead'
    refine heads_antichain ?_ isHead (within isHead')
    rintro parent child member ⟨node, found, isParent⟩
    exact mem_validateDag.mpr ((mem_validateDag.mp member).parent found isParent)

/-- Both loops end, the nodes are classified once each, and the heads of the
valid ones are above all of them. -/
theorem validateDag_classifies :
    LoopsEnd nodes invalidReferenceCode entityName ∧
    Classifies nodes invalidReferenceCode cycleCode entityName
      (validateDag nodes invalidReferenceCode cycleCode entityName).1
      (invalidReferences nodes invalidReferenceCode entityName)
      (cyclicNodes nodes invalidReferenceCode cycleCode entityName)
      (validateDag nodes invalidReferenceCode cycleCode entityName).2 ∧
    HeadsAbove nodes (validateDag nodes invalidReferenceCode cycleCode entityName).1
      (SharedContext.heads nodes
        (validateDag nodes invalidReferenceCode cycleCode entityName).1) := by
  refine ⟨⟨?_, ?_⟩, ⟨⟨validNodes_subset, ?_, ?_⟩, fun id inKeys => exactly_one_class inKeys, ?_,
    fun _ => mem_diagnostics⟩, heads_above nodes invalidReferenceCode cycleCode entityName⟩
  · obtain ⟨count, bounded, -, stuck⟩ := Saturation.exists_rounds_stuck nodes.keys
      (dangling nodes DagNode.parents (referenceDiagnostic invalidReferenceCode entityName)) ∅ ∅
    exact ⟨count, by simpa using bounded, stuck⟩
  · obtain ⟨count, bounded, -, stuck⟩ := Saturation.exists_rounds_stuck
      (nodes.keys \ invalidReferences nodes invalidReferenceCode entityName)
      (ready nodes DagNode.parents) ∅ ∅
    refine ⟨count, bounded.trans ?_, stuck⟩
    rw [Finset.sdiff_empty]
    exact Finset.card_le_card Finset.sdiff_subset
  · exact fun id member => (mem_invalidReferences.mp member).1
  · exact fun id member => (mem_cyclicNodes.mp member).1
  · intro id _
    rw [mem_validNodes, not_missesAncestor_iff]

/-! ### Growing graphs -/

section Appended

variable {nodes invalidReferenceCode cycleCode entityName} {larger : BTreeMap κ (DagNode κ)}
  (kept : ∀ id node, nodes.get? id = some node → larger.get? id = some node)

include kept

theorem isParent_appended {parent child : κ}
    (isParent : IsParent nodes DagNode.parents parent child) :
    IsParent larger DagNode.parents parent child := by
  obtain ⟨node, found, member⟩ := isParent
  exact ⟨node, kept child node found, member⟩

theorem ancestor_of_appended {ancestor id : κ}
    (complete : ∀ other, Ancestor nodes DagNode.parents other id → other ∈ nodes.keys)
    (derives : Ancestor larger DagNode.parents ancestor id) :
    Ancestor nodes DagNode.parents ancestor id := by
  induction derives using Relation.ReflTransGen.head_induction_on with
  | refl => exact .refl
  | head isParent _ ih =>
      obtain ⟨node, found, member⟩ := isParent
      obtain ⟨same, known⟩ := BTreeMap.mem_keys_iff.mp (complete _ ih)
      obtain rfl := Option.some.inj ((kept _ same known).symm.trans found)
      exact .head ⟨same, known, member⟩ ih

theorem cyclicNodes_appended : cyclicNodes nodes invalidReferenceCode cycleCode entityName ⊆
    cyclicNodes larger invalidReferenceCode cycleCode entityName := by
  intro id isCyclic
  obtain ⟨inKeys, complete, ancestor, derives, onCycle⟩ := mem_cyclicNodes.mp isCyclic
  rw [not_missesAncestor_iff] at complete
  have stays : ∀ other ∈ nodes.keys, other ∈ larger.keys := by
    intro other member
    obtain ⟨node, found⟩ := BTreeMap.mem_keys_iff.mp member
    exact BTreeMap.mem_keys_of_get? (kept other node found)
  refine mem_cyclicNodes.mpr ⟨stays id inKeys, not_missesAncestor_iff.mpr ?_, ancestor, ?_, ?_⟩
  · exact fun other above => stays other (complete other (ancestor_of_appended kept complete above))
  · exact Relation.ReflTransGen.mono (fun _ _ => isParent_appended kept) _ _ derives
  · exact Relation.TransGen.mono (fun _ _ => isParent_appended kept) _ _ onCycle

/-- Nodes that are added leave valid nodes valid and cyclic ones cyclic.  A node becomes
valid when a missing ancestor arrives as a valid node, and no old node becomes a head. -/
theorem classification_appended :
    (validateDag nodes invalidReferenceCode cycleCode entityName).1 ⊆
        (validateDag larger invalidReferenceCode cycleCode entityName).1 ∧
      cyclicNodes nodes invalidReferenceCode cycleCode entityName ⊆
        cyclicNodes larger invalidReferenceCode cycleCode entityName ∧
      (∀ id ∈ nodes.keys, id ∉ (validateDag nodes invalidReferenceCode cycleCode entityName).1 →
        id ∈ (validateDag larger invalidReferenceCode cycleCode entityName).1 →
        ∃ ancestor, Ancestor nodes DagNode.parents ancestor id ∧ ancestor ∉ nodes.keys ∧
          ancestor ∈ (validateDag larger invalidReferenceCode cycleCode entityName).1) ∧
      ∀ id ∈ (validateDag nodes invalidReferenceCode cycleCode entityName).1,
        id ∈ SharedContext.heads larger
          (validateDag larger invalidReferenceCode cycleCode entityName).1 →
        id ∈ SharedContext.heads nodes
          (validateDag nodes invalidReferenceCode cycleCode entityName).1 := by
  have valid : (validateDag nodes invalidReferenceCode cycleCode entityName).1 ⊆
      (validateDag larger invalidReferenceCode cycleCode entityName).1 := fun id member =>
    mem_validateDag.mpr ((mem_validateDag.mp member).mono fun other node _ => kept other node)
  refine ⟨valid, cyclicNodes_appended kept, ?_, ?_⟩
  · intro id inKeys notValid nowValid
    have misses : MissesAncestor nodes DagNode.parents id := by
      by_contra complete
      have isCyclic : id ∈ cyclicNodes nodes invalidReferenceCode cycleCode entityName :=
        mem_cyclicNodes.mpr ⟨inKeys, complete, by_contra fun acyclic =>
          notValid (mem_validNodes.mpr ⟨complete, acyclic⟩)⟩
      have staysCyclic := mem_cyclicNodes.mp (cyclicNodes_appended kept isCyclic)
      exact (mem_validNodes.mp nowValid).2 staysCyclic.2.2
    obtain ⟨ancestor, derives, absent⟩ := misses
    refine ⟨ancestor, derives, BTreeMap.not_mem_keys_iff.mpr absent, ?_⟩
    have derivesLater := Relation.ReflTransGen.mono (fun _ _ => isParent_appended kept) _ _ derives
    exact mem_validateDag.mpr ((mem_validateDag.mp nowValid).ancestor derivesLater)
  · intro id isValid isHead
    refine mem_heads.mpr ⟨isValid, fun child childValid node found => ?_⟩
    exact (mem_heads.mp isHead).2 child (valid childValid) node (kept child node found)

end Appended

def rootOnly : BTreeMap Nat (DagNode Nat) :=
  BTreeMap.empty.insert 0 ⟨⟨1#128⟩, []⟩

theorem child_appended :
    (validateDag rootOnly .invalidRevisionReference .revisionCycle "revision").1 ⊆
      (validateDag (rootOnly.insert 1 ⟨⟨2#128⟩, [0]⟩) .invalidRevisionReference .revisionCycle
        "revision").1 := by
  refine (classification_appended fun id node found => ?_).1
  have isRoot : id = 0 := by
    by_contra other
    simp [rootOnly, BTreeMap.get?_insert, other] at found
  rw [BTreeMap.get?_insert, if_neg (by omega)]
  exact found

end Classification

end SharedContext
