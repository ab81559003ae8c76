import Mathlib.Order.WellFounded
import SharedContext.Library.BTreeMap
import SharedContext.Library.Saturation

/-!
# Causal graphs

A table of nodes, each naming its parents by key.  A node is grounded when it
has a finite derivation from nodes without parents; a node with a missing
parent, on a cycle, or above either is not.
-/

namespace SharedContext

namespace CausalGraph

variable {κ ν : Type*}

/-- A node of the table all of whose parents are grounded. -/
inductive Grounded (nodes : BTreeMap κ ν) (parents : ν → List κ) : κ → Prop
  | intro {id : κ} {node : ν} (found : nodes.get? id = some node)
      (above : ∀ parent ∈ parents node, Grounded nodes parents parent) :
      Grounded nodes parents id

variable {nodes larger : BTreeMap κ ν} {parents : ν → List κ}

theorem Grounded.parent {id parent : κ} {node : ν} (grounded : Grounded nodes parents id)
    (found : nodes.get? id = some node) (member : parent ∈ parents node) :
    Grounded nodes parents parent := by
  cases grounded with
  | intro lookup above =>
      have sameNode := Option.some.inj (lookup.symm.trans found)
      exact above parent (sameNode ▸ member)

theorem Grounded.found {id : κ} (grounded : Grounded nodes parents id) :
    ∃ node, nodes.get? id = some node := by
  cases grounded with
  | intro lookup _ => exact ⟨_, lookup⟩

/-- Grounded nodes stay grounded in a table that keeps a set of them closed
under parents. -/
theorem Grounded.restrict (keep : κ → Prop)
    (kept : ∀ id node, keep id → nodes.get? id = some node →
      larger.get? id = some node ∧ ∀ parent ∈ parents node, keep parent)
    {id : κ} (grounded : Grounded nodes parents id) (isKept : keep id) :
    Grounded larger parents id := by
  induction grounded with
  | intro found above ih =>
      obtain ⟨lookup, keepParents⟩ := kept _ _ isKept found
      exact .intro lookup fun parent member => ih parent member (keepParents parent member)

theorem Grounded.mono
    (kept : ∀ id node, Grounded nodes parents id → nodes.get? id = some node →
      larger.get? id = some node)
    {id : κ} (grounded : Grounded nodes parents id) : Grounded larger parents id := by
  refine Grounded.restrict (Grounded nodes parents) ?_ grounded grounded
  intro other node isGrounded found
  exact ⟨kept other node isGrounded found, fun parent member => isGrounded.parent found member⟩

theorem Grounded.of_no_parents {id : κ} {node : ν} (found : nodes.get? id = some node)
    (root : parents node = []) : Grounded nodes parents id := by
  refine .intro found ?_
  simp [root]

theorem Grounded.acc {id : κ} (grounded : Grounded nodes parents id) :
    Acc (fun parent child => ∃ node, nodes.get? child = some node ∧ parent ∈ parents node) id := by
  induction grounded with
  | intro found above ih =>
      refine .intro _ ?_
      rintro parent ⟨node, lookup, isParent⟩
      obtain rfl := Option.some.inj (found.symm.trans lookup)
      exact ih parent isParent

section Computation

variable [DecidableEq κ] (nodes parents)

/-- A node with a parent that is missing or already invalid gets `label`. -/
def dangling {δ : Type*} (label : κ → ν → δ) (invalid : Finset κ) (id : κ) : Option δ :=
  (nodes.get? id).bind fun node =>
    if ∃ parent ∈ parents node, parent ∉ nodes.keys ∨ parent ∈ invalid then
      some (label id node)
    else none

def ready (valid : Finset κ) (id : κ) : Option Unit :=
  (nodes.get? id).bind fun node =>
    if ∀ parent ∈ parents node, parent ∈ valid then some () else none

variable {nodes parents}

theorem dangling_eq_some {δ : Type*} {label : κ → ν → δ} {invalid : Finset κ} {id : κ}
    {value : δ} :
    dangling nodes parents label invalid id = some value ↔
      ∃ node, nodes.get? id = some node ∧
        (∃ parent ∈ parents node, parent ∉ nodes.keys ∨ parent ∈ invalid) ∧
        label id node = value := by
  simp [dangling, Option.bind_eq_some_iff]

theorem ready_eq_some {valid : Finset κ} {id : κ} :
    ready nodes parents valid id = some () ↔
      ∃ node, nodes.get? id = some node ∧ ∀ parent ∈ parents node, parent ∈ valid := by
  simp [ready, Option.bind_eq_some_iff]

theorem dangling_monotone {δ : Type*} (label : κ → ν → δ) :
    Saturation.Monotone (dangling nodes parents label) := by
  intro first second subset id admitted
  obtain ⟨value, labelled⟩ := Option.isSome_iff_exists.mp admitted
  obtain ⟨node, found, ⟨parent, isParent, broken⟩, -⟩ := dangling_eq_some.mp labelled
  apply Option.isSome_iff_exists.mpr
  refine ⟨label id node, dangling_eq_some.mpr ⟨node, found, ⟨parent, isParent, ?_⟩, rfl⟩⟩
  exact broken.imp_right fun member => subset member

theorem ready_monotone : Saturation.Monotone (ready nodes parents) := by
  intro first second subset id admitted
  obtain ⟨⟨⟩, isReady⟩ := Option.isSome_iff_exists.mp admitted
  obtain ⟨node, found, above⟩ := ready_eq_some.mp isReady
  apply Option.isSome_iff_exists.mpr
  exact ⟨(), ready_eq_some.mpr ⟨node, found, fun parent member => subset (above parent member)⟩⟩

variable (nodes parents) in
/-- The nodes at or above a missing parent, with the labels given on the way. -/
def danglingClosure {δ : Type*} [DecidableEq δ] (label : κ → ν → δ) : Finset κ × Finset δ :=
  Saturation.saturate nodes.keys (dangling nodes parents label) ∅ ∅

variable (nodes parents) in
/-- The nodes outside `invalid` that can be ordered after their parents. -/
def orderable (invalid : Finset κ) : Finset κ :=
  (Saturation.saturate (nodes.keys \ invalid) (ready nodes parents) ∅ ∅).1

section Closure

variable {δ : Type*} [DecidableEq δ] {label : κ → ν → δ}

theorem not_grounded_of_mem_danglingClosure {id : κ}
    (member : id ∈ (danglingClosure nodes parents label).1) :
    ¬ Grounded nodes parents id := by
  classical
  have within : (danglingClosure nodes parents label).1 ⊆
      nodes.keys.filter fun id => ¬ Grounded nodes parents id := by
    apply Saturation.saturate_subset_of_closed (dangling_monotone label)
    · exact Finset.empty_subset _
    · intro id inKeys admitted
      obtain ⟨value, labelled⟩ := Option.isSome_iff_exists.mp admitted
      obtain ⟨node, found, ⟨parent, isParent, broken⟩, -⟩ := dangling_eq_some.mp labelled
      refine Finset.mem_filter.mpr ⟨inKeys, fun grounded => ?_⟩
      have parentGrounded := grounded.parent found isParent
      rcases broken with missing | invalid
      · obtain ⟨parentNode, lookup⟩ := parentGrounded.found
        exact missing (BTreeMap.mem_keys_of_get? lookup)
      · exact (Finset.mem_filter.mp invalid).2 parentGrounded
  exact (Finset.mem_filter.mp (within member)).2

/-- The orderable nodes outside the dangling closure are the grounded ones. -/
theorem mem_orderable {id : κ} :
    id ∈ orderable nodes parents (danglingClosure nodes parents label).1 ↔
      Grounded nodes parents id := by
  classical
  constructor
  · intro member
    have within : orderable nodes parents (danglingClosure nodes parents label).1 ⊆
        nodes.keys.filter (Grounded nodes parents) := by
      apply Saturation.saturate_subset_of_closed ready_monotone
      · exact Finset.empty_subset _
      · intro id inKeys admitted
        obtain ⟨⟨⟩, isReady⟩ := Option.isSome_iff_exists.mp admitted
        obtain ⟨node, found, above⟩ := ready_eq_some.mp isReady
        refine Finset.mem_filter.mpr ⟨BTreeMap.mem_keys_of_get? found, .intro found ?_⟩
        exact fun parent isParent => (Finset.mem_filter.mp (above parent isParent)).2
    exact (Finset.mem_filter.mp (within member)).2
  · intro grounded
    induction grounded with
    | intro found above ih =>
        have outside : _ ∉ (danglingClosure nodes parents label).1 :=
          fun member => not_grounded_of_mem_danglingClosure member (.intro found above)
        apply Saturation.mem_saturate_of_admitted
        · exact Finset.mem_sdiff.mpr ⟨BTreeMap.mem_keys_of_get? found, outside⟩
        · have isReady := ready_eq_some.mpr ⟨_, found, ih⟩
          exact Option.isSome_iff_exists.mpr ⟨(), isReady⟩

theorem exists_node_of_mem_labels {value : δ}
    (member : value ∈ (danglingClosure nodes parents label).2) :
    ∃ id node, nodes.get? id = some node ∧ ¬ Grounded nodes parents id ∧
      label id node = value := by
  obtain ⟨stage, -, id, taken, -, -, labelled⟩ :=
    Saturation.exists_stage_of_mem_labels ∅ ∅ member (Finset.notMem_empty value)
  obtain ⟨node, found, -, labelEq⟩ := dangling_eq_some.mp labelled
  exact ⟨id, node, found, not_grounded_of_mem_danglingClosure taken, labelEq⟩

theorem label_mem_of_mem_danglingClosure {id : κ} {node : ν}
    (member : id ∈ (danglingClosure nodes parents label).1)
    (found : nodes.get? id = some node) :
    label id node ∈ (danglingClosure nodes parents label).2 := by
  obtain ⟨stage, -, -, -, value, recorded, labelled⟩ :=
    Saturation.exists_stage_of_mem_saturate ∅ ∅ member (Finset.notMem_empty id)
  obtain ⟨other, lookup, -, labelEq⟩ := dangling_eq_some.mp labelled
  have sameNode := Option.some.inj (lookup.symm.trans found)
  rw [← sameNode, labelEq]
  exact recorded

end Closure

variable (nodes parents) in
/-- The nodes of `valid` that no node of `valid` names as a parent. -/
def heads (valid : Finset κ) : Finset κ :=
  valid \ valid.biUnion fun id => ((nodes.get? id).elim [] parents).toFinset

theorem mem_heads {valid : Finset κ} {id : κ} :
    id ∈ heads nodes parents valid ↔
      id ∈ valid ∧ ∀ child ∈ valid, ∀ node, nodes.get? child = some node →
        id ∉ parents node := by
  rw [heads, Finset.mem_sdiff, Finset.mem_biUnion]
  refine and_congr_right fun _ => ?_
  constructor
  · intro unreferenced child isValid node found isParent
    apply unreferenced
    refine ⟨child, isValid, ?_⟩
    rw [found, Option.elim_some, List.mem_toFinset]
    exact isParent
  · rintro unreferenced ⟨child, isValid, isParent⟩
    cases found : nodes.get? child with
    | none => simp [found] at isParent
    | some node =>
        rw [found, Option.elim_some, List.mem_toFinset] at isParent
        exact unreferenced child isValid node found isParent

/-- Grounded nodes, if there are any, have a head among them. -/
theorem exists_mem_heads {valid : Finset κ}
    (grounded : ∀ id ∈ valid, Grounded nodes parents id) (inhabited : valid.Nonempty) :
    ∃ id, id ∈ heads nodes parents valid := by
  let names : valid → valid → Prop := fun parent child =>
    ∃ node, nodes.get? child.1 = some node ∧ parent.1 ∈ parents node
  have wellFounded : WellFounded (Relation.TransGen names) := by
    apply WellFounded.transGen
    refine ⟨fun id => ?_⟩
    exact InvImage.accessible Subtype.val (grounded id.1 id.2).acc
  have irrefl : Std.Irrefl (Function.swap (Relation.TransGen names)) :=
    ⟨fun id cyclic => wellFounded.irrefl.irrefl id cyclic⟩
  have converse : WellFounded (Function.swap (Relation.TransGen names)) :=
    Finite.wellFounded_of_trans_of_irrefl _
  obtain ⟨first, isFirst⟩ := inhabited
  obtain ⟨head, -, last⟩ := converse.has_min Set.univ ⟨⟨first, isFirst⟩, trivial⟩
  refine ⟨head.1, mem_heads.mpr ⟨head.2, ?_⟩⟩
  intro child isValid node found isParent
  exact last ⟨child, isValid⟩ trivial (.single ⟨node, found, isParent⟩)

end Computation

end CausalGraph

end SharedContext
