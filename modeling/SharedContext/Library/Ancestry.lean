import SharedContext.Library.CausalGraph

/-!
# Ancestry in a causal graph

What a node derives from, through parents that may be missing.  A node is
grounded exactly when all its ancestors exist and none lies on a cycle.
-/

namespace SharedContext

namespace CausalGraph

variable {κ ν : Type*} (nodes : BTreeMap κ ν) (parents : ν → List κ)

/-- A node names a parent, which need not exist. -/
def IsParent (parent child : κ) : Prop :=
  ∃ node, nodes.get? child = some node ∧ parent ∈ parents node

abbrev Ancestor : κ → κ → Prop :=
  Relation.ReflTransGen (IsParent nodes parents)

/-- What a node derives from in at least one step. -/
abbrev ProperAncestor : κ → κ → Prop :=
  Relation.TransGen (IsParent nodes parents)

/-- Something that the node derives from is missing. -/
def MissesAncestor (id : κ) : Prop :=
  ∃ ancestor, Ancestor nodes parents ancestor id ∧ nodes.get? ancestor = none

/-- The node is on a cycle or derives from one. -/
def MeetsCycle (id : κ) : Prop :=
  ∃ ancestor, Ancestor nodes parents ancestor id ∧ ProperAncestor nodes parents ancestor ancestor

variable {nodes parents}

theorem not_missesAncestor_iff {id : κ} :
    ¬ MissesAncestor nodes parents id ↔
      ∀ ancestor, Ancestor nodes parents ancestor id → ancestor ∈ nodes.keys := by
  simp only [MissesAncestor, not_exists, not_and, BTreeMap.mem_keys_iff]
  refine forall₂_congr fun ancestor _ => ?_
  cases nodes.get? ancestor <;> simp

theorem Grounded.ancestor {id ancestor : κ} (grounded : Grounded nodes parents id)
    (above : Ancestor nodes parents ancestor id) : Grounded nodes parents ancestor := by
  induction above using Relation.ReflTransGen.head_induction_on with
  | refl => exact grounded
  | head isParent _ ih =>
      obtain ⟨node, found, member⟩ := isParent
      exact ih.parent found member

theorem Grounded.not_missesAncestor {id : κ} (grounded : Grounded nodes parents id) :
    ¬ MissesAncestor nodes parents id := by
  rintro ⟨ancestor, above, missing⟩
  obtain ⟨node, found⟩ := (grounded.ancestor above).found
  rw [missing] at found
  exact absurd found (by simp)

theorem not_rel_self_of_acc {α : Type*} {relation : α → α → Prop} {item : α}
    (accessible : Acc relation item) : ¬ relation item item := by
  induction accessible with
  | intro item _ ih => exact fun self => ih item self self

theorem Grounded.not_meetsCycle {id : κ} (grounded : Grounded nodes parents id) :
    ¬ MeetsCycle nodes parents id := by
  rintro ⟨ancestor, above, cycle⟩
  exact not_rel_self_of_acc (grounded.ancestor above).acc.transGen cycle

/-- A node with all its ancestors, none of them on a cycle, is grounded. -/
theorem grounded_of_acyclic {id : κ} (complete : ¬ MissesAncestor nodes parents id)
    (acyclic : ¬ MeetsCycle nodes parents id) : Grounded nodes parents id := by
  have exists_node (ancestor : κ) (above : Ancestor nodes parents ancestor id) :
      ∃ node, nodes.get? ancestor = some node := by
    cases found : nodes.get? ancestor with
    | none => exact absurd ⟨ancestor, above, found⟩ complete
    | some node => exact ⟨node, rfl⟩
  let ancestors := {ancestor // Ancestor nodes parents ancestor id}
  let keyOf : ancestors → {key // key ∈ nodes.keys} := fun ancestor =>
    ⟨ancestor.1, BTreeMap.mem_keys_iff.mpr (exists_node ancestor.1 ancestor.2)⟩
  have finite : Finite ancestors := by
    refine Finite.of_injective keyOf fun first second same => ?_
    exact Subtype.ext (congrArg (fun key => key.1) same)
  let derives : ancestors → ancestors → Prop := fun first second =>
    ProperAncestor nodes parents first.1 second.1
  have transitive : IsTrans ancestors derives := ⟨fun _ _ _ => Relation.TransGen.trans⟩
  have irreflexive : Std.Irrefl derives :=
    ⟨fun ancestor cycle => acyclic ⟨ancestor.1, ancestor.2, cycle⟩⟩
  have wellFounded : WellFounded derives := Finite.wellFounded_of_trans_of_irrefl derives
  have all (ancestor : ancestors) : Grounded nodes parents ancestor.1 := by
    induction ancestor using wellFounded.induction with
    | _ ancestor ih =>
        obtain ⟨node, found⟩ := exists_node ancestor.1 ancestor.2
        refine .intro found fun parent member => ?_
        have isParent : IsParent nodes parents parent ancestor.1 := ⟨node, found, member⟩
        exact ih ⟨parent, ancestor.2.head isParent⟩ (.single isParent)
  exact all ⟨id, .refl⟩

theorem grounded_iff {id : κ} :
    Grounded nodes parents id ↔
      ¬ MissesAncestor nodes parents id ∧ ¬ MeetsCycle nodes parents id :=
  ⟨fun grounded => ⟨grounded.not_missesAncestor, grounded.not_meetsCycle⟩,
    fun ⟨complete, acyclic⟩ => grounded_of_acyclic complete acyclic⟩

theorem mem_danglingClosure_iff [DecidableEq κ] {δ : Type*} [DecidableEq δ] {label : κ → ν → δ}
    {id : κ} :
    id ∈ (danglingClosure nodes parents label).1 ↔
      id ∈ nodes.keys ∧ MissesAncestor nodes parents id := by
  classical
  constructor
  · intro member
    have within : (danglingClosure nodes parents label).1 ⊆
        nodes.keys.filter (MissesAncestor nodes parents) := by
      refine Saturation.saturate_subset_of_closed (dangling_monotone label) _
        (Finset.empty_subset _) ?_
      intro id inKeys admitted
      obtain ⟨value, labelled⟩ := Option.isSome_iff_exists.mp admitted
      obtain ⟨node, found, ⟨parent, isParent, broken⟩, -⟩ := dangling_eq_some.mp labelled
      have above : IsParent nodes parents parent id := ⟨node, found, isParent⟩
      refine Finset.mem_filter.mpr ⟨inKeys, ?_⟩
      rcases broken with missing | invalid
      · refine ⟨parent, .single above, ?_⟩
        rw [BTreeMap.mem_keys_iff] at missing
        exact Option.eq_none_iff_forall_ne_some.mpr fun node lookup => missing ⟨node, lookup⟩
      · obtain ⟨ancestor, higher, missing⟩ := (Finset.mem_filter.mp invalid).2
        exact ⟨ancestor, higher.tail above, missing⟩
    exact Finset.mem_filter.mp (within member)
  · rintro ⟨inKeys, ancestor, above, missing⟩
    induction above with
    | refl =>
        obtain ⟨node, found⟩ := BTreeMap.mem_keys_iff.mp inKeys
        exact absurd (missing.symm.trans found) (by simp)
    | tail higher isParent ih =>
        rename_i parent child
        obtain ⟨node, found, member⟩ := isParent
        refine Saturation.mem_saturate_of_admitted _ _ inKeys ?_
        refine Option.isSome_iff_exists.mpr ⟨_, dangling_eq_some.mpr
          ⟨node, found, ⟨parent, member, ?_⟩, rfl⟩⟩
        by_cases parentExists : parent ∈ nodes.keys
        · exact Or.inr (ih parentExists)
        · exact Or.inl parentExists

section Heads

variable [DecidableEq κ] {valid : Finset κ}

theorem heads_antichain
    (closed : ∀ parent child, child ∈ valid → IsParent nodes parents parent child → parent ∈ valid)
    {first second : κ} (isHead : first ∈ heads nodes parents valid) (inSet : second ∈ valid) :
    ¬ ProperAncestor nodes parents first second := by
  intro derives
  obtain ⟨child, isParent, above⟩ := Relation.TransGen.head'_iff.mp derives
  have childValid : child ∈ valid := by
    clear isParent derives
    induction above using Relation.ReflTransGen.head_induction_on with
    | refl => exact inSet
    | head step _ ih => exact closed _ _ ih step
  obtain ⟨node, found, member⟩ := isParent
  exact (mem_heads.mp isHead).2 child childValid node found member

theorem exists_head_above (grounded : ∀ id ∈ valid, Grounded nodes parents id) {id : κ}
    (inSet : id ∈ valid) :
    ∃ head ∈ heads nodes parents valid, Ancestor nodes parents id head := by
  let derives : valid → valid → Prop := fun second first =>
    ProperAncestor nodes parents first.1 second.1
  have transitive : IsTrans valid derives :=
    ⟨fun _ _ _ second first => Relation.TransGen.trans first second⟩
  have irreflexive : Std.Irrefl derives :=
    ⟨fun item cycle => (grounded item.1 item.2).not_meetsCycle ⟨item.1, .refl, cycle⟩⟩
  have wellFounded : WellFounded derives := Finite.wellFounded_of_trans_of_irrefl derives
  obtain ⟨head, above, last⟩ := wellFounded.has_min
    {item | Ancestor nodes parents id item.1} ⟨⟨id, inSet⟩, .refl⟩
  refine ⟨head.1, mem_heads.mpr ⟨head.2, ?_⟩, above⟩
  intro child isValid node found member
  have isParent : IsParent nodes parents head.1 child := ⟨node, found, member⟩
  exact last ⟨child, isValid⟩ (above.tail isParent) (.single isParent)

end Heads

end CausalGraph

end SharedContext
