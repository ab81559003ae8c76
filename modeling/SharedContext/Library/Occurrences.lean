import Mathlib

/-!
# Where a mark occurs in a text

A mark that lacks a character never crosses it, and a mark is only found where
its first character is.
-/

namespace SharedContext.Occurrences

variable {α : Type*} {mark before after : List α}

theorem infix_append_cons_iff {character : α} (notMem : character ∉ mark) :
    mark <:+: before ++ character :: after ↔ mark <:+: before ∨ mark <:+: after := by
  constructor
  · rintro ⟨left, right, split⟩
    rcases List.append_eq_append_iff.mp split with ⟨rest, rfl, rightEq⟩ | ⟨rest, leftEq, rightEq⟩
    · exact .inl ⟨left, rest, rfl⟩
    · cases rest with
      | nil =>
          rw [List.append_nil] at leftEq
          exact .inl ⟨left, [], by rw [List.append_nil, leftEq]⟩
      | cons head rest =>
          obtain ⟨rfl, rfl⟩ := List.cons.inj rightEq
          rcases List.append_eq_append_iff.mp leftEq with
            ⟨middle, rfl, markEq⟩ | ⟨middle, rfl, markEq⟩
          · exact absurd (markEq ▸ List.mem_append_right _ List.mem_cons_self) notMem
          · cases middle with
            | nil =>
                rw [List.nil_append] at markEq
                exact absurd (markEq ▸ List.mem_cons_self) notMem
            | cons head middle =>
                obtain ⟨rfl, rfl⟩ := List.cons.inj markEq
                exact .inr ⟨middle, right, rfl⟩
  · rintro (inBefore | inAfter)
    · exact List.infix_append_of_infix_left inBefore
    · exact List.infix_append_of_infix_right (List.infix_cons inAfter)

theorem infix_cons_iff_of_not_mem {character : α} (notMem : character ∉ mark)
    (notNil : mark ≠ []) : mark <:+: character :: after ↔ mark <:+: after := by
  have split : mark <:+: [] ++ character :: after ↔ _ := infix_append_cons_iff notMem
  rw [List.nil_append, List.infix_nil] at split
  rw [split]
  exact ⟨fun found => found.resolve_left notNil, .inr⟩

variable {head : α} {tail : List α}

theorem infix_cons_iff_of_ne {character : α} (differs : head ≠ character) :
    head :: tail <:+: character :: after ↔ head :: tail <:+: after := by
  rw [List.infix_cons_iff]
  constructor
  · rintro (⟨rest, same⟩ | found)
    · exact absurd (List.cons.inj same).1 differs
    · exact found
  · exact .inr

/-- What lacks the first character of a mark may be left out in front. -/
theorem infix_append_iff_of_head_not_mem (notMem : head ∉ before) :
    head :: tail <:+: before ++ after ↔ head :: tail <:+: after := by
  induction before with
  | nil => rfl
  | cons character before ih =>
      rw [List.mem_cons, not_or] at notMem
      rw [List.cons_append, infix_cons_iff_of_ne notMem.1, ih notMem.2]

theorem not_infix_of_head_not_mem (notMem : head ∉ before) : ¬ head :: tail <:+: before := by
  intro found
  exact notMem (found.mem List.mem_cons_self)

/-! ### A mark at one end only -/

/-- Nothing stands behind any occurrence. -/
def OnlyAtEnd (mark text : List α) : Prop :=
  ∀ left right, text = left ++ mark ++ right → right = []

/-- Nothing stands in front of any occurrence. -/
def OnlyAtStart (mark text : List α) : Prop :=
  ∀ left right, text = left ++ mark ++ right → left = []

theorem onlyAtEnd_iff {body : List α} {character : α} (notMem : character ∉ mark)
    (notNil : mark ≠ []) : OnlyAtEnd mark (body ++ character :: mark) ↔ ¬ mark <:+: body := by
  constructor
  · rintro clean ⟨left, right, rfl⟩
    have nothing := clean left (right ++ character :: mark) (by simp)
    simp at nothing
  · intro absent left right split
    by_contra something
    have shorter := congrArg List.dropLast split
    rw [List.dropLast_append_of_ne_nil (List.cons_ne_nil _ _),
      List.dropLast_append_of_ne_nil something, List.dropLast_cons_of_ne_nil notNil] at shorter
    have found : mark <:+: body ++ character :: mark.dropLast := ⟨left, _, shorter.symm⟩
    rcases (infix_append_cons_iff notMem).mp found with inBody | inMark
    · exact absent inBody
    · have lengthLe := inMark.length_le
      have positive := List.length_pos_iff.mpr notNil
      rw [List.length_dropLast] at lengthLe
      omega

theorem onlyAtStart_iff {body : List α} {character : α} (notMem : character ∉ mark)
    (notNil : mark ≠ []) : OnlyAtStart mark (mark ++ character :: body) ↔ ¬ mark <:+: body := by
  constructor
  · rintro clean ⟨left, right, rfl⟩
    have nothing := clean (mark ++ character :: left) right (by simp)
    simp at nothing
  · intro absent left right split
    by_contra something
    have shorter := congrArg List.tail split
    rw [List.append_assoc, List.tail_append_of_ne_nil notNil,
      List.tail_append_of_ne_nil something] at shorter
    have found : mark <:+: mark.tail ++ character :: body :=
      ⟨left.tail, right, by rw [shorter, List.append_assoc]⟩
    rcases (infix_append_cons_iff notMem).mp found with inMark | inBody
    · have lengthLe := inMark.length_le
      have positive := List.length_pos_iff.mpr notNil
      rw [List.length_tail] at lengthLe
      omega
    · exact absent inBody

end SharedContext.Occurrences
