import Mathlib

/-!
# Shrinking until it fits

A value is shrunk one step at a time until it fits.  The value at which this
stops is the first one on its way that fits, so whatever only decreases on the
way is as large where it stops as in any fitting value on the way.
-/

namespace SharedContext

open Relation

variable {α : Type*}

def ShrinksTo (shrink : α → Option α) : α → α → Prop :=
  ReflTransGen fun value next => shrink value = some next

/-- Where shrinking stops: at the first value that fits. -/
inductive FirstFit (fits : α → Prop) (shrink : α → Option α) : α → α → Prop
  | here {value : α} (itFits : fits value) : FirstFit fits shrink value value
  | later {value next last : α} (tooLarge : ¬ fits value) (step : shrink value = some next)
      (rest : FirstFit fits shrink next last) : FirstFit fits shrink value last

namespace FirstFit

variable {fits : α → Prop} {shrink : α → Option α} {value last : α}

theorem shrinksTo (first : FirstFit fits shrink value last) : ShrinksTo shrink value last := by
  induction first with
  | here => exact .refl
  | later _ step _ ih => exact .head step ih

theorem fitting (first : FirstFit fits shrink value last) : fits last := by
  induction first with
  | here itFits => exact itFits
  | later _ _ _ ih => exact ih

/-- Every fitting value on the way comes after the first one. -/
theorem before (first : FirstFit fits shrink value last) {other : α}
    (onWay : ShrinksTo shrink value other) (otherFits : fits other) :
    ShrinksTo shrink last other := by
  induction first with
  | here => exact onWay
  | later tooLarge step _ ih =>
      rcases ReflTransGen.cases_head onWay with same | ⟨next, stepOther, rest⟩
      · rw [← same] at otherFits
        exact absurd otherFits tooLarge
      · cases step.symm.trans stepOther
        exact ih rest

end FirstFit

section Level

variable {shrink : α → Option α} {level : α → Nat}
  (decreases : ∀ value next, shrink value = some next → level next ≤ level value)
include decreases

theorem ShrinksTo.level_le {value last : α} (onWay : ShrinksTo shrink value last) :
    level last ≤ level value := by
  induction onWay with
  | refl => exact Nat.le_refl _
  | tail _ step ih => exact Nat.le_trans (decreases _ _ step) ih

theorem FirstFit.le_level_iff {fits : α → Prop} {value last : α}
    (first : FirstFit fits shrink value last) {count : Nat} :
    count ≤ level last ↔
      ∃ other, ShrinksTo shrink value other ∧ fits other ∧ count ≤ level other := by
  constructor
  · intro enough
    exact ⟨last, first.shrinksTo, first.fitting, enough⟩
  · rintro ⟨other, onWay, otherFits, enough⟩
    exact Nat.le_trans enough ((first.before onWay otherFits).level_le decreases)

end Level

end SharedContext
