import Mathlib

/-!
# Positional numerals of a fixed width

The digits of a number in a base, the most significant first, and the number
that a list of digits stands for.
-/

namespace SharedContext.Positional

/-- The digit of a number at a power of the base. -/
def digitAt (base number power : Nat) : Nat :=
  number / base ^ power % base

/-- The digits of a number below `base ^ width`, the most significant first. -/
def fixedDigits (base width number : Nat) : List Nat :=
  (List.range width).map fun position => digitAt base number (width - 1 - position)

def value (base : Nat) (digits : List Nat) : Nat :=
  digits.foldl (fun number digit => number * base + digit) 0

variable {base width number : Nat}

@[simp]
theorem length_fixedDigits : (fixedDigits base width number).length = width := by
  simp [fixedDigits]

theorem digit_lt_of_mem (positive : 0 < base) {digit : Nat}
    (member : digit ∈ fixedDigits base width number) : digit < base := by
  obtain ⟨position, _, rfl⟩ := List.mem_map.mp member
  exact Nat.mod_lt _ positive

theorem value_append_digit (digits : List Nat) (digit : Nat) :
    value base (digits ++ [digit]) = value base digits * base + digit := by
  simp [value]

/-- A number without its last digit. -/
theorem fixedDigits_succ :
    fixedDigits base (width + 1) number =
      fixedDigits base width (number / base) ++ [number % base] := by
  rw [fixedDigits, List.range_succ, List.map_append, List.map_singleton, fixedDigits]
  congr 1
  · apply List.map_congr_left
    intro position member
    have inRange : position < width := List.mem_range.mp member
    have power : width + 1 - 1 - position = (width - 1 - position) + 1 := by omega
    rw [digitAt, digitAt, power, pow_succ', Nat.div_div_eq_div_mul]
  · simp [digitAt]

theorem value_fixedDigits (small : number < base ^ width) :
    value base (fixedDigits base width number) = number := by
  induction width generalizing number with
  | zero =>
      have zero : number = 0 := by simpa using small
      simp [zero, fixedDigits, value]
  | succ width ih =>
      have quotientSmall : number / base < base ^ width := by
        apply Nat.div_lt_of_lt_mul
        rwa [pow_succ'] at small
      rw [fixedDigits_succ, value_append_digit, ih quotientSmall, Nat.mul_comm]
      exact Nat.div_add_mod number base

theorem mapM_written {α : Type} {read : α → Option Nat} {write : Nat → α} {digits : List Nat}
    (reads : ∀ digit ∈ digits, read (write digit) = some digit) :
    (digits.map write).mapM read = some digits := by
  induction digits with
  | nil => rfl
  | cons digit rest ih =>
      have restReads : ∀ other ∈ rest, read (write other) = some other :=
        fun other member => reads other (List.mem_cons_of_mem _ member)
      rw [List.map_cons, List.mapM_cons, reads digit List.mem_cons_self, ih restReads]
      rfl

end SharedContext.Positional
