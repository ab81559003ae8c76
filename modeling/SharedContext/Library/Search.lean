import Mathlib

/-!
# Searching a text

A needle occurs at a position of a text when the text goes on with it there.
The occurrences are found from left to right, each search starting behind the
last one found; when no proper start of the needle is an end of it, this finds
all of them.  A cursor advances over a text as long as a test holds.
-/

namespace SharedContext

variable {α : Type*}

/-- The text goes on with the needle at the position. -/
def OccursAt (needle text : List α) (position : Nat) : Prop :=
  needle <+: text.drop position

instance [DecidableEq α] (needle text : List α) (position : Nat) :
    Decidable (OccursAt needle text position) :=
  inferInstanceAs (Decidable (needle <+: text.drop position))

theorem occursAt_iff {needle text : List α} {position : Nat} :
    OccursAt needle text position ↔
      ∀ index (inside : index < needle.length), text[position + index]? = some needle[index] := by
  unfold OccursAt
  rw [List.prefix_iff_getElem?]
  refine forall₂_congr fun index inside => ?_
  rw [List.getElem?_drop]

theorem OccursAt.getElem?_eq {needle text : List α} {position : Nat}
    (occurs : OccursAt needle text position) {index : Nat} (inside : index < needle.length) :
    text[position + index]? = needle[index]? := by
  rw [occursAt_iff.mp occurs index inside, List.getElem?_eq_getElem inside]

theorem OccursAt.length_le {needle text : List α} {position : Nat}
    (occurs : OccursAt needle text position) (inside : needle ≠ []) :
    position + needle.length ≤ text.length := by
  have shorter : needle.length ≤ (text.drop position).length := List.IsPrefix.length_le occurs
  have positive : 0 < needle.length := List.length_pos_iff.mpr inside
  rw [List.length_drop] at shorter
  omega

/-- The first position of a text at which the needle occurs. -/
def findFirst [DecidableEq α] (needle : List α) : List α → Option Nat
  | [] => if needle = [] then some 0 else none
  | item :: rest =>
      if needle <+: item :: rest then some 0 else (findFirst needle rest).map (· + 1)

section Find

variable [DecidableEq α] {needle text : List α}

theorem findFirst_eq_some {position : Nat} :
    findFirst needle text = some position ↔
      OccursAt needle text position ∧ position ≤ text.length ∧
        ∀ earlier < position, ¬ OccursAt needle text earlier := by
  induction text generalizing position with
  | nil =>
      by_cases empty : needle = []
      · simp only [findFirst, empty, if_true, Option.some.injEq, List.length_nil]
        constructor
        · intro same
          subst same
          exact ⟨List.nil_prefix, Nat.le_refl 0, by simp⟩
        · intro ⟨_, within, _⟩
          omega
      · simp [findFirst, empty, OccursAt]
  | cons item rest ih =>
      by_cases here : needle <+: item :: rest
      · simp only [findFirst, here, if_true, Option.some.injEq]
        constructor
        · intro same
          subst same
          exact ⟨here, Nat.zero_le _, by simp⟩
        · intro ⟨_, _, first⟩
          by_contra later
          exact first 0 (by omega) here
      · simp only [findFirst, here, if_false, Option.map_eq_some_iff]
        constructor
        · intro ⟨previous, found, same⟩
          subst same
          obtain ⟨occurs, within, first⟩ := ih.mp found
          refine ⟨occurs, by simpa using within, fun earlier before => ?_⟩
          cases earlier with
          | zero => exact here
          | succ earlier => exact first earlier (by omega)
        · intro ⟨occurs, within, first⟩
          cases position with
          | zero => exact absurd occurs here
          | succ position =>
              refine ⟨position, ih.mpr ⟨occurs, by simpa using within, fun earlier before => ?_⟩, rfl⟩
              exact first (earlier + 1) (by omega)

theorem findFirst_eq_none :
    findFirst needle text = none ↔ ∀ position ≤ text.length, ¬ OccursAt needle text position := by
  constructor
  · intro missing position within occurs
    induction text generalizing position with
    | nil => simp_all [findFirst, OccursAt]
    | cons item rest ih =>
        by_cases here : needle <+: item :: rest
        · simp [findFirst, here] at missing
        · simp only [findFirst, here, if_false, Option.map_eq_none_iff] at missing
          cases position with
          | zero => exact here occurs
          | succ position => exact ih missing position (by simpa using within) occurs
  · intro missing
    cases found : findFirst needle text with
    | none => rfl
    | some position =>
        obtain ⟨occurs, within, -⟩ := findFirst_eq_some.mp found
        exact absurd occurs (missing position within)

/-- The search behind an offset finds the first occurrence from there on. -/
theorem findFirst_drop_eq_some {offset relative : Nat}
    (found : findFirst needle (text.drop offset) = some relative) :
    OccursAt needle text (offset + relative) ∧
      ∀ position, offset ≤ position → OccursAt needle text position →
        offset + relative ≤ position := by
  obtain ⟨occurs, -, first⟩ := findFirst_eq_some.mp found
  unfold OccursAt at occurs first
  rw [List.drop_drop] at occurs
  refine ⟨occurs, fun position after other => ?_⟩
  by_contra before
  have none := first (position - offset) (by omega)
  rw [List.drop_drop, show offset + (position - offset) = position by omega] at none
  exact none other

theorem findFirst_drop_eq_none (inside : needle ≠ []) {offset : Nat}
    (missing : findFirst needle (text.drop offset) = none) {position : Nat}
    (after : offset ≤ position) : ¬ OccursAt needle text position := by
  intro occurs
  have within := occurs.length_le inside
  have none := findFirst_eq_none.mp missing (position - offset)
  unfold OccursAt at none
  rw [List.drop_drop, show offset + (position - offset) = position by omega,
    List.length_drop] at none
  exact none (by omega) occurs

end Find

/-! ### All occurrences -/

section Occurrences

/-- The occurrences found from an offset on, each search starting behind the
last one. -/
def occurrencesFrom [DecidableEq α] (needle text : List α) (offset : Nat) : List Nat :=
  if needle = [] then [] else
  match _found : findFirst needle (text.drop offset) with
  | none => []
  | some relative =>
      (offset + relative) :: occurrencesFrom needle text (offset + relative + needle.length)
termination_by text.length - offset
decreasing_by
  rename_i inside
  have occurs := (findFirst_eq_some.mp _found).1
  have within := occurs.length_le inside
  have positive : 0 < needle.length := List.length_pos_iff.mpr inside
  rw [List.length_drop] at within
  omega

/-- No proper start of the list is an end of it. -/
def Unbordered (needle : List α) : Prop :=
  ∀ shift < needle.length, 0 < shift → ¬ needle.drop shift <+: needle

instance [DecidableEq α] (needle : List α) : Decidable (Unbordered needle) := by
  unfold Unbordered
  infer_instance

variable {needle text : List α}

theorem occursAt_of_mem_occurrencesFrom [DecidableEq α] {offset position : Nat}
    (listed : position ∈ occurrencesFrom needle text offset) :
    OccursAt needle text position ∧ offset ≤ position := by
  fun_induction occurrencesFrom needle text offset with
  | case1 offset empty => cases listed
  | case2 offset inside missing => cases listed
  | case3 offset inside relative found ih =>
      rcases List.mem_cons.mp listed with same | later
      · have occurs := (findFirst_drop_eq_some found).1
        exact ⟨same ▸ occurs, by omega⟩
      · have facts := ih later
        exact ⟨facts.1, by omega⟩

/-- Two occurrences of a needle without a border do not overlap. -/
theorem Unbordered.apart (unbordered : Unbordered needle) {first second : Nat}
    (firstOccurs : OccursAt needle text first) (secondOccurs : OccursAt needle text second)
    (ordered : first < second) : first + needle.length ≤ second := by
  by_contra overlapping
  apply unbordered (second - first) (by omega) (by omega)
  rw [occursAt_iff] at firstOccurs secondOccurs
  rw [List.prefix_iff_getElem?]
  intro index inside
  rw [List.length_drop] at inside
  have atFirst := firstOccurs (second - first + index) (by omega)
  have atSecond := secondOccurs index (by omega)
  rw [show first + (second - first + index) = second + index by omega, atSecond] at atFirst
  rw [List.getElem?_eq_getElem (by omega), List.getElem_drop]
  exact atFirst

theorem mem_occurrencesFrom [DecidableEq α] (unbordered : Unbordered needle) (inside : needle ≠ [])
    {offset position : Nat} :
    position ∈ occurrencesFrom needle text offset ↔
      OccursAt needle text position ∧ offset ≤ position := by
  refine ⟨occursAt_of_mem_occurrencesFrom, ?_⟩
  fun_induction occurrencesFrom needle text offset with
  | case1 offset empty => exact absurd empty inside
  | case2 offset _ missing =>
      intro ⟨occurs, after⟩
      exact absurd occurs (findFirst_drop_eq_none inside missing after)
  | case3 offset _ relative found ih =>
      intro ⟨occurs, after⟩
      obtain ⟨firstOccurs, first⟩ := findFirst_drop_eq_some found
      rw [List.mem_cons]
      rcases Nat.eq_or_lt_of_le (first position after occurs) with same | later
      · exact .inl same.symm
      · exact .inr (ih ⟨occurs, unbordered.apart firstOccurs occurs later⟩)

end Occurrences

/-! ### Advancing a cursor -/

/-- Move the cursor on while the test holds of it and of the item under it. -/
def advance (test : Nat → α → Bool) (text : List α) (cursor : Nat) : Nat :=
  if inside : cursor < text.length then
    if test cursor text[cursor] then advance test text (cursor + 1) else cursor
  else cursor
termination_by text.length - cursor

section Advance

variable {test : Nat → α → Bool} {text : List α} {cursor : Nat}

theorem le_advance : cursor ≤ advance test text cursor := by
  fun_induction advance test text cursor with
  | case1 cursor inside passes ih => omega
  | case2 cursor inside fails => exact Nat.le_refl _
  | case3 cursor outside => exact Nat.le_refl _

/-- Every item that was passed satisfied the test. -/
theorem advance_passed {position : Nat} (after : cursor ≤ position)
    (before : position < advance test text cursor) :
    ∃ item, text[position]? = some item ∧ test position item = true := by
  fun_induction advance test text cursor with
  | case1 cursor inside passes ih =>
      rcases Nat.eq_or_lt_of_le after with same | later
      · subst same
        exact ⟨_, List.getElem?_eq_getElem inside, passes⟩
      · exact ih later before
  | case2 cursor inside fails => omega
  | case3 cursor outside => omega

theorem advance_stopped {item : α} (found : text[advance test text cursor]? = some item) :
    test (advance test text cursor) item = false := by
  fun_induction advance test text cursor with
  | case1 cursor inside passes ih => exact ih found
  | case2 cursor inside fails =>
      rw [List.getElem?_eq_getElem inside] at found
      cases found
      simpa using fails
  | case3 cursor outside => exact absurd (List.getElem?_eq_some_iff.mp found).1 outside

theorem lt_advance {position : Nat}
    (holds : ∀ index, cursor ≤ index → index ≤ position →
      ∃ item, text[index]? = some item ∧ test index item = true) :
    position < advance test text cursor := by
  by_contra stopped
  have reached : advance test text cursor ≤ position := by omega
  obtain ⟨item, found, passes⟩ := holds (advance test text cursor) le_advance reached
  rw [advance_stopped found] at passes
  cases passes

theorem advance_eq {stop : Nat} (after : cursor ≤ stop)
    (holds : ∀ index, cursor ≤ index → index < stop →
      ∃ item, text[index]? = some item ∧ test index item = true)
    (stops : ∀ item, text[stop]? = some item → test stop item = false) :
    advance test text cursor = stop := by
  rcases Nat.lt_trichotomy (advance test text cursor) stop with early | same | late
  · obtain ⟨item, found, passes⟩ := holds _ le_advance early
    rw [advance_stopped found] at passes
    cases passes
  · exact same
  · obtain ⟨item, found, passes⟩ := advance_passed after late
    rw [stops item found] at passes
    cases passes

end Advance

end SharedContext
