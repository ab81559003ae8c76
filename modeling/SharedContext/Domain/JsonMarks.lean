import SharedContext.Domain.JsonText
import SharedContext.Library.Occurrences

/-!
# Marks in JSON texts

A mark without the characters of JSON's own syntax is found in the text of a
value exactly when one of the strings of the value holds it: nothing about it is
escaped.  A mark with a quote behind `=` is never found, since the quotes of a
string are escaped.
-/

namespace SharedContext

open Occurrences

mutual

/-- The texts of a value and its keys. -/
def Value.strings : Value → List String
  | .string text => [text]
  | .array items => itemsStrings items
  | .object members => membersStrings members
  | _ => []

def itemsStrings : List Value → List String
  | [] => []
  | item :: rest => item.strings ++ itemsStrings rest

def membersStrings : List (String × Value) → List String
  | [] => []
  | (key, value) :: rest => key :: (value.strings ++ membersStrings rest)

end

/-! ### Marks that stay in strings -/

/-- The characters that JSON writes between values. -/
def jsonSeparators : List Char :=
  ['[', ']', '{', '}', ',', ':']

/-- A mark that nothing but a string can hold. -/
structure StaysInStrings (mark : List Char) : Prop where
  notNil : mark ≠ []
  noSeparator : ∀ character ∈ jsonSeparators, character ∉ mark
  notNumber : ∀ text, IsNumberText text → ¬ mark <:+: text.toList
  notLiteral : ∀ literal ∈ ["null", "true", "false"], ¬ mark <:+: literal.toList

section Strings

variable {mark : List Char}

theorem StaysInStrings.infix_items_iff (stays : StaysInStrings mark) (item : Value)
    (rest : List Value) :
    mark <:+: compactItems true (item :: rest) ↔
      mark <:+: item.compact ∨ mark <:+: compactItems true rest := by
  have noComma := stays.noSeparator ',' (by decide)
  rw [compactItems, separator, if_pos rfl, List.nil_append]
  cases rest with
  | nil => simp [compactItems, stays.notNil]
  | cons next rest =>
      have behind : compactItems false (next :: rest) = ',' :: compactItems true (next :: rest) := by
        simp [compactItems, separator]
      rw [behind, infix_append_cons_iff noComma]

theorem StaysInStrings.infix_members_iff (stays : StaysInStrings mark) (key : String)
    (value : Value) (rest : List (String × Value)) :
    mark <:+: compactMembers true ((key, value) :: rest) ↔
      mark <:+: writeString key ∨ mark <:+: value.compact ∨
        mark <:+: compactMembers true rest := by
  have noComma := stays.noSeparator ',' (by decide)
  have noColon := stays.noSeparator ':' (by decide)
  rw [compactMembers, separator, if_pos rfl, List.nil_append, infix_append_cons_iff noColon]
  apply or_congr_right
  cases rest with
  | nil => simp [compactMembers, stays.notNil]
  | cons next rest =>
      have behind : compactMembers false (next :: rest) =
          ',' :: compactMembers true (next :: rest) := by
        simp [compactMembers, separator]
      rw [behind, infix_append_cons_iff noComma]

mutual

/-- Such a mark is found in a text exactly when it is found in a written string. -/
theorem StaysInStrings.infix_compact_iff (stays : StaysInStrings mark) {value : Value}
    (wellFormed : value.WellFormed) :
    mark <:+: value.compact ↔ ∃ text ∈ value.strings, mark <:+: writeString text := by
  match value with
  | .null => simpa [Value.compact, Value.strings] using stays.notLiteral "null" (by decide)
  | .bool true => simpa [Value.compact, Value.strings] using stays.notLiteral "true" (by decide)
  | .bool false => simpa [Value.compact, Value.strings] using stays.notLiteral "false" (by decide)
  | .number text =>
      simp [Value.compact, Value.strings, stays.notNumber text wellFormed]
  | .string text => simp [Value.compact, Value.strings]
  | .array items =>
      rw [Value.compact, infix_cons_iff_of_not_mem (stays.noSeparator '[' (by decide)) stays.notNil,
        infix_append_cons_iff (stays.noSeparator ']' (by decide)),
        stays.infix_compactItems_iff wellFormed, Value.strings]
      simp [stays.notNil]
  | .object members =>
      rw [Value.compact, infix_cons_iff_of_not_mem (stays.noSeparator '{' (by decide)) stays.notNil,
        infix_append_cons_iff (stays.noSeparator '}' (by decide)),
        stays.infix_compactMembers_iff wellFormed.2, Value.strings]
      simp [stays.notNil]

theorem StaysInStrings.infix_compactItems_iff (stays : StaysInStrings mark) {items : List Value}
    (wellFormed : ItemsWellFormed items) :
    mark <:+: compactItems true items ↔
      ∃ text ∈ itemsStrings items, mark <:+: writeString text := by
  match items with
  | [] => simp [compactItems, itemsStrings, stays.notNil]
  | item :: rest =>
      rw [stays.infix_items_iff, stays.infix_compact_iff wellFormed.1,
        stays.infix_compactItems_iff wellFormed.2, itemsStrings]
      simp only [List.mem_append, or_and_right, exists_or]

theorem StaysInStrings.infix_compactMembers_iff (stays : StaysInStrings mark)
    {members : List (String × Value)} (wellFormed : MembersWellFormed members) :
    mark <:+: compactMembers true members ↔
      ∃ text ∈ membersStrings members, mark <:+: writeString text := by
  match members with
  | [] => simp [compactMembers, membersStrings, stays.notNil]
  | (key, value) :: rest =>
      rw [stays.infix_members_iff, stays.infix_compact_iff wellFormed.1,
        stays.infix_compactMembers_iff wellFormed.2, membersStrings]
      simp only [List.mem_cons, List.mem_append, or_and_right, exists_or, exists_eq_left]

end

end Strings

/-! ### Plain marks -/

section Plain

variable {head : Char} {tail : List Char}

/-- A text that JSON neither escapes nor writes itself. -/
structure IsPlainMark (head : Char) (tail : List Char) : Prop where
  plain : ∀ character ∈ head :: tail, escapeCharacter character = [character]
  noSyntax : ∀ character ∈ '\x22' :: '\\' :: jsonSeparators, character ∉ head :: tail
  notNumber : isNumberCharacter head = false
  notLiteral : ∀ literal ∈ ["null", "true", "false"], head ∉ literal.toList
  notEscape : ∀ character, escapeCharacter character ≠ [character] →
    head ∉ escapeCharacter character

theorem IsPlainMark.stays (isMark : IsPlainMark head tail) : StaysInStrings (head :: tail) where
  notNil := List.cons_ne_nil _ _
  noSeparator := fun character member =>
    isMark.noSyntax character (List.mem_cons_of_mem _ (List.mem_cons_of_mem _ member))
  notNumber := by
    intro text isNumber found
    have isCharacter := isNumber.characters head (found.mem List.mem_cons_self)
    rw [isMark.notNumber] at isCharacter
    cases isCharacter
  notLiteral := fun literal member found =>
    isMark.notLiteral literal member (found.mem List.mem_cons_self)

theorem escapeCharacter_eq_or (character : Char) :
    escapeCharacter character = [character] ∨
      ∃ rest, escapeCharacter character = '\\' :: rest := by
  unfold escapeCharacter
  split
  · exact .inr ⟨_, rfl⟩
  · split
    · exact .inr ⟨_, rfl⟩
    · exact .inl rfl

theorem escapeCharacter_ne {character : Char} {rest : List Char}
    (escaped : escapeCharacter character = '\\' :: rest) :
    escapeCharacter character ≠ [character] := by
  intro same
  have isBackslash : '\\' = character := by
    rw [escaped] at same
    exact (List.cons.inj same).1
  rw [← isBackslash] at same
  revert same
  decide

theorem prefix_escaped_iff {mark : List Char}
    (plain : ∀ character ∈ mark, escapeCharacter character = [character])
    (noBackslash : '\\' ∉ mark) (text : List Char) :
    mark <+: text.flatMap escapeCharacter ↔ mark <+: text := by
  induction mark generalizing text with
  | nil => simp
  | cons first mark ih =>
      rw [List.mem_cons, not_or] at noBackslash
      cases text with
      | nil => simp
      | cons character text =>
          have rest := ih (fun other member => plain other (List.mem_cons_of_mem _ member))
            noBackslash.2 text
          rw [List.flatMap_cons]
          rcases escapeCharacter_eq_or character with same | ⟨more, escaped⟩
          · rw [same, List.singleton_append, List.cons_prefix_cons, List.cons_prefix_cons, rest]
          · rw [escaped, List.cons_append, List.cons_prefix_cons, List.cons_prefix_cons]
            constructor
            · rintro ⟨rfl, -⟩
              exact absurd rfl noBackslash.1
            · rintro ⟨rfl, -⟩
              rw [plain first List.mem_cons_self] at escaped
              exact absurd (List.cons.inj escaped).1.symm noBackslash.1

theorem IsPlainMark.not_backslash (isMark : IsPlainMark head tail) : '\\' ∉ head :: tail :=
  isMark.noSyntax '\\' (by decide)

theorem IsPlainMark.infix_escaped_iff (isMark : IsPlainMark head tail) (text : List Char) :
    head :: tail <:+: text.flatMap escapeCharacter ↔ head :: tail <:+: text := by
  induction text with
  | nil => rfl
  | cons character text ih =>
      rw [List.flatMap_cons]
      rcases escapeCharacter_eq_or character with same | ⟨more, escaped⟩
      · have atStart := prefix_escaped_iff isMark.plain isMark.not_backslash (character :: text)
        rw [List.flatMap_cons, same, List.singleton_append] at atStart
        rw [same, List.singleton_append, List.infix_cons_iff, List.infix_cons_iff, atStart, ih]
      · have notSame := escapeCharacter_ne escaped
        have differs : head ≠ character := by
          rintro rfl
          exact notSame (isMark.plain _ List.mem_cons_self)
        rw [infix_append_iff_of_head_not_mem (isMark.notEscape character notSame), ih,
          infix_cons_iff_of_ne differs]

theorem IsPlainMark.infix_writeString_iff (isMark : IsPlainMark head tail) (text : String) :
    head :: tail <:+: writeString text ↔ head :: tail <:+: text.toList := by
  have noQuote : '\x22' ∉ head :: tail := isMark.noSyntax '\x22' (by decide)
  rw [writeString, infix_cons_iff_of_not_mem noQuote (List.cons_ne_nil _ _),
    infix_append_cons_iff noQuote, isMark.infix_escaped_iff]
  simp

theorem IsPlainMark.infix_compact_iff (isMark : IsPlainMark head tail) {value : Value}
    (wellFormed : value.WellFormed) :
    head :: tail <:+: value.compact ↔ ∃ text ∈ value.strings, head :: tail <:+: text.toList := by
  simp only [isMark.stays.infix_compact_iff wellFormed, isMark.infix_writeString_iff]

end Plain

/-! ### A quote behind an equals sign -/

/-- What the value of an attribute begins with. -/
def attributeMark : List Char :=
  ['=', '\x22', 'r']

def escapeLetters : List Char :=
  '\\' :: '\x22' :: "btnfru0123456789abcdef".toList

theorem mem_escapeLetters {character written : Char}
    (escaped : escapeCharacter character ≠ [character])
    (member : written ∈ escapeCharacter character) : written ∈ escapeLetters := by
  have digits : ∀ digit < 16, Nat.digitChar digit ∈ escapeLetters := by decide
  unfold escapeCharacter at escaped member
  split at member
  · rename_i letter found
    obtain ⟨before, after, entries, -⟩ := List.lookup_eq_some_iff.mp found
    have isShort : (character, letter) ∈ shortEscapes := by simp [entries]
    have letters : ∀ entry ∈ shortEscapes, entry.2 ∈ escapeLetters := by decide
    rcases List.mem_cons.mp member with rfl | isLetter
    · decide
    · rw [List.mem_singleton.mp isLetter]
      exact letters _ isShort
  · rename_i notShort
    rw [notShort] at escaped
    split at member
    · have high := digits (character.toNat / 16) (by omega)
      have low := digits (character.toNat % 16) (by omega)
      simp only [List.mem_cons, List.not_mem_nil, or_false] at member
      rcases member with rfl | rfl | rfl | rfl | rfl | rfl
      · decide
      · decide
      · decide
      · decide
      · exact high
      · exact low
    · rename_i notControl
      simp [notControl] at escaped

theorem escaped_head_ne_quote (text rest : List Char) (character : Char) :
    character :: rest <+: text.flatMap escapeCharacter → character ≠ '\x22' := by
  rintro starts rfl
  cases text with
  | nil => simp at starts
  | cons first text =>
      rw [List.flatMap_cons] at starts
      rcases escapeCharacter_eq_or first with same | ⟨more, escaped⟩
      · rw [same, List.singleton_append, List.cons_prefix_cons] at starts
        rw [← starts.1] at same
        revert same
        decide
      · rw [escaped, List.cons_append, List.cons_prefix_cons] at starts
        exact absurd starts.1 (by decide)

theorem attributeMark_not_infix_escaped (text : List Char) :
    ¬ attributeMark <:+: text.flatMap escapeCharacter := by
  induction text with
  | nil => simp [attributeMark]
  | cons character text ih =>
      rw [List.flatMap_cons]
      rcases escapeCharacter_eq_or character with same | ⟨more, escaped⟩
      · rw [same, List.singleton_append, attributeMark, List.infix_cons_iff]
        rintro (atStart | later)
        · exact escaped_head_ne_quote _ _ _ (List.cons_prefix_cons.mp atStart).2 rfl
        · exact ih later
      · have notSame := escapeCharacter_ne escaped
        have notEquals : '=' ∉ escapeCharacter character := fun member =>
          absurd (mem_escapeLetters notSame member) (by decide)
        rw [attributeMark, infix_append_iff_of_head_not_mem notEquals]
        exact ih

theorem attributeMark_not_infix_writeString (text : String) :
    ¬ attributeMark <:+: writeString text := by
  rw [writeString, attributeMark, infix_cons_iff_of_ne (by decide), List.infix_concat_iff]
  rintro (atEnd | inside)
  · rcases List.suffix_concat_iff.mp atEnd with isNil | ⟨rest, same, -⟩
    · cases isNil
    · have lastEq := congrArg List.getLast? same
      simp at lastEq
  · exact attributeMark_not_infix_escaped text.toList inside

theorem attributeMark_not_infix_compact {value : Value} (wellFormed : value.WellFormed) :
    ¬ attributeMark <:+: value.compact := by
  have stays : StaysInStrings attributeMark := by
    refine ⟨List.cons_ne_nil _ _, by simp [jsonSeparators, attributeMark], ?_, ?_⟩
    · intro text isNumber found
      have isCharacter := isNumber.characters '=' (found.mem List.mem_cons_self)
      exact absurd isCharacter (by decide)
    · have absent : ∀ literal ∈ ["null", "true", "false"], '=' ∉ literal.toList := by decide
      exact fun literal member => not_infix_of_head_not_mem (absent literal member)
  rw [stays.infix_compact_iff wellFormed]
  rintro ⟨text, -, found⟩
  exact attributeMark_not_infix_writeString text found

end SharedContext
