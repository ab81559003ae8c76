import SharedContext.Domain.IdText
import SharedContext.Domain.Json

/-!
# JSON texts

The compact text `serde_json` writes of a value.  It holds no control
characters, and a value is read back from its text.
-/

namespace SharedContext

def shortEscapes : List (Char × Char) :=
  [('\x22', '\x22'), ('\\', '\\'), ('\x08', 'b'), ('\t', 't'), ('\n', 'n'), ('\x0c', 'f'),
    ('\r', 'r')]

def escapeCharacter (character : Char) : List Char :=
  match shortEscapes.lookup character with
  | some letter => ['\\', letter]
  | none =>
      if character.toNat < 32 then
        ['\\', 'u', '0', '0', Nat.digitChar (character.toNat / 16),
          Nat.digitChar (character.toNat % 16)]
      else [character]

/-- `serde_json::to_string` of a string. -/
def writeString (text : String) : List Char :=
  '\x22' :: (text.toList.flatMap escapeCharacter ++ ['\x22'])

/-- All items but the first have a comma before them. -/
def separator (first : Bool) : List Char :=
  if first then [] else [',']

mutual

/-- `serde_json::to_string` of a value. -/
def Value.compact : Value → List Char
  | .null => "null".toList
  | .bool true => "true".toList
  | .bool false => "false".toList
  | .number text => text.toList
  | .string text => writeString text
  | .array items => '[' :: (compactItems true items ++ [']'])
  | .object members => '{' :: (compactMembers true members ++ ['}'])

def compactItems (first : Bool) : List Value → List Char
  | [] => []
  | item :: rest =>
      separator first ++ (item.compact ++ compactItems false rest)

def compactMembers (first : Bool) : List (String × Value) → List Char
  | [] => []
  | (key, value) :: rest =>
      separator first ++
        (writeString key ++ ':' :: (value.compact ++ compactMembers false rest))

end

def isNumberCharacter (character : Char) : Bool :=
  character.isDigit || character ∈ ['+', '-', '.', 'e', 'E']

/-- A number's text, as `serde_json::Number` prints it. -/
structure IsNumberText (text : String) : Prop where
  characters : ∀ character ∈ text.toList, isNumberCharacter character = true
  starts : ∃ character rest, text.toList = character :: rest ∧
    (character.isDigit = true ∨ character = '-')

mutual

/-- Numbers are numbers, and no object has a key twice. -/
def Value.WellFormed : Value → Prop
  | .number text => IsNumberText text
  | .array items => ItemsWellFormed items
  | .object members => (members.map Prod.fst).Nodup ∧ MembersWellFormed members
  | _ => True

def ItemsWellFormed : List Value → Prop
  | [] => True
  | item :: rest => item.WellFormed ∧ ItemsWellFormed rest

def MembersWellFormed : List (String × Value) → Prop
  | [] => True
  | (_, value) :: rest => value.WellFormed ∧ MembersWellFormed rest

end

/-! ### Reading -/

/-- What a string holds up to its closing quote, and what comes after that. -/
def readBody : List Char → Option (List Char × List Char)
  | '\x22' :: rest => some ([], rest)
  | '\\' :: 'u' :: first :: second :: third :: fourth :: rest => do
      let digits ← [first, second, third, fourth].mapM Uuid.hexValue
      let (characters, after) ← readBody rest
      some (Char.ofNat (Positional.value 16 digits) :: characters, after)
  | '\\' :: letter :: rest => do
      let entry ← shortEscapes.find? fun entry => entry.2 = letter
      let (characters, after) ← readBody rest
      some (entry.1 :: characters, after)
  | character :: rest =>
      if character.toNat < 32 then none
      else do
        let (characters, after) ← readBody rest
        some (character :: characters, after)
  | [] => none

/-- The text behind a mark, which must be there. -/
def skip (mark : List Char) (text : List Char) : Option (List Char) :=
  if mark <+: text then some (text.drop mark.length) else none

def skipSeparator (first : Bool) (text : List Char) : Option (List Char) :=
  if first then some text else skip [','] text

mutual

/-- A value and the text behind it. -/
def readValue : Nat → List Char → Option (Value × List Char)
  | 0, _ => none
  | _ + 1, [] => none
  | fuel + 1, head :: tail =>
      if head = 'n' then (skip "ull".toList tail).map fun rest => (.null, rest)
      else if head = 't' then (skip "rue".toList tail).map fun rest => (.bool true, rest)
      else if head = 'f' then (skip "alse".toList tail).map fun rest => (.bool false, rest)
      else if head = '\x22' then
        (readBody tail).map fun read => (.string (String.ofList read.1), read.2)
      else if head = '[' then
        (readItems fuel true tail).map fun read => (.array read.1, read.2)
      else if head = '{' then
        (readMembers fuel true tail).map fun read => (.object read.1, read.2)
      else if head.isDigit ∨ head = '-' then
        some (.number (String.ofList ((head :: tail).takeWhile isNumberCharacter)),
          (head :: tail).dropWhile isNumberCharacter)
      else none

def readItems : Nat → Bool → List Char → Option (List Value × List Char)
  | 0, _, _ => none
  | fuel + 1, first, text =>
      if text.head? = some ']' then some ([], text.tail)
      else do
        let text ← skipSeparator first text
        let (item, text) ← readValue fuel text
        let (items, text) ← readItems fuel false text
        some (item :: items, text)

def readMembers : Nat → Bool → List Char → Option (List (String × Value) × List Char)
  | 0, _, _ => none
  | fuel + 1, first, text =>
      if text.head? = some '}' then some ([], text.tail)
      else do
        let text ← skipSeparator first text
        let text ← skip ['\x22'] text
        let (key, text) ← readBody text
        let text ← skip [':'] text
        let (value, text) ← readValue fuel text
        let (members, text) ← readMembers fuel false text
        some ((String.ofList key, value) :: members, text)

end

/-- The value of a whole text. -/
def readJson (text : List Char) : Option Value :=
  match readValue text.length text with
  | some (value, []) => some value
  | _ => none

/-! ### What was written is read back -/

theorem readBody_escapeCharacter (character : Char) (rest : List Char) :
    readBody (escapeCharacter character ++ rest) =
      (readBody rest).map fun read => (character :: read.1, read.2) := by
  by_cases short : character ∈ shortEscapes.map Prod.fst
  · simp only [shortEscapes, List.map_cons, List.map_nil, List.mem_cons, List.not_mem_nil,
      or_false] at short
    rcases short with rfl | rfl | rfl | rfl | rfl | rfl | rfl <;>
    · cases read : readBody rest <;>
        simp [escapeCharacter, shortEscapes, List.lookup, readBody, read]
  · have plain : shortEscapes.lookup character = none := by
      rw [List.lookup_eq_none_iff]
      intro entry entryMem
      rw [bne_iff_ne]
      rintro rfl
      exact short (List.mem_map_of_mem entryMem)
    simp only [escapeCharacter, plain]
    by_cases control : character.toNat < 32
    · have high := Uuid.hexValue_digitChar (show character.toNat / 16 < 16 by omega)
      have low := Uuid.hexValue_digitChar (show character.toNat % 16 < 16 by omega)
      have zero : Uuid.hexValue '0' = some 0 := by decide
      have number : Positional.value 16 [0, 0, character.toNat / 16, character.toNat % 16] =
          character.toNat := by
        simp only [Positional.value, List.foldl_cons, List.foldl_nil]
        omega
      cases read : readBody rest <;>
        simp [control, readBody, zero, high, low, number, read]
    · have notQuote : character ≠ '\x22' := by
        rintro rfl
        exact short (by decide)
      have notBackslash : character ≠ '\\' := by
        rintro rfl
        exact short (by decide)
      rw [if_neg control]
      change readBody (character :: rest) = _
      rw [readBody]
      · cases readBody rest <;> simp [control]
      · exact notQuote
      · exact fun _ _ _ _ _ backslash _ => notBackslash backslash
      · exact fun _ _ backslash _ => notBackslash backslash

theorem readBody_written (characters rest : List Char) :
    readBody (characters.flatMap escapeCharacter ++ '\x22' :: rest) = some (characters, rest) := by
  induction characters with
  | nil => simp [readBody]
  | cons character characters ih =>
      rw [List.flatMap_cons, List.append_assoc, readBody_escapeCharacter, ih]
      rfl

/-- The first character of a value's text. -/
def startsValue (character : Char) : Bool :=
  character.isDigit || character ∈ ['n', 't', 'f', '-', '\x22', '[', '{']

theorem Value.compact_starts {value : Value} (wellFormed : value.WellFormed) :
    ∃ head tail, value.compact = head :: tail ∧ startsValue head = true := by
  cases value with
  | null => exact ⟨'n', _, rfl, by decide⟩
  | bool value =>
      cases value with
      | true => exact ⟨'t', _, rfl, by decide⟩
      | false => exact ⟨'f', _, rfl, by decide⟩
  | number text =>
      obtain ⟨head, tail, textEq, starts⟩ := wellFormed.starts
      refine ⟨head, tail, textEq, ?_⟩
      rcases starts with digit | rfl
      · simp [startsValue, digit]
      · decide
  | string text => exact ⟨'\x22', _, rfl, by decide⟩
  | array items => exact ⟨'[', _, rfl, by decide⟩
  | object members => exact ⟨'{', _, rfl, by decide⟩

theorem Value.compact_length_pos {value : Value} (wellFormed : value.WellFormed) :
    0 < value.compact.length := by
  obtain ⟨head, tail, compactEq, _⟩ := value.compact_starts wellFormed
  simp [compactEq]

/-- What may stand behind a value: nothing that could belong to a number. -/
def EndsValue (rest : List Char) : Prop :=
  ∀ character ∈ rest.head?, isNumberCharacter character = false

theorem endsValue_nil : EndsValue [] := by
  simp [EndsValue]

theorem endsValue_cons {character : Char} (rest : List Char)
    (strange : isNumberCharacter character = false) : EndsValue (character :: rest) := by
  simpa [EndsValue] using strange

theorem endsValue_compactItems (items : List Value) {rest : List Char} (ends : EndsValue rest) :
    EndsValue (compactItems false items ++ rest) := by
  cases items with
  | nil => exact ends
  | cons item items => exact endsValue_cons _ (by decide)

theorem endsValue_compactMembers (members : List (String × Value)) {rest : List Char}
    (ends : EndsValue rest) : EndsValue (compactMembers false members ++ rest) := by
  cases members with
  | nil => exact ends
  | cons member members => exact endsValue_cons _ (by decide)

theorem skip_append (mark rest : List Char) : skip mark (mark ++ rest) = some rest := by
  simp [skip]

theorem skipSeparator_separator (first : Bool) (rest : List Char) :
    skipSeparator first (separator first ++ rest) = some rest := by
  cases first with
  | true => rfl
  | false => exact skip_append [','] rest

theorem head?_separated (first : Bool) {head mark : Char} (tail : List Char)
    (notHead : head ≠ mark) (notComma : ',' ≠ mark) :
    (separator first ++ head :: tail).head? ≠ some mark := by
  cases first with
  | true => simpa [separator] using notHead
  | false => simpa [separator] using notComma

theorem readNumber {text : String} (isNumber : IsNumberText text) (fuel : Nat)
    {rest : List Char} (ends : EndsValue rest) :
    readValue (fuel + 1) (text.toList ++ rest) = some (.number text, rest) := by
  obtain ⟨head, tail, textEq, starts⟩ := isNumber.starts
  have taken : (text.toList ++ rest).takeWhile isNumberCharacter = text.toList := by
    rw [List.takeWhile_append_of_pos isNumber.characters]
    cases rest with
    | nil => simp
    | cons next rest => simp [ends next rfl]
  have dropped : (text.toList ++ rest).dropWhile isNumberCharacter = rest := by
    rw [List.dropWhile_append_of_pos isNumber.characters]
    cases rest with
    | nil => simp
    | cons next rest => simp [ends next rfl]
  have headNumber : ∀ other, other.isDigit = false → other ≠ '-' → head ≠ other := by
    rintro other notDigit notMinus rfl
    rcases starts with digit | minus
    · simp [digit] at notDigit
    · exact notMinus minus
  rw [textEq, List.cons_append] at taken dropped ⊢
  rw [readValue, if_neg (headNumber 'n' (by decide) (by decide)),
    if_neg (headNumber 't' (by decide) (by decide)),
    if_neg (headNumber 'f' (by decide) (by decide)),
    if_neg (headNumber '\x22' (by decide) (by decide)),
    if_neg (headNumber '[' (by decide) (by decide)),
    if_neg (headNumber '{' (by decide) (by decide)), if_pos starts, taken, dropped, ← textEq,
    String.ofList_toList]

mutual

theorem readValue_compact {value : Value} {fuel : Nat} {rest : List Char}
    (wellFormed : value.WellFormed) (enough : value.compact.length ≤ fuel)
    (ends : EndsValue rest) : readValue fuel (value.compact ++ rest) = some (value, rest) := by
  have positive := value.compact_length_pos wellFormed
  obtain ⟨fuel, rfl⟩ := Nat.exists_eq_add_one.mpr (Nat.lt_of_lt_of_le positive enough)
  match value with
  | .null => simp [Value.compact, readValue, skip]
  | .bool true => simp [Value.compact, readValue, skip]
  | .bool false => simp [Value.compact, readValue, skip]
  | .number text => exact readNumber wellFormed fuel ends
  | .string text =>
      have read := readBody_written text.toList rest
      simp [Value.compact, writeString, readValue, read]
  | .array items =>
      have read := @readItems_compactItems items fuel rest true wellFormed (by
        simp only [Value.compact, List.length_cons, List.length_append, List.length_nil] at enough
        omega)
      simp [Value.compact, readValue, read]
  | .object members =>
      have read := @readMembers_compactMembers members fuel rest true wellFormed.2 (by
        simp only [Value.compact, List.length_cons, List.length_append, List.length_nil] at enough
        omega)
      simp [Value.compact, readValue, read]

theorem readItems_compactItems {items : List Value} {fuel : Nat} {rest : List Char} (first : Bool)
    (wellFormed : ItemsWellFormed items) (enough : (compactItems first items).length + 1 ≤ fuel) :
    readItems fuel first (compactItems first items ++ ']' :: rest) = some (items, rest) := by
  obtain ⟨fuel, rfl⟩ := Nat.exists_eq_add_one.mpr (Nat.lt_of_lt_of_le (Nat.succ_pos _) enough)
  match items with
  | [] => simp [compactItems, readItems]
  | item :: items =>
      obtain ⟨itemWell, itemsWell⟩ := wellFormed
      obtain ⟨head, tail, itemEq, starts⟩ := item.compact_starts itemWell
      have notBracket : head ≠ ']' := by
        rintro rfl
        exact absurd starts (by decide)
      simp only [compactItems, List.length_append] at enough
      have itemLength : 0 < item.compact.length := item.compact_length_pos itemWell
      have readItem := @readValue_compact item fuel _ itemWell (by omega)
        (endsValue_compactItems items (endsValue_cons rest (by decide : isNumberCharacter ']' = false)))
      have readRest := @readItems_compactItems items fuel rest false itemsWell (by omega)
      have separated := head?_separated first (tail ++ (compactItems false items ++ ']' :: rest))
        notBracket (by decide)
      rw [← List.cons_append, ← itemEq] at separated
      rw [compactItems, List.append_assoc, List.append_assoc, readItems, if_neg separated,
        skipSeparator_separator]
      simp [readItem, readRest]

theorem readMembers_compactMembers {members : List (String × Value)} {fuel : Nat}
    {rest : List Char} (first : Bool) (wellFormed : MembersWellFormed members)
    (enough : (compactMembers first members).length + 1 ≤ fuel) :
    readMembers fuel first (compactMembers first members ++ '}' :: rest) =
      some (members, rest) := by
  obtain ⟨fuel, rfl⟩ := Nat.exists_eq_add_one.mpr (Nat.lt_of_lt_of_le (Nat.succ_pos _) enough)
  match members with
  | [] => simp [compactMembers, readMembers]
  | (key, value) :: members =>
      obtain ⟨valueWell, membersWell⟩ := wellFormed
      simp only [compactMembers, List.length_append, List.length_cons] at enough
      have readMember := @readValue_compact value fuel _ valueWell (by omega)
        (endsValue_compactMembers members
          (endsValue_cons rest (by decide : isNumberCharacter '}' = false)))
      have readRest := @readMembers_compactMembers members fuel rest false membersWell (by omega)
      have readKey := readBody_written key.toList
        (':' :: (value.compact ++ (compactMembers false members ++ '}' :: rest)))
      have separated := head?_separated first
        (key.toList.flatMap escapeCharacter ++ '\x22' ::
          ':' :: (value.compact ++ (compactMembers false members ++ '}' :: rest)))
        (by decide : '\x22' ≠ '}') (by decide)
      have textEq : compactMembers first ((key, value) :: members) ++ '}' :: rest =
          separator first ++ '\x22' :: (key.toList.flatMap escapeCharacter ++
            '\x22' :: ':' :: (value.compact ++ (compactMembers false members ++ '}' :: rest))) := by
        simp [compactMembers, writeString]
      rw [textEq, readMembers, if_neg separated, skipSeparator_separator]
      simp [skip, readKey, readMember, readRest]

end

theorem readJson_compact {value : Value} (wellFormed : value.WellFormed) :
    readJson value.compact = some value := by
  have read := readValue_compact wellFormed le_rfl endsValue_nil
  rw [List.append_nil] at read
  rw [readJson, read]

theorem Value.compact_injective {first second : Value} (firstWell : first.WellFormed)
    (secondWell : second.WellFormed) (same : first.compact = second.compact) : first = second := by
  have readFirst := readJson_compact firstWell
  rw [same, readJson_compact secondWell] at readFirst
  exact (Option.some.inj readFirst).symm

/-! ### No control characters -/

/-- Not a control character below the space. -/
def IsPrinted (character : Char) : Prop :=
  32 ≤ character.toNat

theorem escapeCharacter_printed (character : Char) :
    ∀ written ∈ escapeCharacter character, IsPrinted written := by
  have hexPrinted : ∀ digit < 16, IsPrinted (Nat.digitChar digit) := by
    unfold IsPrinted
    decide
  have lettersPrinted : ∀ entry ∈ shortEscapes, IsPrinted entry.2 := by
    unfold IsPrinted
    decide
  have backslash : IsPrinted '\\' := by
    unfold IsPrinted
    decide
  intro written member
  rw [escapeCharacter] at member
  cases found : shortEscapes.lookup character with
  | some letter =>
      simp only [found, List.mem_cons, List.not_mem_nil, or_false] at member
      rcases member with rfl | rfl
      · exact backslash
      · obtain ⟨before, after, entries, _⟩ := List.lookup_eq_some_iff.mp found
        exact lettersPrinted (character, written) (by simp [entries])
  | none =>
      simp only [found] at member
      by_cases control : character.toNat < 32
      · simp only [if_pos control, List.mem_cons, List.not_mem_nil, or_false] at member
        rcases member with rfl | rfl | rfl | rfl | rfl | rfl
        · exact backslash
        · exact (by decide : 32 ≤ 'u'.toNat)
        · exact (by decide : 32 ≤ '0'.toNat)
        · exact (by decide : 32 ≤ '0'.toNat)
        · exact hexPrinted _ (by omega)
        · exact hexPrinted _ (by omega)
      · simp only [if_neg control, List.mem_singleton] at member
        subst member
        exact Nat.not_lt.mp control

theorem writeString_printed (text : String) :
    ∀ written ∈ writeString text, IsPrinted written := by
  intro written member
  have quotation : IsPrinted '\x22' := (by decide : 32 ≤ '\x22'.toNat)
  rw [writeString, List.mem_cons, List.mem_append, List.mem_singleton, List.mem_flatMap] at member
  rcases member with rfl | ⟨character, _, escaped⟩ | rfl
  · exact quotation
  · exact escapeCharacter_printed character written escaped
  · exact quotation

theorem isNumberCharacter_printed {character : Char}
    (isNumber : isNumberCharacter character = true) : IsPrinted character := by
  by_contra control
  have table : ∀ code < 32, isNumberCharacter (Char.ofNat code) = false := by decide
  have strange := table character.toNat (Nat.not_le.mp control)
  rw [Char.ofNat_toNat, isNumber] at strange
  exact Bool.noConfusion strange

theorem separator_printed (first : Bool) : ∀ written ∈ separator first, IsPrinted written := by
  cases first with
  | true => simp [separator]
  | false => simp [separator, IsPrinted]

mutual

theorem Value.compact_printed {value : Value} (wellFormed : value.WellFormed) :
    ∀ written ∈ value.compact, IsPrinted written := by
  match value with
  | .null => simp [Value.compact, IsPrinted]
  | .bool true => simp [Value.compact, IsPrinted]
  | .bool false => simp [Value.compact, IsPrinted]
  | .number text =>
      exact fun written member => isNumberCharacter_printed (wellFormed.characters written member)
  | .string text => exact writeString_printed text
  | .array items =>
      have itemsPrinted := compactItems_printed true wellFormed
      simp only [Value.compact, List.mem_cons, List.mem_append, List.not_mem_nil, or_false]
      rintro written (rfl | member | rfl)
      · exact (by decide : 32 ≤ '['.toNat)
      · exact itemsPrinted written member
      · exact (by decide : 32 ≤ ']'.toNat)
  | .object members =>
      have membersPrinted := compactMembers_printed true wellFormed.2
      simp only [Value.compact, List.mem_cons, List.mem_append, List.not_mem_nil, or_false]
      rintro written (rfl | member | rfl)
      · exact (by decide : 32 ≤ '{'.toNat)
      · exact membersPrinted written member
      · exact (by decide : 32 ≤ '}'.toNat)

theorem compactItems_printed {items : List Value} (first : Bool)
    (wellFormed : ItemsWellFormed items) :
    ∀ written ∈ compactItems first items, IsPrinted written := by
  match items with
  | [] => simp [compactItems]
  | item :: items =>
      simp only [compactItems, List.mem_append]
      rintro written (member | member | member)
      · exact separator_printed first written member
      · exact Value.compact_printed wellFormed.1 written member
      · exact compactItems_printed false wellFormed.2 written member

theorem compactMembers_printed {members : List (String × Value)} (first : Bool)
    (wellFormed : MembersWellFormed members) :
    ∀ written ∈ compactMembers first members, IsPrinted written := by
  match members with
  | [] => simp [compactMembers]
  | (key, value) :: members =>
      simp only [compactMembers, List.mem_append, List.mem_cons]
      rintro written (member | member | rfl | member | member)
      · exact separator_printed first written member
      · exact writeString_printed key written member
      · exact (by decide : 32 ≤ ':'.toNat)
      · exact Value.compact_printed wellFormed.1 written member
      · exact compactMembers_printed false wellFormed.2 written member

end

end SharedContext
