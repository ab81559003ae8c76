import SharedContext.Domain.Ids
import SharedContext.Library.Positional

/-!
# The text of identifiers

An identifier is written as its prefix and the lower-case hyphenated form of its
UUID, and only that text is read back.  The source makes no other UUIDs than
random ones of version 4.
-/

namespace SharedContext

open Positional

namespace Uuid

/-- Four bits of a UUID, counted from the left. -/
def nibble (uuid : Uuid) (position : Nat) : Nat :=
  (uuid >>> (4 * (31 - position))).toNat % 16

def IsRandom (uuid : Uuid) : Prop :=
  uuid.nibble 12 = 4 ∧ uuid.nibble 16 / 4 = 2

instance (uuid : Uuid) : Decidable uuid.IsRandom :=
  inferInstanceAs (Decidable (_ ∧ _))

def hexValue (character : Char) : Option Nat :=
  if '0' ≤ character ∧ character ≤ '9' then some (character.toNat - 48)
  else if 'a' ≤ character ∧ character ≤ 'f' then some (character.toNat - 87)
  else if 'A' ≤ character ∧ character ≤ 'F' then some (character.toNat - 55)
  else none

def parseHex (groups : List (List Char)) : Option Uuid :=
  (groups.flatten.mapM hexValue).map fun digits => BitVec.ofNat 128 (value 16 digits)

def parseHyphenated (text : List Char) : Option Uuid :=
  let groups := text.splitOn '-'
  if groups.map List.length = [8, 4, 4, 4, 12] then parseHex groups else none

/-- The simple, hyphenated, braced and URN forms. -/
def parseStr (text : List Char) : Option Uuid :=
  if text.length = 32 then parseHex [text]
  else if text.length = 36 then parseHyphenated text
  else if text.length = 38 ∧ text.head? = some '{' ∧ text.getLast? = some '}' then
    parseHyphenated (text.tail.dropLast)
  else if text.length = 45 ∧ text.take 9 = "urn:uuid:".toList then parseHyphenated (text.drop 9)
  else none

/-! ### Reading what was written -/

theorem hexValue_digitChar {digit : Nat} (small : digit < 16) :
    hexValue (Nat.digitChar digit) = some digit := by
  have all : ∀ digit < 16, hexValue (Nat.digitChar digit) = some digit := by decide
  exact all digit small

def hexText (uuid : Uuid) : List Char :=
  (fixedDigits 16 32 uuid.toNat).map Nat.digitChar

theorem hexDigit_eq (uuid : Uuid) (position : Nat) :
    uuid.hexDigit position = Nat.digitChar (digitAt 16 uuid.toNat (31 - position)) := by
  have power : 2 ^ (4 * (31 - position)) = 16 ^ (31 - position) := by
    rw [pow_mul]
    norm_num
  rw [hexDigit, digitAt, BitVec.toNat_ushiftRight, Nat.shiftRight_eq_div_pow, power]

theorem digits_eq (uuid : Uuid) (first count : Nat) (inRange : first + count ≤ 32) :
    (List.range' first count).map uuid.hexDigit = (uuid.hexText.drop first).take count := by
  apply List.ext_getElem
  · simp [hexText]
    omega
  · intro position inFirst inSecond
    simp only [List.length_map, List.length_range'] at inFirst
    simp only [List.getElem_map, List.getElem_range', List.getElem_take, List.getElem_drop,
      hexText, fixedDigits, List.getElem_range, hexDigit_eq]
    congr 2
    omega

theorem parseHex_hexText (uuid : Uuid) {groups : List (List Char)}
    (joins : groups.flatten = uuid.hexText) : parseHex groups = some uuid := by
  have digits : uuid.hexText.mapM hexValue = some (fixedDigits 16 32 uuid.toNat) :=
    mapM_written fun digit member => hexValue_digitChar (digit_lt_of_mem (by decide) member)
  have inRange : uuid.toNat < 16 ^ 32 := uuid.isLt
  rw [parseHex, joins, digits, Option.map_some, value_fixedDigits inRange, BitVec.ofNat_toNat,
    BitVec.setWidth_eq]

def hexGroups (uuid : Uuid) : List (List Char) :=
  [uuid.hexText.take 8, (uuid.hexText.drop 8).take 4, (uuid.hexText.drop 12).take 4,
    (uuid.hexText.drop 16).take 4, (uuid.hexText.drop 20).take 12]

theorem length_hexText (uuid : Uuid) : uuid.hexText.length = 32 := by
  simp [hexText]

theorem toList_hyphenated (uuid : Uuid) :
    uuid.hyphenated.toList = ['-'].intercalate uuid.hexGroups := by
  have first := digits_eq uuid 0 8 (by decide)
  rw [List.drop_zero] at first
  rw [hyphenated, String.toList_intercalate, hexGroups]
  simp only [List.map_cons, List.map_nil, String.toList_ofList]
  rw [first, digits_eq uuid 8 4 (by decide), digits_eq uuid 12 4 (by decide),
    digits_eq uuid 16 4 (by decide), digits_eq uuid 20 12 (by decide)]
  rfl

theorem flatten_hexGroups (uuid : Uuid) : uuid.hexGroups.flatten = uuid.hexText := by
  have length := uuid.length_hexText
  simp only [hexGroups, List.flatten_cons, List.flatten_nil, List.append_nil]
  apply List.ext_getElem?
  intro position
  simp only [List.getElem?_append, List.getElem?_take, List.getElem?_drop, List.length_take,
    List.length_drop, length]
  grind

theorem hyphen_not_mem_hexText (uuid : Uuid) : '-' ∉ uuid.hexText := by
  intro member
  obtain ⟨digit, digitMem, isHyphen⟩ := List.mem_map.mp member
  have small : digit < 16 := digit_lt_of_mem (by decide) digitMem
  have noHyphen : ∀ digit < 16, Nat.digitChar digit ≠ '-' := by decide
  exact noHyphen digit small isHyphen

theorem parseStr_hyphenated (uuid : Uuid) : parseStr uuid.hyphenated.toList = some uuid := by
  have length := uuid.length_hexText
  have plain : ∀ group ∈ uuid.hexGroups, '-' ∉ group := by
    intro group member hyphen
    have inText : '-' ∈ uuid.hexGroups.flatten := List.mem_flatten.mpr ⟨group, member, hyphen⟩
    rw [flatten_hexGroups] at inText
    exact uuid.hyphen_not_mem_hexText inText
  have lengths : uuid.hexGroups.map List.length = [8, 4, 4, 4, 12] := by
    simp [hexGroups, length]
  have textLength : uuid.hyphenated.toList.length = 36 := by
    rw [toList_hyphenated]
    simp [hexGroups, List.intercalate, length]
  have groups : uuid.hyphenated.toList.splitOn '-' = uuid.hexGroups := by
    rw [toList_hyphenated]
    exact List.splitOn_intercalate '-' plain (by simp [hexGroups])
  have hyphenatedForm : parseHyphenated uuid.hyphenated.toList = some uuid := by
    simp only [parseHyphenated, groups, lengths, if_true]
    exact parseHex_hexText uuid uuid.flatten_hexGroups
  simp [parseStr, textLength, hyphenatedForm]

end Uuid

/-! ### Identifiers -/

namespace OpaqueId

variable {kind : IdKind}

/-- Read an identifier; the error says what is wrong with it. -/
def parse (kind : IdKind) (text : String) : Except String (OpaqueId kind) :=
  let error (message : String) : Except String (OpaqueId kind) :=
    .error ("expected " ++ kind.prefixText ++ " followed by a canonical RFC 4122 UUIDv4: " ++
      message)
  let required := kind.prefixText.toList
  if required.isPrefixOf text.toList then
    let raw := text.toList.drop required.length
    match Uuid.parseStr raw with
    | none => error "invalid UUID"
    | some uuid =>
        if ¬ uuid.IsRandom then error "UUID is not version 4"
        else if uuid.hyphenated.toList ≠ raw then error "UUID is not in lowercase hyphenated form"
        else .ok ⟨uuid⟩
  else
    error "prefix does not match"

theorem toString_toList (id : OpaqueId kind) :
    (toString id).toList = kind.prefixText.toList ++ id.uuid.hyphenated.toList := by
  change (kind.prefixText ++ id.uuid.hyphenated).toList = _
  rw [String.toList_append]

theorem parse_toString {id : OpaqueId kind} (random : id.uuid.IsRandom) :
    parse kind (toString id) = .ok id := by
  have hasPrefix : kind.prefixText.toList.isPrefixOf
      (kind.prefixText.toList ++ id.uuid.hyphenated.toList) = true := by
    rw [List.isPrefixOf_iff_prefix]
    exact List.prefix_append _ _
  simp only [parse, toString_toList]
  rw [if_pos hasPrefix, List.drop_left]
  simp [Uuid.parseStr_hyphenated, random]

theorem toString_injective : Function.Injective (toString : OpaqueId kind → String) := by
  intro first second same
  have sameText := congrArg String.toList same
  rw [toString_toList, toString_toList] at sameText
  have sameForm := List.append_cancel_left sameText
  have sameUuid := congrArg Uuid.parseStr sameForm
  rw [Uuid.parseStr_hyphenated, Uuid.parseStr_hyphenated] at sameUuid
  exact uuid_injective (Option.some.inj sameUuid)

end OpaqueId

end SharedContext
