import Mathlib

/-!
# Texts and their UTF-8 bytes

A text is read back from its bytes, and a text of ASCII characters has one byte
for each.
-/

namespace SharedContext.Utf8

/-- The UTF-8 bytes of a text. -/
def bytes (text : String) : List UInt8 :=
  text.toByteArray.data.toList

/-- The text of bytes that are valid UTF-8. -/
def text? (bytes : List UInt8) : Option String :=
  String.fromUTF8? ⟨bytes.toArray⟩

/-- The text with one character for each byte. -/
def ofAscii (bytes : List UInt8) : String :=
  String.ofList (bytes.map fun byte => Char.ofNat byte.toNat)

@[simp]
theorem text?_bytes (text : String) : text? (bytes text) = some text := by
  have whole : (⟨(bytes text).toArray⟩ : ByteArray) = text.toByteArray := rfl
  rw [text?, whole, String.fromUTF8?, dif_pos]
  · rfl

/-- The bytes of the characters of a text behind each other are those of the text. -/
theorem bytes_eq_flatMap (text : String) :
    bytes text = text.toList.flatMap String.utf8EncodeChar := by
  conv_lhs => rw [← String.ofList_toList (s := text)]
  rw [bytes, String.toByteArray_ofList, List.utf8Encode]
  simp

theorem utf8EncodeChar_ascii {character : Char} (isAscii : character.toNat < 128) :
    String.utf8EncodeChar character = [UInt8.ofNat character.toNat] := by
  have table : ∀ code : Fin 128,
      String.utf8EncodeChar (Char.ofNat code) = [UInt8.ofNat code] := by decide
  have entry := table ⟨character.toNat, isAscii⟩
  rwa [Char.ofNat_toNat] at entry

theorem mem_bytes_of_ascii {text : String} {character : Char} (isAscii : character.toNat < 128)
    (member : character ∈ text.toList) : UInt8.ofNat character.toNat ∈ bytes text := by
  rw [bytes_eq_flatMap, List.mem_flatMap]
  exact ⟨character, member, by simp [utf8EncodeChar_ascii isAscii]⟩

theorem bytes_ofAscii {ascii : List UInt8} (isAscii : ∀ byte ∈ ascii, byte.toNat < 128) :
    bytes (ofAscii ascii) = ascii := by
  rw [bytes_eq_flatMap, ofAscii, String.toList_ofList, List.flatMap_map]
  have single : ∀ byte ∈ ascii, String.utf8EncodeChar (Char.ofNat byte.toNat) = [byte] := by
    intro byte member
    have small := isAscii byte member
    have valid : (Char.ofNat byte.toNat).toNat = byte.toNat := by
      rw [Char.ofNat, dif_pos (.inl (by omega))]
      rfl
    rw [utf8EncodeChar_ascii (by omega), valid, UInt8.ofNat_toNat]
  rw [List.flatMap_congr single]
  simp

theorem utf8ByteSize_ofList {characters : List Char}
    (oneByte : ∀ character ∈ characters, character.utf8Size = 1) :
    (String.ofList characters).utf8ByteSize = characters.length := by
  induction characters with
  | nil => rfl
  | cons character rest ih =>
      have split : String.ofList (character :: rest) =
          String.singleton character ++ String.ofList rest := by
        apply String.toList_injective
        simp
      rw [split, String.utf8ByteSize_append, String.utf8ByteSize_singleton,
        oneByte character List.mem_cons_self,
        ih fun other member => oneByte other (List.mem_cons_of_mem _ member), List.length_cons]
      omega

theorem bytes_of_text? {read : List UInt8} {text : String} (isText : text? read = some text) :
    bytes text = read := by
  rw [text?, String.fromUTF8?] at isText
  split at isText
  · cases isText
    rfl
  · exact absurd isText (by simp)

theorem bytes_append (first second : String) :
    bytes (first ++ second) = bytes first ++ bytes second := by
  rw [bytes_eq_flatMap, bytes_eq_flatMap, bytes_eq_flatMap, String.toList_append,
    List.flatMap_append]

theorem eq_of_mem_utf8EncodeChar {character : Char} {byte : UInt8} (small : byte.toNat < 128)
    (member : byte ∈ String.utf8EncodeChar character) : character = Char.ofNat byte.toNat := by
  by_cases isAscii : character.toNat < 128
  · rw [utf8EncodeChar_ascii isAscii, List.mem_singleton] at member
    rw [member, UInt8.toNat_ofNat', Nat.mod_eq_of_lt (by omega), Char.ofNat_toNat]
  · exfalso
    have codeLarge : ¬ character.val.toNat ≤ 127 := fun tooSmall =>
      isAscii (Nat.lt_succ_of_le tooSmall)
    have bytesLarge : ∀ other ∈ String.utf8EncodeChar character, 128 ≤ other.toNat := by
      intro other otherMem
      rw [String.utf8EncodeChar] at otherMem
      simp only [codeLarge, if_false] at otherMem
      split at otherMem
      · simp only [List.mem_cons, List.not_mem_nil, or_false] at otherMem
        rcases otherMem with rfl | rfl <;> · rw [UInt8.toNat_ofNat']; omega
      · split at otherMem <;> simp only [List.mem_cons, List.not_mem_nil, or_false] at otherMem
        · rcases otherMem with rfl | rfl | rfl <;> · rw [UInt8.toNat_ofNat']; omega
        · rcases otherMem with rfl | rfl | rfl | rfl <;> · rw [UInt8.toNat_ofNat']; omega
    have := bytesLarge byte member
    omega

theorem mem_of_mem_bytes {text : String} {byte : UInt8} (small : byte.toNat < 128)
    (member : byte ∈ bytes text) : Char.ofNat byte.toNat ∈ text.toList := by
  rw [bytes_eq_flatMap, List.mem_flatMap] at member
  obtain ⟨character, characterMem, encoded⟩ := member
  rwa [← eq_of_mem_utf8EncodeChar small encoded]

theorem bytes_eq_nil {text : String} : bytes text = [] ↔ text.toList = [] := by
  rw [bytes_eq_flatMap, List.flatMap_eq_nil_iff]
  constructor
  · intro empty
    cases textEq : text.toList with
    | nil => rfl
    | cons character rest =>
        exact absurd (empty character (by simp [textEq])) String.utf8EncodeChar_ne_nil
  · intro empty character member
    rw [empty] at member
    exact absurd member List.not_mem_nil

end SharedContext.Utf8
