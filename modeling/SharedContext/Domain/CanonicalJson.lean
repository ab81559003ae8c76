import SharedContext.Domain.IdText
import SharedContext.Domain.JsonText
import Mathlib.Data.List.Sort
import Mathlib.Data.String.Basic

/-!
# Canonical JSON

The canonical writer sorts the keys of every object.  It writes two values alike
exactly when they differ in nothing but the order of members.
-/

namespace SharedContext

/-! ### The order of members -/

section Sorting

variable {α β : Type}

/-- The members of an object in the order of their keys. -/
def sortMembers (members : List (String × α)) : List (String × α) :=
  members.insertionSort fun first second => first.1 ≤ second.1

theorem sortMembers_perm (members : List (String × α)) : (sortMembers members).Perm members :=
  List.perm_insertionSort _ _

theorem sortMembers_map (update : α → β) (members : List (String × α)) :
    sortMembers (members.map (Prod.map id update)) =
      (sortMembers members).map (Prod.map id update) := by
  exact (List.map_insertionSort (fun first second : String × α => first.1 ≤ second.1)
    (fun first second : String × β => first.1 ≤ second.1) (Prod.map id update) members
    fun _ _ _ _ => Iff.rfl).symm

theorem sortMembers_eq_of_perm {first second : List (String × α)}
    (distinct : (first.map Prod.fst).Nodup) (same : first.Perm second) :
    sortMembers first = sortMembers second := by
  have sorted (members : List (String × α)) : (sortMembers members).Pairwise
      fun one other => one.1 ≤ other.1 := by
    have total : Std.Total fun one other : String × α => one.1 ≤ other.1 :=
      ⟨fun one other => le_total one.1 other.1⟩
    have transitive : IsTrans (String × α) fun one other => one.1 ≤ other.1 :=
      ⟨fun _ _ _ => le_trans⟩
    exact List.pairwise_insertionSort _ _
  have perm : (sortMembers first).Perm (sortMembers second) :=
    (sortMembers_perm first).trans (same.trans (sortMembers_perm second).symm)
  refine List.Perm.eq_of_pairwise ?_ (sorted first) (sorted second) perm
  intro one other oneMember otherMember oneLe otherLe
  have inFirst := (sortMembers_perm first).mem_iff.mp oneMember
  have alsoInFirst := same.mem_iff.mpr ((sortMembers_perm second).mem_iff.mp otherMember)
  exact List.inj_on_of_nodup_map distinct inFirst alsoInFirst (le_antisymm oneLe otherLe)

end Sorting

/-! ### The canonical text -/

/-- The members of an object whose values are written already. -/
def joinMembers (first : Bool) : List (String × List Char) → List Char
  | [] => []
  | (key, text) :: rest =>
      separator first ++ (writeString key ++ ':' :: (text ++ joinMembers false rest))

mutual

/-- Writes a value with the keys of every object in order. -/
def writeCanonicalJson : Value → List Char
  | .null => "null".toList
  | .bool true => "true".toList
  | .bool false => "false".toList
  | .number text => text.toList
  | .string text => writeString text
  | .array items => '[' :: (writeCanonicalItems true items ++ [']'])
  | .object members => '{' :: (joinMembers true (sortMembers (canonicalTexts members)) ++ ['}'])

def writeCanonicalItems (first : Bool) : List Value → List Char
  | [] => []
  | item :: rest =>
      separator first ++ (writeCanonicalJson item ++ writeCanonicalItems false rest)

def canonicalTexts : List (String × Value) → List (String × List Char)
  | [] => []
  | (key, value) :: rest => (key, writeCanonicalJson value) :: canonicalTexts rest

end

mutual

/-- The value with the keys of every object in order. -/
def Value.canonical : Value → Value
  | .array items => .array (canonicalItems items)
  | .object members => .object (sortMembers (canonicalMembers members))
  | .null => .null
  | .bool value => .bool value
  | .number text => .number text
  | .string text => .string text

def canonicalItems : List Value → List Value
  | [] => []
  | item :: rest => item.canonical :: canonicalItems rest

def canonicalMembers : List (String × Value) → List (String × Value)
  | [] => []
  | (key, value) :: rest => (key, value.canonical) :: canonicalMembers rest

end

@[simp]
theorem canonicalItems_eq_map (items : List Value) :
    canonicalItems items = items.map Value.canonical := by
  induction items with
  | nil => rfl
  | cons item rest ih => rw [canonicalItems, ih, List.map_cons]

@[simp]
theorem canonicalMembers_eq_map (members : List (String × Value)) :
    canonicalMembers members = members.map (Prod.map id Value.canonical) := by
  induction members with
  | nil => rfl
  | cons member rest ih =>
      obtain ⟨key, value⟩ := member
      rw [canonicalMembers, ih, List.map_cons]
      rfl

theorem joinMembers_compact (first : Bool) (members : List (String × Value)) :
    joinMembers first (members.map (Prod.map id Value.compact)) =
      compactMembers first members := by
  induction members generalizing first with
  | nil => rfl
  | cons member rest ih =>
      obtain ⟨key, value⟩ := member
      rw [List.map_cons, Prod.map, joinMembers, ih, compactMembers]
      rfl

mutual

theorem writeCanonicalJson_eq (value : Value) :
    writeCanonicalJson value = value.canonical.compact := by
  match value with
  | .null | .number _ | .string _ => rfl
  | .bool true | .bool false => rfl
  | .array items =>
      rw [writeCanonicalJson, writeCanonicalItems_eq, Value.canonical, Value.compact]
  | .object members =>
      rw [writeCanonicalJson, canonicalTexts_eq, sortMembers_map, joinMembers_compact,
        Value.canonical, Value.compact]

theorem writeCanonicalItems_eq (first : Bool) (items : List Value) :
    writeCanonicalItems first items = compactItems first (canonicalItems items) := by
  match items with
  | [] => rfl
  | item :: rest =>
      rw [writeCanonicalItems, writeCanonicalJson_eq, writeCanonicalItems_eq, canonicalItems,
        compactItems]

theorem canonicalTexts_eq (members : List (String × Value)) :
    canonicalTexts members = (canonicalMembers members).map (Prod.map id Value.compact) := by
  match members with
  | [] => rfl
  | (key, value) :: rest =>
      rw [canonicalTexts, writeCanonicalJson_eq, canonicalTexts_eq, canonicalMembers,
        List.map_cons]
      rfl

end

/-! ### Well-formed values -/

theorem itemsWellFormed_iff {items : List Value} :
    ItemsWellFormed items ↔ ∀ item ∈ items, item.WellFormed := by
  induction items with
  | nil => simp [ItemsWellFormed]
  | cons item rest ih => simp [ItemsWellFormed, ih]

theorem membersWellFormed_iff {members : List (String × Value)} :
    MembersWellFormed members ↔ ∀ member ∈ members, member.2.WellFormed := by
  induction members with
  | nil => simp [MembersWellFormed]
  | cons member rest ih =>
      obtain ⟨key, value⟩ := member
      simp only [MembersWellFormed, ih, List.forall_mem_cons]

theorem map_fst_map_snd {α β : Type} (update : α → β) (members : List (String × α)) :
    (members.map (Prod.map id update)).map Prod.fst = members.map Prod.fst := by
  rw [List.map_map]
  rfl

mutual

theorem Value.WellFormed.canonical {value : Value} (wellFormed : value.WellFormed) :
    value.canonical.WellFormed := by
  match value with
  | .null | .bool _ | .number _ | .string _ => exact wellFormed
  | .array items => exact ItemsWellFormed.canonical wellFormed
  | .object members =>
      obtain ⟨distinct, values⟩ := wellFormed
      have canonicalValues := MembersWellFormed.canonical values
      have perm := sortMembers_perm (canonicalMembers members)
      refine ⟨?_, ?_⟩
      · rw [(perm.map Prod.fst).nodup_iff, canonicalMembers_eq_map, map_fst_map_snd]
        exact distinct
      · rw [membersWellFormed_iff] at canonicalValues ⊢
        exact fun member inSorted => canonicalValues member (perm.mem_iff.mp inSorted)

theorem ItemsWellFormed.canonical {items : List Value} (wellFormed : ItemsWellFormed items) :
    ItemsWellFormed (canonicalItems items) := by
  match items with
  | [] => trivial
  | item :: rest => exact ⟨wellFormed.1.canonical, ItemsWellFormed.canonical wellFormed.2⟩

theorem MembersWellFormed.canonical {members : List (String × Value)}
    (wellFormed : MembersWellFormed members) : MembersWellFormed (canonicalMembers members) := by
  match members with
  | [] => trivial
  | (key, value) :: rest =>
      exact ⟨wellFormed.1.canonical, MembersWellFormed.canonical wellFormed.2⟩

end

theorem writeCanonicalJson_inj {first second : Value} (firstWell : first.WellFormed)
    (secondWell : second.WellFormed) :
    writeCanonicalJson first = writeCanonicalJson second ↔
      first.canonical = second.canonical := by
  rw [writeCanonicalJson_eq, writeCanonicalJson_eq]
  constructor
  · exact Value.compact_injective firstWell.canonical secondWell.canonical
  · intro same
    rw [same]

/-! ### Reordered members -/

/-- The same value, but for the order of the members of its objects. -/
inductive Reordered : Value → Value → Prop
  | refl (value : Value) : Reordered value value
  | members {members others : List (String × Value)} (same : members.Perm others) :
      Reordered (.object members) (.object others)
  | item (before : List Value) {item other : Value} (after : List Value)
      (same : Reordered item other) :
      Reordered (.array (before ++ item :: after)) (.array (before ++ other :: after))
  | member (before : List (String × Value)) (key : String) {value other : Value}
      (after : List (String × Value)) (same : Reordered value other) :
      Reordered (.object (before ++ (key, value) :: after))
        (.object (before ++ (key, other) :: after))
  | trans {first second third : Value} (one : Reordered first second)
      (other : Reordered second third) : Reordered first third

theorem Reordered.symm {first second : Value} (same : Reordered first second) :
    Reordered second first := by
  induction same with
  | refl value => exact .refl value
  | members same => exact .members same.symm
  | item before after same ih => exact .item before after ih
  | member before key after same ih => exact .member before key after ih
  | trans one other oneIH otherIH => exact otherIH.trans oneIH

theorem Reordered.wellFormed {first second : Value} (same : Reordered first second)
    (wellFormed : first.WellFormed) : second.WellFormed := by
  induction same with
  | refl value => exact wellFormed
  | members same =>
      obtain ⟨distinct, values⟩ := wellFormed
      rw [membersWellFormed_iff] at values
      refine ⟨(same.map Prod.fst).nodup_iff.mp distinct, membersWellFormed_iff.mpr ?_⟩
      exact fun member isMember => values member (same.mem_iff.mpr isMember)
  | item before after same ih =>
      have items := itemsWellFormed_iff.mp wellFormed
      refine itemsWellFormed_iff.mpr ?_
      simp only [List.forall_mem_append, List.forall_mem_cons] at items ⊢
      exact ⟨items.1, ih items.2.1, items.2.2⟩
  | member before key after same ih =>
      obtain ⟨distinct, values⟩ := wellFormed
      rw [membersWellFormed_iff] at values
      simp only [List.forall_mem_append, List.forall_mem_cons] at values
      refine ⟨by simpa using distinct, membersWellFormed_iff.mpr ?_⟩
      simp only [List.forall_mem_append, List.forall_mem_cons]
      exact ⟨values.1, ih values.2.1, values.2.2⟩
  | trans one other oneIH otherIH => exact otherIH (oneIH wellFormed)

theorem Reordered.canonical_eq {first second : Value} (same : Reordered first second)
    (wellFormed : first.WellFormed) : first.canonical = second.canonical := by
  induction same with
  | refl value => rfl
  | members same =>
      rw [Value.canonical, Value.canonical, canonicalMembers_eq_map, canonicalMembers_eq_map]
      refine congrArg Value.object (sortMembers_eq_of_perm ?_ (same.map _))
      rw [map_fst_map_snd]
      exact wellFormed.1
  | item before after same ih =>
      have items := itemsWellFormed_iff.mp wellFormed
      simp only [List.forall_mem_append, List.forall_mem_cons] at items
      simp [Value.canonical, ih items.2.1]
  | member before key after same ih =>
      have values := membersWellFormed_iff.mp wellFormed.2
      simp only [List.forall_mem_append, List.forall_mem_cons] at values
      simp [Value.canonical, ih values.2.1]
  | trans one other oneIH otherIH =>
      exact (oneIH wellFormed).trans (otherIH (one.wellFormed wellFormed))

theorem Reordered.items {items others : List Value}
    (same : List.Forall₂ Reordered items others) (before : List Value) :
    Reordered (.array (before ++ items)) (.array (before ++ others)) := by
  induction same generalizing before with
  | nil => exact .refl _
  | @cons item other items others itemSame restSame ih =>
      have first := Reordered.item before items itemSame
      have rest := ih (before ++ [other])
      rw [List.append_assoc, List.append_assoc, List.singleton_append,
        List.singleton_append] at rest
      exact first.trans rest

theorem Reordered.values {members others : List (String × Value)}
    (same : List.Forall₂ (fun one other => one.1 = other.1 ∧ Reordered one.2 other.2)
      members others) (before : List (String × Value)) :
    Reordered (.object (before ++ members)) (.object (before ++ others)) := by
  induction same generalizing before with
  | nil => exact .refl _
  | @cons one other members others oneSame restSame ih =>
      obtain ⟨key, value⟩ := one
      obtain ⟨otherKey, otherValue⟩ := other
      obtain ⟨rfl, valueSame⟩ := oneSame
      have first := Reordered.member before key members valueSame
      have rest := ih (before ++ [(key, otherValue)])
      rw [List.append_assoc, List.append_assoc, List.singleton_append,
        List.singleton_append] at rest
      exact first.trans rest

mutual

theorem reordered_canonical (value : Value) : Reordered value value.canonical := by
  match value with
  | .null | .bool _ | .number _ | .string _ => exact .refl _
  | .array items => exact Reordered.items (reordered_canonicalItems items) []
  | .object members =>
      exact (Reordered.values (reordered_canonicalMembers members) []).trans
        (.members (sortMembers_perm _).symm)

theorem reordered_canonicalItems (items : List Value) :
    List.Forall₂ Reordered items (canonicalItems items) := by
  match items with
  | [] => exact .nil
  | item :: rest => exact .cons (reordered_canonical item) (reordered_canonicalItems rest)

theorem reordered_canonicalMembers (members : List (String × Value)) :
    List.Forall₂ (fun one other => one.1 = other.1 ∧ Reordered one.2 other.2)
      members (canonicalMembers members) := by
  match members with
  | [] => exact .nil
  | (key, value) :: rest =>
      exact .cons ⟨rfl, reordered_canonical value⟩ (reordered_canonicalMembers rest)

end

/-- Values are written alike exactly when they differ in nothing but the order of
their members. -/
theorem writeCanonicalJson_eq_iff_reordered {first second : Value}
    (firstWell : first.WellFormed) (secondWell : second.WellFormed) :
    writeCanonicalJson first = writeCanonicalJson second ↔ Reordered first second := by
  rw [writeCanonicalJson_inj firstWell secondWell]
  constructor
  · intro same
    have back := (reordered_canonical second).symm
    rw [← same] at back
    exact (reordered_canonical first).trans back
  · exact fun same => same.canonical_eq firstWell

theorem swapped_members_written_alike :
    writeCanonicalJson (.object [("kind", .null), ("id", .array [])]) =
      writeCanonicalJson (.object [("id", .array []), ("kind", .null)]) := by
  have wellFormed (first second : String × Value) (differs : first.1 ≠ second.1)
      (firstWell : first.2.WellFormed) (secondWell : second.2.WellFormed) :
      (Value.object [first, second]).WellFormed := by
    simp [Value.WellFormed, MembersWellFormed, differs, firstWell, secondWell]
  exact (writeCanonicalJson_eq_iff_reordered
    (wellFormed ("kind", .null) ("id", .array []) (by decide) trivial trivial)
    (wellFormed ("id", .array []) ("kind", .null) (by decide) trivial trivial)).mpr
      (.members (.swap _ _ _))

/-! ### Records as objects -/

/-- The members of a record, without the fields that are skipped. -/
def fieldMembers (fields : List (String × Option Value)) : List (String × Value) :=
  fields.filterMap fun field => field.2.map (Prod.mk field.1)

def Value.ofFields (fields : List (String × Option Value)) : Value :=
  .object (fieldMembers fields)

/-- The same keys, each of them once. -/
structure SameShape (first second : List (String × Option Value)) : Prop where
  keys : first.map Prod.fst = second.map Prod.fst
  distinct : (first.map Prod.fst).Nodup

theorem mem_fieldMembers {fields : List (String × Option Value)} {key : String}
    {field : Option Value} (distinct : (fields.map Prod.fst).Nodup)
    (member : (key, field) ∈ fields) {value : Value} :
    (key, value) ∈ fieldMembers fields ↔ field = some value := by
  simp only [fieldMembers, List.mem_filterMap, Option.map_eq_some_iff]
  constructor
  · rintro ⟨⟨otherKey, other⟩, otherMember, found, rfl, same⟩
    obtain ⟨rfl, rfl⟩ := Prod.mk.inj same
    have sameField := List.inj_on_of_nodup_map distinct member otherMember rfl
    exact (Prod.mk.inj sameField).2
  · rintro rfl
    exact ⟨(key, some value), member, value, rfl, rfl⟩

theorem fieldMembers_keys_sublist (fields : List (String × Option Value)) :
    ((fieldMembers fields).map Prod.fst).Sublist (fields.map Prod.fst) := by
  induction fields with
  | nil => exact .slnil
  | cons field rest ih =>
      obtain ⟨key, value⟩ := field
      cases value with
      | none => exact ih.cons _
      | some value => exact ih.cons_cons _

theorem field_eq_of_members {first second : List (String × Option Value)}
    (firstDistinct : (first.map Prod.fst).Nodup) (secondDistinct : (second.map Prod.fst).Nodup)
    (same : ∀ member, member ∈ fieldMembers first ↔ member ∈ fieldMembers second)
    {key : String} {field other : Option Value} (inFirst : (key, field) ∈ first)
    (inSecond : (key, other) ∈ second) : field = other := by
  apply Option.ext
  intro value
  rw [← mem_fieldMembers firstDistinct inFirst, ← mem_fieldMembers secondDistinct inSecond, same]

/-- A form of values that keeps apart what they hold in each place. -/
structure Normalizes (normal : Value → Value) : Prop where
  null : normal .null = .null
  bool (value : Bool) : normal (.bool value) = .bool value
  number (text : String) : normal (.number text) = .number text
  string (text : String) : normal (.string text) = .string text
  array (items : List Value) : normal (.array items) = .array (items.map normal)
  field {first second : List (String × Option Value)}
    (firstDistinct : (first.map Prod.fst).Nodup) (secondDistinct : (second.map Prod.fst).Nodup)
    (same : normal (.ofFields first) = normal (.ofFields second))
    {key : String} {field other : Option Value} (inFirst : (key, field) ∈ first)
    (inSecond : (key, other) ∈ second) : field.map normal = other.map normal
  congr {first second : List (String × Option Value)}
    (keys : first.map Prod.fst = second.map Prod.fst)
    (same : first.map (fun field => field.2.map normal) =
      second.map fun field => field.2.map normal) :
    normal (.ofFields first) = normal (.ofFields second)

/-- Records of one shape are told apart by their fields. -/
theorem Normalizes.fields {normal : Value → Value} (normalizes : Normalizes normal)
    {first second : List (String × Option Value)} (shape : SameShape first second) :
    normal (.ofFields first) = normal (.ofFields second) ↔
      first.map (fun field => field.2.map normal) =
        second.map fun field => field.2.map normal := by
  constructor
  · intro same
    have lengthEq : first.length = second.length := by
      simpa using congrArg List.length shape.keys
    apply List.ext_getElem (by simpa using lengthEq)
    intro index inFirst inSecond
    rw [List.length_map] at inFirst inSecond
    rw [List.getElem_map, List.getElem_map]
    have sameKey : first[index].1 = second[index].1 := by
      have keys := List.getElem_of_eq shape.keys (by simpa using inFirst)
      simpa using keys
    have member : (first[index].1, second[index].2) ∈ second := by
      rw [sameKey]
      exact List.getElem_mem inSecond
    exact normalizes.field shape.distinct (shape.keys ▸ shape.distinct) same
      (List.getElem_mem inFirst) member
  · exact normalizes.congr shape.keys

theorem eq_of_columns {first second : List (String × Option Value)}
    (keys : first.map Prod.fst = second.map Prod.fst)
    (fields : first.map Prod.snd = second.map Prod.snd) : first = second := by
  induction first generalizing second with
  | nil => simpa using keys
  | cons field rest ih =>
      cases second with
      | nil => simp at keys
      | cons other others =>
          rw [List.map_cons, List.map_cons, List.cons.injEq] at keys fields
          rw [Prod.ext keys.1 fields.1, ih keys.2 fields.2]

/-- The fields of a record with canonical values. -/
def canonicalFields (fields : List (String × Option Value)) : List (String × Option Value) :=
  fields.map (Prod.map id (Option.map Value.canonical))

theorem canonical_ofFields (fields : List (String × Option Value)) :
    (Value.ofFields fields).canonical =
      .object (sortMembers (fieldMembers (canonicalFields fields))) := by
  rw [Value.ofFields, Value.canonical, canonicalMembers_eq_map]
  congr 2
  rw [fieldMembers, fieldMembers, canonicalFields, List.filterMap_map, List.map_filterMap]
  congr 1
  funext field
  obtain ⟨key, value⟩ := field
  cases value <;> rfl

/-- Values up to the order of members. -/
theorem normalizes_canonical : Normalizes Value.canonical where
  null := rfl
  bool _ := rfl
  number _ := rfl
  string _ := rfl
  array items := by rw [Value.canonical, canonicalItems_eq_map]
  field {first second} firstDistinct secondDistinct same key field other inFirst inSecond := by
    rw [canonical_ofFields, canonical_ofFields] at same
    have keys (fields : List (String × Option Value)) :
        (canonicalFields fields).map Prod.fst = fields.map Prod.fst := map_fst_map_snd _ _
    have canonicalFirst : (key, field.map Value.canonical) ∈ canonicalFields first :=
      List.mem_map_of_mem inFirst
    have canonicalSecond : (key, other.map Value.canonical) ∈ canonicalFields second :=
      List.mem_map_of_mem inSecond
    refine field_eq_of_members ?_ ?_ (fun member => ?_) canonicalFirst canonicalSecond
    · rw [keys]
      exact firstDistinct
    · rw [keys]
      exact secondDistinct
    · rw [← (sortMembers_perm (fieldMembers (canonicalFields first))).mem_iff,
        Value.object.inj same, (sortMembers_perm _).mem_iff]
  congr {first second} keys same := by
    have sameFields : canonicalFields first = canonicalFields second := by
      refine eq_of_columns ?_ ?_
      · rw [canonicalFields, canonicalFields, map_fst_map_snd, map_fst_map_snd, keys]
      · rw [canonicalFields, canonicalFields, List.map_map, List.map_map]
        exact same
    rw [canonical_ofFields, canonical_ofFields, sameFields]

/-! ### What an encoder tells apart -/

section Encoders

variable {α β : Type} {normal : Value → Value}

/-- Two values are written alike exactly when they mean the same. -/
def Identifies (normal : Value → Value) (encode : α → Value) (meaning : α → β) : Prop :=
  ∀ first second, normal (encode first) = normal (encode second) ↔
    meaning first = meaning second

theorem Identifies.iff {encode : α → Value} (identifies : Identifies normal encode id)
    {first second : α} : normal (encode first) = normal (encode second) ↔ first = second :=
  identifies first second

def Value.ofList (encode : α → Value) (items : List α) : Value :=
  .array (items.map encode)

/-- An option that is written as `null` when it is empty. -/
def Value.nullable (encode : α → Value) : Option α → Value
  | none => .null
  | some value => encode value

def Value.unlessEmpty (encode : α → Value) (items : List α) : Option Value :=
  if items.isEmpty then none else some (.ofList encode items)

def Value.ofId {kind : IdKind} (id : OpaqueId kind) : Value :=
  .string (toString id)

theorem Normalizes.text (normalizes : Normalizes normal) {name : α → String}
    (injective : Function.Injective name) :
    Identifies normal (fun value => .string (name value)) (id : α → α) := by
  intro first second
  rw [normalizes.string, normalizes.string, Value.string.injEq, injective.eq_iff]
  rfl

theorem Normalizes.ofId (normalizes : Normalizes normal) {kind : IdKind} :
    Identifies normal Value.ofId (id : OpaqueId kind → OpaqueId kind) :=
  normalizes.text OpaqueId.toString_injective

theorem Normalizes.ofString (normalizes : Normalizes normal) :
    Identifies normal Value.string (id : String → String) :=
  normalizes.text Function.injective_id

theorem map_eq_map_iff {γ δ : Type} {one : α → γ} {other : α → δ}
    (same : ∀ first second, one first = one second ↔ other first = other second)
    (first second : List α) :
    first.map one = second.map one ↔ first.map other = second.map other := by
  induction first generalizing second with
  | nil =>
      cases second with
      | nil => simp
      | cons item rest => simp
  | cons item items ih =>
      cases second with
      | nil => simp
      | cons next rest => simp [same item next, ih]

theorem Identifies.ofList (normalizes : Normalizes normal) {encode : α → Value}
    {meaning : α → β} (identifies : Identifies normal encode meaning) :
    Identifies normal (Value.ofList encode) (List.map meaning) := by
  intro first second
  rw [Value.ofList, Value.ofList, normalizes.array, normalizes.array, Value.array.injEq,
    List.map_map, List.map_map]
  exact map_eq_map_iff identifies first second

theorem Identifies.nullable (normalizes : Normalizes normal) {encode : α → Value}
    {meaning : α → β} (identifies : Identifies normal encode meaning)
    (notNull : ∀ value, normal (encode value) ≠ .null) :
    Identifies normal (Value.nullable encode) (Option.map meaning) := by
  intro first second
  cases first with
  | none =>
      cases second with
      | none => simp
      | some other =>
          simpa [Value.nullable, normalizes.null] using (notNull other).symm
  | some value =>
      cases second with
      | none => simpa [Value.nullable, normalizes.null] using notNull value
      | some other => simpa [Value.nullable] using identifies value other

theorem Identifies.optional {encode : α → Value} {meaning : α → β}
    (identifies : Identifies normal encode meaning) (first second : Option α) :
    (first.map encode).map normal = (second.map encode).map normal ↔
      first.map meaning = second.map meaning := by
  cases first <;> cases second <;> simp [identifies _ _]

theorem Identifies.unlessEmpty (normalizes : Normalizes normal) {encode : α → Value}
    {meaning : α → β} (identifies : Identifies normal encode meaning) (first second : List α) :
    (Value.unlessEmpty encode first).map normal = (Value.unlessEmpty encode second).map normal ↔
      first.map meaning = second.map meaning := by
  have lists := identifies.ofList normalizes first second
  cases first with
  | nil =>
      cases second with
      | nil => simp
      | cons other others => simp [Value.unlessEmpty]
  | cons item items =>
      cases second with
      | nil => simp [Value.unlessEmpty]
      | cons other others => simpa [Value.unlessEmpty] using lists

theorem Identifies.optionalOf {encode : α → Value} (identifies : Identifies normal encode id)
    {first second : Option α} :
    (first.map encode).map normal = (second.map encode).map normal ↔ first = second := by
  rw [identifies.optional, Option.map_id_fun, id, id]

theorem Identifies.unlessEmptyOf (normalizes : Normalizes normal) {encode : α → Value}
    (identifies : Identifies normal encode id) {first second : List α} :
    (Value.unlessEmpty encode first).map normal = (Value.unlessEmpty encode second).map normal ↔
      first = second := by
  rw [identifies.unlessEmpty normalizes, List.map_id, List.map_id]

theorem Identifies.listOf (normalizes : Normalizes normal) {encode : α → Value}
    (identifies : Identifies normal encode id) : Identifies normal (Value.ofList encode) id := by
  intro first second
  rw [identifies.ofList normalizes first second, List.map_id, List.map_id]
  rfl

theorem Normalizes.texts (normalizes : Normalizes normal) :
    Identifies normal (Value.ofList Value.string) id :=
  normalizes.ofString.listOf normalizes

theorem Normalizes.ids (normalizes : Normalizes normal) {kind : IdKind} :
    Identifies normal (Value.ofList (@Value.ofId kind)) id :=
  normalizes.ofId.listOf normalizes

theorem Normalizes.nullableText (normalizes : Normalizes normal) :
    Identifies normal (Value.nullable Value.string) id := by
  intro first second
  rw [normalizes.ofString.nullable normalizes (by simp [normalizes.string]) first second]
  cases first <;> cases second <;> simp

theorem Normalizes.nullableId (normalizes : Normalizes normal) {kind : IdKind} :
    Identifies normal (Value.nullable (@Value.ofId kind)) id := by
  intro first second
  have notNull (value : OpaqueId kind) : normal (Value.ofId value) ≠ .null := by
    simp [Value.ofId, normalizes.string]
  rw [normalizes.ofId.nullable normalizes notNull first second]
  cases first <;> cases second <;> simp

end Encoders

/-! ### Well-formed records -/

theorem wellFormed_ofFields {fields : List (String × Option Value)}
    (distinct : (fields.map Prod.fst).Nodup)
    (values : ∀ field ∈ fields, ∀ value ∈ field.2, value.WellFormed) :
    (Value.ofFields fields).WellFormed := by
  refine ⟨distinct.sublist (fieldMembers_keys_sublist fields), membersWellFormed_iff.mpr ?_⟩
  intro member isMember
  obtain ⟨field, isField, written⟩ := List.mem_filterMap.mp isMember
  obtain ⟨value, found, rfl⟩ := Option.map_eq_some_iff.mp written
  exact values field isField value found

theorem wellFormed_ofList {α : Type} {encode : α → Value} {items : List α}
    (each : ∀ item ∈ items, (encode item).WellFormed) :
    (Value.ofList encode items).WellFormed := by
  refine itemsWellFormed_iff.mpr ?_
  simpa using each

@[simp]
theorem wellFormed_string (text : String) : (Value.string text).WellFormed :=
  trivial

@[simp]
theorem wellFormed_ofId {kind : IdKind} (id : OpaqueId kind) : (Value.ofId id).WellFormed :=
  trivial

@[simp]
theorem wellFormed_texts (texts : List String) : (Value.ofList .string texts).WellFormed :=
  wellFormed_ofList fun text _ => wellFormed_string text

@[simp]
theorem wellFormed_ids {kind : IdKind} (ids : List (OpaqueId kind)) :
    (Value.ofList .ofId ids).WellFormed :=
  wellFormed_ofList fun id _ => wellFormed_ofId id

theorem wellFormed_nullable {α : Type} {encode : α → Value} {value : Option α}
    (each : ∀ item ∈ value, (encode item).WellFormed) :
    (Value.nullable encode value).WellFormed := by
  cases value with
  | none => trivial
  | some item => exact each item rfl

theorem wellFormed_unlessEmpty {α : Type} {encode : α → Value} {items : List α}
    (each : ∀ item ∈ items, (encode item).WellFormed) :
    ∀ value ∈ Value.unlessEmpty encode items, value.WellFormed := by
  intro value written
  rw [Value.unlessEmpty, Option.mem_def] at written
  split at written
  · cases written
  · cases written
    exact wellFormed_ofList each

end SharedContext
