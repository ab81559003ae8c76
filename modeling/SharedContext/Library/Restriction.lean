import SharedContext.Library.BTreeMap
import SharedContext.Library.Saturation

/-!
# Restriction to a part of the keys

A map restricts another one to a class of keys when it answers exactly the
keys of the class, and answers them alike.  Maps computed in the same way from
a map and its restriction are again restrictions, and two restrictions to
disjoint classes that cover all keys make up the whole.
-/

namespace SharedContext

namespace BTreeMap

variable {κ ν μ δ : Type*}

/-- The entries of `part` are the entries of `whole` whose keys are in `mine`. -/
def Restricts (mine : κ → Prop) (whole part : BTreeMap κ ν) : Prop :=
  ∀ key value, part.get? key = some value ↔ whole.get? key = some value ∧ mine key

/-- The whole has the entries of two maps without a common key. -/
structure DisjointUnion (whole first second : BTreeMap κ ν) : Prop where
  disjoint : Disjoint first.keys second.keys
  lookup : ∀ key value,
    whole.get? key = some value ↔ first.get? key = some value ∨ second.get? key = some value

section Restriction

variable {mine : κ → Prop} {whole part : BTreeMap κ ν}

theorem Restricts.get?_eq (restricts : Restricts mine whole part) {key : κ} (isMine : mine key) :
    part.get? key = whole.get? key := by
  apply Option.ext
  intro value
  rw [restricts key value]
  exact and_iff_left isMine

theorem Restricts.mem_keys (restricts : Restricts mine whole part) {key : κ} :
    key ∈ part.keys ↔ key ∈ whole.keys ∧ mine key := by
  simp only [BTreeMap.mem_keys_iff, restricts key, exists_and_right]

variable [DecidableEq κ]

theorem Restricts.filterMap (restricts : Restricts mine whole part)
    {onWhole onPart : κ → ν → Option μ}
    (same : ∀ key value, whole.get? key = some value → mine key →
      onPart key value = onWhole key value) :
    Restricts mine (whole.filterMap onWhole) (part.filterMap onPart) := by
  intro key value
  simp only [get?_filterMap, Option.bind_eq_some_iff, restricts key]
  constructor
  · rintro ⟨old, ⟨found, isMine⟩, selected⟩
    exact ⟨⟨old, found, same key old found isMine ▸ selected⟩, isMine⟩
  · rintro ⟨⟨old, found, selected⟩, isMine⟩
    exact ⟨old, ⟨found, isMine⟩, (same key old found isMine).trans selected⟩

theorem Restricts.map (restricts : Restricts mine whole part) (update : ν → μ) :
    Restricts mine (whole.map update) (part.map update) :=
  restricts.filterMap fun _ _ _ _ => rfl

section Filtering

variable {onWhole onPart : κ → ν → Prop} [∀ key value, Decidable (onWhole key value)]
  [∀ key value, Decidable (onPart key value)]

theorem Restricts.filter (restricts : Restricts mine whole part)
    (same : ∀ key value, whole.get? key = some value → mine key →
      (onPart key value ↔ onWhole key value)) :
    Restricts mine (whole.filter onWhole) (part.filter onPart) := by
  intro key value
  simp only [get?_filter_eq_some, restricts key]
  constructor
  · rintro ⟨⟨found, isMine⟩, kept⟩
    exact ⟨⟨found, (same key value found isMine).mp kept⟩, isMine⟩
  · rintro ⟨⟨found, kept⟩, isMine⟩
    exact ⟨⟨found, isMine⟩, (same key value found isMine).mpr kept⟩

/-- A selection of entries of the class only is the same from the whole. -/
theorem Restricts.filter_eq (restricts : Restricts mine whole part)
    (within : ∀ key value, whole.get? key = some value → onWhole key value → mine key)
    (same : ∀ key value, whole.get? key = some value → mine key →
      (onPart key value ↔ onWhole key value)) :
    part.filter onPart = whole.filter onWhole := by
  ext1 key
  apply Option.ext
  intro value
  rw [restricts.filter same key value]
  apply and_iff_left_of_imp
  intro selected
  obtain ⟨found, kept⟩ := get?_filter_eq_some.mp selected
  exact within key value found kept

end Filtering

end Restriction

theorem flatMap_congr [DecidableEq δ] {map : BTreeMap κ ν} {first second : κ → ν → Finset δ}
    (same : ∀ key value, map.get? key = some value → first key value = second key value) :
    map.flatMap first = map.flatMap second := by
  ext item
  simp only [mem_flatMap]
  refine exists_congr fun key => exists_congr fun value => and_congr_right fun found => ?_
  rw [same key value found]

section Union

variable {mine yours : κ → Prop} {whole first second : BTreeMap κ ν}

/-- Restrictions to two disjoint classes that cover the keys make up the whole. -/
theorem Restricts.union (left : Restricts mine whole first) (right : Restricts yours whole second)
    (apart : ∀ key, mine key → ¬ yours key)
    (cover : ∀ key value, whole.get? key = some value → mine key ∨ yours key) :
    DisjointUnion whole first second where
  disjoint := by
    rw [Finset.disjoint_left]
    intro key isFirst isSecond
    exact apart key (left.mem_keys.mp isFirst).2 (right.mem_keys.mp isSecond).2
  lookup key value := by
    rw [left key value, right key value]
    constructor
    · intro found
      exact (cover key value found).imp (fun isMine => ⟨found, isMine⟩)
        fun isYours => ⟨found, isYours⟩
    · rintro (⟨found, -⟩ | ⟨found, -⟩) <;> exact found

theorem DisjointUnion.flatMap [DecidableEq δ] (union : DisjointUnion whole first second)
    {onWhole onFirst onSecond : κ → ν → Finset δ}
    (left : ∀ key value, first.get? key = some value → onFirst key value = onWhole key value)
    (right : ∀ key value, second.get? key = some value → onSecond key value = onWhole key value) :
    whole.flatMap onWhole = first.flatMap onFirst ∪ second.flatMap onSecond := by
  ext item
  simp only [Finset.mem_union, mem_flatMap, union.lookup]
  constructor
  · rintro ⟨key, value, found | found, member⟩
    · exact .inl ⟨key, value, found, left key value found ▸ member⟩
    · exact .inr ⟨key, value, found, right key value found ▸ member⟩
  · rintro (⟨key, value, found, member⟩ | ⟨key, value, found, member⟩)
    · exact ⟨key, value, .inl found, left key value found ▸ member⟩
    · exact ⟨key, value, .inr found, right key value found ▸ member⟩

end Union

end BTreeMap

theorem biUnion_union {α δ : Type*} [DecidableEq δ] {whole first second : Finset α}
    (union : ∀ item, item ∈ whole ↔ item ∈ first ∨ item ∈ second)
    {onWhole onFirst onSecond : α → Finset δ}
    (left : ∀ item ∈ first, onFirst item = onWhole item)
    (right : ∀ item ∈ second, onSecond item = onWhole item) :
    whole.biUnion onWhole = first.biUnion onFirst ∪ second.biUnion onSecond := by
  ext value
  simp only [Finset.mem_union, Finset.mem_biUnion, union]
  constructor
  · rintro ⟨item, isFirst | isSecond, member⟩
    · exact .inl ⟨item, isFirst, left item isFirst ▸ member⟩
    · exact .inr ⟨item, isSecond, right item isSecond ▸ member⟩
  · rintro (⟨item, isFirst, member⟩ | ⟨item, isSecond, member⟩)
    · exact ⟨item, .inl isFirst, left item isFirst ▸ member⟩
    · exact ⟨item, .inr isSecond, right item isSecond ▸ member⟩

namespace Saturation

variable {α δ : Type*} [DecidableEq α] [DecidableEq δ]

/-- Saturation may be started one round later. -/
theorem saturate_step (candidates : Finset α) (label : Finset α → α → Option δ)
    (taken : Finset α) (labels : Finset δ) :
    saturate candidates label (taken ∪ newly candidates label taken)
      (labels ∪ (newly candidates label taken).biUnion fun item =>
        (label taken item).toFinset) = saturate candidates label taken labels := by
  by_cases done : newly candidates label taken = ∅
  · rw [done, Finset.biUnion_empty, Finset.union_empty, Finset.union_empty]
  · conv_rhs => rw [saturate, if_neg done]

/-- When admission of an element of a class depends on the taken elements of
the class only, saturating the class alone gives the elements and the labels
of the class. -/
theorem saturate_restrict {candidates part : Finset α}
    {onWhole onPart : Finset α → α → Option δ} (mine : α → Prop) [DecidablePred mine]
    (labelled : δ → Prop) [DecidablePred labelled]
    (isPart : part = candidates.filter mine)
    (same : ∀ taken, ∀ item ∈ candidates, mine item →
      onPart (taken.filter mine) item = onWhole taken item)
    (tells : ∀ taken, ∀ item ∈ candidates, ∀ value, onWhole taken item = some value →
      (labelled value ↔ mine item))
    (taken : Finset α) (labels : Finset δ) :
    saturate part onPart (taken.filter mine) (labels.filter labelled) =
      ((saturate candidates onWhole taken labels).1.filter mine,
        (saturate candidates onWhole taken labels).2.filter labelled) := by
  have newlyEq : ∀ taken, newly part onPart (taken.filter mine) =
      (newly candidates onWhole taken).filter mine := by
    intro taken
    ext item
    simp only [mem_newly, Finset.mem_filter, isPart]
    constructor
    · rintro ⟨⟨member, isMine⟩, fresh, admitted⟩
      rw [same taken item member isMine] at admitted
      exact ⟨⟨member, fun isTaken => fresh ⟨isTaken, isMine⟩, admitted⟩, isMine⟩
    · rintro ⟨⟨member, fresh, admitted⟩, isMine⟩
      rw [← same taken item member isMine] at admitted
      exact ⟨⟨member, isMine⟩, fun isTaken => fresh isTaken.1, admitted⟩
  induction taken, labels using saturate.induct candidates onWhole with
  | case1 taken labels done =>
      have partDone : newly part onPart (taken.filter mine) = ∅ := by
        rw [newlyEq, done, Finset.filter_empty]
      rw [saturate, if_pos partDone, saturate, if_pos done]
  | case2 taken labels progress ih =>
      have takenEq : taken.filter mine ∪ newly part onPart (taken.filter mine) =
          (taken ∪ newly candidates onWhole taken).filter mine := by
        rw [newlyEq, Finset.filter_union]
      have labelsEq : labels.filter labelled ∪
            ((newly part onPart (taken.filter mine)).biUnion fun item =>
              (onPart (taken.filter mine) item).toFinset) =
          (labels ∪ (newly candidates onWhole taken).biUnion fun item =>
            (onWhole taken item).toFinset).filter labelled := by
        rw [newlyEq, Finset.filter_union]
        congr 1
        ext value
        simp only [Finset.mem_biUnion, Finset.mem_filter, Option.mem_toFinset, Option.mem_def]
        constructor
        · rintro ⟨item, ⟨isNew, isMine⟩, given⟩
          have member := (mem_newly.mp isNew).1
          rw [same taken item member isMine] at given
          exact ⟨⟨item, isNew, given⟩, (tells taken item member value given).mpr isMine⟩
        · rintro ⟨⟨item, isNew, given⟩, isLabelled⟩
          have member := (mem_newly.mp isNew).1
          have isMine := (tells taken item member value given).mp isLabelled
          exact ⟨item, ⟨isNew, isMine⟩, (same taken item member isMine).trans given⟩
      rw [← saturate_step part, takenEq, labelsEq, ih]
      conv_rhs => rw [saturate, if_neg progress]

end Saturation

end SharedContext
