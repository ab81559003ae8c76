import SharedContext.Installer.CodexTrust

/-!
# What trust stamping touches

Stamping writes the digests that are wanted and removes the dead keys of its own
source; every other entry, and every other field of a stamped table, stays.  It
reports a change exactly when there was one, unless it added an empty state
table to a configuration that had none.
-/

namespace SharedContext.Installer

open IndexMap

/-! ### State keys -/

theorem splitColon_reverse {last : List Char} (plain : ':' ∉ last) (before : List Char) :
    splitColon (before ++ ':' :: last).reverse = some (last.reverse, before.reverse) := by
  have textEq : (before ++ ':' :: last).reverse = last.reverse ++ ':' :: before.reverse := by
    simp
  rw [textEq]
  exact splitColon_append (by simpa using plain) before.reverse

theorem colon_not_mem_toString (number : Nat) : ':' ∉ (toString number).toList := by
  rw [Nat.toString_eq_repr, Nat.toList_repr]
  intro member
  exact absurd (Nat.isDigit_of_mem_toDigits (by decide) (by decide) member) (by decide)

theorem colon_not_mem_label {label : String} (known : label ∈ eventKeyLabels.map Prod.snd) :
    ':' ∉ label.toList := by
  have plain : ∀ label ∈ eventKeyLabels.map Prod.snd, ':' ∉ label.toList := by decide
  exact plain label known

theorem hookKey_eq_ok {source event key : String} {group handler : Nat}
    (isKey : hookKey source event group handler = .ok key) :
    ∃ label ∈ eventKeyLabels.map Prod.snd,
      key = source ++ ":" ++ label ++ ":" ++ toString group ++ ":" ++ toString handler := by
  rw [hookKey] at isKey
  cases isLabel : eventKeyLabel event with
  | none => simp [isLabel] at isKey
  | some label =>
      simp only [isLabel, Except.ok.injEq] at isKey
      obtain ⟨entry, found, rfl⟩ := Option.map_eq_some_iff.mp isLabel
      exact ⟨entry.2, List.mem_map_of_mem (List.mem_of_find?_eq_some found), isKey.symm⟩

theorem keySource_hookKey {source event key : String} {group handler : Nat}
    (nonempty : source ≠ "") (groupSmall : group < 2 ^ 64) (handlerSmall : handler < 2 ^ 64)
    (isKey : hookKey source event group handler = .ok key) : keySource key = some source := by
  obtain ⟨label, known, rfl⟩ := hookKey_eq_ok isKey
  have textEq : (source ++ ":" ++ label ++ ":" ++ toString group ++ ":" ++
      toString handler).toList = ((source.toList ++ ':' :: label.toList) ++
        ':' :: (toString group).toList) ++ ':' :: (toString handler).toList := by
    simp
  have sourceChars : source.toList.reverse ≠ [] := by
    intro empty
    rw [List.reverse_eq_nil_iff] at empty
    exact nonempty (String.toList_injective empty)
  rw [keySource, textEq]
  simp only [splitColon_reverse (colon_not_mem_toString handler),
    splitColon_reverse (colon_not_mem_toString group), splitColon_reverse (colon_not_mem_label known),
    Option.bind_eq_bind, Option.bind_some, List.reverse_reverse, String.ofList_toList]
  rw [parseU64_toString handlerSmall, parseU64_toString groupSmall, if_neg]
  rintro (empty | missing | missing | unknown)
  · exact sourceChars empty
  · cases missing
  · cases missing
  · exact unknown known

theorem eventKeyLabel_injective {first second label : String}
    (isFirst : eventKeyLabel first = some label) (isSecond : eventKeyLabel second = some label) :
    first = second := by
  obtain ⟨entry, found, rfl⟩ := Option.map_eq_some_iff.mp isFirst
  obtain ⟨other, otherFound, sameLabel⟩ := Option.map_eq_some_iff.mp isSecond
  have distinct : ∀ one ∈ eventKeyLabels, ∀ two ∈ eventKeyLabels, one.2 = two.2 → one.1 = two.1 := by
    decide
  have sameEvent := distinct other (List.mem_of_find?_eq_some otherFound) entry
    (List.mem_of_find?_eq_some found) sameLabel
  have isEntry : entry.1 = first := by simpa using List.find?_some found
  have isOther : other.1 = second := by simpa using List.find?_some otherFound
  rw [← isEntry, ← isOther, sameEvent]

theorem toString_nat_injective {first second : Nat}
    (same : (toString first).toList = (toString second).toList) : first = second := by
  rw [Nat.toString_eq_repr, Nat.toString_eq_repr, Nat.toList_repr, Nat.toList_repr] at same
  rw [← @Nat.ofDigitChars_toDigits 10 first (by decide) (by decide), same,
    Nat.ofDigitChars_toDigits (by decide) (by decide)]

theorem hookKey_position {source event other key : String} {group handler otherGroup
    otherHandler : Nat} (isFirst : hookKey source event group handler = .ok key)
    (isSecond : hookKey source other otherGroup otherHandler = .ok key) :
    event = other ∧ group = otherGroup ∧ handler = otherHandler := by
  rw [hookKey] at isFirst isSecond
  cases isLabel : eventKeyLabel event with
  | none => simp [isLabel] at isFirst
  | some label =>
      cases isOther : eventKeyLabel other with
      | none => simp [isOther] at isSecond
      | some otherLabel =>
          simp only [isLabel, isOther, Except.ok.injEq] at isFirst isSecond
          have known : label ∈ eventKeyLabels.map Prod.snd := by
            obtain ⟨entry, found, rfl⟩ := Option.map_eq_some_iff.mp isLabel
            exact List.mem_map_of_mem (List.mem_of_find?_eq_some found)
          have otherKnown : otherLabel ∈ eventKeyLabels.map Prod.snd := by
            obtain ⟨entry, found, rfl⟩ := Option.map_eq_some_iff.mp isOther
            exact List.mem_map_of_mem (List.mem_of_find?_eq_some found)
          have same : ((source.toList ++ ':' :: label.toList) ++ ':' :: (toString group).toList) ++
              ':' :: (toString handler).toList =
              ((source.toList ++ ':' :: otherLabel.toList) ++
                ':' :: (toString otherGroup).toList) ++ ':' :: (toString otherHandler).toList := by
            have sameText := congrArg String.toList (isFirst.trans isSecond.symm)
            simpa using sameText
          have lastSplit := congrArg (fun text => splitColon text.reverse) same
          simp only [splitColon_reverse (colon_not_mem_toString _), Option.some.injEq,
            Prod.mk.injEq, List.reverse_inj] at lastSplit
          obtain ⟨sameHandler, sameRest⟩ := lastSplit
          have groupSplit := congrArg (fun text => splitColon text.reverse) sameRest
          simp only [splitColon_reverse (colon_not_mem_toString _), Option.some.injEq,
            Prod.mk.injEq, List.reverse_inj] at groupSplit
          obtain ⟨sameGroup, sameStart⟩ := groupSplit
          have labelEq : label = otherLabel :=
            String.toList_injective (List.cons.inj (List.append_cancel_left sameStart)).2
          subst labelEq
          exact ⟨eventKeyLabel_injective isLabel isOther, toString_nat_injective sameGroup,
            toString_nat_injective sameHandler⟩

theorem mem_addressedKeys {hooksFile : List (String × Value)} {source key : String}
    {addressed : Finset String} {handlers : List HookHandlerRef}
    (iterated : iterHookHandlers hooksFile = .ok handlers)
    (addresses : addressedKeys hooksFile source = .ok addressed) :
    key ∈ addressed ↔ ∃ handler ∈ handlers,
      hookKey source handler.event handler.groupIndex handler.handlerIndex = .ok key := by
  rw [addressedKeys, iterated] at addresses
  cases mapped : handlers.mapM fun handler =>
      hookKey source handler.event handler.groupIndex handler.handlerIndex with
  | error error =>
      have failed := addresses
      change (handlers.mapM fun handler => hookKey source handler.event handler.groupIndex
        handler.handlerIndex) >>= _ = _ at failed
      rw [mapped] at failed
      cases failed
  | ok keys =>
      change (handlers.mapM fun handler => hookKey source handler.event handler.groupIndex
        handler.handlerIndex) >>= _ = _ at addresses
      rw [mapped] at addresses
      cases addresses
      obtain ⟨forward, backward⟩ := Result.mapM_members mapped
      rw [List.mem_toFinset]
      constructor
      · exact backward key
      · rintro ⟨handler, member, isKey⟩
        obtain ⟨result, resultMem, isResult⟩ := forward handler member
        rw [isKey] at isResult
        rwa [Except.ok.inj isResult]

/-! ### One entry -/

theorem holdsDigest_stampedEntry (inlineParent : Bool) (digest : String)
    (existing : Option TomlItem) :
    holdsDigest digest (some (stampedEntry inlineParent digest existing)) = true := by
  unfold stampedEntry
  split
  · simp [holdsDigest, TomlItem.asStr]
  · simp [holdsDigest, get?, TomlItem.asStr]

/-- The entry after stamping: the old one if it holds the digest already. -/
def restampedEntry (inlineParent : Bool) (digest : String) (existing : Option TomlItem) :
    Option TomlItem :=
  if holdsDigest digest existing then existing
  else some (stampedEntry inlineParent digest existing)

theorem holdsDigest_restampedEntry (inlineParent : Bool) (digest : String)
    (existing : Option TomlItem) :
    holdsDigest digest (restampedEntry inlineParent digest existing) = true := by
  unfold restampedEntry
  split
  · assumption
  · exact holdsDigest_stampedEntry inlineParent digest existing

theorem restampedEntry_table (inlineParent inline : Bool) (digest : String)
    (fields : List (String × TomlItem)) :
    ∃ after, restampedEntry inlineParent digest (some (.table inline fields)) =
        some (.table inline after) ∧
      ∀ field, field ≠ "trusted_hash" → get? field after = get? field fields := by
  unfold restampedEntry
  split
  · exact ⟨fields, rfl, fun _ _ => rfl⟩
  · exact ⟨_, rfl, fun field other => by simp [other]⟩

/-! ### The stamping pass -/

section Stamping

variable {inlineParent : Bool} {pairs : List (String × String)}
  {state : List (String × TomlItem)}

theorem get?_stampAll (distinct : (pairs.map Prod.fst).Nodup) (key : String) :
    get? key (stampAll inlineParent pairs state).1 =
      match pairs.find? fun pair => pair.1 = key with
      | none => get? key state
      | some pair => restampedEntry inlineParent pair.2 (get? key state) := by
  induction pairs generalizing state with
  | nil => rfl
  | cons pair rest ih =>
      obtain ⟨stamped, digest⟩ := pair
      rw [List.map_cons, List.nodup_cons] at distinct
      have absent : (rest.find? fun pair => pair.1 = stamped) = none := by
        rw [List.find?_eq_none]
        intro pair member
        rw [decide_eq_true_eq]
        rintro rfl
        exact distinct.1 (List.mem_map.mpr ⟨pair, member, rfl⟩)
      rw [stampAll]
      by_cases isKey : stamped = key
      · subst isKey
        rw [List.find?_cons_of_pos (by simp)]
        dsimp only
        by_cases holds : holdsDigest digest (get? stamped state) = true
        · rw [if_pos holds, ih distinct.2, absent]
          rw [restampedEntry, if_pos holds]
        · rw [if_neg holds]
          dsimp only
          rw [ih distinct.2, absent, restampedEntry, if_neg holds]
          simp
      · rw [List.find?_cons_of_neg (by simpa using isKey)]
        by_cases holds : holdsDigest digest (get? stamped state) = true
        · rw [if_pos holds, ih distinct.2]
        · rw [if_neg holds]
          dsimp only
          rw [ih distinct.2, get?_insert, if_neg (Ne.symm isKey)]

theorem stampAll_eq_zero (distinct : (pairs.map Prod.fst).Nodup) :
    (stampAll inlineParent pairs state).2 = 0 ↔
      ∀ pair ∈ pairs, holdsDigest pair.2 (get? pair.1 state) = true := by
  induction pairs generalizing state with
  | nil => simp [stampAll]
  | cons pair rest ih =>
      rw [List.map_cons, List.nodup_cons] at distinct
      rw [stampAll, List.forall_mem_cons]
      by_cases holds : holdsDigest pair.2 (get? pair.1 state) = true
      · rw [if_pos holds, ih distinct.2]
        simp [holds]
      · rw [if_neg holds]
        simp [holds]

theorem stampAll_of_holds (holds : ∀ pair ∈ pairs, holdsDigest pair.2 (get? pair.1 state) = true) :
    stampAll inlineParent pairs state = (state, 0) := by
  induction pairs with
  | nil => rfl
  | cons pair rest ih =>
      rw [stampAll, if_pos (holds pair List.mem_cons_self)]
      exact ih fun other member => holds other (List.mem_cons_of_mem _ member)

end Stamping

theorem mem_deadKeys {source key : String} {addressed : Finset String}
    {state : List (String × TomlItem)} :
    key ∈ deadKeys source addressed state ↔
      get? key state ≠ none ∧ keySource key = some source ∧ key ∉ addressed := by
  rw [deadKeys, List.mem_filter, decide_eq_true_eq, ne_eq, get?_eq_none, not_not]

/-! ### Documents -/

/-- The entries of `hooks.state`. -/
def stateEntries (document : Document) : List (String × TomlItem) :=
  match get? "hooks" document with
  | some (.table _ hooks) =>
      match get? "state" hooks with
      | some (.table _ state) => state
      | _ => []
  | _ => []

def stateEntry (document : Document) (key : String) : Option TomlItem :=
  get? key (stateEntries document)

/-- Whether the document has a `hooks.state`. -/
def hasState (document : Document) : Bool :=
  match get? "hooks" document with
  | some (.table _ hooks) => (get? "state" hooks).isSome
  | _ => false

/-- The entries of `hooks` other than its state. -/
def hooksEntry (document : Document) (key : String) : Option TomlItem :=
  match get? "hooks" document with
  | some (.table _ hooks) => get? key hooks
  | _ => none

def passedState (source : String) (desired : BTreeMap String String) (addressed : Finset String)
    (stateInline : Bool) (state : List (String × TomlItem)) : List (String × TomlItem) :=
  let stamped := (stampAll stateInline desired.entries state).1
  removeAll (deadKeys source addressed stamped) stamped

section Applying

variable {source : String} {desired : BTreeMap String String} {addressed : Finset String}
  {before after : Document} {update : TrustUpdate}

/-- A pass leaves a configuration without hooks alone, or rewrites its state. -/
theorem applyTrust_cases
    (applied : applyTrust before source desired addressed = .ok (after, update)) :
    (desired.keys = ∅ ∧ get? "hooks" before = none ∧ after = before ∧ update = ⟨0, 0⟩) ∨
      ∃ hooksInline hooks stateInline state,
        ¬ (desired.keys = ∅ ∧ get? "hooks" before = none) ∧
        (get? "hooks" before).getD (.table false []) = .table hooksInline hooks ∧
        (get? "state" hooks).getD (.table false []) = .table stateInline state ∧
        after = insert "hooks" (.table hooksInline (insert "state" (.table stateInline
          (passedState source desired addressed stateInline state)) hooks)) before ∧
        update = ⟨(stampAll stateInline desired.entries state).2,
          (deadKeys source addressed (stampAll stateInline desired.entries state).1).length⟩ := by
  unfold applyTrust at applied
  split at applied
  · rename_i nothing
    obtain ⟨rfl, rfl⟩ := Prod.mk.inj (Except.ok.inj applied)
    exact .inl ⟨nothing.1, nothing.2, rfl, rfl⟩
  · rename_i something
    split at applied
    · rename_i hooksInline hooks isHooks
      split at applied
      · rename_i stateInline state isState
        obtain ⟨rfl, rfl⟩ := Prod.mk.inj (Except.ok.inj applied)
        exact .inr ⟨hooksInline, hooks, stateInline, state, something, isHooks, isState, rfl, rfl⟩
      · cases applied
    · cases applied

theorem getD_table {item : Option TomlItem} {inline : Bool} {entries : List (String × TomlItem)}
    (isTable : item.getD (.table false []) = .table inline entries) :
    item = some (.table inline entries) ∨ (item = none ∧ inline = false ∧ entries = []) := by
  cases item with
  | none =>
      cases isTable
      exact .inr ⟨rfl, rfl, rfl⟩
  | some item => exact .inl (congrArg some isTable)

theorem stateEntries_of_tables {hooksInline stateInline : Bool}
    {hooks state : List (String × TomlItem)}
    (isHooks : (get? "hooks" before).getD (.table false []) = .table hooksInline hooks)
    (isState : (get? "state" hooks).getD (.table false []) = .table stateInline state) :
    stateEntries before = state := by
  unfold stateEntries
  rcases getD_table isHooks with found | ⟨missing, _, rfl⟩
  · rw [found]
    rcases getD_table isState with found | ⟨missing, _, rfl⟩
    · simp [found]
    · simp [missing]
  · rw [missing]
    rcases getD_table isState with found | ⟨_, _, rfl⟩
    · simp [get?] at found
    · rfl

theorem get?_passedState (stateInline : Bool) (state : List (String × TomlItem)) (key : String)
    (among : desired.keys ⊆ addressed) :
    get? key (passedState source desired addressed stateInline state) =
      match desired.get? key with
      | some digest => restampedEntry stateInline digest (get? key state)
      | none =>
          if keySource key = some source ∧ key ∉ addressed then none else get? key state := by
  have distinct := BTreeMap.nodup_keys_entries desired
  rw [passedState, get?_removeAll, get?_stampAll distinct, BTreeMap.find?_entries]
  simp only [mem_deadKeys]
  cases wanted : desired.get? key with
  | some digest =>
      have isAddressed : key ∈ addressed := among (BTreeMap.mem_keys_of_get? wanted)
      simp [isAddressed]
  | none =>
      rw [get?_stampAll distinct, BTreeMap.find?_entries, wanted]
      by_cases dead : keySource key = some source ∧ key ∉ addressed
      · rw [if_pos dead]
        by_cases there : get? key state = none
        · simp [there]
        · rw [if_pos ⟨there, dead⟩]
      · rw [if_neg dead, if_neg fun both => dead both.2]
        rfl

theorem tables_after {hooksInline stateInline : Bool} {hooks state : List (String × TomlItem)} :
    get? "hooks" (insert "hooks" (.table hooksInline (insert "state" (.table stateInline state)
        hooks)) before) =
      some (.table hooksInline (insert "state" (.table stateInline state) hooks)) ∧
    stateEntries (insert "hooks" (.table hooksInline (insert "state" (.table stateInline state)
        hooks)) before) = state ∧
    hasState (insert "hooks" (.table hooksInline (insert "state" (.table stateInline state)
        hooks)) before) = true := by
  simp [stateEntries, hasState]

theorem pass_again (among : desired.keys ⊆ addressed) (stateInline : Bool)
    (state : List (String × TomlItem)) :
    stampAll stateInline desired.entries
        (passedState source desired addressed stateInline state) =
      (passedState source desired addressed stateInline state, 0) ∧
    deadKeys source addressed (passedState source desired addressed stateInline state) = [] := by
  constructor
  · refine stampAll_of_holds fun pair member => ?_
    have wanted := BTreeMap.mem_entries.mp member
    rw [get?_passedState stateInline state pair.1 among, wanted]
    exact holdsDigest_restampedEntry _ _ _
  · rw [List.eq_nil_iff_forall_not_mem]
    intro key dead
    obtain ⟨there, isOurs, notAddressed⟩ := mem_deadKeys.mp dead
    have notWanted : desired.get? key = none := by
      rw [← BTreeMap.not_mem_keys_iff]
      exact fun member => notAddressed (among member)
    rw [get?_passedState stateInline state key among, notWanted] at there
    exact there (if_pos ⟨isOurs, notAddressed⟩)

theorem changed_eq_false {restamped pruned : Nat} :
    (TrustUpdate.mk restamped pruned).changed = false ↔ restamped = 0 ∧ pruned = 0 := by
  simp [TrustUpdate.changed]

theorem passedState_eq_iff (among : desired.keys ⊆ addressed) (stateInline : Bool)
    (state : List (String × TomlItem)) :
    passedState source desired addressed stateInline state = state ↔
      (stampAll stateInline desired.entries state).2 = 0 ∧
        (deadKeys source addressed (stampAll stateInline desired.entries state).1).length = 0 := by
  have distinct := BTreeMap.nodup_keys_entries desired
  constructor
  · intro same
    have again := @pass_again source desired addressed among stateInline state
    rw [same] at again
    rw [again.1]
    exact ⟨rfl, by rw [again.2]; rfl⟩
  · rintro ⟨noneStamped, noneDead⟩
    have holds := (stampAll_eq_zero distinct).mp noneStamped
    rw [stampAll_of_holds holds] at noneDead
    rw [passedState, stampAll_of_holds holds, List.length_eq_zero_iff.mp noneDead, removeAll_nil]

end Applying

/-- What stamping owes a configuration. -/
structure TrustApplied (source : String) (desired : BTreeMap String String)
    (addressed : Finset String) (before after : Document) (update : TrustUpdate) : Prop where
  holds : ∀ key digest, desired.get? key = some digest →
    holdsDigest digest (stateEntry after key) = true
  pruned : ∀ key, keySource key = some source → key ∉ addressed → stateEntry after key = none
  kept : ∀ key, desired.get? key = none → ¬ (keySource key = some source ∧ key ∉ addressed) →
    stateEntry after key = stateEntry before key
  fields : ∀ key inline fields, desired.get? key ≠ none →
    stateEntry before key = some (.table inline fields) →
    ∃ newFields, stateEntry after key = some (.table inline newFields) ∧
      ∀ field, field ≠ "trusted_hash" → get? field newFields = get? field fields
  elsewhere : ∀ name, name ≠ "hooks" → get? name after = get? name before
  besides : ∀ name, name ≠ "state" → hooksEntry after name = hooksEntry before name
  again : applyTrust after source desired addressed = .ok (after, ⟨0, 0⟩)
  reported : update.changed = false ↔ after = before

/-- Stamping wants something, or finds no hooks at all, or finds their state. -/
def StampsState (desired : BTreeMap String String) (before : Document) : Prop :=
  desired.keys ≠ ∅ ∨ get? "hooks" before = none ∨ hasState before = true

section Main

variable {source : String} {desired : BTreeMap String String} {addressed : Finset String}
  {before after : Document} {update : TrustUpdate}

theorem reported_iff (among : desired.keys ⊆ addressed)
    (applied : applyTrust before source desired addressed = .ok (after, update)) :
    (update.changed = false ↔ after = before) ↔ StampsState desired before := by
  rcases applyTrust_cases applied with ⟨_, noHooks, rfl, rfl⟩ |
    ⟨hooksInline, hooks, stateInline, state, something, isHooks, isState, rfl, rfl⟩
  · exact ⟨fun _ => .inr (.inl noHooks), fun _ => ⟨fun _ => rfl, fun _ => rfl⟩⟩
  · obtain ⟨_, afterEntries, afterState⟩ := @tables_after before hooksInline stateInline hooks
      (passedState source desired addressed stateInline state)
    have beforeEntries := stateEntries_of_tables isHooks isState
    rw [changed_eq_false, ← passedState_eq_iff among]
    by_cases had : hasState before = true
    · refine ⟨fun _ => .inr (.inr had), fun _ => ⟨fun same => ?_, fun same => ?_⟩⟩
      · rw [same]
        rcases getD_table isHooks with hooksFound | ⟨missing, _, _⟩
        · rcases getD_table isState with stateFound | ⟨missing, _, _⟩
          · rw [insert_of_get? stateFound, insert_of_get? hooksFound]
          · simp [hasState, hooksFound, missing] at had
        · simp [hasState, missing] at had
      · rw [same] at afterEntries
        rw [← afterEntries, beforeEntries]
    · have changed : insert "hooks" (.table hooksInline (insert "state" (.table stateInline
          (passedState source desired addressed stateInline state)) hooks)) before ≠ before := by
        intro same
        rw [same] at afterState
        exact had afterState
      have stateNil : state = [] := by
        rcases getD_table isState with stateFound | ⟨_, _, rfl⟩
        · rcases getD_table isHooks with hooksFound | ⟨_, _, rfl⟩
          · simp [hasState, hooksFound, stateFound] at had
          · simp [get?] at stateFound
        · rfl
      simp only [changed, iff_false]
      constructor
      · intro stays
        by_contra nothing
        simp only [StampsState, not_or, not_not] at nothing
        refine stays ((passedState_eq_iff among stateInline state).mpr ?_)
        have noEntries : desired.entries = [] := by
          rw [List.eq_nil_iff_forall_not_mem]
          rintro ⟨key, digest⟩ member
          have inKeys := BTreeMap.mem_keys_of_get? (BTreeMap.mem_entries.mp member)
          rw [nothing.1] at inKeys
          exact absurd inKeys (Finset.notMem_empty _)
        rw [noEntries, stateNil]
        exact ⟨rfl, rfl⟩
      · intro stamps same
        have wanted : desired.keys.Nonempty := by
          rw [Finset.nonempty_iff_ne_empty]
          rcases stamps with wanted | noHooks | hadState
          · exact wanted
          · exact fun empty => something ⟨empty, noHooks⟩
          · exact absurd hadState had
        obtain ⟨key, member⟩ := wanted
        obtain ⟨digest, isDigest⟩ := BTreeMap.mem_keys_iff.mp member
        have present := @get?_passedState source desired addressed stateInline state key among
        rw [same, isDigest, stateNil] at present
        change get? key [] = restampedEntry stateInline digest (get? key []) at present
        have held := holdsDigest_restampedEntry stateInline digest (get? key [])
        rw [← present] at held
        exact absurd held Bool.false_ne_true

theorem stateEntry_after (among : desired.keys ⊆ addressed)
    (applied : applyTrust before source desired addressed = .ok (after, update)) :
    ∃ inlineParent, ∀ key, stateEntry after key =
      match desired.get? key with
      | some digest => restampedEntry inlineParent digest (stateEntry before key)
      | none =>
          if keySource key = some source ∧ key ∉ addressed then none
          else stateEntry before key := by
  rcases applyTrust_cases applied with ⟨noneWanted, noHooks, rfl, rfl⟩ |
    ⟨hooksInline, hooks, stateInline, state, _, isHooks, isState, rfl, _⟩
  · refine ⟨false, fun key => ?_⟩
    have notWanted : desired.get? key = none := by
      rw [← BTreeMap.not_mem_keys_iff, noneWanted]
      exact Finset.notMem_empty key
    have empty : stateEntry after key = none := by
      simp [stateEntry, stateEntries, noHooks, get?]
    simp [notWanted, empty]
  · refine ⟨stateInline, fun key => ?_⟩
    rw [stateEntry, stateEntry, stateEntries_of_tables isHooks isState, (tables_after).2.1]
    exact get?_passedState stateInline state key among

theorem elsewhere_after
    (applied : applyTrust before source desired addressed = .ok (after, update)) :
    (∀ name, name ≠ "hooks" → get? name after = get? name before) ∧
      ∀ name, name ≠ "state" → hooksEntry after name = hooksEntry before name := by
  rcases applyTrust_cases applied with ⟨_, _, rfl, _⟩ |
    ⟨hooksInline, hooks, stateInline, state, _, isHooks, _, rfl, _⟩
  · exact ⟨fun _ _ => rfl, fun _ _ => rfl⟩
  · refine ⟨fun name other => by simp [other], fun name other => ?_⟩
    rw [hooksEntry, hooksEntry, (tables_after).1]
    rcases getD_table isHooks with found | ⟨missing, _, rfl⟩
    · simp [found, other]
    · simp [missing, other, get?]

theorem applyTrust_again (among : desired.keys ⊆ addressed)
    (applied : applyTrust before source desired addressed = .ok (after, update)) :
    applyTrust after source desired addressed = .ok (after, ⟨0, 0⟩) := by
  rcases applyTrust_cases applied with ⟨noneWanted, noHooks, rfl, _⟩ |
    ⟨hooksInline, hooks, stateInline, state, _, isHooks, isState, rfl, _⟩
  · rw [applyTrust, if_pos ⟨noneWanted, noHooks⟩]
  · obtain ⟨stamps, dead⟩ := @pass_again source desired addressed among stateInline state
    have hooksAfter := (@tables_after before hooksInline stateInline hooks
      (passedState source desired addressed stateInline state)).1
    rw [applyTrust, if_neg fun nothing => by simp [hooksAfter] at nothing, hooksAfter]
    simp only [Option.getD_some, get?_insert, if_true, stamps, dead, removeAll_nil, insert_insert,
      List.length_nil]

theorem trustApplied_of_reported (among : desired.keys ⊆ addressed)
    (applied : applyTrust before source desired addressed = .ok (after, update))
    (reported : update.changed = false ↔ after = before) :
    TrustApplied source desired addressed before after update := by
  obtain ⟨inlineParent, entryAfter⟩ := stateEntry_after among applied
  obtain ⟨elsewhere, besides⟩ := elsewhere_after applied
  refine ⟨?_, ?_, ?_, ?_, elsewhere, besides, applyTrust_again among applied, reported⟩
  · intro key digest wanted
    rw [entryAfter, wanted]
    exact holdsDigest_restampedEntry _ _ _
  · intro key isOurs notAddressed
    have notWanted : desired.get? key = none := by
      rw [← BTreeMap.not_mem_keys_iff]
      exact fun member => notAddressed (among member)
    rw [entryAfter, notWanted]
    exact if_pos ⟨isOurs, notAddressed⟩
  · intro key notWanted alive
    rw [entryAfter, notWanted]
    exact if_neg alive
  · intro key inline fields wanted wasTable
    obtain ⟨digest, isDigest⟩ := Option.ne_none_iff_exists'.mp wanted
    rw [entryAfter, isDigest, wasTable]
    exact restampedEntry_table inlineParent inline digest fields

/-- Stamping does what it owes, exactly when it does not have to make an empty state. -/
theorem trust_applied_iff (nonempty : source ≠ "") {hooksFile : List (String × Value)}
    {handlers : List HookHandlerRef} (iterated : iterHookHandlers hooksFile = .ok handlers)
    (addresses : addressedKeys hooksFile source = .ok addressed)
    (among : desired.keys ⊆ addressed)
    (applied : applyTrust before source desired addressed = .ok (after, update)) :
    ((∀ event group handler key, group < 2 ^ 64 → handler < 2 ^ 64 →
        hookKey source event group handler = .ok key →
        keySource key = some source ∧
          ((∀ ref ∈ handlers, ¬ (ref.event = event ∧ ref.groupIndex = group ∧
            ref.handlerIndex = handler)) → stateEntry after key = none)) ∧
      TrustApplied source desired addressed before after update) ↔ StampsState desired before := by
  rw [← reported_iff among applied]
  refine ⟨fun both => both.2.reported, fun reported => ?_⟩
  have owed : TrustApplied source desired addressed before after update :=
    trustApplied_of_reported among applied reported
  refine ⟨fun event group handler key groupSmall handlerSmall isKey => ?_, owed⟩
  have isOurs := keySource_hookKey nonempty groupSmall handlerSmall isKey
  refine ⟨isOurs, fun noPosition => owed.pruned key isOurs fun isAddressed => ?_⟩
  obtain ⟨ref, refMem, refKey⟩ := (mem_addressedKeys iterated addresses).mp isAddressed
  exact noPosition ref refMem (hookKey_position refKey isKey)

end Main

/-- One hook of the installer, and one entry of another source. -/
theorem trust_applied_iff_stop :
    ∃ after update, applyTrust [("hooks", .table false [("state", .table true
        [("/p/hooks.json:stop:0:0", .other "1")])])] "/h/hooks.json"
        (BTreeMap.empty.insert "/h/hooks.json:stop:0:0" "sha256:fresh")
        ["/h/hooks.json:stop:0:0"].toFinset = .ok (after, update) ∧
      TrustApplied "/h/hooks.json" (BTreeMap.empty.insert "/h/hooks.json:stop:0:0" "sha256:fresh")
        ["/h/hooks.json:stop:0:0"].toFinset [("hooks", .table false [("state", .table true
          [("/p/hooks.json:stop:0:0", .other "1")])])] after update := by
  have iterated : iterHookHandlers [("hooks", .object [("Stop",
      .array [.object [("hooks", .array [.null])]])])] = .ok [⟨"Stop", 0, 0, none, .null⟩] := rfl
  refine ⟨_, _, rfl, ?_⟩
  exact ((trust_applied_iff (by decide) iterated rfl (by decide) rfl).mpr (.inl (by decide))).2

/-- Hooks without a state get an empty one, and no change is reported. -/
theorem trust_adds_empty_state :
    ∃ after update, addressedKeys [] "/h/hooks.json" = .ok ∅ ∧
      applyTrust [("hooks", .table false [])] "/h/hooks.json" .empty ∅ = .ok (after, update) ∧
      update.changed = false ∧ after ≠ [("hooks", .table false [])] := by
  refine ⟨_, _, rfl, rfl, by decide, ?_⟩
  intro same
  have hooks := congrArg (fun document => hasState document) same
  exact absurd hooks (by decide)

end SharedContext.Installer
