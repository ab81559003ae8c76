import SharedContext.LocalState.Stopping

/-!
# Private keys and credentials around an identifier

The findings of the two other scanners go on over the filler.  They cover an
identifier exactly when it stands in a private key that was opened before it,
or in the value of a credential; whether it does can be read off the text
without the mask.
-/

namespace SharedContext.LocalState

/-! ### Needles in masked bytes -/

section Needles

variable {bytes needle : Bytes} {position : Nat}

theorem occursAt_unmask (clear : filler ∉ needle) (occurs : OccursAt needle (masked bytes) position) :
    OccursAt needle bytes position := by
  refine occursAt_iff.mpr fun index inside => ?_
  have visible := occursAt_ne_filler occurs clear (Nat.le_add_right position index) (by omega)
  rw [← getElem?_masked_of_not_covered (not_covered_of_masked visible)]
  exact occursAt_iff.mp occurs index inside

/-- No byte of the needle stands in an identifier, but for hyphens beside a byte
that is no digit. -/
def Foreign (needle : Bytes) : Prop :=
  ∀ index < needle.length, ByteAt isIdByte needle index →
    needle[index]? = some '-'.toUInt8 ∧
      (0 < index ∧ ¬ ByteAt isHexDigit needle (index - 1) ∨
        index + 1 < needle.length ∧ ¬ ByteAt isHexDigit needle (index + 1))

instance (needle : Bytes) : Decidable (Foreign needle) := by
  unfold Foreign
  infer_instance

theorem not_covered_of_foreign (foreign : Foreign needle) (occurs : OccursAt needle bytes position)
    {index : Nat} (inside : index < needle.length) : ¬ Covered bytes (position + index) := by
  intro covered
  have idByte := covered.isIdByte
  rw [ByteAt, occurs.getElem?_eq inside] at idByte
  obtain ⟨hyphen, beside⟩ := foreign index inside idByte
  obtain ⟨start, isId, after, before⟩ := covered
  have hyphenHere : bytes[start + (position + index - start)]? = some '-'.toUInt8 := by
    rw [show start + (position + index - start) = position + index by omega,
      occurs.getElem?_eq inside, hyphen]
  obtain ⟨previous, isPrevious, digitBefore, digitAfter⟩ :=
    isId.shape.hyphen_between (by omega) hyphenHere
  rcases beside with ⟨notFirst, noDigit⟩ | ⟨notLast, noDigit⟩
  · rw [show start + previous = position + (index - 1) by omega, ByteAt,
      occurs.getElem?_eq (by omega)] at digitBefore
    exact noDigit digitBefore
  · rw [show start + (position + index - start) + 1 = position + (index + 1) by omega, ByteAt,
      occurs.getElem?_eq notLast] at digitAfter
    exact noDigit digitAfter

theorem occursAt_mask (foreign : Foreign needle) (occurs : OccursAt needle bytes position) :
    OccursAt needle (masked bytes) position := by
  refine occursAt_iff.mpr fun index inside => ?_
  rw [getElem?_masked_of_not_covered (not_covered_of_foreign foreign occurs inside)]
  exact occursAt_iff.mp occurs index inside

theorem occursAt_masked_iff (clear : filler ∉ needle) (foreign : Foreign needle) :
    OccursAt needle (masked bytes) position ↔ OccursAt needle bytes position :=
  ⟨occursAt_unmask clear, occursAt_mask foreign⟩

end Needles

/-! ### Private keys -/

/-- A private key that opens at an offset has its footer before a position. -/
def ClosedBefore (bytes : Bytes) (opened position : Nat) : Prop :=
  ∃ header footer close, opened ≤ header ∧ OccursAt privateKeyTail bytes header ∧
    header + privateKeyTail.length ≤ footer ∧ OccursAt privateKeyEnd bytes footer ∧
    footer ≤ close ∧ OccursAt privateKeyTail bytes close ∧
    close + privateKeyTail.length ≤ position

/-- The position is in a private key that was opened before it. -/
def InPrivateKey (bytes : Bytes) (position : Nat) : Prop :=
  ∃ opened < position, OccursAt privateKeyBegin bytes opened ∧
    (∃ header, opened ≤ header ∧ OccursAt privateKeyTail bytes header) ∧
    ¬ ClosedBefore bytes opened position

section PrivateKeys

variable {bytes : Bytes} {position opened : Nat}

theorem occursAt_privateKeyBegin :
    OccursAt privateKeyBegin (masked bytes) position ↔ OccursAt privateKeyBegin bytes position :=
  occursAt_masked_iff (by decide) (by decide)

theorem occursAt_privateKeyTail :
    OccursAt privateKeyTail (masked bytes) position ↔ OccursAt privateKeyTail bytes position :=
  occursAt_masked_iff (by decide) (by decide)

theorem occursAt_privateKeyEnd :
    OccursAt privateKeyEnd (masked bytes) position ↔ OccursAt privateKeyEnd bytes position :=
  occursAt_masked_iff (by decide) (by decide)

theorem inPrivateKey_masked :
    InPrivateKey (masked bytes) position ↔ InPrivateKey bytes position := by
  simp only [InPrivateKey, ClosedBefore, occursAt_privateKeyBegin, occursAt_privateKeyTail,
    occursAt_privateKeyEnd]

theorem endOfFirst_eq_some {needle : Bytes} {offset stop : Nat}
    (found : endOfFirst needle bytes offset = some stop) :
    ∃ first, offset ≤ first ∧ OccursAt needle bytes first ∧ stop = first + needle.length ∧
      ∀ other, offset ≤ other → OccursAt needle bytes other → first ≤ other := by
  obtain ⟨relative, isFirst, rfl⟩ := Option.map_eq_some_iff.mp found
  obtain ⟨occurs, first⟩ := findFirst_drop_eq_some isFirst
  exact ⟨offset + relative, by omega, occurs, rfl, first⟩

theorem privateKeyStop_le {headerEnd : Nat} (inside : position < bytes.length) :
    privateKeyStop bytes headerEnd ≤ position ↔
      ∃ footer close, headerEnd ≤ footer ∧ OccursAt privateKeyEnd bytes footer ∧ footer ≤ close ∧
        OccursAt privateKeyTail bytes close ∧ close + privateKeyTail.length ≤ position := by
  unfold privateKeyStop
  cases foundFooter : findFirst privateKeyEnd (bytes.drop headerEnd) with
  | none =>
      simp only [Option.bind_none, Option.getD_none]
      constructor
      · omega
      · intro ⟨footer, close, after, occurs, _⟩
        exact absurd occurs (findFirst_drop_eq_none (by decide) foundFooter after)
  | some relative =>
      obtain ⟨footerOccurs, firstFooter⟩ := findFirst_drop_eq_some foundFooter
      simp only [Option.bind_some]
      cases foundClose : endOfFirst privateKeyTail bytes (headerEnd + relative) with
      | none =>
          have missing := Option.map_eq_none_iff.mp foundClose
          simp only [Option.getD_none]
          constructor
          · omega
          · intro ⟨footer, close, after, occurs, behind, closes, _⟩
            have first := firstFooter footer after occurs
            exact absurd closes
              (findFirst_drop_eq_none (by decide) missing (by omega))
      | some stop =>
          obtain ⟨close, behind, closes, rfl, firstClose⟩ := endOfFirst_eq_some foundClose
          simp only [Option.getD_some]
          constructor
          · intro within
            exact ⟨_, close, Nat.le_add_right _ _, footerOccurs, behind, closes, within⟩
          · intro ⟨footer, other, after, occurs, otherBehind, otherCloses, within⟩
            have first := firstFooter footer after occurs
            have last := firstClose other (by omega) otherCloses
            omega

theorem closedBefore_iff {headerEnd : Nat} (inside : position < bytes.length)
    (header : endOfFirst privateKeyTail bytes opened = some headerEnd) :
    ClosedBefore bytes opened position ↔ privateKeyStop bytes headerEnd ≤ position := by
  obtain ⟨first, after, occurs, rfl, isFirst⟩ := endOfFirst_eq_some header
  rw [privateKeyStop_le inside]
  constructor
  · intro ⟨other, footer, close, otherAfter, otherOccurs, behind, rest⟩
    have before := isFirst other otherAfter otherOccurs
    exact ⟨footer, close, by omega, rest⟩
  · intro ⟨footer, close, behind, rest⟩
    exact ⟨first, footer, close, after, occurs, behind, rest⟩

theorem scanPrivateKeys_covers (inside : position < bytes.length) :
    (∃ finding ∈ scanPrivateKeys bytes, finding.start < position ∧ position < finding.stop) ↔
      InPrivateKey bytes position := by
  constructor
  · intro ⟨finding, found, after, before⟩
    obtain ⟨opened, occurs, isFinding⟩ := List.mem_filterMap.mp found
    obtain ⟨headerEnd, header, rfl⟩ := Option.map_eq_some_iff.mp isFinding
    obtain ⟨first, behind, firstOccurs, -⟩ := endOfFirst_eq_some header
    refine ⟨opened, after, (occursAt_of_mem_occurrencesFrom occurs).1,
      ⟨first, behind, firstOccurs⟩, ?_⟩
    rw [closedBefore_iff inside header]
    exact Nat.not_le.mpr before
  · intro ⟨opened, before, begins, ⟨first, behind, firstOccurs⟩, unclosed⟩
    cases header : endOfFirst privateKeyTail bytes opened with
    | none =>
        exact absurd firstOccurs
          (findFirst_drop_eq_none (by decide) (Option.map_eq_none_iff.mp header) behind)
    | some headerEnd =>
        rw [closedBefore_iff inside header, Nat.not_le] at unclosed
        have listed : opened ∈ occurrencesFrom privateKeyBegin bytes 0 :=
          (mem_occurrencesFrom (by decide) (by decide)).mpr ⟨begins, Nat.zero_le _⟩
        exact ⟨_, List.mem_filterMap.mpr ⟨opened, listed, by rw [header]; rfl⟩, before, unclosed⟩

theorem scanPrivateKeys_start {finding : PrivacyFinding} (found : finding ∈ scanPrivateKeys bytes) :
    bytes[finding.start]? ≠ some filler := by
  obtain ⟨opened, occurs, isFinding⟩ := List.mem_filterMap.mp found
  obtain ⟨headerEnd, -, rfl⟩ := Option.map_eq_some_iff.mp isFinding
  have length : privateKeyBegin.length = 11 := by decide
  exact occursAt_ne_filler (occursAt_of_mem_occurrencesFrom occurs).1 (by decide)
    (Nat.le_refl _) (by rw [length]; exact Nat.lt_add_of_pos_right (by decide))

end PrivateKeys

/-! ### Assigned credentials -/

/-- All bytes of a range pass a test. -/
def AllBetween (test : UInt8 → Bool) (bytes : Bytes) (first last : Nat) : Prop :=
  first ≤ last ∧ ∀ index, first ≤ index → index < last → ByteAt test bytes index

def quoteAt (bytes : Bytes) (index : Nat) : Option UInt8 :=
  (bytes[index]?).filter (oneOf "'\"")

/-- Where a value starts that is assigned behind an opening index. -/
def valueStart (bytes : Bytes) (opening : Nat) : Nat :=
  if (quoteAt bytes opening).isSome then opening + 1 else opening

/-- Where a value ends that is assigned behind an opening index. -/
def valueStop (bytes : Bytes) (opening : Nat) : Nat :=
  advance (fun index byte => index - valueStart bytes opening < 4096 &&
    isValueByte (quoteAt bytes opening) byte) bytes (valueStart bytes opening)

/-- The name of a credential stands at a start, its sign at `sign`, and only
blanks between the sign and `opening`. -/
structure Assigns (bytes : Bytes) (name : String) (start sign opening : Nat) : Prop where
  occurs : OccursAt (asBytes name) (asciiLowercase bytes) start
  before : boundaryBefore bytes start = true
  gap : AllBetween isNameGap bytes (start + (asBytes name).length) sign
  isSign : ByteAt (oneOf "=:") bytes sign
  blank : AllBetween isAsciiWhitespace bytes (sign + 1) opening

/-- The value behind an opening index goes on up to a position, and is no
redaction marker. -/
structure ValueUpTo (bytes : Bytes) (opening position : Nat) : Prop where
  goesOn : AllBetween (isValueByte (quoteAt bytes opening)) bytes (valueStart bytes opening) position
  within : position < valueStart bytes opening + 4096
  notRedacted : ¬ OccursAt (asBytes "[REDACTED:") bytes (valueStart bytes opening)

/-- The position is in the value of a credential that was assigned before it. -/
def InCredential (bytes : Bytes) (position : Nat) : Prop :=
  ∃ name ∈ credentialNames, ∃ start sign opening,
    Assigns bytes name start sign opening ∧ ValueUpTo bytes opening position

section Credentials

variable {bytes : Bytes} {name : String} {position start sign opening : Nat}

theorem quoteAt_eq_some {quote : UInt8} :
    quoteAt bytes opening = some quote ↔
      bytes[opening]? = some quote ∧ oneOf "'\"" quote = true := by
  simp [quoteAt, Option.filter_eq_some_iff]

theorem isValueByte_quoteAt {byte : UInt8} (plain : isValueByte none byte = true)
    (noQuote : oneOf "'\"" byte = false) : isValueByte (quoteAt bytes opening) byte = true := by
  cases isQuote : quoteAt bytes opening with
  | none => exact plain
  | some quote =>
      have quotes := (quoteAt_eq_some.mp isQuote).2
      simp only [isValueByte, ne_eq, decide_not, Bool.not_eq_eq_eq_not, Bool.not_true,
        decide_eq_false_iff_not]
      intro same
      rw [same, quotes] at noQuote
      cases noQuote

theorem isValueByte_filler : isValueByte (quoteAt bytes opening) filler = true :=
  isValueByte_quoteAt (by decide) (by decide)

theorem isValueByte_idByte {byte : UInt8} (idByte : isIdByte byte = true) :
    isValueByte (quoteAt bytes opening) byte = true := by
  have plain : ∀ byte, isIdByte byte = true →
      isValueByte none byte = true ∧ oneOf "'\"" byte = false := by
    decide +kernel
  exact isValueByte_quoteAt (plain byte idByte).1 (plain byte idByte).2

theorem Assigns.before_value (assigns : Assigns bytes name start sign opening) :
    ∃ index, valueStart bytes opening = index + 1 ∧ bytes[index]? ≠ some filler := by
  have after := assigns.blank.1
  unfold valueStart
  cases isQuote : quoteAt bytes opening with
  | some quote =>
      obtain ⟨found, quotes⟩ := quoteAt_eq_some.mp isQuote
      exact ⟨opening, by simp, ByteAt.ne_filler (byteAt_iff.mpr ⟨quote, found, quotes⟩)
        (by decide)⟩
  | none =>
      refine ⟨opening - 1, by simp; omega, ?_⟩
      rcases Nat.eq_or_lt_of_le after with same | blanks
      · rw [show opening - 1 = sign by omega]
        exact assigns.isSign.ne_filler (by decide)
      · exact (assigns.blank.2 (opening - 1) (by omega) (by omega)).ne_filler (by decide)

theorem exists_assigns {nameLength : Nat} {range : Nat × Nat}
    (value : assignedValue bytes (start + nameLength) = some range) :
    ∃ sign opening, AllBetween isNameGap bytes (start + nameLength) sign ∧
      ByteAt (oneOf "=:") bytes sign ∧ AllBetween isAsciiWhitespace bytes (sign + 1) opening ∧
      range = (valueStart bytes opening, valueStop bytes opening) := by
  unfold assignedValue at value
  simp only [Option.ite_none_right_eq_some, Option.some.injEq] at value
  obtain ⟨isSign, rfl⟩ := value
  exact ⟨_, _, ⟨le_advance, fun index after before => advance_byteAt after before (by simp)⟩, isSign,
    ⟨le_advance, fun index after before => advance_byteAt after before (by simp)⟩, rfl⟩

theorem Assigns.assignedValue_eq (assigns : Assigns bytes name start sign opening)
    (stops : ¬ ByteAt isAsciiWhitespace bytes opening) :
    assignedValue bytes (start + (asBytes name).length) =
      some (valueStart bytes opening, valueStop bytes opening) := by
  have atSign : advance (fun _ => isNameGap) bytes (start + (asBytes name).length) = sign := by
    refine advance_eq assigns.gap.1 (fun index after before =>
      byteAt_iff.mp (assigns.gap.2 index after before)) fun item found => ?_
    obtain ⟨byte, same, isSign⟩ := byteAt_iff.mp assigns.isSign
    rw [found] at same
    cases same
    have noGap : ∀ byte, oneOf "=:" byte = true → isNameGap byte = false := by decide +kernel
    exact noGap item isSign
  have atOpening : advance (fun _ => isAsciiWhitespace) bytes (sign + 1) = opening := by
    refine advance_eq assigns.blank.1 (fun index after before =>
      byteAt_iff.mp (assigns.blank.2 index after before)) fun item found => ?_
    by_contra blank
    exact stops (byteAt_iff.mpr ⟨item, found, by simpa using blank⟩)
  unfold assignedValue
  simp only [atSign, atOpening]
  rw [if_pos assigns.isSign]
  rfl

theorem ValueUpTo.not_blank (value : ValueUpTo bytes opening position)
    (last : ¬ ByteAt isAsciiWhitespace bytes position) :
    ¬ ByteAt isAsciiWhitespace bytes opening := by
  intro blank
  obtain ⟨after, goesOn⟩ := value.goesOn
  unfold valueStart at after goesOn
  cases isQuote : quoteAt bytes opening with
  | some quote =>
      obtain ⟨found, quotes⟩ := quoteAt_eq_some.mp isQuote
      have isQuoteByte : ByteAt (oneOf "'\"") bytes opening :=
        byteAt_iff.mpr ⟨quote, found, quotes⟩
      exact isQuoteByte.exclude blank (by decide +kernel)
  | none =>
      rw [isQuote] at after goesOn
      simp only [Option.isSome_none, Bool.false_eq_true, if_false] at after goesOn
      rcases Nat.eq_or_lt_of_le after with same | later
      · exact last (same ▸ blank)
      · exact (goesOn opening (Nat.le_refl _) later).exclude blank (by decide +kernel)

theorem isRedactionMarker_slice {first stop : Nat} (after : first ≤ position)
    (before : position < stop) (isFiller : bytes[position]? = some filler) :
    isRedactionMarker (slice bytes first stop) = true ↔
      OccursAt (asBytes "[REDACTED:") bytes first := by
  have inSlice : filler ∈ slice bytes first stop := by
    refine List.mem_iff_getElem?.mpr ⟨position - first, ?_⟩
    rw [getElem?_slice, if_pos (by omega), show first + (position - first) = position by omega,
      isFiller]
  have notEmptyMarker : slice bytes first stop ≠ asBytes "[REDACTED]" := by
    intro same
    rw [same] at inSlice
    exact absurd inSlice (by decide)
  have length : (asBytes "[REDACTED:").length = 10 := by decide
  have clear : filler ∉ asBytes "[REDACTED:" := by decide
  simp only [isRedactionMarker, Bool.or_eq_true, List.isPrefixOf_iff_prefix, decide_eq_true_eq,
    notEmptyMarker, or_false]
  rw [slice, List.prefix_take_iff]
  refine ⟨And.left, fun marker => ⟨marker, ?_⟩⟩
  by_contra short
  exact occursAt_ne_filler marker clear after (by omega) isFiller

theorem scanAssignedCredentials_covers
    (run : ∀ offset < idLength, bytes[position + offset]? = some filler) :
    (∃ finding ∈ scanAssignedCredentials bytes, ∃ offset < idLength,
        finding.Covers (position + offset)) ↔
      InCredential bytes position := by
  have atStart := run 0 (by decide)
  rw [Nat.add_zero] at atStart
  constructor
  · intro ⟨finding, found, offset, inside, covers⟩
    obtain ⟨name, known, listed⟩ := List.mem_flatMap.mp found
    obtain ⟨start, occurs, isFinding⟩ := List.mem_filterMap.mp listed
    unfold assignedFindingAt at isFinding
    rw [Option.ite_none_right_eq_some, Option.bind_eq_some_iff] at isFinding
    obtain ⟨before, range, value, isFinding⟩ := isFinding
    obtain ⟨sign, opening, gap, isSign, blank, rfl⟩ := exists_assigns value
    simp only [Option.ite_none_right_eq_some, Option.some.injEq, Bool.and_eq_true,
      Bool.not_eq_true'] at isFinding
    obtain ⟨⟨-, notMarker⟩, rfl⟩ := isFinding
    obtain ⟨after, beforeStop⟩ := covers
    simp only at after beforeStop
    have assigns : Assigns bytes name start sign opening :=
      ⟨(occursAt_of_mem_occurrencesFrom occurs).1, before, gap, isSign, blank⟩
    have valueFirst : valueStart bytes opening ≤ position := by
      obtain ⟨index, isIndex, visible⟩ := assigns.before_value
      by_contra late
      have inRun := run (index - position) (by omega)
      rw [show position + (index - position) = index by omega] at inRun
      exact visible inRun
    have reached : position < valueStop bytes opening := by omega
    refine ⟨name, known, start, sign, opening, assigns,
      ⟨⟨valueFirst, fun index after inValue =>
        advance_byteAt after (Nat.lt_trans inValue reached) (by simp)⟩, ?_, ?_⟩⟩
    · obtain ⟨byte, -, passes⟩ := advance_passed valueFirst reached
      simp only [Bool.and_eq_true, decide_eq_true_eq] at passes
      omega
    · rw [← isRedactionMarker_slice valueFirst reached atStart, notMarker]
      exact Bool.false_ne_true
  · intro ⟨name, known, start, sign, opening, assigns, value⟩
    have valueFirst := value.goesOn.1
    have withinValue := value.within
    have inValue (index : Nat) (after : valueStart bytes opening ≤ index)
        (before : index < position + idLength)
        (near : index < valueStart bytes opening + 4096) :
        ∃ byte, bytes[index]? = some byte ∧
          (index - valueStart bytes opening < 4096 && isValueByte (quoteAt bytes opening) byte) =
            true := by
      have isNear : index - valueStart bytes opening < 4096 := by omega
      rcases Nat.lt_or_ge index position with earlier | inRun
      · obtain ⟨byte, found, passes⟩ := byteAt_iff.mp (value.goesOn.2 index after earlier)
        exact ⟨byte, found, by simp [isNear, passes]⟩
      · have here := run (index - position) (by omega)
        rw [show position + (index - position) = index by omega] at here
        exact ⟨filler, here, by simp [isNear, isValueByte_filler]⟩
    have reached : position < valueStop bytes opening :=
      lt_advance fun index after within =>
        inValue index after (by unfold idLength; omega) (by omega)
    have long : valueStart bytes opening + 7 < valueStop bytes opening :=
      lt_advance fun index after within =>
        inValue index after (by unfold idLength; omega) (by omega)
    have notMarker : isRedactionMarker
        (slice bytes (valueStart bytes opening) (valueStop bytes opening)) = false := by
      rw [Bool.eq_false_iff, ne_eq, isRedactionMarker_slice valueFirst reached atStart]
      exact value.notRedacted
    have noBlank : ¬ ByteAt isAsciiWhitespace bytes position :=
      fun blank => ByteAt.ne_filler blank (by decide) atStart
    have unborderedNames : ∀ name ∈ credentialNames, Unbordered (asBytes name) ∧
        asBytes name ≠ [] := by
      decide
    have isFinding : assignedFindingAt bytes (asBytes name).length start =
        some ⟨.assignedCredential, valueStart bytes opening, valueStop bytes opening⟩ := by
      unfold assignedFindingAt
      rw [if_pos assigns.before, assigns.assignedValue_eq (value.not_blank noBlank)]
      simp only [Option.bind_some, notMarker, Bool.not_false, Bool.and_true]
      rw [if_pos (by simp; omega)]
    refine ⟨_, List.mem_flatMap.mpr ⟨name, known, List.mem_filterMap.mpr ⟨start, ?_, isFinding⟩⟩,
      0, by decide, valueFirst, reached⟩
    obtain ⟨unbordered, inside⟩ := unborderedNames name known
    exact (mem_occurrencesFrom unbordered inside).mpr ⟨assigns.occurs, Nat.zero_le _⟩

end Credentials

/-! ### Credentials in masked bytes -/

section MaskedCredentials

variable {bytes : Bytes} {name : String} {position start sign opening index : Nat}

theorem byteAt_unmask {test : UInt8 → Bool} (stops : test filler = false)
    (passes : ByteAt test (masked bytes) index) : ByteAt test bytes index := by
  have visible := passes.ne_filler stops
  rwa [ByteAt, getElem?_masked_of_not_covered (not_covered_of_masked visible)] at passes

theorem byteAt_mask {test : UInt8 → Bool} (foreign : ∀ byte, test byte = true → isIdByte byte = false)
    (passes : ByteAt test bytes index) : ByteAt test (masked bytes) index := by
  have free : ¬ Covered bytes index := fun covered => passes.exclude covered.isIdByte foreign
  rwa [ByteAt, getElem?_masked_of_not_covered free]

theorem byteAt_masked_iff {test : UInt8 → Bool} (stops : test filler = false)
    (foreign : ∀ byte, test byte = true → isIdByte byte = false) :
    ByteAt test (masked bytes) index ↔ ByteAt test bytes index :=
  ⟨byteAt_unmask stops, byteAt_mask foreign⟩

theorem byteAt_masked_iff_of_passes {test : UInt8 → Bool} (passes : test filler = true)
    (idPasses : ∀ byte, isIdByte byte = true → test byte = true) :
    ByteAt test (masked bytes) index ↔ ByteAt test bytes index := by
  by_cases covered : Covered bytes index
  · exact iff_of_true
      (byteAt_iff.mpr ⟨filler, getElem?_masked_of_covered covered, passes⟩)
      (covered.isIdByte.weaken idPasses)
  · rw [ByteAt, getElem?_masked_of_not_covered covered]

theorem quoteAt_masked : quoteAt (masked bytes) opening = quoteAt bytes opening := by
  by_cases covered : Covered bytes opening
  · obtain ⟨byte, found, idByte⟩ := byteAt_iff.mp covered.isIdByte
    have noQuote : ∀ byte, isIdByte byte = true → oneOf "'\"" byte = false := by decide +kernel
    have fillerNoQuote : oneOf "'\"" filler = false := by decide
    simp [quoteAt, getElem?_masked_of_covered covered, found, Option.filter, noQuote byte idByte,
      fillerNoQuote]
  · rw [quoteAt, getElem?_masked_of_not_covered covered]
    rfl

theorem valueStart_masked : valueStart (masked bytes) opening = valueStart bytes opening := by
  rw [valueStart, quoteAt_masked]
  rfl

theorem valueUpTo_masked :
    ValueUpTo (masked bytes) opening position ↔ ValueUpTo bytes opening position := by
  have sameBytes (index : Nat) :
      ByteAt (isValueByte (quoteAt bytes opening)) (masked bytes) index ↔
        ByteAt (isValueByte (quoteAt bytes opening)) bytes index :=
    byteAt_masked_iff_of_passes isValueByte_filler fun _ => isValueByte_idByte
  have sameMarker (index : Nat) : OccursAt (asBytes "[REDACTED:") (masked bytes) index ↔
      OccursAt (asBytes "[REDACTED:") bytes index :=
    occursAt_masked_iff (by decide) (by decide)
  constructor
  · intro ⟨goesOn, within, notRedacted⟩
    simp only [AllBetween, quoteAt_masked, valueStart_masked, sameBytes, sameMarker] at *
    exact ⟨goesOn, within, notRedacted⟩
  · intro ⟨goesOn, within, notRedacted⟩
    refine ⟨?_, ?_, ?_⟩
    all_goals simp only [AllBetween, quoteAt_masked, valueStart_masked, sameBytes, sameMarker]
    exacts [goesOn, within, notRedacted]

theorem getElem?_asciiLowercase_eq {needle : Bytes} (occurs : OccursAt needle (asciiLowercase bytes) start)
    {offset : Nat} (inside : offset < needle.length) :
    (bytes[start + offset]?).map toAsciiLowercase = needle[offset]? := by
  rw [← getElem?_asciiLowercase]
  exact occurs.getElem?_eq inside

theorem Assigns.not_covered (assigns : Assigns bytes name start sign opening)
    (known : name ∈ credentialNames) {offset : Nat} (inside : offset < (asBytes name).length) :
    ¬ Covered bytes (start + offset) := by
  have nameFacts : ∀ name ∈ credentialNames, (asBytes name).length ≤ 13 ∧
      ByteAt isAsciiLowercase (asBytes name) 0 ∧
      ∃ offset < 12, offset < (asBytes name).length ∧ ¬ ByteAt isHexDigit (asBytes name) offset := by
    decide
  obtain ⟨short, firstLetter, strange, strangeBefore, strangeInside, noDigit⟩ :=
    nameFacts name known
  have nameByte {test : UInt8 → Bool} {offset : Nat} (inside : offset < (asBytes name).length)
      (lower : ∀ byte, test byte = true → test (toAsciiLowercase byte) = true)
      (passes : ByteAt test bytes (start + offset)) : ByteAt test (asBytes name) offset := by
    obtain ⟨byte, found, holds⟩ := byteAt_iff.mp passes
    have same := getElem?_asciiLowercase_eq assigns.occurs inside
    rw [found] at same
    exact byteAt_iff.mpr ⟨_, same.symm, lower byte holds⟩
  intro ⟨idStart, isId, after, before⟩
  have shape := isId.shape
  -- the byte behind the name is no byte of an identifier
  have behind : ¬ Covered bytes (start + (asBytes name).length) := by
    intro covered
    rcases Nat.eq_or_lt_of_le assigns.gap.1 with same | later
    · rw [same] at covered
      exact assigns.isSign.exclude covered.isIdByte (by decide +kernel)
    · exact (assigns.gap.2 _ (Nat.le_refl _) later).exclude covered.isIdByte (by decide +kernel)
  have ends : idStart + idLength ≤ start + (asBytes name).length := by
    by_contra beyond
    exact behind ⟨idStart, isId, by omega, by omega⟩
  unfold idLength at ends before
  rcases Nat.lt_trichotomy start (idStart + 28) with early | same | late
  · -- the name would start with the last hyphen
    have hyphen : uuidHyphenOffsets.contains 23 = true := rfl
    have here := shape.uuid 23 (by decide)
    unfold isUuidByte at here
    simp only [hyphen, if_true] at here
    rw [show idStart + 4 + 23 = start + 0 by omega] at here
    have isHyphen := nameByte (by omega) (by decide +kernel) here
    exact firstLetter.exclude isHyphen (by decide +kernel)
  · -- the name would start with the digits of the last group
    have digit := shape.lastGroup strangeBefore
    rw [← same] at digit
    exact noDigit (nameByte strangeInside (by decide +kernel) digit)
  · -- a digit would stand before the name
    have digit := shape.lastGroup (show start - 1 - (idStart + 28) < 12 by omega)
    rw [show idStart + 28 + (start - 1 - (idStart + 28)) = start - 1 by omega] at digit
    have free := assigns.before
    rw [show start = start - 1 + 1 by omega, boundaryBefore_succ] at free
    exact free (digit.weaken (by decide +kernel))

theorem assigns_masked (known : name ∈ credentialNames) :
    Assigns (masked bytes) name start sign opening ↔ Assigns bytes name start sign opening := by
  have gapByte (index : Nat) : ByteAt isNameGap (masked bytes) index ↔ ByteAt isNameGap bytes index :=
    byteAt_masked_iff (by decide +kernel) (by decide +kernel)
  have signByte (index : Nat) :
      ByteAt (oneOf "=:") (masked bytes) index ↔ ByteAt (oneOf "=:") bytes index :=
    byteAt_masked_iff (by decide +kernel) (by decide +kernel)
  have blankByte (index : Nat) :
      ByteAt isAsciiWhitespace (masked bytes) index ↔ ByteAt isAsciiWhitespace bytes index :=
    byteAt_masked_iff (by decide +kernel) (by decide +kernel)
  constructor
  · intro assigns
    have nameFacts : ∀ name ∈ credentialNames, filler ∉ asBytes name ∧
        ByteAt isAsciiLowercase (asBytes name) 0 ∧ 0 < (asBytes name).length := by
      decide
    obtain ⟨clear, firstLetter, notEmpty⟩ := nameFacts name known
    have free {offset : Nat} (inside : offset < (asBytes name).length) :
        ¬ Covered bytes (start + offset) := by
      intro covered
      have same := getElem?_asciiLowercase_eq assigns.occurs inside
      rw [getElem?_masked_of_covered covered] at same
      have lowerFiller : toAsciiLowercase filler = filler := by decide
      simp only [Option.map_some, lowerFiller] at same
      rw [List.getElem?_eq_getElem inside] at same
      exact clear (Option.some.inj same ▸ List.getElem_mem inside)
    have occurs : OccursAt (asBytes name) (asciiLowercase bytes) start := by
      refine occursAt_iff.mpr fun offset inside => ?_
      rw [← occursAt_iff.mp assigns.occurs offset inside, getElem?_asciiLowercase,
        getElem?_asciiLowercase, getElem?_masked_of_not_covered (free inside)]
    refine ⟨occurs, ?_, ?_, (signByte sign).mp assigns.isSign, ?_⟩
    · cases start with
      | zero => rfl
      | succ previous =>
          rw [boundaryBefore_succ]
          intro alphanumeric
          have hidden : Covered bytes previous := by
            by_contra visible
            refine boundaryBefore_succ.mp assigns.before ?_
            rwa [ByteAt, getElem?_masked_of_not_covered visible]
          obtain ⟨idStart, isId, after, before⟩ := hidden
          -- the identifier would end where the name starts
          have ends : idStart + idLength = previous + 1 + 0 := by
            by_contra goesOn
            exact free notEmpty ⟨idStart, isId, by omega, by omega⟩
          refine isId.shape.not_alphanumeric_after ?_
          rw [ends]
          obtain ⟨letter, isLetter, lowercase⟩ := byteAt_iff.mp firstLetter
          have same := getElem?_asciiLowercase_eq occurs notEmpty
          rw [isLetter] at same
          obtain ⟨byte, found, lowered⟩ := Option.map_eq_some_iff.mp same
          have original : ∀ byte, isAsciiLowercase (toAsciiLowercase byte) = true →
              isAsciiAlphanumeric byte = true := by
            decide +kernel
          exact byteAt_iff.mpr ⟨byte, found, original byte (lowered ▸ lowercase)⟩
    · exact ⟨assigns.gap.1, fun index after before =>
        (gapByte index).mp (assigns.gap.2 index after before)⟩
    · exact ⟨assigns.blank.1, fun index after before =>
        (blankByte index).mp (assigns.blank.2 index after before)⟩
  · intro assigns
    refine ⟨?_, ?_, ?_, (signByte sign).mpr assigns.isSign, ?_⟩
    · refine occursAt_iff.mpr fun offset inside => ?_
      rw [← occursAt_iff.mp assigns.occurs offset inside, getElem?_asciiLowercase,
        getElem?_asciiLowercase,
        getElem?_masked_of_not_covered (assigns.not_covered known inside)]
    · cases start with
      | zero => rfl
      | succ previous =>
          rw [boundaryBefore_succ]
          intro alphanumeric
          exact boundaryBefore_succ.mp assigns.before
            (byteAt_unmask (by decide) alphanumeric)
    · exact ⟨assigns.gap.1, fun index after before =>
        (gapByte index).mpr (assigns.gap.2 index after before)⟩
    · exact ⟨assigns.blank.1, fun index after before =>
        (blankByte index).mpr (assigns.blank.2 index after before)⟩

theorem inCredential_masked :
    InCredential (masked bytes) position ↔ InCredential bytes position := by
  unfold InCredential
  refine exists_congr fun name => and_congr_right fun known => ?_
  simp only [assigns_masked known, valueUpTo_masked]

end MaskedCredentials

end SharedContext.LocalState
