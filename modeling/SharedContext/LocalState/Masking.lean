import SharedContext.LocalState.Privacy

/-!
# What masking leaves

Two identifiers of the system never overlap, so masking puts the filler over
the bytes of every identifier and leaves all other bytes.  Which UUID an
identifier has makes no difference to the masked bytes.
-/

namespace SharedContext.LocalState

/-- What holds of all bytes is checked one byte at a time. -/
instance decidableForallByte (holds : UInt8 → Prop) [DecidablePred holds] :
    Decidable (∀ byte, holds byte) :=
  decidable_of_iff (∀ code : Fin 256, holds (UInt8.ofFin code))
    ⟨fun all byte => all byte.toFin, fun all _ => all _⟩

def filler : UInt8 := '#'.toUInt8

/-- The byte at an index passes a test. -/
abbrev ByteAt (test : UInt8 → Bool) (bytes : Bytes) (index : Nat) : Prop :=
  (bytes[index]?).any test = true

theorem byteAt_iff {test : UInt8 → Bool} {bytes : Bytes} {index : Nat} :
    ByteAt test bytes index ↔ ∃ byte, bytes[index]? = some byte ∧ test byte = true := by
  simp [ByteAt, Option.any_eq_true]

theorem ByteAt.weaken {test other : UInt8 → Bool} {bytes : Bytes} {index : Nat}
    (passes : ByteAt test bytes index) (weaker : ∀ byte, test byte = true → other byte = true) :
    ByteAt other bytes index := by
  obtain ⟨byte, found, holds⟩ := byteAt_iff.mp passes
  exact byteAt_iff.mpr ⟨byte, found, weaker byte holds⟩

theorem ByteAt.exclude {test other : UInt8 → Bool} {bytes : Bytes} {index : Nat}
    (passes : ByteAt test bytes index) (otherPasses : ByteAt other bytes index)
    (exclusive : ∀ byte, test byte = true → other byte = false) : False := by
  obtain ⟨byte, found, holds⟩ := byteAt_iff.mp passes
  obtain ⟨same, sameFound, otherHolds⟩ := byteAt_iff.mp otherPasses
  rw [found] at sameFound
  cases sameFound
  rw [exclusive byte holds] at otherHolds
  cases otherHolds

theorem boundaryBefore_succ {bytes : Bytes} {index : Nat} :
    boundaryBefore bytes (index + 1) = true ↔ ¬ ByteAt isAsciiAlphanumeric bytes index := by
  cases found : bytes[index]? <;> simp [boundaryBefore, ByteAt, found]

theorem boundaryAfter_iff {bytes : Bytes} {index : Nat} :
    boundaryAfter bytes index = true ↔ ¬ ByteAt isAsciiAlphanumeric bytes index := by
  cases found : bytes[index]? <;> simp [boundaryAfter, ByteAt, found]

theorem getElem?_slice {bytes : Bytes} {start stop index : Nat} :
    (slice bytes start stop)[index]? =
      if index < stop - start then bytes[start + index]? else none := by
  rw [slice, List.getElem?_take, List.getElem?_drop]

/-! ### The shape of an identifier -/

/-- The test of the byte of a UUID at an offset. -/
def isUuidByte (offset : Nat) (byte : UInt8) : Bool :=
  if uuidHyphenOffsets.contains offset then byte = '-'.toUInt8 else isHexDigit byte

theorem isCanonicalUuidV4_iff {candidate : Bytes} :
    isCanonicalUuidV4 candidate = true ↔
      candidate.length = 36 ∧
      (∀ offset < 36, ByteAt (isUuidByte offset) candidate offset) ∧
      candidate[uuidVersionOffset]? = some '4'.toUInt8 ∧
      ByteAt (oneOf "89ab") candidate uuidVariantOffset := by
  unfold isCanonicalUuidV4 canonicalUuidLength
  simp only [Bool.and_eq_true, decide_eq_true_eq, and_assoc]
  refine and_congr_right fun isLength => and_congr ?_ Iff.rfl
  rw [List.all_eq_true]
  constructor
  · intro all offset inside
    have here : candidate[offset]? = some (candidate[offset]) :=
      List.getElem?_eq_getElem (by omega)
    have member : (candidate[offset], offset) ∈ candidate.zipIdx := by
      rw [List.mem_zipIdx_iff_getElem?]
      exact here
    exact byteAt_iff.mpr ⟨_, here, by simpa [isUuidByte] using all _ member⟩
  · intro all entry member
    have here := List.mem_zipIdx_iff_getElem?.mp member
    have inside := (List.getElem?_eq_some_iff.mp here).1
    obtain ⟨byte, found, passes⟩ := byteAt_iff.mp (all entry.2 (by omega))
    rw [here] at found
    cases found
    simpa [isUuidByte] using passes

def idLength : Nat := 40

def isIdByte (byte : UInt8) : Bool :=
  isAsciiLowercase byte || isAsciiDigit byte || oneOf "_-" byte

/-- An identifier of the system that nothing touches starts at an offset. -/
def DomainIdAt (bytes : Bytes) (start : Nat) : Prop :=
  ∃ idPrefix ∈ domainIdPrefixes,
    OccursAt (asBytes idPrefix) bytes start ∧ domainIdEnd bytes idPrefix start ≠ none

theorem length_idPrefix : ∀ idPrefix ∈ domainIdPrefixes, (asBytes idPrefix).length = 4 := by
  decide

theorem unbordered_idPrefix : ∀ idPrefix ∈ domainIdPrefixes, Unbordered (asBytes idPrefix) := by
  decide

theorem idPrefix_bytes : ∀ idPrefix ∈ domainIdPrefixes,
    (∀ offset < 3, ByteAt isAsciiLowercase (asBytes idPrefix) offset) ∧
      (asBytes idPrefix)[3]? = some '_'.toUInt8 := by
  decide

theorem domainIdEnd_eq_some {bytes : Bytes} {idPrefix : String} {start stop : Nat}
    (known : idPrefix ∈ domainIdPrefixes) :
    domainIdEnd bytes idPrefix start = some stop ↔
      boundaryBefore bytes start = true ∧
      isCanonicalUuidV4 (slice bytes (start + 4) (start + idLength)) = true ∧
      boundaryAfter bytes (start + idLength) = true ∧ stop = start + idLength := by
  unfold domainIdEnd matchCanonicalUuidV4
  rw [length_idPrefix idPrefix known, show start + 4 + canonicalUuidLength = start + idLength from rfl]
  by_cases before : boundaryBefore bytes start = true
  · by_cases canonical : isCanonicalUuidV4 (slice bytes (start + 4) (start + idLength)) = true
    · by_cases after : boundaryAfter bytes (start + idLength) = true
      · simp [before, canonical, after, Option.filter, eq_comm]
      · simp [before, canonical, after, Option.filter]
    · simp [before, canonical]
  · simp [before]

/-- Which bytes stand in and around an identifier. -/
structure IdShape (bytes : Bytes) (start : Nat) : Prop where
  letters : ∀ offset < 3, ByteAt isAsciiLowercase bytes (start + offset)
  underscore : bytes[start + 3]? = some '_'.toUInt8
  uuid : ∀ offset < 36, ByteAt (isUuidByte offset) bytes (start + 4 + offset)
  before : boundaryBefore bytes start = true
  after : boundaryAfter bytes (start + idLength) = true

theorem byteAt_slice {test : UInt8 → Bool} {bytes : Bytes} {start stop offset : Nat}
    (inside : offset < stop - start) :
    ByteAt test (slice bytes start stop) offset ↔ ByteAt test bytes (start + offset) := by
  simp only [ByteAt, getElem?_slice, if_pos inside]

theorem DomainIdAt.shape {bytes : Bytes} {start : Nat} (isId : DomainIdAt bytes start) :
    IdShape bytes start := by
  obtain ⟨idPrefix, known, occurs, ends⟩ := isId
  obtain ⟨stop, isEnd⟩ := Option.ne_none_iff_exists'.mp ends
  obtain ⟨before, canonical, after, -⟩ := (domainIdEnd_eq_some known).mp isEnd
  obtain ⟨-, digits, -⟩ := isCanonicalUuidV4_iff.mp canonical
  obtain ⟨letters, underscore⟩ := idPrefix_bytes idPrefix known
  have prefixByte (offset : Nat) (inside : offset < 4) :
      bytes[start + offset]? = (asBytes idPrefix)[offset]? := by
    have within : offset < (asBytes idPrefix).length := by
      rw [length_idPrefix idPrefix known]
      omega
    exact occurs.getElem?_eq within
  refine ⟨fun offset inside => ?_, ?_, fun offset inside => ?_, before, after⟩
  · rw [ByteAt, prefixByte offset (by omega)]
    exact letters offset inside
  · rw [prefixByte 3 (by omega)]
    exact underscore
  · have here := digits offset inside
    rwa [byteAt_slice (by unfold idLength; omega)] at here

namespace IdShape

variable {bytes : Bytes} {start index : Nat}

theorem isIdByte (shape : IdShape bytes start) (offset : Nat) (inside : offset < idLength) :
    ByteAt isIdByte bytes (start + offset) := by
  unfold idLength at inside
  rcases Nat.lt_trichotomy offset 3 with isLetter | isUnderscore | isUuid
  · exact (shape.letters offset isLetter).weaken (by decide +kernel)
  · subst isUnderscore
    exact byteAt_iff.mpr ⟨_, shape.underscore, by decide⟩
  · have here := shape.uuid (offset - 4) (by omega)
    rw [show start + 4 + (offset - 4) = start + offset by omega] at here
    refine here.weaken fun byte passes => ?_
    unfold isUuidByte at passes
    split at passes
    · rw [decide_eq_true_eq] at passes
      subst passes
      decide
    · have all : ∀ byte, isHexDigit byte = true → LocalState.isIdByte byte = true := by
        decide +kernel
      exact all byte passes

theorem underscore_unique (shape : IdShape bytes start) {offset : Nat} (inside : offset < idLength)
    (underscore : bytes[start + offset]? = some '_'.toUInt8) : offset = 3 := by
  have isUnderscore : ByteAt (fun byte => byte = '_'.toUInt8) bytes (start + offset) :=
    byteAt_iff.mpr ⟨_, underscore, by simp⟩
  unfold idLength at inside
  rcases Nat.lt_trichotomy offset 3 with isLetter | same | isUuid
  · exact ((shape.letters offset isLetter).exclude isUnderscore (by decide +kernel)).elim
  · exact same
  · have here := shape.uuid (offset - 4) (by omega)
    rw [show start + 4 + (offset - 4) = start + offset by omega] at here
    refine (here.exclude isUnderscore fun byte passes => ?_).elim
    unfold isUuidByte at passes
    split at passes
    · rw [decide_eq_true_eq] at passes
      subst passes
      decide
    · have all : ∀ byte, isHexDigit byte = true → decide (byte = '_'.toUInt8) = false := by
        decide +kernel
      exact all byte passes

theorem lastGroup (shape : IdShape bytes start) {offset : Nat} (inside : offset < 12) :
    ByteAt isHexDigit bytes (start + 28 + offset) := by
  have here := shape.uuid (24 + offset) (by omega)
  rw [show start + 4 + (24 + offset) = start + 28 + offset by omega] at here
  have noHyphen : uuidHyphenOffsets.contains (24 + offset) = false := by
    simp [uuidHyphenOffsets]
    omega
  unfold isUuidByte at here
  simpa only [noHyphen, Bool.false_eq_true, if_false] using here

theorem hyphen_between (shape : IdShape bytes start) {offset : Nat} (inside : offset < idLength)
    (hyphen : bytes[start + offset]? = some '-'.toUInt8) :
    ∃ previous, offset = previous + 1 ∧ ByteAt isHexDigit bytes (start + previous) ∧
      ByteAt isHexDigit bytes (start + offset + 1) := by
  have isHyphen : ByteAt (fun byte => byte = '-'.toUInt8) bytes (start + offset) :=
    byteAt_iff.mpr ⟨_, hyphen, by simp⟩
  have digit (position : Nat) (within : position < 36)
      (noHyphen : uuidHyphenOffsets.contains position = false) :
      ByteAt isHexDigit bytes (start + 4 + position) := by
    have here := shape.uuid position within
    unfold isUuidByte at here
    simpa only [noHyphen, Bool.false_eq_true, if_false] using here
  unfold idLength at inside
  rcases Nat.lt_trichotomy offset 3 with isLetter | same | isUuid
  · exact ((shape.letters offset isLetter).exclude isHyphen (by decide +kernel)).elim
  · rw [same, shape.underscore] at hyphen
    exact absurd hyphen (by decide)
  · have here : uuidHyphenOffsets.contains (offset - 4) = true := by
      by_contra noHyphen
      have digitHere := digit (offset - 4) (by omega) (by simpa using noHyphen)
      rw [show start + 4 + (offset - 4) = start + offset by omega] at digitHere
      exact digitHere.exclude isHyphen (by decide +kernel)
    have listed : offset = 12 ∨ offset = 17 ∨ offset = 22 ∨ offset = 27 := by
      simp [uuidHyphenOffsets] at here
      omega
    have notBefore : uuidHyphenOffsets.contains (offset - 5) = false := by
      rcases listed with rfl | rfl | rfl | rfl <;> rfl
    have notAfter : uuidHyphenOffsets.contains (offset - 3) = false := by
      rcases listed with rfl | rfl | rfl | rfl <;> rfl
    have digitBefore := digit (offset - 5) (by omega) notBefore
    have digitAfter := digit (offset - 3) (by omega) notAfter
    refine ⟨offset - 1, by omega, ?_, ?_⟩
    · rwa [show start + 4 + (offset - 5) = start + (offset - 1) by omega] at digitBefore
    · rwa [show start + 4 + (offset - 3) = start + offset + 1 by omega] at digitAfter

theorem not_alphanumeric_before (shape : IdShape bytes (index + 1)) :
    ¬ ByteAt isAsciiAlphanumeric bytes index :=
  boundaryBefore_succ.mp shape.before

theorem not_alphanumeric_after (shape : IdShape bytes start) :
    ¬ ByteAt isAsciiAlphanumeric bytes (start + idLength) :=
  boundaryAfter_iff.mp shape.after

theorem apart {first second : Nat} (firstShape : IdShape bytes first)
    (secondShape : IdShape bytes second) (ordered : first < second) :
    first + idLength < second := by
  have letterIsAlphanumeric : ∀ byte, isAsciiLowercase byte = true →
      isAsciiAlphanumeric byte = true := by decide +kernel
  have hexIsAlphanumeric : ∀ byte, isHexDigit byte = true →
      isAsciiAlphanumeric byte = true := by decide +kernel
  by_contra overlapping
  unfold idLength at overlapping
  have notInside : ¬ second + 3 < first + 40 := by
    intro inside
    have underscore := secondShape.underscore
    rw [show second + 3 = first + (second + 3 - first) by omega] at underscore
    have same := firstShape.underscore_unique (by unfold idLength; omega) underscore
    omega
  rcases Nat.lt_or_ge (first + 40) (second + 3) with within | atEnd
  · -- the first identifier would end before a letter of the second one
    have letter := (secondShape.letters (first + 40 - second) (by omega)).weaken letterIsAlphanumeric
    rw [show second + (first + 40 - second) = first + idLength by unfold idLength; omega] at letter
    exact firstShape.not_alphanumeric_after letter
  · -- the second identifier would start behind a digit of the first one
    have same : second = first + 28 + 8 + 1 := by omega
    subst same
    exact secondShape.not_alphanumeric_before
      ((firstShape.lastGroup (show 8 < 12 by omega)).weaken hexIsAlphanumeric)

end IdShape

/-! ### The masked bytes -/

def masked (bytes : Bytes) : Bytes :=
  (maskDomainIdSpans bytes).getD bytes

def Covered (bytes : Bytes) (index : Nat) : Prop :=
  ∃ start, DomainIdAt bytes start ∧ start ≤ index ∧ index < start + idLength

/-- The buffer has the filler at the covered indices and the bytes elsewhere. -/
def Fills (bytes : Bytes) (covered : Nat → Prop) (buffer : Option Bytes) : Prop :=
  ∀ index, (covered index → (buffer.getD bytes)[index]? = (bytes[index]?).map fun _ => filler) ∧
    (¬ covered index → (buffer.getD bytes)[index]? = bytes[index]?)

theorem getElem?_fill {bytes : Bytes} {start stop index : Nat} :
    (fill bytes start stop)[index]? =
      (bytes[index]?).map fun byte => if start ≤ index ∧ index < stop then filler else byte := by
  simp [fill, filler]

theorem Fills.congr {bytes : Bytes} {covered other : Nat → Prop} {buffer : Option Bytes}
    (fills : Fills bytes covered buffer) (same : ∀ index, covered index ↔ other index) :
    Fills bytes other buffer := by
  intro index
  rw [← same index]
  exact fills index

theorem Fills.fill {bytes : Bytes} {covered : Nat → Prop} {buffer : Option Bytes}
    (fills : Fills bytes covered buffer) (start stop : Nat) :
    Fills bytes (fun index => covered index ∨ start ≤ index ∧ index < stop)
      (some (LocalState.fill (buffer.getD bytes) start stop)) := by
  intro index
  obtain ⟨inside, outside⟩ := fills index
  rw [Option.getD_some, getElem?_fill]
  by_cases isCovered : covered index
  · rw [inside isCovered]
    simp [isCovered, Function.comp_def]
  · rw [outside isCovered]
    by_cases inRange : start ≤ index ∧ index < stop
    · simp [inRange]
    · simp [inRange, isCovered]

theorem fills_starts {bytes : Bytes} {idPrefix : String} (starts : List Nat)
    {covered : Nat → Prop} {buffer : Option Bytes} (fills : Fills bytes covered buffer) :
    Fills bytes
      (fun index => covered index ∨ ∃ start ∈ starts, ∃ stop,
        domainIdEnd bytes idPrefix start = some stop ∧ start ≤ index ∧ index < stop)
      (starts.foldl (fun buffer start =>
        match domainIdEnd bytes idPrefix start with
        | some uuidEnd => some (fill (buffer.getD bytes) start uuidEnd)
        | none => buffer) buffer) := by
  induction starts generalizing covered buffer with
  | nil => exact fills.congr (by simp)
  | cons start starts ih =>
      rw [List.foldl_cons]
      cases ends : domainIdEnd bytes idPrefix start with
      | none => exact (ih fills).congr (by simp [ends])
      | some stop => exact (ih (fills.fill start stop)).congr (by simp [ends, or_assoc])

theorem fills_prefixes {bytes : Bytes} (idPrefixes : List String)
    {covered : Nat → Prop} {buffer : Option Bytes} (fills : Fills bytes covered buffer) :
    Fills bytes
      (fun index => covered index ∨ ∃ idPrefix ∈ idPrefixes,
        ∃ start ∈ occurrencesFrom (asBytes idPrefix) bytes 0, ∃ stop,
          domainIdEnd bytes idPrefix start = some stop ∧ start ≤ index ∧ index < stop)
      (idPrefixes.foldl (fun buffer idPrefix =>
        (occurrencesFrom (asBytes idPrefix) bytes 0).foldl (fun buffer start =>
          match domainIdEnd bytes idPrefix start with
          | some uuidEnd => some (fill (buffer.getD bytes) start uuidEnd)
          | none => buffer) buffer) buffer) := by
  induction idPrefixes generalizing covered buffer with
  | nil => exact fills.congr (by simp)
  | cons idPrefix idPrefixes ih =>
      rw [List.foldl_cons]
      exact (ih (fills_starts _ fills)).congr (by simp [or_assoc])

theorem mem_occurrences_idPrefix {bytes : Bytes} {idPrefix : String}
    (known : idPrefix ∈ domainIdPrefixes) {start : Nat} :
    start ∈ occurrencesFrom (asBytes idPrefix) bytes 0 ↔
      OccursAt (asBytes idPrefix) bytes start := by
  have inside : asBytes idPrefix ≠ [] := by
    intro empty
    have isLength := length_idPrefix idPrefix known
    rw [empty] at isLength
    cases isLength
  rw [mem_occurrencesFrom (unbordered_idPrefix idPrefix known) inside]
  simp

theorem fills_masked (bytes : Bytes) : Fills bytes (Covered bytes) (maskDomainIdSpans bytes) := by
  have start : Fills bytes (fun _ => False) none := fun index => ⟨False.elim, fun _ => rfl⟩
  refine (fills_prefixes domainIdPrefixes start).congr fun index => ?_
  rw [false_or]
  constructor
  · intro ⟨idPrefix, known, start, found, stop, ends, after, before⟩
    have isEnd := ((domainIdEnd_eq_some known).mp ends).2.2.2
    refine ⟨start, ⟨idPrefix, known, (mem_occurrences_idPrefix known).mp found, ?_⟩, after, ?_⟩
    · simp [ends]
    · omega
  · intro ⟨start, ⟨idPrefix, known, occurs, ends⟩, after, before⟩
    obtain ⟨stop, isEnd⟩ := Option.ne_none_iff_exists'.mp ends
    have same := ((domainIdEnd_eq_some known).mp isEnd).2.2.2
    exact ⟨idPrefix, known, start, (mem_occurrences_idPrefix known).mpr occurs, stop, isEnd, after,
      by omega⟩

theorem Covered.isIdByte {bytes : Bytes} {index : Nat} (covered : Covered bytes index) :
    ByteAt isIdByte bytes index := by
  obtain ⟨start, isId, after, before⟩ := covered
  have idByte := isId.shape.isIdByte (index - start) (by omega)
  rwa [show start + (index - start) = index by omega] at idByte

theorem getElem?_masked_of_covered {bytes : Bytes} {index : Nat} (covered : Covered bytes index) :
    (masked bytes)[index]? = some filler := by
  obtain ⟨byte, found, -⟩ := byteAt_iff.mp covered.isIdByte
  rw [masked, (fills_masked bytes index).1 covered, found]
  rfl

theorem getElem?_masked_of_not_covered {bytes : Bytes} {index : Nat}
    (free : ¬ Covered bytes index) : (masked bytes)[index]? = bytes[index]? :=
  (fills_masked bytes index).2 free

theorem not_covered_of_masked {bytes : Bytes} {index : Nat}
    (clear : (masked bytes)[index]? ≠ some filler) : ¬ Covered bytes index :=
  fun covered => clear (getElem?_masked_of_covered covered)

/-! ### Another UUID -/

theorem DomainIdAt.congr {bytes other : Bytes} {start : Nat} (isId : DomainIdAt bytes start)
    (same : ∀ index, start ≤ index + 1 → index ≤ start + idLength →
      other[index]? = bytes[index]?) :
    DomainIdAt other start := by
  obtain ⟨idPrefix, known, occurs, ends⟩ := isId
  obtain ⟨stop, isEnd⟩ := Option.ne_none_iff_exists'.mp ends
  obtain ⟨before, canonical, after, -⟩ := (domainIdEnd_eq_some known).mp isEnd
  refine ⟨idPrefix, known, ?_, ?_⟩
  · rw [occursAt_iff] at occurs ⊢
    intro index inside
    have isLength := length_idPrefix idPrefix known
    rw [same _ (by omega) (by unfold idLength; omega)]
    exact occurs index inside
  · have otherEnd : domainIdEnd other idPrefix start = some (start + idLength) := by
      refine (domainIdEnd_eq_some known).mpr ⟨?_, ?_, ?_, rfl⟩
      · cases start with
        | zero => rfl
        | succ start =>
            rw [boundaryBefore_succ, ByteAt] at before ⊢
            rwa [same start (by omega) (by omega)]
      · have sameSlice : slice other (start + 4) (start + idLength) =
            slice bytes (start + 4) (start + idLength) := by
          refine List.ext_getElem? fun offset => ?_
          simp only [getElem?_slice]
          split
          · exact same _ (by omega) (by omega)
          · rfl
        rwa [sameSlice]
      · rw [boundaryAfter_iff, ByteAt] at after ⊢
        rwa [same _ (by omega) (by omega)]
    simp [otherEnd]

/-- Two texts that are the same but for the UUID of one identifier. -/
structure OtherUuid (start : Nat) (bytes other : Bytes) : Prop where
  isId : DomainIdAt bytes start
  otherIsId : DomainIdAt other start
  same : ∀ index, index < start + 4 ∨ start + idLength ≤ index → other[index]? = bytes[index]?

namespace OtherUuid

variable {start : Nat} {bytes other : Bytes}

theorem symm (changed : OtherUuid start bytes other) : OtherUuid start other bytes :=
  ⟨changed.otherIsId, changed.isId, fun index outside => (changed.same index outside).symm⟩

theorem domainIdAt (changed : OtherUuid start bytes other) {position : Nat}
    (isId : DomainIdAt bytes position) : DomainIdAt other position := by
  rcases Nat.lt_trichotomy position start with before | same | after
  · have apart := isId.shape.apart changed.isId.shape before
    exact isId.congr fun index _ within => changed.same index (by omega)
  · exact same ▸ changed.otherIsId
  · have apart := changed.isId.shape.apart isId.shape after
    exact isId.congr fun index within _ => changed.same index (by omega)

theorem covered_iff (changed : OtherUuid start bytes other) (index : Nat) :
    Covered bytes index ↔ Covered other index :=
  exists_congr fun _ => and_congr_left fun _ => ⟨changed.domainIdAt, changed.symm.domainIdAt⟩

theorem masked_eq (changed : OtherUuid start bytes other) : masked other = masked bytes := by
  refine List.ext_getElem? fun index => ?_
  by_cases covered : Covered bytes index
  · rw [getElem?_masked_of_covered covered,
      getElem?_masked_of_covered ((changed.covered_iff index).mp covered)]
  · rw [getElem?_masked_of_not_covered covered,
      getElem?_masked_of_not_covered (mt (changed.covered_iff index).mpr covered)]
    refine changed.same index ?_
    by_contra inside
    exact covered ⟨start, changed.isId, by omega, by omega⟩

end OtherUuid

end SharedContext.LocalState
