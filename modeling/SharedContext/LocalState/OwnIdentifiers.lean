import SharedContext.LocalState.Credentials

/-!
# The identifiers of the system as findings

An identifier of the system in a text is no part of a finding, and its UUID
makes no difference, unless a private key was opened before it or it stands in
the value of a credential.
-/

namespace SharedContext.LocalState

/-- An occurrence of an identifier of the system that nothing touches. -/
structure OwnIdentifier where
  before : String
  idPrefix : String
  uuid : String
  after : String
  known : idPrefix ∈ domainIdPrefixes
  canonical : isCanonicalUuidV4 (asBytes uuid) = true
  freeBefore : ∀ byte ∈ (asBytes before).getLast?, isAsciiAlphanumeric byte = false
  freeAfter : ∀ byte ∈ (asBytes after).head?, isAsciiAlphanumeric byte = false

namespace OwnIdentifier

def text (identifier : OwnIdentifier) : String :=
  identifier.before ++ identifier.idPrefix ++ identifier.uuid ++ identifier.after

def start (identifier : OwnIdentifier) : Nat :=
  (asBytes identifier.before).length

def withUuid (identifier : OwnIdentifier) (uuid : String)
    (canonical : isCanonicalUuidV4 (asBytes uuid) = true) : OwnIdentifier :=
  { identifier with uuid, canonical }

end OwnIdentifier

/-- No finding overlaps the identifier, and another UUID changes no finding. -/
def NeverFound (scanner : PrivacyScanner) (identifier : OwnIdentifier) : Prop :=
  (∀ scan, scanner.scan identifier.text = .ok scan → ∀ finding ∈ scan.findings,
    ∀ offset < idLength, ¬ finding.Covers (identifier.start + offset)) ∧
  ∀ uuid canonical,
    scanner.scan (identifier.withUuid uuid canonical).text = scanner.scan identifier.text

namespace OwnIdentifier

theorem asBytes_append (first second : String) :
    asBytes (first ++ second) = asBytes first ++ asBytes second := by
  simp [asBytes, String.toByteArray_append, ByteArray.data_append]

theorem asBytes_text (identifier : OwnIdentifier) :
    asBytes identifier.text = asBytes identifier.before ++ asBytes identifier.idPrefix ++
      asBytes identifier.uuid ++ asBytes identifier.after := by
  simp only [text, asBytes_append]

theorem length_uuid (identifier : OwnIdentifier) : (asBytes identifier.uuid).length = 36 :=
  (isCanonicalUuidV4_iff.mp identifier.canonical).1

theorem getElem?_before (identifier : OwnIdentifier) {index : Nat}
    (inside : index < identifier.start + 4) :
    (asBytes identifier.text)[index]? =
      (asBytes identifier.before ++ asBytes identifier.idPrefix)[index]? := by
  have isLength := length_idPrefix _ identifier.known
  rw [asBytes_text, List.append_assoc (_ ++ _), List.getElem?_append_left]
  rw [List.length_append, isLength]
  exact inside

theorem getElem?_after (identifier : OwnIdentifier) {offset : Nat} :
    (asBytes identifier.text)[identifier.start + idLength + offset]? =
      (asBytes identifier.after)[offset]? := by
  have isLength := length_idPrefix _ identifier.known
  have uuidLength := identifier.length_uuid
  have wholeLength : (asBytes identifier.before ++ asBytes identifier.idPrefix ++
      asBytes identifier.uuid).length = identifier.start + idLength := by
    simp only [List.length_append, isLength, uuidLength]
    rfl
  rw [asBytes_text, List.getElem?_append_right (by omega), wholeLength]
  congr 1
  omega

theorem domainIdAt (identifier : OwnIdentifier) :
    DomainIdAt (asBytes identifier.text) identifier.start := by
  have isLength := length_idPrefix _ identifier.known
  have uuidLength := identifier.length_uuid
  have occurs : OccursAt (asBytes identifier.idPrefix) (asBytes identifier.text)
      identifier.start := by
    rw [OccursAt, asBytes_text, List.append_assoc, List.append_assoc, start, List.drop_left]
    exact List.prefix_append _ _
  have ends : domainIdEnd (asBytes identifier.text) identifier.idPrefix identifier.start =
      some (identifier.start + idLength) := by
    refine (domainIdEnd_eq_some identifier.known).mpr ⟨?_, ?_, ?_, rfl⟩
    · cases empty : identifier.start with
      | zero => rfl
      | succ last =>
          rw [boundaryBefore_succ]
          intro alphanumeric
          obtain ⟨byte, found, passes⟩ := byteAt_iff.mp alphanumeric
          rw [getElem?_before identifier (by omega), List.getElem?_append_left (by
            unfold start at empty
            omega)] at found
          have isLast : byte ∈ (asBytes identifier.before).getLast? := by
            rw [List.getLast?_eq_getElem?, show (asBytes identifier.before).length - 1 = last by
              unfold start at empty
              omega]
            exact found
          rw [identifier.freeBefore byte isLast] at passes
          cases passes
    · have isUuid : slice (asBytes identifier.text) (identifier.start + 4)
          (identifier.start + idLength) = asBytes identifier.uuid := by
        have wholeLength : (asBytes identifier.before ++ asBytes identifier.idPrefix).length =
            identifier.start + 4 := by
          rw [List.length_append, isLength]
          rfl
        rw [slice, asBytes_text, List.append_assoc (_ ++ _), ← wholeLength, List.drop_left,
          List.take_left' (by rw [uuidLength, wholeLength]; unfold idLength; omega)]
      rw [isUuid]
      exact identifier.canonical
    · rw [boundaryAfter_iff]
      intro alphanumeric
      obtain ⟨byte, found, passes⟩ := byteAt_iff.mp alphanumeric
      rw [← Nat.add_zero (identifier.start + idLength), getElem?_after, ← List.head?_eq_getElem?]
        at found
      rw [identifier.freeAfter byte found] at passes
      cases passes
  exact ⟨identifier.idPrefix, identifier.known, occurs, by simp [ends]⟩

theorem otherUuid (identifier : OwnIdentifier) (uuid : String)
    (canonical : isCanonicalUuidV4 (asBytes uuid) = true) :
    OtherUuid identifier.start (asBytes identifier.text)
      (asBytes (identifier.withUuid uuid canonical).text) where
  isId := identifier.domainIdAt
  otherIsId := (identifier.withUuid uuid canonical).domainIdAt
  same index outside := by
    rcases outside with before | after
    · rw [getElem?_before identifier before]
      exact getElem?_before (identifier.withUuid uuid canonical) before
    · have split : index = identifier.start + idLength + (index - (identifier.start + idLength)) := by
        omega
      rw [split, getElem?_after]
      exact getElem?_after (identifier.withUuid uuid canonical)

theorem length_withUuid (identifier : OwnIdentifier) (uuid : String)
    (canonical : isCanonicalUuidV4 (asBytes uuid) = true) :
    (asBytes (identifier.withUuid uuid canonical).text).length =
      (asBytes identifier.text).length := by
  have uuidLength := identifier.length_uuid
  have otherLength := (identifier.withUuid uuid canonical).length_uuid
  rw [asBytes_text, asBytes_text]
  simp only [List.length_append, uuidLength, otherLength]
  rfl

theorem scan_withUuid (scanner : PrivacyScanner) (identifier : OwnIdentifier) (uuid : String)
    (canonical : isCanonicalUuidV4 (asBytes uuid) = true) :
    scanner.scan (identifier.withUuid uuid canonical).text = scanner.scan identifier.text := by
  have sameMask : masked _ = masked _ := (identifier.otherUuid uuid canonical).masked_eq
  unfold masked at sameMask
  simp only [PrivacyScanner.scan, findingsIn, length_withUuid, sameMask]

theorem exists_covers_iff (identifier : OwnIdentifier) :
    (∃ finding ∈ findingsIn (asBytes identifier.text), ∃ offset < idLength,
        finding.Covers (identifier.start + offset)) ↔
      InPrivateKey (asBytes identifier.text) identifier.start ∨
        InCredential (asBytes identifier.text) identifier.start := by
  have run (offset : Nat) (inside : offset < idLength) :
      (masked (asBytes identifier.text))[identifier.start + offset]? = some filler :=
    getElem?_masked_of_covered ⟨_, identifier.domainIdAt, by omega, by omega⟩
  have inText : identifier.start < (masked (asBytes identifier.text)).length :=
    (List.getElem?_eq_some_iff.mp (run 0 (by decide))).1
  rw [← inPrivateKey_masked, ← inCredential_masked, ← scanPrivateKeys_covers inText,
    ← scanAssignedCredentials_covers run]
  simp only [mem_findingsIn, rawFindings, List.mem_append]
  constructor
  · rintro ⟨finding, found, offset, inside, covers⟩
    have isFiller := run offset inside
    rcases found with (((((isToken | isKey) | isBearer) | isAssigned) | isEmail) | isPhone) | isNational
    · exact absurd isFiller (scanPrefixedTokens_stops isToken covers)
    · refine .inl ⟨finding, isKey, ?_, Nat.lt_of_le_of_lt (Nat.le_add_right _ _) covers.2⟩
      by_contra late
      have here := run (finding.start - identifier.start) (by have := covers.1; omega)
      rw [show identifier.start + (finding.start - identifier.start) = finding.start by omega] at here
      exact scanPrivateKeys_start isKey here
    · exact absurd isFiller (scanBearerTokens_stops isBearer covers)
    · exact .inr ⟨finding, isAssigned, offset, inside, covers⟩
    · exact absurd isFiller (scanEmails_stops isEmail covers)
    · exact absurd isFiller (scanPhoneNumbers_stops isPhone covers)
    · exact absurd isFiller (scanChinaNationalIds_stops isNational covers)
  · rintro (⟨finding, isKey, after, before⟩ | ⟨finding, isAssigned, offset, inside, covers⟩)
    · exact ⟨finding, by simp [isKey], 0, by decide, Nat.le_of_lt after, before⟩
    · exact ⟨finding, by simp [isAssigned], offset, inside, covers⟩

end OwnIdentifier

/-- An identifier of the system is no part of a finding, and its UUID makes no
difference, exactly when no private key was opened before it and it stands in
no value of a credential. -/
theorem own_identifier_never_found_iff (scanner : PrivacyScanner) (identifier : OwnIdentifier) :
    NeverFound scanner identifier ↔
      scanner.maxScanBytes < (asBytes identifier.text).length ∨
        ¬ InPrivateKey (asBytes identifier.text) identifier.start ∧
          ¬ InCredential (asBytes identifier.text) identifier.start := by
  rw [← not_or, ← identifier.exists_covers_iff]
  constructor
  · intro ⟨uncovered, _⟩
    rcases Nat.lt_or_ge scanner.maxScanBytes (asBytes identifier.text).length with tooLong | within
    · exact .inl tooLong
    · refine .inr fun ⟨finding, found, offset, inside, covers⟩ => ?_
      exact uncovered _ (scan_eq_ok.mpr ⟨within, rfl⟩) finding found offset inside covers
  · intro clear
    refine ⟨fun scan scanned finding found offset inside covers => ?_,
      identifier.scan_withUuid scanner⟩
    obtain ⟨within, rfl⟩ := scan_eq_ok.mp scanned
    rcases clear with tooLong | uncovered
    · omega
    · exact uncovered ⟨finding, found, offset, inside, covers⟩

/-- An identifier that is assigned to a token. -/
def assignedIdentifier : OwnIdentifier where
  before := "token: "
  idPrefix := "ctx_"
  uuid := "76ce6673-6f2e-4639-86c4-743887405571"
  after := ""
  known := by decide
  canonical := by decide
  freeBefore := by decide +kernel
  freeAfter := by decide +kernel

/-- An identifier that is assigned to a token is a finding. -/
theorem assigned_identifier_found : ¬ NeverFound .default assignedIdentifier := by
  intro ⟨uncovered, _⟩
  have scanned : PrivacyScanner.default.scan assignedIdentifier.text =
      .ok ⟨[⟨.assignedCredential, 7, 47⟩]⟩ := by
    decide +kernel
  exact uncovered _ scanned _ (List.mem_singleton.mpr rfl) 0 (by decide)
    ⟨by decide, by decide⟩

end SharedContext.LocalState
