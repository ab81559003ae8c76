import SharedContext.LogSync.Options

/-!
# Batches are filed under safe paths

The path of a batch has five components, and each of them holds a character
that is neither a separator nor a dot.
-/

namespace SharedContext.LogSync

open LogService (BatchManifest isAbsolutePath)

/-- A component that stays inside its directory. -/
structure PlainSegment (segment : List Char) : Prop where
  whole : '/' ∉ segment
  named : ∃ character ∈ segment, character ≠ '.'

theorem PlainSegment.isNormal {segment : List Char} (plain : PlainSegment segment) (index : Nat) :
    segmentComponent index segment = some (.normal segment) := by
  obtain ⟨character, member, other⟩ := plain.named
  unfold segmentComponent
  rw [if_neg, if_neg, if_neg]
  · rintro rfl
    simp at member
    exact other member
  · rintro rfl
    simp at member
    exact other member
  · rintro rfl
    exact absurd member (by simp)

/-- Segments behind each other, each but the last one with a separator. -/
def joined : List Char → List (List Char) → List Char
  | first, [] => first
  | first, next :: rest => first ++ '/' :: joined next rest

theorem splitOn_joined {first : List Char} {rest : List (List Char)}
    (whole : ∀ segment ∈ first :: rest, '/' ∉ segment) :
    (joined first rest).splitOn '/' = first :: rest := by
  induction rest generalizing first with
  | nil =>
      have apart : ∀ character ∈ first, (character == '/') = false := by
        intro character member
        rw [beq_eq_false_iff_ne]
        rintro rfl
        exact whole first (by simp) member
      rw [joined, List.splitOn_eq_splitOnP, List.splitOnP_eq_singleton apart]
  | cons next rest ih =>
      have apart : ∀ character ∈ first, (character == '/') = false := by
        intro character member
        rw [beq_eq_false_iff_ne]
        rintro rfl
        exact whole first (by simp) member
      rw [joined, List.splitOn_eq_splitOnP,
        List.splitOnP_append_cons_of_forall_mem apart '/' (by simp), ← List.splitOn_eq_splitOnP,
        ih fun segment member => whole segment (List.mem_cons_of_mem _ member)]

theorem safeRepositoryPath_joined {repository relative : String} {first : List Char}
    {rest : List (List Char)} (split : relative.toList = joined first rest)
    (plain : ∀ segment ∈ first :: rest, PlainSegment segment) :
    safeRepositoryPath repository relative = .ok (repository ++ "/" ++ relative) := by
  have segments : (joined first rest).splitOn '/' = first :: rest :=
    splitOn_joined fun segment member => (plain segment member).whole
  have relativePath : isAbsolutePath (joined first rest) = false := by
    obtain ⟨whole, character, member, -⟩ := plain first (by simp)
    cases first with
    | nil => exact absurd member (by simp)
    | cons initial others =>
        have starts : (joined (initial :: others) rest).head? = some initial := by
          cases rest <;> rfl
        have other : initial ≠ '/' := fun same => whole (by simp [same])
        simp [isAbsolutePath, starts, other]
  have normal : (components (joined first rest)).any (!·.isNormal) = false := by
    rw [List.any_eq_false, components, relativePath, segments, if_neg Bool.false_ne_true,
      List.nil_append]
    intro component member
    obtain ⟨⟨segment, index⟩, listed, found⟩ := List.mem_filterMap.mp member
    have inside : segment ∈ first :: rest := by
      have unzipped := List.mem_zipIdx' listed
      rw [unzipped.2]
      exact List.getElem_mem _
    dsimp only at found
    rw [(plain segment inside).isNormal index] at found
    rw [← Option.some.inj found]
    simp [Component.isNormal]
  rw [safeRepositoryPath, split, relativePath, normal]
  rfl

/-! ### The components -/

theorem encodeByte_whole (byte : UInt8) : '/' ∉ encodeByte byte := by
  have table : ∀ code : Fin 256, '/' ∉ encodeByte (UInt8.ofNat code) := by decide +kernel
  have entry := table ⟨byte.toNat, byte.toNat_lt⟩
  rwa [UInt8.ofNat_toNat] at entry

theorem plainSegment_encodeComponent {email : String} (address : '@' ∈ email.toList) :
    PlainSegment (encodeComponent email).toList where
  whole := by
    rw [encodeComponent, String.toList_ofList, List.mem_flatMap]
    rintro ⟨byte, -, member⟩
    exact encodeByte_whole byte member
  named := by
    refine ⟨'@', ?_, by decide⟩
    rw [encodeComponent, String.toList_ofList, List.mem_flatMap]
    refine ⟨UInt8.ofNat '@'.toNat, ?_, by decide⟩
    exact Utf8.mem_bytes_of_ascii (by decide) address

theorem plainSegment_of_isSafeIdentity {value : String} (safe : isSafeIdentity value = true) :
    PlainSegment value.toList := by
  simp only [isSafeIdentity, Bool.and_eq_true, decide_eq_true_eq, List.all_eq_true,
    Bool.or_eq_true] at safe
  obtain ⟨⟨named, -⟩, characters⟩ := safe
  have other : ∀ character ∈ value.toList, character ≠ '/' ∧ character ≠ '.' := by
    intro character member
    have allowed := characters character member
    constructor <;> (rintro rfl; exact absurd allowed (by decide))
  refine ⟨fun member => (other '/' member).1 rfl, ?_⟩
  cases listed : value.toList with
  | nil => exact absurd (String.toList_eq_nil_iff.mp listed) named
  | cons first rest => exact ⟨first, by simp, (other first (by simp [listed])).2⟩

theorem zeroPadded_whole (width : Nat) (value : Int) : '/' ∉ zeroPadded width value := by
  unfold zeroPadded
  dsimp only
  rw [List.mem_append, List.mem_append, List.mem_replicate]
  rintro ((sign | ⟨-, zero⟩) | digit)
  · split at sign
    · simp at sign
    · simp at sign
  · exact absurd zero (by decide)
  · exact absurd (Nat.isDigit_of_mem_toDigits (by decide) (by decide) digit) (by decide)

theorem plainSegment_utcDay {seconds : Int} {day : String} (formatted : utcDay seconds = .ok day) :
    PlainSegment day.toList := by
  unfold utcDay at formatted
  cases dated : civilDate seconds with
  | error interruption =>
      rw [dated] at formatted
      cases formatted
  | ok date =>
      rw [dated] at formatted
      obtain rfl := Except.ok.inj formatted
      constructor
      · rw [String.toList_ofList]
        have year := zeroPadded_whole 4 date.year
        have month := zeroPadded_whole 2 date.month
        have day := zeroPadded_whole 2 date.day
        simp [year, month, day]
      · exact ⟨'-', by simp, by decide⟩

theorem exists_utcDay {milliseconds : Int} (range : isI64 milliseconds) :
    ∃ day, utcDay (milliseconds / 1000) = .ok day := by
  have seconds : isI64 (milliseconds / 1000) := by
    unfold isI64 at *
    omega
  obtain ⟨date, found⟩ : ∃ date, civilDate (milliseconds / 1000) = .ok date :=
    ⟨_, civilDate_eq seconds⟩
  rw [utcDay, found]
  exact ⟨_, rfl⟩

theorem batchPaths_safe {manifest : BatchManifest} {email : String}
    (assigned : manifest.stream.email = some email) (address : '@' ∈ email.toList)
    (installation : isSafeIdentity manifest.stream.installationId = true)
    (batch : isSafeIdentity manifest.batchId = true) (range : isI64 manifest.firstEventUnixMs) :
    ∃ events metadata, batchPaths manifest = .ok (events, metadata) ∧
      ∀ repository : String, ∀ path ∈ [events, metadata],
        safeRepositoryPath repository path = .ok (repository ++ "/" ++ path) := by
  obtain ⟨day, found⟩ := exists_utcDay range
  have filed : ∀ suffix : String, (∃ character ∈ suffix.toList, character ≠ '.') →
      '/' ∉ suffix.toList → ∀ repository : String,
      safeRepositoryPath repository ("users/" ++ encodeComponent email ++ "/" ++
        manifest.stream.installationId ++ "/" ++ day ++ "/" ++ manifest.batchId ++ suffix) =
        .ok (repository ++ "/" ++ ("users/" ++ encodeComponent email ++ "/" ++
          manifest.stream.installationId ++ "/" ++ day ++ "/" ++ manifest.batchId ++ suffix)) := by
    intro suffix ⟨character, inside, other⟩ whole repository
    have batchPlain := plainSegment_of_isSafeIdentity batch
    refine @safeRepositoryPath_joined _ _ "users".toList
      [(encodeComponent email).toList, manifest.stream.installationId.toList, day.toList,
        manifest.batchId.toList ++ suffix.toList] ?_ ?_
    · simp [joined]
    · simp only [List.forall_mem_cons]
      refine ⟨⟨by decide, 'u', by decide, by decide⟩, plainSegment_encodeComponent address,
        plainSegment_of_isSafeIdentity installation, plainSegment_utcDay found, ⟨?_, ?_⟩,
        by simp⟩
      · rw [List.mem_append]
        exact fun member => member.elim batchPlain.whole whole
      · exact ⟨character, List.mem_append_right _ inside, other⟩
  refine ⟨_, _, by
    rw [batchPaths, found, assignedEmail, assigned]
    rfl, fun repository => ?_⟩
  simp only [List.forall_mem_cons]
  exact ⟨filed ".jsonl" ⟨'j', by decide, by decide⟩ (by decide) repository,
    filed ".manifest.json" ⟨'m', by decide, by decide⟩ (by decide) repository, by simp⟩

end SharedContext.LogSync
