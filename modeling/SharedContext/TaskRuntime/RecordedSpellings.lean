import SharedContext.TaskRuntime.HintStability
import SharedContext.TaskRuntime.ReferenceRuns

/-!
# Recorded spellings

An ambiguous path is recorded by its spelling, without a line span.  The spelling
scans back to the path that was looked up, so a derivation that asks a resolver
which does not read line spans again gets the answer on record.
-/

namespace SharedContext

variable {resolver : ClaimResolver}

/-! ### What is recorded as ambiguous -/

/-- A mention on record is the answer of a lookup. -/
def AmbiguousMention.Answers (mention : AmbiguousMention) (resolver : ClaimResolver)
    (paths : List PathCandidate) : Prop :=
  match mention.channel with
  | .path => ∃ candidate ∈ paths, candidate.spelling = mention.spelling ∧
      resolver.resolvePath candidate = .ambiguous mention.matchCount
  | .symbol => resolver.resolveSymbol mention.spelling = .ambiguous mention.matchCount

theorem answers_readPathMention {paths : List PathCandidate} {candidate : PathCandidate}
    (inPaths : candidate ∈ paths) {read : ReadMentions} {order : Nat}
    (before : ∀ mention ∈ read.ambiguous, mention.Answers resolver paths) :
    ∀ mention ∈ (readPathMention resolver read candidate order).ambiguous,
      mention.Answers resolver paths := by
  intro mention member
  unfold readPathMention at member
  cases answer : resolver.resolvePath candidate with
  | placed reference =>
      rw [answer] at member
      exact before mention member
  | ambiguous matchCount =>
      rw [answer] at member
      rcases Finset.mem_insert.mp member with rfl | known
      · exact ⟨candidate, inPaths, rfl, answer⟩
      · exact before mention known
  | unplaced =>
      rw [answer] at member
      exact before mention member

theorem answers_readPathMentions {paths : List PathCandidate}
    {entries : List (PathCandidate × Nat)} (inPaths : ∀ entry ∈ entries, entry.1 ∈ paths)
    {read : ReadMentions} (before : ∀ mention ∈ read.ambiguous, mention.Answers resolver paths) :
    ∀ mention ∈ (readPathMentions resolver entries read).ambiguous,
      mention.Answers resolver paths := by
  induction entries generalizing read with
  | nil => exact before
  | cons entry rest ih =>
      rw [readPathMentions_cons]
      refine ih (fun later member => inPaths later (List.mem_cons_of_mem _ member)) ?_
      exact answers_readPathMention (inPaths entry List.mem_cons_self) before

theorem answers_readSymbolMention {paths : List PathCandidate} {symbol : List Char}
    {read : ReadMentions} {order : Nat}
    (before : ∀ mention ∈ read.ambiguous, mention.Answers resolver paths) :
    ∀ mention ∈ (readSymbolMention resolver read symbol order).ambiguous,
      mention.Answers resolver paths := by
  intro mention member
  unfold readSymbolMention at member
  cases answer : resolver.resolveSymbol symbol with
  | placed reference =>
      rw [answer] at member
      exact before mention member
  | ambiguous matchCount =>
      rw [answer] at member
      rcases Finset.mem_insert.mp member with rfl | known
      · exact answer
      · exact before mention known
  | unplaced =>
      rw [answer] at member
      exact before mention member

theorem answers_readSymbolMentions {paths : List PathCandidate} {symbols : List (List Char)}
    {order : Nat} {read : ReadMentions}
    (before : ∀ mention ∈ read.ambiguous, mention.Answers resolver paths) :
    ∀ mention ∈ (readSymbolMentions resolver symbols order read).ambiguous,
      mention.Answers resolver paths := by
  induction symbols generalizing order read with
  | nil => exact before
  | cons symbol rest ih =>
      rw [readSymbolMentions]
      split
      · exact before
      · exact ih (answers_readSymbolMention before)

theorem answers_readMentions {paths : List PathCandidate} {symbols : List (List Char)}
    {mention : AmbiguousMention}
    (member : mention ∈ (readMentions resolver paths symbols).ambiguous) :
    mention.Answers resolver paths := by
  have byPath : ∀ mention ∈ (readPathMentions resolver paths.zipIdx ⟨[], ∅, ∅⟩).ambiguous,
      mention.Answers resolver paths :=
    answers_readPathMentions (fun entry inEntries => List.fst_mem_of_mem_zipIdx inEntries)
      (fun mention absent => absurd absent (Finset.notMem_empty _))
  rw [readMentions] at member
  split at member
  · exact answers_readSymbolMentions byPath mention member
  · exact byPath mention member

theorem mem_unionAll {α β : Type} [DecidableEq β] {items : List α} {set : α → Finset β}
    {element : β} : element ∈ unionAll items set ↔ ∃ item ∈ items, element ∈ set item := by
  have grows (start : Finset β) :
      element ∈ items.foldl (fun union item => union ∪ set item) start ↔
        element ∈ start ∨ ∃ item ∈ items, element ∈ set item := by
    induction items generalizing start with
    | nil => simp
    | cons item rest ih =>
        rw [List.foldl_cons, ih, Finset.mem_union, List.exists_mem_cons_iff, or_assoc]
  rw [unionAll, grows]
  exact or_iff_right (Finset.notMem_empty _)

/-- The paths that the Claims of an Episode write; a derivation looks each one up. -/
def EpisodeReferences.pathCandidates (episode : EpisodeReferences) : List PathCandidate :=
  episode.checkpoints.flatMap fun checkpoint => checkpoint.claims.flatMap fun claim =>
    claimPathCandidates claim.statement claim.rationale
      (claimEvidenceSummaries episode.observations claim)

theorem pathCandidates_scanned {episode : EpisodeReferences} {candidate : PathCandidate}
    (member : candidate ∈ episode.pathCandidates) : candidate.IsScanned := by
  obtain ⟨checkpoint, _, inCheckpoint⟩ := List.mem_flatMap.mp member
  obtain ⟨claim, _, inClaim⟩ := List.mem_flatMap.mp inCheckpoint
  exact claimPathCandidates_scanned _ _ _ inClaim

theorem pathCandidates_derived (episode : EpisodeReferences) (resolver : ClaimResolver)
    (now : Nat) : (episode.derived resolver now).pathCandidates = episode.pathCandidates := by
  simp only [EpisodeReferences.pathCandidates, EpisodeReferences.derived, List.flatMap_map,
    derivedCheckpoint]
  rfl

theorem answers_recorded {episode : EpisodeReferences} {now : Nat} {mention : AmbiguousMention}
    (member : mention ∈ (recordFromDerivations
      (deriveReports resolver episode.observations episode.checkpoints) now).ambiguous) :
    mention.Answers resolver episode.pathCandidates := by
  obtain ⟨report, inReports, inReport⟩ := mem_unionAll.mp member
  obtain ⟨checkpoint, inEpisode, inCheckpoint⟩ := List.mem_flatMap.mp inReports
  obtain ⟨claim, inClaims, rfl⟩ := List.mem_map.mp inCheckpoint
  have ofClaim : mention.Answers resolver (claimPathCandidates claim.statement claim.rationale
      (claimEvidenceSummaries episode.observations claim)) :=
    answers_readMentions inReport
  unfold AmbiguousMention.Answers at ofClaim ⊢
  split at ofClaim
  · obtain ⟨candidate, written, answer⟩ := ofClaim
    have inEpisodePaths : candidate ∈ episode.pathCandidates :=
      List.mem_flatMap.mpr ⟨checkpoint, inEpisode, List.mem_flatMap.mpr ⟨claim, inClaims, written⟩⟩
    exact ⟨candidate, inEpisodePaths, answer⟩
  · exact ofClaim

/-! ### Scanning a recorded spelling -/

theorem relookup_spelling {mention : AmbiguousMention} (isPath : mention.channel = .path)
    {candidate : PathCandidate} (scanned : candidate.IsScanned)
    (spelled : candidate.spelling = mention.spelling) :
    relookup mention = some { candidate with lineSpan := none } := by
  rw [relookup, isPath]
  simp only [← spelled, scanText_spelling scanned, List.head?_cons]

/-- Every path on record is one the Claims write, and scans back to it without
its line span. -/
def EpisodeReferences.ScansBack (episode : EpisodeReferences) : Prop :=
  ∀ record ∈ episode.record, ∀ mention ∈ record.ambiguous, mention.channel = .path →
    (∃ candidate ∈ episode.pathCandidates, candidate.spelling = mention.spelling) ∧
      ∀ candidate ∈ episode.pathCandidates, candidate.spelling = mention.spelling →
        relookup mention = some { candidate with lineSpan := none }

theorem scansBack_derived (episode : EpisodeReferences) (resolver : ClaimResolver) (now : Nat) :
    (episode.derived resolver now).ScansBack := by
  intro record recorded mention member isPath
  cases recorded
  have answers := answers_recorded member
  rw [AmbiguousMention.Answers, isPath] at answers
  obtain ⟨candidate, written, spelled, _⟩ := answers
  rw [pathCandidates_derived]
  exact ⟨⟨candidate, written, spelled⟩, fun other otherWritten =>
    relookup_spelling isPath (pathCandidates_scanned otherWritten)⟩

theorem scansBack_reopen {episode : EpisodeReferences} (scans : episode.ScansBack) :
    episode.reopen.ScansBack := by
  intro record recorded
  obtain ⟨before, known, rfl⟩ := Option.mem_map.mp recorded
  exact scans before known

theorem scansBack_updateWhere {store : ReferenceStore} {condition : EpisodeReferences → Bool}
    {change : EpisodeReferences → EpisodeReferences}
    (keepsId : ∀ row, (change row).episodeId = row.episodeId)
    (scans : ∀ row ∈ store, row.ScansBack) (keeps : ∀ row ∈ store, (change row).ScansBack) :
    ∀ row ∈ store.updateWhere condition change keepsId, row.ScansBack := by
  intro row member
  obtain ⟨old, oldMem, rfl⟩ := Table.mem_updateWhere.mp member
  split
  · exact keeps old oldMem
  · exact scans old oldMem

variable {validate : EpisodeReferences → AgentCheckpoint → Result Unit}

theorem scansBack_perform {store : ReferenceStore} (scans : ∀ row ∈ store, row.ScansBack)
    (call : ReferenceCall) :
    ∀ row ∈ performReferenceCall validate store call, row.ScansBack := by
  cases call with
  | derive episodeId resolver clock =>
      rw [performReferenceCall]
      rcases deriveEpisodeClaimReferences_cases validate store episodeId resolver clock with
        same | ⟨now, changed⟩
      · rw [same]
        exact scans
      · rw [changed]
        exact scansBack_updateWhere _ scans fun row _ => scansBack_derived row resolver now
  | reopen =>
      have keepsId (row : EpisodeReferences) : row.reopen.episodeId = row.episodeId := rfl
      exact scansBack_updateWhere keepsId scans fun row member =>
        scansBack_reopen (scans row member)

theorem scansBack_performAll {store : ReferenceStore} (scans : ∀ row ∈ store, row.ScansBack)
    (calls : List ReferenceCall) :
    ∀ row ∈ performReferenceCalls validate store calls, row.ScansBack := by
  induction calls generalizing store with
  | nil => exact scans
  | cons call rest ih => exact ih (scansBack_perform scans call)

/-! ### Replays -/

/-! ### Every run -/

variable (validate) in
/-- Calls only add to what Claims have.  A second derivation with the resolver of
the first changes no Claim and no recorded ambiguity, and in every run from
Episodes that are not recorded each path on record scans back to the path that
was looked up, without its line span. -/
theorem references_only_added :
    (∀ (store : ReferenceStore) (calls : List ReferenceCall),
      StoreKept store (performReferenceCalls validate store calls)) ∧
    (∀ (store first : ReferenceStore) (episodeId : WorkEpisodeId) (resolver : ClaimResolver)
      (clock later : Int) (reports : List DerivedClaimReferences),
      deriveEpisodeClaimReferences validate store episodeId resolver clock =
          (first, .ok reports) →
        (deriveEpisodeClaimReferences validate first episodeId resolver later).1.rows.map
          EpisodeReferences.answers = first.rows.map EpisodeReferences.answers) ∧
    ∀ (store : ReferenceStore) (calls : List ReferenceCall),
      (∀ row ∈ store, row.record = none) →
        ∀ row ∈ performReferenceCalls validate store calls, row.ScansBack := by
  refine ⟨storeKept_performAll, fun store first episodeId resolver clock later reports ran =>
    answers_derive_again ran later, fun store calls unrecorded => ?_⟩
  refine scansBack_performAll (fun row member record recorded => ?_) calls
  simp [unrecorded row member] at recorded

private def ambiguousResolver : ClaimResolver where
  resolvePath _ := .ambiguous 2
  resolveSymbol _ := .unplaced

/-- An Episode whose one Claim names a line of a file. -/
private def lineClaimStore : ReferenceStore where
  rows :=
    [{ episodeId := ⟨1#128⟩
       observations := []
       checkpoints :=
         [{ checkpointId := ⟨2#128⟩
            claims :=
              [{ claimId := ⟨3#128⟩
                 contextKindHint := none
                 statement := "Foo.kt:12 fails"
                 rationale := ""
                 evidenceRefs := []
                 topicKeyHint := none
                 engineeringReferences := [] }] }]
       record := none }]
  keysNodup := List.nodup_singleton _

/-- The path of a line is looked up with its span and scans back without. -/
theorem line_span_not_recorded :
    ¬ (∀ row ∈ (performReferenceCalls (fun _ _ => .ok ()) lineClaimStore
        [.derive ⟨1#128⟩ ambiguousResolver 0]).rows,
      ∀ record ∈ row.record, ∀ mention ∈ record.ambiguous, mention.channel = .path →
        ∃ candidate ∈ row.pathCandidates, relookup mention = some candidate) := by
  decide +kernel

theorem references_only_added_ambiguous :
    (∀ row ∈ performReferenceCalls (fun _ _ => .ok ()) lineClaimStore
      [.derive ⟨1#128⟩ ambiguousResolver 0], row.ScansBack) ∧
    (deriveEpisodeClaimReferences (fun _ _ => .ok ()) (deriveEpisodeClaimReferences
      (fun _ _ => .ok ()) lineClaimStore ⟨1#128⟩ ambiguousResolver 0).1 ⟨1#128⟩
        ambiguousResolver 1).1.rows.map EpisodeReferences.answers =
      (deriveEpisodeClaimReferences (fun _ _ => .ok ()) lineClaimStore ⟨1#128⟩
        ambiguousResolver 0).1.rows.map EpisodeReferences.answers := by
  obtain ⟨_, again, scans⟩ := references_only_added fun _ _ => .ok ()
  refine ⟨scans lineClaimStore _ (fun row member => ?_), ?_⟩
  · rw [List.mem_singleton.mp member]
  · exact again lineClaimStore _ ⟨1#128⟩ ambiguousResolver 0 1 _ rfl

end SharedContext
