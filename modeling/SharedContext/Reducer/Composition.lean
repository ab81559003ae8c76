import SharedContext.Reducer.Lifecycle
import SharedContext.Reducer.PartProjection

/-!
# Independent histories compose

Two histories without a common identifier reduce to the disjoint union of
their projections: the phases compare by identity, so neither side can see
the other.
-/

namespace SharedContext

/-! ### Two parts that make up a list -/

/-- A list made up of two parts without a common identifier. -/
structure Split (mine yours : Set AnyId) (whole first second : List ReducerEvent) : Prop where
  left : Part mine whole first
  right : Part yours whole second
  apart : ∀ id ∈ mine, id ∉ yours
  cover : ∀ event ∈ whole, event.eventId.any ∈ mine ∨ event.eventId.any ∈ yours

theorem part_self (events : List ReducerEvent) :
    Part {id | id ∈ mentioned events} events events where
  coherent event isEvent id isMentioned := by
    have here : ∀ other ∈ event.identifiers, other ∈ mentioned events := fun other member =>
      List.mem_flatMap.mpr ⟨event, isEvent, member⟩
    exact iff_of_true (here id isMentioned) (here event.eventId.any List.mem_cons_self)
  selected := by
    refine ⟨fun _ => true, List.filter_true events, fun event isEvent => ?_⟩
    exact iff_of_true rfl (List.mem_flatMap.mpr ⟨event, isEvent, List.mem_cons_self⟩)

theorem Split.mentioned_cases {mine yours : Set AnyId} {whole first second : List ReducerEvent}
    (split : Split mine yours whole first second) {id : AnyId} (isMentioned : id ∈ mentioned whole) :
    id ∈ mine ∨ id ∈ yours := by
  obtain ⟨event, isEvent, member⟩ := List.mem_flatMap.mp isMentioned
  rw [split.left.coherent event isEvent id member, split.right.coherent event isEvent id member]
  exact split.cover event isEvent

/-- A table computed from events whose entries belong to one identifier each. -/
def Localizes {κ ν : Type} (idOf : κ → AnyId) (table : List ReducerEvent → BTreeMap κ ν) : Prop :=
  ∀ ⦃mine whole part⦄, Part mine whole part →
    BTreeMap.Restricts (fun key => idOf key ∈ mine) (table whole) (table part)

/-- A finite set computed from events that is the union over the parts of a split. -/
def Splits {δ : Type} [DecidableEq δ] (items : List ReducerEvent → Finset δ) : Prop :=
  ∀ ⦃mine yours whole first second⦄, Split mine yours whole first second →
    items whole = items first ∪ items second

section Rules

variable {κ ν δ : Type} [DecidableEq δ] {idOf : κ → AnyId}

theorem Localizes.disjointUnion {table : List ReducerEvent → BTreeMap κ ν}
    (localizes : Localizes idOf table) {mine yours : Set AnyId}
    {whole first second : List ReducerEvent} (split : Split mine yours whole first second) :
    BTreeMap.DisjointUnion (table whole) (table first) (table second) := by
  apply (localizes split.left).union (localizes split.right)
  · exact fun key => split.apart (idOf key)
  · intro key value found
    exact split.mentioned_cases ((localizes (part_self whole) key value).mp found).2

/-- A set collected over a localized table splits. -/
theorem Localizes.flatMap {table : List ReducerEvent → BTreeMap κ ν}
    (localizes : Localizes idOf table) {each : List ReducerEvent → κ → ν → Finset δ}
    (same : ∀ ⦃mine whole part⦄, Part mine whole part → ∀ key value,
      (table whole).get? key = some value → idOf key ∈ mine →
        each part key value = each whole key value) :
    Splits fun events => (table events).flatMap (each events) := by
  intro mine yours whole first second split
  refine (localizes.disjointUnion split).flatMap (fun key value found => ?_)
    fun key value found => ?_
  · obtain ⟨inWhole, isMine⟩ := (localizes split.left key value).mp found
    exact same split.left key value inWhole isMine
  · obtain ⟨inWhole, isYours⟩ := (localizes split.right key value).mp found
    exact same split.right key value inWhole isYours

/-- A set collected over a localized set splits. -/
theorem splits_biUnion {α : Type} (itemOf : α → AnyId) {items : List ReducerEvent → Finset α}
    (localizes : ∀ ⦃mine whole part⦄, Part mine whole part → ∀ item,
      item ∈ items part ↔ item ∈ items whole ∧ itemOf item ∈ mine)
    {each : List ReducerEvent → α → Finset δ}
    (same : ∀ ⦃mine whole part⦄, Part mine whole part → ∀ item ∈ items whole,
      itemOf item ∈ mine → each part item = each whole item) :
    Splits fun events => (items events).biUnion (each events) := by
  intro mine yours whole first second split
  apply biUnion_union
  · intro item
    rw [localizes split.left, localizes split.right, ← and_or_left]
    refine (and_iff_left_of_imp fun member => ?_).symm
    exact split.mentioned_cases ((localizes (part_self whole) item).mp member).2
  · intro item isFirst
    obtain ⟨inWhole, isMine⟩ := (localizes split.left item).mp isFirst
    exact same split.left item inWhole isMine
  · intro item isSecond
    obtain ⟨inWhole, isYours⟩ := (localizes split.right item).mp isSecond
    exact same split.right item inWhole isYours

theorem splits_collect {each : List ReducerEvent → ReducerEvent → Finset δ}
    (same : ∀ ⦃mine whole part⦄, Part mine whole part → ∀ event ∈ part,
      each part event = each whole event) :
    Splits fun events => collect events (each events) := by
  intro mine yours whole first second split
  ext item
  simp only [Finset.mem_union, mem_collect]
  constructor
  · rintro ⟨event, isEvent, member⟩
    rcases split.cover event isEvent with isMine | isYours
    · have isFirst := split.left.mem.mpr ⟨isEvent, isMine⟩
      exact .inl ⟨event, isFirst, (same split.left event isFirst).symm ▸ member⟩
    · have isSecond := split.right.mem.mpr ⟨isEvent, isYours⟩
      exact .inr ⟨event, isSecond, (same split.right event isSecond).symm ▸ member⟩
  · rintro (⟨event, isFirst, member⟩ | ⟨event, isSecond, member⟩)
    · exact ⟨event, (split.left.mem.mp isFirst).1, same split.left event isFirst ▸ member⟩
    · exact ⟨event, (split.right.mem.mp isSecond).1, same split.right event isSecond ▸ member⟩

theorem Splits.union {first second : List ReducerEvent → Finset δ} (left : Splits first)
    (right : Splits second) : Splits fun events => first events ∪ second events := by
  intro mine yours whole part rest split
  simp only [left split, right split]
  exact Finset.union_union_union_comm _ _ _ _

theorem diagnoseUnless_congr {first second : Prop} [Decidable first] [Decidable second]
    {diagnostic : ReducerDiagnostic} (same : first ↔ second) :
    diagnoseUnless first diagnostic = diagnoseUnless second diagnostic :=
  if_congr same rfl rfl

end Rules

/-! ### Duplicate definitions -/

section Definitions

variable {kind : IdKind} {ν : Type} (table : DefinitionTable (OpaqueId kind) ν)
  (names : ∀ key, (table.identity key).id = key.any)
include names

theorem localizes_duplicated :
    Localizes OpaqueId.any fun events => duplicated (table.collect events) :=
  fun _ _ _ isPart => (isPart.table table names).filter fun _ _ _ _ => Iff.rfl

theorem splits_duplicateDiagnostics (code : ReducerDiagnosticCode)
    (message : OpaqueId kind → String) (get : ν → EventId) :
    Splits fun events => duplicateDiagnostics code message (table.collect events) get :=
  (localizes_duplicated table names).flatMap fun _ _ _ _ _ _ _ _ => rfl

theorem Part.listedEvent {mine : Set AnyId} {whole part : List ReducerEvent}
    (isPart : Part mine whole part) {key : OpaqueId kind} {values : List ν} {value : ν}
    (found : (table.collect whole).get? key = some values) (member : value ∈ values) :
    key.any ∈ mine ↔ (table.eventId value).any ∈ mine := by
  obtain ⟨-, isListed⟩ := BTreeMap.get?_group_eq_some.mp found
  rw [← isListed] at member
  obtain ⟨event, isEvent, isEntry⟩ := DefinitionTable.mem_listed.mp member
  have sameEvent := table.sameEvent event _ isEntry
  rw [sameEvent, ← names key]
  apply isPart.coherent event isEvent
  exact identity_mentioned (DefinitionTable.identity_mem isEntry)

end Definitions

theorem localizes_crossKindRevisions : Localizes OpaqueId.any fun events =>
    crossKindRevisions (collectDefinitions events) := by
  intro mine whole part isPart
  simp only [crossKindRevisions, collectDefinitions_eq]
  apply (isPart.table intentTable fun _ => rfl).filterMap
  intro key values _ isMine
  rw [(isPart.table contextTable fun _ => rfl).get?_eq isMine]

theorem splits_definitionDiagnostics :
    Splits fun events => definitionDiagnostics (collectDefinitions events) := by
  have duplicates {kind : IdKind} {ν : Type} (table : DefinitionTable (OpaqueId kind) ν)
      (names : ∀ key, (table.identity key).id = key.any) :=
    splits_duplicateDiagnostics table names
  have duplicatedEvents : Splits fun events =>
      (duplicated (eventTable.collect events)).flatMap fun id _ =>
        ({⟨.duplicateEventId, toString id, {id}, s!"event ID {id} has multiple definitions"⟩} :
          Finset ReducerDiagnostic) :=
    (localizes_duplicated eventTable fun _ => rfl).flatMap fun _ _ _ _ _ _ _ _ => rfl
  have crossKind : Splits fun events =>
      (crossKindRevisions (collectDefinitions events)).flatMap fun id ids =>
        ({⟨.duplicateRevisionId, toString id, ids,
          s!"revision ID {id} is defined by multiple aggregate kinds"⟩} :
          Finset ReducerDiagnostic) :=
    localizes_crossKindRevisions.flatMap fun _ _ _ _ _ _ _ _ => rfl
  simp only [collectDefinitions_eq] at crossKind
  simp only [definitionDiagnostics, collectDefinitions_eq]
  refine .union (.union (.union (.union (.union (.union (.union (.union (.union (.union (.union
    (.union (.union (.union (.union duplicatedEvents ?_) ?_) ?_) ?_) ?_) ?_) ?_) crossKind) ?_)
    ?_) ?_) ?_) ?_) ?_) ?_
  · exact duplicates intentTable (fun _ => rfl) _ _ _
  · exact duplicates candidateTable (fun _ => rfl) _ _ _
  · exact duplicates submissionTable (fun _ => rfl) _ _ _
  · exact duplicates confirmationTable (fun _ => rfl) _ _ _
  · exact duplicates confirmationByCandidateTable (fun _ => rfl) _ _ _
  · exact duplicates associationTable (fun _ => rfl) _ _ _
  · exact duplicates contextTable (fun _ => rfl) _ _ _
  · exact duplicates reviewTable (fun _ => rfl) _ _ _
  · exact duplicates publicationTable (fun _ => rfl) _ _ _
  · exact duplicates evidenceTable (fun _ => rfl) _ _ _
  · exact duplicates conflictTable (fun _ => rfl) _ _ _
  · exact duplicates resolutionTable (fun _ => rfl) _ _ _
  · exact duplicates referenceTable (fun _ => rfl) _ _ _
  · exact duplicates spaceCreationTable (fun _ => rfl) _ _ _

/-! ### The diagnostics of the phases -/

theorem localizes_contextOwners : Localizes OpaqueId.any fun events =>
    (factsOf events).contextOwners :=
  fun _ _ _ isPart => isPart.contextOwners

theorem splits_ambiguousOwnerDiagnostics : Splits fun events =>
    ambiguousOwnerDiagnostics events (factsOf events).contextOwners := by
  apply localizes_contextOwners.flatMap
  intro mine whole part isPart contextId owners _ isMine
  have witnesses : ((part.filter fun event => contextId ∈ event.mentionedContexts).map
        ReducerEvent.eventId).toFinset =
      ((whole.filter fun event => contextId ∈ event.mentionedContexts).map
        ReducerEvent.eventId).toFinset := by
    ext eventId
    simp only [List.mem_toFinset, List.mem_map, List.mem_filter, decide_eq_true_eq, isPart.mem]
    refine exists_congr fun event => and_congr_left fun _ => ?_
    constructor
    · rintro ⟨⟨isEvent, -⟩, isMentioned⟩
      exact ⟨isEvent, isMentioned⟩
    · rintro ⟨isEvent, isMentioned⟩
      have named := List.mem_cons_of_mem event.eventId.any (mentionedContext_mentioned isMentioned)
      exact ⟨⟨isEvent, (isPart.coherent event isEvent _ named).mp isMine⟩, isMentioned⟩
  rw [witnesses]

theorem splits_missingSpaceDiagnostics : Splits fun events =>
    missingSpaceDiagnostics events (validSpaces (factsOf events)) := by
  apply splits_collect
  intro mine whole part isPart event isEvent
  refine Finset.biUnion_congr rfl fun spaceId isReferenced => diagnoseUnless_congr ?_
  obtain ⟨inWhole, isMine⟩ := isPart.mem.mp isEvent
  rw [isPart.validSpaces]
  apply and_iff_left
  have named := List.mem_cons_of_mem event.eventId.any (referencedSpace_mentioned isReferenced)
  exact (isPart.coherent event inWhole _ named).mpr isMine

theorem splits_intentDiagnostics : Splits fun events => intentDiagnostics (factsOf events) := by
  apply splits_biUnion OpaqueId.any
  · exact fun _ _ _ isPart _ => isPart.validSpaces
  · intro mine whole part isPart spaceId _ isMine
    rw [isPart.reducedIntents isMine]

theorem splits_contextDiagnostics : Splits fun events => contextDiagnostics (factsOf events) := by
  apply splits_biUnion fun key : ContextKey => key.2.any
  · exact fun _ _ _ isPart _ => isPart.ownedContexts
  · intro mine whole part isPart key _ isMine
    rw [isPart.reducedRevisions isMine]

open Classical in
theorem splits_relationDiagnostics :
    Splits fun events => relationDiagnostics (factsOf events) := by
  have restricted : ∀ {mine whole part}, Part mine whole part →
      relationDiagnostics (factsOf part) =
        (relationDiagnostics (factsOf whole)).filter (ReducerDiagnostic.Concerns mine) :=
    fun isPart => congrArg Prod.snd isPart.relationClosure
  intro mine yours whole first second split
  ext diagnostic
  simp only [restricted split.left, restricted split.right, Finset.mem_union, Finset.mem_filter,
    ← and_or_left]
  refine (and_iff_left_of_imp fun member => ?_).symm
  rw [restricted (part_self whole)] at member
  obtain ⟨eventId, isNamed, isMentioned⟩ := (Finset.mem_filter.mp member).2
  exact (split.mentioned_cases isMentioned).imp (fun isMine => ⟨eventId, isNamed, isMine⟩)
    fun isYours => ⟨eventId, isNamed, isYours⟩

theorem splits_reviewDiagnostics : Splits fun events => reviewDiagnostics (factsOf events) := by
  have localizes : Localizes OpaqueId.any fun events => reviewCandidates (factsOf events) :=
    fun _ _ _ isPart => isPart.reviewCandidates
  apply localizes.flatMap
  intro mine whole part isPart key node found isMine
  exact diagnoseUnless_congr (isPart.reviewTarget found isMine)

theorem splits_publicationDiagnostics :
    Splits fun events => publicationDiagnostics (factsOf events) := by
  have localizes : Localizes OpaqueId.any fun events => livePublications (factsOf events) :=
    fun _ _ _ isPart => isPart.livePublications
  have ofContext : ∀ {mine whole part}, Part mine whole part → ∀ key node,
      (livePublications (factsOf whole)).get? key = some node → key.any ∈ mine →
        (node.key ∈ (validContexts (factsOf part)).keys ↔
          node.key ∈ (validContexts (factsOf whole)).keys) := by
    intro mine whole part isPart key node found isMine
    obtain ⟨keyMine, contextMine, -⟩ :=
      isPart.publicationNode (BTreeMap.get?_filter_eq_some.mp found).1
    rw [isPart.validContexts.mem_keys]
    exact and_iff_left (contextMine.mpr (keyMine.mp isMine))
  refine .union (.union (localizes.flatMap ?_) (localizes.flatMap ?_)) ?_
  · intro mine whole part isPart key node found isMine
    exact diagnoseUnless_congr (ofContext isPart key node found isMine)
  · intro mine whole part isPart key node found isMine
    apply diagnoseUnless_congr
    rw [ofContext isPart key node found isMine, isPart.publicationReferences found isMine]
  · apply splits_biUnion fun key : ContextKey => key.2.any
    · exact fun _ _ _ isPart _ => isPart.validContexts.mem_keys
    · intro mine whole part isPart key _ isMine
      rw [isPart.reducedPublications isMine]

theorem splits_associationDiagnostics :
    Splits fun events => associationDiagnostics (factsOf events) := by
  apply splits_biUnion OpaqueId.any
  · exact fun _ _ _ isPart _ => isPart.associationContextIds
  · intro mine whole part isPart contextId _ isMine
    rw [isPart.reducedAssociations isMine, isPart.associationsOf isMine]
    refine congrArg (· ∪ _) (BTreeMap.flatMap_congr fun key node found => ?_)
    exact diagnoseUnless_congr (isPart.associationChecks isMine found)

theorem splits_confirmationDiagnostics (hasher : ContentHasher) :
    Splits fun events => confirmationDiagnostics hasher (factsOf events) := by
  have localizes : Localizes OpaqueId.any fun events => confirmationCandidates (factsOf events) :=
    fun _ _ _ isPart => isPart.confirmationCandidates
  apply localizes.flatMap
  intro mine whole part isPart key node found isMine
  exact diagnoseUnless_congr (isPart.confirmationChecks hasher found isMine)

theorem splits_referenceDiagnostics :
    Splits fun events => referenceDiagnostics (factsOf events) := by
  have localizes : Localizes OpaqueId.any fun events => referenceCandidates (factsOf events) :=
    fun _ _ _ isPart => isPart.referenceCandidates
  apply localizes.flatMap
  intro mine whole part isPart key node found isMine
  rw [isPart.resolveReference found isMine]

theorem splits_conflictDiagnostics :
    Splits fun events => conflictDiagnostics (factsOf events) := by
  have localizes : Localizes OpaqueId.any fun events => conflictNodes (factsOf events) :=
    fun _ _ _ isPart => isPart.conflictNodes
  apply localizes.flatMap
  intro mine whole part isPart key node found isMine
  exact diagnoseUnless_congr (isPart.conflictChecks found isMine)

theorem splits_resolutionDiagnostics :
    Splits fun events => resolutionDiagnostics (factsOf events) := by
  have ofNodes : Localizes OpaqueId.any fun events => resolutionNodes (factsOf events) :=
    fun _ _ _ isPart => isPart.resolutionNodes
  have ofConflicts : Localizes OpaqueId.any fun events => validConflicts (factsOf events) :=
    fun _ _ _ isPart => isPart.validConflicts
  refine .union (ofNodes.flatMap ?_) (ofConflicts.flatMap ?_)
  · intro mine whole part isPart key node found isMine
    exact diagnoseUnless_congr (isPart.resolutionConflict found isMine)
  · intro mine whole part isPart conflictId conflictNode found isMine
    rw [isPart.reducedResolutions isMine found, isPart.resolutionsOf isMine]
    refine congrArg (· ∪ _) (BTreeMap.flatMap_congr fun key node _ => ?_)
    exact diagnoseUnless_congr (isPart.resolutionIsValid isMine found)

theorem splits_reduceDiagnostics (hasher : ContentHasher) :
    Splits fun events => reduceDiagnostics events hasher :=
  .union (.union (.union (.union (.union (.union (.union (.union (.union (.union (.union (.union
    splits_definitionDiagnostics splits_ambiguousOwnerDiagnostics) splits_missingSpaceDiagnostics)
    splits_intentDiagnostics) splits_contextDiagnostics) splits_relationDiagnostics)
    splits_reviewDiagnostics) splits_publicationDiagnostics) splits_associationDiagnostics)
    (splits_confirmationDiagnostics hasher)) splits_referenceDiagnostics)
    splits_conflictDiagnostics) splits_resolutionDiagnostics

/-! ### Candidate tables -/

theorem Part.uniqueSubmission {mine : Set AnyId} {whole part : List ReducerEvent}
    (isPart : Part mine whole part) {key : SubmissionId} {nodes : List CandidateNode}
    (found : (submissionTable.collect whole).get? key = some nodes) (isMine : key.any ∈ mine) :
    uniqueSubmission? (collectDefinitions part) nodes =
      uniqueSubmission? (collectDefinitions whole) nodes := by
  match nodes with
  | [] => rfl
  | [node] =>
      have eventMine := (isPart.listedEvent submissionTable (fun _ => rfl) found
        (List.mem_singleton_self node)).mp isMine
      exact if_congr (isPart.live eventMine) rfl rfl
  | _ :: _ :: _ => rfl

theorem localizes_candidateSubmissions (hasher : ContentHasher) : Localizes OpaqueId.any
    fun events => candidateSubmissions hasher (collectDefinitions events) := by
  intro mine whole part isPart
  simp only [candidateSubmissions]
  rw [show (collectDefinitions whole).submissions = submissionTable.collect whole by
      rw [collectDefinitions_eq],
    show (collectDefinitions part).submissions = submissionTable.collect part by
      rw [collectDefinitions_eq]]
  apply (isPart.table submissionTable fun _ => rfl).filterMap
  intro key nodes found isMine
  rw [isPart.uniqueSubmission found isMine]

theorem localizes_candidateSubmissionConflicts (hasher : ContentHasher) : Localizes OpaqueId.any
    fun events => candidateSubmissionConflicts hasher (collectDefinitions events) := by
  intro mine whole part isPart
  simp only [candidateSubmissionConflicts]
  rw [show (collectDefinitions whole).submissions = submissionTable.collect whole by
      rw [collectDefinitions_eq],
    show (collectDefinitions part).submissions = submissionTable.collect part by
      rw [collectDefinitions_eq]]
  apply (isPart.table submissionTable fun _ => rfl).filterMap
  intro key nodes found isMine
  rw [isPart.uniqueSubmission found isMine]

theorem localizes_candidateConfirmationConflicts : Localizes OpaqueId.any
    fun events => candidateConfirmationConflicts (collectDefinitions events) := by
  intro mine whole part isPart
  simp only [candidateConfirmationConflicts, collectDefinitions_eq]
  exact (localizes_duplicated confirmationByCandidateTable (fun _ => rfl) isPart).filterMap
    fun _ _ _ _ => rfl

/-! ### The composed projection -/

/-- Every map, every set and every diagnostic of a projection comes from
exactly one of two others. -/
structure DomainProjection.DisjointUnion (whole first second : DomainProjection) : Prop where
  candidates : whole.candidates.DisjointUnion first.candidates second.candidates
  candidateSubmissions :
    whole.candidateSubmissions.DisjointUnion first.candidateSubmissions second.candidateSubmissions
  candidateSubmissionConflicts :
    whole.candidateSubmissionConflicts.DisjointUnion first.candidateSubmissionConflicts
      second.candidateSubmissionConflicts
  candidateConfirmations :
    whole.candidateConfirmations.DisjointUnion first.candidateConfirmations
      second.candidateConfirmations
  candidateConfirmationConflicts :
    whole.candidateConfirmationConflicts.DisjointUnion first.candidateConfirmationConflicts
      second.candidateConfirmationConflicts
  contextSpaceAssociations :
    whole.contextSpaceAssociations.DisjointUnion first.contextSpaceAssociations
      second.contextSpaceAssociations
  contextSpaceAssociationHeads :
    whole.contextSpaceAssociationHeads.DisjointUnion first.contextSpaceAssociationHeads
      second.contextSpaceAssociationHeads
  contextSpaceAssociationConflicts :
    whole.contextSpaceAssociationConflicts.DisjointUnion first.contextSpaceAssociationConflicts
      second.contextSpaceAssociationConflicts
  spaces : whole.spaces.DisjointUnion first.spaces second.spaces
  engineeringReferences :
    whole.engineeringReferences.DisjointUnion first.engineeringReferences
      second.engineeringReferences
  semanticConflictCandidates :
    whole.semanticConflictCandidates =
        first.semanticConflictCandidates ∪ second.semanticConflictCandidates ∧
      Disjoint first.semanticConflictCandidates second.semanticConflictCandidates
  semanticConflicts :
    whole.semanticConflicts.DisjointUnion first.semanticConflicts second.semanticConflicts
  quarantinedEventIds :
    whole.quarantinedEventIds = first.quarantinedEventIds ∪ second.quarantinedEventIds ∧
      Disjoint first.quarantinedEventIds second.quarantinedEventIds
  diagnostics :
    whole.diagnostics = first.diagnostics ∪ second.diagnostics ∧
      Disjoint first.diagnostics second.diagnostics

theorem spaceId_of_conflictCandidate {spaceId : SpaceId} {left right : ContextProjection}
    {candidate : SemanticConflictCandidate}
    (found : conflictCandidate spaceId left right = some candidate) :
    candidate.spaceId = spaceId := by
  unfold conflictCandidate at found
  split at found
  · split at found
    · obtain ⟨-, isCandidate⟩ := Option.ite_none_right_eq_some.mp found
      rw [← Option.some.inj isCandidate]
    · cases found
  · cases found

section Union

variable {mine yours : Set AnyId} {whole first second : List ReducerEvent}
  (split : Split mine yours whole first second)
include split

theorem Split.conflictCandidates :
    conflictCandidates (projectSpaces (factsOf whole)) =
        conflictCandidates (projectSpaces (factsOf first)) ∪
          SharedContext.conflictCandidates (projectSpaces (factsOf second)) ∧
      Disjoint (SharedContext.conflictCandidates (projectSpaces (factsOf first)))
        (SharedContext.conflictCandidates (projectSpaces (factsOf second))) := by
  have localizes : Localizes OpaqueId.any fun events => projectSpaces (factsOf events) :=
    fun _ _ _ isPart => isPart.projectSpaces
  have spaceOf : ∀ {facts candidate},
      candidate ∈ SharedContext.conflictCandidates (projectSpaces facts) →
        candidate.spaceId ∈ (projectSpaces facts).keys := by
    intro facts candidate member
    obtain ⟨spaceId, space, found, inSpace⟩ := BTreeMap.mem_flatMap.mp member
    obtain ⟨leftId, left, -, inLeft⟩ := BTreeMap.mem_flatMap.mp inSpace
    obtain ⟨rightId, right, -, inPair⟩ := BTreeMap.mem_flatMap.mp inLeft
    have sameSpace : candidate.spaceId = spaceId := by
      split at inPair
      · exact spaceId_of_conflictCandidate (Option.mem_toFinset.mp inPair)
      · exact absurd inPair (Finset.notMem_empty _)
    rw [sameSpace]
    exact BTreeMap.mem_keys_of_get? found
  have splits : Splits fun events => SharedContext.conflictCandidates
      (projectSpaces (factsOf events)) := by
    apply localizes.flatMap
    intros
    rfl
  refine ⟨splits split, ?_⟩
  · rw [Finset.disjoint_left]
    intro candidate isFirst isSecond
    exact Finset.disjoint_left.mp (localizes.disjointUnion split).disjoint (spaceOf isFirst)
      (spaceOf isSecond)

theorem Split.quarantined_disjoint (hasher : ContentHasher) :
    Disjoint (reduce first hasher).quarantinedEventIds
      (reduce second hasher).quarantinedEventIds := by
  rw [Finset.disjoint_left]
  intro eventId isFirst isSecond
  obtain ⟨event, isEvent, rfl, -⟩ := mem_quarantinedEventIds.mp isFirst
  obtain ⟨other, isOther, sameId, -⟩ := mem_quarantinedEventIds.mp isSecond
  obtain ⟨-, isMine⟩ := split.left.mem.mp isEvent
  obtain ⟨-, isYours⟩ := split.right.mem.mp isOther
  exact split.apart _ isMine (sameId ▸ isYours)

theorem Split.diagnostics_disjoint (hasher : ContentHasher) :
    Disjoint (reduce first hasher).diagnostics (reduce second hasher).diagnostics := by
  rw [Finset.disjoint_left]
  intro diagnostic isFirst isSecond
  obtain ⟨eventId, named⟩ := blaming_reduceDiagnostics diagnostic isFirst
  apply Finset.disjoint_left.mp (split.quarantined_disjoint hasher)
  · exact mem_blamed.mpr ⟨diagnostic, isFirst, named⟩
  · exact mem_blamed.mpr ⟨diagnostic, isSecond, named⟩

theorem Split.reduce (hasher : ContentHasher) :
    (reduce whole hasher).DisjointUnion (reduce first hasher)
      (SharedContext.reduce second hasher) where
  candidates := Localizes.disjointUnion (fun _ _ _ isPart => isPart.projectCandidates) split
  candidateSubmissions := (localizes_candidateSubmissions hasher).disjointUnion split
  candidateSubmissionConflicts :=
    (localizes_candidateSubmissionConflicts hasher).disjointUnion split
  candidateConfirmations :=
    Localizes.disjointUnion (fun _ _ _ isPart => isPart.candidateConfirmations hasher) split
  candidateConfirmationConflicts := localizes_candidateConfirmationConflicts.disjointUnion split
  contextSpaceAssociations :=
    Localizes.disjointUnion (fun _ _ _ isPart => isPart.contextSpaceAssociations) split
  contextSpaceAssociationHeads :=
    Localizes.disjointUnion (fun _ _ _ isPart => isPart.contextSpaceAssociationHeads) split
  contextSpaceAssociationConflicts :=
    Localizes.disjointUnion (fun _ _ _ isPart => isPart.contextSpaceAssociationConflicts) split
  spaces := Localizes.disjointUnion (fun _ _ _ isPart => isPart.spaces hasher) split
  engineeringReferences :=
    Localizes.disjointUnion (fun _ _ _ isPart => isPart.engineeringReferences) split
  semanticConflictCandidates := split.conflictCandidates
  semanticConflicts :=
    Localizes.disjointUnion (fun _ _ _ isPart => isPart.semanticConflicts) split
  quarantinedEventIds := by
    refine ⟨?_, split.quarantined_disjoint hasher⟩
    have diagnostics := splits_reduceDiagnostics hasher split
    exact (congrArg blamed diagnostics).trans (blamed_union _ _)
  diagnostics := ⟨splits_reduceDiagnostics hasher split, split.diagnostics_disjoint hasher⟩

end Union

theorem part_between {before part after : List ReducerEvent}
    (independent : ∀ event ∈ before ++ after, ∀ id ∈ event.identifiers, id ∉ mentioned part) :
    Part {id | id ∈ mentioned part} (before ++ part ++ after) part where
  coherent event isEvent id isMentioned := by
    rw [List.append_assoc, List.mem_append, List.mem_append] at isEvent
    by_cases inPart : event ∈ part
    · have here : ∀ other ∈ event.identifiers, other ∈ mentioned part := fun other member =>
        List.mem_flatMap.mpr ⟨event, inPart, member⟩
      exact iff_of_true (here id isMentioned) (here event.eventId.any List.mem_cons_self)
    · have around : event ∈ before ++ after := by
        rw [List.mem_append]
        exact isEvent.imp_right fun rest => rest.resolve_left inPart
      exact iff_of_false (independent event around id isMentioned)
        (independent event around event.eventId.any List.mem_cons_self)
  selected := by
    refine ⟨fun event => event.eventId.any ∈ mentioned part, ?_,
      fun event isEvent => decide_eq_true_iff⟩
    have outside : ∀ events : List ReducerEvent, (∀ event ∈ events, event ∈ before ++ after) →
        events.filter (fun event => event.eventId.any ∈ mentioned part) = [] := by
      intro events around
      rw [List.filter_eq_nil_iff]
      intro event isEvent kept
      exact independent event (around event isEvent) _ List.mem_cons_self (of_decide_eq_true kept)
    have inside : part.filter (fun event => event.eventId.any ∈ mentioned part) = part := by
      rw [List.filter_eq_self]
      intro event isEvent
      exact decide_eq_true (List.mem_flatMap.mpr ⟨event, isEvent, List.mem_cons_self⟩)
    rw [List.filter_append, List.filter_append, inside,
      outside before fun _ member => List.mem_append_left _ member,
      outside after fun _ member => List.mem_append_right _ member,
      List.nil_append, List.append_nil]

theorem split_append {events others : List ReducerEvent}
    (independent : (mentioned events).Disjoint (mentioned others)) :
    Split {id | id ∈ mentioned events} {id | id ∈ mentioned others} (events ++ others) events
      others where
  left := by
    apply @part_between [] events others
    intro event isEvent id isMentioned inEvents
    exact independent inEvents (List.mem_flatMap.mpr ⟨event, isEvent, isMentioned⟩)
  right := by
    rw [← List.append_nil (events ++ others)]
    apply part_between
    intro event isEvent id isMentioned inOthers
    rw [List.append_nil] at isEvent
    exact independent (List.mem_flatMap.mpr ⟨event, isEvent, isMentioned⟩) inOthers
  apart _ isMine isYours := independent isMine isYours
  cover event isEvent := by
    rcases List.mem_append.mp isEvent with isFirst | isSecond
    · exact .inl (List.mem_flatMap.mpr ⟨event, isFirst, List.mem_cons_self⟩)
    · exact .inr (List.mem_flatMap.mpr ⟨event, isSecond, List.mem_cons_self⟩)

/-- Histories without a common identifier reduce to the disjoint union of
their projections. -/
theorem reduce_append_disjointUnion (hasher : ContentHasher) {events others : List ReducerEvent}
    (independent : (mentioned events).Disjoint (mentioned others)) :
    (reduce (events ++ others) hasher).DisjointUnion (reduce events hasher)
      (reduce others hasher) :=
  (split_append independent).reduce hasher

/-- A Space of its own, and an event for a Space that nobody creates. -/
def sampleNeighbours : List ReducerEvent :=
  [⟨⟨11⟩, .spaceCreated ⟨11⟩ (sampleIntent ⟨11⟩ [])⟩,
    ⟨⟨12⟩, .spaceIntentRevisionAdded ⟨12⟩ (sampleIntent ⟨12⟩ [⟨11⟩])⟩]

theorem reduce_append_disjointUnion_sample :
    (reduce ([sampleCreation, sampleSuccessor, sampleOrphan] ++ sampleNeighbours)
        sampleHasher).DisjointUnion
      (reduce [sampleCreation, sampleSuccessor, sampleOrphan] sampleHasher)
      (reduce sampleNeighbours sampleHasher) := by
  have apart : ∀ id ∈ mentioned [sampleCreation, sampleSuccessor, sampleOrphan],
      id ∉ mentioned sampleNeighbours := by
    decide
  exact reduce_append_disjointUnion sampleHasher fun id first second => apart id first second

/-- Evidence identifiers count as well: one used on both sides is a duplicate
definition, and both revisions are quarantined. -/
example :
    let revision (spaceId : SpaceId) (eventId : EventId) (contextId : ContextId)
        (revisionId : RevisionId) : List ReducerEvent :=
      [⟨eventId, .contextRevisionAdded spaceId contextId (sampleRevision revisionId [] ⟨1⟩)⟩]
    let events := sampleCreation :: revision ⟨1⟩ ⟨5⟩ ⟨1⟩ ⟨5⟩
    let others := sampleNeighbours.take 1 ++ revision ⟨11⟩ ⟨15⟩ ⟨2⟩ ⟨15⟩
    (reduce events sampleHasher).quarantinedEventIds = ∅ ∧
      (reduce others sampleHasher).quarantinedEventIds = ∅ ∧
      (reduce (events ++ others) sampleHasher).quarantinedEventIds = {⟨5⟩, ⟨15⟩} := by
  decide +kernel

end SharedContext
