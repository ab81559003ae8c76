import Mathlib.Data.Finset.Sort
import Mathlib.Data.List.Lex
import Mathlib.Data.Prod.Lex
import Mathlib.Data.String.Basic
import SharedContext.Domain.Hints
import SharedContext.Domain.Reservation

/-!
# Deriving engineering coordinates from Claim text

The paths a Claim spells are looked up first; only a Claim none of whose paths
is placed is read by the type names it writes.  Ordered sets are `Finset`s.
-/

namespace SharedContext

def derivedByServerLimitation : String := "derived_by_server_from_claim_text"

def uniqueBasenameLimitation : String := "derived_from_unique_basename"

def symbolMentionLimitation : String := "derived_from_symbol_mention"

def maxSymbolDerivedReferencesPerClaim : Nat := 3

def maxSymbolMentionsPerClaim : Nat := 8

def maxUnresolvedSample : Nat := 8

/-- One resolved repository coordinate of a spelling. -/
structure ResolvedReference where
  repositoryId : RepositoryId
  path : RepoRelativePath
  derivedFromUniqueBasename : Bool
  derivedFromSymbolMention : Bool
  deriving DecidableEq, Repr

def ResolvedReference.key (reference : ResolvedReference) : String × String :=
  (reference.repositoryId.text, reference.path.text)

inductive MentionResolution
  | placed (reference : ResolvedReference)
  | ambiguous (matchCount : Nat)
  | unplaced
  deriving DecidableEq, Repr

inductive MentionChannel
  | path
  | symbol
  deriving DecidableEq, Repr

/-- A spelling that several files answered to, and how many. -/
structure AmbiguousMention where
  spelling : List Char
  channel : MentionChannel
  matchCount : Nat
  deriving DecidableEq, Repr

structure ClaimResolver where
  resolvePath : PathCandidate → MentionResolution
  resolveSymbol : List Char → MentionResolution

/-- A coordinate with the mentions that rank it. -/
structure ResolvedMentions where
  reference : ResolvedReference
  mentions : Nat
  firstOrder : Nat
  deriving DecidableEq, Repr

structure ClaimReferenceDerivation where
  engineeringReferences : List EngineeringReferenceDraft
  topicKeyHint : Option String
  unresolvedHints : Finset (List Char)
  ambiguousMentions : Finset AmbiguousMention

def relationForKind : ContextKind → ReferenceRelation
  | .progress => .implements
  | .decision | .contract | .issue | .risk | .validation | .discovery => .dependsOn

def kindName : ContextKind → String
  | .decision => "decision"
  | .contract => "contract"
  | .issue => "issue"
  | .risk => "risk"
  | .validation => "validation"
  | .discovery => "discovery"
  | .progress => "progress"

/-! ### Claim texts -/

section ClaimTexts

variable (statement rationale : String) (evidenceSummaries : List String)

def claimTexts : List (List Char) :=
  statement.toList :: rationale.toList :: evidenceSummaries.map String.toList

def claimPathCandidates : List PathCandidate :=
  (claimTexts statement rationale evidenceSummaries).flatMap fun text => (scanText text).paths

def claimIdentifiers : List (List Char) :=
  (claimTexts statement rationale evidenceSummaries).flatMap fun text =>
    (scanText text).identifiers

def claimSymbolMentions : List (List Char) :=
  (symbolMentions (claimTexts statement rationale evidenceSummaries)).take
    maxSymbolMentionsPerClaim

local instance lawfulBEq_basename : LawfulBEq (List Char) := inferInstance

/-- The unresolved hints of a Claim whose coordinates are already placed. -/
def claimHints (resolved : List EngineeringReferenceDraft) : Finset (List Char) :=
  let placed := resolved.map fun reference => behindLast '/' reference.locator.path.text.toList
  (((claimPathCandidates statement rationale evidenceSummaries).filter fun candidate =>
      candidate.basename ∉ placed).map PathCandidate.hintText ++
    claimIdentifiers statement rationale evidenceSummaries).toFinset

end ClaimTexts

/-! ### Reading the mentions of a Claim -/

/-- Record a placed coordinate, merging a repeated mention. -/
def absorbReference (placed : List ResolvedMentions) (reference : ResolvedReference)
    (order : Nat) : List ResolvedMentions :=
  if reference.key ∈ placed.map (·.reference.key) then
    placed.map fun entry =>
      if entry.reference.key = reference.key then
        { entry with
          mentions := entry.mentions + 1
          reference := { entry.reference with
            derivedFromUniqueBasename :=
              entry.reference.derivedFromUniqueBasename && reference.derivedFromUniqueBasename
            derivedFromSymbolMention :=
              entry.reference.derivedFromSymbolMention && reference.derivedFromSymbolMention } }
      else entry
  else placed ++ [⟨reference, 1, order⟩]

structure ReadMentions where
  placed : List ResolvedMentions
  hints : Finset (List Char)
  ambiguous : Finset AmbiguousMention

def readPathMention (resolver : ClaimResolver) (read : ReadMentions)
    (candidate : PathCandidate) (order : Nat) : ReadMentions :=
  match resolver.resolvePath candidate with
  | .placed reference => { read with placed := absorbReference read.placed reference order }
  | .ambiguous matchCount =>
      { read with
        hints := insert candidate.hintText read.hints
        ambiguous := insert ⟨candidate.spelling, .path, matchCount⟩ read.ambiguous }
  | .unplaced => { read with hints := insert candidate.hintText read.hints }

def readSymbolMention (resolver : ClaimResolver) (read : ReadMentions) (symbol : List Char)
    (order : Nat) : ReadMentions :=
  match resolver.resolveSymbol symbol with
  | .placed reference => { read with placed := absorbReference read.placed reference order }
  | .ambiguous matchCount =>
      { read with ambiguous := insert ⟨symbol, .symbol, matchCount⟩ read.ambiguous }
  | .unplaced => read

/-- Type names are read until enough coordinates are placed. -/
def readSymbolMentions (resolver : ClaimResolver) :
    List (List Char) → Nat → ReadMentions → ReadMentions
  | [], _, read => read
  | symbol :: rest, order, read =>
      if read.placed.length = maxSymbolDerivedReferencesPerClaim then read
      else
        readSymbolMentions resolver rest (order + 1)
          (readSymbolMention resolver read symbol order)

def readPathMentions (resolver : ClaimResolver) (entries : List (PathCandidate × Nat))
    (read : ReadMentions) : ReadMentions :=
  entries.foldl (fun read entry => readPathMention resolver read entry.1 entry.2) read

def readMentions (resolver : ClaimResolver) (paths : List PathCandidate)
    (symbols : List (List Char)) : ReadMentions :=
  let byPath := readPathMentions resolver paths.zipIdx ⟨[], ∅, ∅⟩
  if byPath.placed = [] then readSymbolMentions resolver symbols paths.length byPath else byPath

/-! ### The derivation -/

def referenceLimitations (reference : ResolvedReference) : List String :=
  [derivedByServerLimitation] ++
    (if reference.derivedFromUniqueBasename then [uniqueBasenameLimitation] else []) ++
    if reference.derivedFromSymbolMention then [symbolMentionLimitation] else []

def referenceDraft (kind : ContextKind) (statement : String) (reference : ResolvedReference) :
    EngineeringReferenceDraft where
  repositoryId := reference.repositoryId
  artifactKind := .file
  relation := relationForKind kind
  locator := .file reference.path
  supports := statement
  limitations := referenceLimitations reference

def orderedMentions (placed : List ResolvedMentions) : List ResolvedMentions :=
  placed.insertionSort fun first second =>
    toLex first.reference.key ≤ toLex second.reference.key

def preferMention (best : Option ResolvedMentions) (entry : ResolvedMentions) :
    Option ResolvedMentions :=
  match best with
  | none => some entry
  | some best =>
      if best.mentions < entry.mentions ∨
          best.mentions = entry.mentions ∧ entry.firstOrder ≤ best.firstOrder then
        some entry
      else some best

def topicKeyOf (kind : ContextKind) (placed : List ResolvedMentions) : Option String :=
  (placed.foldl preferMention none).map fun entry =>
    kindName kind ++ ":" ++ entry.reference.repositoryId.text ++ ":" ++ entry.reference.path.text

/-- Engineering references, a topic hint, and unresolved hints of one Claim. -/
def deriveClaimReferences (kind : ContextKind) (statement rationale : String)
    (evidenceSummaries : List String) (resolver : ClaimResolver) : ClaimReferenceDerivation :=
  let read := readMentions resolver (claimPathCandidates statement rationale evidenceSummaries)
    (claimSymbolMentions statement rationale evidenceSummaries)
  let placed := orderedMentions read.placed
  { engineeringReferences := placed.map fun entry => referenceDraft kind statement entry.reference
    topicKeyHint := topicKeyOf kind placed
    unresolvedHints :=
      read.hints ∪ (claimIdentifiers statement rationale evidenceSummaries).toFinset
    ambiguousMentions := read.ambiguous }

end SharedContext
