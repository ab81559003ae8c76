import SharedContext.Domain.Validation
import Mathlib.Data.List.Sort

/-!
# Working Intent

The Agent's current, non-factual understanding of one Task.  White space,
letter case and the order of list items carry no meaning: the semantic hash is
taken of the canonical form, while the text itself is kept as written.
-/

namespace SharedContext

def maxWorkingIntentTextBytes : Nat := 4 * 1024
def maxWorkingIntentItemBytes : Nat := 1024
def maxWorkingIntentItemsPerField : Nat := 64
def maxWorkingIntentTotalBytes : Nat := 64 * 1024

structure WorkingIntentSnapshot where
  goal : String
  currentDirection : Option String
  inScope : List String
  outOfScope : List String
  domains : List String
  platforms : List String
  constraints : List String
  acceptanceConditions : List String
  artifactHints : List String
  interfaceHints : List String
  openQuestions : List String
  deriving DecidableEq, Repr

structure CanonicalWorkingIntent where
  goal : String
  currentDirection : Option String
  inScope : List String
  outOfScope : List String
  domains : List String
  platforms : List String
  constraints : List String
  acceptanceConditions : List String
  artifactHints : List String
  interfaceHints : List String
  openQuestions : List String
  deriving DecidableEq, Repr

/-- What canonicalising takes from outside the workspace: the Unicode tables
of the standard library, the JSON encoder derived by `serde` and the lower-case
hexadecimal SHA-256 digest. -/
structure IntentText where
  strToLowercase : String → String
  charToLowercase : Char → List Char
  isAlphanumeric : Char → Bool
  canonicalToVec : CanonicalWorkingIntent → List UInt8
  sha256Hex : List UInt8 → String

/-- The maximal runs of characters that are not white space. -/
def splitWhitespace (value : String) : List String :=
  ((value.toList.splitOnP isWhiteSpace).filter fun run => !run.isEmpty).map String.ofList

def validateBoundedText (value field : String) (maxBytes : Nat) : Result Unit := do
  requireText value field
  if value.utf8ByteSize > maxBytes then
    throw (invalid s!"{field} exceeds {maxBytes} UTF-8 bytes")

section Canonical

variable (text : IntentText)

def normalizeText (value : String) : String :=
  text.strToLowercase (String.intercalate " " (splitWhitespace value))

def canonicalList (values : List String) : List String :=
  (values.map (normalizeText text)).insertionSort (· ≤ ·)

/-- Check the items of a list field in order, given the canonical forms of the
items before. -/
def validateListItems (field : String) : List String → List (String × Nat) → Result Unit
  | _, [] => pure ()
  | seen, (value, index) :: rest => do
      validateBoundedText value s!"{field}[{index}]" maxWorkingIntentItemBytes
      if normalizeText text value ∈ seen then
        throw (invalid s!"{field} must not contain canonically duplicate items")
      validateListItems field (normalizeText text value :: seen) rest

def validateList (values : List String) (field : String) : Result Unit := do
  if values.length > maxWorkingIntentItemsPerField then
    throw (invalid s!"{field} exceeds {maxWorkingIntentItemsPerField} items")
  validateListItems text field [] values.zipIdx

namespace WorkingIntentSnapshot

def listFields (intent : WorkingIntentSnapshot) : List (String × List String) :=
  [("working_intent.in_scope", intent.inScope),
    ("working_intent.out_of_scope", intent.outOfScope),
    ("working_intent.domains", intent.domains),
    ("working_intent.platforms", intent.platforms),
    ("working_intent.constraints", intent.constraints),
    ("working_intent.acceptance_conditions", intent.acceptanceConditions),
    ("working_intent.artifact_hints", intent.artifactHints),
    ("working_intent.interface_hints", intent.interfaceHints),
    ("working_intent.open_questions", intent.openQuestions)]

def authoritativeTextBytes (intent : WorkingIntentSnapshot) : Nat :=
  intent.goal.utf8ByteSize + (intent.currentDirection.map String.utf8ByteSize).getD 0 +
    ((intent.listFields.flatMap Prod.snd).map String.utf8ByteSize).sum

/-- Bounded, non-empty, unique structured content with disjoint scopes.  Of
several overlapping scope items the error names the first. -/
def validate (intent : WorkingIntentSnapshot) : Result Unit := do
  validateBoundedText intent.goal "working_intent.goal" maxWorkingIntentTextBytes
  match intent.currentDirection with
  | some direction =>
      validateBoundedText direction "working_intent.current_direction" maxWorkingIntentTextBytes
  | none => pure ()
  intent.listFields.forM fun entry => validateList text entry.2 entry.1
  match (intent.inScope.map (normalizeText text)).find? fun item =>
      item ∈ intent.outOfScope.map (normalizeText text) with
  | some overlap =>
      throw (invalid s!"working_intent.in_scope and out_of_scope overlap: {overlap}")
  | none => pure ()
  if intent.authoritativeTextBytes > maxWorkingIntentTotalBytes then
    throw (invalid s!"Working Intent exceeds {maxWorkingIntentTotalBytes} total UTF-8 bytes")

def canonical (intent : WorkingIntentSnapshot) : CanonicalWorkingIntent where
  goal := normalizeText text intent.goal
  currentDirection := intent.currentDirection.map (normalizeText text)
  inScope := canonicalList text intent.inScope
  outOfScope := canonicalList text intent.outOfScope
  domains := canonicalList text intent.domains
  platforms := canonicalList text intent.platforms
  constraints := canonicalList text intent.constraints
  acceptanceConditions := canonicalList text intent.acceptanceConditions
  artifactHints := canonicalList text intent.artifactHints
  interfaceHints := canonicalList text intent.interfaceHints
  openQuestions := canonicalList text intent.openQuestions

/-- The hash of the canonical semantics, without the validation before it. -/
def semanticHash (intent : WorkingIntentSnapshot) : String :=
  "sha256:" ++ text.sha256Hex (text.canonicalToVec (intent.canonical text))

def canonicalSemanticHash (intent : WorkingIntentSnapshot) : Result String := do
  intent.validate text
  pure (intent.semanticHash text)

theorem canonicalSemanticHash_eq_ok {intent : WorkingIntentSnapshot} {hash : String} :
    intent.canonicalSemanticHash text = .ok hash ↔
      intent.validate text = .ok () ∧ hash = intent.semanticHash text := by
  rw [canonicalSemanticHash, Result.seq_eq_ok]
  constructor
  · rintro ⟨valid, hashEq⟩
    cases hashEq
    exact ⟨valid, rfl⟩
  · rintro ⟨valid, rfl⟩
    exact ⟨valid, rfl⟩

end WorkingIntentSnapshot

/-- One character of the goal comparison key: a letter is lowercased and takes
the separator that is due, any other character makes one due. -/
def normalizedGoalStep (state : List Char × Bool) (character : Char) : List Char × Bool :=
  if text.isAlphanumeric character then
    let separated := if state.2 && !state.1.isEmpty then state.1 ++ [' '] else state.1
    (separated ++ text.charToLowercase character, false)
  else
    (state.1, true)

def normalizedGoal (goal : String) : String :=
  String.ofList (goal.toList.foldl (normalizedGoalStep text) ([], false)).1

end Canonical

end SharedContext
