import SharedContext.Library.Utf8

/-!
# Telemetry events

An event has a closed set of fields.  Normalizing an event bounds its texts to
tokens of a few characters and drops its free text.
-/

namespace SharedContext.Telemetry

abbrev Bytes := List UInt8

inductive EntryPoint
  | cli
  | hook
  | mcp
  | maintenance
  | collector
  deriving DecidableEq

inductive EventKind
  | operationStarted
  | operationFinished
  | hookDecision
  | toolStarted
  | toolFinished
  | protocolFailure
  | maintenanceStepFinished
  deriving DecidableEq

inductive Outcome
  | started
  | success
  | failure
  | disabled
  | failOpen
  | degraded
  | dropped
  | unknown
  deriving DecidableEq

inductive Authorization
  | notApplicable
  | authorized
  | unauthorized
  | unverified
  deriving DecidableEq

/-- A deliberately closed telemetry schema: there is no arbitrary attribute map. -/
structure Event where
  occurredAtUnixMs : Int64
  durationMs : Option UInt32
  sequence : UInt32
  entryPoint : EntryPoint
  kind : EventKind
  outcome : Outcome
  authorization : Authorization
  invocationId : String
  programVersion : String
  operation : Option String
  errorCode : Option String
  errorFamily : Option String
  reason : Option String
  summary : Option String
  sessionDigest : Option String
  taskId : Option String
  taskSessionId : Option String
  episodeId : Option String
  checkpointId : Option String
  operationId : Option String
  resultCount : Option UInt32
  deriving DecidableEq

/-! ### Bounded texts -/

def isAsciiAlphanumeric (byte : UInt8) : Bool :=
  ('0'.toUInt8 ≤ byte && byte ≤ '9'.toUInt8) || ('A'.toUInt8 ≤ byte && byte ≤ 'Z'.toUInt8) ||
    ('a'.toUInt8 ≤ byte && byte ≤ 'z'.toUInt8)

def isIdentifierByte (byte : UInt8) : Bool :=
  isAsciiAlphanumeric byte || byte == '-'.toUInt8 || byte == '_'.toUInt8 ||
    byte == '.'.toUInt8 || byte == ':'.toUInt8

def isTokenByte (byte : UInt8) : Bool :=
  isIdentifierByte byte || byte == ' '.toUInt8

def boundedWith (value : String) (max : Nat) (allow : UInt8 → Bool) : String :=
  Utf8.ofAscii ((((Utf8.bytes value).take (max * 4)).filter allow).take max)

def boundedIdentifier (value : String) (max : Nat) : String :=
  boundedWith value max isIdentifierByte

def boundedToken (value : String) (max : Nat) : String :=
  boundedWith value max isTokenByte

def boundedOption (value : Option String) (max : Nat) : Option String :=
  match value with
  | none => none
  | some value =>
      let bounded := boundedToken value max
      if bounded = "" then none else some bounded

/-- A token is validated whole: the prefix of a digest is not the same identity. -/
def validatedIdentifierOption (value : Option String) (max : Nat) : Option String :=
  match value with
  | none => none
  | some value =>
      if value = "" ∨ max < (Utf8.bytes value).length ∨
          (Utf8.bytes value).all isIdentifierByte = false then none
      else some value

/-- Bound every field, and discard the free text. -/
def Event.boundedFrom (source : Event) : Event :=
  { source with
    invocationId := boundedIdentifier source.invocationId 64
    programVersion := boundedToken source.programVersion 32
    operation := boundedOption source.operation 48
    errorCode := boundedOption source.errorCode 48
    errorFamily := boundedOption source.errorFamily 32
    reason := boundedOption source.reason 64
    summary := none
    sessionDigest := boundedOption source.sessionDigest 64
    taskId := boundedOption source.taskId 64
    taskSessionId := boundedOption source.taskSessionId 64
    episodeId := boundedOption source.episodeId 64
    checkpointId := boundedOption source.checkpointId 64
    operationId := validatedIdentifierOption source.operationId 96 }

def Event.normalized (event : Event) : Event :=
  event.boundedFrom

/-! ### The lengths of bounded texts -/

theorem isTokenByte_of_isIdentifierByte {byte : UInt8} (identifier : isIdentifierByte byte = true) :
    isTokenByte byte = true := by
  rw [isTokenByte, identifier, Bool.true_or]

theorem isTokenByte_ascii {byte : UInt8} (token : isTokenByte byte = true) :
    byte.toNat < 128 := by
  have table : ∀ code : Fin 256, isTokenByte (UInt8.ofNat code) = true → code.val < 128 := by
    decide +kernel
  have entry := table ⟨byte.toNat, byte.toNat_lt⟩
  rw [UInt8.ofNat_toNat] at entry
  exact entry token

theorem bytes_boundedWith {allow : UInt8 → Bool} (tokens : ∀ byte, allow byte = true →
    isTokenByte byte = true) (value : String) (max : Nat) :
    Utf8.bytes (boundedWith value max allow) =
      (((Utf8.bytes value).take (max * 4)).filter allow).take max := by
  refine Utf8.bytes_ofAscii fun byte member => isTokenByte_ascii (tokens byte ?_)
  exact List.of_mem_filter (List.mem_of_mem_take member)

theorem length_boundedWith {allow : UInt8 → Bool} (tokens : ∀ byte, allow byte = true →
    isTokenByte byte = true) (value : String) (max : Nat) :
    (Utf8.bytes (boundedWith value max allow)).length ≤ max := by
  rw [bytes_boundedWith tokens, List.length_take]
  omega

/-- The bytes of an optional text, none of an absent one. -/
def optionBytes (value : Option String) : Bytes :=
  value.elim [] Utf8.bytes

theorem length_boundedOption (value : Option String) (max : Nat) :
    (optionBytes (boundedOption value max)).length ≤ max := by
  unfold boundedOption
  cases value with
  | none => simp [optionBytes]
  | some value =>
      dsimp only
      split
      · simp [optionBytes]
      · exact length_boundedWith (fun _ => id) value max

theorem length_validatedIdentifierOption (value : Option String) (max : Nat) :
    (optionBytes (validatedIdentifierOption value max)).length ≤ max := by
  unfold validatedIdentifierOption
  cases value with
  | none => simp [optionBytes]
  | some value =>
      dsimp only
      split
      · simp [optionBytes]
      · rename_i accepted
        simp only [not_or, Nat.not_lt] at accepted
        exact accepted.2.1

end SharedContext.Telemetry
