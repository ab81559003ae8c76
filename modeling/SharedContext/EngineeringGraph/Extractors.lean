import SharedContext.Domain.Json
import SharedContext.EngineeringGraph.SourceText

/-!
# Extractors

What is found in a source of each language.  Nothing is parsed in full: code
is read line by line, and only JSON is read as a document.
-/

namespace SharedContext.EngineeringGraph

open SharedContext.Words

section Declarations

variable (classes : CharacterClasses)

/-! ### Declarations of the code languages -/

def testOr (isTest : Bool) (kind : ArtifactKind) : ArtifactKind :=
  if isTest then .test else kind

def rustPrefixes : List String :=
  ["pub ", "pub(crate) ", "async ", "unsafe "]

def rustPatterns (isTest : Bool) : List (String × ArtifactKind) :=
  [("fn ", testOr isTest .symbol), ("struct ", .symbol), ("enum ", .symbol), ("trait ", .symbol),
    ("type ", .symbol), ("mod ", .module)]

def rustDeclaration (line : List Char) (isTest : Bool) : List (ArtifactKind × List Char) :=
  declarationTokens classes (stripPrefixes rustPrefixes line) (rustPatterns isTest)

def typescriptPrefixes : List String :=
  ["export ", "default ", "declare ", "async "]

def typescriptPatterns : List (String × ArtifactKind) :=
  [("function ", .symbol), ("class ", .symbol), ("interface ", .schema), ("type ", .schema),
    ("enum ", .schema), ("const ", .symbol)]

def typescriptDeclaration (line : List Char) (_isTest : Bool) :
    List (ArtifactKind × List Char) :=
  declarationTokens classes (stripPrefixes typescriptPrefixes line) typescriptPatterns

def swiftPrefixes : List String :=
  ["public ", "private ", "internal ", "open ", "static "]

def swiftPatterns : List (String × ArtifactKind) :=
  [("func ", .symbol), ("class ", .symbol), ("struct ", .symbol), ("enum ", .schema),
    ("protocol ", .schema)]

/-- A Swift test is a declaration whose name says so. -/
def swiftDeclaration (line : List Char) (_isTest : Bool) : List (ArtifactKind × List Char) :=
  (declarationTokens classes (stripPrefixes swiftPrefixes line) swiftPatterns).map
    fun (kind, name) =>
      (if kind = .symbol ∧ "test".toList <+: name then .test else kind, name)

def kotlinPrefixes : List String :=
  ["public ", "private ", "internal ", "protected ", "suspend ", "data "]

def kotlinPatterns (isTest : Bool) : List (String × ArtifactKind) :=
  [("fun ", testOr isTest .symbol), ("class ", .symbol), ("object ", .symbol),
    ("interface ", .schema), ("enum class ", .schema)]

def kotlinDeclaration (line : List Char) (isTest : Bool) : List (ArtifactKind × List Char) :=
  declarationTokens classes (stripPrefixes kotlinPrefixes line) (kotlinPatterns isTest)

def javaPrefixes : List String :=
  ["public ", "private ", "protected ", "abstract ", "final ", "static ", "synchronized ",
    "native ", "strictfp ", "default "]

def javaPatterns : List (String × ArtifactKind) :=
  [("class ", .symbol), ("record ", .symbol), ("interface ", .schema), ("enum ", .schema),
    ("@interface ", .schema)]

def javaControlWords : List String :=
  ["if", "for", "while", "switch", "catch", "return", "new", "synchronized"]

/-- The name in a Java method declaration, or nothing when the line is not one. -/
def javaMethodName (line : List Char) : Option (List Char) :=
  if '(' ∉ line then none
  else if line.getLast? ≠ some '{' ∧ line.getLast? ≠ some ';' then none
  else
    let tokens := words isWhiteSpace (line.takeWhile fun character => character ≠ '(')
    match tokens.getLast? with
    | none => none
    | some name =>
        -- a bare name is a constructor or a call, and a control word is neither
        if tokens.dropLast = [] ∨ String.ofList name ∈ javaControlWords then none
        else if identifier classes name = some name ∧
            name.head?.any (fun first => classes.isAlphabetic first || first = '_') then some name
        else none

def javaDeclaration (line : List Char) (isTest : Bool) : List (ArtifactKind × List Char) :=
  let line := stripPrefixes javaPrefixes line
  match declarationTokens classes line javaPatterns with
  | [] => (javaMethodName classes line).toList.map fun name => (testOr isTest .symbol, name)
  | declared => declared

/-- The declarations of a language; the other languages are not read by lines of code. -/
def declarationParser : SourceLanguage → List Char → Bool → List (ArtifactKind × List Char)
  | .rust => rustDeclaration classes
  | .typeScriptJavaScript => typescriptDeclaration classes
  | .swift => swiftDeclaration classes
  | .kotlin => kotlinDeclaration classes
  | .java => javaDeclaration classes
  | .json | .yaml | .proto | .xml => fun _ _ => []

end Declarations

/-! ### Code -/

section Code

variable (classes : CharacterClasses) (language : SourceLanguage)

/-- A line that makes the next one declare a test. -/
def isTestAnnotation (trimmed : List Char) : Bool :=
  match language with
  | .rust => "#[test".toList <+: trimmed
  | .kotlin | .java => trimmed = "@Test".toList
  | _ => false

def foundIn (kind : ArtifactKind) (index : Nat) (source name : List Char) : Discovery :=
  ⟨kind, String.ofList name, lineNumber index, String.ofList source⟩

/-- What one line of code tells, given the lines after it. -/
def lineDiscoveries (isTest : Bool) (index : Nat) (line : List Char) (rest : List (List Char)) :
    List Discovery :=
  let trimmed := trimLine line
  let declared := declarationParser classes language trimmed isTest
  let called := if language = .typeScriptJavaScript then testCallName trimmed else none
  (declared.map fun (kind, name) =>
      foundIn kind index (declarationSource (line :: rest)) name) ++
    (apiKeys trimmed).map (foundIn .api index trimmed) ++
    called.toList.map (foundIn .test index trimmed)

def codeDiscoveries (isTest : Bool) (index : Nat) : List (List Char) → List Discovery
  | [] => []
  | line :: rest =>
      if isTestAnnotation language (trimLine line) then codeDiscoveries true (index + 1) rest
      else
        lineDiscoveries classes language isTest index line rest ++
          codeDiscoveries false (index + 1) rest

def extractCode (text : String) : List Discovery :=
  codeDiscoveries classes language false 0 (lines text.toList)

end Code

/-! ### JSON -/

def discovery (kind : ArtifactKind) (name : String) (line : Nat) : Discovery :=
  ⟨kind, name, line, name⟩

def httpOperations : List String :=
  ["get", "post", "put", "patch", "delete", "head", "options"]

def isHttpOperation (key : String) : Bool :=
  String.ofList (asciiLowercase key) ∈ httpOperations

def members : Value → List (String × Value)
  | .object members => members
  | _ => []

def member (key : String) (value : Value) : Option Value :=
  (members value).lookup key

def asString : Value → Option String
  | .string text => some text
  | _ => none

/-- What a document calls itself; a document without a name is called after its file. -/
def documentName (path : RepoRelativePath) (document : Value) : String :=
  (((member "$id" document).or (member "title" document)).bind asString).getD
    (String.ofList (fileStem path.text))

def routeDiscoveries (route : String) (operations : Value) : List Discovery :=
  ((members operations).filter fun operation => isHttpOperation operation.1).map fun operation =>
    ⟨.api, route, 1, operation.1 ++ "(" ++ route ++ ")"⟩

def openapiPaths (document : Value) : List (String × Value) :=
  ((member "paths" document).map members).getD []

def openapiSchemas (document : Value) : List (String × Value) :=
  ((member "components" document).bind (member "schemas")).elim [] members

def openapiDiscoveries (document : Value) : List Discovery :=
  ((openapiPaths document).flatMap fun route => routeDiscoveries route.1 route.2) ++
    (openapiSchemas document).map fun schema => discovery .schema schema.1 1

def extractJson (parseJson : String → Option Value) (path : RepoRelativePath) (text : String) :
    List Discovery :=
  match parseJson text with
  | none => []
  | some document =>
      discovery .schema (documentName path document) 1 ::
        if (member "openapi" document).isSome then openapiDiscoveries document else []

/-! ### YAML -/

inductive YamlSection
  | outside
  | paths
  | components
  | schemas
  deriving DecidableEq

/-- Where the lines read so far end: the section and the last route in it. -/
structure YamlState where
  inSection : YamlSection
  currentRoute : Option (List Char)
  deriving DecidableEq

def YamlState.start : YamlState :=
  ⟨.outside, none⟩

def sectionStart (trimmed : List Char) : Option YamlSection :=
  -- the test for schemas within the components is never reached
  if trimmed = "paths:".toList then some .paths
  else if trimmed = "schemas:".toList then some .schemas
  else if trimmed = "components:".toList then some .components
  else none

/-- The key that a line ends with a colon. -/
def yamlKey (trimmed : List Char) : Option (List Char) :=
  if trimmed.getLast? = some ':' then some trimmed.dropLast else none

def yamlNext (state : YamlState) (line : List Char) : YamlState :=
  let trimmed := trimLine line
  match sectionStart trimmed with
  | some next => { state with inSection := next }
  | none =>
      match yamlKey trimmed with
      | none => state
      | some key =>
          if state.inSection = .paths ∧ key.head? = some '/' then
            { state with currentRoute := some key }
          else state

def yamlKeyDiscovery (state : YamlState) (index : Nat) (key : List Char) : Option Discovery :=
  if state.inSection = .paths ∧ key.head? = some '/' then none
  else if state.inSection = .paths ∧ isHttpOperation (String.ofList key) ∧
      state.currentRoute.isSome then
    state.currentRoute.map fun route =>
      ⟨.api, String.ofList route, lineNumber index, String.ofList (key ++ '(' :: route ++ [')'])⟩
  else if state.inSection = .schemas ∧ key ≠ [] then
    some (discovery .schema (String.ofList key) (lineNumber index))
  else none

def yamlDiscovery (state : YamlState) (index : Nat) (line : List Char) : Option Discovery :=
  match sectionStart (trimLine line) with
  | some _ => none
  | none => (yamlKey (trimLine line)).bind (yamlKeyDiscovery state index)

def yamlDiscoveries (state : YamlState) (index : Nat) : List (List Char) → List Discovery
  | [] => []
  | line :: rest =>
      (yamlDiscovery state index line).toList ++
        yamlDiscoveries (yamlNext state line) (index + 1) rest

def extractYaml (path : RepoRelativePath) (text : String) : List Discovery :=
  discovery .schema (String.ofList (fileStem path.text)) 1 ::
    yamlDiscoveries .start 0 (lines text.toList)

/-! ### Protocol buffers -/

def protoPatterns : List (String × ArtifactKind) :=
  [("message ", .schema), ("enum ", .schema), ("service ", .api), ("rpc ", .api)]

def protoLine (classes : CharacterClasses) (line : List Char) (index : Nat) : List Discovery :=
  protoPatterns.filterMap fun (start, kind) =>
    ((stripPrefix start (trimLine line)).bind (identifier classes)).map
      (foundIn kind index (trimLine line))

def extractProto (classes : CharacterClasses) (text : String) : List Discovery :=
  (lines text.toList).zipIdx.flatMap fun (line, index) => protoLine classes line index

/-! ### Every language -/

section Extract

variable (classes : CharacterClasses) (parseJson : String → Option Value)

/-- XML names nothing that an exact locator could. -/
def extract (language : SourceLanguage) (path : RepoRelativePath) (text : String) :
    List Discovery :=
  match language with
  | .rust | .typeScriptJavaScript | .swift | .kotlin | .java => extractCode classes language text
  | .json => extractJson parseJson path text
  | .yaml => extractYaml path text
  | .proto => extractProto classes text
  | .xml => []

def sourceRules
    (snapshotGeneration : RepositoryIdentity → String → List RepoRelativePath → ScanCoverage →
      List SourceFile → List SkippedFile → String) : ScanRules where
  extract := extract classes parseJson
  normalizeSignature := normalizeSignature
  apiProtocol := apiProtocol
  apiOperation := apiOperation
  normalizeApiKey route := String.ofList (normalizeApiKey route.toList)
  schemaVersion := schemaVersion
  snapshotGeneration := snapshotGeneration

end Extract

end SharedContext.EngineeringGraph
