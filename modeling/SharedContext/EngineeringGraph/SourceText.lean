import SharedContext.EngineeringGraph.Scanner
import SharedContext.Library.Words

/-!
# The text of a source

What the extractors cut out of a line: identifiers, quoted values, routes and
signatures.
-/

namespace SharedContext.EngineeringGraph

open SharedContext.Words

/-- The Unicode classes of the standard library; no letter or digit is white space. -/
structure CharacterClasses where
  isAlphanumeric : Char → Bool
  isAlphabetic : Char → Bool
  alphanumericPlain : ∀ character,
    isAlphanumeric character = true → isWhiteSpace character = false

/-! ### Lines -/

def dropReturn (line : List Char) : List Char :=
  if line.getLast? = some '\r' then line.dropLast else line

/-- The lines of a text; the last one need not be ended. -/
def lines (text : List Char) : List (List Char) :=
  let pieces := text.splitOn '\n'
  pieces.dropLast.map dropReturn ++ pieces.getLast?.toList.filter fun line => !line.isEmpty

def trimLine (line : List Char) : List Char :=
  trim isWhiteSpace line

def lineNumber (index : Nat) : Nat :=
  min (index + 1) (2 ^ 32 - 1)

/-! ### Names -/

def isIdentifierPart (classes : CharacterClasses) (character : Char) : Bool :=
  classes.isAlphanumeric character || character = '_'

def identifier (classes : CharacterClasses) (value : List Char) : Option (List Char) :=
  let name := value.takeWhile (isIdentifierPart classes)
  if name = [] then none else some name

def stripPrefix (start : String) (line : List Char) : Option (List Char) :=
  if start.toList <+: line then some (line.drop start.toList.length) else none

/-- Strip prefixes while one fits, at most so many times. -/
def stripPrefixesWithin (prefixes : List String) : Nat → List Char → List Char
  | 0, line => line
  | fuel + 1, line =>
      match prefixes.find? fun start => start.toList <+: line with
      | none => line
      | some start => stripPrefixesWithin prefixes fuel (line.drop start.toList.length)

def stripPrefixes (prefixes : List String) (line : List Char) : List Char :=
  stripPrefixesWithin prefixes line.length line

def declarationTokens (classes : CharacterClasses) (line : List Char)
    (patterns : List (String × ArtifactKind)) : List (ArtifactKind × List Char) :=
  (patterns.findSome? fun (start, kind) =>
    ((stripPrefix start line).bind (identifier classes)).map fun name => [(kind, name)]).getD []

/-! ### Sources of declarations -/

def braceBalance (balance : Int) (line : List Char) : Int :=
  line.foldl (fun balance character =>
    if character = '{' then balance + 1
    else if character = '}' then balance - 1 else balance) balance

/-- A line, and the lines after it while braces are open. -/
def declarationSourceFrom (sawBrace : Bool) (balance : Int) : Nat → List (List Char) → List Char
  | room + 1, line :: rest =>
      let balance := braceBalance balance line
      let sawBrace := sawBrace || line.contains '{'
      line ++ '\n' ::
        (if sawBrace && decide (0 < balance) then declarationSourceFrom sawBrace balance room rest
          else [])
  | _, _ => []

def declarationSource (rest : List (List Char)) : List Char :=
  declarationSourceFrom false 0 32 rest

def endsSignature (character : Char) : Bool :=
  character = '{' || character = '='

def normalizeSignature (value : String) : String :=
  let firstLine := (lines value.toList).head?.getD value.toList
  let head := firstLine.takeWhile fun character => !endsSignature character
  String.ofList (List.intercalate [' '] (words isWhiteSpace head))

/-! ### Routes -/

def quotes : List Char :=
  "'\"`".toList

/-- The quoted values of a line, given the open quote and what it holds so far. -/
def quotedValuesFrom (quote : Option (Char × List Char)) : List Char → List (List Char)
  | [] => []
  | character :: rest =>
      match quote with
      | none =>
          if character ∈ quotes then quotedValuesFrom (some (character, [])) rest
          else quotedValuesFrom none rest
      | some (expected, held) =>
          if character = expected then held :: quotedValuesFrom none rest
          else quotedValuesFrom (some (expected, held ++ [character])) rest

def quotedValues (line : List Char) : List (List Char) :=
  quotedValuesFrom none line

def normalizeApiKey (value : List Char) : List Char :=
  cutMarks '/' (trim isWhiteSpace value)

def lowercase (line : List Char) : List Char :=
  line.map Char.toLower

def apiTokens : List String :=
  ["fetch", "url", "route", "get(", "post(", "requestmapping", "endpoint"]

def mentionsApi (line : List Char) : Bool :=
  apiTokens.any fun token => token.toList <:+: lowercase line

def looksLikeRoute (value : List Char) : Bool :=
  value.head? = some '/' || "://".toList <:+: value

def apiKeys (line : List Char) : List (List Char) :=
  if mentionsApi line then ((quotedValues line).filter looksLikeRoute).map normalizeApiKey else []

def testCalls : List String :=
  ["test(", "it(", "describe("]

def startsTestCall (line : List Char) : Bool :=
  testCalls.any fun call => call.toList <+: lowercase line

def testCallName (line : List Char) : Option (List Char) :=
  if startsTestCall line then (quotedValues line).head? else none

def apiProtocol (source : String) : String :=
  if "rpc ".toList <:+: asciiLowercase source then "grpc" else "http"

def operationNeedles : List (String × String) :=
  [("post(", "POST"), ("put(", "PUT"), ("patch(", "PATCH"), ("delete(", "DELETE"),
    ("get(", "GET"), ("fetch", "GET"), ("rpc ", "RPC")]

def apiOperation (source : String) : String :=
  (operationNeedles.findSome? fun (needle, operation) =>
    if needle.toList <:+: asciiLowercase source then some operation else none).getD "ANY"

def schemaVersion (source : String) : String :=
  let parts := source.toList.splitOnP fun character => !character.isAlphanum && character ≠ '.'
  ((parts.find? fun part => part.head? = some 'v' && (part.drop 1).all Char.isDigit).map
    String.ofList).getD "unversioned"

/-! ### Paths -/

def fileName (path : String) : List Char :=
  path.toList.rtakeWhile fun character => character ≠ '/'

/-- The name of a file without its last extension; a name of an extension alone stays. -/
def fileStem (path : String) : List Char :=
  let name := fileName path
  let stem := (name.rdropWhile fun character => character ≠ '.').dropLast
  if stem = [] then name else stem

end SharedContext.EngineeringGraph
