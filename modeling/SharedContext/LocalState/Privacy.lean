import Mathlib.Data.List.Destutter
import Mathlib.Data.List.Sort
import SharedContext.Domain.Validation
import SharedContext.Library.Search

/-!
# The privacy scanner

Text is scanned for credentials and personal data.  Seven scanners run over
its bytes, after the identifiers of the system itself have been masked.
-/

namespace SharedContext.LocalState

abbrev Bytes := List UInt8

def asBytes (text : String) : Bytes :=
  text.toByteArray.data.toList

def oneOf (listed : String) (byte : UInt8) : Bool :=
  (asBytes listed).contains byte

def isAsciiDigit (byte : UInt8) : Bool :=
  '0'.toUInt8 ≤ byte && byte ≤ '9'.toUInt8

def isAsciiUppercase (byte : UInt8) : Bool :=
  'A'.toUInt8 ≤ byte && byte ≤ 'Z'.toUInt8

def isAsciiLowercase (byte : UInt8) : Bool :=
  'a'.toUInt8 ≤ byte && byte ≤ 'z'.toUInt8

def isAsciiAlphanumeric (byte : UInt8) : Bool :=
  isAsciiDigit byte || isAsciiUppercase byte || isAsciiLowercase byte

def isAsciiWhitespace (byte : UInt8) : Bool :=
  oneOf "\t\n\x0c\r " byte

def toAsciiLowercase (byte : UInt8) : UInt8 :=
  if isAsciiUppercase byte then byte + 32 else byte

def asciiLowercase (bytes : Bytes) : Bytes :=
  bytes.map toAsciiLowercase

def isTokenByte (byte : UInt8) : Bool :=
  isAsciiAlphanumeric byte || oneOf "_-." byte

def isEmailLocal (byte : UInt8) : Bool :=
  isAsciiAlphanumeric byte || oneOf "._%+-" byte

def isEmailDomain (byte : UInt8) : Bool :=
  isAsciiAlphanumeric byte || oneOf ".-" byte

def boundaryBefore (bytes : Bytes) (index : Nat) : Bool :=
  index = 0 || (bytes[index - 1]?).all fun byte => !isAsciiAlphanumeric byte

def boundaryAfter (bytes : Bytes) (index : Nat) : Bool :=
  (bytes[index]?).all fun byte => !isAsciiAlphanumeric byte

def slice (bytes : Bytes) (start stop : Nat) : Bytes :=
  (bytes.drop start).take (stop - start)

def looksLikeIsoDate (value : Bytes) : Bool :=
  value.length = 10 && value[4]? = some '-'.toUInt8 && value[7]? = some '-'.toUInt8

def isRedactionMarker (value : Bytes) : Bool :=
  (asBytes "[REDACTED:").isPrefixOf value || value = asBytes "[REDACTED]"

/-! ### Findings -/

inductive PrivacyFindingKind
  | awsAccessKey
  | githubToken
  | gitlabToken
  | googleApiKey
  | npmToken
  | openAiKey
  | stripeLiveKey
  | slackToken
  | jwt
  | bearerCredential
  | assignedCredential
  | privateKey
  | emailAddress
  | phoneNumber
  | chinaNationalId
  deriving DecidableEq, Repr

/-- The kind and the byte range of a finding; `stop` is its end. -/
structure PrivacyFinding where
  kind : PrivacyFindingKind
  start : Nat
  stop : Nat
  deriving DecidableEq, Repr

/-- The order of the findings of a scan: by start, end and kind. -/
def PrivacyFinding.Before (left right : PrivacyFinding) : Prop :=
  left.start < right.start ∨ left.start = right.start ∧
    (left.stop < right.stop ∨ left.stop = right.stop ∧
      left.kind.ctorIdx ≤ right.kind.ctorIdx)

instance : DecidableRel PrivacyFinding.Before := fun left right => by
  unfold PrivacyFinding.Before
  infer_instance

structure PrivacyScan where
  findings : List PrivacyFinding
  deriving DecidableEq, Repr

/-! ### Secrets -/

/-- A prefix, the least and the greatest length of its tokens, and their kind. -/
structure TokenPattern where
  tokenPrefix : String
  minimum : Nat
  maximum : Nat
  kind : PrivacyFindingKind

def tokenPatterns : List TokenPattern :=
  [⟨"AKIA", 20, 20, .awsAccessKey⟩,
    ⟨"ASIA", 20, 20, .awsAccessKey⟩,
    ⟨"ghp_", 24, 96, .githubToken⟩,
    ⟨"gho_", 24, 96, .githubToken⟩,
    ⟨"ghu_", 24, 96, .githubToken⟩,
    ⟨"ghs_", 24, 96, .githubToken⟩,
    ⟨"ghr_", 24, 96, .githubToken⟩,
    ⟨"github_pat_", 30, 128, .githubToken⟩,
    ⟨"glpat-", 26, 128, .gitlabToken⟩,
    ⟨"AIza", 39, 39, .googleApiKey⟩,
    ⟨"npm_", 24, 128, .npmToken⟩,
    ⟨"sk-", 24, 192, .openAiKey⟩,
    ⟨"sk-proj-", 24, 192, .openAiKey⟩,
    ⟨"sk-live_", 24, 192, .stripeLiveKey⟩,
    ⟨"xoxb-", 20, 192, .slackToken⟩,
    ⟨"xoxp-", 20, 192, .slackToken⟩,
    ⟨"eyJ", 30, 4096, .jwt⟩]

/-- The finding of a pattern whose prefix starts at an offset. -/
def TokenPattern.findingAt (pattern : TokenPattern) (bytes : Bytes) (start : Nat) :
    Option PrivacyFinding :=
  let inToken (index : Nat) (byte : UInt8) : Bool :=
    index - start < pattern.maximum && isTokenByte byte
  let stop := advance inToken bytes (start + (asBytes pattern.tokenPrefix).length)
  if stop - start ≥ pattern.minimum && boundaryBefore bytes start && boundaryAfter bytes stop then
    some ⟨pattern.kind, start, stop⟩
  else none

def scanPrefixedTokens (bytes : Bytes) : List PrivacyFinding :=
  tokenPatterns.flatMap fun pattern =>
    (occurrencesFrom (asBytes pattern.tokenPrefix) bytes 0).filterMap (pattern.findingAt bytes)

def privateKeyBegin : Bytes := asBytes "-----BEGIN "

def privateKeyTail : Bytes := asBytes "PRIVATE KEY-----"

def privateKeyEnd : Bytes := asBytes "-----END "

/-- The end of the first occurrence of a needle from an offset on. -/
def endOfFirst (needle bytes : Bytes) (offset : Nat) : Option Nat :=
  (findFirst needle (bytes.drop offset)).map fun relative => offset + relative + needle.length

/-- The end of a private key behind its header; the end of the text when
there is no footer. -/
def privateKeyStop (bytes : Bytes) (headerEnd : Nat) : Nat :=
  ((findFirst privateKeyEnd (bytes.drop headerEnd)).bind fun relative =>
    endOfFirst privateKeyTail bytes (headerEnd + relative)).getD bytes.length

def scanPrivateKeys (bytes : Bytes) : List PrivacyFinding :=
  (occurrencesFrom privateKeyBegin bytes 0).filterMap fun start =>
    (endOfFirst privateKeyTail bytes start).map fun headerEnd =>
      ⟨.privateKey, start, privateKeyStop bytes headerEnd⟩

def scanBearerTokens (bytes : Bytes) : List PrivacyFinding :=
  let needle := asBytes "bearer "
  (occurrencesFrom needle (asciiLowercase bytes) 0).filterMap fun start =>
    let tokenStart := start + needle.length
    let inToken (index : Nat) (byte : UInt8) : Bool :=
      isTokenByte byte && index - tokenStart < 4096
    let stop := advance inToken bytes tokenStart
    if stop - tokenStart ≥ 12 && boundaryBefore bytes start then
      some ⟨.bearerCredential, start, stop⟩
    else none

def credentialNames : List String :=
  ["api_key", "api-key", "apikey", "access_token", "auth_token", "token", "password", "passwd",
    "client_secret", "client-secret", "secret_key", "secret", "credential"]

/-- A byte between the name of a credential and its sign. -/
def isNameGap (byte : UInt8) : Bool :=
  isAsciiWhitespace byte || oneOf "'\"" byte

/-- A byte of the value of a credential, given the quote before it. -/
def isValueByte (quote : Option UInt8) (byte : UInt8) : Bool :=
  match quote with
  | some quote => byte ≠ quote
  | none => !isAsciiWhitespace byte && !oneOf ",;\x7d]" byte

/-- The range of the value that is assigned behind a name. -/
def assignedValue (bytes : Bytes) (nameEnd : Nat) : Option (Nat × Nat) :=
  let cursor := advance (fun _ => isNameGap) bytes nameEnd
  if (bytes[cursor]?).any (oneOf "=:") then
    let cursor := advance (fun _ => isAsciiWhitespace) bytes (cursor + 1)
    let quote := (bytes[cursor]?).filter (oneOf "'\"")
    let valueStart := if quote.isSome then cursor + 1 else cursor
    let inValue (index : Nat) (byte : UInt8) : Bool :=
      index - valueStart < 4096 && isValueByte quote byte
    some (valueStart, advance inValue bytes valueStart)
  else none

/-- The finding of a credential whose name starts at an offset. -/
def assignedFindingAt (bytes : Bytes) (nameLength start : Nat) : Option PrivacyFinding :=
  if boundaryBefore bytes start then
    (assignedValue bytes (start + nameLength)).bind fun (valueStart, stop) =>
      if stop - valueStart ≥ 8 && !isRedactionMarker (slice bytes valueStart stop) then
        some ⟨.assignedCredential, valueStart, stop⟩
      else none
  else none

def scanAssignedCredentials (bytes : Bytes) : List PrivacyFinding :=
  credentialNames.flatMap fun name =>
    (occurrencesFrom (asBytes name) (asciiLowercase bytes) 0).filterMap
      (assignedFindingAt bytes (asBytes name).length)

/-! ### Personal data -/

/-- Move a cursor back to a floor while the test holds of the byte before it. -/
def retreat (test : UInt8 → Bool) (bytes : Bytes) (floor : Nat) : Nat → Nat
  | 0 => 0
  | cursor + 1 =>
      if floor < cursor + 1 && (bytes[cursor]?).any test then retreat test bytes floor cursor
      else cursor + 1

/-- The finding of an email address around the at sign at an offset. -/
def emailAt (bytes : Bytes) (position : Nat) : Option PrivacyFinding :=
  if bytes[position]? = some '@'.toUInt8 then
    let start := retreat isEmailLocal bytes 0 position
    let stop := advance (fun _ => isEmailDomain) bytes (position + 1)
    let domain := slice bytes (position + 1) stop
    if start < position && domain.length ≥ 3 && domain.contains '.'.toUInt8 &&
        domain.head? ≠ some '.'.toUInt8 && domain.getLast? ≠ some '.'.toUInt8 then
      some ⟨.emailAddress, start, stop⟩
    else none
  else none

def scanEmails (bytes : Bytes) : List PrivacyFinding :=
  (List.range bytes.length).filterMap (emailAt bytes)

/-- A byte that is no digit and may stand in a phone number. -/
def isPhoneFormatting (byte : UInt8) : Bool :=
  oneOf "+- ()" byte

/-- The end of the digits and signs that start at an offset. -/
def phoneStop (bytes : Bytes) (start : Nat) : Nat :=
  let inNumber (index : Nat) (byte : UInt8) : Bool :=
    (isAsciiDigit byte || isPhoneFormatting byte) && index - start < 32
  retreat isAsciiWhitespace bytes start (advance inNumber bytes start)

def startsPhone (bytes : Bytes) (start : Nat) : Bool :=
  (bytes[start]?).any (fun byte => isAsciiDigit byte || byte = '+'.toUInt8) &&
    boundaryBefore bytes start

def isMainlandMobile (number : Bytes) : Bool :=
  number.countP isAsciiDigit = 11 && number.all isAsciiDigit && number[0]? = some '1'.toUInt8 &&
    (number[1]?).any fun byte => '3'.toUInt8 ≤ byte && byte ≤ '9'.toUInt8

def phoneAt (bytes : Bytes) (start : Nat) : Option PrivacyFinding :=
  let stop := phoneStop bytes start
  let number := slice bytes start stop
  let digits := number.countP isAsciiDigit
  if 10 ≤ digits && digits ≤ 15 && (number.any isPhoneFormatting || isMainlandMobile number) &&
      boundaryAfter bytes stop && !looksLikeIsoDate number then
    some ⟨.phoneNumber, start, stop⟩
  else none

def scanPhoneNumbersFrom (bytes : Bytes) (start : Nat) : List PrivacyFinding :=
  if start < bytes.length then
    if startsPhone bytes start then
      (phoneAt bytes start).toList ++
        scanPhoneNumbersFrom bytes (max (phoneStop bytes start) (start + 1))
    else scanPhoneNumbersFrom bytes (start + 1)
  else []
termination_by bytes.length - start

def scanPhoneNumbers (bytes : Bytes) : List PrivacyFinding :=
  scanPhoneNumbersFrom bytes 0

def chinaIdWeights : List Nat :=
  [7, 9, 10, 5, 8, 4, 2, 1, 6, 3, 7, 9, 10, 5, 8, 4, 2]

def toAsciiUppercase (byte : UInt8) : UInt8 :=
  if isAsciiLowercase byte then byte - 32 else byte

def validChinaIdChecksum (candidate : Bytes) : Bool :=
  let sum := (List.zipWith (fun digit weight => (digit - '0'.toUInt8).toNat * weight)
    (candidate.take 17) chinaIdWeights).sum
  (candidate[17]?).map toAsciiUppercase = (asBytes "10X98765432")[sum % 11]?

def chinaNationalIdAt (bytes : Bytes) (start : Nat) : Option PrivacyFinding :=
  let candidate := slice bytes start (start + 18)
  if boundaryBefore bytes start && boundaryAfter bytes (start + 18) &&
      (candidate.take 17).all isAsciiDigit &&
      (candidate[17]?).any (fun byte => isAsciiDigit byte || oneOf "xX" byte) &&
      validChinaIdChecksum candidate then
    some ⟨.chinaNationalId, start, start + 18⟩
  else none

def scanChinaNationalIds (bytes : Bytes) : List PrivacyFinding :=
  (List.range (bytes.length + 1 - 18)).filterMap (chinaNationalIdAt bytes)

/-! ### The identifiers of the system -/

/-- The prefixes of the opaque identifiers of the domain. -/
def domainIdPrefixes : List String :=
  ["spc_", "ref_", "tsk_", "tss_", "xss_", "tir_", "sig_", "wep_", "wob_", "ckp_", "clm_", "bld_",
    "rec_", "psg_", "cnd_", "sub_", "cfm_", "asc_", "ctx_", "rev_", "evt_", "pub_", "evd_", "rvw_",
    "cnf_", "rsl_"]

def canonicalUuidLength : Nat := 36

def uuidHyphenOffsets : List Nat := [8, 13, 18, 23]

def uuidVersionOffset : Nat := 14

def uuidVariantOffset : Nat := 19

def isHexDigit (byte : UInt8) : Bool :=
  isAsciiDigit byte || oneOf "abcdef" byte

def isCanonicalUuidV4 (candidate : Bytes) : Bool :=
  candidate.length = canonicalUuidLength &&
    candidate.zipIdx.all (fun (byte, offset) =>
      if uuidHyphenOffsets.contains offset then byte = '-'.toUInt8 else isHexDigit byte) &&
    candidate[uuidVersionOffset]? = some '4'.toUInt8 &&
    (candidate[uuidVariantOffset]?).any (oneOf "89ab")

def matchCanonicalUuidV4 (bytes : Bytes) (start : Nat) : Option Nat :=
  let stop := start + canonicalUuidLength
  if isCanonicalUuidV4 (slice bytes start stop) then some stop else none

def fill (bytes : Bytes) (start stop : Nat) : Bytes :=
  bytes.mapIdx fun index byte => if start ≤ index && index < stop then '#'.toUInt8 else byte

/-- The end of the identifier that starts at an offset with a prefix. -/
def domainIdEnd (bytes : Bytes) (idPrefix : String) (start : Nat) : Option Nat :=
  if boundaryBefore bytes start then
    (matchCanonicalUuidV4 bytes (start + (asBytes idPrefix).length)).filter (boundaryAfter bytes)
  else none

def maskDomainIdSpans (bytes : Bytes) : Option Bytes :=
  domainIdPrefixes.foldl (fun buffer idPrefix =>
    (occurrencesFrom (asBytes idPrefix) bytes 0).foldl (fun buffer start =>
      match domainIdEnd bytes idPrefix start with
      | some uuidEnd => some (fill (buffer.getD bytes) start uuidEnd)
      | none => buffer) buffer) none

/-! ### Scanning -/

structure PrivacyScanner where
  maxScanBytes : Nat

def PrivacyScanner.default : PrivacyScanner :=
  ⟨4 * 1024 * 1024⟩

/-- The findings in bytes, in the order in which the scanners make them. -/
def rawFindings (scanBytes : Bytes) : List PrivacyFinding :=
  scanPrefixedTokens scanBytes ++ scanPrivateKeys scanBytes ++ scanBearerTokens scanBytes ++
    scanAssignedCredentials scanBytes ++ scanEmails scanBytes ++ scanPhoneNumbers scanBytes ++
    scanChinaNationalIds scanBytes

/-- The findings in bytes, sorted and without repetition. -/
def findingsIn (bytes : Bytes) : List PrivacyFinding :=
  ((rawFindings ((maskDomainIdSpans bytes).getD bytes)).insertionSort
    PrivacyFinding.Before).destutter (· ≠ ·)

def PrivacyScanner.scan (scanner : PrivacyScanner) (text : String) : Result PrivacyScan := do
  let bytes := asBytes text
  Result.require (bytes.length ≤ scanner.maxScanBytes)
    (invalid (s!"privacy scan input is {bytes.length} bytes; " ++
      s!"limit is {scanner.maxScanBytes} bytes"))
  pure ⟨findingsIn bytes⟩

end SharedContext.LocalState
