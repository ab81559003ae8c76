import Mathlib.Algebra.BigOperators.Group.Finset.Basic
import Mathlib.Data.List.Sort
import SharedContext.Domain.Task
import SharedContext.LocalState.Catalog

/-!
# Activation leases

The private directory of leases holds one record for every agent session: the
directory the session started in, and the decision the catalog derived from it.
Entries of the directory that are no readable record authorize nothing.
-/

namespace SharedContext.LocalState

def maxLocatorBytes : Nat := 4 * 1024

def maxScopeRepositories : Nat := 256

/-- The greatest machine integer, at which saturating sums stop. -/
def usizeMax : Nat := 2 ^ 64 - 1

def saturatingAdd (first second : Nat) : Nat :=
  min (first + second) usizeMax

inductive AuthorizedSessionScopeDecision
  | disabled
  | enabled (repositoryIds : List RepositoryId)
  deriving DecidableEq, Repr

def AuthorizedSessionScopeDecision.isEnabled : AuthorizedSessionScopeDecision → Bool
  | .disabled => false
  | .enabled _ => true

structure AuthorizedSessionScope where
  externalSessionLocator : ExternalSessionLocator
  decision : AuthorizedSessionScopeDecision
  startupCwd : HostPath
  issuedAtUnixSeconds : Nat
  intentBootstrapNotified : Bool
  activationMarkerDelivered : Bool
  deriving DecidableEq, Repr

def validateLocatorSize (locator : ExternalSessionLocator) : Result Unit :=
  Result.require
    (saturatingAdd locator.agentKind.utf8ByteSize locator.externalSessionId.utf8ByteSize ≤
      maxLocatorBytes)
    (invalid "ExternalSessionLocator exceeds the local lease limit")

def validateLocator (locator : ExternalSessionLocator) : Result Unit := do
  locator.validate
  validateLocatorSize locator

def validateStartupCwd (path : HostPath) : Result Unit := do
  Result.require (path.absolute = true ∧ path.hasDotSegment = false)
    (invalid ("AuthorizedSessionScope startup directory must be an absolute UTF-8 path " ++
      "without dot segments"))
  Result.require (path.length ≤ maxLocatorBytes)
    (invalid "AuthorizedSessionScope startup directory exceeds the local lease limit")

def AuthorizedSessionScope.validate (scope : AuthorizedSessionScope) : Result Unit := do
  scope.externalSessionLocator.validate
  validateLocatorSize scope.externalSessionLocator
  validateStartupCwd scope.startupCwd
  match scope.decision with
  | .disabled => pure ()
  | .enabled repositoryIds => do
      Result.require (repositoryIds ≠ [])
        (invalid "an Enabled AuthorizedSessionScope names no Repository")
      Result.require (repositoryIds.length ≤ maxScopeRepositories)
        (invalid "AuthorizedSessionScope contains too many Repository identities")
      Result.require (repositoryIds.Pairwise (· < ·))
        (invalid "AuthorizedSessionScope Repository identities must be unique and sorted")

structure AuthorizedSessionScopePolicy where
  maxEntryBytes : Nat
  maxEntries : Nat
  maxTotalBytes : Nat

def AuthorizedSessionScopePolicy.default : AuthorizedSessionScopePolicy :=
  ⟨16 * 1024, 4096, 8 * 1024 * 1024⟩

/-! ### The directory -/

/-- What a regular file holds, when it may be read. -/
inductive FileBytes (Content : Type)
  | readable (content : Content)
  | unreadable (length : Nat)

/-- One entry of the directory; the length is that of its metadata. -/
inductive EntryNode (Content : Type)
  | file (links : Nat) (isPrivate : Bool) (bytes : FileBytes Content)
  | symlink (length : Nat)
  | directory (length : Nat)
  | special (length : Nat)

abbrev LeaseDirectory (Content : Type) := BTreeMap String (EntryNode Content)

/-- What the leases take from their serialization and from the digest of a
locator. -/
structure LeaseTools (Content : Type) where
  length : Content → Nat
  toVecPretty : AuthorizedSessionScope → Content
  fromSlice : Content → Option AuthorizedSessionScope
  fromSlice_toVecPretty : ∀ scope, fromSlice (toVecPretty scope) = some scope
  locatorDigest : ExternalSessionLocator → String

section Directory

variable {Content : Type} (tools : LeaseTools Content)

def EntryNode.length : EntryNode Content → Nat
  | .file _ _ (.readable content) => tools.length content
  | .file _ _ (.unreadable length) => length
  | .symlink length => length
  | .directory length => length
  | .special length => length

def EntryNode.isSafe : EntryNode Content → Bool
  | .file links _ _ => links = 1
  | _ => false

def hasJsonExtension (name : String) : Bool :=
  ".json".toList.isSuffixOf name.toList && 5 < name.toList.length

def recordName (locator : ExternalSessionLocator) : String :=
  "scope-" ++ tools.locatorDigest locator ++ ".json"

def readRecord (policy : AuthorizedSessionScopePolicy) (name : String) (node : EntryNode Content) :
    Result AuthorizedSessionScope := do
  Result.require (node.isSafe = true ∧ hasJsonExtension name = true)
    (invalid "unsafe AuthorizedSessionScope entry")
  Result.require (node.length tools ≤ policy.maxEntryBytes)
    (invalid "oversized AuthorizedSessionScope entry")
  match node with
  | .file _ isPrivate bytes => do
      Result.require (isPrivate = true)
        (invalid "AuthorizedSessionScope entry permissions are not private")
      match bytes with
      | .unreadable _ => throw ⟨.io, "open AuthorizedSessionScope record: Permission denied"⟩
      | .readable content =>
          match tools.fromSlice content with
          | none => throw (invalid "AuthorizedSessionScope record is invalid")
          | some record => do
              record.validate
              pure record
  | _ => throw (invalid "unsafe AuthorizedSessionScope entry")

def readOptionalRecord (policy : AuthorizedSessionScopePolicy)
    (directory : LeaseDirectory Content) (name : String) :
    Result (Option AuthorizedSessionScope) :=
  match directory.get? name with
  | none => pure none
  | some node => (readRecord tools policy name node).map some

/-- Interpret a record; what cannot be interpreted is absent. -/
def classifiedRecord (policy : AuthorizedSessionScopePolicy) (directory : LeaseDirectory Content)
    (locator : ExternalSessionLocator) : Result (Option AuthorizedSessionScope) :=
  match readOptionalRecord tools policy directory (recordName tools locator) with
  | .ok (some record) =>
      if record.externalSessionLocator = locator then pure (some record) else pure none
  | .ok none => pure none
  | .error error => if error.kind = .io then throw error else pure none

def sortedEntries (directory : LeaseDirectory Content) : List (String × EntryNode Content) :=
  (BTreeMap.ordered directory.keys).filterMap fun name =>
    (directory.get? name).map fun node => (name, node)

/-! ### Limits -/

structure ScopeUsage where
  entries : Nat
  bytes : Nat

/-- Count the entries and the bytes of the directory, but for one entry. -/
def usage (directory : LeaseDirectory Content) (excluded : Option String) : ScopeUsage :=
  (sortedEntries directory).foldl (fun used (name, node) =>
    if excluded = some name then used
    else ⟨saturatingAdd used.entries 1, saturatingAdd used.bytes (node.length tools)⟩) ⟨0, 0⟩

def validateNewUsage (policy : AuthorizedSessionScopePolicy) (used : ScopeUsage)
    (addingEntry : Bool) (recordBytes : Nat) : Result Unit := do
  Result.require (¬ (addingEntry = true ∧ used.entries ≥ policy.maxEntries))
    (invalid s!"AuthorizedSessionScope state would exceed {policy.maxEntries} entries")
  Result.require (saturatingAdd used.bytes recordBytes ≤ policy.maxTotalBytes)
    (invalid s!"AuthorizedSessionScope state would exceed {policy.maxTotalBytes} bytes")

def serializeScope (policy : AuthorizedSessionScopePolicy) (scope : AuthorizedSessionScope) :
    Result Content := do
  let bytes := tools.toVecPretty scope
  Result.require (tools.length bytes ≤ policy.maxEntryBytes)
    (invalid (s!"AuthorizedSessionScope record is {tools.length bytes} bytes; " ++
      s!"entry limit is {policy.maxEntryBytes} bytes"))
  pure bytes

/-- Replace the record of an entry by way of a temporary file. -/
def replaceRecord (directory : LeaseDirectory Content) (name : String) (bytes : Content)
    (replacing : Bool) : Result (LeaseDirectory Content) := do
  if replacing then
    match directory.get? name with
    | some (.file 1 true _) => pure ()
    | some _ => throw (invariant "existing AuthorizedSessionScope must be a private regular file")
    | none => throw ⟨.io, "inspect private state file: No such file or directory"⟩
  else
    match directory.get? name with
    | some (.symlink _) =>
        throw (invariant s!"refusing symlinked private state path: {name}")
    | _ => pure ()
  match directory.get? name with
  | some (.directory _) =>
      throw ⟨.io, "atomically replace AuthorizedSessionScope: Is a directory"⟩
  | _ => pure (directory.insert name (.file 1 true (.readable bytes)))

/-! ### Eviction -/

/-- An entry that may be evicted; without a time of issue it can never
authorize again. -/
structure EvictionCandidate where
  entryKey : String
  issuedAt : Option Nat
  deriving DecidableEq

/-- The order of times of issue, in which having none comes first. -/
def IssuedBefore : Option Nat → Option Nat → Prop
  | none, _ => True
  | some _, none => False
  | some first, some second => first ≤ second

instance : DecidableRel IssuedBefore
  | none, _ => .isTrue trivial
  | some _, none => .isFalse id
  | some first, some second => Nat.decLe first second

/-- The newest candidate comes first; of two as old, the lesser name. -/
def EvictionCandidate.Before (left right : EvictionCandidate) : Prop :=
  IssuedBefore right.issuedAt left.issuedAt ∧
    (left.issuedAt = right.issuedAt → left.entryKey ≤ right.entryKey)

instance : DecidableRel EvictionCandidate.Before := fun _ _ => instDecidableAnd

def evictionCandidate (policy : AuthorizedSessionScopePolicy) (target : String) (now : Nat)
    (entry : String × EntryNode Content) : Result (Option EvictionCandidate) :=
  if entry.1 = target ∨ entry.2.isSafe = false then pure none
  else
    match readRecord tools policy entry.1 entry.2 with
    | .ok record => pure (some ⟨entry.1, some (min record.issuedAtUnixSeconds now)⟩)
    | .error error => if error.kind = .io then throw error else pure (some ⟨entry.1, none⟩)

def evictionCandidates (policy : AuthorizedSessionScopePolicy) (directory : LeaseDirectory Content)
    (target : String) (now : Nat) : Result (List EvictionCandidate) := do
  let candidates ← (sortedEntries directory).mapM (evictionCandidate tools policy target now)
  pure ((candidates.filterMap id).insertionSort EvictionCandidate.Before)

def removeEntry (directory : LeaseDirectory Content) (name : String) : LeaseDirectory Content :=
  directory.filter fun other _ => other ≠ name

/-- Evict candidates, in the order of the list, until the record fits. -/
def evictUntilFits (policy : AuthorizedSessionScopePolicy) (target : String) (recordBytes : Nat) :
    List EvictionCandidate → LeaseDirectory Content → List String →
      Result (List String) × LeaseDirectory Content
  | candidates, directory, evicted =>
      match validateNewUsage policy (usage tools directory (some target)) true recordBytes with
      | .ok () => (.ok evicted, directory)
      | .error error =>
          match candidates with
          | [] => (.error error, directory)
          | candidate :: rest =>
              evictUntilFits policy target recordBytes rest
                (removeEntry directory candidate.entryKey) (evicted ++ [candidate.entryKey])

def evictForCapacity (policy : AuthorizedSessionScopePolicy) (directory : LeaseDirectory Content)
    (target : String) (recordBytes now : Nat) : Result (List String) × LeaseDirectory Content :=
  match validateNewUsage policy (usage tools directory (some target)) true recordBytes with
  | .ok () => (.ok [], directory)
  | .error _ =>
      match evictionCandidates tools policy directory target now with
      | .error error => (.error error, directory)
      | .ok order => evictUntilFits tools policy target recordBytes order.reverse directory []

/-! ### Operations -/

def unixSeconds (time : Int) : Result Nat := do
  Result.require (0 ≤ time) (invalid "AuthorizedSessionScope timestamp is before the Unix epoch")
  pure time.toNat

/-- The decision that is stored for an activation of the catalog. -/
def validatedPersistedDecision (activationScope : ActivationScope)
    (catalog : RepositoryCatalogSnapshot) : Result AuthorizedSessionScopeDecision :=
  match activationScope with
  | .disabled => pure .disabled
  | .enabled repositoryIds =>
      if ∀ repositoryId ∈ repositoryIds,
          ∃ repository ∈ catalog.repositories, repository.repositoryId = repositoryId then
        pure (.enabled repositoryIds)
      else throw (invalid "ActivationScope names a Repository the Catalog does not configure")

/-- The decision a catalog derives for a startup directory. -/
def derivedDecision (catalog : RepositoryCatalogSnapshot) (startupCwd : HostPath) :
    Result AuthorizedSessionScopeDecision := do
  let activationScope ← catalog.resolveRecordedActivationScope startupCwd
  validatedPersistedDecision activationScope catalog

def scopeForAuthorization (locator : ExternalSessionLocator) (catalog : RepositoryCatalogSnapshot)
    (canonicalStartupCwd : HostPath) (now : Int) : Result AuthorizedSessionScope := do
  validateLocator locator
  let decision ← derivedDecision catalog canonicalStartupCwd
  let issuedAtUnixSeconds ← unixSeconds now
  let scope : AuthorizedSessionScope :=
    ⟨locator, decision, canonicalStartupCwd, issuedAtUnixSeconds, false, false⟩
  scope.validate
  pure scope

structure AuthorizedSessionScopeAuthorizeOutcome where
  scope : AuthorizedSessionScope
  created : Bool
  evictedEntryKeys : List String

/-- The error of a lock that another process holds. -/
def lockBusy : Error :=
  ⟨.io, "try lock authorized-session-scopes.lock: Resource temporarily unavailable"⟩

/-- Store the first authorization of a session.  `busy` tells that another
process holds the lock. -/
def tryAuthorizeMissingAt (policy : AuthorizedSessionScopePolicy)
    (directory : LeaseDirectory Content) (locator : ExternalSessionLocator)
    (catalog : RepositoryCatalogSnapshot) (canonicalStartupCwd : HostPath) (now : Int)
    (busy : Bool) :
    Result AuthorizedSessionScopeAuthorizeOutcome × LeaseDirectory Content :=
  let prepared := do
    let scope ← scopeForAuthorization locator catalog canonicalStartupCwd now
    let bytes ← serializeScope tools policy scope
    if busy then throw lockBusy
    let existing ← classifiedRecord tools policy directory locator
    pure (scope, bytes, existing)
  match prepared with
  | .error error => (.error error, directory)
  | .ok (_, _, some existing) => (.ok ⟨existing, false, []⟩, directory)
  | .ok (scope, bytes, none) =>
      let path := recordName tools locator
      match evictForCapacity tools policy directory path (tools.length bytes) now.toNat with
      | (.error error, evicted) => (.error error, evicted)
      | (.ok evictedEntryKeys, evicted) =>
          match replaceRecord evicted path bytes false with
          | .error error => (.error error, evicted)
          | .ok stored => (.ok ⟨scope, true, evictedEntryKeys⟩, stored)

end Directory

end SharedContext.LocalState
