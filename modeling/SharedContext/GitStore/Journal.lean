import SharedContext.Domain.Ids
import SharedContext.Domain.Validation
import SharedContext.Library.BTreeMap

/-!
# Batch journals

A batch of new files is journaled outside the repository before anything in
the repository changes.  A journal lists every file with its destination, its
payload and its digest.
-/

namespace SharedContext

abbrev Bytes := List UInt8

/-- A SHA-256 digest; its text form is sixty-four lower-case hexadecimal digits. -/
@[ext]
structure Digest where
  bits : BitVec 256
  deriving DecidableEq, Repr

namespace Digest

theorem bits_injective : Function.Injective Digest.bits :=
  fun _ _ equal => Digest.ext equal

/-- Digests are ordered as their fixed-width text forms. -/
instance : LinearOrder Digest :=
  LinearOrder.lift' (fun digest => digest.bits.toNat)
    (fun _ _ equal => bits_injective (BitVec.eq_of_toNat_eq equal))

def hexDigit (digest : Digest) (position : Nat) : Char :=
  Nat.digitChar ((digest.bits >>> (4 * (63 - position))).toNat % 16)

instance : ToString Digest where
  toString digest := String.ofList ((List.range 64).map digest.hexDigit)

end Digest

/-- Opaque operational identity of one append batch: a UUID under `bat_`. -/
@[ext]
structure BatchId where
  uuid : Uuid
  deriving DecidableEq, Repr

namespace BatchId

theorem uuid_injective : Function.Injective BatchId.uuid :=
  fun _ _ equal => BatchId.ext equal

/-- Batches are ordered as the names of their directories. -/
instance : LinearOrder BatchId :=
  LinearOrder.lift' (fun id => id.uuid.toNat)
    (fun _ _ equal => uuid_injective (BitVec.eq_of_toNat_eq equal))

instance : ToString BatchId where
  toString id := "bat_" ++ id.uuid.hyphenated

end BatchId

/-- A path in the repository.  Managed paths are generated from an identifier
or a digest, which determine them. -/
inductive RepositoryPath
  | event (eventId : EventId)
  | object (digest : Digest)
  | schema
  | foreign (text : String)
  deriving DecidableEq, Repr

namespace RepositoryPath

def eventText (eventId : EventId) : String :=
  let text := toString eventId
  let head := (text.toList.drop 4).take 2
  s!"events/{String.ofList head}/{text}.json"

def objectText (digest : Digest) : String :=
  let text := toString digest
  s!"objects/sha256/{String.ofList (text.toList.take 2)}/{text}"

instance : ToString RepositoryPath where
  toString
    | .event eventId => eventText eventId
    | .object digest => objectText digest
    | .schema => "schemas/event-v1.schema.json"
    | .foreign text => text

/-- Whether the path lies under `events`, `objects` or `schemas`. -/
def isManaged : RepositoryPath → Bool
  | .foreign _ => false
  | _ => true

end RepositoryPath

def generatedEventPath (eventId : EventId) : RepositoryPath :=
  .event eventId

def objectPath (digest : Digest) : RepositoryPath :=
  .object digest

inductive PendingFileKind
  | event
  | object
  deriving DecidableEq, Repr

/-- A journaled immutable payload and its generated repository destination.
The payload file is named by its number. -/
structure PendingFile where
  kind : PendingFileKind
  targetPath : RepositoryPath
  payloadFile : Nat
  sha256 : Digest
  size : Nat
  deriving DecidableEq, Repr

/-- Informational progress marker.  Recovery never trusts this value. -/
inductive JournalPhase
  | prepared
  | created
  | staged
  | committed
  | indexed
  deriving DecidableEq, Repr

/-- A commit of the work branch, named by its position. -/
abbrev CommitOid := Nat

/-- Durable batch journal stored outside the Git repository. -/
structure Journal where
  version : Nat
  batchId : BatchId
  eventId : EventId
  additionalEventIds : List EventId
  baseHeadOid : Option CommitOid
  phase : JournalPhase
  commitOid : Option CommitOid
  files : List PendingFile
  deriving DecidableEq, Repr

def journalVersion : Nat := 1

def invariantError (message : String) : Error :=
  ⟨.invariantViolation, message⟩

namespace Journal

def eventIds (journal : Journal) : List EventId :=
  journal.eventId :: journal.additionalEventIds

def targetPaths (journal : Journal) : List RepositoryPath :=
  journal.files.map PendingFile.targetPath

/-- The event a file's destination is generated from. -/
def fileEventId? (file : PendingFile) : Option EventId :=
  match file.kind, file.targetPath with
  | .event, .event eventId => some eventId
  | _, _ => none

def observedEventIds (journal : Journal) : List EventId :=
  journal.files.filterMap fileEventId?

end Journal

def validateTarget (file : PendingFile) : Result Unit :=
  match file.kind, file.targetPath with
  | .event, .event _ => pure ()
  | .event, _ => throw (invariantError "journal event target is malformed")
  | .object, path =>
      Result.require (path = objectPath file.sha256)
        (invariantError "journal object target is not content-addressed")

/-- The text forms of the identifiers and digests are part of their types. -/
def validateJournal (journal : Journal) : Result Unit := do
  Result.require (journal.version = journalVersion)
    (invariantError s!"unsupported journal version {journal.version}")
  Result.require journal.eventIds.Nodup (invariantError "journal contains duplicate Event IDs")
  Result.require (journal.files ≠ []) (invariantError "journal must contain an event")
  Result.require (journal.targetPaths.Nodup ∧ (journal.files.map PendingFile.payloadFile).Nodup)
    (invariantError "journal contains duplicate paths")
  journal.files.forM validateTarget
  Result.require (journal.observedEventIds.toFinset = journal.eventIds.toFinset)
    (invariantError "journal Event files do not match its declared Event IDs")

/-- The path of the first event file, which tells a committed batch. -/
def eventPath (journal : Journal) : Result RepositoryPath :=
  match journal.files.find? fun file => file.kind = .event with
  | some file => pure file.targetPath
  | none => throw (invariantError "journal event is missing")

end SharedContext
