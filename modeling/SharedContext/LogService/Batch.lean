import SharedContext.Domain.Validation

/-!
# Streams and batches of the log service

Events are collected into batches.  A batch is bound to the stream of the
configuration it was opened under, and a stream without an upload target has
neither an email nor a remote.
-/

namespace SharedContext.LogService

inductive ErrorCode
  | notConfigured
  | invalidConfig
  | invalidPath
  | permission
  | io
  | endpoint
  | corruptFrame
  | corruptBatch
  | storagePressure
  | invalidInput
  deriving DecidableEq, Repr

structure Error where
  code : ErrorCode
  message : String
  deriving DecidableEq, Repr

abbrev Result (α : Type) := Except Error α

def Result.require (passes : Prop) [Decidable passes] (error : Error) : Result Unit :=
  if passes then .ok () else .error error

@[simp]
theorem Result.require_eq_ok {passes : Prop} [Decidable passes] {error : Error} :
    Result.require passes error = .ok () ↔ passes := by
  unfold Result.require
  split <;> simp [*]

def invalidConfig (message : String) : Error :=
  ⟨.invalidConfig, message⟩

structure StreamTarget where
  streamId : String
  installationId : String
  email : Option String
  remote : Option String
  createdAtUnixMs : Int
  deriving DecidableEq, Repr

structure StreamBinding where
  streamId : String
  installationId : String
  email : Option String
  remote : Option String
  deriving DecidableEq, Repr

namespace StreamBinding

def ofTarget (target : StreamTarget) : StreamBinding :=
  ⟨target.streamId, target.installationId, target.email, target.remote⟩

end StreamBinding

structure BatchManifest where
  schemaVersion : Nat
  batchId : String
  stream : StreamBinding
  firstEventUnixMs : Int
  lastEventUnixMs : Int
  eventCount : Nat
  contentBytes : Nat
  contentSha256 : String
  collectorVersion : String
  sealedAtUnixMs : Int
  deriving DecidableEq, Repr

end SharedContext.LogService
