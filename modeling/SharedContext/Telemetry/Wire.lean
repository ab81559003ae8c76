import Mathlib.Data.List.Infix
import SharedContext.Library.BigEndian
import SharedContext.Library.Search
import SharedContext.Telemetry.Event

/-!
# Frames on the wire

An event travels in one frame of at most 512 bytes: a magic, a version, the
length of the payload, and the payload.  The decoder buffers what arrives,
looks for the magic, and takes a frame off the buffer when it is complete.
-/

namespace SharedContext.Telemetry

def frameMaxBytes : Nat := 512

/-- The bytes of `SCTX`. -/
def frameMagic : Bytes := [83, 67, 84, 88]

def frameVersion : UInt8 := 1
def headerBytes : Nat := 8

inductive DecodeError
  | invalidVersion
  | invalidLength
  | invalidPayload
  | invalidUtf8
  deriving DecidableEq

/-! ### Codes -/

def entryPointCode : EntryPoint → UInt8
  | .cli => 0
  | .hook => 1
  | .mcp => 2
  | .maintenance => 3
  | .collector => 4

def kindCode : EventKind → UInt8
  | .operationStarted => 0
  | .operationFinished => 1
  | .hookDecision => 2
  | .toolStarted => 3
  | .toolFinished => 4
  | .protocolFailure => 5
  | .maintenanceStepFinished => 6

def outcomeCode : Outcome → UInt8
  | .started => 0
  | .success => 1
  | .failure => 2
  | .disabled => 3
  | .failOpen => 4
  | .degraded => 5
  | .dropped => 6
  | .unknown => 7

def authorizationCode : Authorization → UInt8
  | .notApplicable => 0
  | .authorized => 1
  | .unauthorized => 2
  | .unverified => 3

def decodeEntryPoint (value : UInt8) : Except DecodeError EntryPoint :=
  if value = 0 then .ok .cli
  else if value = 1 then .ok .hook
  else if value = 2 then .ok .mcp
  else if value = 3 then .ok .maintenance
  else if value = 4 then .ok .collector
  else .error .invalidPayload

def decodeKind (value : UInt8) : Except DecodeError EventKind :=
  if value = 0 then .ok .operationStarted
  else if value = 1 then .ok .operationFinished
  else if value = 2 then .ok .hookDecision
  else if value = 3 then .ok .toolStarted
  else if value = 4 then .ok .toolFinished
  else if value = 5 then .ok .protocolFailure
  else if value = 6 then .ok .maintenanceStepFinished
  else .error .invalidPayload

def decodeOutcome (value : UInt8) : Except DecodeError Outcome :=
  if value = 0 then .ok .started
  else if value = 1 then .ok .success
  else if value = 2 then .ok .failure
  else if value = 3 then .ok .disabled
  else if value = 4 then .ok .failOpen
  else if value = 5 then .ok .degraded
  else if value = 6 then .ok .dropped
  else if value = 7 then .ok .unknown
  else .error .invalidPayload

def decodeAuthorization (value : UInt8) : Except DecodeError Authorization :=
  if value = 0 then .ok .notApplicable
  else if value = 1 then .ok .authorized
  else if value = 2 then .ok .unauthorized
  else if value = 3 then .ok .unverified
  else .error .invalidPayload

/-! ### Encoding -/

/-- The greatest `u32` and the greatest `u8` stand for absent values. -/
def u32Max : UInt32 := 4294967295
def u8Max : UInt8 := 255

def putString (output : Bytes) (value : String) : Option Bytes :=
  let bytes := Utf8.bytes value
  if bytes.length ≤ 255 then some (output ++ UInt8.ofNat bytes.length :: bytes) else none

def putOptional (output : Bytes) (value : Option String) : Option Bytes :=
  match value with
  | some value => putString output value
  | none => some (output ++ [u8Max])

def putNumbers (event : Event) : Bytes :=
  BigEndian.toBytes 8 event.occurredAtUnixMs.toBitVec.toNat ++
    BigEndian.toBytes 4 (event.durationMs.getD u32Max).toNat ++
    BigEndian.toBytes 4 event.sequence.toNat ++
    [entryPointCode event.entryPoint, kindCode event.kind, outcomeCode event.outcome,
      authorizationCode event.authorization] ++
    BigEndian.toBytes 4 (event.resultCount.getD u32Max).toNat

def encodeCandidate (event : Event) : Option Bytes := do
  let payload := putNumbers event
  let payload ← putString payload event.invocationId
  let payload ← putString payload event.programVersion
  let payload ← putOptional payload event.operation
  let payload ← putOptional payload event.errorCode
  let payload ← putOptional payload event.errorFamily
  let payload ← putOptional payload event.reason
  let payload ← putOptional payload event.summary
  let payload ← putOptional payload event.sessionDigest
  let payload ← putOptional payload event.taskId
  let payload ← putOptional payload event.taskSessionId
  let payload ← putOptional payload event.episodeId
  let payload ← putOptional payload event.checkpointId
  let payload ← putOptional payload event.operationId
  if payload.length + headerBytes > frameMaxBytes then none
  else
    some (frameMagic ++ [frameVersion, 0] ++ BigEndian.toBytes 2 payload.length ++ payload)

/-- Give up one optional field of a candidate that is too long. -/
def dropOptional : Nat → Event → Event
  | 0, candidate => { candidate with summary := none }
  | 1, candidate => { candidate with reason := none }
  | 2, candidate => { candidate with taskSessionId := none }
  | 3, candidate => { candidate with sessionDigest := none }
  | 4, candidate => { candidate with taskId := none }
  | 5, candidate => { candidate with episodeId := none }
  | _, candidate => { candidate with checkpointId := none }

def encodeDropping : List Nat → Event → Option Bytes
  | [], candidate => encodeCandidate candidate
  | optional :: rest, candidate =>
      match encodeCandidate candidate with
      | some frame => some frame
      | none => encodeDropping rest (dropOptional optional candidate)

def encodeFrame (event : Event) : Option Bytes :=
  encodeDropping (List.range 7) event.boundedFrom

/-! ### Decoding a payload -/

/-- A reader of the bytes that are left of a payload. -/
abbrev Reader := StateT Bytes (Except DecodeError)

namespace Reader

def take (length : Nat) : Reader Bytes := fun bytes =>
  if length ≤ bytes.length then .ok (bytes.take length, bytes.drop length)
  else .error .invalidPayload

def u8 : Reader UInt8 := do
  let bytes ← take 1
  pure (bytes.headD 0)

def u32 : Reader UInt32 := do
  let bytes ← take 4
  pure (UInt32.ofNat (BigEndian.ofBytes bytes))

def i64 : Reader Int64 := do
  let bytes ← take 8
  pure (Int64.ofBitVec (BitVec.ofNat 64 (BigEndian.ofBytes bytes)))

def text (length : Nat) : Reader String := do
  let bytes ← take length
  match Utf8.text? bytes with
  | some text => pure text
  | none => throw .invalidUtf8

def string : Reader String := do
  let length ← u8
  text length.toNat

def optional : Reader (Option String) := do
  let length ← u8
  if length = u8Max then pure none
  else
    let value ← text length.toNat
    pure (some value)

end Reader

/-- A count that is the absent marker of the wire reads as absent. -/
def presentCount (count : UInt32) : Option UInt32 :=
  if count = u32Max then none else some count

def readEvent : Reader Event := do
  let occurredAtUnixMs ← Reader.i64
  let duration ← Reader.u32
  let sequence ← Reader.u32
  let entryPoint ← Reader.u8
  let entryPoint ← decodeEntryPoint entryPoint
  let kind ← Reader.u8
  let kind ← decodeKind kind
  let outcome ← Reader.u8
  let outcome ← decodeOutcome outcome
  let authorization ← Reader.u8
  let authorization ← decodeAuthorization authorization
  let resultCount ← Reader.u32
  let invocationId ← Reader.string
  let programVersion ← Reader.string
  let operation ← Reader.optional
  let errorCode ← Reader.optional
  let errorFamily ← Reader.optional
  let reason ← Reader.optional
  let summary ← Reader.optional
  let sessionDigest ← Reader.optional
  let taskId ← Reader.optional
  let taskSessionId ← Reader.optional
  let episodeId ← Reader.optional
  let checkpointId ← Reader.optional
  let operationId ← Reader.optional
  pure
    { occurredAtUnixMs, durationMs := presentCount duration, sequence, entryPoint, kind, outcome,
      authorization, invocationId, programVersion, operation, errorCode, errorFamily, reason,
      summary, sessionDigest, taskId, taskSessionId, episodeId, checkpointId, operationId,
      resultCount := presentCount resultCount }

def decodePayload (payload : Bytes) : Except DecodeError Event := do
  let (event, remaining) ← readEvent payload
  if remaining.length ≠ 0 then .error .invalidPayload else .ok event

/-! ### Decoding a stream -/

structure FrameDecoder where
  buffer : Bytes
  deriving DecidableEq

def FrameDecoder.new : FrameDecoder :=
  ⟨[]⟩

inductive Turn
  | wait (buffer : Bytes)
  | report (result : Except DecodeError Event) (buffer : Bytes)

/-- The length that the header at the front of a buffer declares for its frame. -/
def declaredLength (buffer : Bytes) : Nat :=
  headerBytes + BigEndian.ofBytes ((buffer.drop 6).take 2)

def decodeTurn (buffer : Bytes) : Turn :=
  match findFirst frameMagic buffer with
  | none => .wait (buffer.drop (buffer.length - min buffer.length (frameMagic.length - 1)))
  | some magicAt =>
      let buffer := buffer.drop magicAt
      if buffer.length < headerBytes then .wait buffer
      else if (buffer.drop 4).headD 0 ≠ frameVersion then
        .report (.error .invalidVersion) (buffer.drop 1)
      else if frameMaxBytes < declaredLength buffer then
        .report (.error .invalidLength) (buffer.drop 1)
      else if buffer.length < declaredLength buffer then .wait buffer
      else
        .report (decodePayload ((buffer.take (declaredLength buffer)).drop headerBytes))
          (buffer.drop (declaredLength buffer))

/-- The loop; every reported result takes at least one byte off the buffer. -/
def decodeLoop : Nat → Bytes → List (Except DecodeError Event) × Bytes
  | 0, buffer => ([], buffer)
  | rounds + 1, buffer =>
      match decodeTurn buffer with
      | .wait buffer => ([], buffer)
      | .report result buffer =>
          let (results, rest) := decodeLoop rounds buffer
          (result :: results, rest)

def decodeAvailable (buffer : Bytes) : List (Except DecodeError Event) × Bytes :=
  decodeLoop (buffer.length + 1) buffer

/-- Extend the buffer by one piece of the input, and decode what is available. -/
def FrameDecoder.pushPiece (state : List (Except DecodeError Event) × FrameDecoder)
    (piece : Bytes) : List (Except DecodeError Event) × FrameDecoder :=
  let (results, rest) := decodeAvailable (state.2.buffer ++ piece)
  (state.1 ++ results, ⟨rest⟩)

/-- Push bytes to the decoder, in pieces of the length of a frame. -/
def FrameDecoder.push (decoder : FrameDecoder) (bytes : Bytes) :
    List (Except DecodeError Event) × FrameDecoder :=
  (bytes.toChunks frameMaxBytes).foldl FrameDecoder.pushPiece ([], decoder)

def FrameDecoder.pushAll (decoder : FrameDecoder) (chunks : List Bytes) :
    List (Except DecodeError Event) × FrameDecoder :=
  chunks.foldl (fun state chunk =>
    let (results, next) := state.2.push chunk
    (state.1 ++ results, next)) ([], decoder)

end SharedContext.Telemetry
