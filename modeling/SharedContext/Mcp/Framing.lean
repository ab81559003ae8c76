import SharedContext.Domain.JsonText
import SharedContext.Library.Utf8
import SharedContext.Library.Words
import SharedContext.Domain.Validation
import SharedContext.TaskRuntime.CandidateReviewPages

/-!
# Frames of the MCP stream

A message is a line, or a block of headers with the length of the body that
follows it.  The two kinds are told apart by the first line that is not blank.
-/

namespace SharedContext.Mcp

inductive FrameStyle
  | newline
  | contentLength
  deriving DecidableEq, Repr

structure Frame where
  body : List UInt8
  style : FrameStyle
  deriving DecidableEq, Repr

inductive TransportErrorKind
  | io
  | invalidFrame
  | unexpectedEof
  | frameTooLarge
  deriving DecidableEq, Repr

structure TransportError where
  kind : TransportErrorKind
  message : String
  deriving DecidableEq, Repr

def maxFrameBytes : Nat := 8 * 1024 * 1024

/-! ### Writing -/

def lengthHeader (length : Nat) : String :=
  "Content-Length: " ++ toString length ++ "\r\n\r\n"

/-- `serde_json::to_vec`. -/
def toVec (response : Value) : List UInt8 :=
  Utf8.bytes (String.ofList response.compact)

def writeFrame (response : Value) : FrameStyle → List UInt8
  | .newline => toVec response ++ Utf8.bytes "\n"
  | .contentLength => Utf8.bytes (lengthHeader (toVec response).length) ++ toVec response

/-! ### Reading -/

def lineFeed : UInt8 := 10

/-- The first line with its end, and what comes after it. -/
def splitLine : List UInt8 → List UInt8 × List UInt8
  | [] => ([], [])
  | byte :: rest =>
      if byte = lineFeed then ([byte], rest)
      else (byte :: (splitLine rest).1, (splitLine rest).2)

def lineText (context : String) (line : List UInt8) : Except TransportError (List Char) :=
  match Utf8.text? line with
  | some text => .ok text.toList
  | none => .error ⟨.io, context ++ ": stream did not contain valid UTF-8"⟩

def trimLineEnding (line : List Char) : List Char :=
  if line.getLast? = some '\n' then
    if line.dropLast.getLast? = some '\r' then line.dropLast.dropLast else line.dropLast
  else line

theorem splitLine_shrinks {stream : List UInt8} (nonempty : stream ≠ []) :
    (splitLine stream).2.length < stream.length := by
  induction stream with
  | nil => exact absurd rfl nonempty
  | cons byte rest ih =>
      rw [splitLine]
      split
      · simp
      · cases rest with
        | nil => simp [splitLine]
        | cons next rest =>
            have := ih (List.cons_ne_nil next rest)
            simp only [List.length_cons] at this ⊢
            omega

/-- The first line that is not blank, and what comes after it. -/
def firstLine (stream : List UInt8) :
    Except TransportError (Option (List Char × List UInt8)) :=
  if _ : stream = [] then .ok none
  else
    match lineText "read MCP frame" (splitLine stream).1 with
    | .error error => .error error
    | .ok line =>
        if trimLineEnding line = [] then firstLine (splitLine stream).2
        else .ok (some (trimLineEnding line, (splitLine stream).2))
termination_by stream.length
decreasing_by exact splitLine_shrinks (by assumption)

def skipHeaders (stream : List UInt8) : Except TransportError (List UInt8) :=
  if _ : stream = [] then
    .error ⟨.unexpectedEof, "MCP peer disconnected inside headers"⟩
  else
    match lineText "read MCP header" (splitLine stream).1 with
    | .error error => .error error
    | .ok line =>
        let header := trimLineEnding line
        if header = [] then .ok (splitLine stream).2
        else if ':' ∈ header then skipHeaders (splitLine stream).2
        else .error ⟨.invalidFrame, "invalid MCP header: " ++ String.ofList header⟩
termination_by stream.length
decreasing_by exact splitLine_shrinks (by assumption)

def asciiLower (character : Char) : Char :=
  if 'A' ≤ character ∧ character ≤ 'Z' then Char.ofNat (character.toNat + 32) else character

/-- Whether a frame that starts with the line is a block of headers. -/
def startsHeaders (first : List Char) : Bool :=
  "content-length:".toList.isPrefixOf (first.map asciiLower)

/-- The declared length; `usize` has 64 bits. -/
def contentLength (first : List Char) : Option Nat :=
  match splitColon first with
  | some (_, value) => parseU64 (Words.trim isWhiteSpace value)
  | none => none

def readBody (length : Nat) (stream : List UInt8) :
    Except TransportError (Option (Frame × List UInt8)) :=
  if stream.length < length then
    .error ⟨.unexpectedEof, "MCP peer disconnected inside a message body"⟩
  else .ok (some (⟨stream.take length, .contentLength⟩, stream.drop length))

/-- A frame that starts with the line, before the rest of the stream. -/
def readFrameFrom (first : List Char) (rest : List UInt8) :
    Except TransportError (Option (Frame × List UInt8)) :=
  if startsHeaders first then
    match contentLength first with
    | none => .error ⟨.invalidFrame, "invalid Content-Length"⟩
    | some length =>
        if length > maxFrameBytes then
          .error ⟨.frameTooLarge,
            "MCP frame is " ++ toString length ++ " bytes; maximum is " ++
              toString maxFrameBytes⟩
        else
          match skipHeaders rest with
          | .error error => .error error
          | .ok body => readBody length body
  else if (String.ofList first).utf8ByteSize > maxFrameBytes then
    .error ⟨.frameTooLarge, "MCP frame exceeds " ++ toString maxFrameBytes ++ " bytes"⟩
  else .ok (some (⟨Utf8.bytes (String.ofList first), .newline⟩, rest))

def readFrame (stream : List UInt8) : Except TransportError (Option (Frame × List UInt8)) :=
  match firstLine stream with
  | .error error => .error error
  | .ok none => .ok none
  | .ok (some (first, rest)) => readFrameFrom first rest

theorem firstLine_shrinks {stream rest : List UInt8} {first : List Char}
    (read : firstLine stream = .ok (some (first, rest))) : rest.length < stream.length := by
  fun_induction firstLine stream with
  | case1 => simp at read
  | case2 stream nonempty error failed => simp at read
  | case3 stream nonempty line isText blank ih =>
      have := splitLine_shrinks nonempty
      have := ih read
      omega
  | case4 stream nonempty line isText notBlank =>
      obtain ⟨-, rfl⟩ := Prod.mk.inj (Option.some.inj (Except.ok.inj read))
      exact splitLine_shrinks nonempty

theorem skipHeaders_shrinks {stream body : List UInt8} (skipped : skipHeaders stream = .ok body) :
    body.length < stream.length := by
  fun_induction skipHeaders stream with
  | case1 => simp at skipped
  | case2 stream nonempty error failed => simp at skipped
  | case3 stream nonempty line isText header blank =>
      obtain rfl := Except.ok.inj skipped
      exact splitLine_shrinks nonempty
  | case4 stream nonempty line isText header notBlank colon ih =>
      have := splitLine_shrinks nonempty
      have := ih skipped
      omega
  | case5 => simp at skipped

theorem readFrameFrom_shrinks {first : List Char} {rest after : List UInt8} {frame : Frame}
    (read : readFrameFrom first rest = .ok (some (frame, after))) :
    after.length ≤ rest.length := by
  unfold readFrameFrom readBody at read
  split at read
  · split at read
    · simp at read
    · split at read
      · simp at read
      · split at read
        · simp at read
        · rename_i body skipped
          split at read
          · simp at read
          · obtain ⟨-, rfl⟩ := Prod.mk.inj (Option.some.inj (Except.ok.inj read))
            have := skipHeaders_shrinks skipped
            rw [List.length_drop]
            omega
  · split at read
    · simp at read
    · obtain ⟨-, rfl⟩ := Prod.mk.inj (Option.some.inj (Except.ok.inj read))
      exact le_rfl

theorem readFrame_shrinks {stream after : List UInt8} {frame : Frame}
    (read : readFrame stream = .ok (some (frame, after))) : after.length < stream.length := by
  unfold readFrame at read
  split at read
  · simp at read
  · simp at read
  · rename_i first rest firstRead
    have := firstLine_shrinks firstRead
    have := readFrameFrom_shrinks read
    omega

/-- How the reading of a stream ends. -/
inductive Ending
  | endOfStream
  | failed (error : TransportError)
  deriving DecidableEq, Repr

/-- The frames that are read until the stream ends or a frame cannot be read. -/
def readFrames (stream : List UInt8) : List Frame × Ending :=
  match _ : readFrame stream with
  | .error error => ([], .failed error)
  | .ok none => ([], .endOfStream)
  | .ok (some (frame, after)) =>
      (frame :: (readFrames after).1, (readFrames after).2)
termination_by stream.length
decreasing_by all_goals exact readFrame_shrinks (by assumption)

end SharedContext.Mcp
