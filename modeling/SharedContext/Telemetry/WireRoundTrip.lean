import SharedContext.Telemetry.Stream

/-!
# Frames round-trip

The frame of an event decodes to the event, less the optional fields that were
given up to make it fit.  The frames of a list of events decode in order,
however the stream is cut.
-/

namespace SharedContext.Telemetry

/-! ### The bytes of a candidate -/

def textField (value : String) : Bytes :=
  UInt8.ofNat (Utf8.bytes value).length :: Utf8.bytes value

def optionField (value : Option String) : Bytes :=
  value.elim [u8Max] textField

/-- The optional texts of an event, in the order of the wire. -/
def Event.optionals (event : Event) : List (Option String) :=
  [event.operation, event.errorCode, event.errorFamily, event.reason, event.summary,
    event.sessionDigest, event.taskId, event.taskSessionId, event.episodeId, event.checkpointId,
    event.operationId]

def payloadOf (event : Event) : Bytes :=
  putNumbers event ++ (textField event.invocationId ++ (textField event.programVersion ++
    (event.optionals.map optionField).flatten))

def frameOf (event : Event) : Bytes :=
  frameMagic ++ [frameVersion, 0] ++ BigEndian.toBytes 2 (payloadOf event).length ++
    payloadOf event

/-- No text is as long as the marker of an absent one. -/
structure Event.Short (event : Event) : Prop where
  invocationId : (Utf8.bytes event.invocationId).length < 255
  programVersion : (Utf8.bytes event.programVersion).length < 255
  optionals : ∀ value ∈ event.optionals, (optionBytes value).length < 255

theorem putString_eq {value : String} (short : (Utf8.bytes value).length < 255) (output : Bytes) :
    putString output value = some (output ++ textField value) := by
  rw [putString, if_pos (by omega), textField]

theorem putOptional_eq {value : Option String} (short : (optionBytes value).length < 255)
    (output : Bytes) : putOptional output value = some (output ++ optionField value) := by
  cases value with
  | none => rfl
  | some value => exact putString_eq short output

theorem encodeCandidate_eq {event : Event} (short : event.Short) :
    encodeCandidate event =
      if (payloadOf event).length + headerBytes > frameMaxBytes then none
      else some (frameOf event) := by
  have optional : ∀ value ∈ event.optionals, ∀ output,
      putOptional output value = some (output ++ optionField value) :=
    fun value member output => putOptional_eq (short.optionals value member) output
  simp only [Event.optionals, List.forall_mem_cons] at optional
  obtain ⟨operation, errorCode, errorFamily, reason, summary, sessionDigest, taskId, taskSessionId,
    episodeId, checkpointId, operationId, -⟩ := optional
  unfold encodeCandidate
  simp only [putString_eq short.invocationId, putString_eq short.programVersion, operation,
    errorCode, errorFamily, reason, summary, sessionDigest, taskId, taskSessionId, episodeId,
    checkpointId, operationId, Option.bind_eq_bind, Option.bind_some, List.append_assoc]
  simp only [frameOf, payloadOf, Event.optionals, List.map_cons, List.map_nil, List.flatten_cons,
    List.flatten_nil, List.append_nil, List.append_assoc]

/-! ### Reading back -/

namespace Reader

variable {α β : Type}

theorem bind_of_ok {reader : Reader α} {next : α → Reader β} {bytes rest : Bytes} {value : α}
    (read : reader bytes = .ok (value, rest)) : (reader >>= next) bytes = next value rest := by
  change (reader bytes >>= fun pair => next pair.1 pair.2) = _
  rw [read]
  rfl

theorem lift_of_ok {decoded : Except DecodeError α} {next : α → Reader β} {bytes : Bytes}
    {value : α} (decodes : decoded = .ok value) :
    ((liftM decoded : Reader α) >>= next) bytes = next value bytes := by
  rw [decodes]
  rfl

theorem take_append {front : Bytes} {length : Nat} (sized : front.length = length)
    (rest : Bytes) : take length (front ++ rest) = .ok (front, rest) := by
  rw [take, if_pos (by rw [List.length_append]; omega), List.take_left' sized,
    List.drop_left' sized]

theorem u8_cons (byte : UInt8) (rest : Bytes) : u8 (byte :: rest) = .ok (byte, rest) := by
  have taken : take 1 (byte :: rest) = .ok ([byte], rest) := take_append (rfl : [byte].length = 1) rest
  rw [u8, bind_of_ok taken]
  rfl

theorem u32_append (value : UInt32) (rest : Bytes) :
    u32 (BigEndian.toBytes 4 value.toNat ++ rest) = .ok (value, rest) := by
  have small : value.toNat < 256 ^ 4 := value.toNat_lt
  rw [u32, bind_of_ok (take_append (BigEndian.length_toBytes _ _) rest),
    BigEndian.ofBytes_toBytes, Nat.mod_eq_of_lt small, UInt32.ofNat_toNat]
  rfl

theorem i64_append (value : Int64) (rest : Bytes) :
    i64 (BigEndian.toBytes 8 value.toBitVec.toNat ++ rest) = .ok (value, rest) := by
  have small : value.toBitVec.toNat < 256 ^ 8 := value.toBitVec.isLt
  rw [i64, bind_of_ok (take_append (BigEndian.length_toBytes _ _) rest),
    BigEndian.ofBytes_toBytes, Nat.mod_eq_of_lt small, BitVec.ofNat_toNat,
    BitVec.setWidth_eq, Int64.ofBitVec_toBitVec]
  rfl

theorem text_append (value : String) (rest : Bytes) :
    text (Utf8.bytes value).length (Utf8.bytes value ++ rest) = .ok (value, rest) := by
  rw [text, bind_of_ok (take_append rfl rest), Utf8.text?_bytes]
  rfl

theorem string_append {value : String} (short : (Utf8.bytes value).length < 255)
    (rest : Bytes) : string (textField value ++ rest) = .ok (value, rest) := by
  have code : (UInt8.ofNat (Utf8.bytes value).length).toNat = (Utf8.bytes value).length := by
    rw [UInt8.toNat_ofNat']
    exact Nat.mod_eq_of_lt (by omega)
  rw [string, textField, List.cons_append, bind_of_ok (u8_cons _ _), code]
  exact text_append value rest

theorem optional_append {value : Option String} (short : (optionBytes value).length < 255)
    (rest : Bytes) : optional (optionField value ++ rest) = .ok (value, rest) := by
  cases value with
  | none =>
      rw [optional, optionField, Option.elim_none, List.singleton_append, bind_of_ok (u8_cons _ _)]
      rfl
  | some value =>
      have isShort : (Utf8.bytes value).length < 255 := short
      have code : (UInt8.ofNat (Utf8.bytes value).length).toNat = (Utf8.bytes value).length := by
        rw [UInt8.toNat_ofNat']
        exact Nat.mod_eq_of_lt (by omega)
      have present : UInt8.ofNat (Utf8.bytes value).length ≠ u8Max := by
        intro marker
        rw [marker] at code
        have markerCode : u8Max.toNat = 255 := rfl
        omega
      rw [optional, optionField, Option.elim_some, textField, List.cons_append,
        bind_of_ok (u8_cons _ _), if_neg present, code, bind_of_ok (text_append value rest)]
      rfl

end Reader

theorem decodeEntryPoint_code (value : EntryPoint) :
    decodeEntryPoint (entryPointCode value) = .ok value := by
  cases value <;> rfl

theorem decodeKind_code (value : EventKind) : decodeKind (kindCode value) = .ok value := by
  cases value <;> rfl

theorem decodeOutcome_code (value : Outcome) : decodeOutcome (outcomeCode value) = .ok value := by
  cases value <;> rfl

theorem decodeAuthorization_code (value : Authorization) :
    decodeAuthorization (authorizationCode value) = .ok value := by
  cases value <;> rfl

/-- A count as the wire carries it: the absent marker reads as absent. -/
def carriedCount (count : Option UInt32) : Option UInt32 :=
  if count = some u32Max then none else count

theorem presentCount_getD (count : Option UInt32) :
    presentCount (count.getD u32Max) = carriedCount count := by
  cases count with
  | none => rfl
  | some count =>
      unfold presentCount carriedCount
      by_cases marker : count = u32Max <;> simp [marker]

def Event.carried (event : Event) : Event :=
  { event with
    durationMs := carriedCount event.durationMs
    resultCount := carriedCount event.resultCount }

open Reader in
theorem readEvent_payloadOf {event : Event} (short : event.Short) (rest : Bytes) :
    readEvent (payloadOf event ++ rest) = .ok (event.carried, rest) := by
  have optional : ∀ value ∈ event.optionals, ∀ rest,
      Reader.optional (optionField value ++ rest) = .ok (value, rest) :=
    fun value member rest => optional_append (short.optionals value member) rest
  simp only [Event.optionals, List.forall_mem_cons] at optional
  obtain ⟨operation, errorCode, errorFamily, reason, summary, sessionDigest, taskId, taskSessionId,
    episodeId, checkpointId, operationId, -⟩ := optional
  simp only [payloadOf, putNumbers, Event.optionals, List.map_cons, List.map_nil,
    List.flatten_cons, List.flatten_nil, List.append_nil, List.append_assoc, List.cons_append,
    List.nil_append]
  unfold readEvent
  rw [bind_of_ok (i64_append _ _), bind_of_ok (u32_append _ _), bind_of_ok (u32_append _ _),
    bind_of_ok (u8_cons _ _), lift_of_ok (decodeEntryPoint_code _),
    bind_of_ok (u8_cons _ _), lift_of_ok (decodeKind_code _),
    bind_of_ok (u8_cons _ _), lift_of_ok (decodeOutcome_code _),
    bind_of_ok (u8_cons _ _), lift_of_ok (decodeAuthorization_code _),
    bind_of_ok (u32_append _ _), bind_of_ok (string_append short.invocationId _),
    bind_of_ok (string_append short.programVersion _), bind_of_ok (operation _),
    bind_of_ok (errorCode _), bind_of_ok (errorFamily _), bind_of_ok (reason _),
    bind_of_ok (summary _), bind_of_ok (sessionDigest _), bind_of_ok (taskId _),
    bind_of_ok (taskSessionId _), bind_of_ok (episodeId _), bind_of_ok (checkpointId _),
    bind_of_ok (operationId _), presentCount_getD, presentCount_getD]
  rfl

theorem decodePayload_payloadOf {event : Event} (short : event.Short) :
    decodePayload (payloadOf event) = .ok event.carried := by
  have read := readEvent_payloadOf short []
  rw [List.append_nil] at read
  rw [decodePayload, read]
  rfl

/-! ### What fits into a frame -/

theorem length_optionField (value : Option String) :
    (optionField value).length = 1 + (optionBytes value).length := by
  cases value with
  | none => rfl
  | some value =>
      change (textField value).length = 1 + (Utf8.bytes value).length
      rw [textField, List.length_cons, Nat.add_comm]

theorem length_payloadOf (event : Event) :
    (payloadOf event).length =
      24 + (1 + (Utf8.bytes event.invocationId).length) +
        (1 + (Utf8.bytes event.programVersion).length) +
        (event.optionals.map fun value => 1 + (optionBytes value).length).sum := by
  have numbers : (putNumbers event).length = 24 := by
    simp [putNumbers]
  have optionals : ((event.optionals.map optionField).flatten).length =
      (event.optionals.map fun value => 1 + (optionBytes value).length).sum := by
    rw [List.length_flatten, List.map_map]
    congr 1
    exact List.map_congr_left fun value _ => length_optionField value
  rw [payloadOf, List.length_append, List.length_append, List.length_append, numbers, optionals,
    textField, textField, List.length_cons, List.length_cons]
  omega

/-- The bounds on the texts of a normalized event, and of one with fields given up. -/
structure Event.Bounded (event : Event) : Prop where
  invocationId : (Utf8.bytes event.invocationId).length ≤ 64
  programVersion : (Utf8.bytes event.programVersion).length ≤ 32
  operation : (optionBytes event.operation).length ≤ 48
  errorCode : (optionBytes event.errorCode).length ≤ 48
  errorFamily : (optionBytes event.errorFamily).length ≤ 32
  optionals : ∀ value ∈ event.optionals, (optionBytes value).length ≤ 96

theorem Event.Bounded.short {event : Event} (bounded : event.Bounded) : event.Short where
  invocationId := by
    have := bounded.invocationId
    omega
  programVersion := by
    have := bounded.programVersion
    omega
  optionals value member := by
    have := bounded.optionals value member
    omega

theorem bounded_normalized (event : Event) : event.normalized.Bounded where
  invocationId := length_boundedWith (fun _ => isTokenByte_of_isIdentifierByte) _ _
  programVersion := length_boundedWith (fun _ => id) _ _
  operation := length_boundedOption _ _
  errorCode := length_boundedOption _ _
  errorFamily := length_boundedOption _ _
  optionals := by
    have option : ∀ (value : Option String) {max : Nat}, max ≤ 96 →
        (optionBytes (boundedOption value max)).length ≤ 96 := by
      intro value max small
      have := length_boundedOption value max
      omega
    simp only [Event.optionals, Event.normalized, Event.boundedFrom, List.forall_mem_cons]
    exact ⟨option _ (by omega), option _ (by omega), option _ (by omega), option _ (by omega),
      Nat.zero_le _, option _ (by omega), option _ (by omega), option _ (by omega),
      option _ (by omega), option _ (by omega), length_validatedIdentifierOption _ _, by simp⟩

theorem Event.Bounded.dropOptional {event : Event} (bounded : event.Bounded) (optional : Nat) :
    (dropOptional optional event).Bounded := by
  have optionals := bounded.optionals
  simp only [Event.optionals, List.forall_mem_cons] at optionals
  have none : (optionBytes none).length ≤ 96 := Nat.zero_le _
  obtain ⟨invocationId, programVersion, operation, errorCode, errorFamily, -⟩ := bounded
  unfold Telemetry.dropOptional
  split
  all_goals
    refine ⟨invocationId, programVersion, operation, errorCode, errorFamily, ?_⟩
    simp only [Event.optionals, List.forall_mem_cons]
    tauto

/-- The event without the first optional fields in the order they are given up in. -/
def Event.withoutFirst (event : Event) (count : Nat) : Event :=
  (List.range count).foldl (fun candidate optional => dropOptional optional candidate) event

theorem Event.Bounded.withoutFirst {event : Event} (bounded : event.Bounded) (count : Nat) :
    (event.withoutFirst count).Bounded := by
  induction count with
  | zero => exact bounded
  | succ count ih =>
      rw [Event.withoutFirst, List.range_succ, List.foldl_append]
      exact ih.dropOptional count

theorem length_withoutFirst_seven {event : Event} (bounded : event.Bounded) :
    (payloadOf (event.withoutFirst 7)).length + headerBytes ≤ frameMaxBytes := by
  have invocationId := bounded.invocationId
  have programVersion := bounded.programVersion
  have operation := bounded.operation
  have errorCode := bounded.errorCode
  have errorFamily := bounded.errorFamily
  have operationId := bounded.optionals event.operationId (by simp [Event.optionals])
  rw [length_payloadOf]
  simp only [Event.withoutFirst, List.range_succ, List.range_zero, List.nil_append,
    List.cons_append, List.foldl_cons, List.foldl_nil, Telemetry.dropOptional, Event.optionals,
    List.map_cons, List.map_nil, List.sum_cons, List.sum_nil, headerBytes, frameMaxBytes]
  have absent : (optionBytes none).length = 0 := rfl
  omega

/-- A run of fields that is given up is the shortest after which the candidate fits. -/
structure Event.GivesUp (event : Event) (count : Nat) : Prop where
  atMost : count ≤ 7
  fits : (payloadOf (event.withoutFirst count)).length + headerBytes ≤ frameMaxBytes
  shortest : ∀ fewer < count,
    frameMaxBytes < (payloadOf (event.withoutFirst fewer)).length + headerBytes

/-- A candidate without the first of a list of fields. -/
def withoutAll (optionals : List Nat) (candidate : Event) : Event :=
  optionals.foldl (fun candidate optional => dropOptional optional candidate) candidate

theorem encodeDropping_spec (optionals : List Nat) (candidate : Event) :
    ∃ count ≤ optionals.length,
      encodeDropping optionals candidate =
        encodeCandidate (withoutAll (optionals.take count) candidate) ∧
      (∀ fewer < count, encodeCandidate (withoutAll (optionals.take fewer) candidate) = none) ∧
      (count < optionals.length →
        encodeCandidate (withoutAll (optionals.take count) candidate) ≠ none) := by
  induction optionals generalizing candidate with
  | nil => exact ⟨0, Nat.le_refl 0, rfl, by simp, by simp⟩
  | cons optional optionals ih =>
      cases encoded : encodeCandidate candidate with
      | some frame =>
          have fits : encodeCandidate (withoutAll ((optional :: optionals).take 0) candidate) =
              some frame := encoded
          refine ⟨0, Nat.zero_le _, ?_, by simp, fun _ none => ?_⟩
          · rw [encodeDropping, encoded, fits]
          · rw [fits] at none
            exact absurd none (by simp)
      | none =>
          obtain ⟨count, within, same, earlier, fits⟩ := ih (dropOptional optional candidate)
          refine ⟨count + 1, by simpa using within, ?_, ?_, ?_⟩
          · rw [encodeDropping, encoded]
            exact same
          · intro fewer before
            cases fewer with
            | zero => exact encoded
            | succ fewer => exact earlier fewer (by omega)
          · intro inside
            exact fits (by simpa using inside)

theorem exists_encodeFrame (event : Event) :
    ∃ count, event.normalized.GivesUp count ∧
      encodeFrame event = some (frameOf (event.normalized.withoutFirst count)) := by
  have bounded := bounded_normalized event
  have encoded : ∀ count, encodeCandidate (event.normalized.withoutFirst count) =
      if (payloadOf (event.normalized.withoutFirst count)).length + headerBytes > frameMaxBytes
      then none else some (frameOf (event.normalized.withoutFirst count)) :=
    fun count => encodeCandidate_eq (bounded.withoutFirst count).short
  obtain ⟨count, within, same, earlier, fits⟩ := encodeDropping_spec (List.range 7) event.normalized
  rw [List.length_range] at within fits
  have taken : ∀ fewer ≤ 7, withoutAll ((List.range 7).take fewer) event.normalized =
      event.normalized.withoutFirst fewer := by
    intro fewer small
    rw [List.take_range, Nat.min_eq_left small, withoutAll, Event.withoutFirst]
  rw [taken count within] at same fits
  have isShort : (payloadOf (event.normalized.withoutFirst count)).length + headerBytes ≤
      frameMaxBytes := by
    by_contra tooLong
    rw [Nat.not_le] at tooLong
    by_cases last : count < 7
    · exact fits last (by rw [encoded, if_pos tooLong])
    · have all : count = 7 := by omega
      have allFits := length_withoutFirst_seven bounded
      rw [all] at tooLong
      omega
  refine ⟨count, ⟨within, isShort, ?_⟩, ?_⟩
  · intro fewer before
    have none := earlier fewer before
    rw [taken fewer (by omega), encoded] at none
    by_contra short
    rw [if_neg (by omega)] at none
    exact absurd none (by simp)
  · rw [encodeFrame, Event.normalized] at *
    rw [same, encoded, if_neg (by omega)]

/-! ### Streams of frames -/

theorem length_frameOf (event : Event) :
    (frameOf event).length = headerBytes + (payloadOf event).length := by
  simp only [frameOf, List.length_append, BigEndian.length_toBytes, frameMagic, List.length_cons,
    List.length_nil, headerBytes]

theorem frameOf_append (event : Event) (rest : Bytes) :
    frameOf event ++ rest =
      frameMagic ++ (frameVersion :: 0 :: (BigEndian.toBytes 2 (payloadOf event).length ++
        (payloadOf event ++ rest))) := by
  simp [frameOf]

theorem version_frameOf (event : Event) (rest : Bytes) :
    ((frameOf event ++ rest).drop 4).headD 0 = frameVersion := by
  have magicLength : frameMagic.length = 4 := rfl
  rw [frameOf_append, List.drop_left' magicLength]
  rfl

theorem declaredLength_frameOf {event : Event}
    (fits : (payloadOf event).length + headerBytes ≤ frameMaxBytes) (rest : Bytes) :
    declaredLength (frameOf event ++ rest) = (frameOf event).length := by
  have small : (payloadOf event).length < 256 ^ 2 := by
    unfold headerBytes frameMaxBytes at fits
    omega
  have behind : (frameOf event ++ rest).drop 6 =
      BigEndian.toBytes 2 (payloadOf event).length ++ (payloadOf event ++ rest) := by
    have magicLength : frameMagic.length = 4 := rfl
    rw [frameOf_append, show 6 = 4 + 2 from rfl, ← List.drop_drop, List.drop_left' magicLength]
    rfl
  rw [declaredLength, behind, List.take_left' (BigEndian.length_toBytes _ _),
    BigEndian.ofBytes_toBytes, Nat.mod_eq_of_lt small, length_frameOf]

theorem payload_frameOf (event : Event) (rest : Bytes) :
    ((frameOf event ++ rest).take (frameOf event).length).drop headerBytes = payloadOf event := by
  rw [List.take_left' rfl, frameOf]
  exact List.drop_left' (by simp [frameMagic, headerBytes])

theorem frontTurn_frameOf {event : Event} (short : event.Short)
    (fits : (payloadOf event).length + headerBytes ≤ frameMaxBytes) (rest : Bytes) :
    frameReader.next (frameOf event ++ rest) =
      some ((frameOf event).length, some (.ok event.carried)) := by
  have declared := declaredLength_frameOf fits rest
  have length := length_frameOf event
  have whole : (frameOf event ++ rest).length = (frameOf event).length + rest.length :=
    List.length_append
  have header : HeaderAt (frameOf event ++ rest) := by
    refine ⟨?_, by omega, version_frameOf event rest, by omega⟩
    rw [frameOf_append]
    exact List.prefix_append _ _
  have taken := frontTurn_of_complete header (by omega)
  rw [declared, payload_frameOf, decodePayload_payloadOf short] at taken
  rw [frameReader_next, taken]

/-- An event as the decoder of its frame reports it. -/
structure Received (event received : Event) : Prop where
  less : ∃ count, event.normalized.GivesUp count ∧
    received = (event.normalized.withoutFirst count).carried

theorem exists_frames (events : List Event) :
    ∃ (frames : List Bytes) (received : List Event),
      events.map encodeFrame = frames.map some ∧
      (∀ frame ∈ frames, frame.length ≤ frameMaxBytes) ∧
      List.Forall₂ Received events received ∧
      ∀ rest, frameReader.drain (frames.flatten ++ rest) =
        (received.map .ok ++ (frameReader.drain rest).1, (frameReader.drain rest).2) := by
  induction events with
  | nil => exact ⟨[], [], rfl, by simp, .nil, by simp⟩
  | cons event events ih =>
      obtain ⟨frames, received, encoded, bounds, reported, drained⟩ := ih
      obtain ⟨count, givesUp, frame⟩ := exists_encodeFrame event
      have short := ((bounded_normalized event).withoutFirst count).short
      refine ⟨frameOf (event.normalized.withoutFirst count) :: frames,
        (event.normalized.withoutFirst count).carried :: received, ?_, ?_,
        .cons ⟨count, givesUp, rfl⟩ reported, ?_⟩
      · rw [List.map_cons, List.map_cons, frame, encoded]
      · intro other member
        rcases List.mem_cons.mp member with rfl | member
        · rw [length_frameOf]
          have := givesUp.fits
          omega
        · exact bounds other member
      · intro rest
        rw [List.flatten_cons, List.append_assoc,
          StreamReader.drain_of_some (frontTurn_frameOf short givesUp.fits _),
          List.drop_left' rfl, drained]
        rfl

/-- Every event has a frame of bounded length; the frames, cut in any way, are reported in order
as the events they carry; and of no stream does the report depend on how it is cut. -/
theorem frames_round_trip (events : List Event) :
    (∃ (frames : List Bytes) (received : List Event),
      events.map encodeFrame = frames.map some ∧
      (∀ frame ∈ frames, frame.length ≤ frameMaxBytes) ∧
      List.Forall₂ Received events received ∧
      ∀ chunks : List Bytes, chunks.flatten = frames.flatten →
        (FrameDecoder.new.pushAll chunks).1 = received.map .ok) ∧
    ∀ chunks others : List Bytes, chunks.flatten = others.flatten →
      FrameDecoder.new.pushAll chunks = FrameDecoder.new.pushAll others := by
  constructor
  · obtain ⟨frames, received, encoded, bounds, reported, drained⟩ := exists_frames events
    refine ⟨frames, received, encoded, bounds, reported, fun chunks same => ?_⟩
    have whole := drained []
    rw [List.append_nil, StreamReader.drain_of_none frameReader.next_nil, List.append_nil] at whole
    rw [pushAll_eq FrameDecoder.new_waiting, same]
    change (frameReader.drain frames.flatten).1 = _
    rw [whole]
  · intro chunks others same
    rw [pushAll_eq FrameDecoder.new_waiting, pushAll_eq FrameDecoder.new_waiting, same]

end SharedContext.Telemetry
