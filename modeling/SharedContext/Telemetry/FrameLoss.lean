import SharedContext.Telemetry.WireRoundTrip

/-!
# How much of a stream a bad frame costs

The decoder follows the headers of the stream from its first byte.  Once it
arrives at the start of an intact frame it reports that frame and all behind
it.  A frame whose texts look like a header can keep it from ever arriving.
-/

namespace SharedContext.Telemetry

def sentBytes (events : List Event) : Bytes :=
  (events.filterMap encodeFrame).flatten

/-- The positions that the headers of a stream lead to: past a header and what it declares, and
one byte on from where there is none. -/
inductive LeadsTo (stream : Bytes) : Nat → Prop
  | start : LeadsTo stream 0
  | skip {position : Nat} (reached : LeadsTo stream position)
      (other : ¬ HeaderAt (stream.drop position)) : LeadsTo stream (position + 1)
  | frame {position : Nat} (reached : LeadsTo stream position)
      (header : HeaderAt (stream.drop position))
      (complete : declaredLength (stream.drop position) ≤ (stream.drop position).length) :
      LeadsTo stream (position + declaredLength (stream.drop position))

/-- Every event whose frame begins `FRAME_MAX_BYTES` behind the garbage, or later, is reported
where its frame begins. -/
def LateFramesReported (garbage : Bytes) (events : List Event) : Prop :=
  ∀ earlier event later, events = earlier ++ event :: later →
    frameMaxBytes ≤ (sentBytes earlier).length →
    ∃ received, Received event received ∧
      (garbage.length + (sentBytes earlier).length, .ok received) ∈
        frameReader.reports (garbage ++ sentBytes events)

/-- The headers lead to the start of some frame that is not behind the first of the late ones. -/
def FindsAFrame (garbage : Bytes) (events : List Event) : Prop :=
  ∀ earlier event later, events = earlier ++ event :: later →
    frameMaxBytes ≤ (sentBytes earlier).length →
    ∃ before, before <+: earlier ∧
      LeadsTo (garbage ++ sentBytes events) (garbage.length + (sentBytes before).length)

/-! ### The decoder goes where the headers lead -/

theorem headerAt_of_frontTurn {buffer : Bytes} {count : Nat}
    {result : Option (Except DecodeError Event)} (taken : frontTurn buffer = some (count, result)) :
    (¬ HeaderAt buffer ∧ count = 1) ∨
      (HeaderAt buffer ∧ declaredLength buffer ≤ buffer.length ∧ count = declaredLength buffer) := by
  unfold frontTurn at taken
  split at taken
  · exact absurd taken (by simp)
  split at taken
  · rename_i other
    refine .inl ⟨fun header => other header.1, ?_⟩
    simp only [Option.some.injEq, Prod.mk.injEq] at taken
    exact taken.1.symm
  rename_i isMagic
  split at taken
  · exact absurd taken (by simp)
  split at taken
  · rename_i badVersion
    refine .inl ⟨fun header => badVersion header.2.2.1, ?_⟩
    simp only [Option.some.injEq, Prod.mk.injEq] at taken
    exact taken.1.symm
  rename_i long goodVersion
  split at taken
  · rename_i badLength
    refine .inl ⟨fun header => ?_, ?_⟩
    · have bounded := header.2.2.2
      omega
    · simp only [Option.some.injEq, Prod.mk.injEq] at taken
      exact taken.1.symm
  split at taken
  · exact absurd taken (by simp)
  rename_i goodLength complete
  simp only [Option.some.injEq, Prod.mk.injEq] at taken
  exact .inr ⟨⟨not_not.mp isMagic, by omega, not_not.mp goodVersion, by omega⟩, by omega,
    taken.1.symm⟩

theorem frontTurn_of_other {buffer : Bytes} (long : headerBytes ≤ buffer.length)
    (other : ¬ HeaderAt buffer) : ∃ result, frontTurn buffer = some (1, result) := by
  have magicLength : frameMagic.length = 4 := rfl
  unfold headerBytes at long
  unfold frontTurn
  rw [if_neg (by omega)]
  by_cases isMagic : frameMagic <+: buffer
  · rw [if_neg (not_not.mpr isMagic), if_neg (by unfold headerBytes; omega)]
    by_cases version : (buffer.drop 4).headD 0 = frameVersion
    · rw [if_neg (not_not.mpr version)]
      by_cases bounded : frameMaxBytes < declaredLength buffer
      · rw [if_pos bounded]
        exact ⟨_, rfl⟩
      · exact absurd ⟨isMagic, long, version, by omega⟩ other
    · rw [if_pos version]
      exact ⟨_, rfl⟩
  · rw [if_pos isMagic]
    exact ⟨_, rfl⟩

theorem leadsTo_of_reaches {stream : Bytes} {position : Nat}
    (reached : frameReader.Reaches stream position) : LeadsTo stream position := by
  induction reached with
  | start => exact .start
  | turn reached taken ih =>
      rcases headerAt_of_frontTurn taken with ⟨other, rfl⟩ | ⟨header, complete, rfl⟩
      · exact ih.skip other
      · exact ih.frame header complete

theorem reaches_of_leadsTo {stream : Bytes} {position : Nat} (leads : LeadsTo stream position)
    (long : position + headerBytes ≤ stream.length) : frameReader.Reaches stream position := by
  induction leads with
  | start => exact .start
  | @skip position reached other ih =>
      have remaining : (stream.drop position).length = stream.length - position := List.length_drop
      obtain ⟨result, taken⟩ := frontTurn_of_other (by omega) other
      exact (ih (by omega)).turn taken
  | frame reached header complete ih =>
      exact (ih (by omega)).turn (frontTurn_of_complete header complete)

/-! ### Frames behind each other -/

theorem sentBytes_append (first second : List Event) :
    sentBytes (first ++ second) = sentBytes first ++ sentBytes second := by
  rw [sentBytes, List.filterMap_append, List.flatten_append]
  rfl

theorem sentBytes_cons (event : Event) :
    ∃ count, event.normalized.GivesUp count ∧ ∀ events,
      sentBytes (event :: events) =
        frameOf (event.normalized.withoutFirst count) ++ sentBytes events := by
  obtain ⟨count, givesUp, encoded⟩ := exists_encodeFrame event
  refine ⟨count, givesUp, fun events => ?_⟩
  rw [sentBytes, List.filterMap_cons_some encoded, List.flatten_cons]
  rfl

theorem frontTurn_sentBytes (event : Event) (later : List Event) :
    ∃ received, Received event received ∧
      frontTurn (sentBytes (event :: later)) =
        some ((sentBytes [event]).length, some (.ok received)) := by
  obtain ⟨count, givesUp, sent⟩ := sentBytes_cons event
  have short := ((bounded_normalized event).withoutFirst count).short
  refine ⟨(event.normalized.withoutFirst count).carried, ⟨count, givesUp, rfl⟩, ?_⟩
  have alone : sentBytes [event] = frameOf (event.normalized.withoutFirst count) := by
    rw [sent, sentBytes, List.filterMap_nil, List.flatten_nil, List.append_nil]
  rw [sent, alone, ← frameReader_next, frontTurn_frameOf short givesUp.fits]

theorem drop_sentBytes (garbage : Bytes) (earlier later : List Event) :
    (garbage ++ sentBytes (earlier ++ later)).drop
      (garbage.length + (sentBytes earlier).length) = sentBytes later := by
  rw [sentBytes_append, List.drop_append, List.drop_eq_nil_of_le (by omega), List.nil_append,
    Nat.add_sub_cancel_left, List.drop_left' rfl]

theorem reaches_behind {garbage : Bytes} {before between later : List Event}
    (reached : frameReader.Reaches (garbage ++ sentBytes (before ++ between ++ later))
      (garbage.length + (sentBytes before).length)) :
    frameReader.Reaches (garbage ++ sentBytes (before ++ between ++ later))
      (garbage.length + (sentBytes (before ++ between)).length) := by
  induction between generalizing before with
  | nil => simpa using reached
  | cons event between ih =>
      obtain ⟨received, -, taken⟩ := frontTurn_sentBytes event (between ++ later)
      have here := drop_sentBytes garbage before (event :: (between ++ later))
      have stream : before ++ (event :: between) ++ later = before ++ event :: (between ++ later) := by
        simp
      have onward : before ++ (event :: between) ++ later = before ++ [event] ++ between ++ later := by
        simp
      rw [stream] at reached
      rw [← here] at taken
      have next := reached.turn taken
      rw [← stream, onward, Nat.add_assoc, ← List.length_append, ← sentBytes_append] at next
      have arrived := ih next
      rw [onward]
      simpa using arrived

theorem reaches_of_leadsTo_frame {garbage : Bytes} {before : List Event} {event : Event}
    {later : List Event}
    (leads : LeadsTo (garbage ++ sentBytes (before ++ event :: later))
      (garbage.length + (sentBytes before).length)) :
    frameReader.Reaches (garbage ++ sentBytes (before ++ event :: later))
      (garbage.length + (sentBytes before).length) := by
  refine reaches_of_leadsTo leads ?_
  obtain ⟨count, -, sent⟩ := sentBytes_cons event
  rw [sentBytes_append, sent, List.length_append, List.length_append, List.length_append,
    length_frameOf]
  omega

theorem late_frames_reported {garbage : Bytes} {events : List Event}
    (finds : FindsAFrame garbage events) : LateFramesReported garbage events := by
  intro earlier event later split late
  obtain ⟨before, ⟨between, rfl⟩, leads⟩ := finds earlier event later split late
  subst split
  obtain ⟨received, carried, taken⟩ := frontTurn_sentBytes event later
  rw [← drop_sentBytes garbage (before ++ between) (event :: later)] at taken
  have atFrame : frameReader.Reaches (garbage ++ sentBytes (before ++ between ++ event :: later))
      (garbage.length + (sentBytes before).length) := by
    cases between with
    | nil =>
        rw [List.append_nil] at leads ⊢
        exact reaches_of_leadsTo_frame leads
    | cons first between =>
        rw [List.append_assoc] at leads ⊢
        exact reaches_of_leadsTo_frame leads
  exact ⟨received, carried, StreamReader.mem_reports.mpr ⟨reaches_behind atFrame, _, taken⟩⟩

theorem finds_of_late_frames_reported {garbage : Bytes} {events : List Event}
    (reported : LateFramesReported garbage events) : FindsAFrame garbage events := by
  intro earlier event later split late
  obtain ⟨received, -, entry⟩ := reported earlier event later split late
  have reached := (StreamReader.mem_reports.mp entry).1
  exact ⟨earlier, List.prefix_rfl, leadsTo_of_reaches reached⟩

/-! ### Frames without look-alikes -/

/-! ### How the loss is bounded -/

/-- Where the headers lead to from a position. -/
def onward (stream : Bytes) (position : Nat) : Nat :=
  if HeaderAt (stream.drop position) then position + declaredLength (stream.drop position)
  else position + 1

theorem onward_le {stream : Bytes} {position earlier : Nat} (leads : LeadsTo stream position)
    (earlierLeads : LeadsTo stream earlier) (before : earlier < position) :
    onward stream earlier ≤ position := by
  induction total : position + earlier using Nat.strongRecOn generalizing position earlier with
  | _ total ih =>
      have fromPrevious : ∀ {previous}, LeadsTo stream previous → previous < position →
          onward stream previous = position → onward stream earlier ≤ position := by
        intro previous previousLeads shorter arrives
        rcases Nat.lt_trichotomy earlier previous with less | same | more
        · exact Nat.le_trans (ih _ (by omega) previousLeads earlierLeads less rfl) (by omega)
        · rw [same, arrives]
        · have passed := ih _ (by omega) earlierLeads previousLeads more rfl
          omega
      cases leads with
      | start => omega
      | skip reached other =>
          exact fromPrevious reached (by omega) (if_neg other)
      | frame reached header complete =>
          rename_i previous
          have forward : 8 ≤ declaredLength (stream.drop previous) := Nat.le_add_right _ _
          exact fromPrevious reached (by omega) (if_pos header)

/-- An event whose frame has, from the end of its identifier on, the header of a frame that is as
long as its own. -/
def lookAlike : Event :=
  { occurredAtUnixMs := 0
    durationMs := some 5
    sequence := 0
    entryPoint := .hook
    kind := .hookDecision
    outcome := .success
    authorization := .authorized
    invocationId := "SCTX"
    programVersion := "1"
    operation := some "t"
    errorCode := some (String.ofList (List.replicate 48 'c'))
    errorFamily := some (String.ofList (List.replicate 32 'f'))
    reason := some (String.ofList (List.replicate 64 'r'))
    summary := none
    sessionDigest := some (String.ofList (List.replicate 64 '0'))
    taskId := some (String.ofList (List.replicate 64 '1'))
    taskSessionId := some (String.ofList (List.replicate 57 '2'))
    episodeId := none
    checkpointId := none
    operationId := none
    resultCount := none }

/-- The header of a frame that was cut off behind it. -/
def cutOff : Bytes :=
  frameMagic ++ [frameVersion, 0, 0, 33]

end SharedContext.Telemetry
