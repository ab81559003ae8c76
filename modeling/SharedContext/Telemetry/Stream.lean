import SharedContext.Library.StreamReader
import SharedContext.Telemetry.Wire

/-!
# The decoder as a reader of a stream

Looking for the magic is skipping one byte after the other, so the decoder is a
reader whose every decision is settled by the bytes it has seen.  What it
reports does not depend on how the stream is cut.
-/

namespace SharedContext.Telemetry

/-- The frame header at the front of a buffer is complete and well formed. -/
def HeaderAt (buffer : Bytes) : Prop :=
  frameMagic <+: buffer ∧ headerBytes ≤ buffer.length ∧
    (buffer.drop 4).headD 0 = frameVersion ∧ declaredLength buffer ≤ frameMaxBytes

instance (buffer : Bytes) : Decidable (HeaderAt buffer) :=
  inferInstanceAs (Decidable (_ ∧ _ ∧ _ ∧ _))

/-- What the decoder does with the front of its buffer. -/
def frontTurn (buffer : Bytes) : Option (Nat × Option (Except DecodeError Event)) :=
  if buffer.length < frameMagic.length then none
  else if ¬ frameMagic <+: buffer then some (1, none)
  else if buffer.length < headerBytes then none
  else if (buffer.drop 4).headD 0 ≠ frameVersion then some (1, some (.error .invalidVersion))
  else if frameMaxBytes < declaredLength buffer then some (1, some (.error .invalidLength))
  else if buffer.length < declaredLength buffer then none
  else
    some (declaredLength buffer,
      some (decodePayload ((buffer.take (declaredLength buffer)).drop headerBytes)))

theorem frontTurn_of_complete {buffer : Bytes} (header : HeaderAt buffer)
    (complete : declaredLength buffer ≤ buffer.length) :
    frontTurn buffer = some (declaredLength buffer,
      some (decodePayload ((buffer.take (declaredLength buffer)).drop headerBytes))) := by
  obtain ⟨isMagic, long, version, bounded⟩ := header
  have magicShort : ¬ buffer.length < frameMagic.length := by
    have shorter := isMagic.length_le
    omega
  unfold frontTurn
  rw [if_neg magicShort, if_neg (not_not.mpr isMagic), if_neg (by omega),
    if_neg (not_not.mpr version), if_neg (by omega), if_neg (by omega)]

theorem frontTurn_takes {buffer : Bytes} {count : Nat}
    {result : Option (Except DecodeError Event)} (turn : frontTurn buffer = some (count, result)) :
    0 < count ∧ count ≤ buffer.length := by
  have header : headerBytes ≤ declaredLength buffer := Nat.le_add_right _ _
  unfold headerBytes at header
  unfold frontTurn frameMagic at turn
  simp only [List.length_cons, List.length_nil] at turn
  split at turn
  · exact absurd turn (by simp)
  · repeat' split at turn
    all_goals
      first
        | contradiction
        | (obtain ⟨rfl, -⟩ := Prod.mk.inj (Option.some.inj turn); omega)

theorem prefix_append_iff {needle buffer : Bytes} (long : needle.length ≤ buffer.length)
    (more : Bytes) : needle <+: buffer ++ more ↔ needle <+: buffer := by
  constructor
  · intro isPrefix
    exact List.prefix_of_prefix_length_le isPrefix (List.prefix_append buffer more) long
  · intro isPrefix
    exact isPrefix.trans (List.prefix_append buffer more)

theorem declaredLength_append {buffer : Bytes} (long : headerBytes ≤ buffer.length)
    (more : Bytes) : declaredLength (buffer ++ more) = declaredLength buffer := by
  unfold headerBytes at long
  unfold declaredLength
  rw [List.drop_append_of_le_length (by omega), List.take_append_of_le_length]
  rw [List.length_drop]
  omega

theorem version_append {buffer : Bytes} (long : headerBytes ≤ buffer.length) (more : Bytes) :
    ((buffer ++ more).drop 4).headD 0 = (buffer.drop 4).headD 0 := by
  unfold headerBytes at long
  rw [List.drop_append_of_le_length (by omega)]
  rcases dropped : buffer.drop 4 with _ | ⟨first, rest⟩
  · have length := congrArg List.length dropped
    rw [List.length_drop, List.length_nil] at length
    omega
  · rfl

theorem frontTurn_settled {buffer : Bytes} {turn : Nat × Option (Except DecodeError Event)}
    (taken : frontTurn buffer = some turn) (more : Bytes) :
    frontTurn (buffer ++ more) = some turn := by
  have longer : buffer.length ≤ (buffer ++ more).length := by simp
  have magicLength : frameMagic.length = 4 := rfl
  unfold frontTurn at taken ⊢
  split at taken
  · exact absurd taken (by simp)
  rename_i magicFits
  rw [if_neg (by omega)]
  have samePrefix : frameMagic <+: buffer ++ more ↔ frameMagic <+: buffer :=
    prefix_append_iff (by omega) more
  split at taken
  · rename_i other
    rw [if_pos (samePrefix.not.mpr other)]
    exact taken
  rename_i isMagic
  rw [if_neg (not_not.mpr (samePrefix.mpr (not_not.mp isMagic)))]
  split at taken
  · exact absurd taken (by simp)
  rename_i headerFits
  rw [if_neg (by omega), version_append (by omega), declaredLength_append (by omega)]
  split at taken
  · rename_i badVersion
    rw [if_pos badVersion]
    exact taken
  rename_i goodVersion
  rw [if_neg goodVersion]
  split at taken
  · rename_i badLength
    rw [if_pos badLength]
    exact taken
  rename_i goodLength
  rw [if_neg goodLength]
  split at taken
  · exact absurd taken (by simp)
  rename_i complete
  rw [if_neg (by omega), List.take_append_of_le_length (by omega)]
  exact taken

def frameReader : StreamReader UInt8 (Except DecodeError Event) where
  next := frontTurn
  takes := frontTurn_takes
  settled := frontTurn_settled

theorem frameReader_next (buffer : Bytes) : frameReader.next buffer = frontTurn buffer :=
  rfl

/-! ### The loop drains the reader -/

theorem frontTurn_skip {buffer : Bytes} (long : frameMagic.length ≤ buffer.length)
    (other : ¬ frameMagic <+: buffer) : frameReader.next buffer = some (1, none) := by
  rw [frameReader_next]
  unfold frontTurn
  rw [if_neg (by omega), if_pos other]

theorem drain_drop_of_findFirst {buffer : Bytes} {magicAt : Nat}
    (found : findFirst frameMagic buffer = some magicAt) :
    frameReader.drain buffer = frameReader.drain (buffer.drop magicAt) := by
  induction magicAt generalizing buffer with
  | zero => rw [List.drop_zero]
  | succ magicAt ih =>
      obtain ⟨occurs, within, first⟩ := findFirst_eq_some.mp found
      have fits := occurs.length_le (by simp [frameMagic])
      have notHere : ¬ frameMagic <+: buffer := first 0 (by omega)
      rw [StreamReader.drain_of_some (frontTurn_skip (by omega) notHere)]
      have foundBehind : findFirst frameMagic (buffer.drop 1) = some magicAt := by
        refine findFirst_eq_some.mpr ⟨?_, by rw [List.length_drop]; omega, ?_⟩
        · unfold OccursAt
          rw [List.drop_drop, Nat.add_comm 1]
          exact occurs
        · intro earlier before here
          unfold OccursAt at here
          rw [List.drop_drop, Nat.add_comm 1] at here
          exact first (earlier + 1) (by omega) here
      rw [ih foundBehind, List.drop_drop, Nat.add_comm 1]
      rfl

theorem drain_of_findFirst_none {buffer : Bytes} (missing : findFirst frameMagic buffer = none) :
    frameReader.drain buffer =
      ([], buffer.drop (buffer.length - min buffer.length (frameMagic.length - 1))) := by
  have magicLength : frameMagic.length = 4 := rfl
  induction buffer with
  | nil => exact StreamReader.drain_of_none (frameReader.next_nil)
  | cons byte rest ih =>
      have absent := findFirst_eq_none.mp missing
      by_cases short : (byte :: rest).length < frameMagic.length
      · have waits : frameReader.next (byte :: rest) = none := by
          rw [frameReader_next]
          unfold frontTurn
          rw [if_pos short]
        rw [StreamReader.drain_of_none waits]
        have noDrop : (byte :: rest).length -
            min (byte :: rest).length (frameMagic.length - 1) = 0 := by omega
        rw [noDrop, List.drop_zero]
      · have notHere : ¬ frameMagic <+: byte :: rest := absent 0 (Nat.zero_le _)
        have missingBehind : findFirst frameMagic rest = none := by
          refine findFirst_eq_none.mpr fun position within occurs => ?_
          exact absent (position + 1) (by rw [List.length_cons]; omega) occurs
        rw [StreamReader.drain_of_some (frontTurn_skip (by omega) notHere), List.drop_one,
          List.tail_cons, ih missingBehind]
        rw [List.length_cons] at short
        have dropped : (byte :: rest).length -
            min (byte :: rest).length (frameMagic.length - 1) =
              rest.length - min rest.length (frameMagic.length - 1) + 1 := by
          rw [List.length_cons]
          omega
        rw [dropped, List.drop_succ_cons]
        rfl

theorem decodeLoop_eq_drain {rounds : Nat} {buffer : Bytes} (enough : buffer.length < rounds) :
    decodeLoop rounds buffer = frameReader.drain buffer := by
  induction rounds generalizing buffer with
  | zero => omega
  | succ rounds ih =>
      rw [decodeLoop]
      cases found : findFirst frameMagic buffer with
      | none =>
          rw [decodeTurn, found, drain_of_findFirst_none found]
      | some magicAt =>
          obtain ⟨occurs, within, -⟩ := findFirst_eq_some.mp found
          have fits := occurs.length_le (by simp [frameMagic])
          have remaining : (buffer.drop magicAt).length = buffer.length - magicAt :=
            List.length_drop
          have magicLength : frameMagic.length = 4 := rfl
          have isMagic : frameMagic <+: buffer.drop magicAt := occurs
          have header : headerBytes ≤ declaredLength (buffer.drop magicAt) := Nat.le_add_right _ _
          rw [drain_drop_of_findFirst found, decodeTurn, found]
          dsimp only
          generalize buffer.drop magicAt = front at *
          have unfolded := frameReader_next front
          rw [frontTurn, if_neg (by omega), if_neg (not_not.mpr isMagic)] at unfolded
          by_cases headerFits : front.length < headerBytes
          · rw [if_pos headerFits] at unfolded ⊢
            rw [StreamReader.drain_of_none unfolded]
          rw [if_neg headerFits] at unfolded ⊢
          have long : 8 ≤ front.length := by
            unfold headerBytes at headerFits
            omega
          by_cases badVersion : (front.drop 4).headD 0 ≠ frameVersion
          · rw [if_pos badVersion] at unfolded ⊢
            rw [StreamReader.drain_of_some unfolded]
            dsimp only
            rw [ih (by rw [List.length_drop]; omega)]
            rfl
          rw [if_neg badVersion] at unfolded ⊢
          by_cases badLength : frameMaxBytes < declaredLength front
          · rw [if_pos badLength] at unfolded ⊢
            rw [StreamReader.drain_of_some unfolded]
            dsimp only
            rw [ih (by rw [List.length_drop]; omega)]
            rfl
          rw [if_neg badLength] at unfolded ⊢
          by_cases incomplete : front.length < declaredLength front
          · rw [if_pos incomplete] at unfolded ⊢
            rw [StreamReader.drain_of_none unfolded]
          rw [if_neg incomplete] at unfolded ⊢
          rw [StreamReader.drain_of_some unfolded]
          dsimp only
          unfold headerBytes at header
          rw [ih (by rw [List.length_drop]; omega)]
          rfl

theorem decodeAvailable_eq_drain (buffer : Bytes) :
    decodeAvailable buffer = frameReader.drain buffer :=
  decodeLoop_eq_drain (Nat.lt_succ_self _)

/-! ### Pieces of a stream -/

theorem flatten_toChunks {α : Type} {size : Nat} (positive : 0 < size) (items : List α) :
    (items.toChunks size).flatten = items := by
  have general : ∀ (items : List α) (chunk : Array α) (chunks : Array (List α)),
      (List.toChunks.go size items chunk chunks).flatten =
        chunks.toList.flatten ++ chunk.toList ++ items := by
    intro items
    induction items with
    | nil =>
        intro chunk chunks
        simp [List.toChunks.go]
    | cons item items ih =>
        intro chunk chunks
        rw [List.toChunks.go]
        split
        · rw [ih]
          simp
        · rw [ih]
          simp
  cases items with
  | nil =>
      obtain ⟨smaller, rfl⟩ := Nat.exists_eq_succ_of_ne_zero (by omega : size ≠ 0)
      rfl
  | cons item items =>
      obtain ⟨smaller, rfl⟩ := Nat.exists_eq_succ_of_ne_zero (by omega : size ≠ 0)
      have entry : List.toChunks (smaller + 1) (item :: items) =
          List.toChunks.go (smaller + 1) items #[item] #[] := by
        simp [List.toChunks]
      rw [entry, general]
      simp

theorem foldl_pushPiece (decoder : FrameDecoder) (earlier : List (Except DecodeError Event))
    (pieces : List Bytes) :
    pieces.foldl FrameDecoder.pushPiece (earlier, decoder) =
      (earlier ++ (frameReader.drainPieces decoder.buffer pieces).1,
        ⟨(frameReader.drainPieces decoder.buffer pieces).2⟩) := by
  induction pieces generalizing decoder earlier with
  | nil => simp [StreamReader.drainPieces]
  | cons piece pieces ih =>
      rw [List.foldl_cons, FrameDecoder.pushPiece, decodeAvailable_eq_drain]
      dsimp only
      rw [ih, StreamReader.drainPieces]
      dsimp only
      rw [List.append_assoc]

/-- A decoder between two pieces waits for more. -/
def FrameDecoder.Waiting (decoder : FrameDecoder) : Prop :=
  frameReader.next decoder.buffer = none

theorem FrameDecoder.new_waiting : FrameDecoder.new.Waiting :=
  frameReader.next_nil

theorem push_eq {decoder : FrameDecoder} (waiting : decoder.Waiting) (bytes : Bytes) :
    decoder.push bytes =
      ((frameReader.drain (decoder.buffer ++ bytes)).1,
        ⟨(frameReader.drain (decoder.buffer ++ bytes)).2⟩) := by
  rw [FrameDecoder.push, foldl_pushPiece, StreamReader.drainPieces_eq waiting,
    flatten_toChunks (by decide), List.nil_append]

/-- What a decoder reports of the chunks of a stream is what it reports of the stream. -/
theorem pushAll_eq {decoder : FrameDecoder} (waiting : decoder.Waiting) (chunks : List Bytes) :
    decoder.pushAll chunks =
      ((frameReader.drain (decoder.buffer ++ chunks.flatten)).1,
        ⟨(frameReader.drain (decoder.buffer ++ chunks.flatten)).2⟩) := by
  have general : ∀ (chunks : List Bytes) (earlier : List (Except DecodeError Event))
      (decoder : FrameDecoder), decoder.Waiting →
      chunks.foldl (fun state chunk =>
        (state.1 ++ (state.2.push chunk).1, (state.2.push chunk).2)) (earlier, decoder) =
      (earlier ++ (frameReader.drainPieces decoder.buffer chunks).1,
        ⟨(frameReader.drainPieces decoder.buffer chunks).2⟩) := by
    intro chunks
    induction chunks with
    | nil => simp [StreamReader.drainPieces]
    | cons chunk chunks ih =>
        intro earlier decoder waiting
        rw [List.foldl_cons, push_eq waiting]
        dsimp only
        have nextWaiting : FrameDecoder.Waiting
            ⟨(frameReader.drain (decoder.buffer ++ chunk)).2⟩ := StreamReader.next_drain _
        rw [ih _ _ nextWaiting, StreamReader.drainPieces]
        dsimp only
        rw [List.append_assoc]
  have folded := general chunks [] decoder waiting
  rw [StreamReader.drainPieces_eq waiting, List.nil_append] at folded
  exact folded

end SharedContext.Telemetry
