import SharedContext.Mcp.Framing

/-!
# Streams of MCP frames

What was written as frames is read as the same frames.  A stream that is cut
short gives the frames before the cut, then possibly the line it was cut in.
-/

namespace SharedContext.Mcp

/-! ### Lines -/

inductive LineEnd
  | lf
  | crlf
  deriving DecidableEq, Repr

def LineEnd.text : LineEnd → String
  | .lf => "\n"
  | .crlf => "\r\n"

def LineEnd.bytes (lineEnd : LineEnd) : List UInt8 :=
  Utf8.bytes lineEnd.text

theorem LineEnd.bytes_eq (lineEnd : LineEnd) :
    lineEnd.bytes = match lineEnd with
      | .lf => [10]
      | .crlf => [13, 10] := by
  cases lineEnd <;> decide

theorem trimLineEnding_text {line : List Char} (noReturn : line.getLast? ≠ some '\r')
    (lineEnd : LineEnd) : trimLineEnding (line ++ lineEnd.text.toList) = line := by
  cases lineEnd with
  | lf =>
      have textEq : LineEnd.lf.text.toList = ['\n'] := by decide
      rw [textEq, trimLineEnding, if_pos (by simp), List.dropLast_concat, if_neg noReturn]
  | crlf =>
      have textEq : line ++ LineEnd.crlf.text.toList = (line ++ ['\r']) ++ ['\n'] := by
        rw [List.append_assoc]
        rfl
      rw [textEq, trimLineEnding, if_pos (by simp), List.dropLast_concat, if_pos (by simp),
        List.dropLast_concat]

theorem trimLineEnding_unterminated {line : List Char} (plain : '\n' ∉ line) :
    trimLineEnding line = line := by
  rw [trimLineEnding, if_neg]
  intro last
  exact plain (List.mem_of_getLast? last)

theorem splitLine_lineFeed {before : List UInt8} (plain : lineFeed ∉ before)
    (rest : List UInt8) : splitLine (before ++ lineFeed :: rest) = (before ++ [lineFeed], rest) := by
  induction before with
  | nil => simp [splitLine]
  | cons byte before ih =>
      simp only [List.mem_cons, not_or] at plain
      rw [List.cons_append, splitLine, if_neg (Ne.symm plain.1), ih plain.2]
      rfl

theorem splitLine_unterminated {line : List UInt8} (plain : lineFeed ∉ line) :
    splitLine line = (line, []) := by
  induction line with
  | nil => rfl
  | cons byte line ih =>
      simp only [List.mem_cons, not_or] at plain
      rw [splitLine, if_neg (Ne.symm plain.1), ih plain.2]

theorem lineFeed_not_mem_bytes {text : String} (plain : '\n' ∉ text.toList) :
    lineFeed ∉ Utf8.bytes text :=
  fun member => plain (Utf8.mem_of_mem_bytes (by decide) member)

theorem splitLine_text {line : String} (plain : '\n' ∉ line.toList) (lineEnd : LineEnd)
    (rest : List UInt8) :
    splitLine (Utf8.bytes line ++ (lineEnd.bytes ++ rest)) =
      (Utf8.bytes (line ++ lineEnd.text), rest) := by
  have plainBytes := lineFeed_not_mem_bytes plain
  rw [Utf8.bytes_append, ← LineEnd.bytes, LineEnd.bytes_eq]
  cases lineEnd with
  | lf => exact splitLine_lineFeed plainBytes rest
  | crlf =>
      have split := @splitLine_lineFeed (Utf8.bytes line ++ [13])
        (by simpa [lineFeed] using plainBytes) rest
      simpa [lineFeed] using split

@[simp]
theorem lineText_bytes (context : String) (text : String) :
    lineText context (Utf8.bytes text) = .ok text.toList := by
  simp [lineText]

theorem bytes_lineEnd_ne_nil (line : String) (lineEnd : LineEnd) (rest : List UInt8) :
    Utf8.bytes line ++ (lineEnd.bytes ++ rest) ≠ [] := by
  rw [LineEnd.bytes_eq]
  cases lineEnd <;> simp

/-! ### The first line -/

@[simp]
theorem firstLine_nil : firstLine [] = .ok none := by
  rw [firstLine, dif_pos rfl]

theorem firstLine_blank (lineEnd : LineEnd) (rest : List UInt8) :
    firstLine (lineEnd.bytes ++ rest) = firstLine rest := by
  have split := @splitLine_text "" (by decide) lineEnd rest
  have nonempty := bytes_lineEnd_ne_nil "" lineEnd rest
  have noBytes : Utf8.bytes "" = [] := by decide
  rw [noBytes, List.nil_append] at split nonempty
  have blank : trimLineEnding lineEnd.text.toList = [] := @trimLineEnding_text [] (by decide) lineEnd
  rw [firstLine, dif_neg nonempty, split]
  simp [blank]

theorem firstLine_text {line : String} (plain : '\n' ∉ line.toList)
    (noReturn : line.toList.getLast? ≠ some '\r') (nonblank : line.toList ≠ [])
    (lineEnd : LineEnd) (rest : List UInt8) :
    firstLine (Utf8.bytes line ++ (lineEnd.bytes ++ rest)) = .ok (some (line.toList, rest)) := by
  have trimmed := trimLineEnding_text noReturn lineEnd
  rw [firstLine, dif_neg (bytes_lineEnd_ne_nil line lineEnd rest), splitLine_text plain]
  simp only [lineText_bytes, String.toList_append, trimmed, nonblank, if_false]

theorem firstLine_unterminated {line : String} (plain : '\n' ∉ line.toList)
    (nonblank : line.toList ≠ []) :
    firstLine (Utf8.bytes line) = .ok (some (line.toList, [])) := by
  have nonempty : Utf8.bytes line ≠ [] := fun empty => nonblank (Utf8.bytes_eq_nil.mp empty)
  rw [firstLine, dif_neg nonempty, splitLine_unterminated (lineFeed_not_mem_bytes plain)]
  simp [trimLineEnding_unterminated plain, nonblank]

theorem skipHeaders_blank (lineEnd : LineEnd) (rest : List UInt8) :
    skipHeaders (lineEnd.bytes ++ rest) = .ok rest := by
  have split := @splitLine_text "" (by decide) lineEnd rest
  have nonempty := bytes_lineEnd_ne_nil "" lineEnd rest
  have noBytes : Utf8.bytes "" = [] := by decide
  rw [noBytes, List.nil_append] at split nonempty
  have blank : trimLineEnding lineEnd.text.toList = [] := @trimLineEnding_text [] (by decide) lineEnd
  rw [skipHeaders, dif_neg nonempty, split]
  simp [blank]

/-! ### Declared lengths -/

def lengthLine (length : Nat) : String :=
  "Content-Length: " ++ toString length

theorem bytes_lengthHeader (length : Nat) :
    Utf8.bytes (lengthHeader length) =
      Utf8.bytes (lengthLine length) ++ (LineEnd.crlf.bytes ++ LineEnd.crlf.bytes) := by
  have ends : "\r\n\r\n" = LineEnd.crlf.text ++ LineEnd.crlf.text := by decide
  delta lengthHeader lengthLine
  rw [ends, Utf8.bytes_append, Utf8.bytes_append _ (LineEnd.text _), LineEnd.bytes]

theorem toList_lengthLine (length : Nat) :
    (lengthLine length).toList = "Content-Length".toList ++ ':' :: ' ' :: Nat.toDigits 10 length := by
  delta lengthLine
  rw [String.toList_append, Nat.toString_eq_repr, Nat.toList_repr]
  rfl

theorem mem_lengthLine {length : Nat} {character : Char}
    (member : character ∈ (lengthLine length).toList) :
    character ∈ "Content-Length: ".toList ∨ character.isDigit = true := by
  delta lengthLine at member
  rw [String.toList_append, List.mem_append, Nat.toString_eq_repr, Nat.toList_repr] at member
  exact member.imp_right (Nat.isDigit_of_mem_toDigits (by decide) (by decide))

theorem not_mem_lengthLine {length : Nat} {character : Char}
    (outside : character ∉ "Content-Length: ".toList) (notDigit : character.isDigit = false) :
    character ∉ (lengthLine length).toList := by
  intro member
  rcases mem_lengthLine member with inside | digit
  · exact outside inside
  · rw [digit] at notDigit
    exact Bool.noConfusion notDigit

theorem startsHeaders_lengthLine (length : Nat) :
    startsHeaders (lengthLine length).toList = true := by
  rw [startsHeaders, List.isPrefixOf_iff_prefix, toList_lengthLine, List.map_append]
  exact ⟨' ' :: (Nat.toDigits 10 length).map asciiLower, by simp [asciiLower]⟩

theorem toNat_lt_of_isDigit {character : Char} (digit : character.isDigit = true) :
    character.toNat < 128 := by
  simp only [Char.isDigit, Bool.and_eq_true, decide_eq_true_eq] at digit
  exact Nat.lt_of_le_of_lt (UInt32.le_iff_toNat_le.mp digit.2) (by decide)

theorem contentLength_lengthLine {length : Nat} (small : length < 2 ^ 64) :
    contentLength (lengthLine length).toList = some length := by
  have digits : ∀ character ∈ Nat.toDigits 10 length, isWhiteSpace character = false := by
    intro character member
    have digit := Nat.isDigit_of_mem_toDigits (by decide) (by decide) member
    by_contra white
    rw [Bool.not_eq_false] at white
    have table : ∀ code < 128, isWhiteSpace (Char.ofNat code) = true →
        (Char.ofNat code).isDigit = false := by decide
    have notDigit := table character.toNat (toNat_lt_of_isDigit digit)
    rw [Char.ofNat_toNat] at notDigit
    rw [notDigit white] at digit
    exact Bool.noConfusion digit
  have trimmed : Words.trim isWhiteSpace (' ' :: Nat.toDigits 10 length) =
      Nat.toDigits 10 length := by
    rw [Words.trim, List.dropWhile_cons_of_pos (by decide),
      List.dropWhile_eq_self_iff.mpr (fun _ => by simp [digits _ (List.getElem_mem _)]),
      List.rdropWhile_eq_self_iff.mpr (fun _ => by simp [digits _ (List.getLast_mem _)])]
  rw [contentLength, toList_lengthLine, splitColon_append (by decide)]
  simp only [trimmed]
  have read := parseU64_toString small
  rwa [Nat.toString_eq_repr, Nat.toList_repr] at read

/-! ### Reading what was written -/

theorem mem_toVec {value : Value} (wellFormed : value.WellFormed) {character : Char}
    (control : character.toNat < 32) :
    character ∉ (String.ofList value.compact).toList := by
  rw [String.toList_ofList]
  intro member
  have printed : 32 ≤ character.toNat := Value.compact_printed wellFormed character member
  omega

theorem not_startsHeaders {value : Value} (wellFormed : value.WellFormed) :
    startsHeaders value.compact = false := by
  obtain ⟨head, tail, compactEq, starts⟩ := value.compact_starts wellFormed
  by_contra headers
  rw [Bool.not_eq_false, startsHeaders, List.isPrefixOf_iff_prefix, compactEq, List.map_cons] at headers
  have lower : asciiLower head = 'c' := by
    obtain ⟨more, moreEq⟩ := headers
    exact (List.cons.inj moreEq).1.symm
  rw [startsValue, Bool.or_eq_true, decide_eq_true_eq] at starts
  rcases starts with digit | mark
  · have table : ∀ code < 128, (Char.ofNat code).isDigit = true →
        asciiLower (Char.ofNat code) ≠ 'c' := by decide
    have digitLower := table head.toNat (toNat_lt_of_isDigit digit)
    rw [Char.ofNat_toNat] at digitLower
    exact digitLower digit lower
  · have table : ∀ other ∈ ['n', 't', 'f', '-', '\x22', '[', '{'], asciiLower other ≠ 'c' := by
      intro other member
      simp only [List.mem_cons, List.not_mem_nil, or_false] at member
      rcases member with rfl | rfl | rfl | rfl | rfl | rfl | rfl <;> decide
    exact table head mark lower

theorem readFrame_newline {value : Value} (wellFormed : value.WellFormed)
    (fits : (toVec value).length ≤ maxFrameBytes) (rest : List UInt8) :
    readFrame (writeFrame value .newline ++ rest) =
      .ok (some (⟨toVec value, .newline⟩, rest)) := by
  have positive := value.compact_length_pos wellFormed
  have noReturn : (String.ofList value.compact).toList.getLast? ≠ some '\r' := fun last =>
    mem_toVec wellFormed (by decide) (List.mem_of_getLast? last)
  have read := @firstLine_text (String.ofList value.compact) (mem_toVec wellFormed (by decide))
    noReturn (by simpa using List.length_pos_iff.mp positive) .lf rest
  have small : (String.ofList value.compact).utf8ByteSize ≤ maxFrameBytes := fits
  have written : writeFrame value .newline ++ rest =
      Utf8.bytes (String.ofList value.compact) ++ (LineEnd.lf.bytes ++ rest) := by
    rw [writeFrame, List.append_assoc]
    rfl
  rw [readFrame, written, read]
  simp only [String.toList_ofList, readFrameFrom, not_startsHeaders wellFormed, Bool.false_eq_true,
    if_false, if_neg (Nat.not_lt.mpr small), gt_iff_lt]
  rfl

theorem firstLine_lengthLine (length : Nat) (rest : List UInt8) :
    firstLine (Utf8.bytes (lengthLine length) ++ (LineEnd.crlf.bytes ++ rest)) =
      .ok (some ((lengthLine length).toList, rest)) := by
  have noReturn : (lengthLine length).toList.getLast? ≠ some '\r' := fun last =>
    not_mem_lengthLine (by decide) (by decide) (List.mem_of_getLast? last)
  have nonblank : (lengthLine length).toList ≠ [] := by
    rw [toList_lengthLine]
    exact List.append_ne_nil_of_right_ne_nil _ (List.cons_ne_nil _ _)
  exact firstLine_text (not_mem_lengthLine (by decide) (by decide)) noReturn nonblank .crlf rest

theorem readFrame_lengthLine {length : Nat} (fits : length ≤ maxFrameBytes) (rest : List UInt8) :
    readFrame (Utf8.bytes (lengthLine length) ++ (LineEnd.crlf.bytes ++ rest)) =
      match skipHeaders rest with
      | .error error => .error error
      | .ok body => readBody length body := by
  have declared : contentLength (lengthLine length).toList = some length :=
    contentLength_lengthLine (Nat.lt_of_le_of_lt fits (by decide))
  rw [readFrame, firstLine_lengthLine]
  cases skipped : skipHeaders rest <;>
    simp only [readFrameFrom, startsHeaders_lengthLine, if_true, declared,
      if_neg (Nat.not_lt.mpr fits), gt_iff_lt, skipped]

theorem readFrame_contentLength {value : Value} (fits : (toVec value).length ≤ maxFrameBytes)
    (rest : List UInt8) :
    readFrame (writeFrame value .contentLength ++ rest) =
      .ok (some (⟨toVec value, .contentLength⟩, rest)) := by
  have written : writeFrame value .contentLength ++ rest =
      Utf8.bytes (lengthLine (toVec value).length) ++
        (LineEnd.crlf.bytes ++ (LineEnd.crlf.bytes ++ (toVec value ++ rest))) := by
    rw [writeFrame, bytes_lengthHeader]
    simp only [List.append_assoc]
  rw [written, readFrame_lengthLine fits, skipHeaders_blank]
  simp [readBody]

theorem readFrame_blank (lineEnd : LineEnd) (rest : List UInt8) :
    readFrame (lineEnd.bytes ++ rest) = readFrame rest := by
  rw [readFrame, firstLine_blank, readFrame]

theorem readFrame_blanks (blanks : List LineEnd) (rest : List UInt8) :
    readFrame (blanks.flatMap LineEnd.bytes ++ rest) = readFrame rest := by
  induction blanks with
  | nil => rfl
  | cons lineEnd blanks ih =>
      rw [List.flatMap_cons, List.append_assoc, readFrame_blank, ih]

theorem readFrames_of_none {stream : List UInt8} (read : readFrame stream = .ok none) :
    readFrames stream = ([], .endOfStream) := by
  rw [readFrames]
  split <;> simp_all

theorem readFrames_of_error {stream : List UInt8} {error : TransportError}
    (read : readFrame stream = .error error) : readFrames stream = ([], .failed error) := by
  rw [readFrames]
  split <;> simp_all

theorem readFrames_of_frame {stream after : List UInt8} {frame : Frame}
    (read : readFrame stream = .ok (some (frame, after))) :
    readFrames stream = (frame :: (readFrames after).1, (readFrames after).2) := by
  rw [readFrames]
  split <;> simp_all

/-! ### Whole streams -/

/-- A message as it is written, after some blank lines. -/
structure Message where
  blanks : List LineEnd
  value : Value
  style : FrameStyle
  wellFormed : value.WellFormed

namespace Message

/-- The value's text may be sent. -/
def Fits (message : Message) : Prop :=
  (toVec message.value).length ≤ maxFrameBytes

def bytes (message : Message) : List UInt8 :=
  message.blanks.flatMap LineEnd.bytes ++ writeFrame message.value message.style

def frame (message : Message) : Frame :=
  ⟨toVec message.value, message.style⟩

end Message

def writeMessages (messages : List Message) : List UInt8 :=
  messages.flatMap Message.bytes

theorem readFrame_message {message : Message} (fits : message.Fits) (rest : List UInt8) :
    readFrame (message.bytes ++ rest) = .ok (some (message.frame, rest)) := by
  rw [Message.bytes, List.append_assoc, readFrame_blanks]
  cases styleEq : message.style with
  | newline =>
      rw [readFrame_newline message.wellFormed fits, Message.frame, styleEq]
  | contentLength =>
      rw [readFrame_contentLength fits, Message.frame, styleEq]

theorem readFrames_written {messages : List Message} (fit : ∀ message ∈ messages, message.Fits)
    (rest : List UInt8) :
    readFrames (writeMessages messages ++ rest) =
      (messages.map Message.frame ++ (readFrames rest).1, (readFrames rest).2) := by
  induction messages with
  | nil => rfl
  | cons message messages ih =>
      have restFit : ∀ other ∈ messages, other.Fits :=
        fun other member => fit other (List.mem_cons_of_mem _ member)
      have read := readFrame_message (fit message List.mem_cons_self) (writeMessages messages ++ rest)
      have written : writeMessages (message :: messages) ++ rest =
          message.bytes ++ (writeMessages messages ++ rest) := by
        simp [writeMessages]
      rw [written, readFrames_of_frame read, ih restFit]
      rfl

/-! ### Streams cut short -/

/-- What is read of a message that was cut: nothing, or its line as read so far. -/
def ReadsCut (tail : List UInt8) : Prop :=
  (∃ ending, readFrames tail = ([], ending)) ∨
    ∃ line, line <:+ tail ∧ line ≠ [] ∧ lineFeed ∉ line ∧
      readFrames tail = ([⟨line, .newline⟩], .endOfStream)

theorem ReadsCut.of_error {tail : List UInt8} {error : TransportError}
    (read : readFrame tail = .error error) : ReadsCut tail :=
  .inl ⟨_, readFrames_of_error read⟩

theorem readFrame_nil : readFrame [] = .ok none := by
  rw [readFrame, firstLine_nil]

theorem skipHeaders_nil :
    skipHeaders [] = .error ⟨.unexpectedEof, "MCP peer disconnected inside headers"⟩ := by
  rw [skipHeaders, dif_pos rfl]

theorem readFrameFrom_headers {first : List Char} (headers : startsHeaders first = true) :
    ∃ error, readFrameFrom first [] = .error error := by
  simp only [readFrameFrom, if_pos headers, skipHeaders_nil]
  split
  · exact ⟨_, rfl⟩
  · split
    · exact ⟨_, rfl⟩
    · exact ⟨_, rfl⟩

theorem readsCut_unterminated {tail : List UInt8} (plain : lineFeed ∉ tail) : ReadsCut tail := by
  by_cases empty : tail = []
  · subst empty
    exact .inl ⟨_, readFrames_of_none readFrame_nil⟩
  · cases isText : Utf8.text? tail with
    | none =>
        have failed : firstLine tail =
            .error ⟨.io, "read MCP frame: stream did not contain valid UTF-8"⟩ := by
          rw [firstLine, dif_neg empty, splitLine_unterminated plain]
          simp only [lineText, isText]
          rfl
        exact .of_error (by rw [readFrame, failed])
    | some text =>
        have textBytes : Utf8.bytes text = tail := Utf8.bytes_of_text? isText
        subst textBytes
        have noBreak : '\n' ∉ text.toList := fun member =>
          plain (Utf8.mem_bytes_of_ascii (by decide) member)
        have nonblank : text.toList ≠ [] := fun blank => empty (Utf8.bytes_eq_nil.mpr blank)
        have read : readFrame (Utf8.bytes text) = readFrameFrom text.toList [] := by
          rw [readFrame, firstLine_unterminated noBreak nonblank]
        cases headers : startsHeaders text.toList with
        | true =>
            obtain ⟨error, failed⟩ := readFrameFrom_headers headers
            exact .of_error (read.trans failed)
        | false =>
            by_cases large : text.utf8ByteSize > maxFrameBytes
            · have failed : ∃ error, readFrameFrom text.toList [] = .error error := by
                rw [readFrameFrom, headers, String.ofList_toList, if_neg Bool.false_ne_true,
                  if_pos large]
                exact ⟨_, rfl⟩
              obtain ⟨error, failed⟩ := failed
              exact .of_error (read.trans failed)
            · have yields : readFrame (Utf8.bytes text) =
                  .ok (some (⟨Utf8.bytes text, .newline⟩, [])) := by
                rw [read, readFrameFrom, headers, String.ofList_toList, if_neg Bool.false_ne_true,
                  if_neg large]
              refine .inr ⟨_, List.suffix_rfl, empty, plain, ?_⟩
              rw [readFrames_of_frame yields, readFrames_of_none readFrame_nil]

theorem skipHeaders_unterminated {tail : List UInt8} (plain : lineFeed ∉ tail) :
    ∃ error, skipHeaders tail = .error error := by
  by_cases empty : tail = []
  · subst empty
    exact ⟨_, skipHeaders_nil⟩
  · rw [skipHeaders, dif_neg empty, splitLine_unterminated plain]
    cases isText : Utf8.text? tail with
    | none => exact ⟨_, by simp only [lineText, isText]; rfl⟩
    | some text =>
        have textBytes : Utf8.bytes text = tail := Utf8.bytes_of_text? isText
        have noBreak : '\n' ∉ text.toList := fun member =>
          plain (textBytes ▸ Utf8.mem_bytes_of_ascii (by decide) member)
        have nonblank : text.toList ≠ [] := fun blank =>
          empty (textBytes ▸ Utf8.bytes_eq_nil.mpr blank)
        simp only [lineText, isText, trimLineEnding_unterminated noBreak, nonblank, if_false,
          skipHeaders_nil]
        split
        · exact ⟨_, rfl⟩
        · exact ⟨_, rfl⟩

theorem lineFeed_not_mem_cut {cut : List UInt8} {lineEnd : LineEnd}
    (isPrefix : cut <+: lineEnd.bytes) (proper : cut ≠ lineEnd.bytes) : lineFeed ∉ cut := by
  rw [LineEnd.bytes_eq] at isPrefix proper
  obtain ⟨more, moreEq⟩ := isPrefix
  cases lineEnd with
  | lf =>
      cases cut with
      | nil => simp
      | cons byte cut => simp_all
  | crlf =>
      rcases cut with - | ⟨first, - | ⟨second, cut⟩⟩
      · simp
      · simp_all [lineFeed]
      · simp_all

theorem prefix_append_cases {α : Type*} {cut first second : List α} (isPrefix : cut <+: first ++ second) :
    (cut <+: first ∧ cut ≠ first) ∨ ∃ rest, cut = first ++ rest ∧ rest <+: second := by
  rcases Nat.lt_or_ge cut.length first.length with shorter | longer
  · refine .inl ⟨List.prefix_of_prefix_length_le isPrefix (List.prefix_append _ _) shorter.le, ?_⟩
    rintro rfl
    exact absurd shorter (lt_irrefl _)
  · obtain ⟨rest, rfl⟩ := List.prefix_of_prefix_length_le (List.prefix_append _ _) isPrefix longer
    exact .inr ⟨rest, rfl, (List.prefix_append_right_inj _).mp isPrefix⟩

theorem readsCut_newline {value : Value} (wellFormed : value.WellFormed) {cut : List UInt8}
    (isPrefix : cut <+: writeFrame value .newline) (proper : cut ≠ writeFrame value .newline) :
    ReadsCut cut := by
  have plain : lineFeed ∉ toVec value :=
    lineFeed_not_mem_bytes (mem_toVec wellFormed (by decide))
  rcases prefix_append_cases isPrefix with ⟨inside, -⟩ | ⟨rest, rfl, ends⟩
  · exact readsCut_unterminated fun member => plain (inside.subset member)
  · have cutEnd := @lineFeed_not_mem_cut rest .lf ends (by
      rintro rfl
      exact proper rfl)
    refine readsCut_unterminated fun member => ?_
    rcases List.mem_append.mp member with inBody | inEnd
    · exact plain inBody
    · exact cutEnd inEnd

theorem readsCut_contentLength {value : Value} (fits : (toVec value).length ≤ maxFrameBytes)
    {cut : List UInt8} (isPrefix : cut <+: writeFrame value .contentLength)
    (proper : cut ≠ writeFrame value .contentLength) : ReadsCut cut := by
  have plain : lineFeed ∉ Utf8.bytes (lengthLine (toVec value).length) :=
    lineFeed_not_mem_bytes (not_mem_lengthLine (by decide) (by decide))
  have written : writeFrame value .contentLength =
      Utf8.bytes (lengthLine (toVec value).length) ++
        (LineEnd.crlf.bytes ++ (LineEnd.crlf.bytes ++ toVec value)) := by
    rw [writeFrame, bytes_lengthHeader]
    simp only [List.append_assoc]
  rw [written] at isPrefix proper
  rcases prefix_append_cases isPrefix with ⟨inLine, -⟩ | ⟨afterLine, rfl, afterPrefix⟩
  · exact readsCut_unterminated fun member => plain (inLine.subset member)
  rcases prefix_append_cases afterPrefix with ⟨inEnd, endCut⟩ | ⟨headers, rfl, headersPrefix⟩
  · refine readsCut_unterminated fun member => ?_
    rcases List.mem_append.mp member with inLine | inCut
    · exact plain inLine
    · exact lineFeed_not_mem_cut inEnd endCut inCut
  -- The first header is whole, so only an error is left.
  rcases prefix_append_cases headersPrefix with ⟨inBlank, blankCut⟩ | ⟨body, rfl, bodyPrefix⟩
  · obtain ⟨error, failed⟩ := skipHeaders_unterminated (lineFeed_not_mem_cut inBlank blankCut)
    exact .of_error (by rw [readFrame_lengthLine fits, failed])
  · have short : body.length < (toVec value).length := by
      refine lt_of_le_of_ne bodyPrefix.length_le fun same => proper ?_
      rw [bodyPrefix.eq_of_length same]
    have failed : ∃ error, readBody (toVec value).length body = .error error := by
      rw [readBody, if_pos short]
      exact ⟨_, rfl⟩
    obtain ⟨error, failed⟩ := failed
    exact .of_error (by rw [readFrame_lengthLine fits, skipHeaders_blank]; exact failed)

theorem ReadsCut.after_blank {cut : List UInt8} (reads : ReadsCut cut) (lineEnd : LineEnd) :
    ReadsCut (lineEnd.bytes ++ cut) := by
  have same : readFrames (lineEnd.bytes ++ cut) = readFrames cut := by
    rw [readFrames, readFrames, readFrame_blank]
  rcases reads with ⟨ending, read⟩ | ⟨line, isSuffix, nonempty, plain, read⟩
  · exact .inl ⟨ending, same.trans read⟩
  · exact .inr ⟨line, isSuffix.trans (List.suffix_append _ _), nonempty, plain, same.trans read⟩

theorem readsCut_message {message : Message} (fits : message.Fits) {cut : List UInt8}
    (isPrefix : cut <+: message.bytes) (proper : cut ≠ message.bytes) : ReadsCut cut := by
  obtain ⟨blanks, value, style, wellFormed⟩ := message
  rw [Message.bytes] at isPrefix proper
  dsimp only at isPrefix proper
  induction blanks generalizing cut with
  | nil =>
      cases style with
      | newline => exact readsCut_newline wellFormed isPrefix proper
      | contentLength => exact readsCut_contentLength fits isPrefix proper
  | cons lineEnd blanks ih =>
      rw [List.flatMap_cons, List.append_assoc] at isPrefix proper
      rcases prefix_append_cases isPrefix with ⟨inBlank, blankCut⟩ | ⟨rest, rfl, restPrefix⟩
      · exact readsCut_unterminated (lineFeed_not_mem_cut inBlank blankCut)
      · refine ReadsCut.after_blank (ih fits restPrefix ?_) lineEnd
        rintro rfl
        exact proper rfl

theorem writeMessages_cut {messages : List Message} {stream : List UInt8}
    (isPrefix : stream <+: writeMessages messages) (proper : stream ≠ writeMessages messages) :
    ∃ before message after cut, messages = before ++ message :: after ∧
      stream = writeMessages before ++ cut ∧ cut <+: message.bytes ∧ cut ≠ message.bytes := by
  induction messages generalizing stream with
  | nil => exact absurd (List.prefix_nil.mp isPrefix) proper
  | cons message messages ih =>
      have written : writeMessages (message :: messages) =
          message.bytes ++ writeMessages messages := by
        simp [writeMessages]
      rw [written] at isPrefix proper
      rcases prefix_append_cases isPrefix with ⟨inMessage, cut⟩ | ⟨rest, rfl, restPrefix⟩
      · exact ⟨[], message, messages, stream, rfl, rfl, inMessage, cut⟩
      · have restProper : rest ≠ writeMessages messages := by
          rintro rfl
          exact proper rfl
        obtain ⟨before, last, after, cut, rfl, rfl, cutPrefix, cutProper⟩ := ih restPrefix restProper
        exact ⟨message :: before, last, after, cut, rfl, by simp [writeMessages], cutPrefix,
          cutProper⟩

theorem readFrames_cut {messages : List Message} (fit : ∀ message ∈ messages, message.Fits)
    {stream : List UInt8} (isPrefix : stream <+: writeMessages messages)
    (proper : stream ≠ writeMessages messages) :
    ∃ before message after, messages = before ++ message :: after ∧
      writeMessages before <+: stream ∧
      ((∃ ending, readFrames stream = (before.map Message.frame, ending)) ∨
        ∃ line, line <:+ stream ∧ line ≠ [] ∧ lineFeed ∉ line ∧
          readFrames stream = (before.map Message.frame ++ [⟨line, .newline⟩], .endOfStream)) := by
  obtain ⟨before, message, after, cut, rfl, rfl, cutPrefix, cutProper⟩ :=
    writeMessages_cut isPrefix proper
  have beforeFit : ∀ other ∈ before, other.Fits :=
    fun other member => fit other (List.mem_append_left _ member)
  have reads := readsCut_message (fit message (by simp)) cutPrefix cutProper
  refine ⟨before, message, after, rfl, List.prefix_append _ _, ?_⟩
  rw [readFrames_written beforeFit]
  rcases reads with ⟨ending, read⟩ | ⟨line, isSuffix, nonempty, plain, read⟩
  · exact .inl ⟨ending, by simp [read]⟩
  · refine .inr ⟨line, isSuffix.trans (List.suffix_append _ _), nonempty, plain, by simp [read]⟩

theorem writeMessages_prefix {first second : List Message} (isPrefix : first <+: second) :
    (writeMessages first).length ≤ (writeMessages second).length := by
  obtain ⟨more, rfl⟩ := isPrefix
  simp [writeMessages]

/-- Framing loses no message, blank lines before a frame change nothing, and a
stream that is cut gives no frame whose declared length is not there. -/
theorem framing_loses_nothing (messages : List Message)
    (fit : ∀ message ∈ messages, message.Fits) :
    readFrames (writeMessages messages) = (messages.map Message.frame, .endOfStream) ∧
      readFrames (writeMessages messages) =
        readFrames (messages.flatMap fun message => writeFrame message.value message.style) ∧
      ∀ stream, stream <+: writeMessages messages → stream ≠ writeMessages messages →
        (∃ before message after, messages = before ++ message :: after ∧
          writeMessages before <+: stream ∧
          ((∃ ending, readFrames stream = (before.map Message.frame, ending)) ∨
            ∃ line, line <:+ stream ∧ line ≠ [] ∧ lineFeed ∉ line ∧
              readFrames stream =
                (before.map Message.frame ++ [⟨line, .newline⟩], .endOfStream))) ∧
        ∀ before message after, messages = before ++ message :: after →
          stream.length < (writeMessages (before ++ [message])).length →
          ((readFrames stream).1.filter fun frame => frame.style = .contentLength) <+:
            (before.map Message.frame).filter fun frame => frame.style = .contentLength := by
  have whole : ∀ messages : List Message, (∀ message ∈ messages, message.Fits) →
      readFrames (writeMessages messages) = (messages.map Message.frame, .endOfStream) := by
    intro messages fit
    have read := readFrames_written fit []
    rwa [List.append_nil, readFrames_of_none readFrame_nil, List.append_nil] at read
  refine ⟨whole messages fit, ?_, fun stream isPrefix proper => ?_⟩
  · have bare := whole (messages.map fun message => { message with blanks := [] }) (by
      intro message member
      obtain ⟨other, otherMem, rfl⟩ := List.mem_map.mp member
      exact fit other otherMem)
    have sameFrames : (messages.map fun message => { message with blanks := [] }).map
        Message.frame = messages.map Message.frame := by
      rw [List.map_map]
      rfl
    have sameBytes : writeMessages (messages.map fun message => { message with blanks := [] }) =
        messages.flatMap fun message => writeFrame message.value message.style := by
      rw [writeMessages, List.flatMap_map]
      rfl
    rw [whole messages fit, ← sameBytes, bare, sameFrames]
  · obtain ⟨read, last, rest, messagesEq, readPrefix, outcome⟩ := readFrames_cut fit isPrefix proper
    refine ⟨⟨read, last, rest, messagesEq, readPrefix, outcome⟩, ?_⟩
    intro before message after split shorter
    have readBefore : read <+: before := by
      have beforePrefix : before ++ [message] <+: messages := ⟨after, by simp [split]⟩
      have readMessages : read <+: messages := ⟨last :: rest, messagesEq.symm⟩
      rcases Nat.lt_or_ge before.length read.length with longer | within
      · have inside : before ++ [message] <+: read :=
          List.prefix_of_prefix_length_le beforePrefix readMessages (by
            rw [List.length_append]
            exact longer)
        have := writeMessages_prefix inside
        have := readPrefix.length_le
        omega
      · exact List.prefix_of_prefix_length_le readMessages ⟨message :: after, split.symm⟩ within
    have yielded : ((readFrames stream).1.filter fun frame => frame.style = .contentLength) =
        (read.map Message.frame).filter fun frame => frame.style = .contentLength := by
      rcases outcome with ⟨ending, reads⟩ | ⟨line, -, -, -, reads⟩
      · rw [reads]
      · rw [reads, List.filter_append]
        simp
    rw [yielded]
    exact (readBefore.map Message.frame).filter _

/-- A line and a block with a body. -/
theorem framing_loses_nothing_two :
    let messages : List Message :=
      [⟨[.lf, .crlf], .null, .newline, trivial⟩,
        ⟨[], .array [.bool true, .string "a"], .contentLength, ⟨trivial, trivial, trivial⟩⟩]
    (∀ message ∈ messages, message.Fits) ∧
      readFrames (writeMessages messages) = (messages.map Message.frame, .endOfStream) := by
  intro messages
  have fit : ∀ message ∈ messages, message.Fits := by
    intro message member
    simp only [messages, List.mem_cons, List.not_mem_nil, or_false] at member
    rcases member with rfl | rfl
    · unfold Message.Fits
      decide
    · unfold Message.Fits
      decide
  exact ⟨fit, (framing_loses_nothing messages fit).1⟩

end SharedContext.Mcp
