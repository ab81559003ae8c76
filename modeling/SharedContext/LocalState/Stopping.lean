import SharedContext.Library.Destutter
import SharedContext.LocalState.Masking

/-!
# Scanners that stop at the filler

The findings of five of the seven scanners never cover a byte of the filler.
-/

namespace SharedContext.LocalState

def PrivacyFinding.Covers (finding : PrivacyFinding) (index : Nat) : Prop :=
  finding.start ≤ index ∧ index < finding.stop

/-! ### The findings of a scan -/

theorem mem_findingsIn {bytes : Bytes} {finding : PrivacyFinding} :
    finding ∈ findingsIn bytes ↔ finding ∈ rawFindings (masked bytes) := by
  unfold findingsIn masked
  rw [mem_destutter_ne]
  exact (List.perm_insertionSort _ _).mem_iff

theorem scan_eq_ok {scanner : PrivacyScanner} {text : String} {scan : PrivacyScan} :
    scanner.scan text = .ok scan ↔
      (asBytes text).length ≤ scanner.maxScanBytes ∧ scan = ⟨findingsIn (asBytes text)⟩ := by
  simp only [PrivacyScanner.scan, Result.bind_eq_ok, Result.exists_unit, Result.require_eq_ok,
    Result.pure_eq_ok]
  exact and_congr_right fun _ => eq_comm

/-! ### Scanners that stop at the filler -/

section Stopping

variable {bytes : Bytes} {finding : PrivacyFinding} {index : Nat}

theorem ByteAt.ne_filler {test : UInt8 → Bool} (passes : ByteAt test bytes index)
    (stops : test filler = false) : bytes[index]? ≠ some filler := by
  intro isFiller
  obtain ⟨byte, found, holds⟩ := byteAt_iff.mp passes
  rw [isFiller] at found
  cases found
  rw [stops] at holds
  cases holds

theorem advance_byteAt {test : Nat → UInt8 → Bool} {passing : UInt8 → Bool} {cursor : Nat}
    (after : cursor ≤ index) (before : index < advance test bytes cursor)
    (weaker : ∀ index byte, test index byte = true → passing byte = true) :
    ByteAt passing bytes index := by
  obtain ⟨byte, found, passes⟩ := advance_passed after before
  exact byteAt_iff.mpr ⟨byte, found, weaker index byte passes⟩

theorem occursAt_ne_filler {needle : Bytes} {start : Nat} (occurs : OccursAt needle bytes start)
    (clear : filler ∉ needle) (after : start ≤ index) (before : index < start + needle.length) :
    bytes[index]? ≠ some filler := by
  intro isFiller
  have here := occursAt_iff.mp occurs (index - start) (by omega)
  rw [show start + (index - start) = index by omega, isFiller] at here
  exact clear (Option.some.inj here ▸ List.getElem_mem _)

theorem getElem?_asciiLowercase :
    (asciiLowercase bytes)[index]? = (bytes[index]?).map toAsciiLowercase :=
  List.getElem?_map

theorem scanPrefixedTokens_stops (found : finding ∈ scanPrefixedTokens bytes)
    (covers : finding.Covers index) : bytes[index]? ≠ some filler := by
  have clear : ∀ pattern ∈ tokenPatterns, filler ∉ asBytes pattern.tokenPrefix := by
    decide
  obtain ⟨pattern, known, listed⟩ := List.mem_flatMap.mp found
  obtain ⟨start, occurs, isFinding⟩ := List.mem_filterMap.mp listed
  unfold TokenPattern.findingAt at isFinding
  simp only [Option.ite_none_right_eq_some, Option.some.injEq] at isFinding
  obtain ⟨-, rfl⟩ := isFinding
  rcases Nat.lt_or_ge index (start + (asBytes pattern.tokenPrefix).length) with inPrefix | behind
  · exact occursAt_ne_filler (occursAt_of_mem_occurrencesFrom occurs).1 (clear pattern known)
      covers.1 inPrefix
  · have isToken : ByteAt isTokenByte bytes index :=
      advance_byteAt behind covers.2 (by simp)
    exact isToken.ne_filler (by decide)

theorem scanBearerTokens_stops (found : finding ∈ scanBearerTokens bytes)
    (covers : finding.Covers index) : bytes[index]? ≠ some filler := by
  obtain ⟨start, occurs, isFinding⟩ := List.mem_filterMap.mp found
  simp only [Option.ite_none_right_eq_some, Option.some.injEq] at isFinding
  obtain ⟨-, rfl⟩ := isFinding
  rcases Nat.lt_or_ge index (start + (asBytes "bearer ").length) with inNeedle | behind
  · have lower := occursAt_ne_filler (occursAt_of_mem_occurrencesFrom occurs).1 (by decide)
      covers.1 inNeedle
    rw [getElem?_asciiLowercase] at lower
    intro isFiller
    rw [isFiller] at lower
    exact lower (by decide)
  · have isToken : ByteAt isTokenByte bytes index :=
      advance_byteAt behind covers.2 (by simp +contextual)
    exact isToken.ne_filler (by decide)

theorem retreat_le {test : UInt8 → Bool} {floor cursor : Nat} :
    retreat test bytes floor cursor ≤ cursor := by
  induction cursor with
  | zero => exact Nat.le_refl 0
  | succ cursor ih =>
      rw [retreat]
      split <;> omega

theorem retreat_passed {test : UInt8 → Bool} {floor cursor : Nat}
    (after : retreat test bytes floor cursor ≤ index) (before : index < cursor) :
    ByteAt test bytes index := by
  induction cursor with
  | zero => omega
  | succ cursor ih =>
      rw [retreat] at after
      split at after
      · rename_i passes
        rw [Bool.and_eq_true] at passes
        rcases Nat.lt_succ_iff_lt_or_eq.mp before with earlier | same
        · exact ih after earlier
        · exact same ▸ passes.2
      · omega

theorem scanEmails_stops (found : finding ∈ scanEmails bytes)
    (covers : finding.Covers index) : bytes[index]? ≠ some filler := by
  obtain ⟨position, -, isFinding⟩ := List.mem_filterMap.mp found
  unfold emailAt at isFinding
  simp only [Option.ite_none_right_eq_some, Option.some.injEq] at isFinding
  obtain ⟨isAt, -, rfl⟩ := isFinding
  rcases Nat.lt_trichotomy index position with isLocal | same | isDomain
  · have byte : ByteAt isEmailLocal bytes index := retreat_passed covers.1 isLocal
    exact byte.ne_filler (by decide)
  · rw [same, isAt]
    decide
  · have byte : ByteAt isEmailDomain bytes index := advance_byteAt isDomain covers.2 (by simp)
    exact byte.ne_filler (by decide)

theorem exists_phoneAt {start : Nat} (found : finding ∈ scanPhoneNumbersFrom bytes start) :
    ∃ position, phoneAt bytes position = some finding := by
  fun_induction scanPhoneNumbersFrom bytes start with
  | case1 start inside starts ih =>
      rcases List.mem_append.mp found with here | later
      · exact ⟨start, Option.mem_toList.mp here⟩
      · exact ih later
  | case2 start inside starts ih => exact ih found
  | case3 start outside => cases found

theorem scanPhoneNumbers_stops (found : finding ∈ scanPhoneNumbers bytes)
    (covers : finding.Covers index) : bytes[index]? ≠ some filler := by
  obtain ⟨start, isFinding⟩ := exists_phoneAt found
  unfold phoneAt at isFinding
  simp only [Option.ite_none_right_eq_some, Option.some.injEq] at isFinding
  obtain ⟨-, rfl⟩ := isFinding
  have byte : ByteAt (fun byte => isAsciiDigit byte || isPhoneFormatting byte) bytes index :=
    advance_byteAt covers.1 (Nat.lt_of_lt_of_le covers.2 retreat_le) (by simp +contextual)
  exact byte.ne_filler (by decide)

theorem scanChinaNationalIds_stops (found : finding ∈ scanChinaNationalIds bytes)
    (covers : finding.Covers index) : bytes[index]? ≠ some filler := by
  obtain ⟨start, -, isFinding⟩ := List.mem_filterMap.mp found
  unfold chinaNationalIdAt at isFinding
  simp only [Option.ite_none_right_eq_some, Option.some.injEq, Bool.and_eq_true] at isFinding
  obtain ⟨⟨⟨⟨-, digits⟩, last⟩, -⟩, rfl⟩ := isFinding
  have after : start ≤ index := covers.1
  have before : index < start + 18 := covers.2
  rw [getElem?_slice] at last
  rcases Nat.lt_or_ge index (start + 17) with isDigit | isLast
  · cases here : bytes[index]? with
    | none => simp
    | some byte =>
        have member : byte ∈ (slice bytes start (start + 18)).take 17 := by
          refine List.mem_iff_getElem?.mpr ⟨index - start, ?_⟩
          rw [List.getElem?_take, getElem?_slice, if_pos (by omega), if_pos (by omega),
            show start + (index - start) = index by omega, here]
        have passes := List.all_eq_true.mp digits byte member
        rw [← here]
        exact ByteAt.ne_filler (byteAt_iff.mpr ⟨byte, here, passes⟩) (by decide)
  · rw [if_pos (by omega), show start + 17 = index by omega] at last
    exact ByteAt.ne_filler last (by decide)

end Stopping

end SharedContext.LocalState
