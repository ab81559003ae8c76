import Mathlib.Data.Prod.Lex
import SharedContext.Library.Eviction
import SharedContext.TaskRuntime.Lineages

/-!
# The stash of pending prompts

A prompt that arrives before its Session has a Task is held in one table.  A
row expires by age, a Session holds at most two, and the table at most 256: a
full table drops its oldest row, by the time it was recorded and then its rowid.
-/

namespace SharedContext

/-- Pending prompts one Session may hold while it still has no Task. -/
def maxPendingPromptSignals : Nat := 2

def pendingPromptMaxAgeSeconds : Int := 48 * 60 * 60

/-- Pending prompts the whole installation may hold at once. -/
def maxPendingPromptRows : Nat := 256

/-- What became of one prompt offered to the stash. -/
inductive PendingPromptOutcome
  | stashed (pending : Nat)
  | alreadyPending
  | full
  deriving DecidableEq, Repr

/-- The whole seconds of a clock, which may stand before the epoch. -/
def unixSeconds (clock : Int) : Result Nat := do
  Result.require (0 ≤ clock) (invalid "Candidate Review timestamp is before the Unix epoch")
  pure clock.toNat

def unexpiredPrompts (now : Nat) (prompts : List PendingPrompt) : List PendingPrompt :=
  prompts.filter fun prompt =>
    ¬ (prompt.recordedAtUnixSeconds : Int) < now - pendingPromptMaxAgeSeconds

/-- The database numbers a new row after the greatest rowid. -/
def nextRowid (prompts : List PendingPrompt) : Nat :=
  (prompts.map PendingPrompt.rowid).foldr max 0 + 1

def nextPromptOrdinal (prompts : List PendingPrompt) (locator : ExternalSessionLocator) : Nat :=
  ((prompts.filter fun prompt => prompt.locator = locator).map (·.promptOrdinal + 1)).foldr max 0

def PendingPrompt.seniority (prompt : PendingPrompt) : Nat ×ₗ Nat :=
  toLex (prompt.recordedAtUnixSeconds, prompt.rowid)

def boundPendingPrompts (prompts : List PendingPrompt) : List PendingPrompt :=
  dropLeast PendingPrompt.seniority (prompts.length - maxPendingPromptRows) prompts

/-- Holds one prompt that arrived before its Session had a Task to attach it to.
An answer other than Stashed rolls its transaction back. -/
def stashPendingPrompt (db : RuntimeDatabase) (clock : Int) (locator : ExternalSessionLocator)
    (content : String) : Result (RuntimeDatabase × PendingPromptOutcome) := do
  let now := min (← unixSeconds clock) (ordinalBound - 1)
  let unexpired := unexpiredPrompts now db.pendingPromptSignal
  let pending := readPendingPrompts unexpired locator
  if content ∈ pending then
    pure (db, .alreadyPending)
  else if maxPendingPromptSignals ≤ pending.length then
    pure (db, .full)
  else
    let ordinal := nextPromptOrdinal unexpired locator
    Result.require (ordinal < ordinalBound)
      (sqlError "read the next pending Prompt ordinal" "integer overflow")
    let row : PendingPrompt := ⟨nextRowid unexpired, locator, ordinal, content, now⟩
    pure ({ db with pendingPromptSignal := boundPendingPrompts (unexpired ++ [row]) },
      .stashed (pending.length + 1))

theorem boundPendingPrompts_sublist (prompts : List PendingPrompt) :
    (boundPendingPrompts prompts).Sublist prompts :=
  dropLeast_sublist

/-! ### Sound stashes -/

/-- What every operation keeps of the stash: rowids rise, so do the ordinals of
each Session, and both limits hold. -/
structure SoundStash (prompts : List PendingPrompt) : Prop where
  rowids : prompts.Pairwise fun first second => first.rowid < second.rowid
  ordinals : prompts.Pairwise fun first second =>
    first.locator = second.locator → first.promptOrdinal < second.promptOrdinal
  sessions : ∀ locator : ExternalSessionLocator,
    (prompts.filter fun prompt => prompt.locator = locator).length ≤ maxPendingPromptSignals
  rows : prompts.length ≤ maxPendingPromptRows

theorem soundStash_nil : SoundStash [] :=
  ⟨.nil, .nil, fun _ => Nat.zero_le _, Nat.zero_le _⟩

theorem SoundStash.sublist {prompts kept : List PendingPrompt} (sound : SoundStash prompts)
    (sublist : kept.Sublist prompts) : SoundStash kept where
  rowids := sound.rowids.sublist sublist
  ordinals := sound.ordinals.sublist sublist
  sessions locator := ((sublist.filter _).length_le).trans (sound.sessions locator)
  rows := sublist.length_le.trans sound.rows

theorem SoundStash.read_eq {prompts : List PendingPrompt} (sound : SoundStash prompts)
    (locator : ExternalSessionLocator) :
    readPendingPrompts prompts locator =
      (prompts.filter fun prompt => prompt.locator = locator).map (·.content) := by
  have sorted : (prompts.filter fun prompt => prompt.locator = locator).Pairwise
      fun first second => first.promptOrdinal ≤ second.promptOrdinal := by
    refine (sound.ordinals.filter _).imp_of_mem ?_
    intro first second firstMem secondMem ordered
    have firstHere : first.locator = locator := by simpa using (List.mem_filter.mp firstMem).2
    have secondHere : second.locator = locator := by simpa using (List.mem_filter.mp secondMem).2
    exact (ordered (firstHere.trans secondHere.symm)).le
  rw [readPendingPrompts, sorted.insertionSort_eq]

theorem foldr_max_ge {values : List Nat} {value : Nat} (member : value ∈ values) :
    value ≤ values.foldr max 0 := by
  induction values with
  | nil => exact absurd member List.not_mem_nil
  | cons first rest ih =>
      rw [List.foldr_cons]
      rcases List.mem_cons.mp member with rfl | inRest
      · omega
      · have := ih inRest
        omega

theorem rowid_lt_nextRowid {prompts : List PendingPrompt} {prompt : PendingPrompt}
    (member : prompt ∈ prompts) : prompt.rowid < nextRowid prompts := by
  have := foldr_max_ge (List.mem_map_of_mem (f := PendingPrompt.rowid) member)
  unfold nextRowid
  omega

theorem promptOrdinal_lt_next {prompts : List PendingPrompt} {prompt : PendingPrompt}
    (member : prompt ∈ prompts) :
    prompt.promptOrdinal < nextPromptOrdinal prompts prompt.locator := by
  have here : prompt ∈ prompts.filter fun other => other.locator = prompt.locator :=
    List.mem_filter.mpr ⟨member, by simp⟩
  exact foldr_max_ge (List.mem_map_of_mem (f := fun other => other.promptOrdinal + 1) here)

/-- The table with one more row, before it is bounded. -/
structure PromptArrival (prompts : List PendingPrompt) (row : PendingPrompt) : Prop where
  sound : SoundStash prompts
  rowid : row.rowid = nextRowid prompts
  promptOrdinal : row.promptOrdinal = nextPromptOrdinal prompts row.locator
  room : (prompts.filter fun prompt => prompt.locator = row.locator).length <
    maxPendingPromptSignals

namespace PromptArrival

variable {prompts : List PendingPrompt} {row : PendingPrompt}

theorem seniorities_nodup (arrival : PromptArrival prompts row) :
    ((prompts ++ [row]).map PendingPrompt.seniority).Nodup := by
  have rowids : (prompts ++ [row]).Pairwise fun first second => first.rowid < second.rowid := by
    refine List.pairwise_append.mpr ⟨arrival.sound.rowids, List.pairwise_singleton _ _, ?_⟩
    intro prompt member last isRow
    rw [List.mem_singleton.mp isRow, arrival.rowid]
    exact rowid_lt_nextRowid member
  refine List.pairwise_map.mpr (rowids.imp ?_)
  intro first second ordered same
  have equal : (first.recordedAtUnixSeconds, first.rowid) =
      (second.recordedAtUnixSeconds, second.rowid) := toLex.injective same
  simp only [Prod.mk.injEq] at equal
  omega

theorem sound_bounded (arrival : PromptArrival prompts row) :
    SoundStash (boundPendingPrompts (prompts ++ [row])) where
  rowids := by
    refine List.Pairwise.sublist (boundPendingPrompts_sublist _) (List.pairwise_append.mpr
      ⟨arrival.sound.rowids, List.pairwise_singleton _ _, ?_⟩)
    intro prompt member last isRow
    rw [List.mem_singleton.mp isRow, arrival.rowid]
    exact rowid_lt_nextRowid member
  ordinals := by
    refine List.Pairwise.sublist (boundPendingPrompts_sublist _) (List.pairwise_append.mpr
      ⟨arrival.sound.ordinals, List.pairwise_singleton _ _, ?_⟩)
    intro prompt member last isRow same
    rw [List.mem_singleton.mp isRow] at same ⊢
    rw [arrival.promptOrdinal, ← same]
    exact promptOrdinal_lt_next member
  sessions locator := by
    refine (((boundPendingPrompts_sublist _).filter _).length_le).trans ?_
    rw [List.filter_append, List.length_append]
    by_cases here : row.locator = locator
    · have room := arrival.room
      rw [here] at room
      simp only [here, decide_true, List.filter_cons_of_pos, List.filter_nil,
        List.length_singleton]
      omega
    · have bound := arrival.sound.sessions locator
      simpa [here] using bound
  rows := by
    rw [boundPendingPrompts, length_dropLeast arrival.seniorities_nodup]
    omega

private theorem excess_le_iff {rows limit : Nat} (bounded : rows ≤ limit) (count : Nat) :
    rows + 1 - limit ≤ count ↔ rows < limit ∨ 0 < count := by
  omega

theorem row_mem_bounded_iff (arrival : PromptArrival prompts row) :
    row ∈ boundPendingPrompts (prompts ++ [row]) ↔
      prompts.length < maxPendingPromptRows ∨
        ∃ other ∈ prompts, other.recordedAtUnixSeconds ≤ row.recordedAtUnixSeconds := by
  have older : ((prompts ++ [row]).filter fun other => other.seniority < row.seniority) =
      prompts.filter fun other => other.recordedAtUnixSeconds ≤ row.recordedAtUnixSeconds := by
    rw [List.filter_append]
    have notItself : [row].filter (fun other => other.seniority < row.seniority) = [] := by simp
    rw [notItself, List.append_nil]
    apply List.filter_congr
    intro other member
    have rowidLt := rowid_lt_nextRowid member
    rw [← arrival.rowid] at rowidLt
    rw [decide_eq_decide, PendingPrompt.seniority, PendingPrompt.seniority,
      Prod.Lex.toLex_lt_toLex]
    omega
  have someOlder : 0 < (prompts.filter fun other =>
        other.recordedAtUnixSeconds ≤ row.recordedAtUnixSeconds).length ↔
      ∃ other ∈ prompts, other.recordedAtUnixSeconds ≤ row.recordedAtUnixSeconds := by
    simp [List.length_pos_iff_exists_mem]
  have excess : (prompts ++ [row]).length - maxPendingPromptRows =
      prompts.length + 1 - maxPendingPromptRows := by simp
  have isMember : row ∈ prompts ++ [row] := by simp
  rw [boundPendingPrompts, mem_dropLeast arrival.seniorities_nodup, older, excess, ← someOlder,
    and_iff_right isMember]
  exact excess_le_iff arrival.sound.rows _

end PromptArrival

end SharedContext
