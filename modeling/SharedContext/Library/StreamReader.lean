import Mathlib

/-!
# Readers of a stream

A reader looks at the front of what it has buffered and either waits for more,
or takes some of it and possibly reports a result.  A reader whose decisions
do not change when more arrives reports the same results however the stream is
cut into pieces.
-/

namespace SharedContext

/-- What a reader does is settled by what it has seen. -/
structure StreamReader (β ρ : Type) where
  next : List β → Option (Nat × Option ρ)
  takes : ∀ {buffer count result}, next buffer = some (count, result) →
    0 < count ∧ count ≤ buffer.length
  settled : ∀ {buffer turn}, next buffer = some turn → ∀ more, next (buffer ++ more) = some turn

namespace StreamReader

variable {β ρ : Type} (reader : StreamReader β ρ)

def drainWithin : Nat → List β → List ρ × List β
  | 0, buffer => ([], buffer)
  | fuel + 1, buffer =>
      match reader.next buffer with
      | none => ([], buffer)
      | some (count, result) =>
          let (results, rest) := drainWithin fuel (buffer.drop count)
          (result.toList ++ results, rest)

/-- Read until the reader waits. -/
def drain (buffer : List β) : List ρ × List β :=
  reader.drainWithin buffer.length buffer

theorem next_nil : reader.next [] = none := by
  cases turn : reader.next [] with
  | none => rfl
  | some taken =>
      obtain ⟨count, result⟩ := taken
      have bounds := reader.takes turn
      rw [List.length_nil] at bounds
      omega

/-- As much fuel as the buffer is long is always enough. -/
theorem drainWithin_agree {first second : Nat} {buffer : List β}
    (firstEnough : buffer.length ≤ first) (secondEnough : buffer.length ≤ second) :
    reader.drainWithin first buffer = reader.drainWithin second buffer := by
  induction first generalizing second buffer with
  | zero =>
      have empty : buffer = [] := List.length_eq_zero_iff.mp (by omega)
      subst empty
      cases second with
      | zero => rfl
      | succ second => rw [drainWithin, drainWithin, next_nil]
  | succ first ih =>
      cases second with
      | zero =>
          have empty : buffer = [] := List.length_eq_zero_iff.mp (by omega)
          subst empty
          rw [drainWithin, drainWithin, next_nil]
      | succ second =>
          rw [drainWithin, drainWithin]
          cases turn : reader.next buffer with
          | none => rfl
          | some taken =>
              obtain ⟨count, result⟩ := taken
              have bounds := reader.takes turn
              have remaining : (buffer.drop count).length = buffer.length - count :=
                List.length_drop
              dsimp only
              rw [@ih second _ (by omega) (by omega)]

variable {reader}

theorem drain_of_none {buffer : List β} (waits : reader.next buffer = none) :
    reader.drain buffer = ([], buffer) := by
  unfold drain
  cases buffer.length with
  | zero => rfl
  | succ fuel => rw [drainWithin, waits]

theorem drain_of_some {buffer : List β} {count : Nat} {result : Option ρ}
    (turn : reader.next buffer = some (count, result)) :
    reader.drain buffer =
      (result.toList ++ (reader.drain (buffer.drop count)).1,
        (reader.drain (buffer.drop count)).2) := by
  have bounds := reader.takes turn
  have remaining : (buffer.drop count).length = buffer.length - count := List.length_drop
  obtain ⟨fuel, lengthEq⟩ : ∃ fuel, buffer.length = fuel + 1 := ⟨buffer.length - 1, by omega⟩
  have unfolded : reader.drain buffer =
      (result.toList ++ (reader.drainWithin fuel (buffer.drop count)).1,
        (reader.drainWithin fuel (buffer.drop count)).2) := by
    rw [drain, lengthEq, drainWithin, turn]
  rw [unfolded, drain, reader.drainWithin_agree (by omega : (buffer.drop count).length ≤ fuel)
    (Nat.le_refl _)]

theorem drain_append (buffer more : List β) :
    reader.drain (buffer ++ more) =
      ((reader.drain buffer).1 ++ (reader.drain ((reader.drain buffer).2 ++ more)).1,
        (reader.drain ((reader.drain buffer).2 ++ more)).2) := by
  induction lengthEq : buffer.length using Nat.strongRecOn generalizing buffer with
  | _ length ih =>
      cases turn : reader.next buffer with
      | none => rw [drain_of_none turn, List.nil_append]
      | some taken =>
          obtain ⟨count, result⟩ := taken
          have bounds := reader.takes turn
          have shorter : (buffer.drop count).length < length := by
            rw [List.length_drop]
            omega
          rw [drain_of_some turn, drain_of_some (reader.settled turn more),
            List.drop_append_of_le_length bounds.2, ih _ shorter _ rfl]
          simp

/-- Results of the pieces of a stream, read one after the other. -/
def drainPieces (reader : StreamReader β ρ) : List β → List (List β) → List ρ × List β
  | buffer, [] => ([], buffer)
  | buffer, piece :: pieces =>
      let (results, rest) := reader.drain (buffer ++ piece)
      let (others, last) := drainPieces reader rest pieces
      (results ++ others, last)

/-- After reading, the reader waits. -/
theorem next_drain (buffer : List β) : reader.next (reader.drain buffer).2 = none := by
  induction lengthEq : buffer.length using Nat.strongRecOn generalizing buffer with
  | _ length ih =>
      cases turn : reader.next buffer with
      | none =>
          rw [drain_of_none turn]
          exact turn
      | some taken =>
          obtain ⟨count, result⟩ := taken
          have bounds := reader.takes turn
          have shorter : (buffer.drop count).length < length := by
            rw [List.length_drop]
            omega
          rw [drain_of_some turn]
          exact ih _ shorter _ rfl

theorem drainPieces_eq {buffer : List β} (waits : reader.next buffer = none)
    (pieces : List (List β)) :
    reader.drainPieces buffer pieces = reader.drain (buffer ++ pieces.flatten) := by
  induction pieces generalizing buffer with
  | nil => rw [drainPieces, List.flatten_nil, List.append_nil, drain_of_none waits]
  | cons piece pieces ih =>
      rw [drainPieces, List.flatten_cons, ← List.append_assoc, drain_append (buffer ++ piece)]
      dsimp only
      rw [ih (next_drain (buffer ++ piece))]

/-! ### Where the results are read -/

/-- The results with the positions at which they are read. -/
def reportsWithin (reader : StreamReader β ρ) : Nat → Nat → List β → List (Nat × ρ)
  | 0, _, _ => []
  | fuel + 1, position, buffer =>
      match reader.next buffer with
      | none => []
      | some (count, result) =>
          (result.map (Prod.mk position)).toList ++
            reportsWithin reader fuel (position + count) (buffer.drop count)

def reports (reader : StreamReader β ρ) (stream : List β) : List (Nat × ρ) :=
  reader.reportsWithin stream.length 0 stream

theorem map_snd_reportsWithin (fuel position : Nat) (buffer : List β) :
    (reader.reportsWithin fuel position buffer).map Prod.snd =
      (reader.drainWithin fuel buffer).1 := by
  induction fuel generalizing position buffer with
  | zero => rfl
  | succ fuel ih =>
      rw [reportsWithin, drainWithin]
      cases reader.next buffer with
      | none => rfl
      | some turn =>
          obtain ⟨count, result⟩ := turn
          dsimp only
          rw [List.map_append, ih]
          cases result <;> rfl

theorem map_snd_reports (stream : List β) :
    (reader.reports stream).map Prod.snd = (reader.drain stream).1 :=
  map_snd_reportsWithin _ _ _

/-- The reader takes a turn at a position of its stream, or waits there. -/
inductive Reaches (reader : StreamReader β ρ) (stream : List β) : Nat → Prop
  | start : Reaches reader stream 0
  | turn {position count : Nat} {result : Option ρ} (reached : Reaches reader stream position)
      (taken : reader.next (stream.drop position) = some (count, result)) :
      Reaches reader stream (position + count)

/-- The results are those of the turns at the positions that are reached. -/
theorem mem_reportsWithin {stream : List β} {fuel position : Nat}
    (reached : reader.Reaches stream position) (enough : stream.length ≤ position + fuel)
    {entry : Nat × ρ} :
    entry ∈ reader.reportsWithin fuel position (stream.drop position) →
      reader.Reaches stream entry.1 ∧
        ∃ count, reader.next (stream.drop entry.1) = some (count, some entry.2) := by
  induction fuel generalizing position with
  | zero => simp [reportsWithin]
  | succ fuel ih =>
      rw [reportsWithin]
      cases taken : reader.next (stream.drop position) with
      | none => simp
      | some turn =>
          obtain ⟨count, result⟩ := turn
          have bounds := reader.takes taken
          dsimp only
          rw [List.mem_append, List.drop_drop]
          rintro (here | later)
          · cases result with
            | none => simp at here
            | some result =>
                rw [Option.map_some, Option.toList_some, List.mem_singleton] at here
                subst here
                exact ⟨reached, count, taken⟩
          · exact ih (reached.turn taken) (by omega) later

theorem reportsWithin_agree {first second position : Nat} {buffer : List β}
    (firstEnough : buffer.length ≤ first) (secondEnough : buffer.length ≤ second) :
    reader.reportsWithin first position buffer = reader.reportsWithin second position buffer := by
  induction first generalizing second position buffer with
  | zero =>
      have empty : buffer = [] := List.length_eq_zero_iff.mp (by omega)
      subst empty
      cases second with
      | zero => rfl
      | succ second => rw [reportsWithin, reportsWithin, next_nil]
  | succ first ih =>
      cases second with
      | zero =>
          have empty : buffer = [] := List.length_eq_zero_iff.mp (by omega)
          subst empty
          rw [reportsWithin, reportsWithin, next_nil]
      | succ second =>
          rw [reportsWithin, reportsWithin]
          cases turn : reader.next buffer with
          | none => rfl
          | some taken =>
              obtain ⟨count, result⟩ := taken
              have bounds := reader.takes turn
              have remaining : (buffer.drop count).length = buffer.length - count :=
                List.length_drop
              dsimp only
              rw [@ih second _ _ (by omega) (by omega)]

theorem reportsWithin_of_taken {stream : List β} {position count : Nat} {result : Option ρ}
    (taken : reader.next (stream.drop position) = some (count, result)) :
    reader.reportsWithin (stream.length - position) position (stream.drop position) =
      (result.map (Prod.mk position)).toList ++
        reader.reportsWithin (stream.length - (position + count)) (position + count)
          (stream.drop (position + count)) := by
  have bounds := reader.takes taken
  rw [List.length_drop] at bounds
  have more : stream.length - position = (stream.length - position - 1) + 1 := by omega
  rw [more, reportsWithin, taken]
  dsimp only
  rw [List.drop_drop, reportsWithin_agree]
  · rw [List.length_drop]
    omega
  · exact Nat.le_of_eq List.length_drop

theorem reports_of_reaches {stream : List β} {position count : Nat} {result : ρ}
    (reached : reader.Reaches stream position)
    (taken : reader.next (stream.drop position) = some (count, some result)) :
    (position, result) ∈ reader.reports stream := by
  have behind : ∀ {position}, reader.Reaches stream position → ∀ entry,
      entry ∈ reader.reportsWithin (stream.length - position) position (stream.drop position) →
        entry ∈ reader.reports stream := by
    intro position reached
    induction reached with
    | start => exact fun entry member => member
    | turn reached taken ih =>
        intro entry member
        refine ih entry ?_
        rw [reportsWithin_of_taken taken]
        exact List.mem_append_right _ member
  refine behind reached _ ?_
  rw [reportsWithin_of_taken taken]
  exact List.mem_append_left _ (by simp)

theorem mem_reports {stream : List β} {entry : Nat × ρ} :
    entry ∈ reader.reports stream ↔ reader.Reaches stream entry.1 ∧
      ∃ count, reader.next (stream.drop entry.1) = some (count, some entry.2) := by
  constructor
  · exact mem_reportsWithin .start (by omega)
  · rintro ⟨reached, count, taken⟩
    exact reports_of_reaches reached taken

end StreamReader

end SharedContext
