import Mathlib.Algebra.BigOperators.Group.Finset.Piecewise
import Mathlib.Algebra.Order.BigOperators.Group.Finset
import SharedContext.Library.BTreeMap

/-!
# Search down to a depth

A search keeps the least depth at which it reached each item, and a queue of
the items it has still to follow.  Items at the bound are not followed.  An
item that is reached again higher up is queued again.
-/

namespace SharedContext.DepthSearch

variable {κ ε : Type} [DecidableEq κ]

/-- The depths of the items reached so far, and those that wait. -/
structure State (κ : Type) where
  depths : BTreeMap κ Nat
  queue : List κ

/-- Reach an item at a depth, unless it was reached no deeper before. -/
def State.reach (depth : Nat) (state : State κ) (item : κ) : State κ :=
  if (state.depths.get? item).all fun known => decide (depth < known) then
    ⟨state.depths.insert item depth, state.queue ++ [item]⟩
  else state

/-- Start from items at depth zero. -/
def State.start (starts : List κ) : State κ :=
  ⟨starts.foldl (fun depths item => depths.insert item 0) .empty, starts⟩

/-- Follow the queue for as many items; every item in it has a depth. -/
def search (follow : κ → Except ε (List κ)) (bound : Nat) : Nat → State κ → Except ε (State κ)
  | 0, state => pure state
  | fuel + 1, state =>
      match state.queue with
      | [] => pure state
      | item :: rest =>
          let depth := (state.depths.get? item).getD bound
          if bound ≤ depth then search follow bound fuel ⟨state.depths, rest⟩
          else do
            let found ← follow item
            search follow bound fuel (found.foldl (State.reach (depth + 1)) ⟨state.depths, rest⟩)

/-- An item that so many steps lead to. -/
inductive Path (follow : κ → Except ε (List κ)) (starts : List κ) : Nat → κ → Prop
  | start {item : κ} (isStart : item ∈ starts) : Path follow starts 0 item
  | step {depth : Nat} {item other : κ} {found : List κ} (path : Path follow starts depth item)
      (followed : follow item = .ok found) (isFound : other ∈ found) :
      Path follow starts (depth + 1) other

/-! ### One item reached -/

section Reach

variable {depth : Nat} {state : State κ} {item : κ}

theorem reach_cases (depth : Nat) (state : State κ) (item : κ) :
    (state.reach depth item = ⟨state.depths.insert item depth, state.queue ++ [item]⟩ ∧
      ∀ known, state.depths.get? item = some known → depth < known) ∨
    (state.reach depth item = state ∧
      ∃ known, state.depths.get? item = some known ∧ known ≤ depth) := by
  unfold State.reach
  cases found : state.depths.get? item with
  | none => simp
  | some known =>
      by_cases deeper : depth < known
      · left
        simp [deeper]
      · right
        simp only [Option.all_some, decide_eq_true_eq, if_neg deeper, Option.some.injEq,
          exists_eq_left', true_and]
        omega

/-- What a later state keeps of an earlier one: depths only fall, and an item
whose depth fell waits again. -/
structure Follows (earlier later : State κ) : Prop where
  queued : ∀ item ∈ earlier.queue, item ∈ later.queue
  fell : ∀ item known, earlier.depths.get? item = some known →
    ∃ now ≤ known, later.depths.get? item = some now
  again : ∀ item now, later.depths.get? item = some now →
    earlier.depths.get? item = some now ∨ item ∈ later.queue

omit [DecidableEq κ] in
theorem Follows.refl (state : State κ) : Follows state state :=
  ⟨fun _ member => member, fun _ known found => ⟨known, le_rfl, found⟩, fun _ _ found => .inl found⟩

omit [DecidableEq κ] in
theorem Follows.trans {first second third : State κ} (before : Follows first second)
    (after : Follows second third) : Follows first third := by
  refine ⟨fun item member => after.queued item (before.queued item member), ?_, ?_⟩
  · intro item known found
    obtain ⟨middle, middleLe, isMiddle⟩ := before.fell item known found
    obtain ⟨now, nowLe, isNow⟩ := after.fell item middle isMiddle
    exact ⟨now, by omega, isNow⟩
  · intro item now found
    rcases after.again item now found with same | waits
    · rcases before.again item now same with same | waits
      · exact .inl same
      · exact .inr (after.queued item waits)
    · exact .inr waits

theorem reach_follows (depth : Nat) (state : State κ) (item : κ) :
    Follows state (state.reach depth item) ∧
      ∃ now ≤ depth, (state.reach depth item).depths.get? item = some now := by
  rcases reach_cases depth state item with ⟨same, deeper⟩ | ⟨same, known, found, high⟩
  · rw [same]
    refine ⟨⟨?_, ?_, ?_⟩, depth, le_rfl, by simp⟩
    · intro other member
      exact List.mem_append_left _ member
    · intro other known found
      by_cases isItem : other = item
      · subst isItem
        exact ⟨depth, (deeper known found).le, by simp⟩
      · exact ⟨known, le_rfl, by simpa [isItem] using found⟩
    · intro other now found
      by_cases isItem : other = item
      · right
        simp [isItem]
      · left
        simpa [isItem] using found
  · rw [same]
    exact ⟨.refl state, known, high, found⟩

theorem foldl_reach_follows (depth : Nat) (items : List κ) (state : State κ) :
    Follows state (items.foldl (State.reach depth) state) ∧
      ∀ item ∈ items, ∃ now ≤ depth,
        (items.foldl (State.reach depth) state).depths.get? item = some now := by
  induction items generalizing state with
  | nil => exact ⟨.refl state, by simp⟩
  | cons first rest ih =>
      obtain ⟨before, reached⟩ := reach_follows depth state first
      obtain ⟨after, others⟩ := ih (state.reach depth first)
      refine ⟨before.trans after, ?_⟩
      intro item member
      rcases List.mem_cons.mp member with rfl | isOther
      · obtain ⟨known, high, found⟩ := reached
        obtain ⟨now, nowLe, isNow⟩ := after.fell item known found
        exact ⟨now, by omega, isNow⟩
      · exact others item isOther

end Reach

/-! ### What a search keeps -/

section Keeps

variable {follow : κ → Except ε (List κ)} {starts : List κ} {bound : Nat}

/-- The invariant of a search. -/
structure Sound (follow : κ → Except ε (List κ)) (starts : List κ) (bound : Nat)
    (state : State κ) : Prop where
  reached : ∀ item depth, state.depths.get? item = some depth →
    depth ≤ bound ∧ Path follow starts depth item
  queued : ∀ item ∈ state.queue, ∃ depth, state.depths.get? item = some depth
  started : ∀ item ∈ starts, state.depths.get? item = some 0
  closed : ∀ item depth, state.depths.get? item = some depth →
    item ∈ state.queue ∨ bound ≤ depth ∨ ∃ found, follow item = .ok found ∧
      ∀ other ∈ found, ∃ known ≤ depth + 1, state.depths.get? other = some known

theorem get?_foldl_insert_zero (starts : List κ) (depths : BTreeMap κ Nat) (item : κ) :
    (starts.foldl (fun depths item => depths.insert item 0) depths).get? item =
      if item ∈ starts then some 0 else depths.get? item := by
  induction starts generalizing depths with
  | nil => simp
  | cons first rest ih =>
      rw [List.foldl_cons, ih]
      by_cases isFirst : item = first
      · simp [isFirst]
      · simp [isFirst]

theorem sound_start (follow : κ → Except ε (List κ)) (starts : List κ) (bound : Nat) :
    Sound follow starts bound (.start starts) := by
  have known : ∀ item, (State.start starts).depths.get? item =
      if item ∈ starts then some 0 else none := fun item => by
    simp [State.start, get?_foldl_insert_zero]
  refine ⟨?_, ?_, ?_, ?_⟩
  · intro item depth found
    rw [known, Option.ite_none_right_eq_some, Option.some.injEq] at found
    obtain ⟨isStart, rfl⟩ := found
    exact ⟨Nat.zero_le _, .start isStart⟩
  · intro item isStart
    exact ⟨0, (known item).trans (if_pos isStart)⟩
  · intro item isStart
    rw [known, if_pos isStart]
  · intro item depth found
    left
    rw [known, Option.ite_none_right_eq_some] at found
    exact found.1

/-- Every depth belongs to a path, also after reaching what a path leads to. -/
theorem foldl_reach_paths {depth : Nat} (room : depth ≤ bound) {items : List κ} {state : State κ}
    (paths : ∀ item ∈ items, Path follow starts depth item)
    (reached : ∀ item now, state.depths.get? item = some now →
      now ≤ bound ∧ Path follow starts now item) :
    ∀ item now, (items.foldl (State.reach depth) state).depths.get? item = some now →
      now ≤ bound ∧ Path follow starts now item := by
  induction items generalizing state with
  | nil => exact reached
  | cons first rest ih =>
      refine ih (fun item member => paths item (List.mem_cons_of_mem _ member)) ?_
      intro item now found
      rcases reach_cases depth state first with ⟨same, -⟩ | ⟨same, -⟩
      · rw [same] at found
        by_cases isFirst : item = first
        · obtain rfl : depth = now := by simpa [isFirst] using found
          exact ⟨room, isFirst ▸ paths first List.mem_cons_self⟩
        · exact reached item now (by simpa [isFirst] using found)
      · rw [same] at found
        exact reached item now found

theorem foldl_reach_queue {depth : Nat} {items : List κ} {state : State κ} {item : κ}
    (member : item ∈ (items.foldl (State.reach depth) state).queue) :
    item ∈ state.queue ∨ item ∈ items := by
  induction items generalizing state with
  | nil => exact .inl member
  | cons first rest ih =>
      rcases ih member with inQueue | isOther
      · rcases reach_cases depth state first with ⟨same, -⟩ | ⟨same, -⟩
        · rw [same] at inQueue
          rcases List.mem_append.mp inQueue with before | isFirst
          · exact .inl before
          · exact .inr (by simp_all)
        · rw [same] at inQueue
          exact .inl inQueue
      · exact .inr (List.mem_cons_of_mem _ isOther)

omit [DecidableEq κ] in
theorem Sound.skip {depths : BTreeMap κ Nat} {item : κ} {rest : List κ}
    (sound : Sound follow starts bound ⟨depths, item :: rest⟩)
    (deep : bound ≤ (depths.get? item).getD bound) :
    Sound follow starts bound ⟨depths, rest⟩ := by
  refine ⟨sound.reached, ?_, sound.started, ?_⟩
  · exact fun other member => sound.queued other (List.mem_cons_of_mem _ member)
  · intro other depth found
    rcases sound.closed other depth found with waits | done
    · rcases List.mem_cons.mp waits with rfl | waits
      · right
        left
        have known : depths.get? other = some depth := found
        simpa [known] using deep
      · exact .inl waits
    · exact .inr done

theorem Sound.expand {depths : BTreeMap κ Nat} {item : κ} {rest : List κ} {depth : Nat}
    {found : List κ} (sound : Sound follow starts bound ⟨depths, item :: rest⟩)
    (known : depths.get? item = some depth) (above : depth < bound)
    (followed : follow item = .ok found) :
    Sound follow starts bound (found.foldl (State.reach (depth + 1)) ⟨depths, rest⟩) := by
  have path := (sound.reached item depth known).2
  obtain ⟨follows, reached⟩ := foldl_reach_follows (depth + 1) found ⟨depths, rest⟩
  have paths : ∀ other ∈ found, Path follow starts (depth + 1) other := fun other isFound =>
    path.step followed isFound
  refine ⟨foldl_reach_paths above paths sound.reached, ?_, ?_, ?_⟩
  · intro other member
    rcases foldl_reach_queue member with waits | isFound
    · obtain ⟨before, isBefore⟩ := sound.queued other (List.mem_cons_of_mem _ waits)
      obtain ⟨now, -, isNow⟩ := follows.fell other before isBefore
      exact ⟨now, isNow⟩
    · obtain ⟨now, -, isNow⟩ := reached other isFound
      exact ⟨now, isNow⟩
  · intro other isStart
    obtain ⟨now, nowLe, isNow⟩ := follows.fell other 0 (sound.started other isStart)
    obtain rfl : now = 0 := by omega
    exact isNow
  · intro other now isNow
    rcases follows.again other now isNow with before | waits
    · by_cases isItem : other = item
      · subst isItem
        obtain rfl : depth = now := Option.some.inj (known.symm.trans before)
        exact .inr (.inr ⟨found, followed, reached⟩)
      · rcases sound.closed other now before with waits | deep | ⟨others, followedOther, lower⟩
        · rcases List.mem_cons.mp waits with isItem' | waits
          · exact absurd isItem' isItem
          · exact .inl (follows.queued other waits)
        · exact .inr (.inl deep)
        · refine .inr (.inr ⟨others, followedOther, fun next isNext => ?_⟩)
          obtain ⟨first, firstLe, isFirst⟩ := lower next isNext
          obtain ⟨last, lastLe, isLast⟩ := follows.fell next first isFirst
          exact ⟨last, by omega, isLast⟩
    · exact .inl waits

end Keeps

/-! ### Enough fuel -/

section Fuel

variable {bound : Nat} (world : Finset κ)

/-- How often the items of a world may still be queued. -/
def room (bound : Nat) (depths : BTreeMap κ Nat) : Nat :=
  ∑ item ∈ world, (depths.get? item).elim (bound + 1) id

variable {world}

theorem room_insert_lt {depths : BTreeMap κ Nat} {item : κ} {depth : Nat} (inside : item ∈ world)
    (within : depth ≤ bound) (deeper : ∀ known, depths.get? item = some known → depth < known) :
    room world bound (depths.insert item depth) < room world bound depths := by
  apply Finset.sum_lt_sum
  · intro other _
    by_cases isItem : other = item
    · subst isItem
      cases found : depths.get? other with
      | none => simp; omega
      | some known => simpa using (deeper known found).le
    · simp [isItem]
  · refine ⟨item, inside, ?_⟩
    cases found : depths.get? item with
    | none => simp; omega
    | some known => simpa using deeper known found

theorem foldl_reach_room {depth : Nat} (within : depth ≤ bound) {items : List κ}
    (inside : ∀ item ∈ items, item ∈ world) (state : State κ) :
    (items.foldl (State.reach depth) state).queue.length +
        room world bound (items.foldl (State.reach depth) state).depths ≤
      state.queue.length + room world bound state.depths := by
  induction items generalizing state with
  | nil => exact le_rfl
  | cons first rest ih =>
      have step : (state.reach depth first).queue.length +
            room world bound (state.reach depth first).depths ≤
          state.queue.length + room world bound state.depths := by
        rcases reach_cases depth state first with ⟨same, deeper⟩ | ⟨same, -⟩
        · rw [same]
          have falls := room_insert_lt (inside first List.mem_cons_self) within deeper
          simp only [List.length_append, List.length_singleton]
          omega
        · rw [same]
      exact (ih (fun item member => inside item (List.mem_cons_of_mem _ member)) _).trans step

end Fuel

/-! ### The whole search -/

section Search

variable {follow : κ → Except ε (List κ)} {starts : List κ} {bound : Nat} {world : Finset κ}

/-- A search returns, keeps its invariant, and with enough fuel empties its queue. -/
theorem search_spec
    (total : ∀ depth item, depth < bound → Path follow starts depth item →
      ∃ found, follow item = .ok found ∧ ∀ other ∈ found, other ∈ world)
    (fuel : Nat) {state : State κ} (sound : Sound follow starts bound state) :
    ∃ last, search follow bound fuel state = .ok last ∧ Sound follow starts bound last ∧
      (state.queue.length + room world bound state.depths ≤ fuel → last.queue = []) := by
  induction fuel generalizing state with
  | zero =>
      refine ⟨state, rfl, sound, fun enough => ?_⟩
      exact List.length_eq_zero_iff.mp (by omega)
  | succ fuel ih =>
      obtain ⟨depths, queue⟩ := state
      cases queue with
      | nil => exact ⟨⟨depths, []⟩, rfl, sound, fun _ => rfl⟩
      | cons item rest =>
          obtain ⟨depth, known⟩ := sound.queued item List.mem_cons_self
          dsimp only at known
          by_cases deep : bound ≤ depth
          · have skipped := sound.skip (by simpa [known] using deep)
            obtain ⟨last, searched, lastSound, empties⟩ := ih skipped
            refine ⟨last, ?_, lastSound, fun enough => empties ?_⟩
            · simpa [search, known, deep] using searched
            · simp only [List.length_cons] at enough
              simp only
              omega
          · have above : depth + 1 ≤ bound := by omega
            obtain ⟨found, followed, inside⟩ :=
              total depth item above (sound.reached item depth known).2
            obtain ⟨last, searched, lastSound, empties⟩ := ih (sound.expand known above followed)
            refine ⟨last, ?_, lastSound, fun enough => empties ?_⟩
            · simp only [search, known, Option.getD_some, if_neg deep, followed]
              exact searched
            · have spent := foldl_reach_room above inside ⟨depths, rest⟩
              simp only [List.length_cons] at enough spent
              omega

omit [DecidableEq κ] in
theorem room_le (world : Finset κ) (bound : Nat) {depths : BTreeMap κ Nat}
    (within : ∀ item depth, depths.get? item = some depth → depth ≤ bound) :
    room world bound depths ≤ world.card * (bound + 1) := by
  apply Finset.sum_le_card_nsmul
  intro item _
  cases found : depths.get? item with
  | none => simp
  | some depth => simpa using (within item depth found).trans (Nat.le_succ bound)

omit [DecidableEq κ] in
theorem Sound.mem_iff {state : State κ} (sound : Sound follow starts bound state)
    (done : state.queue = []) {item : κ} :
    item ∈ state.depths.keys ↔ ∃ depth ≤ bound, Path follow starts depth item := by
  constructor
  · intro member
    obtain ⟨depth, found⟩ := BTreeMap.mem_keys_iff.mp member
    exact ⟨depth, sound.reached item depth found⟩
  · rintro ⟨depth, within, path⟩
    have high : ∃ known ≤ depth, state.depths.get? item = some known := by
      induction path with
      | start isStart => exact ⟨0, le_rfl, sound.started _ isStart⟩
      | step path followed isFound ih =>
          obtain ⟨known, knownLe, isKnown⟩ := ih (by omega)
          rcases sound.closed _ known isKnown with waits | deep | ⟨others, followedToo, reached⟩
          · rw [done] at waits
            cases waits
          · omega
          · obtain rfl := Except.ok.inj (followed.symm.trans followedToo)
            obtain ⟨now, nowLe, isNow⟩ := reached _ isFound
            exact ⟨now, by omega, isNow⟩
    obtain ⟨known, -, found⟩ := high
    exact BTreeMap.mem_keys_of_get? found

theorem search_reaches
    (total : ∀ depth item, depth < bound → Path follow starts depth item →
      ∃ found, follow item = .ok found ∧ ∀ other ∈ found, other ∈ world)
    {fuel : Nat} (enough : starts.length + world.card * (bound + 1) ≤ fuel) :
    ∃ last, search follow bound fuel (.start starts) = .ok last ∧
      Sound follow starts bound last ∧
      ∀ item, item ∈ last.depths.keys ↔ ∃ depth ≤ bound, Path follow starts depth item := by
  have sound := sound_start follow starts bound
  obtain ⟨last, searched, lastSound, empties⟩ := search_spec total fuel sound
  have free : room world bound (State.start starts).depths ≤ world.card * (bound + 1) :=
    room_le world bound fun item depth found => (sound.reached item depth found).1
  have done : last.queue = [] := by
    apply empties
    have length : (State.start starts).queue.length = starts.length := rfl
    omega
  exact ⟨last, searched, lastSound, fun item => lastSound.mem_iff done⟩

end Search

end SharedContext.DepthSearch
