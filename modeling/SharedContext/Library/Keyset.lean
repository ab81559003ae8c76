import Mathlib

/-!
# Keyset pagination

A page shows the least rows behind a position, by a key that tells rows apart,
and names the position of its last row when one more row was found.  Following
the positions shows no row twice, keeps the order, and shows every row that is
there for the whole walk.
-/

namespace SharedContext.Keyset

variable {Row κ : Type*} [LinearOrder κ] (key : Row → κ)

structure Page (Row κ : Type*) where
  rows : List Row
  next : Option κ

/-- Whether a row comes after a position; no position is before all rows. -/
def behind (position : Option κ) (row : Row) : Bool :=
  match position with
  | none => true
  | some position => position < key row

/-- The rows behind a position, in order. -/
def ordered (rows : List Row) (position : Option κ) : List Row :=
  (rows.filter (behind key position)).insertionSort fun first second => key first ≤ key second

/-- The first rows behind a position; one more is read to tell whether there are
any left. -/
def readPage (rows : List Row) (position : Option κ) (limit : Nat) : Page Row κ :=
  let found := (ordered key rows position).take (limit + 1)
  { rows := found.take limit
    next := if limit < found.length then (found.take limit).getLast?.map key else none }

/-- Pages read by following the positions, each from the rows of its own time. -/
def walk (position : Option κ) : List (List Row × Nat) → List (Page Row κ)
  | [] => []
  | (rows, limit) :: rest =>
      let page := readPage key rows position limit
      page :: match page.next with
        | some position => walk (some position) rest
        | none => []

def shown (pages : List (Page Row κ)) : List Row :=
  pages.flatMap Page.rows

/-- A walk has ended when its last page names no position. -/
def Ended (pages : List (Page Row κ)) : Prop :=
  ∃ page ∈ pages.getLast?, page.next = none

variable {key}

theorem behind_some {position : κ} {row : Row} :
    behind key (some position) row = true ↔ position < key row :=
  decide_eq_true_iff

theorem mem_ordered {rows : List Row} {position : Option κ} {row : Row} :
    row ∈ ordered key rows position ↔ row ∈ rows ∧ behind key position row = true := by
  rw [ordered, List.mem_insertionSort, List.mem_filter]

theorem pairwise_ordered {rows : List Row} (distinct : (rows.map key).Nodup)
    (position : Option κ) :
    (ordered key rows position).Pairwise fun first second => key first < key second := by
  have total : ∀ first second : Row, key first ≤ key second ∨ key second ≤ key first :=
    fun first second => le_total _ _
  have sorted : (ordered key rows position).Pairwise fun first second =>
      key first ≤ key second := by
    have : Std.Total fun first second : Row => key first ≤ key second := ⟨total⟩
    have : IsTrans Row fun first second => key first ≤ key second :=
      ⟨fun _ _ _ => le_trans⟩
    exact List.pairwise_insertionSort _ _
  have nodup : ((ordered key rows position).map key).Nodup := by
    have perm := List.perm_insertionSort (fun first second => key first ≤ key second)
      (rows.filter (behind key position))
    rw [ordered, (perm.map key).nodup_iff]
    exact distinct.sublist (List.filter_sublist.map key)
  have apart := List.pairwise_map.mp nodup
  refine (sorted.and apart).imp ?_
  intro first second both
  exact lt_of_le_of_ne both.1 both.2

/-- The rows behind the last of a beginning are the rest. -/
theorem ordered_after {rows : List Row} (distinct : (rows.map key).Nodup) {position : Option κ}
    {before rest : List Row} {last : Row}
    (splits : ordered key rows position = before ++ last :: rest) :
    ordered key rows (some (key last)) = rest := by
  have strict := pairwise_ordered distinct position
  rw [splits, List.pairwise_append, List.pairwise_cons] at strict
  obtain ⟨_, ⟨lastBelow, restStrict⟩, beforeBelow⟩ := strict
  have sameRows : ∀ row, row ∈ ordered key rows (some (key last)) ↔ row ∈ rest := by
    intro row
    rw [mem_ordered, behind_some]
    constructor
    · intro ⟨member, below⟩
      have behindPosition : behind key position row = true := by
        have lastBehind := (mem_ordered.mp (splits ▸ by simp : last ∈ ordered key rows position)).2
        cases position with
        | none => rfl
        | some position => exact behind_some.mpr ((behind_some.mp lastBehind).trans below)
      have inOrdered := mem_ordered.mpr ⟨member, behindPosition⟩
      rw [splits] at inOrdered
      rcases List.mem_append.mp inOrdered with inBefore | inRest
      · have := beforeBelow row inBefore last List.mem_cons_self
        exact absurd below this.not_gt
      · rcases List.mem_cons.mp inRest with rfl | inRest
        · exact absurd below (lt_irrefl _)
        · exact inRest
    · intro inRest
      have inOrdered : row ∈ ordered key rows position := by
        rw [splits]
        simp [inRest]
      exact ⟨(mem_ordered.mp inOrdered).1, lastBelow row inRest⟩
  have strictAfter := pairwise_ordered distinct (some (key last))
  have perm : (ordered key rows (some (key last))).Perm rest := by
    refine (List.perm_ext_iff_of_nodup ?_ ?_).mpr sameRows
    · exact strictAfter.imp fun below same => absurd (same ▸ below) (lt_irrefl _)
    · exact restStrict.imp fun below same => absurd (same ▸ below) (lt_irrefl _)
  refine perm.eq_of_pairwise ?_ strictAfter restStrict
  intro first second _ _ below above
  exact absurd below above.not_gt

/-! ### One page -/

section Pages

variable {rows : List Row} {position : Option κ} {limit : Nat}

theorem readPage_rows : (readPage key rows position limit).rows =
    (ordered key rows position).take limit := by
  rw [readPage, List.take_take, Nat.min_eq_left (Nat.le_succ limit)]

theorem readPage_next : (readPage key rows position limit).next =
    if limit < (ordered key rows position).length then
      ((ordered key rows position).take limit).getLast?.map key
    else none := by
  have enough : limit < ((ordered key rows position).take (limit + 1)).length ↔
      limit < (ordered key rows position).length := by
    rw [List.length_take]
    omega
  have sameRows : (readPage key rows position limit).rows = _ := readPage_rows
  simp only [readPage] at sameRows ⊢
  rw [sameRows]
  by_cases more : limit < (ordered key rows position).length
  · rw [if_pos (enough.mpr more), if_pos more]
  · rw [if_neg (fun found => more (enough.mp found)), if_neg more]

/-- A page shows all rows and ends the walk, or as many as asked for with the
position of its last. -/
theorem readPage_cases (key : Row → κ) (rows : List Row) (position : Option κ)
    (positive : 0 < limit) :
    ((ordered key rows position).length ≤ limit ∧
      readPage key rows position limit = ⟨ordered key rows position, none⟩) ∨
    ∃ before last rest, ordered key rows position = before ++ last :: rest ∧ rest ≠ [] ∧
      before.length + 1 = limit ∧
      readPage key rows position limit = ⟨before ++ [last], some (key last)⟩ := by
  have isPage : readPage key rows position limit =
      ⟨(readPage key rows position limit).rows, (readPage key rows position limit).next⟩ := rfl
  rw [isPage, readPage_rows, readPage_next]
  by_cases more : limit < (ordered key rows position).length
  · right
    obtain ⟨before, last, shownEq⟩ : ∃ before last,
        (ordered key rows position).take limit = before ++ [last] := by
      have nonempty : (ordered key rows position).take limit ≠ [] := by
        intro empty
        have := congrArg List.length empty
        simp only [List.length_take, List.length_nil] at this
        omega
      exact ⟨_, _, (List.dropLast_append_getLast nonempty).symm⟩
    refine ⟨before, last, (ordered key rows position).drop limit, ?_, ?_, ?_, ?_⟩
    · have whole := List.take_append_drop limit (ordered key rows position)
      rw [shownEq, List.append_assoc] at whole
      exact whole.symm
    · intro empty
      have := congrArg List.length empty
      simp only [List.length_drop, List.length_nil] at this
      omega
    · have := congrArg List.length shownEq
      simp only [List.length_take, List.length_append, List.length_singleton] at this
      omega
    · rw [if_pos more, shownEq, List.getLast?_concat]
      rfl
  · left
    rw [if_neg more, List.take_of_length_le (not_lt.mp more)]
    exact ⟨not_lt.mp more, rfl⟩

end Pages

/-! ### Whole walks -/

/-- The rows of one time have different keys, and each limit allows a row. -/
structure Readable (key : Row → κ) (requests : List (List Row × Nat)) : Prop where
  distinct : ∀ request ∈ requests, (request.1.map key).Nodup
  positive : ∀ request ∈ requests, 0 < request.2

omit [LinearOrder κ] in
theorem Readable.tail {request : List Row × Nat} {rest : List (List Row × Nat)}
    (readable : Readable key (request :: rest)) : Readable key rest where
  distinct other member := readable.distinct other (List.mem_cons_of_mem _ member)
  positive other member := readable.positive other (List.mem_cons_of_mem _ member)

theorem walk_cons {position : Option κ} {rows : List Row} {limit : Nat}
    {rest : List (List Row × Nat)} :
    walk key position ((rows, limit) :: rest) =
      readPage key rows position limit ::
        match (readPage key rows position limit).next with
        | some position => walk key (some position) rest
        | none => [] :=
  rfl

/-- A walk keeps the order, and shows only rows behind its position. -/
theorem walk_increasing {requests : List (List Row × Nat)} (readable : Readable key requests)
    (position : Option κ) :
    (shown (walk key position requests)).Pairwise (fun first second => key first < key second) ∧
      ∀ row ∈ shown (walk key position requests), behind key position row = true := by
  induction requests generalizing position with
  | nil => exact ⟨.nil, fun row member => absurd member List.not_mem_nil⟩
  | cons request rest ih =>
      obtain ⟨rows, limit⟩ := request
      have distinct := readable.distinct _ List.mem_cons_self
      have positive := readable.positive _ List.mem_cons_self
      have strict := pairwise_ordered distinct position
      rw [walk_cons]
      rcases readPage_cases key rows position positive with
        ⟨_, pageEq⟩ | ⟨before, last, left, splits, _, _, pageEq⟩
      · rw [pageEq]
        simp only [shown, List.flatMap_cons, List.flatMap_nil, List.append_nil]
        exact ⟨strict, fun row member => (mem_ordered.mp member).2⟩
      · obtain ⟨restStrict, restBehind⟩ := ih readable.tail (some (key last))
        rw [pageEq]
        simp only [shown, List.flatMap_cons] at restStrict restBehind ⊢
        rw [splits, List.pairwise_append, List.pairwise_cons] at strict
        have pageBehind : ∀ row ∈ before ++ [last], behind key position row = true := by
          intro row member
          have inOrdered : row ∈ ordered key rows position := by
            rw [splits]
            simp only [List.mem_append, List.mem_cons] at member ⊢
            tauto
          exact (mem_ordered.mp inOrdered).2
        have pageBelow : ∀ row ∈ before ++ [last], key row ≤ key last := by
          intro row member
          rcases List.mem_append.mp member with inBefore | isLast
          · exact (strict.2.2 row inBefore last List.mem_cons_self).le
          · rw [List.mem_singleton.mp isLast]
        constructor
        · refine List.pairwise_append.mpr ⟨?_, restStrict, ?_⟩
          · refine List.pairwise_append.mpr ⟨strict.1, List.pairwise_singleton _ _, ?_⟩
            intro row member other isLast
            rw [List.mem_singleton.mp isLast]
            exact strict.2.2 row member last List.mem_cons_self
          · intro row member other otherMember
            exact (pageBelow row member).trans_lt (behind_some.mp (restBehind other otherMember))
        · intro row member
          rcases List.mem_append.mp member with onPage | later
          · exact pageBehind row onPage
          · have lastBehind := pageBehind last (by simp)
            have below := behind_some.mp (restBehind row later)
            cases position with
            | none => rfl
            | some position => exact behind_some.mpr ((behind_some.mp lastBehind).trans below)

theorem mem_of_shown {requests : List (List Row × Nat)} {position : Option κ} {row : Row}
    (member : row ∈ shown (walk key position requests)) : ∃ request ∈ requests, row ∈ request.1 := by
  induction requests generalizing position with
  | nil => exact absurd member List.not_mem_nil
  | cons request rest ih =>
      obtain ⟨rows, limit⟩ := request
      rw [walk_cons, shown, List.flatMap_cons] at member
      rcases List.mem_append.mp member with onPage | later
      · rw [readPage_rows] at onPage
        exact ⟨_, List.mem_cons_self, (mem_ordered.mp (List.mem_of_mem_take onPage)).1⟩
      · split at later
        · obtain ⟨other, otherMem, there⟩ := ih later
          exact ⟨other, List.mem_cons_of_mem _ otherMem, there⟩
        · exact absurd later List.not_mem_nil

omit [LinearOrder κ] in
theorem Ended.tail {page : Page Row κ} {rest : List (Page Row κ)} {position : κ}
    (ended : Ended (page :: rest)) (goesOn : page.next = some position) : Ended rest := by
  obtain ⟨last, isLast, noNext⟩ := ended
  cases rest with
  | nil =>
      have isPage : page = last := by simpa using isLast
      rw [isPage, noNext] at goesOn
      cases goesOn
  | cons second others =>
      rw [List.getLast?_cons_cons] at isLast
      exact ⟨last, isLast, noNext⟩

omit [LinearOrder κ] in
theorem Ended.cons {rest : List (Page Row κ)} (ended : Ended rest) (page : Page Row κ) :
    Ended (page :: rest) := by
  obtain ⟨last, isLast, noNext⟩ := ended
  cases rest with
  | nil => simp at isLast
  | cons second others =>
      refine ⟨last, ?_, noNext⟩
      rw [List.getLast?_cons_cons]
      exact isLast

theorem shown_of_ended {requests : List (List Row × Nat)} (readable : Readable key requests)
    {position : Option κ} (ended : Ended (walk key position requests)) {row : Row}
    (always : ∀ request ∈ requests, row ∈ request.1) (isBehind : behind key position row = true) :
    row ∈ shown (walk key position requests) := by
  induction requests generalizing position with
  | nil =>
      obtain ⟨page, isLast, _⟩ := ended
      simp [walk] at isLast
  | cons request rest ih =>
      obtain ⟨rows, limit⟩ := request
      have distinct := readable.distinct _ List.mem_cons_self
      have positive := readable.positive _ List.mem_cons_self
      have here := mem_ordered.mpr ⟨always _ List.mem_cons_self, isBehind⟩
      rw [walk_cons] at ended ⊢
      rcases readPage_cases key rows position positive with
        ⟨_, pageEq⟩ | ⟨before, last, left, splits, _, _, pageEq⟩
      · rw [pageEq, shown, List.flatMap_cons]
        exact List.mem_append_left _ here
      · rw [pageEq] at ended ⊢
        have later := ended.tail rfl
        have strict := pairwise_ordered distinct position
        rw [splits] at here strict
        rw [shown, List.flatMap_cons]
        rcases List.mem_append.mp here with inBefore | fromLast
        · exact List.mem_append_left _ (List.mem_append_left _ inBefore)
        · rcases List.mem_cons.mp fromLast with rfl | inLeft
          · exact List.mem_append_left _ (by simp)
          · refine List.mem_append_right _ (ih readable.tail later
              (fun other member => always other (List.mem_cons_of_mem _ member)) ?_)
            have lastBelow := (List.pairwise_append.mp strict).2.1
            exact behind_some.mpr ((List.pairwise_cons.mp lastBelow).1 row inLeft)

/-! ### Walks over rows that do not change -/

section Fixed

variable {rows : List Row} (distinct : (rows.map key).Nodup) {limits : List Nat}
  (positive : ∀ limit ∈ limits, 0 < limit)
include distinct positive

theorem shown_fixed (position : Option κ) :
    shown (walk key position (limits.map fun limit => (rows, limit))) =
      (ordered key rows position).take limits.sum := by
  induction limits generalizing position with
  | nil => simp [walk, shown]
  | cons limit rest ih =>
      have restPositive : ∀ other ∈ rest, 0 < other :=
        fun other member => positive other (List.mem_cons_of_mem _ member)
      rw [List.map_cons, walk_cons, List.sum_cons]
      rcases readPage_cases key rows position
        (positive limit List.mem_cons_self) with
        ⟨allShown, pageEq⟩ | ⟨before, last, left, splits, _, lengthEq, pageEq⟩
      · rw [pageEq, List.take_of_length_le (by omega)]
        simp [shown]
      · have after := ordered_after distinct splits
        have rest := ih restPositive (some (key last))
        rw [after] at rest
        rw [pageEq, shown, List.flatMap_cons]
        simp only [shown] at rest ⊢
        rw [rest, splits, ← lengthEq]
        simp [List.take_append, Nat.add_assoc, Nat.add_comm 1, List.take_of_length_le]

/-- A walk over fixed rows ends exactly when the limits allow for all of them. -/
theorem ended_fixed (position : Option κ) (asked : limits ≠ []) :
    Ended (walk key position (limits.map fun limit => (rows, limit))) ↔
      (ordered key rows position).length ≤ limits.sum := by
  induction limits generalizing position with
  | nil => exact absurd rfl asked
  | cons limit rest ih =>
      have restPositive : ∀ other ∈ rest, 0 < other :=
        fun other member => positive other (List.mem_cons_of_mem _ member)
      rw [List.map_cons, walk_cons, List.sum_cons]
      rcases readPage_cases key rows position
        (positive limit List.mem_cons_self) with
        ⟨allShown, pageEq⟩ | ⟨before, last, left, splits, someLeft, lengthEq, pageEq⟩
      · rw [pageEq]
        refine iff_of_true ⟨_, rfl, rfl⟩ (by omega)
      · rw [pageEq]
        have leftLength : 0 < left.length := List.length_pos_iff.mpr someLeft
        have wholeLength := congrArg List.length splits
        simp only [List.length_append, List.length_cons] at wholeLength
        cases rest with
        | nil =>
            refine iff_of_false ?_ (by simp; omega)
            rintro ⟨page, isLast, noNext⟩
            have isPage : (⟨before ++ [last], some (key last)⟩ : Page Row κ) = page := by
              simpa [walk] using isLast
            rw [← isPage] at noNext
            cases noNext
        | cons second others =>
            have later := ih restPositive (some (key last)) (by simp)
            rw [ordered_after distinct splits] at later
            have goesOn : (⟨before ++ [last], some (key last)⟩ : Page Row κ).next =
              some (key last) := rfl
            constructor
            · intro ended
              have := later.mp (ended.tail goesOn)
              omega
            · intro enough
              exact (later.mpr (by omega)).cons _

end Fixed

end SharedContext.Keyset
