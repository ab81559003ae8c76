import SharedContext.TaskRuntime.Lineages

/-!
# Chains of Intent revisions

The invariant of the lineage tables: the revisions of a Task are one parent
chain that ends at its Head, and an External Session has one of its own Tasks
active.  The foreign keys of the schema are consequences of it.  Two changes
write to the tables, and each preserves it: adding a Task and appending a
revision to one.
-/

namespace SharedContext

/-- Revisions that continue one parent chain from an expected parent. -/
def ParentChain (expected : Option TaskIntentRevisionId) : List TaskIntentRevision → Prop
  | [] => True
  | revision :: rest =>
      revision.parentRevisionId = expected ∧ ParentChain (some revision.revisionId) rest

/-- A chain is extended by a revision that names its last element, or the
expected parent when it is empty. -/
theorem ParentChain.append {expected : Option TaskIntentRevisionId}
    {revisions : List TaskIntentRevision} {next : TaskIntentRevision}
    (chain : ParentChain expected revisions)
    (parentEq : next.parentRevisionId =
      (revisions.getLast?.map (·.revisionId)).or expected) :
    ParentChain expected (revisions ++ [next]) := by
  induction revisions generalizing expected with
  | nil => exact ⟨by simpa using parentEq, trivial⟩
  | cons revision rest ih =>
      refine ⟨chain.1, ih chain.2 ?_⟩
      cases rest with
      | nil => simpa using parentEq
      | cons other rest => simpa [List.getLast?_cons_cons, List.getLast?_cons] using parentEq

/-! ### The invariant -/

namespace Lineages

/-- The revision rows of a Task Session in insertion order. -/
def revisionRows (tables : Lineages) (taskSessionId : TaskSessionId) :
    List TaskIntentRevisionRow :=
  tables.taskIntentRevision.rows.filter fun row => row.taskSessionId = taskSessionId

/-- The revisions of a Task are one parent chain, numbered from zero, that ends
at its Head. -/
structure ChainedTask (tables : Lineages) (task : TaskSessionRow) : Prop where
  ordinals : (tables.revisionRows task.taskSessionId).map (·.revisionOrdinal) =
    List.range (tables.revisionRows task.taskSessionId).length
  chain : ParentChain none ((tables.revisionRows task.taskSessionId).map (·.revision))
  head : (tables.revisionRows task.taskSessionId).getLast?.map (·.revisionId) =
    some task.currentIntentRevisionId

/-- Every revision belongs to a Task, every Task is chained. -/
structure Chained (tables : Lineages) : Prop where
  owned : ∀ row ∈ tables.taskIntentRevision, ∃ task ∈ tables.taskSession,
    task.taskSessionId = row.taskSessionId
  tasks : ∀ task ∈ tables.taskSession, tables.ChainedTask task

/-- A Task that an External Session can have active. -/
def Retains (tables : Lineages) (externalSessionId : ExternalSessionId)
    (taskSessionId : TaskSessionId) (taskId : TaskId) : Prop :=
  ∃ task ∈ tables.taskSession, task.externalSessionId = externalSessionId ∧
    task.taskSessionId = taskSessionId ∧ task.taskId = taskId

/-- Every External Session has one of its own Tasks active, and every Task
belongs to an External Session. -/
structure Selected (tables : Lineages) : Prop where
  active : ∀ external ∈ tables.externalSession,
    tables.Retains external.externalSessionId external.activeTaskSessionId external.activeTaskId
  sessions : ∀ task ∈ tables.taskSession, ∃ external ∈ tables.externalSession,
    external.externalSessionId = task.externalSessionId

/-- No revision or Task of one state is missing from a later one; a Task keeps
its identity and its External Session. -/
structure Grows (before after : Lineages) : Prop where
  revisions : ∀ row ∈ before.taskIntentRevision, row ∈ after.taskIntentRevision
  retains : ∀ externalSessionId taskSessionId taskId,
    before.Retains externalSessionId taskSessionId taskId →
      after.Retains externalSessionId taskSessionId taskId

theorem Grows.refl (tables : Lineages) : tables.Grows tables :=
  ⟨fun _ rowMem => rowMem, fun _ _ _ retained => retained⟩

theorem Grows.trans {first second third : Lineages} (earlier : first.Grows second)
    (later : second.Grows third) : first.Grows third where
  revisions row rowMem := later.revisions row (earlier.revisions row rowMem)
  retains _ _ _ retained := later.retains _ _ _ (earlier.retains _ _ _ retained)

theorem mem_revisionRows {tables : Lineages} {taskSessionId : TaskSessionId}
    {row : TaskIntentRevisionRow} : row ∈ tables.revisionRows taskSessionId ↔
      row ∈ tables.taskIntentRevision ∧ row.taskSessionId = taskSessionId := by
  simp [revisionRows, Table.mem_def]

/-- Reading by ordinal returns the rows in insertion order. -/
theorem ChainedTask.rows_sorted {tables : Lineages} {task : TaskSessionRow}
    (chained : tables.ChainedTask task) :
    intentRevisionRows tables task.taskSessionId = tables.revisionRows task.taskSessionId := by
  apply List.Pairwise.insertionSort_eq
  have increasing : ((tables.revisionRows task.taskSessionId).map
      (·.revisionOrdinal)).Pairwise (· < ·) := by
    rw [chained.ordinals]
    exact List.pairwise_lt_range
  exact (List.pairwise_map.mp increasing).imp fun less => le_of_lt less

theorem ChainedTask.last {tables : Lineages} {task : TaskSessionRow}
    (chained : tables.ChainedTask task) : ∃ row,
      (tables.revisionRows task.taskSessionId).getLast? = some row ∧
        row.revisionId = task.currentIntentRevisionId ∧ row ∈ tables.taskIntentRevision ∧
        row.taskSessionId = task.taskSessionId := by
  obtain ⟨row, lastEq, headEq⟩ := Option.map_eq_some_iff.mp chained.head
  have rowMem := mem_revisionRows.mp (List.mem_of_getLast? lastEq)
  exact ⟨row, lastEq, headEq, rowMem.1, rowMem.2⟩

end Lineages

/-! ### Adding a Task -/

/-- The change made by inserting a Task with its first revision. -/
structure TaskAdded (before : Lineages) (task : TaskSessionRow) (revision : TaskIntentRevision)
    (after : Lineages) : Prop where
  external : after.externalSession = before.externalSession
  sessions : after.taskSession.rows = before.taskSession.rows ++ [task]
  revisions : after.taskIntentRevision.rows =
    before.taskIntentRevision.rows ++ [⟨task.taskSessionId, 0, revision⟩]
  fresh : ∀ other ∈ before.taskSession, other.taskSessionId ≠ task.taskSessionId
  initial : revision.parentRevisionId = none
  head : task.currentIntentRevisionId = revision.revisionId

namespace TaskAdded

variable {before after : Lineages} {task : TaskSessionRow} {revision : TaskIntentRevision}
  (added : TaskAdded before task revision after)
include added

theorem mem_taskSession {other : TaskSessionRow} :
    other ∈ after.taskSession ↔ other ∈ before.taskSession ∨ other = task := by
  rw [Table.mem_def, added.sessions]
  simp [Table.mem_def]

theorem mem_taskIntentRevision {row : TaskIntentRevisionRow} :
    row ∈ after.taskIntentRevision ↔ row ∈ before.taskIntentRevision ∨
      row = ⟨task.taskSessionId, 0, revision⟩ := by
  rw [Table.mem_def, added.revisions]
  simp [Table.mem_def]

theorem grows : before.Grows after where
  revisions row rowMem := added.mem_taskIntentRevision.mpr (Or.inl rowMem)
  retains externalSessionId taskSessionId taskId retained := by
    obtain ⟨other, otherMem, identity⟩ := retained
    exact ⟨other, added.mem_taskSession.mpr (Or.inl otherMem), identity⟩

theorem retains : after.Retains task.externalSessionId task.taskSessionId task.taskId :=
  ⟨task, added.mem_taskSession.mpr (Or.inr rfl), rfl, rfl, rfl⟩

theorem revisionRows_other {taskSessionId : TaskSessionId}
    (distinct : taskSessionId ≠ task.taskSessionId) :
    after.revisionRows taskSessionId = before.revisionRows taskSessionId := by
  rw [Lineages.revisionRows, added.revisions, List.filter_append]
  simp [Lineages.revisionRows, Ne.symm distinct]

theorem revisionRows_new (chained : before.Chained) :
    after.revisionRows task.taskSessionId = [⟨task.taskSessionId, 0, revision⟩] := by
  have noneBefore : before.revisionRows task.taskSessionId = [] := by
    rw [Lineages.revisionRows, List.filter_eq_nil_iff]
    intro row rowMem sameSession
    obtain ⟨owner, ownerMem, ownerEq⟩ := chained.owned row rowMem
    exact added.fresh owner ownerMem (ownerEq.trans (of_decide_eq_true sameSession))
  rw [Lineages.revisionRows, added.revisions, List.filter_append]
  change before.revisionRows task.taskSessionId ++ _ = _
  simp [noneBefore]

theorem chained (chained : before.Chained) : after.Chained where
  owned row rowMem := by
    rcases added.mem_taskIntentRevision.mp rowMem with rowMem | rfl
    · obtain ⟨owner, ownerMem, ownerEq⟩ := chained.owned row rowMem
      exact ⟨owner, added.mem_taskSession.mpr (Or.inl ownerMem), ownerEq⟩
    · exact ⟨task, added.mem_taskSession.mpr (Or.inr rfl), rfl⟩
  tasks other otherMem := by
    rcases added.mem_taskSession.mp otherMem with otherMem | rfl
    · have rowsEq := added.revisionRows_other (added.fresh other otherMem)
      have otherChained := chained.tasks other otherMem
      exact ⟨by rw [rowsEq]; exact otherChained.ordinals,
        by rw [rowsEq]; exact otherChained.chain, by rw [rowsEq]; exact otherChained.head⟩
    · have rowsEq := added.revisionRows_new chained
      refine ⟨?_, ?_, ?_⟩
      · simp [rowsEq, List.range_succ]
      · rw [rowsEq]
        exact ⟨added.initial, trivial⟩
      · rw [rowsEq, added.head]
        rfl

end TaskAdded

/-! ### Appending a revision -/

/-- The change made by appending a successor of the Head of a Task. -/
structure RevisionAppended (before : Lineages) (task : TaskSessionRow)
    (revision : TaskIntentRevision) (after : Lineages) : Prop where
  external : after.externalSession = before.externalSession
  taskMem : task ∈ before.taskSession
  sessions : ∀ other, other ∈ after.taskSession ↔
    (other ∈ before.taskSession ∧ other.taskSessionId ≠ task.taskSessionId) ∨
      other = { task with currentIntentRevisionId := revision.revisionId }
  revisions : ∃ ordinal row, row ∈ before.taskIntentRevision ∧
    row.revisionId = task.currentIntentRevisionId ∧ ordinal = row.revisionOrdinal + 1 ∧
    after.taskIntentRevision.rows =
      before.taskIntentRevision.rows ++ [⟨task.taskSessionId, ordinal, revision⟩]
  parent : revision.parentRevisionId = some task.currentIntentRevisionId

namespace RevisionAppended

variable {before after : Lineages} {task : TaskSessionRow} {revision : TaskIntentRevision}
  (appended : RevisionAppended before task revision after)
include appended

theorem grows : before.Grows after where
  revisions row rowMem := by
    obtain ⟨_, _, _, _, _, rowsEq⟩ := appended.revisions
    rw [Table.mem_def, rowsEq]
    exact List.mem_append_left _ rowMem
  retains externalSessionId taskSessionId taskId retained := by
    obtain ⟨other, otherMem, sameExternal, sameSession, sameTask⟩ := retained
    by_cases isTask : other.taskSessionId = task.taskSessionId
    · have otherEq := Table.eq_of_key otherMem appended.taskMem isTask
      subst otherEq
      exact ⟨_, (appended.sessions _).mpr (Or.inr rfl), sameExternal, sameSession, sameTask⟩
    · exact ⟨other, (appended.sessions other).mpr (Or.inl ⟨otherMem, isTask⟩),
        sameExternal, sameSession, sameTask⟩

theorem revision_mem : ∃ row ∈ after.taskIntentRevision,
    row.taskSessionId = task.taskSessionId ∧ row.revision = revision := by
  obtain ⟨ordinal, _, _, _, _, rowsEq⟩ := appended.revisions
  refine ⟨⟨task.taskSessionId, ordinal, revision⟩, ?_, rfl, rfl⟩
  rw [Table.mem_def, rowsEq]
  simp

theorem revisionRows_other {taskSessionId : TaskSessionId}
    (distinct : taskSessionId ≠ task.taskSessionId) :
    after.revisionRows taskSessionId = before.revisionRows taskSessionId := by
  obtain ⟨_, _, _, _, _, rowsEq⟩ := appended.revisions
  rw [Lineages.revisionRows, rowsEq, List.filter_append]
  simp [Lineages.revisionRows, Ne.symm distinct]

theorem revisionRows_task (chained : before.Chained) :
    after.revisionRows task.taskSessionId = before.revisionRows task.taskSessionId ++
      [⟨task.taskSessionId, (before.revisionRows task.taskSessionId).length, revision⟩] := by
  obtain ⟨ordinal, row, rowMem, rowIsHead, ordinalEq, rowsEq⟩ := appended.revisions
  have taskChained := chained.tasks task appended.taskMem
  obtain ⟨last, lastEq, lastIsHead, lastMem, _⟩ := taskChained.last
  have rowIsLast : row = last :=
    Table.eq_of_key rowMem lastMem (rowIsHead.trans lastIsHead.symm)
  have lastOrdinal : last.revisionOrdinal + 1 =
      (before.revisionRows task.taskSessionId).length := by
    have nonempty : before.revisionRows task.taskSessionId ≠ [] := by
      intro isEmpty
      rw [isEmpty] at lastEq
      cases lastEq
    have lengthPos := List.length_pos_iff.mpr nonempty
    have mapped : ((before.revisionRows task.taskSessionId).map
        (·.revisionOrdinal)).getLast? = some last.revisionOrdinal := by
      rw [List.getLast?_map, lastEq]
      rfl
    rw [taskChained.ordinals, List.getLast?_range] at mapped
    split at mapped
    · cases mapped
    · have lastValue := Option.some.inj mapped
      omega
  rw [Lineages.revisionRows, rowsEq, List.filter_append]
  change before.revisionRows task.taskSessionId ++ _ = _
  simp [ordinalEq, rowIsLast, lastOrdinal]

theorem chained (chained : before.Chained) : after.Chained where
  owned row rowMem := by
    have ownedBefore : ∃ owner ∈ before.taskSession,
        owner.taskSessionId = row.taskSessionId := by
      obtain ⟨ordinal, _, _, _, _, rowsEq⟩ := appended.revisions
      rw [Table.mem_def, rowsEq, List.mem_append] at rowMem
      rcases rowMem with rowMem | rowMem
      · exact chained.owned row rowMem
      · cases List.mem_singleton.mp rowMem
        exact ⟨task, appended.taskMem, rfl⟩
    obtain ⟨owner, ownerMem, ownerEq⟩ := ownedBefore
    by_cases isTask : owner.taskSessionId = task.taskSessionId
    · exact ⟨_, (appended.sessions _).mpr (Or.inr rfl), isTask.symm.trans ownerEq⟩
    · exact ⟨owner, (appended.sessions owner).mpr (Or.inl ⟨ownerMem, isTask⟩), ownerEq⟩
  tasks other otherMem := by
    rcases (appended.sessions other).mp otherMem with ⟨otherMem, distinct⟩ | rfl
    · have rowsEq := appended.revisionRows_other distinct
      have otherChained := chained.tasks other otherMem
      exact ⟨by rw [rowsEq]; exact otherChained.ordinals,
        by rw [rowsEq]; exact otherChained.chain, by rw [rowsEq]; exact otherChained.head⟩
    · have taskChained := chained.tasks task appended.taskMem
      have rowsEq := appended.revisionRows_task chained
      obtain ⟨last, lastEq, lastIsHead, _, _⟩ := taskChained.last
      refine ⟨?_, ?_, ?_⟩
      · change (after.revisionRows task.taskSessionId).map _ =
          List.range (after.revisionRows task.taskSessionId).length
        rw [rowsEq, List.map_append, taskChained.ordinals, List.length_append]
        simp [List.range_succ]
      · change ParentChain none ((after.revisionRows task.taskSessionId).map _)
        rw [rowsEq, List.map_append]
        apply taskChained.chain.append
        rw [List.getLast?_map, lastEq]
        simpa [TaskIntentRevisionRow.revisionId, ← lastIsHead] using appended.parent
      · change (after.revisionRows task.taskSessionId).getLast?.map _ = _
        rw [rowsEq, List.getLast?_concat]
        rfl

end RevisionAppended

end SharedContext
