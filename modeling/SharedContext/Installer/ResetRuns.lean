import SharedContext.Installer.ResetSafety

/-!
# Runs of data reset

Every target waits with its original in place, is emptied, and is installed.
The reset moves the targets through these states one by one, and wherever it
stops recovery ends with all originals or with all pristine targets.
-/

namespace SharedContext.Installer

open Interruptible

variable {α : Type} {surroundings : ResetSurroundings α} {fails : Nat → Option Error}
  {initial : String → Option α}

theorem resetRelativeTargets_nodup : resetRelativeTargets.Nodup := by
  decide

/-! ### The states of a target -/

def Waiting (surroundings : ResetSurroundings α) (initial : String → Option α)
    (disk : ResetDisk α) (target : String) : Prop :=
  disk.active target = initial target ∧ disk.backup target = none ∧
    disk.staged target = surroundings.pristine target

def Emptied (surroundings : ResetSurroundings α) (initial : String → Option α)
    (disk : ResetDisk α) (target : String) : Prop :=
  disk.active target = none ∧ disk.backup target = initial target ∧
    disk.staged target = surroundings.pristine target

def Installed (surroundings : ResetSurroundings α) (initial : String → Option α)
    (disk : ResetDisk α) (target : String) : Prop :=
  disk.active target = surroundings.pristine target ∧ disk.backup target = initial target

theorem kept_of_backup {disk : ResetDisk α} {target : String}
    (inBackup : disk.backup target = initial target) : Kept initial disk target := by
  cases isOriginal : (initial target).isSome with
  | true => exact .inl ⟨inBackup, isOriginal⟩
  | false =>
      refine .inr ⟨?_, fun present => ?_⟩
      · rw [inBackup]
        exact Option.isNone_iff_eq_none.mp (Option.isSome_eq_false_iff.mp isOriginal)
      · cases present.symm.trans isOriginal

theorem Waiting.kept {disk : ResetDisk α} {target : String}
    (waiting : Waiting surroundings initial disk target) : Kept initial disk target :=
  .inr ⟨waiting.2.1, fun _ => waiting.1⟩

/-- All targets but that of an entry: those left wait, the others are installed. -/
def Others (surroundings : ResetSurroundings α) (initial : String → Option α)
    (entry : ResetEntry) (rest : List ResetEntry) (disk : ResetDisk α) : Prop :=
  ∀ target ∈ resetRelativeTargets, target ≠ entry.target →
    (target ∈ rest.map ResetEntry.target → Waiting surroundings initial disk target) ∧
      (target ∉ rest.map ResetEntry.target → Installed surroundings initial disk target)

/-- The targets of the entries left wait, the others are installed. -/
def Swapping (surroundings : ResetSurroundings α) (initial : String → Option α)
    (left : List ResetEntry) (disk : ResetDisk α) : Prop :=
  ∀ target ∈ resetRelativeTargets,
    (target ∈ left.map ResetEntry.target → Waiting surroundings initial disk target) ∧
      (target ∉ left.map ResetEntry.target → Installed surroundings initial disk target)

theorem Swapping.others {entry : ResetEntry} {rest : List ResetEntry} {disk : ResetDisk α}
    (swapping : Swapping surroundings initial (entry :: rest) disk) :
    Others surroundings initial entry rest disk := by
  intro target member different
  obtain ⟨waits, installed⟩ := swapping target member
  refine ⟨fun isLeft => waits (List.mem_cons_of_mem _ isLeft), fun notLeft => installed ?_⟩
  rw [List.map_cons, List.mem_cons, not_or]
  exact ⟨different, notLeft⟩

theorem Others.swapping {entry : ResetEntry} {rest : List ResetEntry} {disk : ResetDisk α}
    (others : Others surroundings initial entry rest disk)
    (once : entry.target ∉ rest.map ResetEntry.target)
    (installed : Installed surroundings initial disk entry.target) :
    Swapping surroundings initial rest disk := by
  intro target member
  by_cases same : target = entry.target
  · rw [same]
    exact ⟨fun isLeft => absurd isLeft once, fun _ => installed⟩
  · exact others target member same

theorem Others.frame {entry : ResetEntry} {rest : List ResetEntry} {disk next : ResetDisk α}
    (others : Others surroundings initial entry rest disk)
    (elsewhere : ∀ target, target ≠ entry.target → next.active target = disk.active target ∧
      next.backup target = disk.backup target ∧ next.staged target = disk.staged target) :
    Others surroundings initial entry rest next := by
  intro target member different
  obtain ⟨sameActive, sameBackup, sameStaged⟩ := elsewhere target different
  rw [Waiting, Installed, sameActive, sameBackup, sameStaged]
  exact others target member different

theorem Others.kept {entry : ResetEntry} {rest : List ResetEntry} {disk : ResetDisk α}
    (others : Others surroundings initial entry rest disk)
    (here : Kept initial disk entry.target) :
    ∀ target ∈ resetRelativeTargets, Kept initial disk target := by
  intro target member
  by_cases same : target = entry.target
  · rw [same]
    exact here
  · obtain ⟨waits, installed⟩ := others target member same
    by_cases isLeft : target ∈ rest.map ResetEntry.target
    · exact (waits isLeft).kept
    · exact kept_of_backup (installed isLeft).2

/-! ### Operations under the marker -/

theorem timeless_replaced : Timeless (Replaced surroundings initial) :=
  fun _ _ replaced => ⟨replaced.finished, replaced.active, replaced.backup⟩

theorem timeless_stopped : Timeless (Stopped surroundings initial) :=
  fun disk clock stopped => stopped.imp (timeless_untouched disk clock)
    (Or.imp (timeless_recoverable disk clock) (timeless_replaced disk clock))

/-- A recoverable disk in some phase of the reset. -/
def Marked (surroundings : ResetSurroundings α) (initial : String → Option α)
    (phase : ResetDisk α → Prop) (disk : ResetDisk α) : Prop :=
  Recoverable surroundings initial disk ∧ phase disk

theorem Timeless.marked {phase : ResetDisk α → Prop} (timeless : Timeless phase) :
    Timeless (Marked surroundings initial phase) :=
  fun disk clock marked => ⟨timeless_recoverable disk clock marked.1, timeless disk clock marked.2⟩

section Marker

variable {phase next : ResetDisk α → Prop}

theorem maintains_marked (timeless : Timeless next) {step : ResetDisk α → ResetDisk α}
    (sameMarker : ∀ disk, (step disk).marker = disk.marker)
    (stepped : ∀ disk, Recoverable surroundings initial disk → phase disk →
      (∀ target ∈ resetRelativeTargets, Kept initial (step disk) target) ∧ next (step disk)) :
    Maintains (Stopped surroundings initial) True (Marked surroundings initial phase)
      (fileOperation fails step) fun _ => Marked surroundings initial next := by
  refine maintains_fileOperation timeless_stopped (fun _ => trivial) ?_
  rintro disk - ⟨recoverable, started⟩
  obtain ⟨kept, reached⟩ := stepped disk recoverable started
  have stays : Recoverable surroundings initial (step disk) := by
    refine ⟨?_, kept, recoverable.noLinks⟩
    rw [sameMarker]
    exact recoverable.marker
  have marked : Marked surroundings initial next (step disk).tick :=
    timeless.marked (step disk) _ ⟨stays, reached⟩
  exact ⟨.inr (.inl marked.1), marked⟩

theorem maintains_waits (timeless : Timeless phase) :
    Maintains (Stopped surroundings initial) True (Marked surroundings initial phase)
      (otherOperation fails) fun _ => Marked surroundings initial phase :=
  maintains_otherOperation timeless_stopped (fun _ => trivial) timeless.marked

/-- A phase that the journal, the marker and the clock do not decide. -/
def Unjournaled (phase : ResetDisk α → Prop) : Prop :=
  ∀ disk journal marker clock, phase disk →
    phase { disk with journal := journal, marker := marker, clock := clock }

theorem Unjournaled.timeless (unjournaled : Unjournaled phase) : Timeless phase :=
  fun disk clock started => unjournaled disk disk.journal disk.marker clock started

theorem maintains_persistMarked {journal : DataResetJournal}
    (describes : Describes surroundings initial journal) (unjournaled : Unjournaled phase) :
    Maintains (Stopped surroundings initial) True (Marked surroundings initial phase)
      (persistResetJournal surroundings fails journal true)
      fun _ => Marked surroundings initial phase := by
  have timeless : Timeless (Marked surroundings initial phase) := unjournaled.timeless.marked
  refine maintains_persistMarker timeless_stopped (fun _ => trivial) describes.valid timeless
    timeless timeless ?_ ?_
  · rintro disk - ⟨recoverable, started⟩
    have stays := recoverable.withJournal (some journal)
    exact ⟨.inr (.inl stays), stays, unjournaled disk _ disk.marker disk.clock started⟩
  · rintro disk - ⟨recoverable, started⟩
    have stays : Recoverable surroundings initial { disk with marker := some journal } :=
      ⟨⟨journal, rfl, describes⟩, recoverable.kept, recoverable.noLinks⟩
    exact ⟨.inr (.inl stays), stays, unjournaled disk disk.journal _ disk.clock started⟩

end Marker

/-! ### Swapping the targets -/

section Swap

variable {entry : ResetEntry} {rest : List ResetEntry}

theorem maintains_swapOriginal (rest : List ResetEntry)
    (present : entry.originalPresent = (initial entry.target).isSome) :
    Maintains (Stopped surroundings initial) True
      (Marked surroundings initial fun disk => Others surroundings initial entry rest disk ∧
        Waiting surroundings initial disk entry.target)
      (swapOriginal fails entry)
      fun _ => Marked surroundings initial fun disk =>
        Others surroundings initial entry rest disk ∧
          Emptied surroundings initial disk entry.target := by
  have waitTime : Timeless fun disk => Others surroundings initial entry rest disk ∧
      Waiting surroundings initial disk entry.target := fun _ _ started => started
  have emptyTime : Timeless fun disk => Others surroundings initial entry rest disk ∧
      Emptied surroundings initial disk entry.target := fun _ _ started => started
  unfold swapOriginal
  cases isOriginal : entry.originalPresent with
  | true =>
      refine maintains_bind _ (maintains_waits waitTime) fun _ => ?_
      refine maintains_bind _ ?_ fun _ =>
        maintains_bind _ (maintains_waits emptyTime) fun _ => maintains_waits emptyTime
      refine maintains_marked emptyTime (fun _ => rfl) ?_
      rintro disk - ⟨others, inPlace, notBackup, staged⟩
      have emptied : Emptied surroundings initial (moveToBackup entry.target disk)
          entry.target :=
        ⟨Function.update_self _ _ _, (Function.update_self _ _ _).trans inPlace, staged⟩
      have moved : Others surroundings initial entry rest (moveToBackup entry.target disk) :=
        others.frame fun target different =>
          ⟨Function.update_of_ne different _ _, Function.update_of_ne different _ _, rfl⟩
      exact ⟨moved.kept (kept_of_backup emptied.2.1), moved, emptied⟩
  | false =>
      have absent : initial entry.target = none :=
        Option.isNone_iff_eq_none.mp
          (Option.isSome_eq_false_iff.mp (present.symm.trans isOriginal))
      refine maintains_pure ?_
      rintro disk ⟨recoverable, others, inPlace, notBackup, staged⟩
      exact ⟨recoverable, others, inPlace.trans absent, notBackup.trans absent.symm, staged⟩

theorem maintains_swapStaged
    (present : entry.stagedPresent = (surroundings.pristine entry.target).isSome) :
    Maintains (Stopped surroundings initial) True
      (Marked surroundings initial fun disk => Others surroundings initial entry rest disk ∧
        Emptied surroundings initial disk entry.target)
      (swapStaged fails entry)
      fun _ => Marked surroundings initial fun disk =>
        Others surroundings initial entry rest disk ∧
          Installed surroundings initial disk entry.target := by
  have emptyTime : Timeless fun disk => Others surroundings initial entry rest disk ∧
      Emptied surroundings initial disk entry.target := fun _ _ started => started
  have installTime : Timeless fun disk => Others surroundings initial entry rest disk ∧
      Installed surroundings initial disk entry.target := fun _ _ started => started
  unfold swapStaged
  cases isStaged : entry.stagedPresent with
  | true =>
      refine maintains_bind _ (maintains_waits emptyTime) fun _ => ?_
      refine maintains_bind _ ?_ fun _ =>
        maintains_bind _ (maintains_waits installTime) fun _ => maintains_waits installTime
      refine maintains_marked installTime (fun _ => rfl) ?_
      rintro disk - ⟨others, -, inBackup, staged⟩
      have installed : Installed surroundings initial (installStaged entry.target disk)
          entry.target :=
        ⟨(Function.update_self _ _ _).trans staged, inBackup⟩
      have moved : Others surroundings initial entry rest (installStaged entry.target disk) :=
        others.frame fun target different =>
          ⟨Function.update_of_ne different _ _, rfl, Function.update_of_ne different _ _⟩
      exact ⟨moved.kept (kept_of_backup inBackup), moved, installed⟩
  | false =>
      have absent : surroundings.pristine entry.target = none :=
        Option.isNone_iff_eq_none.mp
          (Option.isSome_eq_false_iff.mp (present.symm.trans isStaged))
      refine maintains_pure ?_
      rintro disk ⟨recoverable, others, empty, inBackup, -⟩
      exact ⟨recoverable, others, empty.trans absent.symm, inBackup⟩

end Swap

/-- What the entries of a reset say about its targets. -/
structure EntryFacts (surroundings : ResetSurroundings α) (initial : String → Option α)
    (entry : ResetEntry) : Prop where
  original : entry.originalPresent = (initial entry.target).isSome
  staged : entry.stagedPresent = (surroundings.pristine entry.target).isSome

theorem Describes.advance {journal : DataResetJournal}
    (describes : Describes surroundings initial journal) (phase : String) (applied : Nat)
    (bounded : applied ≤ journal.entries.length) :
    Describes surroundings initial { journal with appliedEntries := applied, phase := phase } := by
  refine ⟨?_, describes.incomplete, describes.present⟩
  have valid := describes.valid
  simp only [validateResetJournal, Result.bind_eq_ok, Result.exists_unit,
    Result.require_eq_ok] at valid ⊢
  exact ⟨valid.1, valid.2.1, valid.2.2.1, valid.2.2.2.1, valid.2.2.2.2.1, bounded⟩

theorem Describes.applied_le {journal : DataResetJournal}
    (describes : Describes surroundings initial journal) :
    journal.appliedEntries ≤ journal.entries.length := by
  have valid := describes.valid
  simp only [validateResetJournal, Result.bind_eq_ok, Result.exists_unit,
    Result.require_eq_ok] at valid
  exact valid.2.2.2.2.2

theorem unjournaled_swapping {left : List ResetEntry} :
    Unjournaled (Swapping surroundings initial left) :=
  fun _ _ _ _ started => started

theorem maintains_persistFirst {phase : ResetDisk α → Prop} {journal : DataResetJournal}
    (describes : Describes surroundings initial journal) (unjournaled : Unjournaled phase)
    (index : Nat) (name : String) :
    Maintains (Stopped surroundings initial) True (Marked surroundings initial phase)
      (persistFirst surroundings fails journal index name)
      fun _ => Marked surroundings initial phase := by
  unfold persistFirst
  split
  · exact maintains_persistMarked (describes.advance name _ describes.applied_le) unjournaled
  · exact maintains_pure fun _ => id

theorem maintains_swapEntries {left : List ResetEntry} {journal : DataResetJournal} {index : Nat}
    (describes : Describes surroundings initial journal)
    (facts : ∀ entry ∈ left, EntryFacts surroundings initial entry)
    (targets : ∀ entry ∈ left, entry.target ∈ resetRelativeTargets)
    (distinct : (left.map ResetEntry.target).Nodup)
    (bounded : index + left.length = journal.entries.length) :
    Maintains (Stopped surroundings initial) True
      (Marked surroundings initial (Swapping surroundings initial left))
      (swapEntries surroundings fails journal index left)
      fun _ => Marked surroundings initial (Swapping surroundings initial []) := by
  induction left generalizing journal index with
  | nil => exact maintains_pure fun _ => id
  | cons entry rest ih =>
      obtain ⟨once, restDistinct⟩ := List.nodup_cons.mp distinct
      have here := facts entry List.mem_cons_self
      rw [List.length_cons] at bounded
      have advanced := describes.advance s!"applied_{index + 1}" (index + 1) (by omega)
      refine maintains_bind _ ((maintains_swapOriginal rest here.original).weaken ?_
        fun _ _ => id) fun _ => ?_
      · rintro disk ⟨recoverable, swapping⟩
        exact ⟨recoverable, swapping.others,
          (swapping _ (targets entry List.mem_cons_self)).1 List.mem_cons_self⟩
      refine maintains_bind _ (maintains_persistFirst describes
        (fun _ _ _ _ started => started) _ _) fun _ => ?_
      refine maintains_bind _ (maintains_swapStaged here.staged) fun _ => ?_
      refine maintains_bind _ (maintains_persistFirst describes
        (fun _ _ _ _ started => started) _ _) fun _ => ?_
      refine maintains_bind
        (fun _ => Marked surroundings initial (Swapping surroundings initial rest))
        ((maintains_persistMarked advanced unjournaled_swapping).weaken ?_ fun _ _ => id)
        fun _ => ?_
      · exact fun disk started =>
          ⟨started.1, started.2.1.swapping once started.2.2⟩
      · exact ih advanced (fun other member => facts other (List.mem_cons_of_mem _ member))
          (fun other member => targets other (List.mem_cons_of_mem _ member)) restDistinct
          (by change index + 1 + rest.length = journal.entries.length; omega)

/-! ### Before the marker -/

/-- Nothing is moved yet, and there is no marker. -/
structure Fresh (initial : String → Option α) (disk : ResetDisk α) : Prop where
  marker : disk.marker = none
  unfinished : ∀ journal, disk.journal = some journal → journal.phase ≠ "complete"
  active : ∀ target ∈ resetRelativeTargets, disk.active target = initial target
  backup : ∀ target ∈ resetRelativeTargets, disk.backup target = none

theorem Fresh.untouched {disk : ResetDisk α} (fresh : Fresh initial disk) :
    Untouched initial disk := by
  refine ⟨fresh.marker, ?_, fresh.active⟩
  rintro ⟨-, journal, isJournal, isComplete⟩
  exact fresh.unfinished journal isJournal isComplete

/-- The staging is built, apart from the targets left. -/
def Staging (surroundings : ResetSurroundings α) (initial : String → Option α)
    (left : List String) (disk : ResetDisk α) : Prop :=
  Fresh initial disk ∧ ∀ target ∈ resetRelativeTargets, target ∉ left →
    disk.staged target = surroundings.pristine target

theorem timeless_fresh : Timeless (Fresh (α := α) initial) :=
  fun _ _ fresh => ⟨fresh.marker, fresh.unfinished, fresh.active, fresh.backup⟩

theorem timeless_staging {left : List String} :
    Timeless (Staging surroundings initial left) :=
  fun disk clock staging => ⟨timeless_fresh disk clock staging.1, staging.2⟩

theorem maintains_stage :
    Maintains (Stopped surroundings initial) True (Fresh initial)
      (forEach resetRelativeTargets fun target =>
        fileOperation fails fun disk =>
          { disk with
            staged := Function.update disk.staged target (surroundings.pristine target) })
      fun _ => Staging surroundings initial [] := by
  refine (maintains_forEach (Staging surroundings initial) fun target _ rest => ?_).weaken
    (fun disk fresh => ⟨fresh, fun target member notLeft => absurd member notLeft⟩)
    fun _ _ => id
  refine maintains_fileOperation timeless_stopped (fun _ => trivial) ?_
  rintro disk - ⟨fresh, staged⟩
  have kept : Fresh initial ({ disk with
      staged := Function.update disk.staged target (surroundings.pristine target) } :
        ResetDisk α).tick :=
    ⟨fresh.marker, fresh.unfinished, fresh.active, fresh.backup⟩
  refine ⟨.inl kept.untouched, kept, fun other member notLeft => ?_⟩
  change Function.update disk.staged target _ other = _
  by_cases same : other = target
  · rw [same, Function.update_self]
  · rw [Function.update_of_ne same]
    refine staged other member ?_
    rw [List.mem_cons, not_or]
    exact ⟨same, notLeft⟩

/-- An entry describes its target. -/
structure Entered (surroundings : ResetSurroundings α) (initial : String → Option α)
    (target : String) (entry : ResetEntry) : Prop where
  sameTarget : entry.target = target
  facts : EntryFacts surroundings initial entry
  noLink : ∀ node, initial target = some node → surroundings.kind node ≠ .symlink

theorem ensures_buildEntries :
    Ensures (Staging surroundings initial [])
      (gather resetRelativeTargets (buildResetEntry surroundings))
      (fun entries disk => Staging surroundings initial [] disk ∧
        List.Forall₂ (Entered surroundings initial) resetRelativeTargets entries)
      (fun _ => Staging surroundings initial []) (Staging surroundings initial []) := by
  refine ensures_gather_results fun target member => ?_
  refine ensures_bind _ (ensures_inspect fun _ _ started _ => started) fun original => ?_
  refine ensures_bind _ (ensures_inspect fun _ _ started _ => started.1) fun staged => ?_
  refine ensures_pure ?_
  rintro disk ⟨⟨staging, isOriginal⟩, isStaged⟩
  obtain ⟨present, noLink⟩ := nodePresent_eq_ok.mp isOriginal
  obtain ⟨stagedPresent, -⟩ := nodePresent_eq_ok.mp isStaged
  beta_reduce at present noLink stagedPresent
  rw [staging.1.active target member] at present noLink
  rw [staging.2 target member List.not_mem_nil] at stagedPresent
  exact ⟨staging, rfl, ⟨present.symm, stagedPresent.symm⟩, noLink⟩

theorem targets_of_entered {targets : List String} {entries : List ResetEntry}
    (entered : List.Forall₂ (Entered surroundings initial) targets entries) :
    entries.map ResetEntry.target = targets := by
  induction entered with
  | nil => rfl
  | cons here _ ih => rw [List.map_cons, here.sameTarget, ih]

theorem facts_of_entered {targets : List String} {entries : List ResetEntry}
    (entered : List.Forall₂ (Entered surroundings initial) targets entries) :
    ∀ entry ∈ entries, EntryFacts surroundings initial entry := by
  induction entered with
  | nil => exact fun entry member => absurd member List.not_mem_nil
  | cons here _ ih => exact List.forall_mem_cons.mpr ⟨here.facts, ih⟩

theorem noLinks_of_entered {targets : List String} {entries : List ResetEntry}
    (entered : List.Forall₂ (Entered surroundings initial) targets entries) :
    ∀ target ∈ targets, ∀ node, initial target = some node →
      surroundings.kind node ≠ .symlink := by
  induction entered with
  | nil => exact fun target member => absurd member List.not_mem_nil
  | cons here _ ih => exact List.forall_mem_cons.mpr ⟨here.noLink, ih⟩

def preparedJournal (surroundings : ResetSurroundings α) (entries : List ResetEntry) :
    DataResetJournal where
  version := resetJournalVersion
  id := "reset-" ++ surroundings.newUuid
  phase := "prepared"
  complete := false
  appliedEntries := 0
  entries := entries

theorem describes_prepared {entries : List ResetEntry}
    (entered : List.Forall₂ (Entered surroundings initial) resetRelativeTargets entries) :
    Describes surroundings initial (preparedJournal surroundings entries) := by
  refine ⟨?_, rfl, fun entry member => (facts_of_entered entered entry member).original⟩
  have sameTargets := targets_of_entered entered
  simp only [validateResetJournal, Result.bind_eq_ok, Result.exists_unit,
    Result.require_eq_ok]
  have isId : (preparedJournal surroundings entries).id.toList =
      "reset-".toList ++ surroundings.newUuid.toList := String.toList_append
  refine ⟨rfl, ?_, ?_, ?_, sameTargets, Nat.zero_le _⟩
  · rw [isId]
    exact List.isPrefixOf_iff_prefix.mpr (List.prefix_append _ _)
  · rw [isId, List.drop_left' (by decide), String.ofList_toList]
    exact surroundings.newUuidLaw
  · rw [← sameTargets, List.length_map]
    rfl

theorem maintains_persistPrepared {entries : List ResetEntry}
    (entered : List.Forall₂ (Entered surroundings initial) resetRelativeTargets entries) :
    Maintains (Stopped surroundings initial) True (Staging surroundings initial [])
      (persistResetJournal surroundings fails (preparedJournal surroundings entries) true)
      fun _ => Marked surroundings initial (Swapping surroundings initial entries) := by
  have describes := describes_prepared entered
  have timeless : Timeless (Staging surroundings initial []) := timeless_staging
  refine maintains_persistMarker timeless_stopped (fun _ => trivial) describes.valid
    timeless timeless
    (Timeless.marked fun _ _ started => started) ?_ ?_
  · rintro disk - ⟨fresh, staged⟩
    have kept : Fresh initial
        { disk with journal := some (preparedJournal surroundings entries) } := by
      refine ⟨fresh.marker, fun journal isJournal => ?_, fresh.active, fresh.backup⟩
      cases isJournal
      change "prepared" ≠ "complete"
      decide
    exact ⟨.inl kept.untouched, kept, staged⟩
  · rintro disk - ⟨fresh, staged⟩
    have waiting : ∀ target ∈ resetRelativeTargets,
        Waiting surroundings initial disk target := fun target member =>
      ⟨fresh.active target member, fresh.backup target member,
        staged target member List.not_mem_nil⟩
    have recoverable : Recoverable surroundings initial
        { disk with marker := some (preparedJournal surroundings entries) } :=
      ⟨⟨_, rfl, describes⟩, fun target member => (waiting target member).kept,
        noLinks_of_entered entered⟩
    refine ⟨.inr (.inl recoverable), recoverable, fun target member =>
      ⟨fun _ => waiting target member, fun notLeft => ?_⟩⟩
    rw [targets_of_entered entered] at notLeft
    exact absurd member notLeft

/-! ### After the swap -/

theorem smoked_congr {writes : List (String × Option α)} {first second : String → Option α}
    {target : String} (same : first target = second target) :
    smoked writes first target = smoked writes second target := by
  induction writes generalizing first second with
  | nil => exact same
  | cons write rest ih =>
      refine ih ?_
      change Function.update first write.1 write.2 target =
        Function.update second write.1 write.2 target
      by_cases here : target = write.1
      · rw [here, Function.update_self, Function.update_self]
      · rw [Function.update_of_ne here, Function.update_of_ne here, same]

/-- The writes left turn the active targets into the pristine ones. -/
def Smoking (surroundings : ResetSurroundings α) (initial : String → Option α)
    (left : List (String × Option α)) (disk : ResetDisk α) : Prop :=
  ∀ target ∈ resetRelativeTargets, disk.backup target = initial target ∧
    smoked left disk.active target = smoked surroundings.smoke surroundings.pristine target

theorem unjournaled_smoking {left : List (String × Option α)} :
    Unjournaled (Smoking surroundings initial left) :=
  fun _ _ _ _ started => started

theorem maintains_smoke :
    Maintains (Stopped surroundings initial) True
      (Marked surroundings initial (Swapping surroundings initial []))
      (forEach surroundings.smoke fun (target, node) =>
        fileOperation fails (setActive target node))
      fun _ => Marked surroundings initial (Smoking surroundings initial []) := by
  refine (maintains_forEach (fun left => Marked surroundings initial
    (Smoking surroundings initial left)) fun write _ rest => ?_).weaken ?_ fun _ _ => id
  · refine maintains_marked (unjournaled_smoking.timeless) (fun _ => rfl) ?_
    rintro disk - smoking
    exact ⟨fun target member => kept_of_backup (smoking target member).1, smoking⟩
  · rintro disk ⟨recoverable, swapping⟩
    refine ⟨recoverable, fun target member => ?_⟩
    obtain ⟨inPlace, inBackup⟩ := (swapping target member).2 List.not_mem_nil
    exact ⟨inBackup, smoked_congr inPlace⟩

/-- The last journal is written; only the marker is left. -/
def Completed (surroundings : ResetSurroundings α) (initial : String → Option α)
    (disk : ResetDisk α) : Prop :=
  Smoking surroundings initial [] disk ∧
    ∃ journal, disk.journal = some journal ∧ journal.phase = "complete"

theorem maintains_removeMarker_completed :
    Maintains (Stopped surroundings initial) True
      (Marked surroundings initial (Completed surroundings initial))
      (removeResetMarker fails) fun _ => Replaced surroundings initial := by
  refine maintains_bind _ (maintains_inspect fun _ _ _ _ => nofun) fun marker => ?_
  cases marker with
  | none =>
      refine maintains_pure ?_
      rintro disk ⟨⟨⟨⟨journal, isMarker, -⟩, -, -⟩, -⟩, isRead⟩
      cases isMarker.symm.trans (Except.ok.inj isRead)
  | some journal =>
      refine maintains_bind (fun _ => Replaced surroundings initial) ?_ fun _ =>
        maintains_otherOperation timeless_stopped (fun _ => trivial) timeless_replaced
      refine maintains_fileOperation timeless_stopped (fun _ => trivial) ?_
      rintro disk - ⟨⟨-, smoking, last⟩, -⟩
      have replaced : Replaced surroundings initial
          ({ disk with marker := none } : ResetDisk α).tick :=
        ⟨⟨rfl, last⟩, fun target member => (smoking target member).2,
          fun target member => (smoking target member).1⟩
      exact ⟨.inr (.inr replaced), replaced⟩

/-! ### The whole reset -/

theorem maintains_resetDataLocked :
    Maintains (Stopped surroundings initial) True (Fresh initial)
      (resetDataLocked surroundings fails) fun _ => Replaced surroundings initial := by
  have waits : Maintains (Stopped surroundings initial) True (Fresh initial)
      (otherOperation fails) fun _ => Fresh initial :=
    maintains_otherOperation timeless_stopped (fun _ => trivial) timeless_fresh
  refine maintains_bind (fun _ => Fresh initial) ?_ fun _ => ?_
  · refine maintains_forEach (fun _ => Fresh initial) fun target _ rest => ?_
    exact (maintains_inspect fun _ _ _ _ _ => trivial).weaken (fun _ => id)
      fun _ _ ended => ended.1
  refine maintains_bind _ waits fun _ => maintains_bind _ waits fun _ => ?_
  refine maintains_bind _ maintains_stage fun _ => ?_
  refine maintains_bind (fun entries disk => Staging surroundings initial [] disk ∧
    List.Forall₂ (Entered surroundings initial) resetRelativeTargets entries) ?_ fun entries => ?_
  · exact ensures_buildEntries.weaken (fun _ started => started.2)
      (fun _ _ ended => ⟨.inl ended.1.1.untouched, ended⟩)
      (fun _ _ ended => ⟨trivial, .inl ended.1.untouched⟩) fun _ ended => .inl ended.1.untouched
  refine maintains_of_before (fun _ started => started.2) fun entered => ?_
  have describes := describes_prepared entered
  have sameTargets := targets_of_entered entered
  refine maintains_bind (fun _ => Marked surroundings initial
      (Swapping surroundings initial entries))
    ((maintains_persistPrepared entered).weaken (fun _ started => started.1) fun _ _ => id)
    fun _ => ?_
  refine maintains_bind _ (maintains_swapEntries describes (facts_of_entered entered)
    (fun entry member => describes.target_mem member) ?_ (Nat.zero_add _)) fun _ => ?_
  · rw [sameTargets]
    exact resetRelativeTargets_nodup
  refine maintains_bind _ (maintains_persistMarked
    (describes.advance "swapped" _ (Nat.le_refl entries.length)) unjournaled_swapping) fun _ => ?_
  refine maintains_bind _ maintains_smoke fun _ => ?_
  refine maintains_bind _ (maintains_waits unjournaled_smoking.timeless) fun _ => ?_
  refine maintains_bind _ (maintains_persistMarked
    (describes.advance "smoke_tested" _ (Nat.le_refl entries.length)) unjournaled_smoking)
    fun _ => ?_
  refine maintains_bind (fun _ => Marked surroundings initial (Completed surroundings initial))
    ?_ fun _ => maintains_bind _ maintains_removeMarker_completed fun _ => maintains_pure fun _ => id
  have valid := (describes.advance "complete" _ (Nat.le_refl entries.length)).valid
  refine maintains_persistBackup timeless_stopped (fun _ => trivial) valid
    unjournaled_smoking.timeless.marked (Timeless.marked fun _ _ started => started) ?_
  rintro disk - ⟨recoverable, smoking⟩
  have kept := recoverable.withJournal (some { preparedJournal surroundings entries with
    appliedEntries := entries.length, phase := "complete", complete := true })
  exact ⟨.inr (.inl kept), kept, smoking, _, rfl, rfl⟩

/-! ### Stopping and recovering -/

theorem maintains_recover_unmarked {invariant : ResetDisk α → Prop} (phase : ResetDisk α → Prop)
    (mayRefuse : Prop)
    (unmarked : ∀ disk, phase disk → disk.marker = none) :
    Maintains invariant mayRefuse phase (recoverIncompleteDataReset surroundings fails)
      fun _ => phase := by
  refine maintains_bind _ (maintains_inspect fun _ _ _ _ => nofun) fun marker => ?_
  cases marker with
  | none => exact maintains_pure fun _ started => started.1
  | some journal =>
      refine ensures_of_before ?_ False.elim
      rintro disk ⟨-, started, isRead⟩
      cases (unmarked disk started).symm.trans (Except.ok.inj isRead)

theorem Recoverable.not_finished {disk : ResetDisk α}
    (recoverable : Recoverable surroundings initial disk) : ¬ disk.finished := by
  obtain ⟨journal, isMarker, -⟩ := recoverable.marker
  rintro ⟨noMarker, -⟩
  cases isMarker.symm.trans noMarker

theorem ensures_recover :
    Ensures (Stopped surroundings initial) (recoverIncompleteDataReset surroundings fails)
      (fun _ => Stopped surroundings initial) (fun _ => Stopped surroundings initial)
      (Stopped surroundings initial) := by
  refine ensures_of_start fun start stopped => ?_
  rcases stopped with untouched | recoverable | replaced
  · have ensured : Maintains (Untouched initial) True (Untouched initial)
        (recoverIncompleteDataReset surroundings fails) fun _ => Untouched initial :=
      maintains_recover_unmarked _ _ fun _ started => started.marker
    refine Ensures.weaken ensured (fun _ same => same ▸ ⟨untouched, untouched⟩)
      (fun _ _ ended => .inl ended.1) (fun _ _ ended => .inl ended.2) fun _ => .inl
  · have ensured : Maintains (Undoing surroundings initial) True (Recoverable surroundings initial)
        (recoverIncompleteDataReset surroundings fails) fun _ => Untouched initial :=
      maintains_recover fun _ => trivial
    have widens : ∀ disk, Undoing surroundings initial disk → Stopped surroundings initial disk :=
      fun _ undoing => undoing.elim (fun stays => .inr (.inl stays)) .inl
    refine Ensures.weaken ensured (fun _ same => same ▸ ⟨.inl recoverable, recoverable⟩)
      (fun _ _ ended => .inl ended.2) (fun _ _ ended => widens _ ended.2) widens
  · have ensured : Maintains (Replaced surroundings initial) True (Replaced surroundings initial)
        (recoverIncompleteDataReset surroundings fails) fun _ => Replaced surroundings initial :=
      maintains_recover_unmarked _ _ fun _ started => started.finished.1
    refine Ensures.weaken ensured (fun _ same => same ▸ ⟨replaced, replaced⟩)
      (fun _ _ ended => .inr (.inr ended.1)) (fun _ _ ended => .inr (.inr ended.2))
      fun _ ended => .inr (.inr ended)

theorem recover_keeps {disk : ResetDisk α} (stopped : Stopped surroundings initial disk)
    (faults : Nat → Option Error) (budget : Option Nat) :
    Stopped surroundings initial
        (recoverIncompleteDataReset surroundings faults ⟨disk, budget⟩).2.state ∧
      ((recoverIncompleteDataReset surroundings faults ⟨disk, budget⟩).2.state.finished ↔
        disk.finished) := by
  rcases stopped with untouched | recoverable | replaced
  · have kept : Untouched initial
        (recoverIncompleteDataReset surroundings faults ⟨disk, budget⟩).2.state :=
      (maintains_recover_unmarked (Untouched initial) True
        fun _ started => started.marker).final _ untouched untouched
    exact ⟨.inl kept, iff_of_false kept.unfinished untouched.unfinished⟩
  · rcases (maintains_recover fun _ => trivial).final ⟨disk, budget⟩ (.inl recoverable)
      recoverable with stays | untouched
    · exact ⟨.inr (.inl stays), iff_of_false stays.not_finished recoverable.not_finished⟩
    · exact ⟨.inl untouched, iff_of_false untouched.unfinished recoverable.not_finished⟩
  · have kept : Replaced surroundings initial
        (recoverIncompleteDataReset surroundings faults ⟨disk, budget⟩).2.state :=
      (maintains_recover_unmarked (Replaced surroundings initial) True
        fun _ started => started.finished.1).final _ replaced replaced
    exact ⟨.inr (.inr kept), iff_of_true kept.finished replaced.finished⟩

/-- The next starts after a reset stopped: every one tries to recover it, with
its own faults and its own time of death. -/
def laterStarts (surroundings : ResetSurroundings α) (disk : ResetDisk α)
    (starts : List ((Nat → Option Error) × Option Nat)) : ResetDisk α :=
  starts.foldl (fun disk start =>
    (recoverIncompleteDataReset surroundings start.1 ⟨disk, start.2⟩).2.state) disk

theorem laterStarts_keeps {disk : ResetDisk α} (stopped : Stopped surroundings initial disk)
    (starts : List ((Nat → Option Error) × Option Nat)) :
    Stopped surroundings initial (laterStarts surroundings disk starts) ∧
      ((laterStarts surroundings disk starts).finished ↔ disk.finished) := by
  induction starts generalizing disk with
  | nil => exact ⟨stopped, Iff.rfl⟩
  | cons start rest ih =>
      obtain ⟨stays, same⟩ := recover_keeps stopped start.1 start.2
      obtain ⟨kept, later⟩ := ih stays
      exact ⟨kept, later.trans same⟩

/-- The disk on which a reset starts: no marker, and a new backup. -/
def ResetDisk.begin (initial : String → Option α) : ResetDisk α where
  active := initial
  backup := fun _ => none
  staged := fun _ => none
  journal := none
  marker := none
  clock := 0

theorem fresh_begin : Fresh initial (ResetDisk.begin initial) :=
  ⟨rfl, nofun, fun _ _ => rfl, fun _ _ => rfl⟩

theorem ensures_resetData :
    Ensures (Fresh initial) (resetData surroundings fails)
      (fun _ => Stopped surroundings initial) (fun _ => Stopped surroundings initial)
      (Stopped surroundings initial) := by
  refine ensures_handle (fun _ => Stopped surroundings initial) ?_ fun error => ?_
  · exact Ensures.weaken maintains_resetDataLocked (fun _ fresh => ⟨.inl fresh.untouched, fresh⟩)
      (fun _ _ ended => ended.1) (fun _ _ ended => ended.2) fun _ => id
  · refine ensures_bind (fun _ => Stopped surroundings initial) ?_ fun _ =>
      ensures_refuse fun _ => id
    exact ensures_handle (fun _ => Stopped surroundings initial) ensures_recover fun _ =>
      ensures_refuse fun _ => id

/-- Wherever a reset stops, and however often its recovery stops, one recovery
that runs to its end leaves the originals or the pristine targets. -/
theorem reset_all_or_nothing (surroundings : ResetSurroundings α) (fails : Nat → Option Error)
    (initial : String → Option α) (budget : Option Nat)
    (starts : List ((Nat → Option Error) × Option Nat)) :
    let stopped := (resetData surroundings fails ⟨.begin initial, budget⟩).2.state
    ∃ result final,
      recoverIncompleteDataReset surroundings (fun _ => none)
          ⟨laterStarts surroundings stopped starts, none⟩ = (.ok result, ⟨final, none⟩) ∧
        final.marker = none ∧
        (¬ stopped.finished → ∀ target ∈ resetRelativeTargets,
          final.active target = initial target) ∧
        (stopped.finished → ∀ target ∈ resetRelativeTargets,
          final.active target = smoked surroundings.smoke surroundings.pristine target ∧
            final.backup target = initial target) := by
  intro stopped
  have stops : Stopped surroundings initial stopped :=
    ensures_resetData.final ⟨_, budget⟩ fresh_begin
  obtain ⟨stays, same⟩ := laterStarts_keeps stops starts
  have neverFails : MayFail (fun _ => none) → False := by
    rintro ⟨now, error, isFault⟩
    cases isFault
  rcases stays with untouched | recoverable | replaced
  · obtain ⟨result, final, ran, ended, -⟩ :=
      (maintains_recover_unmarked (Untouched initial) False
        fun _ started => started.marker).finishes untouched untouched
    exact ⟨result, final, ran, ended.marker, fun _ => ended.active,
      fun finished => absurd (same.mpr finished) untouched.unfinished⟩
  · obtain ⟨result, final, ran, -, ended⟩ :=
      (maintains_recover neverFails).finishes (.inl recoverable) recoverable
    exact ⟨result, final, ran, ended.marker, fun _ => ended.active,
      fun finished => absurd (same.mpr finished) recoverable.not_finished⟩
  · obtain ⟨result, final, ran, ended, -⟩ :=
      (maintains_recover_unmarked (Replaced surroundings initial) False
        fun _ started => started.finished.1).finishes replaced replaced
    exact ⟨result, final, ran, ended.finished.1,
      fun unfinished => absurd (same.mp replaced.finished) unfinished,
      fun _ target member => ⟨ended.active target member, ended.backup target member⟩⟩

end SharedContext.Installer
