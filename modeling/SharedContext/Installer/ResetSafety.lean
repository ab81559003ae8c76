import SharedContext.Installer.DataReset

/-!
# Safety of data reset

While the marker stands, every original is either still in its place or in the
backup, so undoing the reset can be started over as often as it is interrupted.
Once the marker is gone the reset has either been undone or is complete.
-/

namespace SharedContext.Installer

open Interruptible

variable {α : Type} {surroundings : ResetSurroundings α} {fails : Nat → Option Error}
  {initial : String → Option α}

/-! ### What a disk can look like -/

/-- An original is still in its place or in the backup. -/
def Kept (initial : String → Option α) (disk : ResetDisk α) (target : String) : Prop :=
  (disk.backup target = initial target ∧ (initial target).isSome = true) ∨
    disk.backup target = none ∧ ((initial target).isSome = true →
      disk.active target = initial target)

/-- The journal of a reset of the initial targets. -/
structure Describes (surroundings : ResetSurroundings α) (initial : String → Option α)
    (journal : DataResetJournal) : Prop where
  valid : validateResetJournal surroundings journal = .ok ()
  incomplete : journal.complete = false
  present : ∀ entry ∈ journal.entries,
    entry.originalPresent = (initial entry.target).isSome

/-- A reset that recovery undoes. -/
structure Recoverable (surroundings : ResetSurroundings α) (initial : String → Option α)
    (disk : ResetDisk α) : Prop where
  marker : ∃ journal, disk.marker = some journal ∧ Describes surroundings initial journal
  kept : ∀ target ∈ resetRelativeTargets, Kept initial disk target
  noLinks : ∀ target ∈ resetRelativeTargets, ∀ node, initial target = some node →
    surroundings.kind node ≠ .symlink

/-- The reset ran to its end: its last journal says so. -/
def ResetDisk.finished (disk : ResetDisk α) : Prop :=
  disk.marker = none ∧ ∃ journal, disk.journal = some journal ∧ journal.phase = "complete"

/-- Every target is as before the reset, and no marker is left. -/
structure Untouched (initial : String → Option α) (disk : ResetDisk α) : Prop where
  marker : disk.marker = none
  unfinished : ¬ disk.finished
  active : ∀ target ∈ resetRelativeTargets, disk.active target = initial target

def smoked (writes : List (String × Option α)) (files : String → Option α) : String → Option α :=
  writes.foldl (fun files write => Function.update files write.1 write.2) files

/-- Every target is pristine, and every original is in the backup. -/
structure Replaced (surroundings : ResetSurroundings α) (initial : String → Option α)
    (disk : ResetDisk α) : Prop where
  finished : disk.finished
  active : ∀ target ∈ resetRelativeTargets,
    disk.active target = smoked surroundings.smoke surroundings.pristine target
  backup : ∀ target ∈ resetRelativeTargets, disk.backup target = initial target

/-- How a reset may stop. -/
def Stopped (surroundings : ResetSurroundings α) (initial : String → Option α)
    (disk : ResetDisk α) : Prop :=
  Untouched initial disk ∨ Recoverable surroundings initial disk ∨
    Replaced surroundings initial disk

/-! ### File operations -/

def MayFail (fails : Nat → Option Error) : Prop :=
  ∃ now error, fails now = some error

def Timeless (property : ResetDisk α → Prop) : Prop :=
  ∀ disk clock, property disk → property { disk with clock := clock }

section Operations

variable {invariant before after : ResetDisk α → Prop} {mayRefuse : Prop}
  (timeless : Timeless invariant)
  (mayFail : MayFail fails → mayRefuse)
include timeless mayFail

theorem maintains_fileOperation {step : ResetDisk α → ResetDisk α}
    (stepped : ∀ disk, invariant disk → before disk →
      invariant (step disk).tick ∧ after (step disk).tick) :
    Maintains invariant mayRefuse before (fileOperation fails step) fun _ => after := by
  refine maintains_bind (fun _ => before) maintains_seam fun _ => ?_
  refine ensures_act fun disk started => ?_
  cases isFault : fails disk.clock with
  | none => exact stepped disk started.1 started.2
  | some error =>
      exact ⟨mayFail ⟨disk.clock, error, isFault⟩, timeless disk _ started.1⟩

theorem maintains_otherOperation (timelessBefore : Timeless before) :
    Maintains invariant mayRefuse before (otherOperation fails) fun _ => before :=
  maintains_fileOperation timeless mayFail fun disk holds started =>
    ⟨timeless disk _ holds, timelessBefore disk _ started⟩

theorem maintains_atomicWrite (timelessBefore : Timeless before) (timelessAfter : Timeless after)
    {step : ResetDisk α → ResetDisk α}
    (stepped : ∀ disk, invariant disk → before disk →
      invariant (step disk).tick ∧ after (step disk).tick) :
    Maintains invariant mayRefuse before (atomicWrite fails step) fun _ => after := by
  refine maintains_bind _ (maintains_otherOperation timeless mayFail timelessBefore) fun _ => ?_
  refine maintains_bind _ (maintains_fileOperation timeless mayFail stepped) fun _ => ?_
  exact maintains_otherOperation timeless mayFail timelessAfter

variable {journal : DataResetJournal}
  (valid : validateResetJournal surroundings journal = .ok ())
include valid

omit timeless mayFail in
theorem maintains_validJournal :
    Maintains invariant mayRefuse before
      (inspect fun _ => validateResetJournal surroundings journal : Reset α Unit)
      fun _ => before := by
  refine (maintains_inspect fun disk error _ _ failed => ?_).weaken (fun _ => id)
    fun _ _ ended => ended.1
  rw [valid] at failed
  cases failed

theorem maintains_persistBackup (timelessBefore : Timeless before) (timelessAfter : Timeless after)
    (stepped : ∀ disk, invariant disk → before disk →
      invariant { disk with journal := some journal } ∧
        after { disk with journal := some journal }) :
    Maintains invariant mayRefuse before (persistResetJournal surroundings fails journal false)
      fun _ => after := by
  refine maintains_bind _ (maintains_validJournal valid) fun _ => ?_
  refine maintains_bind (fun _ => after) ?_ fun _ => maintains_pure fun _ => id
  refine maintains_atomicWrite timeless mayFail timelessBefore timelessAfter
    fun disk holds started => ?_
  obtain ⟨kept, reached⟩ := stepped disk holds started
  exact ⟨timeless _ _ kept, timelessAfter _ _ reached⟩

theorem maintains_persistMarker {middle : ResetDisk α → Prop} (timelessBefore : Timeless before)
    (timelessMiddle : Timeless middle) (timelessAfter : Timeless after)
    (written : ∀ disk, invariant disk → before disk →
      invariant { disk with journal := some journal } ∧
        middle { disk with journal := some journal })
    (marked : ∀ disk, invariant disk → middle disk →
      invariant { disk with marker := some journal } ∧
        after { disk with marker := some journal }) :
    Maintains invariant mayRefuse before (persistResetJournal surroundings fails journal true)
      fun _ => after := by
  refine maintains_bind _ (maintains_validJournal valid) fun _ => ?_
  refine maintains_bind (fun _ => middle) ?_ fun _ => ?_
  · refine maintains_atomicWrite timeless mayFail timelessBefore timelessMiddle
      fun disk holds started => ?_
    obtain ⟨kept, reached⟩ := written disk holds started
    exact ⟨timeless _ _ kept, timelessMiddle _ _ reached⟩
  · refine maintains_atomicWrite timeless mayFail timelessMiddle timelessAfter
      fun disk holds started => ?_
    obtain ⟨kept, reached⟩ := marked disk holds started
    exact ⟨timeless _ _ kept, timelessAfter _ _ reached⟩

end Operations

theorem timeless_recoverable : Timeless (Recoverable surroundings initial) :=
  fun _ _ holds => ⟨holds.marker, holds.kept, holds.noLinks⟩

theorem Recoverable.withJournal {disk : ResetDisk α}
    (recoverable : Recoverable surroundings initial disk) (journal : Option DataResetJournal) :
    Recoverable surroundings initial { disk with journal := journal } :=
  ⟨recoverable.marker, recoverable.kept, recoverable.noLinks⟩

/-! ### Recovery -/

section Recovery

variable {mayRefuse : Prop} (mayFail : MayFail fails → mayRefuse)

theorem Recoverable.setActive {disk : ResetDisk α}
    (recoverable : Recoverable surroundings initial disk) {target : String} {node : Option α}
    (free : (disk.backup target).isSome = true ∨ initial target = none) :
    Recoverable surroundings initial (setActive target node disk) := by
  refine ⟨recoverable.marker, fun other member => ?_, recoverable.noLinks⟩
  rcases recoverable.kept other member with inBackup | ⟨notBackup, inPlace⟩
  · exact .inl inBackup
  · refine .inr ⟨notBackup, fun isOriginal => ?_⟩
    have different : other ≠ target := by
      rintro rfl
      rcases free with isSome | absent
      · rw [notBackup] at isSome
        cases isSome
      · rw [absent] at isOriginal
        cases isOriginal
    exact (Function.update_of_ne different _ _).trans (inPlace isOriginal)

include mayFail

theorem maintains_removeAny {phase : ResetDisk α → Prop} {target : String}
    (timeless : Timeless phase)
    (stable : ∀ disk node, phase disk → phase (setActive target node disk))
    (free : ∀ disk, phase disk → (disk.backup target).isSome = true ∨ initial target = none) :
    Maintains (Recoverable surroundings initial) mayRefuse phase (removeAny surroundings fails target)
      fun _ disk => phase disk ∧ disk.active target = none := by
  have writes : ∀ node, Maintains (Recoverable surroundings initial) mayRefuse phase
      (fileOperation fails (setActive target node)) fun _ disk =>
        phase disk ∧ disk.active target = node := by
    intro node
    refine maintains_fileOperation timeless_recoverable mayFail fun disk recoverable started => ?_
    refine ⟨timeless_recoverable _ _ (recoverable.setActive (free disk started)),
      timeless _ _ (stable disk node started), Function.update_self _ _ _⟩
  refine maintains_bind _ (maintains_inspect fun _ _ _ _ => nofun) fun node => ?_
  cases node with
  | none =>
      refine maintains_pure ?_
      rintro disk ⟨started, isRead⟩
      exact ⟨started, Except.ok.inj isRead⟩
  | some node =>
      refine maintains_bind (fun _ => phase) ?_ fun _ => writes none
      refine (maintains_forEach (fun _ => phase) fun left _ rest => ?_).weaken
        (fun _ started => started.1) fun _ _ ended => ended
      exact (writes (some left)).weaken (fun _ => id) fun _ _ ended => ended.1

/-- A target is back in its place. -/
def Back (initial : String → Option α) (disk : ResetDisk α) (target : String) : Prop :=
  disk.active target = initial target ∧ disk.backup target = none

/-- Every target but those of the entries left is back. -/
def AllBack (initial : String → Option α) (left : List ResetEntry) (disk : ResetDisk α) : Prop :=
  ∀ target ∈ resetRelativeTargets, target ∉ left.map ResetEntry.target → Back initial disk target

omit mayFail in
theorem AllBack.step {disk next : ResetDisk α} {entry : ResetEntry} {rest : List ResetEntry}
    (allBack : AllBack initial (entry :: rest) disk)
    (here : Back initial next entry.target)
    (elsewhere : ∀ other, other ≠ entry.target →
      next.active other = disk.active other ∧ next.backup other = disk.backup other) :
    AllBack initial rest next := by
  intro target member notLeft
  by_cases same : target = entry.target
  · rw [same]
    exact here
  · have notCons : target ∉ (entry :: rest).map ResetEntry.target := by
      rw [List.map_cons, List.mem_cons, not_or]
      exact ⟨same, notLeft⟩
    obtain ⟨sameActive, sameBackup⟩ := elsewhere target same
    rw [Back, sameActive, sameBackup]
    exact allBack target member notCons

omit mayFail in
theorem nodePresent_eq_ok {node : Option α} {present : Bool} :
    nodePresent surroundings node = .ok present ↔
      node.isSome = present ∧ ∀ tree, node = some tree → surroundings.kind tree ≠ .symlink := by
  cases node with
  | none => simp [nodePresent]
  | some tree => by_cases isLink : surroundings.kind tree = .symlink <;> simp [nodePresent, isLink]

omit mayFail in
theorem maintains_backupPresent {phase : ResetDisk α → Prop} {target : String}
    (isTarget : target ∈ resetRelativeTargets) :
    Maintains (Recoverable surroundings initial) mayRefuse phase
      (resetPathPresent surroundings fun disk => disk.backup target)
      fun present disk => phase disk ∧ (disk.backup target).isSome = present := by
  refine (maintains_inspect fun disk error recoverable _ failed => ?_).weaken (fun _ => id)
    fun _ _ ended => ⟨ended.1, (nodePresent_eq_ok.mp ended.2).1⟩
  have found : nodePresent surroundings (disk.backup target) =
      .ok (disk.backup target).isSome := by
    refine nodePresent_eq_ok.mpr ⟨rfl, fun tree isBackup => ?_⟩
    rcases recoverable.kept target isTarget with ⟨inBackup, -⟩ | ⟨notBackup, -⟩
    · exact recoverable.noLinks target isTarget tree (inBackup.symm.trans isBackup)
    · cases isBackup.symm.trans notBackup
  cases failed.symm.trans found

omit mayFail in
theorem timeless_allBack {left : List ResetEntry} : Timeless (AllBack initial left) :=
  fun _ _ holds => holds

omit mayFail in
theorem allBack_setActive {entry : ResetEntry} {rest : List ResetEntry} {disk : ResetDisk α}
    {node : Option α} (allBack : AllBack initial (entry :: rest) disk) :
    AllBack initial (entry :: rest) (setActive entry.target node disk) := by
  intro target member notLeft
  have different : target ≠ entry.target := fun same =>
    notLeft (same ▸ List.mem_cons_self)
  obtain ⟨inPlace, notBackup⟩ := allBack target member notLeft
  exact ⟨(Function.update_of_ne different _ _).trans inPlace, notBackup⟩

theorem maintains_restoreEntry {entry : ResetEntry} {rest : List ResetEntry}
    (isTarget : entry.target ∈ resetRelativeTargets)
    (present : entry.originalPresent = (initial entry.target).isSome) :
    Maintains (Recoverable surroundings initial) mayRefuse (AllBack initial (entry :: rest))
      (restoreEntry surroundings fails entry) fun _ => AllBack initial rest := by
  refine maintains_bind _ (maintains_backupPresent isTarget) fun isBackup => ?_
  cases isBackup with
  | true =>
      let phase : ResetDisk α → Prop := fun disk =>
        AllBack initial (entry :: rest) disk ∧ (disk.backup entry.target).isSome = true
      have timelessPhase : Timeless phase := fun _ _ holds => holds
      refine maintains_bind (fun _ => phase) ?_ fun _ => ?_
      · exact (maintains_removeAny mayFail timelessPhase
          (fun disk node holds => ⟨allBack_setActive holds.1, holds.2⟩)
          fun disk holds => .inl holds.2).weaken (fun _ => id) fun _ _ ended => ended.1
      refine maintains_bind _ (maintains_otherOperation timeless_recoverable mayFail timelessPhase)
        fun _ => ?_
      refine maintains_bind (fun _ => AllBack initial rest) ?_ fun _ => ?_
      · refine maintains_fileOperation timeless_recoverable mayFail fun disk recoverable started => ?_
        obtain ⟨allBack, inBackup⟩ := started
        have isOriginal : disk.backup entry.target = initial entry.target := by
          rcases recoverable.kept _ isTarget with ⟨same, -⟩ | ⟨notBackup, -⟩
          · exact same
          · rw [notBackup] at inBackup
            cases inBackup
        have back : Back initial (restoreBackup entry.target disk) entry.target :=
          ⟨(Function.update_self _ _ _).trans isOriginal, Function.update_self _ _ _⟩
        have elsewhere : ∀ other, other ≠ entry.target →
            (restoreBackup entry.target disk).active other = disk.active other ∧
              (restoreBackup entry.target disk).backup other = disk.backup other :=
          fun other different =>
            ⟨Function.update_of_ne different _ _, Function.update_of_ne different _ _⟩
        refine ⟨⟨recoverable.marker, fun other member => ?_, recoverable.noLinks⟩,
          allBack.step back elsewhere⟩
        by_cases same : other = entry.target
        · rw [same]
          exact .inr ⟨back.2, fun _ => back.1⟩
        · obtain ⟨sameActive, sameBackup⟩ := elsewhere other same
          change Kept initial (restoreBackup entry.target disk) other
          rw [Kept, sameActive, sameBackup]
          exact recoverable.kept other member
      refine maintains_bind _
        (maintains_otherOperation timeless_recoverable mayFail timeless_allBack) fun _ => ?_
      exact maintains_otherOperation timeless_recoverable mayFail timeless_allBack
  | false =>
      let phase : ResetDisk α → Prop := fun disk =>
        AllBack initial (entry :: rest) disk ∧ disk.backup entry.target = none
      have start : ∀ disk, AllBack initial (entry :: rest) disk ∧
          (disk.backup entry.target).isSome = false → phase disk := fun disk started =>
        ⟨started.1, Option.isNone_iff_eq_none.mp (Option.isSome_eq_false_iff.mp started.2)⟩
      cases isOriginal : entry.originalPresent with
      | true =>
          refine ensures_pure ?_
          rintro disk ⟨recoverable, started⟩
          obtain ⟨allBack, notBackup⟩ := start disk started
          refine ⟨recoverable, allBack.step ⟨?_, notBackup⟩ fun other _ => ⟨rfl, rfl⟩⟩
          have wasThere := present.symm.trans isOriginal
          rcases recoverable.kept _ isTarget with ⟨same, -⟩ | ⟨-, inPlace⟩
          · rw [← same, notBackup] at wasThere
            cases wasThere
          · exact inPlace wasThere
      | false =>
          have absent : initial entry.target = none :=
            Option.isNone_iff_eq_none.mp
              (Option.isSome_eq_false_iff.mp (present.symm.trans isOriginal))
          have removes : Maintains (Recoverable surroundings initial) mayRefuse phase
              (removeAny surroundings fails entry.target) _ :=
            maintains_removeAny mayFail (fun _ _ holds => holds)
              (fun disk node holds => ⟨allBack_setActive holds.1, holds.2⟩)
              fun _ _ => .inr absent
          refine removes.weaken start ?_
          rintro _ disk ⟨⟨allBack, notBackup⟩, removed⟩
          exact allBack.step ⟨removed.trans absent.symm, notBackup⟩ fun other _ => ⟨rfl, rfl⟩

end Recovery

theorem Describes.targets {journal : DataResetJournal}
    (describes : Describes surroundings initial journal) :
    journal.entries.map ResetEntry.target = resetRelativeTargets := by
  have valid := describes.valid
  simp only [validateResetJournal, Result.bind_eq_ok, Result.exists_unit,
    Result.require_eq_ok] at valid
  exact valid.2.2.2.2.1

theorem Describes.target_mem {journal : DataResetJournal}
    (describes : Describes surroundings initial journal) {entry : ResetEntry}
    (member : entry ∈ journal.entries) : entry.target ∈ resetRelativeTargets := by
  rw [← describes.targets]
  exact List.mem_map_of_mem member

/-- A reset that is being undone. -/
def Undoing (surroundings : ResetSurroundings α) (initial : String → Option α)
    (disk : ResetDisk α) : Prop :=
  Recoverable surroundings initial disk ∨ Untouched initial disk

section Undo

variable {mayRefuse : Prop} (mayFail : MayFail fails → mayRefuse)
include mayFail

omit mayFail in
theorem timeless_untouched : Timeless (Untouched (α := α) initial) :=
  fun _ _ untouched => ⟨untouched.marker, untouched.unfinished, untouched.active⟩

omit mayFail in
theorem timeless_undoing : Timeless (Undoing surroundings initial) :=
  fun disk clock undoing =>
    undoing.imp (timeless_recoverable disk clock) (timeless_untouched disk clock)

/-- Everything is back and the journal says so; only the marker is left. -/
def Undone (surroundings : ResetSurroundings α) (initial : String → Option α)
    (disk : ResetDisk α) : Prop :=
  Recoverable surroundings initial disk ∧ AllBack initial [] disk ∧
    ∀ journal, disk.journal = some journal → journal.phase ≠ "complete"

theorem maintains_removeMarker_undone :
    Maintains (Undoing surroundings initial) mayRefuse (Undone surroundings initial)
      (removeResetMarker fails) fun _ => Untouched initial := by
  refine maintains_bind _ (maintains_inspect fun _ _ _ _ => nofun) fun marker => ?_
  cases marker with
  | none =>
      refine maintains_pure ?_
      rintro disk ⟨⟨⟨⟨journal, isMarker, -⟩, -, -⟩, -, -⟩, isRead⟩
      cases isMarker.symm.trans (Except.ok.inj isRead)
  | some journal =>
      refine maintains_bind (fun _ => Untouched initial) ?_ fun _ =>
        maintains_otherOperation timeless_undoing mayFail timeless_untouched
      refine maintains_fileOperation timeless_undoing mayFail ?_
      rintro disk - ⟨⟨-, allBack, unfinished⟩, -⟩
      have untouched : Untouched initial ({ disk with marker := none } : ResetDisk α).tick := by
        refine ⟨rfl, ?_, fun target member => (allBack target member List.not_mem_nil).1⟩
        rintro ⟨-, last, isLast, isComplete⟩
        exact unfinished last isLast isComplete
      exact ⟨.inr untouched, untouched⟩

theorem maintains_recover :
    Maintains (Undoing surroundings initial) mayRefuse (Recoverable surroundings initial)
      (recoverIncompleteDataReset surroundings fails) fun _ => Untouched initial := by
  refine maintains_bind _ (maintains_inspect fun _ _ _ _ => nofun) fun marker => ?_
  cases marker with
  | none =>
      refine maintains_pure ?_
      rintro disk ⟨⟨⟨journal, isMarker, -⟩, -, -⟩, isRead⟩
      cases isMarker.symm.trans (Except.ok.inj isRead)
  | some journal =>
      have known : ∀ disk, Recoverable surroundings initial disk ∧
          Except.ok (disk.marker) = (Except.ok (some journal) : Result _) →
            Describes surroundings initial journal := by
        rintro disk ⟨⟨⟨other, isMarker, describes⟩, -, -⟩, isRead⟩
        cases isMarker.symm.trans (Except.ok.inj isRead)
        exact describes
      refine maintains_of_before known fun describes => ?_
      have valid := describes.valid
      refine maintains_bind (fun _ => Recoverable surroundings initial)
        ((maintains_validJournal valid).weaken (fun _ started => started.1) fun _ _ => id)
        fun _ => ?_
      rw [describes.incomplete, if_neg Bool.false_ne_true]
      refine maintains_bind (fun _ disk => Recoverable surroundings initial disk ∧
        AllBack initial [] disk) ?_ fun _ => ?_
      · have restores : Maintains (Recoverable surroundings initial) mayRefuse
            (AllBack initial journal.entries.reverse) _ _ :=
          maintains_forEach (AllBack initial) fun entry member rest =>
            maintains_restoreEntry mayFail
              (describes.target_mem (List.mem_reverse.mp member))
              (describes.present entry (List.mem_reverse.mp member))
        refine restores.widen (fun disk recoverable => ⟨recoverable, ?_⟩) fun _ => .inl
        intro target member notLeft
        rw [List.map_reverse, List.mem_reverse, describes.targets] at notLeft
        exact absurd member notLeft
      refine maintains_bind (fun _ => Undone surroundings initial) ?_ fun _ => ?_
      · refine maintains_persistBackup timeless_undoing mayFail valid
          (fun _ _ holds => ⟨timeless_recoverable _ _ holds.1, holds.2⟩)
          (fun _ _ holds => ⟨timeless_recoverable _ _ holds.1, holds.2⟩) ?_
        rintro disk - ⟨recoverable, allBack⟩
        have kept := recoverable.withJournal
          (some { journal with phase := "recovered_rollback", complete := true })
        refine ⟨.inl kept, kept, allBack, fun last isLast => ?_⟩
        cases isLast
        change "recovered_rollback" ≠ "complete"
        decide
      exact maintains_bind _ (maintains_removeMarker_undone mayFail) fun _ =>
        maintains_pure fun _ => id

end Undo

end SharedContext.Installer
