import SharedContext.LocalState.CatalogDocument

/-!
# Which checkout owns a path

A path belongs to the deepest checkout that contains it.  The rule is written
out three times; the three agree, and name one repository, as long as no two
repositories list the same path in two spellings.
-/

namespace SharedContext.LocalState

namespace RepositoryCatalogSnapshot

variable {catalog : RepositoryCatalogSnapshot}

/-! ### The checkouts that contain a path -/

def HasCheckout (catalog : RepositoryCatalogSnapshot) (id : RepositoryId) (checkout : HostPath) :
    Prop :=
  ∃ entry ∈ catalog.repositories, entry.repositoryId = id ∧ checkout ∈ entry.checkoutPaths

/-- The order in which the checkouts that contain a path are looked through. -/
def DeeperFirst (left right : RepositoryId × HostPath) : Prop :=
  right.2.components.length < left.2.components.length ∨
    right.2.components.length = left.2.components.length ∧ left.1 ≤ right.1

instance : DecidableRel DeeperFirst :=
  fun _ _ => inferInstanceAs (Decidable (_ ∨ _))

instance : Std.Total DeeperFirst where
  total left right := by
    unfold DeeperFirst
    rcases Nat.lt_trichotomy left.2.components.length right.2.components.length with
      less | same | more
    · exact .inr (.inl less)
    · rcases le_total left.1 right.1 with first | second
      · exact .inl (.inr ⟨same.symm, first⟩)
      · exact .inr (.inr ⟨same, second⟩)
    · exact .inl (.inl more)

instance : IsTrans (RepositoryId × HostPath) DeeperFirst where
  trans first second third one two := by
    unfold DeeperFirst at *
    rcases one with one | ⟨oneSame, oneLess⟩
    · rcases two with two | ⟨twoSame, -⟩
      · exact .inl (by omega)
      · exact .inl (by omega)
    · rcases two with two | ⟨twoSame, twoLess⟩
      · exact .inl (by omega)
      · exact .inr ⟨by omega, le_trans oneLess twoLess⟩

theorem mem_checkoutsFor {path : HostPath} {id : RepositoryId} {checkout : HostPath} :
    (id, checkout) ∈ catalog.checkoutsFor path ↔
      catalog.HasCheckout id checkout ∧ path.startsWith checkout = true := by
  unfold checkoutsFor HasCheckout
  rw [List.mem_insertionSort, List.mem_flatMap]
  constructor
  · rintro ⟨entry, listed, member⟩
    obtain ⟨found, kept, same⟩ := List.mem_map.mp member
    obtain ⟨rfl, rfl⟩ := Prod.mk.inj same
    rw [List.mem_filter] at kept
    exact ⟨⟨entry, listed, rfl, kept.1⟩, kept.2⟩
  · rintro ⟨⟨entry, listed, rfl, member⟩, contains⟩
    exact ⟨entry, listed, List.mem_map.mpr ⟨checkout, List.mem_filter.mpr ⟨member, contains⟩, rfl⟩⟩

theorem checkoutsFor_first {path : HostPath} {first : RepositoryId × HostPath}
    {others : List (RepositoryId × HostPath)}
    (found : catalog.checkoutsFor path = first :: others) :
    ∀ other ∈ others, DeeperFirst first other := by
  have sorted : (catalog.checkoutsFor path).Pairwise DeeperFirst :=
    List.pairwise_insertionSort DeeperFirst _
  rw [found, List.pairwise_cons] at sorted
  exact sorted.1

theorem eq_of_startsWith {path first second : HostPath} (one : path.startsWith first = true)
    (two : path.startsWith second = true)
    (depth : first.components.length = second.components.length) : first = second := by
  unfold HostPath.startsWith at one two
  rw [Bool.and_eq_true, decide_eq_true_eq, List.isPrefixOf_iff_prefix] at one two
  obtain ⟨firstAbsolute, firstComponents⟩ := first
  obtain ⟨secondAbsolute, secondComponents⟩ := second
  have components : firstComponents = secondComponents :=
    (List.prefix_of_prefix_length_le one.2 two.2 (Nat.le_of_eq depth)).eq_of_length depth
  have absolute : firstAbsolute = secondAbsolute := one.1.symm.trans two.1
  rw [components, absolute]

/-- The checkout is the deepest one that contains the path. -/
structure IsDeepest (catalog : RepositoryCatalogSnapshot) (path : HostPath) (id : RepositoryId)
    (checkout : HostPath) : Prop where
  listed : catalog.HasCheckout id checkout
  contains : path.startsWith checkout = true
  deepest : ∀ other otherCheckout, catalog.HasCheckout other otherCheckout →
    path.startsWith otherCheckout = true →
    otherCheckout.components.length ≤ checkout.components.length

/-- No path is a checkout of two repositories. -/
def Distinct (catalog : RepositoryCatalogSnapshot) : Prop :=
  ∀ first second checkout, catalog.HasCheckout first checkout →
    catalog.HasCheckout second checkout → first = second

theorem IsDeepest.unique (distinct : catalog.Distinct) {path : HostPath}
    {first second : RepositoryId} {firstCheckout secondCheckout : HostPath}
    (one : catalog.IsDeepest path first firstCheckout)
    (two : catalog.IsDeepest path second secondCheckout) :
    first = second ∧ firstCheckout = secondCheckout := by
  have notDeeper := one.deepest _ _ two.listed two.contains
  have notShallower := two.deepest _ _ one.listed one.contains
  have same := eq_of_startsWith one.contains two.contains (by omega)
  subst same
  exact ⟨distinct _ _ _ one.listed two.listed, rfl⟩

/-- What is looked up first is the deepest checkout. -/
theorem isDeepest_of_first {path : HostPath} {id : RepositoryId} {checkout : HostPath}
    {others : List (RepositoryId × HostPath)}
    (found : catalog.checkoutsFor path = (id, checkout) :: others) :
    catalog.IsDeepest path id checkout := by
  have member : (id, checkout) ∈ catalog.checkoutsFor path := by
    rw [found]
    exact List.mem_cons_self
  obtain ⟨listed, contains⟩ := mem_checkoutsFor.mp member
  refine ⟨listed, contains, fun other otherCheckout otherListed otherContains => ?_⟩
  have otherMember : (other, otherCheckout) ∈ catalog.checkoutsFor path :=
    mem_checkoutsFor.mpr ⟨otherListed, otherContains⟩
  rw [found, List.mem_cons] at otherMember
  rcases otherMember with same | later
  · rw [(Prod.mk.inj same).2]
  · rcases checkoutsFor_first found _ later with less | ⟨same, -⟩
    · exact Nat.le_of_lt less
    · exact Nat.le_of_eq same

theorem deepestCheckoutFor_eq (distinct : catalog.Distinct) (path : HostPath) :
    catalog.deepestCheckoutFor path = .ok (catalog.checkoutsFor path).head? := by
  unfold deepestCheckoutFor
  cases found : catalog.checkoutsFor path with
  | nil => rfl
  | cons first others =>
      obtain ⟨id, checkout⟩ := first
      dsimp only
      rw [if_neg]
      · rfl
      · intro shared
        rw [List.any_eq_true] at shared
        obtain ⟨⟨other, otherCheckout⟩, later, same⟩ := shared
        simp only [Bool.and_eq_true, decide_eq_true_eq] at same
        obtain ⟨rfl, different⟩ := same
        have member : (other, otherCheckout) ∈ catalog.checkoutsFor path := by
          rw [found]
          exact List.mem_cons_of_mem _ later
        exact different (distinct _ _ _ (mem_checkoutsFor.mp member).1
          (isDeepest_of_first found).listed)

theorem deepestCheckoutFor_shared {first second : RepositoryId} {checkout : HostPath}
    (one : catalog.HasCheckout first checkout) (two : catalog.HasCheckout second checkout)
    (different : first ≠ second) :
    catalog.deepestCheckoutFor checkout =
      .error (invariant "ActivationScope has ambiguous checkout ownership") := by
  have itself : checkout.startsWith checkout = true := by
    unfold HostPath.startsWith
    simp
  have oneMember := mem_checkoutsFor.mpr ⟨one, itself⟩
  have twoMember := mem_checkoutsFor.mpr ⟨two, itself⟩
  unfold deepestCheckoutFor
  cases found : catalog.checkoutsFor checkout with
  | nil =>
      rw [found] at oneMember
      exact absurd oneMember (by simp)
  | cons head others =>
      obtain ⟨id, deepest⟩ := head
      have owner := isDeepest_of_first found
      have depth := owner.deepest first checkout one itself
      have shorter : deepest.components.length ≤ checkout.components.length := by
        have contains := owner.contains
        unfold HostPath.startsWith at contains
        rw [Bool.and_eq_true, List.isPrefixOf_iff_prefix] at contains
        exact contains.2.length_le
      have same : deepest = checkout := eq_of_startsWith owner.contains itself (by omega)
      subst same
      rw [found, List.mem_cons] at oneMember twoMember
      dsimp only
      rw [if_pos]
      · rfl
      · rw [List.any_eq_true]
        by_cases isFirst : first = id
        · refine ⟨(second, deepest), twoMember.resolve_left fun same => ?_, ?_⟩
          · exact different (isFirst.trans (Prod.mk.inj same).1.symm)
          · simp [← isFirst, Ne.symm different]
        · refine ⟨(first, deepest), oneMember.resolve_left fun same => ?_, ?_⟩
          · exact isFirst (Prod.mk.inj same).1
          · simp [isFirst]

/-- Where a checkout contains the path, the first one looked up is the deepest. -/
theorem head?_checkoutsFor (distinct : catalog.Distinct) {path : HostPath} {id : RepositoryId}
    {checkout : HostPath} :
    (catalog.checkoutsFor path).head? = some (id, checkout) ↔
      catalog.IsDeepest path id checkout := by
  cases found : catalog.checkoutsFor path with
  | nil =>
      constructor
      · intro none
        cases none
      · intro owner
        have member := mem_checkoutsFor.mpr ⟨owner.listed, owner.contains⟩
        rw [found] at member
        exact absurd member (by simp)
  | cons first others =>
      obtain ⟨firstId, firstCheckout⟩ := first
      have owner := isDeepest_of_first found
      rw [List.head?_cons, Option.some.injEq, Prod.mk.injEq]
      constructor
      · rintro ⟨rfl, rfl⟩
        exact owner
      · exact owner.unique distinct

theorem checkoutsFor_of_isDeepest (distinct : catalog.Distinct) {path : HostPath}
    {id : RepositoryId} {checkout : HostPath} (owner : catalog.IsDeepest path id checkout) :
    ∃ others, catalog.checkoutsFor path = (id, checkout) :: others := by
  have first := (head?_checkoutsFor distinct).mpr owner
  cases found : catalog.checkoutsFor path with
  | nil =>
      rw [found] at first
      cases first
  | cons head others =>
      rw [found, List.head?_cons] at first
      exact ⟨others, by rw [Option.some.inj first]⟩

theorem exists_isDeepest {path : HostPath} {id : RepositoryId} {checkout : HostPath}
    (listed : catalog.HasCheckout id checkout) (contains : path.startsWith checkout = true) :
    ∃ owner deepest, catalog.IsDeepest path owner deepest := by
  have member := mem_checkoutsFor.mpr ⟨listed, contains⟩
  cases found : catalog.checkoutsFor path with
  | nil =>
      rw [found] at member
      exact absurd member (by simp)
  | cons first others => exact ⟨first.1, first.2, isDeepest_of_first found⟩

theorem checkoutsFor_eq_nil {path : HostPath}
    (outside : ∀ id checkout, ¬ catalog.IsDeepest path id checkout) :
    catalog.checkoutsFor path = [] := by
  cases found : catalog.checkoutsFor path with
  | nil => rfl
  | cons first others => exact absurd (isDeepest_of_first found) (outside first.1 first.2)

/-! ### Activation -/

/-- The directory activates the repository whose checkout it is in, or else, unless it is guarded,
those with a checkout below it. -/
def ActivatedIn (catalog : RepositoryCatalogSnapshot) (directory : HostPath) (id : RepositoryId) :
    Prop :=
  (∃ checkout, catalog.IsDeepest directory id checkout) ∨
    ((∀ other checkout, ¬ catalog.IsDeepest directory other checkout) ∧
      catalog.parentActivationIsGuarded directory = false ∧
      ∃ checkout, catalog.HasCheckout id checkout ∧ checkout.startsWith directory = true)

end RepositoryCatalogSnapshot

def ActivationScope.Activates : ActivationScope → RepositoryId → Prop
  | .enabled repositoryIds, id => id ∈ repositoryIds
  | .disabled, _ => False

/-- The path is absolute and has no dot segments. -/
def PlainAbsolute (path : HostPath) : Prop :=
  path.absolute = true ∧ path.hasDotSegment = false

theorem validateAbsolutePath_eq_ok {path : HostPath} {field : String} :
    validateAbsolutePath path field = .ok () ↔ PlainAbsolute path := by
  rw [validateAbsolutePath, Result.require_eq_ok]
  rfl

namespace RepositoryCatalogSnapshot

variable {catalog : RepositoryCatalogSnapshot}

theorem mem_repositoriesBelow {directory : HostPath} {id : RepositoryId} :
    id ∈ BTreeMap.ordered ((catalog.repositories.filter fun repository =>
        repository.checkoutPaths.any fun checkout => checkout.startsWith directory).map
          (·.repositoryId)).toFinset ↔
      ∃ checkout, catalog.HasCheckout id checkout ∧ checkout.startsWith directory = true := by
  rw [BTreeMap.ordered_eq_sort, Finset.mem_sort, List.mem_toFinset, List.mem_map]
  constructor
  · rintro ⟨entry, kept, rfl⟩
    rw [List.mem_filter, List.any_eq_true] at kept
    obtain ⟨listed, checkout, member, below⟩ := kept
    exact ⟨checkout, ⟨entry, listed, rfl, member⟩, below⟩
  · rintro ⟨checkout, ⟨entry, listed, rfl, member⟩, below⟩
    exact ⟨entry, List.mem_filter.mpr ⟨listed, List.any_eq_true.mpr ⟨checkout, member, below⟩⟩, rfl⟩

theorem resolveRecordedActivationScope_spec (distinct : catalog.Distinct) {directory : HostPath}
    (plain : PlainAbsolute directory) :
    ∃ scope, catalog.resolveRecordedActivationScope directory = .ok scope ∧
      ∀ id, scope.Activates id ↔ catalog.ActivatedIn directory id := by
  have accepted : validateAbsolutePath directory "Agent startup directory" = .ok () :=
    validateAbsolutePath_eq_ok.mpr plain
  unfold resolveRecordedActivationScope
  rw [accepted, deepestCheckoutFor_eq distinct]
  cases found : (catalog.checkoutsFor directory).head? with
  | some owner =>
      obtain ⟨id, checkout⟩ := owner
      have deepest := (head?_checkoutsFor distinct).mp found
      refine ⟨.enabled [id], rfl, fun other => ?_⟩
      rw [ActivationScope.Activates, List.mem_singleton]
      constructor
      · rintro rfl
        exact .inl ⟨checkout, deepest⟩
      · rintro (⟨otherCheckout, owner⟩ | ⟨outside, -⟩)
        · exact (owner.unique distinct deepest).1
        · exact absurd deepest (outside id checkout)
  | none =>
      have outside : ∀ id checkout, ¬ catalog.IsDeepest directory id checkout := by
        intro id checkout owner
        rw [(head?_checkoutsFor distinct).mpr owner] at found
        cases found
      have onlyBelow : ∀ id, catalog.ActivatedIn directory id ↔
          catalog.parentActivationIsGuarded directory = false ∧
            ∃ checkout, catalog.HasCheckout id checkout ∧ checkout.startsWith directory = true := by
        intro id
        constructor
        · rintro (⟨checkout, owner⟩ | ⟨-, below⟩)
          · exact absurd owner (outside id checkout)
          · exact below
        · exact fun below => .inr ⟨outside, below⟩
      change ∃ scope, (if catalog.parentActivationIsGuarded directory then _ else _) = _ ∧ _
      by_cases guarded : catalog.parentActivationIsGuarded directory = true
      · rw [if_pos guarded]
        refine ⟨.disabled, rfl, fun id => ?_⟩
        rw [onlyBelow, guarded]
        simp [ActivationScope.Activates]
      · rw [if_neg guarded]
        rw [Bool.not_eq_true] at guarded
        split
        · rename_i empty
          refine ⟨.disabled, rfl, fun id => ?_⟩
          rw [onlyBelow, ← mem_repositoriesBelow, empty]
          simp [ActivationScope.Activates]
        · refine ⟨_, rfl, fun id => ?_⟩
          rw [onlyBelow, ActivationScope.Activates, mem_repositoriesBelow]
          simp [guarded]

/-! ### One rule -/

def withRepositories (catalog : RepositoryCatalogSnapshot)
    (repositories : List RepositoryCatalogEntry) : RepositoryCatalogSnapshot :=
  { catalog with repositories }

/-- Adding a repository takes another one out of an activation only by a deeper checkout that
contains the directory. -/
def AddsOnlyDeeper (catalog : RepositoryCatalogSnapshot) : Prop :=
  ∀ earlier added later, catalog.repositories = earlier ++ added :: later →
    ∀ directory scope before, PlainAbsolute directory →
    catalog.resolveRecordedActivationScope directory = .ok scope →
    (catalog.withRepositories (earlier ++ later)).resolveRecordedActivationScope directory =
      .ok before →
    ∀ id, before.Activates id → ¬ scope.Activates id →
      ∃ checkout ∈ added.checkoutPaths,
        catalog.IsDeepest directory added.repositoryId checkout ∧
        ∀ other otherCheckout,
          (catalog.withRepositories (earlier ++ later)).HasCheckout other otherCheckout →
          directory.startsWith otherCheckout = true →
          otherCheckout.components.length < checkout.components.length

/-- The ownership of checkouts is one rule, for lookups, resolutions and activations. -/
structure OneRule (catalog : RepositoryCatalogSnapshot) : Prop where
  owned : ∀ path : String, PlainAbsolute (.ofText path) →
    ∃ owner, catalog.deepestCheckoutFor (.ofText path) = .ok owner ∧
      ∀ id checkout, owner = some (id, checkout) ↔ catalog.IsDeepest (.ofText path) id checkout
  declared : ∀ (path : String) validateDeclaredComponents id checkout,
    PlainAbsolute (.ofText path) → catalog.IsDeepest (.ofText path) id checkout →
    validateDeclaredComponents (.ofText path) checkout = .ok () →
    catalog.resolveDeclaredPath validateDeclaredComponents path =
      (repoRelativePath (relativeText path checkout)).map fun relativePath =>
        ⟨id, checkout, relativePath⟩
  canonical : ∀ (path : String) (roots : List HostPath) id checkout,
    PlainAbsolute (.ofText path) → catalog.IsDeepest (.ofText path) id checkout →
    (roots.any fun workspace => (HostPath.ofText path).startsWith workspace) = true →
    catalog.resolveCanonicalFile path roots =
      (repoRelativePath (relativeText path checkout)).map fun relativePath =>
        ⟨id, checkout, relativePath⟩
  outside : ∀ path : String, PlainAbsolute (.ofText path) →
    (∀ id checkout, ¬ catalog.IsDeepest (.ofText path) id checkout) →
    (∀ validateDeclaredComponents, ∃ error,
      catalog.resolveDeclaredPath validateDeclaredComponents path = .error error ∧
        error.kind = .repositoryNotConfigured) ∧
    ∀ roots : List HostPath,
      (roots.any fun workspace => (HostPath.ofText path).startsWith workspace) = true →
      ∃ error, catalog.resolveCanonicalFile path roots = .error error ∧
        error.kind = .repositoryNotConfigured
  activated : ∀ directory : String, PlainAbsolute (.ofText directory) →
    ∃ scope, catalog.resolveRecordedActivationScope (.ofText directory) = .ok scope ∧
      ∀ id, scope.Activates id ↔ catalog.ActivatedIn (.ofText directory) id
  added : catalog.AddsOnlyDeeper

theorem hasCheckout_withRepositories {earlier later : List RepositoryCatalogEntry}
    {added : RepositoryCatalogEntry}
    (split : catalog.repositories = earlier ++ added :: later) {id : RepositoryId}
    {checkout : HostPath} :
    catalog.HasCheckout id checkout ↔
      (catalog.withRepositories (earlier ++ later)).HasCheckout id checkout ∨
        added.repositoryId = id ∧ checkout ∈ added.checkoutPaths := by
  unfold HasCheckout withRepositories
  rw [split]
  simp only [List.mem_append, List.mem_cons]
  constructor
  · rintro ⟨entry, before | rfl | after, owned⟩
    · exact .inl ⟨entry, .inl before, owned⟩
    · exact .inr owned
    · exact .inl ⟨entry, .inr after, owned⟩
  · rintro (⟨entry, before | after, owned⟩ | owned)
    · exact ⟨entry, .inl before, owned⟩
    · exact ⟨entry, .inr (.inr after), owned⟩
    · exact ⟨added, .inr (.inl rfl), owned⟩

theorem addsOnlyDeeper (distinct : catalog.Distinct) : catalog.AddsOnlyDeeper := by
  intro earlier added later split directory scope before plain resolved resolvedBefore id
    activatedBefore dropped
  have listed := @hasCheckout_withRepositories catalog _ _ _ split
  generalize smaller : catalog.withRepositories (earlier ++ later) = less at *
  have lessDistinct : less.Distinct := fun first second checkout one two =>
    distinct first second checkout (listed.mpr (.inl one)) (listed.mpr (.inl two))
  obtain ⟨found, foundEq, activates⟩ := resolveRecordedActivationScope_spec distinct plain
  obtain rfl := Except.ok.inj (resolved.symm.trans foundEq)
  obtain ⟨foundBefore, foundBeforeEq, activatesBefore⟩ :=
    resolveRecordedActivationScope_spec lessDistinct plain
  obtain rfl := Except.ok.inj (resolvedBefore.symm.trans foundBeforeEq)
  rw [activates] at dropped
  rw [activatesBefore] at activatedBefore
  -- What is deeper than every old checkout is one of the added repository.
  have takesOver : ∀ owner checkout, catalog.IsDeepest directory owner checkout →
      (∀ otherId other, less.HasCheckout otherId other → directory.startsWith other = true →
        other.components.length < checkout.components.length) →
      ∃ checkout ∈ added.checkoutPaths,
        catalog.IsDeepest directory added.repositoryId checkout ∧
        ∀ other otherCheckout, less.HasCheckout other otherCheckout →
          directory.startsWith otherCheckout = true →
          otherCheckout.components.length < checkout.components.length := by
    intro owner checkout deepest deeper
    rcases listed.mp deepest.listed with old | ⟨isAdded, member⟩
    · exact absurd (deeper _ _ old deepest.contains) (Nat.lt_irrefl _)
    · exact ⟨checkout, member, isAdded ▸ deepest, deeper⟩
  rcases activatedBefore with ⟨checkout, deepestBefore⟩ | ⟨outside, unguarded, checkout, below⟩
  · obtain ⟨owner, deeper, deepest⟩ :=
      exists_isDeepest (listed.mpr (.inl deepestBefore.listed)) deepestBefore.contains
    have other : owner ≠ id := by
      rintro rfl
      exact dropped (.inl ⟨deeper, deepest⟩)
    refine takesOver owner deeper deepest fun otherId otherCheckout old contains => ?_
    have notDeeper := deepestBefore.deepest otherId otherCheckout old contains
    have atLeast := deepest.deepest _ _ (listed.mpr (.inl deepestBefore.listed))
      deepestBefore.contains
    rcases Nat.lt_or_eq_of_le atLeast with less | same
    · omega
    · have onePath := eq_of_startsWith deepestBefore.contains deepest.contains same
      subst onePath
      exact absurd (distinct _ _ _ deepest.listed (listed.mpr (.inl deepestBefore.listed))) other
  · by_cases anywhere : ∃ owner deepest, catalog.IsDeepest directory owner deepest
    · obtain ⟨owner, deeper, deepest⟩ := anywhere
      have noneBefore : ∀ otherId otherCheckout, less.HasCheckout otherId otherCheckout →
          directory.startsWith otherCheckout = true → False := by
        intro otherId otherCheckout old contains
        obtain ⟨first, firstCheckout, isFirst⟩ := exists_isDeepest old contains
        exact outside first firstCheckout isFirst
      exact takesOver owner deeper deepest fun otherId otherCheckout old contains =>
        (noneBefore otherId otherCheckout old contains).elim
    · refine absurd (.inr ⟨fun owner deepest isDeepest => anywhere ⟨owner, deepest, isDeepest⟩, ?_,
        checkout, listed.mpr (.inl below.1), below.2⟩) dropped
      rw [← unguarded, ← smaller]
      rfl

theorem oneRule_of_distinct (distinct : catalog.Distinct) : catalog.OneRule where
  owned path _ := ⟨_, deepestCheckoutFor_eq distinct _, fun _ _ => head?_checkoutsFor distinct⟩
  declared path checks id checkout plain owner passes := by
    obtain ⟨others, found⟩ := checkoutsFor_of_isDeepest distinct owner
    have accepted : validateAbsolutePath (.ofText path) "declared Artifact path" = .ok () :=
      validateAbsolutePath_eq_ok.mpr plain
    unfold resolveDeclaredPath
    rw [accepted, found]
    change (do checks (.ofText path) checkout; _) = _
    rw [passes]
    cases repoRelativePath (relativeText path checkout) <;> rfl
  canonical path roots id checkout plain owner inside := by
    obtain ⟨others, found⟩ := checkoutsFor_of_isDeepest distinct owner
    have accepted : validateAbsolutePath (.ofText path) "canonical file path" = .ok () :=
      validateAbsolutePath_eq_ok.mpr plain
    have allowed : Result.require ((roots.any fun workspace =>
        (HostPath.ofText path).startsWith workspace) = true)
        (invalid "file path is outside the allowed Workspace") = .ok () :=
      Result.require_eq_ok.mpr inside
    unfold resolveCanonicalFile
    rw [accepted, allowed, found]
    change (do let relativePath ← repoRelativePath (relativeText path checkout); _) = _
    cases repoRelativePath (relativeText path checkout) <;> rfl
  outside path plain noOwner := by
    have none := checkoutsFor_eq_nil noOwner
    constructor
    · intro checks
      have accepted : validateAbsolutePath (.ofText path) "declared Artifact path" = .ok () :=
        validateAbsolutePath_eq_ok.mpr plain
      unfold resolveDeclaredPath
      rw [accepted, none]
      exact ⟨_, rfl, rfl⟩
    · intro roots inside
      have accepted : validateAbsolutePath (.ofText path) "canonical file path" = .ok () :=
        validateAbsolutePath_eq_ok.mpr plain
      have allowed : Result.require ((roots.any fun workspace =>
          (HostPath.ofText path).startsWith workspace) = true)
          (invalid "file path is outside the allowed Workspace") = .ok () :=
        Result.require_eq_ok.mpr inside
      unfold resolveCanonicalFile
      rw [accepted, allowed, none]
      exact ⟨_, rfl, rfl⟩
  activated directory plain := resolveRecordedActivationScope_spec distinct plain
  added := addsOnlyDeeper distinct

end RepositoryCatalogSnapshot

/-! ### Accepted documents -/

/-- Texts that stand for one path are of one repository. -/
def ConfigDocument.NoSharedSpelling (document : ConfigDocument) : Prop :=
  ∀ first ∈ document.repositories, ∀ second ∈ document.repositories,
    ∀ firstPath ∈ first.paths, ∀ secondPath ∈ second.paths,
    HostPath.ofText firstPath = HostPath.ofText secondPath → first.id = second.id

theorem hasCheckout_catalogSnapshot {document : ConfigDocument} {home : Option HostPath}
    {id : RepositoryId} {checkout : HostPath} :
    (catalogSnapshot document home).HasCheckout id checkout ↔
      ∃ repository ∈ document.repositories, repository.id = id ∧
        ∃ path ∈ repository.paths, HostPath.ofText path = checkout := by
  unfold RepositoryCatalogSnapshot.HasCheckout catalogSnapshot
  simp only [List.mem_map]
  constructor
  · rintro ⟨_, ⟨repository, listed, rfl⟩, rfl, member⟩
    exact ⟨repository, listed, rfl, List.mem_map.mp member⟩
  · rintro ⟨repository, listed, rfl, member⟩
    exact ⟨repository.entry, ⟨repository, listed, rfl⟩, rfl, List.mem_map.mpr member⟩

theorem distinct_of_noSharedSpelling {document : ConfigDocument} {home : Option HostPath}
    (noShared : document.NoSharedSpelling) : (catalogSnapshot document home).Distinct := by
  intro first second checkout one two
  obtain ⟨firstRepository, firstListed, rfl, firstPath, firstMember, firstSame⟩ :=
    hasCheckout_catalogSnapshot.mp one
  obtain ⟨secondRepository, secondListed, rfl, secondPath, secondMember, secondSame⟩ :=
    hasCheckout_catalogSnapshot.mp two
  exact noShared _ firstListed _ secondListed _ firstMember _ secondMember
    (firstSame.trans secondSame.symm)

theorem plain_of_validateCheckoutPaths {id : RepositoryId} {listed own : List String}
    {paths found : List (String × RepositoryId)}
    (valid : validateCheckoutPaths id listed own paths = .ok found) :
    ∀ path ∈ listed, PlainAbsolute (.ofText path) := by
  induction listed generalizing own paths with
  | nil => simp
  | cons path rest ih =>
      simp only [validateCheckoutPaths, Result.seq_eq_ok, validateAbsolutePath_eq_ok] at valid
      obtain ⟨plain, -, onward⟩ := valid
      split at onward
      · cases onward
      · exact List.forall_mem_cons.mpr ⟨plain, ih onward⟩

theorem plain_of_validateRepositories {repositories : List RepositoryConfigDocument}
    {ids : List RepositoryId} {paths : List (String × RepositoryId)}
    (valid : validateRepositories repositories ids paths = .ok ()) :
    ∀ repository ∈ repositories, ∀ path ∈ repository.paths, PlainAbsolute (.ofText path) := by
  induction repositories generalizing ids paths with
  | nil => simp
  | cons repository rest ih =>
      simp only [validateRepositories, Result.bind_eq_ok, Result.exists_unit] at valid
      obtain ⟨-, -, found, own, onward⟩ := valid
      exact List.forall_mem_cons.mpr ⟨plain_of_validateCheckoutPaths own, ih onward⟩

/-- For an accepted document the ownership of checkouts is one rule exactly if no two repositories
list one path in two spellings. -/
theorem one_rule_iff (document : ConfigDocument) (expected : String) (home : Option HostPath)
    (valid : validateDocumentStructure document expected = .ok ()) :
    (catalogSnapshot document home).OneRule ↔ document.NoSharedSpelling := by
  constructor
  · intro rule first firstListed second secondListed firstPath firstMember secondPath secondMember
      same
    by_contra different
    simp only [validateDocumentStructure, Result.seq_eq_ok, validateRepositoryDocuments] at valid
    obtain ⟨-, -, -, repositories⟩ := valid
    have plain := plain_of_validateRepositories repositories first firstListed firstPath firstMember
    obtain ⟨owner, found, -⟩ := rule.owned firstPath plain
    have ambiguous := @RepositoryCatalogSnapshot.deepestCheckoutFor_shared
      (catalogSnapshot document home) _ _ _
      (hasCheckout_catalogSnapshot.mpr ⟨first, firstListed, rfl, firstPath, firstMember, rfl⟩)
      (hasCheckout_catalogSnapshot.mpr
        ⟨second, secondListed, rfl, secondPath, secondMember, same.symm⟩) different
    rw [ambiguous] at found
    cases found
  · intro noShared
    exact RepositoryCatalogSnapshot.oneRule_of_distinct (distinct_of_noSharedSpelling noShared)

/-- Two repositories, one checked out inside the other. -/
def nestedDocument : ConfigDocument :=
  ⟨1, "/store", [⟨⟨"outer"⟩, ["/work/outer"]⟩, ⟨⟨"inner"⟩, ["/work/outer/vendor/inner"]⟩], false⟩

theorem one_rule_iff_nestedDocument : (catalogSnapshot nestedDocument none).OneRule :=
  (one_rule_iff nestedDocument "/store" none (by decide)).mpr
    (by unfold ConfigDocument.NoSharedSpelling nestedDocument; decide)

/-- Two repositories that list one directory, the second with a separator at its end. -/
def twiceListedDocument : ConfigDocument :=
  ⟨1, "/store", [⟨⟨"first"⟩, ["/work/app"]⟩, ⟨⟨"second"⟩, ["/work/app/"]⟩], false⟩

/-- The document is accepted, and its directory is ambiguous. -/
theorem twice_listed_ambiguous :
    validateDocumentStructure twiceListedDocument "/store" = .ok () ∧
    (catalogSnapshot twiceListedDocument none).deepestCheckoutFor (.ofText "/work/app") =
      .error (invariant "ActivationScope has ambiguous checkout ownership") ∧
    ¬ (catalogSnapshot twiceListedDocument none).OneRule := by
  have ambiguous : (catalogSnapshot twiceListedDocument none).deepestCheckoutFor
      (.ofText "/work/app") =
        .error (invariant "ActivationScope has ambiguous checkout ownership") := by
    decide
  refine ⟨by decide, ambiguous, fun rule => ?_⟩
  obtain ⟨owner, found, -⟩ := rule.owned "/work/app" ⟨by decide, by decide⟩
  rw [ambiguous] at found
  cases found

end SharedContext.LocalState
