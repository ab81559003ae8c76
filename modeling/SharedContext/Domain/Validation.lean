import Mathlib

/-!
# Errors and field checks

The error type shared by the workspace crates and the small checks every
domain validator is built from.  A check either passes or names the field it
rejected.
-/

namespace SharedContext

/-- Broad categories used to route recoverable errors across crate boundaries. -/
inductive ErrorKind
  | invalidInput
  | invariantViolation
  | io
  | external
  | conflict
  | staleState
  | privacyRejected
  | unsupported
  | repositoryNotConfigured
  | idempotencyKeyConflict
  | maintenanceBusy
  deriving DecidableEq, Repr

/-- The user-presentable error of the workspace crates. -/
structure Error where
  kind : ErrorKind
  message : String
  deriving DecidableEq, Repr

/-- The workspace-wide result type. -/
abbrev Result (α : Type) := Except Error α

def invalid (message : String) : Error :=
  ⟨.invalidInput, message⟩

def Result.isOk {α : Type} : Result α → Bool
  | .ok _ => true
  | .error _ => false

/-- The Unicode `White_Space` property, which `str::trim` strips. -/
def isWhiteSpace (character : Char) : Bool :=
  let code := character.toNat
  (9 ≤ code && code ≤ 13) || code == 0x20 || code == 0x85 || code == 0xA0 ||
    code == 0x1680 || (0x2000 ≤ code && code ≤ 0x200A) || code == 0x2028 ||
    code == 0x2029 || code == 0x202F || code == 0x205F || code == 0x3000

/-- `value.trim().is_empty()`. -/
def isBlank (value : String) : Bool :=
  value.toList.all isWhiteSpace

/-- `value.split_whitespace().count()`: the number of maximal runs of
characters that are not white space. -/
def splitWhitespaceCount (value : String) : Nat :=
  ((value.toList.splitOnP isWhiteSpace).filter fun run => !run.isEmpty).length

def requireText (value field : String) : Result Unit :=
  if isBlank value then .error (invalid s!"{field} must not be empty") else .ok ()

def requireTextItems (values : List String) (field : String) : Result Unit :=
  (values.zipIdx).forM fun entry => requireText entry.1 s!"{field}[{entry.2}]"

def validateOptionalText (value : Option String) (field : String) : Result Unit :=
  match value with
  | some value => requireText value field
  | none => .ok ()

def requireUnique {α : Type} [DecidableEq α] (values : List α) (field : String) :
    Result Unit :=
  if values.Nodup then .ok ()
  else .error (invalid s!"{field} must not contain duplicates")

/-- Prefix the message of a failed check. -/
def Result.context {α : Type} (result : Result α) (wrap : String → String) : Result α :=
  match result with
  | .ok value => .ok value
  | .error error => .error (invalid (wrap error.message))

@[simp]
theorem requireText_eq_ok {value field : String} :
    requireText value field = .ok () ↔ isBlank value = false := by
  unfold requireText
  cases isBlank value <;> simp

@[simp]
theorem Result.context_eq_ok {α : Type} {result : Result α} {wrap : String → String}
    {value : α} : result.context wrap = .ok value ↔ result = .ok value := by
  cases result <;> simp [Result.context]

@[simp]
theorem Result.pure_eq_ok {ε α : Type} {first second : α} :
    (pure first : Except ε α) = .ok second ↔ first = second := by
  simp [pure, Except.pure]

@[simp]
theorem Result.throw_ne_ok {ε α : Type} {error : ε} {value : α} :
    ¬ (throw error : Except ε α) = .ok value := by
  simp [throw, throwThe, MonadExceptOf.throw]

theorem Result.map_eq_ok {ε α β : Type} {result : Except ε α} {change : α → β} {value : β} :
    result.map change = .ok value ↔ ∃ first, result = .ok first ∧ change first = value := by
  cases result <;> simp [Except.map]

/-- A check returns nothing but that it passed. -/
@[simp]
theorem Result.exists_unit {passes : Unit → Prop} : (∃ value, passes value) ↔ passes () :=
  ⟨fun ⟨_, passed⟩ => passed, fun passed => ⟨(), passed⟩⟩

theorem Result.bind_eq_ok {ε α β : Type} {result : Except ε α} {next : α → Except ε β}
    {value : β} :
    (result >>= next) = .ok value ↔ ∃ first, result = .ok first ∧ next first = .ok value := by
  cases result with
  | error error => simp [bind, Except.bind]
  | ok first => simp [bind, Except.bind]

@[simp]
theorem Result.seq_eq_ok {ε β : Type} {result : Except ε Unit} {next : Unit → Except ε β}
    {value : β} :
    (result >>= next) = .ok value ↔ result = .ok () ∧ next () = .ok value := by
  rw [Result.bind_eq_ok]
  constructor
  · rintro ⟨⟨⟩, passed, rest⟩
    exact ⟨passed, rest⟩
  · rintro ⟨passed, rest⟩
    exact ⟨(), passed, rest⟩

theorem Result.forM_eq_ok {ε α : Type} {items : List α} {check : α → Except ε Unit} :
    items.forM check = .ok () ↔ ∀ item ∈ items, check item = .ok () := by
  induction items with
  | nil => simp [pure, Except.pure]
  | cons item items ih =>
      change (check item >>= fun _ => items.forM check) = .ok () ↔ _
      rw [Result.seq_eq_ok, ih, List.forall_mem_cons]

theorem Result.mapM_members {ε α β : Type} {step : α → Except ε β} {items : List α}
    {results : List β}
    (traversed : items.mapM step = .ok results) :
    (∀ item ∈ items, ∃ result ∈ results, step item = .ok result) ∧
      ∀ result ∈ results, ∃ item ∈ items, step item = .ok result := by
  induction items generalizing results with
  | nil =>
      rw [List.mapM_nil, Result.pure_eq_ok] at traversed
      simp [← traversed]
  | cons item items induction =>
      rw [List.mapM_cons, Result.bind_eq_ok] at traversed
      obtain ⟨first, stepped, rest⟩ := traversed
      obtain ⟨others, traversed, same⟩ := Result.bind_eq_ok.mp rest
      rw [Result.pure_eq_ok] at same
      subst same
      obtain ⟨forward, backward⟩ := induction traversed
      constructor
      · intro asked listed
        rcases List.mem_cons.mp listed with rfl | listed
        · exact ⟨first, List.mem_cons_self, stepped⟩
        · obtain ⟨result, found, answered⟩ := forward asked listed
          exact ⟨result, List.mem_cons_of_mem _ found, answered⟩
      · intro result listed
        rcases List.mem_cons.mp listed with rfl | listed
        · exact ⟨item, List.mem_cons_self, stepped⟩
        · obtain ⟨asked, found, answered⟩ := backward result listed
          exact ⟨asked, List.mem_cons_of_mem _ found, answered⟩

/-- Report an error unless a condition holds. -/
def Result.require (passes : Prop) [Decidable passes] (error : Error) : Result Unit :=
  if passes then .ok () else .error error

@[simp]
theorem Result.require_eq_ok {passes : Prop} [Decidable passes] {error : Error} :
    Result.require passes error = .ok () ↔ passes := by
  unfold Result.require
  split <;> simp [*]

end SharedContext
