import Mathlib

/-!
# Programs that can be interrupted

A program reads and changes a state, may refuse with an error, and passes
seams at which its process may die.  A machine carries the number of seams it
still passes; without such a budget it never dies.  Whatever stops a program,
the state stays as it was at that point.
-/

namespace SharedContext

/-- Why a program stopped early. -/
inductive Stop (κ ε : Type)
  | crashed (seam : κ)
  | refused (error : ε)

/-- A state, and the number of seams still to pass when that is limited. -/
structure Machine (σ : Type) where
  state : σ
  budget : Option Nat

/-- A program over states `σ` with seams `κ` and errors `ε`. -/
def Interruptible (κ ε σ α : Type) : Type :=
  Machine σ → Except (Stop κ ε) α × Machine σ

namespace Interruptible

variable {κ ε σ α β : Type}

instance : Monad (Interruptible κ ε σ) where
  pure result := fun machine => (.ok result, machine)
  bind program next := fun machine =>
    match program machine with
    | (.ok result, final) => next result final
    | (.error stop, final) => (.error stop, final)

def seam (name : κ) : Interruptible κ ε σ Unit := fun machine =>
  match machine.budget with
  | some 0 => (.error (.crashed name), machine)
  | some (remaining + 1) => (.ok (), { machine with budget := some remaining })
  | none => (.ok (), machine)

def refuse (error : ε) : Interruptible κ ε σ α := fun machine =>
  (.error (.refused error), machine)

def inspect (look : σ → Except ε α) : Interruptible κ ε σ α := fun machine =>
  match look machine.state with
  | .ok result => (.ok result, machine)
  | .error error => (.error (.refused error), machine)

/-- Change the state, refusing when that fails. -/
def update (step : σ → Except ε σ) : Interruptible κ ε σ Unit := fun machine =>
  match step machine.state with
  | .ok state => (.ok (), { machine with state })
  | .error error => (.error (.refused error), machine)

/-- Take a step that may change the state even when it refuses. -/
def act (step : σ → Except ε α × σ) : Interruptible κ ε σ α := fun machine =>
  match step machine.state with
  | (.ok result, state) => (.ok result, { machine with state })
  | (.error error, state) => (.error (.refused error), { machine with state })

/-- Run the handler when the program refuses.  A crash is not handled, and a
machine without a budget stays without one. -/
def handle (program : Interruptible κ ε σ α) (handler : ε → Interruptible κ ε σ α) :
    Interruptible κ ε σ α := fun machine =>
  match program machine with
  | (.error (.refused error), final) =>
      handler error { final with budget := machine.budget.bind fun _ => final.budget }
  | (.error (.crashed seam), final) => (.error (.crashed seam), final)
  | (.ok result, final) => (.ok result, final)

def forEach (items : List α) (body : α → Interruptible κ ε σ Unit) : Interruptible κ ε σ Unit :=
  match items with
  | [] => pure ()
  | item :: rest => do
      body item
      forEach rest body

/-- Run the body for every item, in order, and list the results. -/
def gather (items : List α) (body : α → Interruptible κ ε σ β) :
    Interruptible κ ε σ (List β) :=
  match items with
  | [] => pure []
  | item :: rest => do
      let result ← body item
      let results ← gather rest body
      pure (result :: results)

/-- From a state in `before` the program ends in `after`, refuses only in
`refused`, and dies only under a budget and in `crashed`. -/
def Ensures (before : σ → Prop) (program : Interruptible κ ε σ α) (after : α → σ → Prop)
    (refused : ε → σ → Prop) (crashed : σ → Prop) : Prop :=
  ∀ machine, before machine.state →
    match program machine with
    | (.ok result, final) =>
        after result final.state ∧ (machine.budget = none → final.budget = none)
    | (.error (.refused error), final) => refused error final.state
    | (.error (.crashed _), final) => crashed final.state ∧ machine.budget ≠ none

variable {before : σ → Prop} {after : α → σ → Prop} {refused : ε → σ → Prop} {crashed : σ → Prop}
  {program : Interruptible κ ε σ α}

theorem ensures_pure {result : α} (holds : ∀ state, before state → after result state) :
    Ensures before (pure result : Interruptible κ ε σ α) after refused crashed :=
  fun machine started => ⟨holds machine.state started, id⟩

theorem ensures_bind {next : α → Interruptible κ ε σ β} {last : β → σ → Prop}
    (middle : α → σ → Prop) (first : Ensures before program middle refused crashed)
    (rest : ∀ result, Ensures (middle result) (next result) last refused crashed) :
    Ensures before (program >>= next) last refused crashed := by
  intro machine started
  have ranFirst := first machine started
  change match (match program machine with
    | (.ok result, final) => next result final
    | (.error stop, final) => (.error stop, final)) with
    | (.ok result, final) => _
    | (.error (.refused error), final) => _
    | (.error (.crashed _), final) => _
  rcases ran : program machine with ⟨result | result, middleMachine⟩
  · rw [ran] at ranFirst
    cases result with
    | crashed => exact ranFirst
    | refused => exact ranFirst
  · rw [ran] at ranFirst
    obtain ⟨reached, unlimited⟩ := ranFirst
    have ranRest := rest result middleMachine reached
    simp only
    rcases ranNext : next result middleMachine with ⟨stop | final, finalMachine⟩
    · rw [ranNext] at ranRest
      cases stop with
      | crashed => exact ⟨ranRest.1, fun isNone => ranRest.2 (unlimited isNone)⟩
      | refused => exact ranRest
    · rw [ranNext] at ranRest
      exact ⟨ranRest.1, fun isNone => ranRest.2 (unlimited isNone)⟩

theorem ensures_seam {name : κ} (mayCrash : ∀ state, before state → crashed state) :
    Ensures before (seam name : Interruptible κ ε σ Unit) (fun _ => before) refused crashed := by
  intro machine started
  obtain ⟨state, budget⟩ := machine
  match budget with
  | none => exact ⟨started, id⟩
  | some 0 => exact ⟨mayCrash state started, nofun⟩
  | some (remaining + 1) => exact ⟨started, nofun⟩

theorem ensures_refuse {error : ε} (holds : ∀ state, before state → refused error state) :
    Ensures before (refuse error : Interruptible κ ε σ α) after refused crashed :=
  fun machine started => holds machine.state started

/-- Reading changes nothing. -/
theorem ensures_inspect {look : σ → Except ε α}
    (failed : ∀ state error, before state → look state = .error error → refused error state) :
    Ensures before (inspect look : Interruptible κ ε σ α)
      (fun result state => before state ∧ look state = .ok result) refused crashed := by
  intro machine started
  unfold inspect
  cases looked : look machine.state with
  | error error => exact failed _ _ started looked
  | ok result => exact ⟨⟨started, looked⟩, id⟩

theorem ensures_update {step : σ → Except ε σ} {last : Unit → σ → Prop}
    (stepped : ∀ state next, before state → step state = .ok next → last () next)
    (failed : ∀ state error, before state → step state = .error error → refused error state) :
    Ensures before (update step : Interruptible κ ε σ Unit) last refused crashed := by
  intro machine started
  unfold update
  cases taken : step machine.state with
  | error error => exact failed _ _ started taken
  | ok state => exact ⟨stepped _ _ started taken, id⟩

theorem ensures_act {step : σ → Except ε α × σ}
    (stepped : ∀ state, before state →
      match step state with
      | (.ok result, next) => after result next
      | (.error error, next) => refused error next) :
    Ensures before (act step : Interruptible κ ε σ α) after refused crashed := by
  intro machine started
  have taken := stepped machine.state started
  unfold act
  rcases isStep : step machine.state with ⟨error | result, state⟩
  · rw [isStep] at taken
    exact taken
  · rw [isStep] at taken
    exact ⟨taken, id⟩

theorem ensures_handle {handler : ε → Interruptible κ ε σ α} (middle : ε → σ → Prop)
    (tried : Ensures before program after middle crashed)
    (handled : ∀ error, Ensures (middle error) (handler error) after refused crashed) :
    Ensures before (handle program handler) after refused crashed := by
  intro machine started
  have ran := tried machine started
  unfold handle
  rcases isRun : program machine with ⟨stop | result, final⟩
  · rw [isRun] at ran
    cases stop with
    | crashed => exact ran
    | refused error =>
        let resumed : Machine σ :=
          { final with budget := machine.budget.bind fun _ => final.budget }
        have unlimited : machine.budget = none → resumed.budget = none := by
          intro isNone
          change machine.budget.bind _ = none
          rw [isNone]
          rfl
        have handlerRan := handled error resumed ran
        change match handler error resumed with
          | (.ok result, last) => _
          | (.error (.refused error), last) => _
          | (.error (.crashed _), last) => _
        rcases isHandled : handler error resumed with ⟨stop | result, last⟩
        · rw [isHandled] at handlerRan
          cases stop with
          | crashed => exact ⟨handlerRan.1, fun isNone => handlerRan.2 (unlimited isNone)⟩
          | refused => exact handlerRan
        · rw [isHandled] at handlerRan
          exact ⟨handlerRan.1, fun isNone => handlerRan.2 (unlimited isNone)⟩
  · rw [isRun] at ran
    exact ran

theorem ensures_forEach (left : List α → σ → Prop) {body : α → Interruptible κ ε σ Unit}
    {items : List α}
    (each : ∀ item ∈ items, ∀ rest, Ensures (left (item :: rest)) (body item) (fun _ => left rest)
      refused crashed) :
    Ensures (left items) (forEach items body) (fun _ => left []) refused crashed := by
  induction items with
  | nil => exact ensures_pure fun _ started => started
  | cons item rest ih =>
      have later := ih fun other member => each other (List.mem_cons_of_mem _ member)
      exact ensures_bind (fun _ => left rest) (each item List.mem_cons_self rest) fun _ => later

theorem ensures_gather (left : List α → σ → Prop) {body : α → Interruptible κ ε σ β}
    {items : List α}
    (each : ∀ item ∈ items, ∀ rest, Ensures (left (item :: rest)) (body item) (fun _ => left rest)
      refused crashed) :
    Ensures (left items) (gather items body) (fun _ => left []) refused crashed := by
  induction items with
  | nil => exact ensures_pure fun _ started => started
  | cons item rest ih =>
      have later := ih fun other member => each other (List.mem_cons_of_mem _ member)
      refine ensures_bind (fun _ => left rest) (each item List.mem_cons_self rest) fun result => ?_
      exact ensures_bind (fun _ => left []) later fun results => ensures_pure fun _ ended => ended

theorem Ensures.weaken {before' : σ → Prop} {after' : α → σ → Prop} {refused' : ε → σ → Prop}
    {crashed' : σ → Prop} (ensured : Ensures before program after refused crashed)
    (start : ∀ state, before' state → before state)
    (finish : ∀ result state, after result state → after' result state)
    (refusal : ∀ error state, refused error state → refused' error state)
    (crash : ∀ state, crashed state → crashed' state) :
    Ensures before' program after' refused' crashed' := by
  intro machine started
  have ran := ensured machine (start _ started)
  rcases isRun : program machine with ⟨stop | result, final⟩
  · rw [isRun] at ran
    cases stop with
    | crashed => exact ⟨crash _ ran.1, ran.2⟩
    | refused => exact refusal _ _ ran
  · rw [isRun] at ran
    exact ⟨finish _ _ ran.1, ran.2⟩

theorem ensures_of_before {fact : Prop} (known : ∀ state, before state → fact)
    (ensured : fact → Ensures before program after refused crashed) :
    Ensures before program after refused crashed :=
  fun machine started => ensured (known _ started) machine started

/-- The results of a loop that changes nothing belong to its items, in order. -/
theorem ensures_gather_results {known : α → β → Prop} {body : α → Interruptible κ ε σ β}
    {items : List α}
    (each : ∀ item ∈ items, Ensures before (body item)
      (fun result state => before state ∧ known item result) refused crashed) :
    Ensures before (gather items body)
      (fun results state => before state ∧ List.Forall₂ known items results) refused crashed := by
  induction items with
  | nil => exact ensures_pure fun _ started => ⟨started, .nil⟩
  | cons item rest ih =>
      have later := ih fun other member => each other (List.mem_cons_of_mem _ member)
      refine ensures_bind _ (each item List.mem_cons_self) fun result => ?_
      refine ensures_of_before (fun _ started => started.2) fun here => ?_
      refine ensures_bind _ (later.weaken (fun _ started => started.1) (fun _ _ => id)
        (fun _ _ => id) fun _ => id) fun results => ?_
      exact ensures_pure fun _ ended => ⟨ended.1, .cons here ended.2⟩

theorem ensures_of_start
    (ensured : ∀ start, before start → Ensures (fun state => state = start) program after refused
      crashed) : Ensures before program after refused crashed :=
  fun machine started => ensured machine.state started machine rfl

theorem Ensures.final {invariant : σ → Prop}
    (ensured : Ensures before program (fun _ => invariant) (fun _ => invariant) invariant)
    (machine : Machine σ) (started : before machine.state) :
    invariant (program machine).2.state := by
  have ran := ensured machine started
  rcases isRun : program machine with ⟨stop | result, final⟩
  · rw [isRun] at ran
    cases stop with
    | crashed => exact ran.1
    | refused => exact ran
  · rw [isRun] at ran
    exact ran.1

theorem Ensures.finishes
    (ensured : Ensures before program after (fun _ _ => False) crashed) {state : σ}
    (started : before state) :
    ∃ result final, program ⟨state, none⟩ = (.ok result, ⟨final, none⟩) ∧ after result final := by
  have ran := ensured ⟨state, none⟩ started
  rcases isRun : program ⟨state, none⟩ with ⟨stop | result, final⟩
  · rw [isRun] at ran
    cases stop with
    | crashed => exact absurd rfl ran.2
    | refused => exact ran.elim
  · rw [isRun] at ran
    obtain ⟨finalState, budget⟩ := final
    obtain ⟨ended, unlimited⟩ := ran
    obtain rfl := unlimited rfl
    exact ⟨result, finalState, rfl, ended⟩

/-! ### Invariants -/

/-- The invariant holds wherever the program stops, and it refuses only if it may. -/
def Maintains (invariant : σ → Prop) (mayRefuse : Prop) (before : σ → Prop)
    (program : Interruptible κ ε σ α) (after : α → σ → Prop) : Prop :=
  Ensures (fun state => invariant state ∧ before state) program
    (fun result state => invariant state ∧ after result state)
    (fun _ state => mayRefuse ∧ invariant state) invariant

section Maintains

variable {invariant : σ → Prop} {mayRefuse : Prop}

theorem maintains_pure {result : α} (holds : ∀ state, before state → after result state) :
    Maintains invariant mayRefuse before (pure result : Interruptible κ ε σ α) after :=
  ensures_pure fun _ started => ⟨started.1, holds _ started.2⟩

theorem maintains_bind {next : α → Interruptible κ ε σ β} {last : β → σ → Prop}
    (middle : α → σ → Prop) (first : Maintains invariant mayRefuse before program middle)
    (rest : ∀ result, Maintains invariant mayRefuse (middle result) (next result) last) :
    Maintains invariant mayRefuse before (program >>= next) last :=
  ensures_bind _ first rest

theorem maintains_seam {name : κ} :
    Maintains invariant mayRefuse before (seam name : Interruptible κ ε σ Unit)
      fun _ => before :=
  ensures_seam fun _ started => started.1

theorem maintains_refuse {error : ε} (allowed : mayRefuse) :
    Maintains invariant mayRefuse before (refuse error : Interruptible κ ε σ α) after :=
  ensures_refuse fun _ started => ⟨allowed, started.1⟩

theorem maintains_inspect {look : σ → Except ε α}
    (failed : ∀ state error, invariant state → before state → look state = .error error →
      mayRefuse) :
    Maintains invariant mayRefuse before (inspect look : Interruptible κ ε σ α)
      fun result state => before state ∧ look state = .ok result :=
  (ensures_inspect fun state error started looked =>
    ⟨failed state error started.1 started.2 looked, started.1⟩).weaken
    (fun _ => id) (fun _ _ ended => ⟨ended.1.1, ended.1.2, ended.2⟩) (fun _ _ => id) fun _ => id

theorem maintains_update {step : σ → Except ε σ} {last : σ → Prop}
    (stepped : ∀ state next, invariant state → before state → step state = .ok next →
      invariant next ∧ last next)
    (failed : ∀ state error, invariant state → before state → step state = .error error →
      mayRefuse) :
    Maintains invariant mayRefuse before (update step : Interruptible κ ε σ Unit)
      fun _ => last :=
  ensures_update (fun _ _ started taken => stepped _ _ started.1 started.2 taken)
    fun _ _ started taken => ⟨failed _ _ started.1 started.2 taken, started.1⟩

theorem maintains_forEach (left : List α → σ → Prop) {body : α → Interruptible κ ε σ Unit}
    {items : List α}
    (each : ∀ item ∈ items, ∀ rest,
      Maintains invariant mayRefuse (left (item :: rest)) (body item) fun _ => left rest) :
    Maintains invariant mayRefuse (left items) (forEach items body) fun _ => left [] :=
  ensures_forEach (fun rest state => invariant state ∧ left rest state) each

theorem maintains_gather (left : List α → σ → Prop) {body : α → Interruptible κ ε σ β}
    {items : List α}
    (each : ∀ item ∈ items, ∀ rest,
      Maintains invariant mayRefuse (left (item :: rest)) (body item) fun _ => left rest) :
    Maintains invariant mayRefuse (left items) (gather items body) fun _ => left [] :=
  ensures_gather (fun rest state => invariant state ∧ left rest state) each

theorem Maintains.weaken {before' : σ → Prop} {after' : α → σ → Prop}
    (maintained : Maintains invariant mayRefuse before program after)
    (start : ∀ state, before' state → before state)
    (finish : ∀ result state, after result state → after' result state) :
    Maintains invariant mayRefuse before' program after' :=
  Ensures.weaken maintained (fun _ started => ⟨started.1, start _ started.2⟩)
    (fun _ _ ended => ⟨ended.1, finish _ _ ended.2⟩) (fun _ _ => id) fun _ => id

/-- A stretch that keeps a stronger invariant keeps the weaker one too. -/
theorem Maintains.widen {invariant' before' : σ → Prop}
    (maintained : Maintains invariant mayRefuse before program after)
    (start : ∀ state, before' state → invariant state ∧ before state)
    (widens : ∀ state, invariant state → invariant' state) :
    Maintains invariant' mayRefuse before' program
      fun result state => invariant state ∧ after result state :=
  Ensures.weaken maintained (fun _ started => start _ started.2)
    (fun _ _ ended => ⟨widens _ ended.1, ended⟩)
    (fun _ _ ended => ⟨ended.1, widens _ ended.2⟩) widens

theorem maintains_of_before {fact : Prop} (known : ∀ state, before state → fact)
    (maintained : fact → Maintains invariant mayRefuse before program after) :
    Maintains invariant mayRefuse before program after :=
  ensures_of_before (fun _ started => known _ started.2) maintained

theorem maintains_of_start
    (maintained : ∀ start, invariant start → before start →
      Maintains invariant mayRefuse (fun state => state = start) program after) :
    Maintains invariant mayRefuse before program after :=
  fun machine started =>
    maintained machine.state started.1 started.2 machine ⟨started.1, rfl⟩

theorem Maintains.final
    (maintained : Maintains invariant mayRefuse before program after) (machine : Machine σ)
    (holds : invariant machine.state) (started : before machine.state) :
    invariant (program machine).2.state :=
  (Ensures.weaken maintained (fun _ => id) (fun _ _ => And.left) (fun _ _ => And.right)
    fun _ => id).final machine ⟨holds, started⟩

theorem Maintains.finishes (maintained : Maintains invariant False before program after)
    {state : σ} (holds : invariant state) (started : before state) :
    ∃ result final, program ⟨state, none⟩ = (.ok result, ⟨final, none⟩) ∧
      invariant final ∧ after result final :=
  (Ensures.weaken maintained (fun _ => id) (fun _ _ => id) (fun _ _ => And.left)
    fun _ => id).finishes ⟨holds, started⟩

end Maintains

end Interruptible

end SharedContext
