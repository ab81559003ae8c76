import Mathlib

/-!
# Walks of bounded depth

A walk follows every route of one depth, in order, before any route of the
next depth; following a route changes a state and yields longer routes.  This
is a queue whose entries are dropped when they are as long as the bound.
-/

namespace SharedContext.BoundedWalk

variable {σ ρ α ε : Type}

/-- Treat the items from left to right, and collect what they yield. -/
def gather (each : σ → α → Except ε (σ × List ρ)) : σ → List α → Except ε (σ × List ρ)
  | state, [] => pure (state, [])
  | state, item :: items => do
      let (next, found) ← each state item
      let (last, others) ← gather each next items
      pure (last, found ++ others)

/-- Follow the routes, then the routes they yield, down to a depth. -/
def walk (follow : σ → ρ → Except ε (σ × List ρ)) : Nat → σ → List ρ → Except ε σ
  | 0, state, _ => pure state
  | depth + 1, state, routes => do
      let (next, found) ← gather follow state routes
      walk follow depth next found

private theorem bind_ok {β γ : Type} {first : Except ε β} {next : β → Except ε γ} {value : γ}
    (returned : (first >>= next) = .ok value) :
    ∃ middle, first = .ok middle ∧ next middle = .ok value := by
  cases first with
  | error error => nomatch returned
  | ok middle => exact ⟨middle, rfl, returned⟩

/-- What one step of a fold keeps, the whole fold keeps. -/
theorem foldlM_keeps {step : σ → α → Except ε σ} {kept : σ → Prop} {items : List α}
    (keeps : ∀ state, ∀ item ∈ items, ∀ next, kept state → step state item = .ok next → kept next)
    {state last : σ} (holds : kept state) (folded : items.foldlM step state = .ok last) :
    kept last := by
  induction items generalizing state with
  | nil =>
      obtain rfl := Except.ok.inj folded
      exact holds
  | cons item items ih =>
      rw [List.foldlM_cons] at folded
      obtain ⟨next, stepped, rest⟩ := bind_ok folded
      exact ih (fun state other member => keeps state other (List.mem_cons_of_mem _ member))
        (keeps state item List.mem_cons_self next holds stepped) rest

theorem gather_keeps {each : σ → α → Except ε (σ × List ρ)} {kept : σ → Prop}
    {yielded : ρ → Prop} {items : List α}
    (keeps : ∀ state, ∀ item ∈ items, ∀ next found, kept state →
      each state item = .ok (next, found) → kept next ∧ ∀ route ∈ found, yielded route)
    {state last : σ} {routes : List ρ} (holds : kept state)
    (gathered : gather each state items = .ok (last, routes)) :
    kept last ∧ ∀ route ∈ routes, yielded route := by
  induction items generalizing state routes with
  | nil =>
      obtain ⟨rfl, rfl⟩ := Prod.mk.inj (Except.ok.inj gathered)
      exact ⟨holds, by simp⟩
  | cons item items ih =>
      rw [gather] at gathered
      obtain ⟨⟨next, found⟩, treated, rest⟩ := bind_ok gathered
      obtain ⟨⟨final, others⟩, remaining, same⟩ := bind_ok rest
      obtain ⟨rfl, rfl⟩ := Prod.mk.inj (Except.ok.inj same)
      obtain ⟨nextHolds, foundYielded⟩ :=
        keeps state item List.mem_cons_self next found holds treated
      obtain ⟨lastHolds, othersYielded⟩ := ih
        (fun state other member => keeps state other (List.mem_cons_of_mem _ member))
        nextHolds remaining
      refine ⟨lastHolds, ?_⟩
      intro route member
      rcases List.mem_append.mp member with member | member
      · exact foundYielded route member
      · exact othersYielded route member

/-- An invariant of the state, and of the routes under way, holds at the end of a walk. -/
theorem walk_keeps {follow : σ → ρ → Except ε (σ × List ρ)} {kept : σ → Prop} (under : ρ → Prop)
    (keeps : ∀ state route next found, kept state → under route →
      follow state route = .ok (next, found) → kept next ∧ ∀ other ∈ found, under other)
    {depth : Nat} {state last : σ} {routes : List ρ} (holds : kept state)
    (onWay : ∀ route ∈ routes, under route)
    (walked : walk follow depth state routes = .ok last) : kept last := by
  induction depth generalizing state routes with
  | zero =>
      obtain rfl := Except.ok.inj walked
      exact holds
  | succ depth ih =>
      rw [walk] at walked
      obtain ⟨⟨next, found⟩, gathered, rest⟩ := bind_ok walked
      obtain ⟨nextHolds, foundUnder⟩ := gather_keeps
        (fun state route member next found stateHolds treated =>
          keeps state route next found stateHolds (onWay route member) treated) holds gathered
      exact ih nextHolds foundUnder rest

end SharedContext.BoundedWalk
