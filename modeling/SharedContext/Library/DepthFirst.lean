import Mathlib

/-!
# Depth-first search that may refuse

A reference leads to a node, emits a piece itself, or is refused; a node has
references and emits its own piece after all of them.  A search visits every node
once, also when nodes refer to each other in cycles, and stops at the first
refusal.
-/

namespace SharedContext.DepthFirst

variable {κ ρ γ ε : Type} [DecidableEq κ]

structure Graph (κ ρ γ ε : Type) where
  resolve : ρ → Except ε (κ ⊕ γ)
  expand : κ → Except ε (List ρ × γ)

/-- The nodes entered so far, as a set and in their order, and the pieces emitted. -/
structure State (κ γ : Type) where
  visited : Finset κ
  listed : List κ
  emitted : List γ

def State.start : State κ γ :=
  ⟨∅, [], []⟩

def State.enter (state : State κ γ) (node : κ) : State κ γ :=
  ⟨insert node state.visited, state.listed ++ [node], state.emitted⟩

def State.emit (state : State κ γ) (piece : γ) : State κ γ :=
  { state with emitted := state.emitted ++ [piece] }

inductive Stop (ε : Type)
  | outOfFuel
  | refused (error : ε)

variable (graph : Graph κ ρ γ ε)

def follow (visit : κ → State κ γ → Except (Stop ε) (State κ γ)) (reference : ρ)
    (state : State κ γ) : Except (Stop ε) (State κ γ) :=
  match graph.resolve reference with
  | .error error => .error (.refused error)
  | .ok (.inr piece) => .ok (state.emit piece)
  | .ok (.inl node) => visit node state

def followAll (visit : κ → State κ γ → Except (Stop ε) (State κ γ)) :
    List ρ → State κ γ → Except (Stop ε) (State κ γ)
  | [], state => .ok state
  | reference :: rest, state =>
      match follow graph visit reference state with
      | .error stop => .error stop
      | .ok after => followAll visit rest after

def visit : Nat → κ → State κ γ → Except (Stop ε) (State κ γ)
  | 0, _, _ => .error .outOfFuel
  | fuel + 1, node, state =>
      if node ∈ state.visited then .ok state
      else
        match graph.expand node with
        | .error error => .error (.refused error)
        | .ok (references, piece) =>
            match followAll graph (visit fuel) references (state.enter node) with
            | .error stop => .error stop
            | .ok after => .ok (after.emit piece)

/-! ### What references lead to -/

/-- A reference that others lead to. -/
inductive Leads (starts : List ρ) : ρ → Prop
  | start {reference : ρ} (isStart : reference ∈ starts) : Leads starts reference
  | step {reference other : ρ} {node : κ} {references : List ρ} {piece : γ}
      (leads : Leads starts reference) (resolves : graph.resolve reference = .ok (.inl node))
      (expands : graph.expand node = .ok (references, piece)) (isNext : other ∈ references) :
      Leads starts other

/-- A node that references lead to. -/
def Reaches (starts : List ρ) (node : κ) : Prop :=
  ∃ reference, Leads graph starts reference ∧ graph.resolve reference = .ok (.inl node)

/-- The reference itself is refused, or the node it leads to is. -/
def Refuses (reference : ρ) (error : ε) : Prop :=
  graph.resolve reference = .error error ∨
    ∃ node, graph.resolve reference = .ok (.inl node) ∧ graph.expand node = .error error

/-- What the references lead to emits the piece. -/
def Emits (starts : List ρ) (piece : γ) : Prop :=
  (∃ reference, Leads graph starts reference ∧ graph.resolve reference = .ok (.inr piece)) ∨
    ∃ node references, Reaches graph starts node ∧ graph.expand node = .ok (references, piece)

variable {graph}

omit [DecidableEq κ] in
theorem Leads.mono {starts more : List ρ} (included : starts ⊆ more) {reference : ρ}
    (leads : Leads graph starts reference) : Leads graph more reference := by
  induction leads with
  | start isStart => exact .start (included isStart)
  | step _ resolves expands isNext ih => exact .step ih resolves expands isNext

omit [DecidableEq κ] in
/-- Going on from the references of a node that is reached. -/
theorem Leads.through {starts references : List ρ} {node : κ} {piece : γ}
    (reaches : Reaches graph starts node) (expands : graph.expand node = .ok (references, piece))
    {reference : ρ} (leads : Leads graph references reference) :
    Leads graph starts reference := by
  obtain ⟨before, beforeLeads, resolves⟩ := reaches
  induction leads with
  | start isStart => exact .step beforeLeads resolves expands isStart
  | step _ resolves expands isNext ih => exact .step ih resolves expands isNext

omit [DecidableEq κ] in
theorem Reaches.mono {starts more : List ρ} (included : starts ⊆ more) {node : κ}
    (reaches : Reaches graph starts node) : Reaches graph more node := by
  obtain ⟨reference, leads, resolves⟩ := reaches
  exact ⟨reference, leads.mono included, resolves⟩

omit [DecidableEq κ] in
theorem Emits.mono {starts more : List ρ} (included : starts ⊆ more) {piece : γ}
    (emits : Emits graph starts piece) : Emits graph more piece := by
  rcases emits with ⟨reference, leads, resolves⟩ | ⟨node, references, reaches, expands⟩
  · exact .inl ⟨reference, leads.mono included, resolves⟩
  · exact .inr ⟨node, references, Reaches.mono included reaches, expands⟩

/-! ### One stretch of a search -/

/-- The reference was followed: it emitted a piece, or its node was entered. -/
def Followed (graph : Graph κ ρ γ ε) (visited : Finset κ) (reference : ρ) : Prop :=
  (∃ piece, graph.resolve reference = .ok (.inr piece)) ∨
    ∃ node ∈ visited, graph.resolve reference = .ok (.inl node)

omit [DecidableEq κ] in
theorem Followed.mono {visited later : Finset κ} (included : visited ⊆ later) {reference : ρ}
    (followed : Followed graph visited reference) : Followed graph later reference := by
  rcases followed with emits | ⟨node, member, resolves⟩
  · exact .inl emits
  · exact .inr ⟨node, included member, resolves⟩

/-- What a search has done between two states for some references. -/
structure Stretch (graph : Graph κ ρ γ ε) (references : List ρ) (before after : State κ γ) :
    Prop where
  listed : ∃ fresh : List κ, after.listed = before.listed ++ fresh ∧
    after.visited = before.visited ∪ fresh.toFinset ∧ fresh.Nodup ∧
    ∀ node ∈ fresh, node ∉ before.visited
  followed : ∀ reference ∈ references, Followed graph after.visited reference
  closed : ∀ node ∈ after.visited, node ∉ before.visited →
    ∃ others piece, graph.expand node = .ok (others, piece) ∧
      ∀ other ∈ others, Followed graph after.visited other
  reached : ∀ node ∈ after.visited, node ∉ before.visited → Reaches graph references node
  emitted : ∃ more, after.emitted = before.emitted ++ more ∧
    (∀ piece ∈ more, Emits graph references piece) ∧
    (∀ reference ∈ references, ∀ piece, graph.resolve reference = .ok (.inr piece) →
      piece ∈ more) ∧
    ∀ node ∈ after.visited, node ∉ before.visited → ∀ others piece,
      graph.expand node = .ok (others, piece) → piece ∈ more ∧
        ∀ other ∈ others, ∀ piece, graph.resolve other = .ok (.inr piece) → piece ∈ more

namespace Stretch

variable {references others : List ρ} {first second third : State κ γ}

theorem subset (stretch : Stretch graph references first second) :
    first.visited ⊆ second.visited := by
  obtain ⟨fresh, _, visited, _⟩ := stretch.listed
  rw [visited]
  exact Finset.subset_union_left

theorem refl (state : State κ γ) : Stretch graph ([] : List ρ) state state where
  listed := ⟨[], by simp⟩
  followed := by simp
  closed := fun node member outside => absurd member outside
  reached := fun node member outside => absurd member outside
  emitted := ⟨[], by simp, by simp, by simp, fun node member outside => absurd member outside⟩

theorem trans (start : Stretch graph references first second)
    (rest : Stretch graph others second third) :
    Stretch graph (references ++ others) first third := by
  have grows := rest.subset
  obtain ⟨startFresh, startListed, startVisited, startNodup, startNew⟩ := start.listed
  obtain ⟨restFresh, restListed, restVisited, restNodup, restNew⟩ := rest.listed
  obtain ⟨startMore, startEmitted, startEmits, startRefs, startNodes⟩ := start.emitted
  obtain ⟨restMore, restEmitted, restEmits, restRefs, restNodes⟩ := rest.emitted
  have left : references ⊆ references ++ others := List.subset_append_left _ _
  have right : others ⊆ references ++ others := List.subset_append_right _ _
  refine ⟨⟨startFresh ++ restFresh, ?_, ?_, ?_, ?_⟩, ?_, ?_, ?_,
    startMore ++ restMore, ?_, ?_, ?_, ?_⟩
  · rw [restListed, startListed, List.append_assoc]
  · rw [restVisited, startVisited, List.toFinset_append, Finset.union_assoc]
  · refine List.nodup_append.mpr ⟨startNodup, restNodup, ?_⟩
    rintro node inStart other inRest rfl
    refine restNew node inRest ?_
    rw [startVisited]
    exact Finset.mem_union_right _ (List.mem_toFinset.mpr inStart)
  · intro node member
    rcases List.mem_append.mp member with inStart | inRest
    · exact startNew node inStart
    · exact fun old => restNew node inRest (start.subset old)
  · intro reference member
    rcases List.mem_append.mp member with inStart | inRest
    · exact (start.followed reference inStart).mono grows
    · exact rest.followed reference inRest
  · intro node member outside
    by_cases middle : node ∈ second.visited
    · obtain ⟨next, piece, expands, followed⟩ := start.closed node middle outside
      exact ⟨next, piece, expands, fun other inNext => (followed other inNext).mono grows⟩
    · exact rest.closed node member middle
  · intro node member outside
    by_cases middle : node ∈ second.visited
    · exact Reaches.mono left (start.reached node middle outside)
    · exact Reaches.mono right (rest.reached node member middle)
  · rw [restEmitted, startEmitted, List.append_assoc]
  · intro piece member
    rcases List.mem_append.mp member with inStart | inRest
    · exact Emits.mono left (startEmits piece inStart)
    · exact Emits.mono right (restEmits piece inRest)
  · intro reference member piece resolves
    rcases List.mem_append.mp member with inStart | inRest
    · exact List.mem_append_left _ (startRefs reference inStart piece resolves)
    · exact List.mem_append_right _ (restRefs reference inRest piece resolves)
  · intro node member outside next piece expands
    by_cases middle : node ∈ second.visited
    · obtain ⟨own, leaves⟩ := startNodes node middle outside next piece expands
      exact ⟨List.mem_append_left _ own, fun other inNext leaf resolves =>
        List.mem_append_left _ (leaves other inNext leaf resolves)⟩
    · obtain ⟨own, leaves⟩ := restNodes node member middle next piece expands
      exact ⟨List.mem_append_right _ own, fun other inNext leaf resolves =>
        List.mem_append_right _ (leaves other inNext leaf resolves)⟩

end Stretch

theorem Stretch.of_emit {reference : ρ} {piece : γ} (state : State κ γ)
    (resolves : graph.resolve reference = .ok (.inr piece)) :
    Stretch graph [reference] state (state.emit piece) where
  listed := ⟨[], by simp [State.emit]⟩
  followed := by
    intro other member
    rw [List.mem_singleton.mp member]
    exact .inl ⟨piece, resolves⟩
  closed := fun node member outside => absurd member outside
  reached := fun node member outside => absurd member outside
  emitted := by
    refine ⟨[piece], rfl, ?_, ?_, fun node member outside => absurd member outside⟩
    · intro other member
      rw [List.mem_singleton.mp member]
      exact .inl ⟨reference, .start List.mem_cons_self, resolves⟩
    · intro other member found otherResolves
      rw [List.mem_singleton.mp member, resolves] at otherResolves
      cases otherResolves
      exact List.mem_cons_self

theorem Stretch.of_visited {reference : ρ} {node : κ} {state : State κ γ}
    (resolves : graph.resolve reference = .ok (.inl node)) (visited : node ∈ state.visited) :
    Stretch graph [reference] state state where
  listed := ⟨[], by simp⟩
  followed := by
    intro other member
    rw [List.mem_singleton.mp member]
    exact .inr ⟨node, visited, resolves⟩
  closed := fun node member outside => absurd member outside
  reached := fun node member outside => absurd member outside
  emitted := by
    refine ⟨[], by simp, by simp, ?_, fun node member outside => absurd member outside⟩
    intro other member piece otherResolves
    rw [List.mem_singleton.mp member, resolves] at otherResolves
    cases otherResolves

/-- A node is entered, its references are followed, and it emits its piece. -/
theorem Stretch.of_enter {reference : ρ} {node : κ} {references : List ρ} {piece : γ}
    {state after : State κ γ} (resolves : graph.resolve reference = .ok (.inl node))
    (fresh : node ∉ state.visited) (expands : graph.expand node = .ok (references, piece))
    (inner : Stretch graph references (state.enter node) after) :
    Stretch graph [reference] state (after.emit piece) := by
  have reaches : Reaches graph [reference] node :=
    ⟨reference, .start List.mem_cons_self, resolves⟩
  have entered : node ∈ after.visited := inner.subset (Finset.mem_insert_self _ _)
  have split : ∀ other ∈ after.visited, other ∉ state.visited →
      other = node ∨ other ∉ (state.enter node).visited := by
    intro other _ outside
    by_cases same : other = node
    · exact .inl same
    · exact .inr fun member => (Finset.mem_insert.mp member).elim same outside
  obtain ⟨more, listed, visited, nodup, new⟩ := inner.listed
  obtain ⟨pieces, emitted, sound, leaves, nodes⟩ := inner.emitted
  refine ⟨⟨node :: more, ?_, ?_, ?_, ?_⟩, ?_, ?_, ?_, pieces ++ [piece], ?_, ?_, ?_, ?_⟩
  · simp [State.emit, listed, State.enter]
  · rw [State.emit, visited, State.enter, List.toFinset_cons, Finset.insert_union,
      Finset.union_insert]
  · exact List.nodup_cons.mpr ⟨fun member => new node member (Finset.mem_insert_self _ _), nodup⟩
  · intro other member
    rcases List.mem_cons.mp member with rfl | inMore
    · exact fresh
    · exact fun old => new other inMore (Finset.mem_insert_of_mem old)
  · intro other member
    rw [List.mem_singleton.mp member]
    exact .inr ⟨node, entered, resolves⟩
  · intro other member outside
    rcases split other member outside with rfl | outer
    · exact ⟨references, piece, expands, inner.followed⟩
    · exact inner.closed other member outer
  · intro other member outside
    rcases split other member outside with rfl | outer
    · exact reaches
    · obtain ⟨last, leads, lastResolves⟩ := inner.reached other member outer
      exact ⟨last, leads.through reaches expands, lastResolves⟩
  · simp [State.emit, emitted, State.enter]
  · intro other member
    rcases List.mem_append.mp member with inPieces | isOwn
    · rcases sound other inPieces with ⟨last, leads, lastResolves⟩ |
        ⟨inside, others, ⟨last, leads, lastResolves⟩, insideExpands⟩
      · exact .inl ⟨last, leads.through reaches expands, lastResolves⟩
      · exact .inr ⟨inside, others, ⟨last, leads.through reaches expands, lastResolves⟩,
          insideExpands⟩
    · rw [List.mem_singleton.mp isOwn]
      exact .inr ⟨node, references, reaches, expands⟩
  · intro other member found otherResolves
    rw [List.mem_singleton.mp member, resolves] at otherResolves
    cases otherResolves
  · intro other member outside others own otherExpands
    rcases split other member outside with rfl | outer
    · rw [expands] at otherExpands
      cases otherExpands
      exact ⟨List.mem_append_right _ List.mem_cons_self, fun last inRefs leaf lastResolves =>
        List.mem_append_left _ (leaves last inRefs leaf lastResolves)⟩
    · obtain ⟨isOwn, inside⟩ := nodes other member outer others own otherExpands
      exact ⟨List.mem_append_left _ isOwn, fun last inRefs leaf lastResolves =>
        List.mem_append_left _ (inside last inRefs leaf lastResolves)⟩

/-! ### Whole searches -/

/-- The nodes that references lead to. -/
def Within (graph : Graph κ ρ γ ε) (nodes : Finset κ) : Prop :=
  ∀ reference node, graph.resolve reference = .ok (.inl node) → node ∈ nodes

/-- What a search for some references comes to. -/
def Outcome (graph : Graph κ ρ γ ε) (references : List ρ) (before : State κ γ) :
    Except (Stop ε) (State κ γ) → Prop
  | .ok after => Stretch graph references before after
  | .error .outOfFuel => False
  | .error (.refused error) =>
      ∃ reference, Leads graph references reference ∧ Refuses graph reference error

theorem Outcome.cons {reference : ρ} {rest : List ρ} {before middle : State κ γ}
    {result : Except (Stop ε) (State κ γ)} (first : Stretch graph [reference] before middle)
    (outcome : Outcome graph rest middle result) :
    Outcome graph (reference :: rest) before result := by
  match result with
  | .ok after => exact first.trans outcome
  | .error .outOfFuel => exact outcome
  | .error (.refused error) =>
      obtain ⟨other, leads, refuses⟩ := outcome
      exact ⟨other, leads.mono (List.subset_cons_self _ _), refuses⟩

/-- With more fuel than there are nodes left, a search never runs out. -/
theorem followAll_outcome {nodes : Finset κ} (within : Within graph nodes) (fuel : Nat)
    (references : List ρ) (state : State κ γ) (enough : (nodes \ state.visited).card < fuel) :
    Outcome graph references state (followAll graph (visit graph fuel) references state) := by
  induction fuel generalizing references state with
  | zero => exact absurd enough (Nat.not_lt_zero _)
  | succ fuel ih =>
      induction references generalizing state with
      | nil => exact Stretch.refl state
      | cons reference rest restIh =>
          have goOn : ∀ middle, Stretch graph [reference] state middle →
              Outcome graph (reference :: rest) state
                (followAll graph (visit graph (fuel + 1)) rest middle) := by
            intro middle first
            refine Outcome.cons first (restIh middle (Nat.lt_of_le_of_lt ?_ enough))
            exact Finset.card_le_card (Finset.sdiff_subset_sdiff (Finset.Subset.refl _) first.subset)
          rw [followAll, follow]
          cases resolves : graph.resolve reference with
          | error error =>
              exact ⟨reference, .start List.mem_cons_self, .inl resolves⟩
          | ok target =>
              cases target with
              | inr piece => exact goOn _ (.of_emit state resolves)
              | inl node =>
                  dsimp only
                  rw [visit]
                  by_cases visited : node ∈ state.visited
                  · rw [if_pos visited]
                    exact goOn state (.of_visited resolves visited)
                  · rw [if_neg visited]
                    cases expands : graph.expand node with
                    | error error =>
                        exact ⟨reference, .start List.mem_cons_self, .inr ⟨node, resolves, expands⟩⟩
                    | ok expansion =>
                        obtain ⟨others, piece⟩ := expansion
                        dsimp only
                        have fewer : (nodes \ (state.enter node).visited).card < fuel := by
                          have inNodes : node ∈ nodes \ state.visited :=
                            Finset.mem_sdiff.mpr ⟨within reference node resolves, visited⟩
                          have erased : nodes \ (state.enter node).visited =
                              (nodes \ state.visited).erase node := by
                            rw [State.enter, Finset.sdiff_insert]
                          rw [erased, Finset.card_erase_of_mem inNodes]
                          have := Finset.card_pos.mpr ⟨node, inNodes⟩
                          omega
                        have inner := ih others (state.enter node) fewer
                        cases result : followAll graph (visit graph fuel) others
                            (state.enter node) with
                        | ok after =>
                            rw [result] at inner
                            exact goOn _ (.of_enter resolves visited expands inner)
                        | error stop =>
                            rw [result] at inner
                            cases stop with
                            | outOfFuel => exact inner
                            | refused error =>
                                obtain ⟨other, leads, refuses⟩ := inner
                                exact ⟨other, leads.through
                                  ⟨reference, .start List.mem_cons_self, resolves⟩ expands, refuses⟩

theorem followAll_more_fuel (fuel : Nat) (references : List ρ) (state : State κ γ)
    (lasts : followAll graph (visit graph fuel) references state ≠ .error .outOfFuel) :
    followAll graph (visit graph (fuel + 1)) references state =
      followAll graph (visit graph fuel) references state := by
  induction fuel generalizing references state with
  | zero =>
      induction references generalizing state with
      | nil => rfl
      | cons reference rest restIh =>
          rw [followAll, follow] at lasts ⊢
          rw [followAll, follow]
          cases resolves : graph.resolve reference with
          | error error => rfl
          | ok target =>
              cases target with
              | inr piece =>
                  rw [resolves] at lasts
                  exact restIh _ lasts
              | inl node =>
                  rw [resolves] at lasts
                  exact absurd rfl lasts
  | succ fuel ih =>
      induction references generalizing state with
      | nil => rfl
      | cons reference rest restIh =>
          rw [followAll, follow] at lasts ⊢
          rw [followAll, follow]
          cases resolves : graph.resolve reference with
          | error error => rfl
          | ok target =>
              rw [resolves] at lasts
              cases target with
              | inr piece => exact restIh _ lasts
              | inl node =>
                  dsimp only at lasts ⊢
                  have same : visit graph (fuel + 1 + 1) node state =
                      visit graph (fuel + 1) node state := by
                    rw [visit]
                    rw [visit] at lasts ⊢
                    by_cases visited : node ∈ state.visited
                    · rw [if_pos visited, if_pos visited]
                    · rw [if_neg visited] at lasts ⊢
                      rw [if_neg visited]
                      cases expands : graph.expand node with
                      | error error => rfl
                      | ok expansion =>
                          rw [expands] at lasts
                          dsimp only at lasts ⊢
                          rw [ih expansion.1 (state.enter node)]
                          intro stopped
                          rw [stopped] at lasts
                          exact lasts rfl
                  rw [same]
                  cases visitEq : visit graph (fuel + 1) node state with
                  | error stop => rfl
                  | ok after =>
                      rw [visitEq] at lasts
                      exact restIh after lasts

/-- A search for some references from the start. -/
def search (graph : Graph κ ρ γ ε) (fuel : Nat) (starts : List ρ) :
    Except (Stop ε) (State κ γ) :=
  followAll graph (visit graph fuel) starts .start

section Search

variable {starts : List ρ} {fuel : Nat} {nodes : Finset κ}

theorem search_outcome (within : Within graph nodes) (enough : nodes.card < fuel) :
    Outcome graph starts .start (search graph fuel starts) := by
  refine followAll_outcome within fuel starts .start ?_
  rwa [State.start, Finset.sdiff_empty]

/-- Without a refusal every reference that is led to was followed. -/
theorem Stretch.followed_of_leads {after : State κ γ}
    (stretch : Stretch graph starts .start after) {reference : ρ}
    (leads : Leads graph starts reference) : Followed graph after.visited reference := by
  induction leads with
  | start isStart => exact stretch.followed _ isStart
  | @step reference other node references piece leads resolves expands isNext ih =>
      rcases ih with ⟨leaf, leafResolves⟩ | ⟨entered, member, enteredResolves⟩
      · rw [resolves] at leafResolves
        cases leafResolves
      · rw [resolves] at enteredResolves
        cases enteredResolves
        obtain ⟨others, own, ownExpands, followed⟩ :=
          stretch.closed node member (Finset.notMem_empty _)
        rw [expands] at ownExpands
        cases ownExpands
        exact followed other isNext

theorem Stretch.mem_visited_iff {after : State κ γ} (stretch : Stretch graph starts .start after)
    (node : κ) : node ∈ after.visited ↔ Reaches graph starts node := by
  constructor
  · intro member
    exact stretch.reached node member (Finset.notMem_empty _)
  · rintro ⟨reference, leads, resolves⟩
    rcases stretch.followed_of_leads leads with ⟨leaf, leafResolves⟩ | ⟨entered, member, same⟩
    · rw [resolves] at leafResolves
      cases leafResolves
    · rw [resolves] at same
      cases same
      exact member

theorem Stretch.no_refusal {after : State κ γ} (stretch : Stretch graph starts .start after)
    {reference : ρ} (leads : Leads graph starts reference) (error : ε) :
    ¬ Refuses graph reference error := by
  have followed := stretch.followed_of_leads leads
  rintro (refused | ⟨node, resolves, refused⟩)
  · rcases followed with ⟨leaf, resolves⟩ | ⟨node, _, resolves⟩ <;>
    · rw [refused] at resolves
      cases resolves
  · have reaches : Reaches graph starts node := ⟨reference, leads, resolves⟩
    obtain ⟨others, own, expands, _⟩ := stretch.closed node
      ((stretch.mem_visited_iff node).mpr reaches) (Finset.notMem_empty _)
    rw [refused] at expands
    cases expands

theorem search_refuses_iff (within : Within graph nodes) (enough : nodes.card < fuel) :
    (∃ error, search graph fuel starts = .error (.refused error)) ↔
      ∃ reference, Leads graph starts reference ∧ ∃ error, Refuses graph reference error := by
  have outcome : Outcome graph starts .start (search graph fuel starts) :=
    search_outcome within enough
  constructor
  · rintro ⟨error, failed⟩
    rw [failed] at outcome
    obtain ⟨reference, leads, refuses⟩ := outcome
    exact ⟨reference, leads, error, refuses⟩
  · rintro ⟨reference, leads, error, refuses⟩
    match result : search graph fuel starts with
    | .ok after =>
        rw [result] at outcome
        exact absurd refuses (Stretch.no_refusal outcome leads error)
    | .error .outOfFuel =>
        rw [result] at outcome
        exact outcome.elim
    | .error (.refused error) => exact ⟨error, rfl⟩

theorem search_lasts (within : Within graph nodes) (enough : nodes.card < fuel) :
    search graph fuel starts ≠ .error .outOfFuel := by
  intro stopped
  have outcome : Outcome graph starts .start (search graph fuel starts) :=
    search_outcome within enough
  rw [stopped] at outcome
  exact outcome

/-- A search that succeeds lists what is reached, each node once, and emits the
pieces of what is reached. -/
theorem search_finds (within : Within graph nodes) (enough : nodes.card < fuel)
    {after : State κ γ} (found : search graph fuel starts = .ok after) :
    after.listed.Nodup ∧ (∀ node, node ∈ after.listed ↔ Reaches graph starts node) ∧
      ∀ piece, piece ∈ after.emitted ↔ Emits graph starts piece := by
  have stretch : Stretch graph starts .start after := by
    have outcome : Outcome graph starts .start (search graph fuel starts) :=
    search_outcome within enough
    rwa [found] at outcome
  obtain ⟨fresh, listed, visited, nodup, _⟩ := stretch.listed
  have listedEq : after.listed = fresh := listed
  have visitedEq : after.visited = fresh.toFinset := by simpa [State.start] using visited
  obtain ⟨more, emitted, sound, leaves, pieces⟩ := stretch.emitted
  have emittedEq : after.emitted = more := emitted
  refine ⟨listedEq ▸ nodup, ?_, ?_⟩
  · intro node
    rw [← stretch.mem_visited_iff, visitedEq, listedEq, List.mem_toFinset]
  · intro piece
    rw [emittedEq]
    refine ⟨sound piece, ?_⟩
    rintro (⟨reference, leads, resolves⟩ | ⟨node, references, reaches, expands⟩)
    · cases leads with
      | start isStart => exact leaves reference isStart piece resolves
      | @step before _ node references own leads nodeResolves expands isNext =>
          have reaches : Reaches graph starts node := ⟨before, leads, nodeResolves⟩
          exact (pieces node ((stretch.mem_visited_iff node).mpr reaches) (Finset.notMem_empty _)
            references own expands).2 reference isNext piece resolves
    · exact (pieces node ((stretch.mem_visited_iff node).mpr reaches) (Finset.notMem_empty _)
        references piece expands).1

end Search

/-! ### The order of the references -/

/-- Two graphs that differ in the order of references only. -/
structure SameUpToOrder (first second : Graph κ ρ γ ε) : Prop where
  resolve : ∀ reference, first.resolve reference = second.resolve reference
  error : ∀ node error, first.expand node = .error error ↔ second.expand node = .error error
  forward : ∀ node references piece, first.expand node = .ok (references, piece) →
    ∃ others, second.expand node = .ok (others, piece) ∧ references ⊆ others

section Order

variable {first second : Graph κ ρ γ ε} {starts others : List ρ}

omit [DecidableEq κ] in
theorem Leads.transfer (same : SameUpToOrder first second) (included : starts ⊆ others)
    {reference : ρ} (leads : Leads first starts reference) : Leads second others reference := by
  induction leads with
  | start isStart => exact .start (included isStart)
  | step _ resolves expands isNext ih =>
      obtain ⟨more, moreExpands, subset⟩ := same.forward _ _ _ expands
      exact .step ih (same.resolve _ ▸ resolves) moreExpands (subset isNext)

omit [DecidableEq κ] in
theorem Refuses.transfer (same : SameUpToOrder first second) {reference : ρ} {error : ε}
    (refuses : Refuses first reference error) : Refuses second reference error := by
  rcases refuses with refused | ⟨node, resolves, refused⟩
  · exact .inl (same.resolve _ ▸ refused)
  · exact .inr ⟨node, same.resolve _ ▸ resolves, (same.error _ _).mp refused⟩

omit [DecidableEq κ] in
theorem Emits.transfer (same : SameUpToOrder first second) (included : starts ⊆ others)
    {piece : γ} (emits : Emits first starts piece) : Emits second others piece := by
  rcases emits with ⟨reference, leads, resolves⟩ |
    ⟨node, references, ⟨reference, leads, resolves⟩, expands⟩
  · exact .inl ⟨reference, leads.transfer same included, same.resolve _ ▸ resolves⟩
  · obtain ⟨more, moreExpands, _⟩ := same.forward _ _ _ expands
    exact .inr ⟨node, more,
      ⟨reference, leads.transfer same included, same.resolve _ ▸ resolves⟩, moreExpands⟩

end Order

end SharedContext.DepthFirst
