import SharedContext.Domain.Json
import SharedContext.Library.Entries
import SharedContext.Library.IndexMap
import SharedContext.TaskRuntime.CandidateReviewPages

/-!
# Codex hook trust

Codex runs a hook only when its hash is stored under the key of the hook's
position.  The installer stamps the hashes of its own hooks into the
configuration, and prunes the keys of positions that its hooks file no longer
has.
-/

namespace SharedContext.Installer

/-! ### State keys -/

/-- The events as `hooks.json` spells them, and as state keys do. -/
def eventKeyLabels : List (String × String) :=
  [("PreToolUse", "pre_tool_use"), ("PermissionRequest", "permission_request"),
    ("PostToolUse", "post_tool_use"), ("PreCompact", "pre_compact"),
    ("PostCompact", "post_compact"), ("SessionStart", "session_start"),
    ("SessionEnd", "session_end"), ("UserPromptSubmit", "user_prompt_submit"),
    ("SubagentStart", "subagent_start"), ("SubagentStop", "subagent_stop"), ("Stop", "stop"),
    ("Interrupt", "interrupt")]

def eventsWithoutMatcher : List String :=
  ["UserPromptSubmit", "Stop", "Interrupt"]

def eventKeyLabel (event : String) : Option String :=
  (eventKeyLabels.find? fun entry => entry.1 = event).map Prod.snd

def hookKey (keySource event : String) (groupIndex handlerIndex : Nat) : Except String String :=
  match eventKeyLabel event with
  | none => .error ("unknown hook event " ++ event)
  | some label =>
      .ok (keySource ++ ":" ++ label ++ ":" ++ toString groupIndex ++ ":" ++ toString handlerIndex)

/-- The source of a state key, which may itself contain colons. -/
def keySource (key : String) : Option String := do
  let (handler, rest) ← splitColon key.toList.reverse
  let (group, rest) ← splitColon rest
  let (label, source) ← splitColon rest
  if source = [] ∨ parseU64 handler.reverse = none ∨ parseU64 group.reverse = none ∨
      String.ofList label.reverse ∉ eventKeyLabels.map Prod.snd then
    none
  else some (String.ofList source.reverse)

/-! ### Hook files -/

def member? (name : String) (members : List (String × Value)) : Option Value :=
  IndexMap.get? name members

def asObject : Value → Option (List (String × Value))
  | .object members => some members
  | _ => none

def asArray : Value → Option (List Value)
  | .array items => some items
  | _ => none

def asStr : Value → Option String
  | .string text => some text
  | _ => none

structure HookHandlerRef where
  event : String
  groupIndex : Nat
  handlerIndex : Nat
  matcher : Option String
  handler : Value

def groupHandlers (event : String) (group : Value) (groupIndex : Nat) : List HookHandlerRef :=
  match asObject group with
  | none => []
  | some group =>
      let matcher :=
        if event ∈ eventsWithoutMatcher then none else (member? "matcher" group).bind asStr
      match (member? "hooks" group).bind asArray with
      | none => []
      | some entries =>
          entries.zipIdx.map fun entry => ⟨event, groupIndex, entry.2, matcher, entry.1⟩

/-- The addressable handlers, in the order of the events. -/
def iterHookHandlers (hooksFile : List (String × Value)) : Except String (List HookHandlerRef) :=
  let handlers events := eventKeyLabels.flatMap fun label =>
    match (member? label.1 events).bind asArray with
    | none => []
    | some groups => groups.zipIdx.flatMap fun group => groupHandlers label.1 group.1 group.2
  match member? "hooks" hooksFile with
  | none | some .null => .ok []
  | some (.object events) => .ok (handlers events)
  | some _ => .error "hooks.json's hooks is not an object"

def addressedKeys (hooksFile : List (String × Value)) (source : String) :
    Except String (Finset String) := do
  let handlers ← iterHookHandlers hooksFile
  let keys ← handlers.mapM fun handler =>
    hookKey source handler.event handler.groupIndex handler.handlerIndex
  pure keys.toFinset

/-! ### Configurations -/

/-- An item of a TOML document; a value that is neither a string nor a table is
kept as its text. -/
inductive TomlItem
  | string (text : String)
  | other (text : String)
  | table (inline : Bool) (entries : List (String × TomlItem))

abbrev Document := List (String × TomlItem)

def TomlItem.asStr : TomlItem → Option String
  | .string text => some text
  | _ => none

structure TrustUpdate where
  restamped : Nat
  pruned : Nat
  deriving DecidableEq, Repr

def TrustUpdate.changed (update : TrustUpdate) : Bool :=
  update.restamped > 0 || update.pruned > 0

/-- Whether an entry is a table with the digest. -/
def holdsDigest (digest : String) : Option TomlItem → Bool
  | some (.table _ fields) => (IndexMap.get? "trusted_hash" fields).bind TomlItem.asStr = some digest
  | _ => false

/-- The entry with the digest; only a table keeps its other fields. -/
def stampedEntry (inlineParent : Bool) (digest : String) : Option TomlItem → TomlItem
  | some (.table inline fields) =>
      .table inline (IndexMap.insert "trusted_hash" (.string digest) fields)
  | _ => .table inlineParent [("trusted_hash", .string digest)]

/-- Stamp the digests one after the other, counting those that were not there. -/
def stampAll (inlineParent : Bool) :
    List (String × String) → List (String × TomlItem) → List (String × TomlItem) × Nat
  | [], state => (state, 0)
  | (key, digest) :: rest, state =>
      let existing := IndexMap.get? key state
      if holdsDigest digest existing then stampAll inlineParent rest state
      else
        let (after, restamped) := stampAll inlineParent rest
          (IndexMap.insert key (stampedEntry inlineParent digest existing) state)
        (after, restamped + 1)

def deadKeys (source : String) (addressed : Finset String) (state : List (String × TomlItem)) :
    List String :=
  (state.map Prod.fst).filter fun key => keySource key = some source ∧ key ∉ addressed

def applyTrust (document : Document) (keySourcePath : String) (desired : BTreeMap String String)
    (addressed : Finset String) : Except String (Document × TrustUpdate) :=
  if desired.keys = ∅ ∧ IndexMap.get? "hooks" document = none then .ok (document, ⟨0, 0⟩)
  else
    match (IndexMap.get? "hooks" document).getD (.table false []) with
    | .table hooksInline hooks =>
        match (IndexMap.get? "state" hooks).getD (.table false []) with
        | .table stateInline state =>
            let (stamped, restamped) := stampAll stateInline desired.entries state
            let dead := deadKeys keySourcePath addressed stamped
            let state := IndexMap.removeAll dead stamped
            let hooks := IndexMap.insert "state" (.table stateInline state) hooks
            .ok (IndexMap.insert "hooks" (.table hooksInline hooks) document,
              ⟨restamped, dead.length⟩)
        | _ => .error "Codex hooks.state must be a table"
    | _ => .error "Codex hooks must be a table"

end SharedContext.Installer
