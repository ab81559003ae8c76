import Mathlib

/-!
# JSON values

The `serde_json::Value` carried by evidence snapshots.
-/

namespace SharedContext

/-- A JSON value.  A number is kept as the text it is printed with. -/
inductive Value
  | null
  | bool (value : Bool)
  | number (text : String)
  | string (text : String)
  | array (items : List Value)
  | object (members : List (String × Value))
  deriving Repr

/-- Whether the value is an object with at least one member. -/
def Value.isNonEmptyObject : Value → Bool
  | .object members => !members.isEmpty
  | _ => false

end SharedContext
