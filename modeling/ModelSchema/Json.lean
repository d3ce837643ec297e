import ModelSchema.Entries
import ModelSchema.Json.Binary64

namespace ModelSchema

/-- A JSON value. Objects are lists of members: order counts, and a key may be repeated. -/
inductive Json where
  | null
  | bool (value : Bool)
  | int (value : Int)
  | float (value : Binary64)
  | string (value : String)
  | array (items : List Json)
  | object (members : List (String × Json))
  deriving Inhabited, BEq, Repr

namespace Json

def get? : Json → String → Option Json
  | .object ms, key => Entries.get? ms key
  | _, _ => none

def text? : Json → Option String
  | .string s => some s
  | _ => none

def flag? : Json → Option Bool
  | .bool b => some b
  | _ => none

def items? : Json → Option (List Json)
  | .array xs => some xs
  | _ => none

end Json

end ModelSchema
