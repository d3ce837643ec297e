namespace ModelSchema

inductive WalkError where
  | unsupportedMapKey (owner key : String)
  | inlineNotStruct (owner field type : String)
  /-- The types hold each other without end. -/
  | endless
  deriving DecidableEq, Repr

inductive AssemblyError where
  | duplicateDefinition (name : String)
  | duplicateResource (key name : String)
  deriving DecidableEq, Repr

inductive GenerateError where
  | notAStruct (name kind : String)
  | walk (error : WalkError)
  | assembly (error : AssemblyError)
  deriving DecidableEq, Repr

def WalkError.message : WalkError → String
  | .unsupportedMapKey owner key =>
    "map keys must be strings, found " ++ key ++ " keys in a field of " ++ owner
  | .inlineNotStruct owner field type =>
    "field " ++ field ++ " of " ++ owner ++ " is inlined but " ++ type ++ " is not a struct"
  | .endless => "types hold each other without end"

def AssemblyError.message : AssemblyError → String
  | .duplicateDefinition name => "definition " ++ name ++ " is produced by more than one type"
  | .duplicateResource key name => "resource key " ++ key ++ " of " ++ name ++ " is already taken"

def GenerateError.message : GenerateError → String
  | .notAStruct name kind => "only struct types can be converted, " ++ name ++ " is a " ++ kind
  | .walk e => e.message
  | .assembly e => e.message

inductive Event where
  | registering (definition : String)
  | resourceNameTaken (name key : String)
  | generated (root : String) (definitions properties : Nat)
  deriving DecidableEq, Repr

namespace Event

inductive Level where
  | debug
  | warning
  | info
  deriving DecidableEq, Repr

def level : Event → Level
  | .registering _ => .debug
  | .resourceNameTaken _ _ => .warning
  | .generated _ _ _ => .info

def message : Event → String
  | .registering _ => "registering definition"
  | .resourceNameTaken _ _ => "resource name already taken, keying by definition name"
  | .generated root _ _ => "generated schema for " ++ root

end Event

end ModelSchema
