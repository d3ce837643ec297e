import ModelSchema.Json

namespace ModelSchema

inductive InstanceType where
  | boolean
  | object
  | array
  | number
  | string
  | integer
  deriving DecidableEq, Repr

namespace InstanceType

def all : List InstanceType :=
  [.boolean, .object, .array, .number, .string, .integer]

def keyword : InstanceType → String
  | .boolean => "boolean"
  | .object => "object"
  | .array => "array"
  | .number => "number"
  | .string => "string"
  | .integer => "integer"

def ofKeyword? (s : String) : Option InstanceType :=
  all.find? fun t => t.keyword == s

end InstanceType

structure Descriptor where
  instanceType : Option InstanceType := none
  description : Option String := none
  default : Option Json := none
  enumValues : Option (List Json) := none
  deriving Inhabited

structure JavaDescriptor where
  javaType : Option String := none
  existingJavaType : Option String := none
  interfaces : List String := []
  omitEmpty : Bool := false
  deriving Inhabited, DecidableEq

/-- The keywords of an object: its properties in order, those that are required, and whether
others are allowed. -/
structure ObjectOf (α : Type) where
  properties : List (String × α) := []
  required : List String := []
  additionalProperties : Bool := false
  deriving Inhabited

structure Property where
  descriptor : Descriptor := {}
  reference : Option String := none
  object : Option (ObjectOf Property) := none
  items : Option Property := none
  mapValue : Option Property := none
  java : JavaDescriptor := {}
  deriving Inhabited

abbrev ObjectDescriptor := ObjectOf Property

/-- The root document. Definitions and resources are kept in ascending order of their keys. -/
structure Document where
  id : String := ""
  dialect : String := ""
  definitions : Entries Property := []
  descriptor : Descriptor := {}
  object : ObjectDescriptor := {}
  resources : Option (Entries Property) := none
  deriving Inhabited

namespace ObjectOf

variable {α : Type}

/-- An object without properties that accepts unknown ones. -/
def «open» : ObjectOf α :=
  { additionalProperties := true }

def require (o : ObjectOf α) (name : String) : ObjectOf α :=
  if name ∈ o.required then o else { o with required := o.required ++ [name] }

def insert (o : ObjectOf α) (name : String) (property : α) : ObjectOf α :=
  { o with properties := Entries.insert o.properties name property }

end ObjectOf

namespace Property

def typed (t : InstanceType) : Property :=
  { descriptor := { instanceType := some t } }

def definitionsPath : String :=
  "#/definitions/"

def referenceTo (name javaType : String) : Property :=
  { reference := some (definitionsPath ++ name), java := { javaType := some javaType } }

def described (p : Property) (text : Option String) : Property :=
  match text with
  | some t => { p with descriptor := { p.descriptor with description := some t } }
  | none => p

def withJavaType (p : Property) (t : String) : Property :=
  { p with java := { p.java with javaType := some t } }

def withExistingJavaType (p : Property) (t : String) : Property :=
  { p with java := { p.java with existingJavaType := some t } }

def pinned (p : Property) (value : String) : Property :=
  { p with descriptor := { p.descriptor with
      default := some (.string value), enumValues := some [.string value] } }

end Property

namespace Document

def clearResources (d : Document) : Document :=
  { d with resources := none }

end Document

end ModelSchema
