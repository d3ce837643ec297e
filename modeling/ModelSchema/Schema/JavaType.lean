import ModelSchema.Document
import ModelSchema.Schema.Naming

namespace ModelSchema

namespace TypeGraph

variable (g : TypeGraph) (s : Settings)

def displayName (r : TypeRef) : String :=
  (g.info r).displayName

/-- A sequence of bytes is written as a string. -/
def isByte (r : TypeRef) : Bool :=
  (g.info r).kind = .primitive .uint8

/-- The Java class of a type that has been substituted already. -/
def javaTypeWithin : Nat → TypeRef → Option String
  | 0, _ => none
  | n + 1, t =>
    match s.manualType? t with
    | some javaType => some javaType
    | none =>
      match (g.info t).kind with
      | .primitive p => some (Java.boxed p)
      | .any => some "Object"
      | .enumeration _ => some "String"
      | .optional e => javaTypeWithin n (s.substitute e)
      | .seq e =>
        if g.isByte (s.substitute e) then some "String"
        else (javaTypeWithin n (s.substitute e)).map Java.arrayListOf
      | .map _ v => (javaTypeWithin n (s.substitute v)).map Java.mapOf
      | .struct _ => some (s.structJavaType (g.info t))

end TypeGraph

namespace Property

def ofManual (javaType : String) : Property :=
  (typed .object).withExistingJavaType javaType

def ofPrimitive : Primitive → Property
  | .bool => typed .boolean
  | .int8 | .int16 | .int32 | .uint8 | .uint16 | .uint32 => typed .integer
  | .int64 | .uint64 => (typed .integer).withExistingJavaType "Long"
  | .float32 | .float64 => typed .number
  | .string => typed .string

def ofAny : Property :=
  (typed .object).withExistingJavaType "Object"

def ofEnumeration (values : List String) : Property :=
  { descriptor := { instanceType := some .string, enumValues := some (values.map .string) } }

def ofBytes : Property :=
  typed .string

def ofList (items : Property) (omitEmpty : Bool) : Property :=
  { typed .array with items := some items, java := { omitEmpty } }

def ofMap (value : Property) (javaType : String) (omitEmpty : Bool) : Property :=
  { typed .object with
    mapValue := some value, java := { javaType := some javaType, omitEmpty } }

end Property

end ModelSchema
