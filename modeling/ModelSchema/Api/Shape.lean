import ModelSchema.Graph
import ModelSchema.Json
import ModelSchema.Api.Moment

namespace ModelSchema.Api

inductive Presence where
  | required
  /-- May be left out of the input, and is always written. -/
  | defaulted
  /-- May be left out of the input, and is not written when empty. -/
  | omittable
  deriving DecidableEq, Repr

structure Label where
  type : TypeRef
  name : String
  description : Option String := none
  deriving DecidableEq, Inhabited, Repr

structure FieldLabel where
  name : String
  description : Option String := none
  presence : Presence := .required
  deriving DecidableEq, Repr

inductive Reading where
  /-- From an object, in which its own keys must not be repeated, or from an array. -/
  | strict
  /-- From an object, where null is as good as nothing and the last of equal keys counts. -/
  | lenient
  deriving DecidableEq, Repr

mutual

inductive Shape where
  | text
  | flag
  | int64
  | moment
  | raw
  | choice (label : Label) (first : String) (others : List String)
  | list (elem : Shape)
  /-- An object with values of one shape, written in ascending order of the keys. -/
  | table (elem : Shape)
  | optional (elem : Shape)
  | record (label : Label) (reading : Reading) (fields : Fields)

inductive Fields where
  | nil
  | own (label : FieldLabel) (shape : Shape) (rest : Fields)
  | spread (label : Label) (fields : Fields) (rest : Fields)

end

mutual

def Shape.Value : Shape → Type
  | .text => String
  | .flag => Bool
  | .int64 => Int64
  | .moment => Moment
  | .raw => Json
  | .choice _ _ others => Fin (others.length + 1)
  | .list e => List e.Value
  | .table e => List (String × e.Value)
  | .optional e => Option e.Value
  | .record _ _ fs => fs.Values

def Fields.Values : Fields → Type
  | .nil => Unit
  | .own _ s rest => s.Value × rest.Values
  | .spread _ fs rest => fs.Values × rest.Values

end

namespace Shape

def choiceText (first : String) (others : List String) (i : Fin (others.length + 1)) : String :=
  (first :: others).get i

def isEmpty : (s : Shape) → s.Value → Bool
  | .text, (v : String) => v = ""
  | .list _, v => List.isEmpty v
  | .optional _, v => Option.isNone v
  | _, _ => false

end Shape

mutual

def Shape.default : (s : Shape) → s.Value
  | .text => ""
  | .flag => false
  | .int64 => (0 : Int64)
  | .moment => (⟨0, 0⟩ : Moment)
  | .raw => Json.null
  | .choice _ _ _ => (0 : Fin _)
  | .list _ => []
  | .table _ => []
  | .optional _ => none
  | .record _ _ fs => fs.default

def Fields.default : (fs : Fields) → fs.Values
  | .nil => ()
  | .own _ s rest => (s.default, rest.default)
  | .spread _ fs rest => (fs.default, rest.default)

end

mutual

def Shape.encode : (s : Shape) → s.Value → Json
  | .text, v => .string v
  | .flag, v => .bool v
  | .int64, v => .int (Int64.toInt v)
  | .moment, v => .string (Moment.text v)
  | .raw, v => v
  | .choice _ first others, i => .string (Shape.choiceText first others i)
  | .list e, vs => .array (List.map e.encode vs)
  | .table e, vs => .object (List.map (fun p => (p.1, e.encode p.2)) vs)
  | .optional _, none => .null
  | .optional e, some v => e.encode v
  | .record _ _ fs, vs => .object (fs.encode vs)

def Fields.encode : (fs : Fields) → fs.Values → List (String × Json)
  | .nil, _ => []
  | .own l s rest, (v, vs) =>
    if l.presence = .omittable ∧ s.isEmpty v then rest.encode vs
    else (l.name, s.encode v) :: rest.encode vs
  | .spread _ fs rest, (v, vs) => fs.encode v ++ rest.encode vs

end

mutual

def Shape.typeRef : Shape → TypeRef
  | .text => .standard "String"
  | .flag => .standard "bool"
  | .int64 => .standard "i64"
  | .moment => .standard "Time"
  | .raw => .standard "RawExtension"
  | .choice l _ _ => l.type
  | .list e => .list e.typeRef
  | .table e => .map .sorted (.standard "String") e.typeRef
  | .optional e => .option e.typeRef
  | .record l _ _ => l.type

def Fields.schemaFields : Fields → List Field
  | .nil => []
  | .own l s rest =>
    { name := l.name, type := s.typeRef, description := l.description
      omitEmpty := l.presence = .omittable, isRequired := l.presence = .required } ::
      rest.schemaFields
  | .spread l _ rest => { name := "", type := l.type, isInline := true } :: rest.schemaFields

end

def Shape.typeInfo? (package : String) : Shape → Option TypeInfo
  | .choice l first others =>
    some ⟨l.name, package, l.description, .enumeration (first :: others)⟩
  | .record l _ fs => some ⟨l.name, package, l.description, .struct fs.schemaFields⟩
  | _ => none

end ModelSchema.Api
