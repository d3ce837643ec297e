namespace ModelSchema

inductive MapKind where
  | sorted
  | hashed
  | ordered
  deriving DecidableEq, Repr

/-- The identity of a type. Two containers are the same type when constructor and arguments are;
two named types are the same only if they are one entry of one table, whatever they are called. -/
inductive TypeRef where
  | declared (id : String)
  | standard (id : String)
  | option (elem : TypeRef)
  | boxed (elem : TypeRef)
  | list (elem : TypeRef)
  | map (kind : MapKind) (key value : TypeRef)
  deriving DecidableEq, Inhabited, Repr

namespace TypeRef

def mentions : TypeRef → List TypeRef
  | r@(.declared _) => [r]
  | r@(.standard _) => [r]
  | r@(.option e) => r :: e.mentions
  | r@(.boxed e) => r :: e.mentions
  | r@(.list e) => r :: e.mentions
  | r@(.map _ k v) => r :: (k.mentions ++ v.mentions)

def objectMeta : TypeRef :=
  .standard "ObjectMeta"

def listMeta : TypeRef :=
  .standard "ListMeta"

end TypeRef

inductive Primitive where
  | bool
  | int8
  | int16
  | int32
  | int64
  | uint8
  | uint16
  | uint32
  | uint64
  | float32
  | float64
  | string
  deriving DecidableEq, Repr

namespace Primitive

def all : List Primitive :=
  [.bool, .int8, .int16, .int32, .int64, .uint8, .uint16, .uint32, .uint64, .float32, .float64,
    .string]

def label : Primitive → String
  | .bool => "bool"
  | .int8 => "int8"
  | .int16 => "int16"
  | .int32 => "int32"
  | .int64 => "int64"
  | .uint8 => "uint8"
  | .uint16 => "uint16"
  | .uint32 => "uint32"
  | .uint64 => "uint64"
  | .float32 => "float32"
  | .float64 => "float64"
  | .string => "string"

def ofLabel? (s : String) : Option Primitive :=
  all.find? fun p => p.label == s

end Primitive

/-- A field of a struct. An inline field lends its own fields to the owner. -/
structure Field where
  name : String
  type : TypeRef
  description : Option String := none
  omitEmpty : Bool := false
  isInline : Bool := false
  isRequired : Bool := false
  deriving DecidableEq, Inhabited, Repr

inductive Kind where
  | primitive (p : Primitive)
  | any
  | optional (elem : TypeRef)
  | seq (elem : TypeRef)
  | map (key value : TypeRef)
  | struct (fields : List Field)
  | enumeration (values : List String)
  deriving DecidableEq, Inhabited, Repr

namespace Kind

def label : Kind → String
  | .primitive p => p.label
  | .any => "any"
  | .optional _ => "optional"
  | .seq _ => "sequence"
  | .map _ _ => "map"
  | .struct _ => "struct"
  | .enumeration _ => "enum"

def isStruct : Kind → Bool
  | .struct _ => true
  | _ => false

def isOptional : Kind → Bool
  | .optional _ => true
  | _ => false

def isKey : Kind → Bool
  | .primitive .string => true
  | .enumeration _ => true
  | _ => false

def fields : Kind → List Field
  | .struct fs => fs
  | _ => []

def mapRefs (f : TypeRef → TypeRef) : Kind → Kind
  | .optional e => .optional (f e)
  | .seq e => .seq (f e)
  | .map k v => .map (f k) (f v)
  | .struct fs => .struct (fs.map fun x => { x with type := f x.type })
  | k => k

def refs : Kind → List TypeRef
  | .optional e => [e]
  | .seq e => [e]
  | .map k v => [k, v]
  | .struct fs => fs.map (·.type)
  | _ => []

end Kind

/-- What is known of a type. Containers and anonymous types have neither name nor package. -/
structure TypeInfo where
  name : String := ""
  package : String := ""
  description : Option String := none
  kind : Kind
  deriving DecidableEq, Inhabited, Repr

def TypeInfo.displayName (t : TypeInfo) : String :=
  if t.name = "" then t.kind.label
  else if t.package = "" then t.name
  else t.package ++ "." ++ t.name

/-- Types that refer to each other, possibly in cycles. `refs` lists the types that the graph is
about, and bounds how long a chain of references can be without coming back to itself. -/
structure TypeGraph where
  info : TypeRef → TypeInfo
  refs : List TypeRef

namespace TypeGraph

def bound (g : TypeGraph) : Nat :=
  g.refs.length + 1

def resolveWithin (g : TypeGraph) : Nat → TypeRef → Option TypeRef
  | 0, _ => none
  | n + 1, r =>
    match (g.info r).kind with
    | .optional e => g.resolveWithin n e
    | _ => some r

def resolve (g : TypeGraph) (r : TypeRef) : TypeRef :=
  (g.resolveWithin g.bound r).getD r

end TypeGraph

end ModelSchema
