import ModelSchema.Catalogue.Standard

namespace ModelSchema

inductive Declaration where
  | type (info : TypeInfo)
  | alias (target : TypeRef)
  deriving Inhabited

namespace TypeRef

def rename (f : String → TypeRef) : TypeRef → TypeRef
  | .declared id => f id
  | .standard id => .standard id
  | .option e => .option (e.rename f)
  | .boxed e => .boxed (e.rename f)
  | .list e => .list (e.rename f)
  | .map kind k v => .map kind (k.rename f) (v.rename f)

end TypeRef

structure Catalogue where
  declarations : List (String × Declaration) := []

namespace Catalogue

variable (c : Catalogue)

def spelled : Nat → String → TypeRef
  | 0, id => .declared id
  | n + 1, id =>
    match c.declarations.lookup id with
    | some (.alias target) => target.rename (spelled n)
    | _ => .declared id

def expand (r : TypeRef) : TypeRef :=
  r.rename (c.spelled c.declarations.length)

def types : List (String × TypeInfo) :=
  c.declarations.filterMap fun (id, d) =>
    match d with
    | .type info => some (id, { info with kind := info.kind.mapRefs c.expand })
    | .alias _ => none

end Catalogue

/-- A name that is in no table is an anonymous value of any kind. -/
def unknownType : TypeInfo :=
  { kind := .any }

def infoOf (declared : List (String × TypeInfo)) : TypeRef → TypeInfo
  | .declared id => (declared.lookup id).getD unknownType
  | .standard id => (Standard.types.lookup id).getD unknownType
  | .option e => { kind := .optional e }
  | .boxed e => { kind := .optional e }
  | .list e => { kind := .seq e }
  | .map _ k v => { kind := .map k v }

def mentioned (types : List (String × TypeInfo)) : List TypeRef :=
  types.flatMap fun (_, info) => info.kind.refs.flatMap TypeRef.mentions

def standardRefs : List TypeRef :=
  Standard.types.map (fun t => .standard t.1) ++ mentioned Standard.types

def Catalogue.graph (c : Catalogue) (more : List TypeRef) : TypeGraph :=
  let types := c.types
  { info := infoOf types
    refs := types.map (fun t => .declared t.1) ++ mentioned types ++ standardRefs ++
      more.flatMap TypeRef.mentions }

end ModelSchema
