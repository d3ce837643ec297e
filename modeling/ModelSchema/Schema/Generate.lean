import ModelSchema.Schema.Assembly
import ModelSchema.Schema.Definition

namespace ModelSchema

structure Outcome where
  log : List Event
  result : Except GenerateError Document

def dialect : String :=
  "http://json-schema.org/schema#"

def idBase : String :=
  "http://fabric8.io/fabric8/v2/"

def Settings.documentId (s : Settings) (rootName : String) : String :=
  idBase ++ (if s.moduleName = "" then "" else s.moduleName ++ "/") ++ rootName ++ "#"

namespace TypeGraph

variable (g : TypeGraph) (s : Settings)

def entryWithin (n : Nat) (v : Visited) : Option Entry :=
  (g.definitionWithin s n v).map fun p =>
    ⟨s.qualifiedName (g.info v.type), (g.info v.type).name, p⟩

def document (root : TypeInfo) (object : ObjectDescriptor) (a : Assembly) : Document :=
  { id := s.documentId root.name
    dialect := dialect
    definitions := a.definitions
    descriptor := { instanceType := some .object, description := root.description }
    object := object
    resources := some a.resources }

/-- The schema of everything that `root` leads to, if the parts of the walk nest less than `n`
deep. -/
def generateWithin (n : Nat) (root : TypeRef) : Outcome :=
  let root := s.substitute root
  let info := g.info root
  if ¬info.kind.isStruct then ⟨[], .error (.notAStruct info.displayName info.kind.label)⟩
  else
    match Walk.ofRoot g s n root with
    | .error e p => ⟨p.log, .error (.walk e)⟩
    | .ok object p =>
      match p.visited.mapM (g.entryWithin s n) with
      | none => ⟨p.log, .error (.walk .endless)⟩
      | some entries =>
        match assemble entries with
        | (a, some e) => ⟨p.log ++ a.log, .error (.assembly e)⟩
        | (a, none) =>
          let d := document s info object a
          ⟨p.log ++ a.log ++
            [.generated info.name d.definitions.length d.object.properties.length], .ok d⟩

/-- Each struct is visited once, and on the way to it references and embedded structs follow on
each other without repetition. -/
def depth : Nat :=
  (g.bound + 1) * (3 * g.bound + 5)

def generate (root : TypeRef) : Outcome :=
  g.generateWithin s g.depth root

end TypeGraph

end ModelSchema
