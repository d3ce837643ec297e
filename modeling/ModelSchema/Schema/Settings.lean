import ModelSchema.Graph
import ModelSchema.Package

namespace ModelSchema

/-- What the schema is generated with, apart from the types. Of two entries for the same package
path or the same type the later one counts. -/
structure Settings where
  packages : List Package := []
  substitutions : List (TypeRef × TypeRef) := []
  manualTypes : List (TypeRef × String) := []
  moduleName : String := ""

namespace Settings

def package? (s : Settings) (path : String) : Option Package :=
  s.packages.reverse.find? fun p => p.path == path

def substitute? (s : Settings) (r : TypeRef) : Option TypeRef :=
  s.substitutions.reverse.lookup r

/-- The type that stands for `r`. Substitutes are not substituted again. -/
def substitute (s : Settings) (r : TypeRef) : TypeRef :=
  (s.substitute? r).getD r

def manualType? (s : Settings) (r : TypeRef) : Option String :=
  s.manualTypes.reverse.lookup r

end Settings

end ModelSchema
