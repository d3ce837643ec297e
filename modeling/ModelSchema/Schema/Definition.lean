import ModelSchema.Schema.Walk

namespace ModelSchema

namespace TypeGraph

variable (g : TypeGraph) (s : Settings)

/-- The definition of a struct; one whose fields were never described is an open object. -/
def definitionWithin (n : Nat) (v : Visited) : Option Property := do
  let info := g.info v.type
  return {
    descriptor := { instanceType := some .object, description := info.description }
    object := some (v.object.getD .open)
    java := {
      javaType := some (← g.javaTypeWithin s n v.type)
      interfaces := v.role.interfaces } }

end TypeGraph

end ModelSchema
