import ModelSchema.Document

namespace ModelSchema

def optional {α : Type} (key : String) (write : α → Json) : Option α → List (String × Json)
  | some a => [(key, write a)]
  | none => []

def nonempty {α : Type} (key : String) (write : List α → Json) : List α → List (String × Json)
  | [] => []
  | xs => [(key, write xs)]

def flagged (key : String) : Bool → List (String × Json)
  | true => [(key, .bool true)]
  | false => []

def texts (xs : List String) : Json :=
  .array (xs.map .string)

def Descriptor.members (d : Descriptor) : List (String × Json) :=
  optional "type" (fun t => .string t.keyword) d.instanceType ++
  optional "description" .string d.description ++
  optional "default" id d.default ++
  optional "enum" .array d.enumValues

def JavaDescriptor.members (j : JavaDescriptor) : List (String × Json) :=
  optional "javaType" .string j.javaType ++
  optional "existingJavaType" .string j.existingJavaType ++
  nonempty "javaInterfaces" texts j.interfaces ++
  flagged "javaOmitEmpty" j.omitEmpty

/-- The key of the schema of a map's values, before the keys are corrected. -/
def mapValueKey : String :=
  "additionalProperty"

def ObjectOf.membersWith (properties : List (String × Json)) (required : List String)
    (additional : Bool) : List (String × Json) :=
  nonempty "properties" .object properties ++
  nonempty "required" texts required ++
  [("additionalProperties", .bool additional)]

mutual

def Property.members : Property → List (String × Json)
  | ⟨descriptor, reference, object, items, mapValue, java⟩ =>
    descriptor.members ++
    optional "$ref" .string reference ++
    objectMembers object ++
    propertyMember "items" items ++
    propertyMember mapValueKey mapValue ++
    java.members

def objectMembers : Option (ObjectOf Property) → List (String × Json)
  | none => []
  | some ⟨properties, required, additional⟩ =>
    ObjectOf.membersWith (propertyMembers properties) required additional

def propertyMember (key : String) : Option Property → List (String × Json)
  | none => []
  | some p => [(key, .object p.members)]

def propertyMembers : List (String × Property) → List (String × Json)
  | [] => []
  | (name, p) :: ps => (name, .object p.members) :: propertyMembers ps

end

def Property.toJson (p : Property) : Json :=
  .object p.members

def Document.toJson (d : Document) : Json :=
  .object <|
    [("id", .string d.id), ("$schema", .string d.dialect)] ++
    nonempty "definitions" .object (propertyMembers d.definitions) ++
    d.descriptor.members ++
    objectMembers (some d.object) ++
    optional "resources" (fun r => .object (propertyMembers r)) d.resources

end ModelSchema
