import ModelSchema.Schema.Settings

namespace ModelSchema

/-- A package path as the beginning of a name: two colons become one underscore, and so does each
slash, point and hyphen. -/
def flatPath : List Char → List Char
  | [] => []
  | ':' :: ':' :: cs => '_' :: flatPath cs
  | c :: cs => (if c = '/' ∨ c = '.' ∨ c = '-' then '_' else c) :: flatPath cs

def Settings.qualifiedName (s : Settings) (t : TypeInfo) : String :=
  match s.package? t.package with
  | some p => p.definitionPrefix ++ t.name
  | none => String.ofList (flatPath t.package.toList) ++ "_" ++ t.name

namespace Java

def hasMetadata : String :=
  "io.fabric8.kubernetes.api.model.HasMetadata"

def kubernetesResource : String :=
  "io.fabric8.kubernetes.api.model.KubernetesResource"

def resourceList (item : String) : String :=
  "io.fabric8.kubernetes.api.model.KubernetesResourceList<" ++ item ++ ">"

def arrayListOf (elem : String) : String :=
  "java.util.ArrayList<" ++ elem ++ ">"

def mapOf (value : String) : String :=
  "java.util.Map<String," ++ value ++ ">"

def boxed : Primitive → String
  | .bool => "Boolean"
  | .int8 | .int16 | .int32 | .uint8 | .uint16 | .uint32 => "Integer"
  | .int64 | .uint64 => "Long"
  | .float32 | .float64 => "Double"
  | .string => "String"

end Java

/-- The Java class generated for a struct. Outside the known packages a struct goes by its bare
name, times are strings, and the nameless empty struct is any object. -/
def Settings.structJavaType (s : Settings) (t : TypeInfo) : String :=
  match s.package? t.package with
  | some p =>
    if t.name = "RawExtension" then Java.hasMetadata
    else if t.name = "List" then p.javaPackage ++ ".BaseKubernetesList"
    else p.javaPackage ++ "." ++ t.name
  | none =>
    if t.name = "Time" then "String"
    else if t.name = "" ∧ t.kind.fields = [] then "Object"
    else t.name

end ModelSchema
