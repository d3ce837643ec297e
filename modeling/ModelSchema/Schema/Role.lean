import ModelSchema.Schema.JavaType

namespace ModelSchema

inductive Role where
  | resource
  | list (item : String)
  | plain
  deriving DecidableEq, Repr

namespace Role

def interfaces : Role → List String
  | .resource => [Java.hasMetadata]
  | .list item => [Java.kubernetesResource, Java.resourceList item]
  | .plain => [Java.kubernetesResource]

end Role

structure Landmarks where
  apiVersion : Bool := false
  kind : Bool := false
  /-- The type of the metadata, without its optional layers. -/
  metadata : Option TypeRef := none
  items : Option TypeRef := none
  deriving DecidableEq

namespace TypeGraph

variable (g : TypeGraph) (s : Settings)

def embeddedWithin (n : Nat) (r : TypeRef) : Option TypeRef :=
  (g.resolveWithin n r).map s.substitute

def fieldsWithin : Nat → TypeRef → Option (List Field)
  | 0, _ => none
  | n + 1, t => do
    let parts ← (g.info t).kind.fields.mapM fun f =>
      if f.isInline then (g.embeddedWithin s n f.type).bind (fieldsWithin n) else some [f]
    return parts.flatten

/-- Of fields with the same name the last one counts. -/
def noteField (n : Nat) (l : Landmarks) (f : Field) : Option Landmarks :=
  if f.name = "apiVersion" then some { l with apiVersion := true }
  else if f.name = "kind" then some { l with kind := true }
  else if f.name = "metadata" then
    (g.resolveWithin n f.type).map fun t => { l with metadata := some t }
  else if f.name = "items" then some { l with items := some f.type }
  else some l

/-- Metadata is recognised by the type it is declared with, not by its substitute. -/
def roleWithin (n : Nat) (t : TypeRef) : Option Role := do
  let fields ← g.fieldsWithin s n t
  let l ← fields.foldlM (g.noteField n) {}
  if ¬(l.apiVersion ∧ l.kind) then return .plain
  else if l.metadata = some .objectMeta then return .resource
  else
    match l.metadata, l.items with
    | some metadata, some r =>
      let items ← g.embeddedWithin s n r
      match (g.info items).kind with
      | .seq e =>
        if metadata = .listMeta then
          return .list (← g.javaTypeWithin s n (s.substitute e))
        else return .plain
      | _ => return .plain
    | _, _ => return .plain

end TypeGraph

/-- Restricts a property of an object to one value and requires it, if the object has it. -/
def pin (o : ObjectDescriptor) (name value : String) : ObjectDescriptor :=
  match Entries.get? o.properties name with
  | some p => (o.insert name (p.pinned value)).require name
  | none => o

def Settings.pinned (s : Settings) (t : TypeInfo) (role : Role) (o : ObjectDescriptor) :
    ObjectDescriptor :=
  if role = .plain then o
  else
    match s.package? t.package with
    | some p => pin (pin o "apiVersion" p.apiVersion) "kind" t.name
    | none => o

end ModelSchema
