import ModelSchema.Schema.Report
import ModelSchema.Schema.Role

namespace ModelSchema

structure Visited where
  type : TypeRef
  /-- Absent as long as the fields of the struct are being described. -/
  object : Option ObjectDescriptor := none
  role : Role := .plain
  deriving Inhabited

structure Progress where
  visited : List Visited := []
  log : List Event := []
  deriving Inhabited

namespace Progress

def types (p : Progress) : List TypeRef :=
  p.visited.map (·.type)

def begin (p : Progress) (t : TypeRef) (event : Event) : Progress :=
  { visited := p.visited ++ [{ type := t }], log := p.log ++ [event] }

def complete (p : Progress) (v : Visited) : Progress :=
  { p with visited := p.visited.map fun w => if w.type = v.type then v else w }

end Progress

/-- A part of the walk. What it has seen and said is kept when it fails. -/
abbrev Walk := EStateM WalkError Progress

/-- A computation that found no end ends the walk. -/
def Walk.ofOption {α : Type} : Option α → Walk α
  | some a => pure a
  | none => throw .endless

/-- Whether a field is optional is judged by the type it is declared with. -/
def TypeGraph.addField (g : TypeGraph) (o : ObjectDescriptor) (f : Field) (p : Property) :
    ObjectDescriptor :=
  let o := o.insert f.name (p.described f.description)
  if f.isRequired ∧ ¬(g.info f.type).kind.isOptional then o.require f.name else o

namespace Walk

variable (g : TypeGraph) (s : Settings)

mutual

/-- Adds the fields of `owner`, and those of the structs that it embeds, to an object. The number
bounds how deep the parts of the walk may be nested. -/
def collect : Nat → TypeRef → ObjectDescriptor → Walk ObjectDescriptor
  | 0, _, _ => throw .endless
  | n + 1, owner, o => (g.info owner).kind.fields.foldlM (collectField n owner) o

def collectField : Nat → TypeRef → ObjectDescriptor → Field → Walk ObjectDescriptor
  | 0, _, _, _ => throw .endless
  | n + 1, owner, o, f =>
    if f.isInline then do
      let e ← ofOption (g.embeddedWithin s n f.type)
      if (g.info e).kind.isStruct then collect n e o
      else throw (.inlineNotStruct (g.displayName owner) f.name (g.displayName e))
    else do
      let p ← describe n owner f.type f.omitEmpty
      return g.addField o f p

/-- The property that stands for a reference. Only the outermost container can be left out when it
is empty. -/
def describe : Nat → TypeRef → TypeRef → Bool → Walk Property
  | 0, _, _, _ => throw .endless
  | n + 1, owner, r, omitEmpty =>
    let t := s.substitute r
    match s.manualType? t with
    | some javaType => return .ofManual javaType
    | none =>
      match (g.info t).kind with
      | .primitive p => return .ofPrimitive p
      | .any => return .ofAny
      | .enumeration values => return .ofEnumeration values
      | .optional e => describe n owner e omitEmpty
      | .seq e =>
        if g.isByte (s.substitute e) then return .ofBytes
        else do
          let items ← describe n owner e false
          return .ofList items omitEmpty
      | .map k v => do
        let key ← ofOption (g.resolveWithin n (s.substitute k))
        if (g.info key).kind.isKey then do
          let javaType ← ofOption (g.javaTypeWithin s n (s.substitute v))
          let value ← describe n owner v false
          return .ofMap value (Java.mapOf javaType) omitEmpty
        else throw (.unsupportedMapKey (g.displayName owner) (g.displayName key))
      | .struct _ => do
        visit n t
        let javaType ← ofOption (g.javaTypeWithin s n t)
        return .referenceTo (s.qualifiedName (g.info t)) javaType

def visit : Nat → TypeRef → Walk Unit
  | 0, _ => throw .endless
  | n + 1, t => do
    if t ∈ (← get).types then return ()
    else do
      modify (·.begin t (.registering (s.qualifiedName (g.info t))))
      let o ← collect n t .open
      let role ← ofOption (g.roleWithin s n t)
      modify (·.complete ⟨t, some (s.pinned (g.info t) role o), role⟩)

end

/-- The object of the root, which is visited itself only if something refers to it. -/
def ofRoot (n : Nat) (root : TypeRef) : EStateM.Result WalkError Progress ObjectDescriptor :=
  collect g s n root .open {}

end Walk

end ModelSchema
