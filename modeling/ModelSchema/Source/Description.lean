import ModelSchema.Graph
import ModelSchema.Source.Hints
import ModelSchema.Source.Item
import ModelSchema.Source.Options

namespace ModelSchema.Source

inductive Modifier where
  | inline
  | omitEmpty
  | required
  | describe (text : String)
  deriving DecidableEq, Repr

structure FieldDescription where
  name : String
  type : List Token
  isInline : Bool := false
  omitEmpty : Bool := false
  isRequired : Bool := false
  description : Option String := none
  deriving Repr

def describeText (description : Option String) : List Modifier :=
  (description.map Modifier.describe).toList

def FieldDescription.modifiers (f : FieldDescription) : List Modifier :=
  (if f.isInline then [.inline] else []) ++ (if f.omitEmpty then [.omitEmpty] else []) ++
    (if f.isRequired then [.required] else []) ++ describeText f.description

inductive Members where
  | fields (fs : List FieldDescription)
  | values (vs : List String)
  deriving Repr

structure Description where
  target : Identifier
  library : List Token
  package : PackageSource
  members : Members
  description : Option String
  deriving Repr

namespace Description

variable (d : Description)

def name : String :=
  d.target.name

def modifiers : List Modifier :=
  describeText d.description

def implements : String :=
  squeezed d.library ++ "::Reflect"

/-- The described type, where the words for types and constants have the given meanings. -/
def toInfo (typeOf : List Token → TypeRef) (valueOf : List Token → String) : TypeInfo where
  name := d.name
  package :=
    match d.package with
    | .literal path => path
    | .expression ts => valueOf ts
  description := d.description
  kind :=
    match d.members with
    | .fields fs => .struct (fs.map fun f =>
        { name := f.name, type := typeOf f.type, description := f.description,
          omitEmpty := f.omitEmpty, isInline := f.isInline, isRequired := f.isRequired })
    | .values vs => .enumeration vs

end Description

inductive Refusal where
  | malformed (fault : Fault)
  | union
  | hints (problems : List HintProblem)
  | generic
  | options (problem : OptionProblem)
  deriving DecidableEq, Repr

/-- Nothing is said about a union. -/
def Refusal.message? : Refusal → Option String
  | .malformed fault => some fault.message
  | .union => none
  | .hints ps => some (String.intercalate "\n" (ps.map HintProblem.message))
  | .generic => some "#[derive(Reflect)] does not support generic types"
  | .options p => some p.message

def docLine? (a : Attribute) : Option (List Char) :=
  match a.path.isWord "doc", a.argument with
  | true, .value { form := .literal (.string s), .. } =>
    match s.toList with
    | ' ' :: cs => some cs
    | cs => some cs
  | _, _ => none

def documentation (as : List Attribute) : Option String :=
  match Text.trim (['\n'].intercalate (as.filterMap docLine?)) with
  | [] => none
  | text => some (String.ofList text)

def globalPath (names : List String) : List Token :=
  names.flatMap fun name => [.mark ':' true, .mark ':' false, .word name false]

/-- The path of the module of a declaration, worked out where the description is used. -/
def defaultPackage : PackageSource :=
  .expression (globalPath ["core", "module_path"] ++ [.mark '!' false, .group .paren []])

def defaultLibrary : List Token :=
  globalPath ["schemagen", "core"]

def Body.form : Body → BodyForm
  | .named _ => .named
  | .unnamed [_] => .newtype
  | .unnamed _ => .unnamed
  | .empty => .empty

/-- Problems with the form of the data: structs have named fields, and variants have no data. -/
def Content.formProblems : Content → List HintProblem
  | .struct (.named _) => []
  | .struct body => [.shape body.form .named]
  | .enumeration vs => vs.filterMap fun v =>
      if v.body.form = .empty then none else some (.shape v.body.form .empty)
  | .union => []

def Content.memberProblems : Content → List HintProblem
  | .struct (.named fs) => fs.flatMap fun f => (fieldHints f.attributes).problems
  | .struct (.unnamed fs) => fs.flatMap fun f => (fieldHints f.attributes).problems
  | .struct .empty => []
  | .enumeration vs => vs.flatMap fun v => (variantHints v.attributes).problems
  | .union => []

def Item.hintProblems (i : Item) : List HintProblem :=
  (containerHints i.attributes).problems ++ i.content.formProblems ++ i.content.memberProblems

def memberName (rename : Option String) (rule : Option RenameRule)
    (apply : RenameRule → String → String) (name : String) : String :=
  rename.getD (match rule with
    | some rule => apply rule name
    | none => name)

/-- A field is required if a hint says so, or if nothing allows it to be missing. -/
def describeField (c : ContainerOptions) (isRequired : Bool) (o : MemberOptions) (name : String)
    (f : FieldDeclaration) : FieldDescription where
  name := if o.flatten then "" else memberName o.rename c.renameAll RenameRule.field name
  type := f.type
  isInline := o.flatten
  omitEmpty := o.skipIf
  isRequired := isRequired || !(o.flatten || o.skipIf || o.default || c.default)
  description := documentation f.attributes

def describeField? (c : ContainerOptions) (f : FieldDeclaration) :
    Except OptionProblem (Option FieldDescription) :=
  (memberOptions f.attributes).map fun o =>
    if o.skip then none
    else f.name.map fun name => describeField c (fieldHints f.attributes).hints o name.name f

def describeVariant? (c : ContainerOptions) (v : VariantDeclaration) :
    Except OptionProblem (Option String) :=
  (memberOptions v.attributes).map fun o =>
    if o.skip then none
    else some (memberName o.rename c.renameAll RenameRule.variant v.name.name)

def describeMembers (c : ContainerOptions) : Content → Except OptionProblem Members
  | .struct (.named fs) => (fs.mapM (describeField? c)).map fun ds => .fields (ds.filterMap id)
  | .enumeration vs => (vs.mapM (describeVariant? c)).map fun ds => .values (ds.filterMap id)
  | _ => .ok (.fields [])

def Item.describeValid (i : Item) : Except OptionProblem Description := do
  let hints := (containerHints i.attributes).hints
  let c ← containerOptions i.attributes
  let members ← describeMembers c i.content
  return {
    target := i.name
    library := hints.library.getD defaultLibrary
    package := hints.package.getD defaultPackage
    members
    description := documentation i.attributes }

def Item.describe (i : Item) : Except Refusal Description :=
  if i.content matches .union then .error .union
  else if i.hintProblems ≠ [] then .error (.hints i.hintProblems)
  else if i.isGeneric then .error .generic
  else i.describeValid.mapError .options

def describe (text : String) : Except Refusal Description := do
  (← (Item.ofText? text.toList).mapError .malformed).describe

end ModelSchema.Source
