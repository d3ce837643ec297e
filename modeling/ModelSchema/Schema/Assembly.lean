import ModelSchema.Document
import ModelSchema.Schema.Report
import ModelSchema.Text.Case

namespace ModelSchema

structure Entry where
  name : String
  typeName : String
  definition : Property
  deriving Inhabited

structure Assembly where
  definitions : Entries Property := []
  resources : Entries Property := []
  log : List Event := []

def insertEntry (e : Entry) : List Entry → List Entry
  | [] => [e]
  | f :: es => if f.name < e.name then f :: insertEntry e es else e :: f :: es

/-- Entries of the same name stay in their order. -/
def sortEntries (es : List Entry) : List Entry :=
  es.foldr insertEntry []

namespace Assembly

def holds (es : Entries Property) (key : String) : Bool :=
  (Entries.get? es key).isSome

/-- The key of a new resource, and whether it is the second choice. -/
def resourceKey (a : Assembly) (e : Entry) : String × Bool :=
  let key := Text.lowercase e.typeName
  if holds a.resources key then (Text.lowercase e.name, true) else (key, false)

def note (a : Assembly) (e : Entry) : Assembly :=
  if (a.resourceKey e).2 then
    { a with log := a.log ++ [.resourceNameTaken e.name (Text.lowercase e.typeName)] }
  else a

def error? (a : Assembly) (e : Entry) : Option AssemblyError :=
  if holds a.definitions e.name then some (.duplicateDefinition e.name)
  else if holds a.resources (a.resourceKey e).1 then
    some (.duplicateResource (a.resourceKey e).1 e.name)
  else none

def add (a : Assembly) (e : Entry) : Assembly :=
  { a.note e with
    definitions := Entries.insertSorted a.definitions e.name e.definition
    resources := Entries.insertSorted a.resources (a.resourceKey e).1 e.definition }

def addAll (a : Assembly) : List Entry → Assembly × Option AssemblyError
  | [] => (a, none)
  | e :: es =>
    match a.error? e with
    | some (.duplicateDefinition name) => (a, some (.duplicateDefinition name))
    | some error => (a.note e, some error)
    | none => (a.add e).addAll es

end Assembly

def assemble (es : List Entry) : Assembly × Option AssemblyError :=
  Assembly.addAll {} (sortEntries es)

end ModelSchema
