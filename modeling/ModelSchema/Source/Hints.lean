import ModelSchema.Source.Attribute
import ModelSchema.Source.Lexer
import ModelSchema.Text.Similarity

namespace ModelSchema.Source

inductive BodyForm where
  | named
  | newtype
  | unnamed
  | empty
  deriving DecidableEq, Repr

def BodyForm.text : BodyForm → String
  | .named => "named fields"
  | .newtype => "one unnamed field"
  | .unnamed => "unnamed fields"
  | .empty => "no fields"

inductive HintProblem where
  | malformed (fault : Fault)
  | notAList (name : String)
  | unexpectedForm (form : String)
  | unexpectedType (label : String)
  | unknownKey (key : String) (closest : Option String)
  | repeatedKey (key : String)
  | unknownValue (value : String)
  | notAPackage
  | shape (found expected : BodyForm)
  deriving DecidableEq, Repr

def HintProblem.message : HintProblem → String
  | .malformed fault => fault.message
  | .notAList name => "Name-value arguments are not supported. Use #[" ++ name ++ "(...)]"
  | .unexpectedForm form => "Unexpected meta-item format `" ++ form ++ "`"
  | .unexpectedType label => "Unexpected type `" ++ label ++ "`"
  | .unknownKey key none => "Unknown field: `" ++ key ++ "`"
  | .unknownKey key (some other) =>
    "Unknown field: `" ++ key ++ "`. Did you mean `" ++ other ++ "`?"
  | .repeatedKey key => "Duplicate field `" ++ key ++ "`"
  | .unknownValue value => "Unknown literal value `" ++ value ++ "`"
  | .notAPackage => "expected a string literal or a constant"
  | .shape found expected =>
    "Unsupported shape `" ++ found.text ++ "`. Expected " ++ expected.text ++ "."

def hintsAttribute : String :=
  "reflect"

abbrev Setter (σ : Type) := Argument → σ → Except (List HintProblem) σ

/-- Hints read so far, the keys that were given, and the problems, the first one first. -/
structure Reading (σ : Type) where
  hints : σ
  given : List String := []
  problems : List HintProblem := []

namespace Reading

variable {σ : Type}

def report (r : Reading σ) (ps : List HintProblem) : Reading σ :=
  { r with problems := r.problems ++ ps }

/-- Each key may be given once, also if the first time was a problem. -/
def add (setters : List (String × Setter σ)) (r : Reading σ) : ListItem → Reading σ
  | .literal => r.report [.unexpectedForm "literal"]
  | .attribute a =>
    let key := a.path.text
    match setters.lookup key with
    | none => r.report [.unknownKey key (Text.closest? key (setters.map (·.1)))]
    | some set =>
      if r.given.contains key then r.report [.repeatedKey key]
      else
        let r := { r with given := key :: r.given }
        match set a.argument r.hints with
        | .ok hints => { r with hints }
        | .error ps => r.report ps

def addList (setters : List (String × Setter σ)) (r : Reading σ) (inner : List Token) :
    Reading σ :=
  match listItems inner with
  | .ok items => items.foldl (add setters) r
  | .error fault => r.report [.malformed fault]

def addAttribute (setters : List (String × Setter σ)) (r : Reading σ) (a : Attribute) :
    Reading σ :=
  if a.path.isWord hintsAttribute then
    match a.argument with
    | .none => r
    | .value _ => r.report [.notAList a.path.text]
    | .list inner => r.addList setters inner
  else r

end Reading

def readHints {σ : Type} (setters : List (String × Setter σ)) (default : σ)
    (as : List Attribute) : Reading σ :=
  as.foldl (Reading.addAttribute setters) { hints := default }

def unexpectedList (inner : List Token) : HintProblem :=
  match listItems inner with
  | .ok _ => .unexpectedForm "list"
  | .error fault => .malformed fault

inductive PackageSource where
  | literal (path : String)
  | expression (tokens : List Token)
  deriving Repr

structure ContainerHints where
  package : Option PackageSource := none
  library : Option (List Token) := none
  deriving Repr

def setPackage : Setter ContainerHints
  | .none, _ => .error [.unexpectedForm "word"]
  | .list inner, _ => .error [unexpectedList inner]
  | .value e, h =>
    match e.form with
    | .literal (.string path) => .ok { h with package := some (.literal path) }
    | .path => .ok { h with package := some (.expression e.tokens) }
    | _ => .error [.notAPackage]

def setLibrary : Setter ContainerHints
  | .none, _ => .error [.unexpectedForm "word"]
  | .list inner, _ => .error [unexpectedList inner]
  | .value e, h =>
    match e.form with
    | .literal (.string text) =>
      match (lex text.toList).bind pathTokens? with
      | some path => .ok { h with library := some path }
      | none => .error [.unknownValue text]
    | .path => .ok { h with library := some e.tokens }
    | form => .error [.unexpectedType form.label]

def setLibraries : Setter ContainerHints
  | .none, _ => .error [.unexpectedForm "word"]
  | .value e, _ => .error [.unexpectedType e.form.label]
  | .list inner, h =>
    let r := Reading.addList [("schemagen_core", setLibrary)] { hints := h } inner
    if r.problems.isEmpty then .ok r.hints else .error r.problems

def containerHints (as : List Attribute) : Reading ContainerHints :=
  readHints [("package", setPackage), ("crates", setLibraries)] {} as

def setRequired : Setter Bool
  | .none, _ => .ok true
  | .list inner, _ => .error [unexpectedList inner]
  | .value e, _ =>
    match e.form with
    | .truth b => .ok b
    | .literal (.string "true") => .ok true
    | .literal (.string "false") => .ok false
    | .literal (.string s) => .error [.unknownValue s]
    | form => .error [.unexpectedType form.label]

def fieldHints (as : List Attribute) : Reading Bool :=
  readHints [("required", setRequired)] false as

def variantHints (as : List Attribute) : Reading Unit :=
  readHints [] () as

end ModelSchema.Source
