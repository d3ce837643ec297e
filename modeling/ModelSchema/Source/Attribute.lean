import ModelSchema.Source.Expression

namespace ModelSchema.Source

structure Identifier where
  name : String
  isRaw : Bool := false
  deriving DecidableEq, Repr

def Identifier.text (i : Identifier) : String :=
  (if i.isRaw then "r#" else "") ++ i.name

structure Path where
  isGlobal : Bool
  names : List Identifier
  deriving DecidableEq, Repr

namespace Path

def text (p : Path) : String :=
  String.intercalate "::" (p.names.map Identifier.text)

def word? (p : Path) : Option String :=
  match p with
  | ⟨false, [⟨name, false⟩]⟩ => some name
  | _ => none

def isWord (p : Path) (name : String) : Bool :=
  p.word? == some name

end Path

inductive Argument where
  | none
  | value (e : Expression)
  | list (inner : List Token)
  deriving Repr

structure Attribute where
  path : Path
  argument : Argument
  deriving Repr

inductive ListItem where
  | literal
  | attribute (a : Attribute)
  deriving Repr

namespace Reader

def identifier : Reader Identifier
  | .word name isRaw :: rest =>
    if isRaw || !keywords.contains name then .ok (⟨name, isRaw⟩, rest)
    else .error (.keyword name)
  | ts => fail .identifier ts

/-- More names of a path. `what` is missing where a double colon is not followed by one. -/
def moreNames (p : Token → Bool) (what : Expected) : Nat → Reader (List Identifier)
  | 0 => return []
  | fuel + 1 => fun ts =>
    match afterColons? ts with
    | none => .ok ([], ts)
    | some (.word name isRaw :: rest) =>
      if p (.word name isRaw) then
        (List.cons (Identifier.mk name isRaw) <$> moreNames p what fuel) rest
      else fail what (.word name isRaw :: rest)
    | some rest => fail what rest

def path? (p : Token → Bool) (what : Expected) : Reader (Option Path) := fun ts =>
  let isGlobal := (afterColons? ts).isSome
  match (afterColons? ts).getD ts with
  | .word name isRaw :: rest =>
    if p (.word name isRaw) then
      ((fun names => some ⟨isGlobal, ⟨name, isRaw⟩ :: names⟩) <$> moreNames p what rest.length) rest
    else .ok (none, .word name isRaw :: rest)
  | rest => .ok (none, rest)

def argument : Reader Argument
  | .group _ inner :: rest => .ok (.list inner, rest)
  | .mark '=' _ :: rest => (Argument.value <$> readExpression) rest
  | ts => .ok (.none, ts)

def attributeBody : Reader Attribute := do
  match ← path? (fun t => t.isSegment || t.isWord "unsafe") .segment with
  | some p => return ⟨p, ← argument⟩
  | none => do
    let _ ← identifier
    fail .identifier

def attributes : Nat → Reader (List Attribute)
  | 0 => return []
  | fuel + 1 => do
    if begins (·.isMark '#') (← get) then
      mark '#'
      let a ← all attributeBody (← bracket .bracket .squareBrackets)
      return a :: (← attributes fuel)
    else return []

/-- A truth value is the name of an item if an equals sign follows. -/
def listItem : Reader ListItem := fun ts =>
  let isName := begins (· matches .word _ _) ts && begins (·.isMark '=') (ts.drop 1)
  match (if isName then none else afterLiteral? ts) with
  | some rest => .ok (.literal, rest)
  | none =>
    match path? (· matches .word _ _) .listSegment ts with
    | .ok (some p, rest) => ((fun a => ListItem.attribute ⟨p, a⟩) <$> argument) rest
    | .ok (none, _) => fail .listItem ts
    | .error f => .error f

end Reader

def readAttributes : Reader (List Attribute) :=
  fun ts => Reader.attributes ts.length ts

def listItems (inner : List Token) : Except Fault (List ListItem) :=
  Reader.list Reader.listItem inner

end ModelSchema.Source
