import ModelSchema.Source.Attribute
import ModelSchema.Source.Rename

namespace ModelSchema.Source

/-- What stands between two commas of a list. It is final if no comma follows. -/
structure Part where
  tokens : List Token
  isFinal : Bool
  deriving Repr

def parts : List Token → List Part
  | [] => []
  | t :: ts =>
    if t.isMark ',' then ⟨[], false⟩ :: parts ts
    else
      match parts ts with
      | [] => [⟨[t], true⟩]
      | p :: ps => { p with tokens := t :: p.tokens } :: ps

inductive OptionProblem where
  | noArguments
  | noParentheses
  | unknownRule (name : String)
  | malformed (fault : Fault)
  deriving DecidableEq, Repr

def OptionProblem.message : OptionProblem → String
  | .noArguments => "expected attribute arguments in parentheses: #[serde(...)]"
  | .noParentheses => "expected parentheses: #[serde(...)]"
  | .unknownRule name => "unknown rename rule `" ++ name ++ "`"
  | .malformed fault => fault.message

namespace Part

variable (p : Part)

def missing {α : Type} (what : Expected) (rest : List Token) : Except Fault α :=
  .error (.expected what (p.isFinal && rest.isEmpty))

def path : Except Fault (Path × List Token) :=
  let start := (afterColons? p.tokens).getD p.tokens
  match Reader.path? (· matches .word _ _) .word p.tokens with
  | .ok (some path, rest) => .ok (path, rest)
  | .ok (none, _) =>
    if (afterLiteral? start).isSome then .error .literalOption
    else if start.isEmpty && p.isFinal then .error (.expected .option true)
    else .error .strayOption
  | .error (.expected what atEnd) => .error (.expected what (p.isFinal && atEnd))
  | .error f => .error f

def closed {α : Type} (a : α) (rest : List Token) : Except Fault α :=
  if rest.isEmpty then .ok a else .error (.expectedMark ',')

def stringValue (rest : List Token) : Except Fault (String × List Token) :=
  match rest with
  | .literal (.string s) _ :: rest => .ok (s, rest)
  | rest => p.missing .stringLiteral rest

def skipValue : List Token → Except Fault (List Token)
  | .mark '=' _ :: rest =>
    match afterLiteral? rest with
    | some rest => .ok rest
    | none => p.missing .literal rest
  | .group .paren _ :: rest => .ok rest
  | rest => .ok rest

def valued {α : Type} (a : α) (rest : List Token) : Except Fault α := do
  closed a (← p.skipValue rest)

def innerName : Except Fault (Option String) := do
  let (path, rest) ← p.path
  match path.word?, rest with
  | some "serialize", .mark '=' _ :: rest =>
    let (s, rest) ← p.stringValue rest
    closed (some s) rest
  | some "serialize", _ => throw (.expectedMark '=')
  | _, rest => p.valued none rest

/-- The name behind an option: a string, or the last one given for serialization in parentheses. -/
def serializedName (rest : List Token) : Except Fault (Option String × List Token) :=
  match rest with
  | .mark '=' _ :: rest => (p.stringValue rest).map fun (s, rest) => (some s, rest)
  | .group .paren inner :: rest => do
    if inner.isEmpty then throw (.expected .option true)
    let names ← (parts inner).mapM innerName
    return (names.foldl (fun last name => name.or last) none, rest)
  | rest => p.missing .parentheses rest

end Part

inductive MemberOption where
  | rename (name : Option String)
  | skip
  | flatten
  | skipIf
  | default
  | other
  deriving DecidableEq, Repr

def MemberOption.ofPart (p : Part) : Except Fault MemberOption := do
  let (path, rest) ← p.path
  match path.word? with
  | some "rename" =>
    let (name, rest) ← p.serializedName rest
    Part.closed (.rename name) rest
  | some "skip" => Part.closed .skip rest
  | some "skip_serializing" => Part.closed .skip rest
  | some "flatten" => Part.closed .flatten rest
  | some "skip_serializing_if" => p.valued .skipIf rest
  | some "default" => p.valued .default rest
  | _ => p.valued .other rest

structure MemberOptions where
  rename : Option String := none
  skip : Bool := false
  flatten : Bool := false
  skipIf : Bool := false
  default : Bool := false
  deriving DecidableEq, Repr

/-- The last rename counts, also one that gives no name. -/
def MemberOptions.add (o : MemberOptions) : MemberOption → MemberOptions
  | .rename name => { o with rename := name }
  | .skip => { o with skip := true }
  | .flatten => { o with flatten := true }
  | .skipIf => { o with skipIf := true }
  | .default => { o with default := true }
  | .other => o

inductive ContainerOption where
  | renameAll (rule : RenameRule)
  | default
  | other
  deriving DecidableEq, Repr

/-- The rule of that name; without a name nothing is renamed. -/
def ContainerOption.ofRuleName : Option String → Except OptionProblem ContainerOption
  | none => .ok .other
  | some name =>
    match RenameRule.ofName? name with
    | some rule => .ok (.renameAll rule)
    | none => .error (.unknownRule name)

/-- An unknown rule is noticed before anything that stands behind it. -/
def ContainerOption.ofPart (p : Part) : Except OptionProblem ContainerOption := do
  let (path, rest) ← p.path.mapError .malformed
  match path.word? with
  | some "rename_all" =>
    let (name, rest) ← (p.serializedName rest).mapError .malformed
    (Part.closed (← ofRuleName name) rest).mapError .malformed
  | some "default" => (p.valued .default rest).mapError .malformed
  | _ => (p.valued .other rest).mapError .malformed

structure ContainerOptions where
  renameAll : Option RenameRule := none
  default : Bool := false
  deriving DecidableEq, Repr

def ContainerOptions.add (o : ContainerOptions) : ContainerOption → ContainerOptions
  | .renameAll rule => { o with renameAll := some rule }
  | .default => { o with default := true }
  | .other => o

def optionsAttribute : String :=
  "serde"

def optionParts (a : Attribute) : Except OptionProblem (List Part) :=
  if a.path.isWord optionsAttribute then
    match a.argument with
    | .none => .error .noArguments
    | .value _ => .error .noParentheses
    | .list inner => .ok (parts inner)
  else .ok []

def readOptions {α : Type} (read : Part → Except OptionProblem α) (as : List Attribute) :
    Except OptionProblem (List α) := do
  return (← as.mapM fun a => do (← optionParts a).mapM read).flatten

def memberOptions (as : List Attribute) : Except OptionProblem MemberOptions := do
  let options ← readOptions (fun p => (MemberOption.ofPart p).mapError .malformed) as
  return options.foldl MemberOptions.add {}

def containerOptions (as : List Attribute) : Except OptionProblem ContainerOptions := do
  let options ← readOptions ContainerOption.ofPart as
  return options.foldl ContainerOptions.add {}

end ModelSchema.Source
