import ModelSchema.Source.TypeExtent

namespace ModelSchema.Source

inductive Form where
  | literal (value : Literal)
  | truth (value : Bool)
  | path
  | qualifiedPath
  | array
  | assign
  | await
  | binary
  | block
  | call
  | cast
  | closure
  | field
  | index
  | infer
  | invocation
  | methodCall
  | paren
  | range
  | record
  | reference
  | repetition
  | attempt
  | tuple
  | unary
  | keyword (name : String)
  deriving DecidableEq, Repr

def Literal.label : Literal → String
  | .string _ => "string"
  | .byteString => "byte string"
  | .zeroEndedString => "unknown"
  | .byte => "byte"
  | .char => "char"
  | .int => "int"
  | .float => "float"

def Form.label : Form → String
  | .literal v => v.label
  | .truth _ => "bool"
  | .path | .qualifiedPath => "path"
  | .array => "array"
  | .assign => "assign"
  | .await => "await"
  | .binary => "binary"
  | .block => "block"
  | .call => "call"
  | .cast => "cast"
  | .closure => "closure"
  | .field => "field"
  | .index => "index"
  | .infer => "infer"
  | .invocation => "macro"
  | .methodCall => "method_call"
  | .paren => "paren"
  | .range => "range"
  | .record => "struct"
  | .reference => "reference"
  | .repetition => "repeat"
  | .attempt => "try"
  | .tuple => "tuple"
  | .unary => "unary"
  | .keyword name => if name = "for" then "for_loop" else name

structure Expression where
  form : Form
  tokens : List Token
  deriving Repr

def leadingKeywords : List String :=
  ["async", "break", "const", "continue", "for", "if", "let", "loop", "match", "return", "unsafe",
    "while", "yield"]

/-- A longer operator comes before those it begins with. A heavy arrow is none. -/
def operators : List String :=
  ["<<=", ">>=", "..=", "...", "=>", "&&", "||", "<<", ">>", "+=", "-=", "*=", "/=", "%=", "^=", "&=",
    "|=", "==", "<=", ">=", "!=", "..", "+", "-", "*", "/", "%", "^", "&", "|", "<", ">", "="]

def afterMarks? : List Char → List Token → Option (List Token)
  | [], ts => some ts
  | [c], .mark d _ :: rest => if c = d then some rest else none
  | c :: cs, .mark d true :: rest => if c = d then afterMarks? cs rest else none
  | _, _ => none

def operator? (ts : List Token) : Option (String × List Token) :=
  match operators.findSome? fun o => (afterMarks? o.toList ts).map fun rest => (o, rest) with
  | some ("=>", _) => none
  | found => found

/-- The form of two operands with an operator between them: the loosest operator gives it. -/
def Form.joined (operator : String) (left right : Form) : Form :=
  if operator = "=" ∨ left = .assign ∨ right = .assign then .assign
  else if operator.startsWith ".." ∨ left = .range ∨ right = .range then .range
  else .binary

def parenForm (inner : List Token) : Form :=
  if inner.isEmpty || inner.any (·.isMark ',') then .tuple else .paren

def arrayForm (inner : List Token) : Form :=
  if inner.any (·.isMark ';') then .repetition else .array

def atItemEnd (ts : List Token) : Bool :=
  ts.isEmpty || begins (·.isMark ',') ts

namespace Reader

def giving {α : Type} (form : Form) (r : Reader α) : Reader Form := do
  let _ ← r
  return form

def restOfItem (form : Form) : Reader Form :=
  fun ts => .ok (form, ts.dropWhile fun t => !t.isMark ',')

def valueSegments : Nat → Form → Reader Form
  | 0, form => return form
  | fuel + 1, form => fun ts =>
    match afterColons? ts with
    | none => .ok (form, ts)
    | some rest =>
      if begins (·.isMark '<') rest then (do angles; valueSegments fuel form) (rest.drop 1)
      else if begins Token.isSegment rest then valueSegments fuel form (rest.drop 1)
      else fail .identifier rest

def applied (form : Form) : Reader Form
  | .mark '!' false :: .group _ _ :: rest => .ok (.invocation, rest)
  | .group .brace _ :: rest => .ok (.record, rest)
  | ts => .ok (form, ts)

def suffixes : Nat → Form → Reader Form
  | 0, form => return form
  | fuel + 1, form => fun ts =>
    match ts with
    | .group .paren _ :: rest => suffixes fuel .call rest
    | .group .bracket _ :: rest => suffixes fuel .index rest
    | .mark '?' _ :: rest => suffixes fuel .attempt rest
    | .mark '.' false :: t :: rest =>
      if t.isWord "await" then suffixes fuel .await rest
      else if t matches .literal _ _ then suffixes fuel .field rest
      else if t.isIdentifier then
        (do
          let _ ← valueSegments fuel .field
          match ← get with
          | .group .paren _ :: rest => do
            set rest
            suffixes fuel .methodCall
          | _ => suffixes fuel .field) rest
      else .ok (form, ts)
    | _ => .ok (form, ts)

def operand : Nat → Reader Form
  | 0 => fail .expression
  | fuel + 1 => fun ts =>
    match ts with
    | [] => fail .expression ts
    | .literal v _ :: rest => suffixes fuel (.literal v) rest
    | .group .paren inner :: rest => suffixes fuel (parenForm inner) rest
    | .group .bracket inner :: rest => suffixes fuel (arrayForm inner) rest
    | .group .brace _ :: rest => suffixes fuel .block rest
    | .lifetime _ :: rest => if begins (·.isMark ':') rest then operand fuel (rest.drop 1)
      else fail .expression ts
    | .mark '|' _ :: rest => restOfItem .closure rest
    | .mark '<' _ :: rest =>
      (do angles; let form ← valueSegments fuel .qualifiedPath; suffixes fuel form) rest
    | .mark '&' _ :: rest =>
      giving .reference (do
        let _ ← skip (·.isWord "mut")
        operand fuel) rest
    | .mark '.' true :: .mark '.' _ :: rest =>
      giving .range (do
        let _ ← skip (·.isMark '=')
        if atItemEnd (← get) then return .range
        operand fuel) rest
    | .mark c _ :: rest =>
      if c ∈ ['-', '!', '*'] then giving .unary (operand fuel) rest
      else
        match afterColons? ts with
        | some _ => (do suffixes fuel (← applied (← valueSegments fuel .path))) ts
        | none => fail .expression ts
    | t :: rest =>
      if t.isWord "true" || t.isWord "false" then suffixes fuel (.truth (t.isWord "true")) rest
      else if t.isWord "_" then .ok (.infer, rest)
      else if t.isWord "move" || t.isWord "static" then restOfItem .closure rest
      else
        match leadingKeywords.find? t.isWord with
        | some name => restOfItem (.keyword name) rest
        | none =>
          if t.isSegment then
            (do suffixes fuel (← applied (← valueSegments fuel .path))) rest
          else fail .expression ts

def operands : Nat → Form → Reader Form
  | 0, form => return form
  | fuel + 1, form => fun ts =>
    if begins (·.isWord "as") ts then
      (do
        let _ ← readType
        operands fuel .cast) (ts.drop 1)
    else
      match operator? ts with
      | none => .ok (form, ts)
      | some (o, rest) =>
        if o.startsWith ".." && atItemEnd rest then .ok (.range, rest)
        else
          (do
            let right ← operand fuel
            operands fuel (.joined o form right)) rest

def form : Reader Form :=
  fun ts => (do operands (2 * ts.length + 2) (← operand (2 * ts.length + 2))) ts

end Reader

def soleLiteral? : List Token → Option Form
  | [.literal v _] => some (.literal v)
  | [.mark '-' _, .literal v _] => if v = .int ∨ v = .float then some (.literal v) else none
  | _ => none

def readExpression : Reader Expression := fun ts =>
  match soleLiteral? ts with
  | some form => .ok (⟨form, ts⟩, [])
  | none => do
    let (form, rest) ← Reader.form ts
    return (⟨form, ts.take (ts.length - rest.length)⟩, rest)

end ModelSchema.Source
