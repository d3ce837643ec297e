import ModelSchema.Text.Blank

namespace ModelSchema.Source

inductive Delimiter where
  | paren
  | bracket
  | brace
  deriving DecidableEq, Repr

namespace Delimiter

def opening : Delimiter → Char
  | .paren => '('
  | .bracket => '['
  | .brace => '{'

def closing : Delimiter → Char
  | .paren => ')'
  | .bracket => ']'
  | .brace => '}'

end Delimiter

inductive Literal where
  | string (value : String)
  | byteString
  | zeroEndedString
  | byte
  | char
  | int
  | float
  deriving DecidableEq, Repr

/-- A mark is joint if another mark follows it at once. -/
inductive Token where
  | word (name : String) (isRaw : Bool)
  | lifetime (name : String)
  | mark (char : Char) (isJoint : Bool)
  | literal (value : Literal) (text : String)
  | group (delimiter : Delimiter) (inner : List Token)
  deriving Repr

mutual

def Token.text : Token → List Char
  | .word name true => 'r' :: '#' :: name.toList
  | .word name false => name.toList
  | .lifetime name => '\'' :: name.toList
  | .mark c _ => [c]
  | .literal _ text => Text.squeeze text.toList
  | .group d inner => d.opening :: (tokensText inner ++ [d.closing])

def tokensText : List Token → List Char
  | [] => []
  | t :: ts => t.text ++ tokensText ts

end

def squeezed (ts : List Token) : String :=
  String.ofList (tokensText ts)

/-- Words that name no type, field or variant unless they are written raw. -/
def keywords : List String :=
  ["_", "abstract", "as", "async", "await", "become", "box", "break", "const", "continue", "crate",
    "do", "dyn", "else", "enum", "extern", "false", "final", "fn", "for", "if", "impl", "in", "let",
    "loop", "macro", "match", "mod", "move", "mut", "override", "priv", "pub", "ref", "return",
    "Self", "self", "static", "struct", "super", "trait", "true", "try", "type", "typeof", "unsafe",
    "unsized", "use", "virtual", "where", "while", "yield"]

def pathKeywords : List String :=
  ["super", "self", "Self", "crate", "try"]

end ModelSchema.Source
