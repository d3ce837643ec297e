import ModelSchema.Source.Token

namespace ModelSchema.Source

inductive Expected where
  | item
  | identifier
  | word
  | segment
  | listSegment
  | squareBrackets
  | curlyBraces
  | parentheses
  | body
  | bodyAfterWhere
  | tupleEnd
  | type
  | pointee
  | expression
  | literal
  | stringLiteral
  | listItem
  | option
  deriving DecidableEq, Repr

def Expected.text : Expected → String
  | .item => "one of: `struct`, `enum`, `union`"
  | .identifier => "identifier"
  | .word => "ident"
  | .segment => "path segment after `::`"
  | .listSegment => "path segment"
  | .squareBrackets => "square brackets"
  | .curlyBraces => "curly braces"
  | .parentheses => "parentheses"
  | .body => "one of: `where`, parentheses, curly braces, `;`"
  | .bodyAfterWhere => "curly braces or `;`"
  | .tupleEnd => "`where` or `;`"
  | .type =>
    "one of: `for`, parentheses, `fn`, `unsafe`, `extern`, identifier, `::`, `<`, `dyn`, " ++
      "square brackets, `*`, `&`, `!`, `impl`, `_`, lifetime"
  | .pointee => "`mut` or `const`"
  | .expression => "an expression"
  | .literal => "literal"
  | .stringLiteral => "string literal"
  | .listItem => "identifier or literal"
  | .option => "nested attribute"

inductive Fault where
  | unreadable
  | expected (what : Expected) (atEnd : Bool)
  | expectedMark (mark : Char)
  | keyword (name : String)
  | literalOption
  | strayOption
  | leftover
  deriving DecidableEq, Repr

/-- A missing mark is reported in the same words wherever the tokens end. -/
def Fault.message : Fault → String
  | .unreadable => "cannot parse string into token stream"
  | .expected what true => "unexpected end of input, expected " ++ what.text
  | .expected what false => "expected " ++ what.text
  | .expectedMark c => "expected `" ++ c.toString ++ "`"
  | .keyword name => "expected identifier, found keyword `" ++ name ++ "`"
  | .literalOption => "unexpected literal in nested attribute, expected ident"
  | .strayOption => "unexpected token in nested attribute, expected ident"
  | .leftover => "unexpected token"

end ModelSchema.Source
