import ModelSchema.Text.Case

namespace ModelSchema.Source

inductive RenameRule where
  | lower
  | upper
  | pascal
  | camel
  | snake
  | screamingSnake
  | kebab
  | screamingKebab
  deriving DecidableEq, Repr

def upperAscii (cs : List Char) : List Char :=
  cs.map Char.toUpper

def lowerAscii (cs : List Char) : List Char :=
  cs.map Char.toLower

def lowerFirst : List Char → List Char
  | [] => []
  | c :: cs => c.toLower :: cs

def hyphenated (cs : List Char) : List Char :=
  cs.map fun c => if c = '_' then '-' else c

/-- Drops underscores; the letter behind one is a capital, and the first letter if `capital`. -/
def pascalFrom (capital : Bool) : List Char → List Char
  | [] => []
  | c :: cs =>
    if c = '_' then pascalFrom true cs
    else (if capital then c.toUpper else c) :: pascalFrom false cs

def snakeTail : List Char → List Char
  | [] => []
  | c :: cs =>
    if Text.isUppercase c then '_' :: c.toLower :: snakeTail cs else c.toLower :: snakeTail cs

def snakeOf : List Char → List Char
  | [] => []
  | c :: cs => c.toLower :: snakeTail cs

namespace RenameRule

def name : RenameRule → String
  | .lower => "lowercase"
  | .upper => "UPPERCASE"
  | .pascal => "PascalCase"
  | .camel => "camelCase"
  | .snake => "snake_case"
  | .screamingSnake => "SCREAMING_SNAKE_CASE"
  | .kebab => "kebab-case"
  | .screamingKebab => "SCREAMING-KEBAB-CASE"

def all : List RenameRule :=
  [.lower, .upper, .pascal, .camel, .snake, .screamingSnake, .kebab, .screamingKebab]

def ofName? (s : String) : Option RenameRule :=
  all.find? fun r => r.name == s

def fieldChars (cs : List Char) : RenameRule → List Char
  | .lower => cs
  | .upper => upperAscii cs
  | .pascal => pascalFrom true cs
  | .camel => lowerFirst (pascalFrom true cs)
  | .snake => cs
  | .screamingSnake => upperAscii cs
  | .kebab => hyphenated cs
  | .screamingKebab => hyphenated (upperAscii cs)

def variantChars (cs : List Char) : RenameRule → List Char
  | .lower => lowerAscii cs
  | .upper => upperAscii cs
  | .pascal => cs
  | .camel => lowerFirst cs
  | .snake => snakeOf cs
  | .screamingSnake => upperAscii (snakeOf cs)
  | .kebab => hyphenated (snakeOf cs)
  | .screamingKebab => hyphenated (upperAscii (snakeOf cs))

def field (r : RenameRule) (name : String) : String :=
  String.ofList (r.fieldChars name.toList)

def variant (r : RenameRule) (name : String) : String :=
  String.ofList (r.variantChars name.toList)

end RenameRule

end ModelSchema.Source
